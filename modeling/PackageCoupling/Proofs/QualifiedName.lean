import Mathlib.Data.List.Basic
import Mathlib.Logic.Relation
import PackageCoupling.QualifiedName

namespace PackageCoupling

namespace QualifiedName

variable {separators : List (List Char)} {text rest left right : List Char}

-- A place in a text where a separator stands.
structure Occurrence (separators : List (List Char)) (text : List Char) where
  before : List Char
  separator : List Char
  after : List Char
  mem : separator ∈ separators
  eq : before ++ separator ++ after = text

namespace Occurrence

def start (place : Occurrence separators text) : Nat :=
  place.before.length

def stop (place : Occurrence separators text) : Nat :=
  place.before.length + place.separator.length

-- The separator ends last, and of those that end there it starts first.
def IsLast (place : Occurrence separators text) : Prop :=
  ∀ other : Occurrence separators text,
    other.stop ≤ place.stop ∧ (other.stop = place.stop → place.start ≤ other.start)

theorem stop_add_length (place : Occurrence separators text) : place.stop + place.after.length = text.length := by
  have he := congrArg List.length place.eq
  rwa [List.length_append, List.length_append] at he

theorem IsLast.unique {place other : Occurrence separators text} (h : place.IsLast) (h' : other.IsLast) :
    place.before = other.before ∧ place.after = other.after := by
  have hs : place.stop = other.stop := Nat.le_antisymm (h' place).left (h other).left
  have hb : place.start = other.start := Nat.le_antisymm ((h other).right hs.symm) ((h' place).right hs)
  have he : place.before ++ (place.separator ++ place.after) = other.before ++ (other.separator ++ other.after) := by
    rw [← List.append_assoc, ← List.append_assoc, place.eq, other.eq]
  obtain ⟨hb, he⟩ := List.append_inj he hb
  have hl : place.separator.length = other.separator.length := by
    simp only [stop, hb] at hs
    omega
  exact ⟨hb, (List.append_inj he hl).right⟩

def prepend (left : List Char) (place : Occurrence separators text) : Occurrence separators (left ++ text) where
  before    := left ++ place.before
  separator := place.separator
  after     := place.after
  mem       := place.mem
  eq        := by simpa using place.eq

def append (right : List Char) (place : Occurrence separators text) : Occurrence separators (text ++ right) where
  before    := place.before
  separator := place.separator
  after     := place.after ++ right
  mem       := place.mem
  eq        := by simpa using congrArg (· ++ right) place.eq

theorem start_prepend (place : Occurrence separators text) : (place.prepend left).start = left.length + place.start :=
  List.length_append

theorem stop_prepend (place : Occurrence separators text) : (place.prepend left).stop = left.length + place.stop := by
  simp only [stop, prepend, List.length_append, Nat.add_assoc]

theorem exists_prepend (place : Occurrence separators (left ++ text)) (h : left.length ≤ place.start) :
    ∃ part : Occurrence separators text, place = part.prepend left := by
  obtain ⟨before, separator, after, mem, eq⟩ := place
  rw [List.append_assoc] at eq
  obtain ⟨part, rfl⟩ : left <+: before := List.prefix_of_prefix_length_le ⟨_, rfl⟩ ⟨_, eq⟩ h
  refine ⟨⟨part, separator, after, mem, ?_⟩, rfl⟩
  simpa using eq

theorem exists_append (place : Occurrence separators (text ++ right)) (h : place.stop ≤ text.length) :
    ∃ part : Occurrence separators text, place = part.append right := by
  obtain ⟨before, separator, after, mem, eq⟩ := place
  have h : (before ++ separator).length ≤ text.length := by simpa [stop] using h
  obtain ⟨part, rfl⟩ : before ++ separator <+: text := List.prefix_of_prefix_length_le ⟨_, eq⟩ ⟨_, rfl⟩ h
  obtain rfl : after = part ++ right := by simpa using eq
  exact ⟨⟨before, separator, part, mem, rfl⟩, rfl⟩

end Occurrence

theorem endingLength?_eq_none {front : List Char} (h : endingLength? separators front = none) {s : List Char}
    (hs : s ∈ separators) : ¬ s <+: front := by
  rw [endingLength?, List.max?_eq_none_iff, List.map_eq_nil_iff, List.filter_eq_nil_iff] at h
  exact fun hp => h s hs (List.isPrefixOf_iff_prefix.mpr hp)

theorem endingLength?_eq_some {front : List Char} {length : Nat} (h : endingLength? separators front = some length) :
    (∃ s ∈ separators, s <+: front ∧ s.length = length) ∧ ∀ s ∈ separators, s <+: front → s.length ≤ length := by
  rw [endingLength?, List.max?_eq_some_iff] at h
  simp only [List.mem_map, List.mem_filter, List.isPrefixOf_iff_prefix] at h
  obtain ⟨⟨s, ⟨hs, hp⟩, hl⟩, hm⟩ := h
  exact ⟨⟨s, hs, hp, hl⟩, fun s hs hp => hm _ ⟨s, ⟨hs, hp⟩, rfl⟩⟩

theorem Occurrence.reverse_prefix {front : List Char} (place : Occurrence separators front.reverse)
    (h : front.length ≤ place.stop) : place.separator.reverse <+: front := by
  have hl := place.stop_add_length
  rw [List.length_reverse] at hl
  have ha : place.after = [] := List.eq_nil_of_length_eq_zero (by omega)
  rw [← List.reverse_suffix, List.reverse_reverse]
  exact ⟨place.before, by simpa [ha] using place.eq⟩

theorem stop_le_of_endingLength? {c : Char} {front : List Char}
    (h : endingLength? (separators.map List.reverse) (c :: front) = none)
    (place : Occurrence separators (c :: front).reverse) : place.stop ≤ front.reverse.length := by
  refine Nat.le_of_not_lt fun hs => endingLength?_eq_none h (List.mem_map_of_mem place.mem) (place.reverse_prefix ?_)
  rwa [List.length_reverse] at hs

-- By induction along the text from its end. Of the separators that end in the same place the longest one is taken.
theorem exists_of_cutFrom {front back before after : List Char}
    (h : cutFrom (separators.map List.reverse) front back = some (before, after)) :
    ∃ place : Occurrence separators front.reverse,
      place.IsLast ∧ place.before = before ∧ place.after ++ back = after := by
  induction front generalizing back
  case nil => simp [cutFrom] at h
  case cons c front hi =>
    rw [cutFrom] at h
    split at h
    case h_1 length hl =>
      obtain ⟨rfl, rfl⟩ := Prod.mk.inj (Option.some.inj h)
      obtain ⟨⟨s', hs', hp, rfl⟩, hm⟩ := endingLength?_eq_some hl
      obtain ⟨s, hs, rfl⟩ := List.mem_map.mp hs'
      have he : ((c :: front).drop s.reverse.length).reverse ++ s ++ [] = (c :: front).reverse := by
        rw [List.append_nil, ← List.reverse_reverse s, ← List.reverse_append, List.reverse_reverse,
          List.prefix_iff_eq_append.mp hp]
      refine ⟨⟨_, s, [], hs, he⟩, fun other => ?_, rfl, rfl⟩
      have hl := congrArg List.length he
      have ho := other.stop_add_length
      simp only [List.length_append, List.length_reverse, List.length_nil, Nat.add_zero] at hl ho
      simp only [Occurrence.start, Occurrence.stop, List.length_reverse] at ho ⊢
      refine ⟨by omega, fun hs => ?_⟩
      have hx := hm _ (List.mem_map_of_mem other.mem) (other.reverse_prefix (by rw [Occurrence.stop]; omega))
      simp only [List.length_reverse] at hx
      omega
    case h_2 hn =>
      have ho := stop_le_of_endingLength? hn
      obtain ⟨place, hl, hb, ha⟩ := hi h
      rw [List.reverse_cons] at ho ⊢
      refine ⟨place.append [c], fun other => ?_, hb, by simpa [Occurrence.append] using ha⟩
      obtain ⟨part, rfl⟩ := other.exists_append (ho other)
      exact hl part

theorem isEmpty_of_cutFrom (hn : [] ∉ separators) {front back : List Char}
    (h : cutFrom (separators.map List.reverse) front back = none) : IsEmpty (Occurrence separators front.reverse) := by
  induction front generalizing back
  case nil =>
    refine ⟨fun place => hn ?_⟩
    have he := place.eq
    simp only [List.reverse_nil, List.append_eq_nil_iff] at he
    exact he.left.right ▸ place.mem
  case cons c front hi =>
    rw [cutFrom] at h
    split at h
    case h_1 => cases h
    case h_2 hn =>
      have ho := stop_le_of_endingLength? hn
      rw [List.reverse_cons] at ho ⊢
      refine ⟨fun place => ?_⟩
      obtain ⟨part, _⟩ := place.exists_append (ho place)
      exact (hi h).false part

theorem exists_of_cut? {before after : List Char} (h : cut? separators text = some (before, after)) :
    ∃ place : Occurrence separators text, place.IsLast ∧ place.before = before ∧ place.after = after := by
  have hc := exists_of_cutFrom h
  rw [List.reverse_reverse] at hc
  simpa using hc

theorem isEmpty_of_cut? (hn : [] ∉ separators) (h : cut? separators text = none) :
    IsEmpty (Occurrence separators text) := by
  simpa using isEmpty_of_cutFrom hn h

theorem Occurrence.exists_isLast (hn : [] ∉ separators) (place : Occurrence separators text) :
    ∃ last : Occurrence separators text, last.IsLast := by
  cases hc : cut? separators text
  case none => exact ((isEmpty_of_cut? hn hc).false place).elim
  case some =>
    obtain ⟨last, hl, _⟩ := exists_of_cut? hc
    exact ⟨last, hl⟩

theorem Occurrence.IsLast.cut?_eq (hn : [] ∉ separators) {place : Occurrence separators text} (h : place.IsLast) :
    cut? separators text = some (place.before, place.after) := by
  cases hc : cut? separators text
  case none => exact ((isEmpty_of_cut? hn hc).false place).elim
  case some parts =>
    obtain ⟨last, hl, hb, ha⟩ := exists_of_cut? hc
    obtain ⟨hb', ha'⟩ := h.unique hl
    rw [hb', ha', hb, ha]

theorem length_pos_of_mem (hn : [] ∉ separators) {s : List Char} (hs : s ∈ separators) : 0 < s.length :=
  List.length_pos_iff.mpr fun he => hn (he ▸ hs)

theorem Occurrence.start_lt_stop (hn : [] ∉ separators) (place : Occurrence separators text) :
    place.start < place.stop := by
  have hs := length_pos_of_mem hn place.mem
  rw [start, stop]
  omega

theorem Occurrence.IsLast.isEmpty_after (hn : [] ∉ separators) {place : Occurrence separators text} (h : place.IsLast) :
    IsEmpty (Occurrence separators place.after) := by
  refine ⟨fun part => ?_⟩
  have he : place.before ++ place.separator ++ part.before ++ part.separator ++ part.after = text := by
    rw [List.append_assoc _ part.before, List.append_assoc _ _ part.after, part.eq, place.eq]
  have hl := (h ⟨_, part.separator, part.after, part.mem, he⟩).left
  have hs := part.start_lt_stop hn
  simp only [stop, start, List.length_append] at hl hs
  omega

def Strips (separators : List (List Char)) (text rest : List Char) : Prop :=
  ∃ earlier s later, separators = earlier ++ s :: later ∧ (∀ r ∈ earlier, ¬ r <+: text) ∧ s ++ rest = text

theorem strips_iff :
    Strips separators text rest ↔ ∃ s, separators.find? (·.isPrefixOf text) = some s ∧ s ++ rest = text := by
  simp only [Strips, List.find?_eq_some_iff_append, Bool.not_eq_true', ← Bool.not_eq_true,
    List.isPrefixOf_iff_prefix]
  constructor
  case mp =>
    rintro ⟨earlier, s, later, hs, he, rfl⟩
    exact ⟨s, ⟨List.prefix_append s rest, earlier, later, hs, he⟩, rfl⟩
  case mpr =>
    rintro ⟨s, ⟨_, earlier, later, hs, he⟩, rfl⟩
    exact ⟨earlier, s, later, hs, he, rfl⟩

theorem Strips.mem (h : Strips separators text rest) : ∃ s ∈ separators, s ++ rest = text := by
  obtain ⟨earlier, s, later, rfl, _, he⟩ := h
  exact ⟨s, by simp, he⟩

theorem Strips.exists_of_prefix {s : List Char} (hs : s ∈ separators) (hp : s <+: text) :
    ∃ rest, Strips separators text rest := by
  cases hf : separators.find? (·.isPrefixOf text)
  case none => exact absurd (List.isPrefixOf_iff_prefix.mpr hp) (List.find?_eq_none.mp hf s hs)
  case some s' =>
    have hp' := List.find?_some hf
    obtain ⟨rest, he⟩ := List.isPrefixOf_iff_prefix.mp hp'
    exact ⟨rest, strips_iff.mpr ⟨s', hf, he⟩⟩

theorem find?_nonempty (hn : [] ∉ separators) :
    (separators.find? fun s => !s.isEmpty && s.isPrefixOf text) = separators.find? (·.isPrefixOf text) := by
  induction separators
  case nil => rfl
  case cons s separators hi =>
    rw [List.mem_cons, not_or] at hn
    have hs : s.isEmpty = false := List.isEmpty_eq_false_iff.mpr (Ne.symm hn.left)
    simp only [List.find?_cons, hs, hi hn.right, Bool.not_false, Bool.true_and]

theorem stripLeading_of_strips (hn : [] ∉ separators) (h : Strips separators text rest) :
    stripLeading separators text = stripLeading separators rest := by
  obtain ⟨s, hf, rfl⟩ := strips_iff.mp h
  rw [← find?_nonempty hn] at hf
  rw [stripLeading]
  split
  case h_1 hf' => simp [hf] at hf'
  case h_2 s' hf' =>
    obtain rfl := Option.some.inj (hf.symm.trans hf')
    rw [List.drop_left]

theorem stripLeading_eq_self (h : ∀ s ∈ separators, ¬ s <+: text) : stripLeading separators text = text := by
  rw [stripLeading]
  split
  case h_1 => rfl
  case h_2 s hf =>
    have hs := List.find?_some hf
    rw [Bool.and_eq_true, List.isPrefixOf_iff_prefix] at hs
    exact absurd hs.right (h s (List.mem_of_find?_eq_some hf))

theorem strips_stripLeading (hn : [] ∉ separators) (text : List Char) :
    Relation.ReflTransGen (Strips separators) text (stripLeading separators text)
      ∧ ∀ s ∈ separators, ¬ s <+: stripLeading separators text := by
  fun_induction stripLeading separators text
  case case1 text hf =>
    rw [find?_nonempty hn] at hf
    refine ⟨.refl, fun s hs hp => ?_⟩
    exact List.find?_eq_none.mp hf s hs (List.isPrefixOf_iff_prefix.mpr hp)
  case case2 text s hf _ hi =>
    rw [find?_nonempty hn] at hf
    have hp := List.find?_some hf
    have hs : Strips separators text (text.drop s.length) :=
      strips_iff.mpr ⟨s, hf, List.prefix_iff_eq_append.mp (List.isPrefixOf_iff_prefix.mp hp)⟩
    exact ⟨.head hs hi.left, hi.right⟩

-- A text that consists of separators only.
def IsRow (separators : List (List Char)) (text : List Char) : Prop :=
  ∃ parts : List (List Char), (∀ s ∈ parts, s ∈ separators) ∧ parts.flatten = text

namespace IsRow

theorem nil : IsRow separators [] :=
  ⟨[], by simp, rfl⟩

theorem cons {s : List Char} (hs : s ∈ separators) (h : IsRow separators text) : IsRow separators (s ++ text) := by
  obtain ⟨parts, hp, rfl⟩ := h
  exact ⟨s :: parts, List.forall_mem_cons.mpr ⟨hs, hp⟩, List.flatten_cons⟩

end IsRow

theorem exists_row_of_strips (h : Relation.ReflTransGen (Strips separators) text rest) :
    ∃ row, IsRow separators row ∧ row ++ rest = text := by
  induction h using Relation.ReflTransGen.head_induction_on
  case refl => exact ⟨[], .nil, rfl⟩
  case head hs _ hi =>
    obtain ⟨row, hr, rfl⟩ := hi
    obtain ⟨s, hm, rfl⟩ := hs.mem
    exact ⟨s ++ row, hr.cons hm, List.append_assoc ..⟩

end QualifiedName

-- A table of built-in types has a type of that name, whatever the case of its letters.
def BuiltinTable.Lists (table : BuiltinTable) (name : String) : Prop :=
  ∃ type ∈ table.types, Text.lowercase type = Text.lowercase name

namespace Config

variable {config : Config}

-- The package of a name that does not say which one it belongs to.
inductive Home (config : Config) (withBuiltins : Bool) (name : String) : String → Prop
  | builtin {earlier table later} (hb : withBuiltins) (ht : config.builtins = earlier ++ table :: later)
    (hl : table.Lists name) (he : ∀ t ∈ earlier, ¬ t.Lists name) : Home config withBuiltins name table.package
  | default (hn : withBuiltins → ∀ table ∈ config.builtins, ¬ table.Lists name) :
    Home config withBuiltins name config.defaultPackage

theorem nil_not_mem_separators (h : config.validate = .ok ()) : [] ∉ config.separators.map String.toList := by
  rw [validate] at h
  cases hf : config.fault? <;> rw [hf] at h <;> cases h
  simp only [fault?] at hf
  split at hf
  case isTrue => cases hf
  case isFalse =>
    split at hf
    case isTrue => cases hf
    case isFalse hs =>
      simpa using hs

theorem home_builtinPackage? (withBuiltins : Bool) (name : String) : config.Home withBuiltins name
    ((if withBuiltins then config.builtinPackage? (Text.lowercase name) else none).getD config.defaultPackage) := by
  cases withBuiltins
  case false => exact .default (by simp)
  case true =>
    simp only [if_true, builtinPackage?]
    cases hf : config.builtins.find? fun table => table.types.any (Text.lowercase · == Text.lowercase name)
    case none =>
      refine .default fun _ table ht => ?_
      simpa [BuiltinTable.Lists] using List.find?_eq_none.mp hf table ht
    case some table =>
      obtain ⟨hl, earlier, later, ht, he⟩ := List.find?_eq_some_iff_append.mp hf
      exact .builtin rfl ht (by simpa [BuiltinTable.Lists] using hl) fun t ht => by
        simpa [BuiltinTable.Lists] using he t ht

end Config

namespace QualifiedName

variable {config : Config} {name : String}

theorem split_of_isLast (hv : config.validate = .ok ()) (withBuiltins : Bool)
    {place : Occurrence (config.separators.map String.toList) name.toList} (h : place.IsLast) :
    let package := stripLeading (config.separators.map String.toList) place.before
    split config withBuiltins name = {
      localName := .ofList place.after
      key := Text.lowercase (.ofList place.after)
      package := if package = [] then config.defaultPackage else .ofList package } := by
  rw [split, h.cut?_eq (Config.nil_not_mem_separators hv)]
  simp

theorem split_of_isEmpty (withBuiltins : Bool)
    (h : IsEmpty (Occurrence (config.separators.map String.toList) name.toList)) :
    (split config withBuiltins name).localName = name
      ∧ config.Home withBuiltins name (split config withBuiltins name).package := by
  rw [split]
  cases hc : cut? (config.separators.map String.toList) name.toList
  case none => exact ⟨rfl, Config.home_builtinPackage? withBuiltins name⟩
  case some =>
    obtain ⟨place, _⟩ := exists_of_cut? hc
    exact (h.false place).elim

-- Given a configuration that is valid, every name is split, if there is a separator in it then at the one that ends
-- last and of those that end there starts first, such that no separator is left in the local name or in front of the
-- package. To take separators off the front comes to an end. A name without a separator belongs to the package of the
-- first table of built-in types that lists it, or else to the default package.
theorem names_are_split_at_last_separator (hv : config.validate = .ok ()) (withBuiltins : Bool) (name : String) :
    let separators := config.separators.map String.toList
    let parts := split config withBuiltins name
    parts.key = Text.lowercase parts.localName
    ∧ (IsEmpty (Occurrence separators name.toList) →
      parts.localName = name ∧ config.Home withBuiltins name parts.package)
    ∧ (Nonempty (Occurrence separators name.toList) → ∃ place : Occurrence separators name.toList, place.IsLast
      ∧ parts.localName = .ofList place.after ∧ IsEmpty (Occurrence separators place.after)
      ∧ ∃ row package, place.before = row ++ package ∧ IsRow separators row ∧ (∀ s ∈ separators, ¬ s <+: package)
        ∧ Relation.ReflTransGen (Strips separators) place.before package
        ∧ parts.package = if package = [] then config.defaultPackage else .ofList package) := by
  intro separators parts
  have hn : [] ∉ separators := Config.nil_not_mem_separators hv
  refine ⟨?key, fun h => split_of_isEmpty withBuiltins h, fun h => ?qualified⟩
  case key =>
    simp only [parts, split]
    split <;> rfl
  case qualified =>
    obtain ⟨place⟩ := h
    obtain ⟨place, hl⟩ := place.exists_isLast hn
    have hp := split_of_isLast hv withBuiltins hl
    obtain ⟨hs, hb⟩ := strips_stripLeading hn place.before
    obtain ⟨row, hr, he⟩ := exists_row_of_strips hs
    exact ⟨place, hl, congrArg (·.localName) hp, hl.isEmpty_after hn, row, _, he.symm, hr, hb, hs,
      congrArg (·.package) hp⟩

-- One separator is the beginning of another one, and both of them stand before and after the name of the package.
theorem names_are_split_at_last_separator_overlapping :
    let config : Config := { separators := [":", "::"] }
    let separators := config.separators.map String.toList
    config.validate = .ok () ∧ Nonempty (Occurrence separators ":::a:b::C".toList)
    ∧ ∃ place : Occurrence separators ":::a:b::C".toList, place.IsLast ∧ place.after = ['C']
      ∧ ∃ row, place.before = row ++ "a:b".toList ∧ IsRow separators row := by
  intro config separators
  have hv : Config.validate { separators := [":", "::"] } = .ok () := rfl
  have ho : Nonempty (Occurrence separators ":::a:b::C".toList) := ⟨⟨[], [':'], "::a:b::C".toList, by decide, by decide⟩⟩
  have hs : split config true ":::a:b::C" = { localName := "C", key := "c", package := "a:b" } := by decide +kernel
  obtain ⟨place, hl, ha, _, row, package, hb, hr, _, _, hp⟩ :=
    (names_are_split_at_last_separator hv true ":::a:b::C").right.right ho
  rw [hs] at ha hp
  refine ⟨hv, ho, place, hl, ?_, row, ?_, hr⟩
  case refine_1 => simpa using (congrArg String.toList ha).symm
  case refine_2 =>
    split at hp
    case isTrue  => simp at hp
    case isFalse => rw [hb, ← String.toList_ofList (l := package), ← hp]

end QualifiedName
end PackageCoupling
