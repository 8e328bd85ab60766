import Mathlib.Data.List.Induction
import PackageCoupling.Proofs.QualifiedName

namespace PackageCoupling.QualifiedName

variable {separators : List (List Char)} {text rest right row separator name : List Char}

namespace IsRow

theorem append (h : IsRow separators row) (h' : IsRow separators text) : IsRow separators (row ++ text) := by
  obtain ⟨parts, hp, rfl⟩ := h
  obtain ⟨parts', hp', rfl⟩ := h'
  exact ⟨parts ++ parts', List.forall_mem_append.mpr ⟨hp, hp'⟩, List.flatten_append⟩

theorem of_mem {s : List Char} (h : s ∈ separators) : IsRow separators s :=
  ⟨[s], by simpa using h, by simp⟩

end IsRow

theorem Strips.append (h : Strips separators text rest) (hr : ∀ s ∈ separators, s <+: text ++ right → s <+: text) :
    Strips separators (text ++ right) (rest ++ right) := by
  obtain ⟨earlier, s, later, hs, he, rfl⟩ := h
  refine ⟨earlier, s, later, hs, fun r hm hp => ?_, (List.append_assoc ..).symm⟩
  exact he r hm (hr r (hs ▸ List.mem_append_left _ hm) hp)

theorem stripLeading_of_run (hn : [] ∉ separators) (h : Relation.ReflTransGen (Strips separators) text rest) :
    stripLeading separators text = stripLeading separators rest := by
  induction h
  case refl         => rfl
  case tail _ hs hi => exact hi.trans (stripLeading_of_strips hn hs)

theorem stripLeading_nil (hn : [] ∉ separators) : stripLeading separators [] = [] :=
  stripLeading_eq_self fun _ hs hp => hn (List.prefix_nil.mp hp ▸ hs)

theorem stripLeading_of_first (hn : [] ∉ separators) {earlier later : List (List Char)}
    (hs : separators = earlier ++ separator :: later) (he : ∀ s ∈ earlier, ¬ s <+: separator) :
    stripLeading separators separator = [] := by
  have hr : Strips separators separator [] := ⟨earlier, separator, later, hs, he, List.append_nil separator⟩
  rw [stripLeading_of_strips hn hr, stripLeading_nil hn]

-- A leading separator that keeps to itself. No separator reaches from it into the name, and nothing is left of it when
-- leading separators are taken off.
structure Apart (separators : List (List Char)) (separator name : List Char) : Prop where
  contained : ∀ place : Occurrence separators (separator ++ name),
    place.start < separator.length → place.stop ≤ separator.length
  stripped : stripLeading separators separator = []

-- By induction along what is taken off the separator. The same is taken off if the name follows, because no separator
-- reaches into the name.
theorem Apart.run (hn : [] ∉ separators) {before after : List Char} (h : Apart separators separator (before ++ after)) :
    Relation.ReflTransGen (Strips separators) (separator ++ before) before := by
  have hr := (strips_stripLeading hn separator).left
  rw [h.stripped] at hr
  suffices hs : ∀ taken left, taken ++ left = separator → Relation.ReflTransGen (Strips separators) left [] →
      Relation.ReflTransGen (Strips separators) (left ++ before) before from hs [] separator rfl hr
  intro taken left ht hr
  induction hr using Relation.ReflTransGen.head_induction_on generalizing taken
  case refl => exact .refl
  case head left left' hs _ hi =>
    obtain ⟨s, hm, rfl⟩ := hs.mem
    refine .head (hs.append fun r hr hp => ?_) (hi (taken ++ s) (by simpa using ht))
    have hl := congrArg List.length ht
    have hs := length_pos_of_mem hn hm
    obtain ⟨more, he⟩ := id hp
    have he : taken ++ r ++ (more ++ after) = separator ++ (before ++ after) := by
      rw [← ht, List.append_assoc, ← List.append_assoc r, he]
      simp
    have hc := h.contained ⟨taken, r, more ++ after, hr, he⟩
    simp only [Occurrence.start, Occurrence.stop, List.length_append] at hc hl
    refine List.prefix_of_prefix_length_le hp ⟨before, rfl⟩ ?_
    rw [List.length_append]
    omega

-- Separators that overlap to no effect. If one is the beginning of another one then the rest consists of separators. If
-- one begins in the middle of another one and goes on so far that there is a separator in the rest, then what is before
-- and after the overlap consists of separators.
structure Compatible (separators : List (List Char)) : Prop where
  extension : ∀ s rest, s ∈ separators → s ++ rest ∈ separators → IsRow separators rest
  overlap : ∀ before shared after, before ++ shared ∈ separators → shared ++ after ∈ separators → shared ≠ [] →
    Nonempty (Occurrence separators after) → IsRow separators before ∧ IsRow separators after

namespace Compatible

-- By induction on the length of the text. The separator that is taken off may be longer or shorter than the first one
-- of the row, but then separators are left that make up for it.
theorem stripLeading_row (h : Compatible separators) (hn : [] ∉ separators) (hr : IsRow separators row) :
    stripLeading separators (row ++ text) = stripLeading separators text := by
  induction hl : (row ++ text).length using Nat.strongRecOn generalizing row text
  case ind length hi =>
    subst hl
    obtain ⟨parts, hp, rfl⟩ := hr
    cases parts
    case nil => rfl
    case cons s parts =>
      rw [List.forall_mem_cons] at hp
      rw [List.flatten_cons, List.append_assoc] at hi ⊢
      have hr : IsRow separators parts.flatten := ⟨parts, hp.right, rfl⟩
      obtain ⟨rest, hs⟩ := Strips.exists_of_prefix hp.left (List.prefix_append s (parts.flatten ++ text))
      rw [stripLeading_of_strips hn hs]
      obtain ⟨s', hm, he⟩ := hs.mem
      have hl := length_pos_of_mem hn hp.left
      have hl' := length_pos_of_mem hn hm
      rcases List.append_eq_append_iff.mp he with ⟨more, rfl, rfl⟩ | ⟨more, rfl, hm'⟩
      case inl =>
        have hw := h.extension s' more hm hp.left
        rw [← List.append_assoc]
        exact hi _ (by simp only [List.length_append]; omega) (hw.append hr) rfl
      case inr =>
        have hw := h.extension s more hp.left hm
        rw [← hi _ (by simp only [hm', List.length_append]; omega) hw rfl, ← hm']
        exact hi _ (by simp only [List.length_append]; omega) hr rfl

theorem stripLeading_eq_nil (h : Compatible separators) (hn : [] ∉ separators) (hr : IsRow separators row) :
    stripLeading separators row = [] := by
  rw [← List.append_nil row, h.stripLeading_row hn hr, stripLeading_nil hn]

-- By induction along the row from its end, to where the separator begins.
theorem isRow_of_overlap (h : Compatible separators) {parts : List (List Char)} (hp : ∀ s ∈ parts, s ∈ separators)
    {before shared after : List Char} (he : parts.flatten = before ++ shared) (hs : shared ++ after ∈ separators)
    (ho : Nonempty (Occurrence separators after)) : IsRow separators before := by
  induction parts using List.reverseRecOn generalizing shared after
  case nil =>
    obtain ⟨rfl, _⟩ := List.append_eq_nil_iff.mp he.symm
    exact .nil
  case append_singleton parts s hi =>
    rw [List.forall_mem_append, List.forall_mem_singleton] at hp
    rw [List.flatten_append, List.flatten_singleton] at he
    have hr : IsRow separators parts.flatten := ⟨parts, hp.left, rfl⟩
    rcases List.append_eq_append_iff.mp he with ⟨part, rfl, rfl⟩ | ⟨part, hb, rfl⟩
    case inl =>
      by_cases hn : shared = []
      case pos =>
        subst hn
        exact hr.append (.of_mem (List.append_nil part ▸ hp.right))
      case neg => exact hr.append (h.overlap part shared after hp.right hs hn ho).left
    case inr => exact hi hp.left hb (List.append_assoc .. ▸ hs) ⟨⟨[], s, after, hp.right, rfl⟩⟩

theorem isRow_before (h : Compatible separators) {parts : List (List Char)} (hp : ∀ s ∈ parts, s ∈ separators)
    {after : List Char} {last : Occurrence separators parts.flatten} (hl : (last.append after).IsLast) :
    last.after = [] ∧ IsRow separators last.before := by
  have he := last.eq
  rcases parts.eq_nil_or_concat' with rfl | ⟨parts, s, rfl⟩
  case inl =>
    simp only [List.flatten_nil, List.append_eq_nil_iff] at he
    exact ⟨he.right, he.left.left ▸ .nil⟩
  case inr =>
    rw [List.forall_mem_append, List.forall_mem_singleton] at hp
    have hf : parts.flatten ++ s ++ [] = (parts ++ [s]).flatten := by simp
    let ending : Occurrence separators (parts ++ [s]).flatten := ⟨parts.flatten, s, [], hp.right, hf⟩
    obtain ⟨hs, hb⟩ : ending.stop ≤ last.stop ∧ (ending.stop = last.stop → last.start ≤ ending.start) :=
      hl (ending.append after)
    have ht : ending.stop = (parts ++ [s]).flatten.length := ending.stop_add_length
    have hl := last.stop_add_length
    have ha : last.after = [] := List.eq_nil_of_length_eq_zero (by omega)
    replace he := he.trans hf.symm
    rw [ha, List.append_nil, List.append_nil] at he
    obtain ⟨shared, hr⟩ : last.before <+: parts.flatten :=
      List.prefix_of_prefix_length_le ⟨_, he⟩ ⟨_, rfl⟩ (hb (by omega))
    rw [← hr, List.append_assoc] at he
    have hm : shared ++ s ∈ separators := List.append_cancel_left he ▸ last.mem
    exact ⟨ha, h.isRow_of_overlap hp.left hr.symm hm ⟨⟨[], s, [], hp.right, by simp⟩⟩⟩

theorem of_length_eq_one (h : ∀ s ∈ separators, s.length = 1) : Compatible separators := by
  constructor
  case extension =>
    intro s rest hs hr
    have hs := h _ hs
    have hr := h _ hr
    rw [List.length_append] at hr
    obtain rfl : rest = [] := List.eq_nil_of_length_eq_zero (by omega)
    exact .nil
  case overlap =>
    intro before shared after hb ha hn _
    have hn := List.length_pos_iff.mpr hn
    have hb := h _ hb
    have ha := h _ ha
    rw [List.length_append] at hb ha
    obtain rfl : before = [] := List.eq_nil_of_length_eq_zero (by omega)
    obtain rfl : after = [] := List.eq_nil_of_length_eq_zero (by omega)
    exact ⟨.nil, .nil⟩

theorem of_repeated {c : Char} (hc : [c] ∈ separators) (h : ∀ s ∈ separators, ∀ d ∈ s, d = c) :
    Compatible separators := by
  have hr (text : List Char) (ht : ∀ d ∈ text, d = c) : IsRow separators text := by
    induction text
    case nil => exact .nil
    case cons d text hi =>
      rw [List.forall_mem_cons] at ht
      exact .cons (ht.left ▸ hc) (hi ht.right)
  constructor
  case extension =>
    intro s rest _ hs
    exact hr rest fun d hd => h _ hs d (List.mem_append_right _ hd)
  case overlap =>
    intro before shared after hb ha _ _
    exact ⟨hr before fun d hd => h _ hb d (List.mem_append_left _ hd),
      hr after fun d hd => h _ ha d (List.mem_append_right _ hd)⟩

end Compatible

theorem Occurrence.IsLast.of_prepend {part : Occurrence separators name} (h : (part.prepend separator).IsLast) :
    part.IsLast := by
  intro other
  have ho := h (other.prepend separator)
  simp only [stop_prepend, start_prepend] at ho
  omega

theorem Occurrence.IsLast.length_lt_stop (hn : [] ∉ separators) {last : Occurrence separators (separator ++ name)}
    (h : last.IsLast) (place : Occurrence separators name) : separator.length < last.stop := by
  have hl := (h (place.prepend separator)).left
  have hs := place.start_lt_stop hn
  rw [stop_prepend] at hl
  omega

theorem exists_shared {before s after : List Char} (he : before ++ s ++ after = separator ++ name)
    (hb : before.length < separator.length) (hs : separator.length < before.length + s.length) :
    ∃ shared rest, before ++ shared = separator ∧ shared ++ rest = s ∧ rest ++ after = name ∧ shared ≠ [] := by
  rw [List.append_assoc] at he
  rcases List.append_eq_append_iff.mp he with ⟨shared, rfl, hr⟩ | ⟨more, rfl, _⟩
  case inr =>
    rw [List.length_append] at hb
    omega
  case inl =>
    rw [List.length_append] at hb hs
    rcases List.append_eq_append_iff.mp hr with ⟨more, rfl, _⟩ | ⟨rest, rfl, rfl⟩
    case inl =>
      rw [List.length_append] at hs
      omega
    case inr => exact ⟨shared, rest, rfl, rfl, rfl, List.length_pos_iff.mp (by omega)⟩

-- The last separator begins in the leading one and ends in the name. Then only separators are before it, and there are
-- only separators before the last one in the name as well, which ends in the same place.
theorem Compatible.cross (h : Compatible separators) (hn : [] ∉ separators) (hs : separator ∈ separators)
    {last : Occurrence separators (separator ++ name)} (hl : last.IsLast) {last' : Occurrence separators name}
    (hl' : last'.IsLast) (hc : last.start < separator.length) :
    last.after = last'.after ∧ IsRow separators last.before ∧ IsRow separators last'.before := by
  have hp := hl.length_lt_stop hn last'
  have ho := (hl (last'.prepend separator)).left
  rw [Occurrence.stop_prepend] at ho
  obtain ⟨before, s, after, hm, he⟩ := last
  obtain ⟨shared, rest, rfl, rfl, rfl, hd⟩ := exists_shared he hc hp
  simp only [Occurrence.stop, List.length_append] at ho hp
  obtain ⟨inner, rfl⟩ := last'.exists_append (by rw [Occurrence.stop]; omega)
  obtain ⟨hb, parts, hr, rfl⟩ := h.overlap before shared rest hs hm hd ⟨inner⟩
  obtain ⟨ha, hi⟩ := h.isRow_before hr hl'
  exact ⟨by simp [Occurrence.append, ha], hb, hi⟩

theorem exists_cuts (hn : [] ∉ separators) (hs : separator ∈ separators) (place : Occurrence separators name)
    (h : Apart separators separator name ∨ Compatible separators) :
    ∃ (last : Occurrence separators (separator ++ name)) (last' : Occurrence separators name),
      last.IsLast ∧ last'.IsLast ∧ last.after = last'.after
      ∧ stripLeading separators last.before = stripLeading separators last'.before := by
  obtain ⟨last, hl⟩ := (place.prepend separator).exists_isLast hn
  obtain ⟨last', hl'⟩ := place.exists_isLast hn
  by_cases hc : separator.length ≤ last.start
  case pos =>
    obtain ⟨part, rfl⟩ := last.exists_prepend hc
    refine ⟨part.prepend separator, part, hl, hl.of_prepend, rfl, ?_⟩
    cases h
    case inl h =>
      have he : part.before ++ (part.separator ++ part.after) = name := List.append_assoc .. ▸ part.eq
      rw [← he] at h
      exact stripLeading_of_run hn (h.run hn)
    case inr h => exact h.stripLeading_row hn (.of_mem hs)
  case neg =>
    replace hc := Nat.lt_of_not_le hc
    cases h
    case inl h => exact absurd (h.contained last hc) (Nat.not_le_of_lt (hl.length_lt_stop hn place))
    case inr h =>
      obtain ⟨ha, hb, hb'⟩ := h.cross hn hs hl hl' hc
      exact ⟨last, last', hl, hl', ha, (h.stripLeading_eq_nil hn hb).trans (h.stripLeading_eq_nil hn hb').symm⟩

variable {config : Config}

-- A separator in front of a name with a separator in it makes no difference to what the name is split into, provided
-- that it keeps to itself, or that the separators overlap to no effect, if at all.
theorem leading_separators_make_no_difference (hv : config.validate = .ok ()) (withBuiltins : Bool)
    {separator name : String} (hs : separator ∈ config.separators)
    (ho : Nonempty (Occurrence (config.separators.map String.toList) name.toList))
    (h : Apart (config.separators.map String.toList) separator.toList name.toList
      ∨ Compatible (config.separators.map String.toList)) :
    split config withBuiltins (separator ++ name) = split config withBuiltins name := by
  obtain ⟨place⟩ := ho
  have hc := exists_cuts (Config.nil_not_mem_separators hv) (List.mem_map_of_mem hs) place h
  rw [← String.toList_append] at hc
  obtain ⟨last, last', hl, hl', ha, hb⟩ := hc
  rw [split_of_isLast hv withBuiltins hl, split_of_isLast hv withBuiltins hl', ha, hb]

-- The separators are of one character each, or the last one in the whole begins in the leading one, or the leading one
-- begins with another one.
theorem leading_separators_make_no_difference_joined :
    (Compatible [['\\'], ['.']] ∧ split {} true ("\\" ++ "ns\\Foo") = split {} true "ns\\Foo")
    ∧ (Compatible [[':'], [':', ':']]
      ∧ split { separators := [":", "::"] } true (":" ++ ":Foo") = split { separators := [":", "::"] } true ":Foo")
    ∧ Apart [['-', '>'], ['-']] ['-', '>'] "ns->Foo".toList
      ∧ split { separators := ["->", "-"] } true ("->" ++ "ns->Foo")
        = split { separators := ["->", "-"] } true "ns->Foo" := by
  have hd : Compatible [['\\'], ['.']] := .of_length_eq_one (by simp)
  have hc : Compatible [[':'], [':', ':']] := .of_repeated (c := ':') (by simp) (by simp)
  have ha : Apart [['-', '>'], ['-']] ['-', '>'] "ns->Foo".toList := by
    have hf : [['-', '>'], ['-']] = [] ++ ['-', '>'] :: [['-']] := rfl
    refine ⟨?_, stripLeading_of_first (by simp) hf (by simp)⟩
    rintro ⟨before, s, after, hm, he⟩ hs
    simp only [List.mem_cons, List.not_mem_nil, or_false] at hm
    rcases hm with rfl | rfl
    case inr => exact hs
    case inl =>
      rcases before with _ | ⟨c, before⟩
      case nil  => exact Nat.le_refl 2
      case cons =>
        have hs : before.length + 1 < 2 := hs
        obtain rfl : before = [] := List.eq_nil_of_length_eq_zero (by omega)
        simp at he
  refine ⟨⟨hd, ?_⟩, ⟨hc, ?_⟩, ha, ?_⟩
  case refine_1 =>
    exact leading_separators_make_no_difference rfl true (by simp)
      ⟨⟨"ns".toList, ['\\'], "Foo".toList, by simp, by decide⟩⟩ (.inr hd)
  case refine_2 =>
    exact leading_separators_make_no_difference rfl true (by simp)
      ⟨⟨[], [':'], "Foo".toList, by simp, by decide⟩⟩ (.inr hc)
  case refine_3 =>
    exact leading_separators_make_no_difference rfl true (by simp)
      ⟨⟨"ns".toList, ['-', '>'], "Foo".toList, by simp, by decide⟩⟩ (.inl ha)

-- A separator may be the beginning of a longer one. With the longer one in front a name cannot be split both like what
-- comes after the longer one and like what comes after the shorter one.
theorem leading_separator_joins_name : ¬ ∀ config : Config, config.validate = .ok () →
    ∀ withBuiltins, ∀ separator ∈ config.separators, ∀ name : String,
      Nonempty (Occurrence (config.separators.map String.toList) name.toList) →
      split config withBuiltins (separator ++ name) = split config withBuiltins name := by
  intro h
  have he := h { separators := ["->", "-"] } rfl true "-" (by simp) ">ns->Foo"
    ⟨⟨">ns".toList, "->".toList, "Foo".toList, by simp, by decide⟩⟩
  revert he
  decide +kernel

end PackageCoupling.QualifiedName
