import PackageCoupling.Metrics.Analyzer
import PackageCoupling.Proofs.Walk

namespace PackageCoupling

theorem IdSet.not_mem_empty {kind : NodeKind} {id : NodeId kind} : id ∉ (∅ : IdSet kind) :=
  List.not_mem_nil

theorem IdSet.nodup_toList {kind : NodeKind} {set : IdSet kind} : set.toList.Nodup := by
  refine set.ascending.imp fun {a b} hlt he => ?_
  rw [he] at hlt
  exact Nat.lt_irrefl _ hlt

namespace Coupling

variable {kind : NodeKind} {coupling : Coupling kind} {R R' : NodeId kind → NodeId kind → Prop}
variable {source target a b : NodeId kind}

theorem mem_efferentsOf_add :
    b ∈ (coupling.add source target).efferentsOf a ↔ b ∈ coupling.efferentsOf a ∨ a = source ∧ b = target := by
  simp only [efferentsOf, add, IdMap.get?_upsert]
  by_cases ha : a = source
  case pos => simp [ha, or_comm]
  case neg => simp [ha]

theorem mem_afferentsOf_add :
    a ∈ (coupling.add source target).afferentsOf b ↔ a ∈ coupling.afferentsOf b ∨ a = source ∧ b = target := by
  simp only [afferentsOf, add, IdMap.get?_upsert]
  by_cases hb : b = target
  case pos => simp [hb, or_comm]
  case neg => simp [hb]

-- A coupling holds a relation, seen from both sides. Nothing is held for a node that is not related.
structure Describes (coupling : Coupling kind) (R : NodeId kind → NodeId kind → Prop) : Prop where
  efferents : ∀ {a b}, b ∈ coupling.efferentsOf a ↔ R a b
  afferents : ∀ {a b}, a ∈ coupling.afferentsOf b ↔ R a b
  efferents_some : ∀ {a set}, coupling.efferents.get? a = some set → ∃ b, b ∈ set
  afferents_some : ∀ {b set}, coupling.afferents.get? b = some set → ∃ a, a ∈ set

namespace Describes

theorem empty : ({} : Coupling kind).Describes fun _ _ => False where
  efferents        := by simp [efferentsOf, IdSet.not_mem_empty]
  afferents        := by simp [afferentsOf, IdSet.not_mem_empty]
  efferents_some h := by simp at h
  afferents_some h := by simp at h

theorem congr (h : coupling.Describes R) (hr : ∀ a b, R a b ↔ R' a b) : coupling.Describes R' where
  efferents      := h.efferents.trans (hr _ _)
  afferents      := h.afferents.trans (hr _ _)
  efferents_some := h.efferents_some
  afferents_some := h.afferents_some

theorem add (h : coupling.Describes R) :
    (coupling.add source target).Describes fun a b => R a b ∨ a = source ∧ b = target := by
  constructor
  case efferents => exact mem_efferentsOf_add.trans (or_congr_left h.efferents)
  case afferents => exact mem_afferentsOf_add.trans (or_congr_left h.afferents)
  case efferents_some =>
    intro a set hs
    simp only [Coupling.add, IdMap.get?_upsert] at hs
    split at hs
    case isTrue  => exact ⟨target, by simp [← Option.some.inj hs]⟩
    case isFalse => exact h.efferents_some hs
  case afferents_some =>
    intro b set hs
    simp only [Coupling.add, IdMap.get?_upsert] at hs
    split at hs
    case isTrue  => exact ⟨source, by simp [← Option.some.inj hs]⟩
    case isFalse => exact h.afferents_some hs

end Describes
end Coupling

-- What an analyzer notes: that there is a package, that there is a type, and that a type in another package
-- is mentioned.
inductive Note where
  | package (id : PackageId)
  | type (decl : TypeDecl)
  | mention (source : Source) (package : PackageId) (target : TypeId)

namespace Note

def apply (graph : Graph) : Note → Analyzer → Analyzer
  | package p, analyzer               => analyzer.tally graph p id
  | type decl, analyzer               => analyzer.countType graph decl
  | mention source p target, analyzer =>
    let analyzer := (analyzer.tally graph source.package id).tally graph p id
    { analyzer with
      packages := analyzer.packages.add source.package p
      types := match source.type with
        | none   => analyzer.types
        | some t => analyzer.types.add t target }

def Crosses : Note → Prop
  | mention source p _ => p ≠ source.package
  | _                  => True

-- Whether a package gets a tally by a note.
def touches (p : PackageId) : Note → Bool
  | package q          => q = p
  | type decl          => decl.package = p
  | mention source q _ => source.package = p || q = p

def counts (p : PackageId) : Note → Bool
  | type decl => decl.package = p
  | _         => false

def countsAbstract (p : PackageId) : Note → Bool
  | type decl => decl.package = p && decl.isAbstract
  | _         => false

theorem touches_of_counts {p : PackageId} {note : Note} (h : note.counts p) : note.touches p := by
  cases note <;> simp_all [counts, touches]

theorem counts_of_countsAbstract {p : PackageId} {note : Note} (h : note.countsAbstract p) : note.counts p := by
  cases note <;> simp_all [counts, countsAbstract]

end Note

def tallyOf? (graph : Graph) (notes : List Note) (package : PackageId) : Option Tally :=
  if notes.any (·.touches package) then
    some {
      name := (graph.name? package.ref).getD ""
      totalTypes := notes.countP (·.counts package)
      abstractTypes := notes.countP (·.countsAbstract package) }
  else none

theorem tallyOf?_concat {graph : Graph} {notes : List Note} {note : Note} {package : PackageId} :
    tallyOf? graph (notes ++ [note]) package
      = if note.touches package then
          let tally := (tallyOf? graph notes package).getD { name := (graph.name? package.ref).getD "" }
          some { tally with
            totalTypes := tally.totalTypes + if note.counts package then 1 else 0
            abstractTypes := tally.abstractTypes + if note.countsAbstract package then 1 else 0 }
        else tallyOf? graph notes package := by
  have hc := @Note.touches_of_counts package
  have ha := @Note.counts_of_countsAbstract package
  by_cases hn : notes.any (·.touches package)
  case pos =>
    by_cases ht : note.touches package
    case pos => simp [tallyOf?, hn, ht, List.countP_append, List.countP_cons]
    case neg => simp [tallyOf?, hn, ht, List.countP_append, mt hc ht, mt ha (mt hc ht)]
  case neg =>
    have h₀ : notes.countP (·.counts package) = 0 := by
      simp only [List.any_eq_true, not_exists, not_and] at hn
      exact List.countP_eq_zero.mpr fun n hm hp => hn n hm (hc hp)
    have h₁ : notes.countP (·.countsAbstract package) = 0 := by
      simp only [List.any_eq_true, not_exists, not_and] at hn
      exact List.countP_eq_zero.mpr fun n hm hp => hn n hm (hc (ha hp))
    by_cases ht : note.touches package <;> simp [tallyOf?, hn, ht, List.countP_append, List.countP_cons, h₀, h₁]

namespace Analyzer

variable {graph : Graph} {analyzer : Analyzer} {notes : List Note} {note : Note} {package : PackageId}

-- An analyzer has noted all of the given notes and nothing else.
structure HasNoted (graph : Graph) (notes : List Note) (analyzer : Analyzer) : Prop where
  tallies : ∀ package, analyzer.tallies.get? package = tallyOf? graph notes package
  packages : analyzer.packages.Describes fun p q =>
    ∃ source target, .mention source q target ∈ notes ∧ source.package = p
  types : analyzer.types.Describes fun t u => ∃ source q, .mention source q u ∈ notes ∧ source.type = some t
  isAnalyzed : analyzer.isAnalyzed = false

namespace HasNoted

theorem empty : ({} : Analyzer).HasNoted graph [] where
  tallies _  := by simp [tallyOf?]
  packages   := Coupling.Describes.empty.congr (by simp)
  types      := Coupling.Describes.empty.congr (by simp)
  isAnalyzed := rfl

theorem get?_tally {f : Tally → Tally} {p : PackageId} :
    (analyzer.tally graph package f).tallies.get? p
      = if package = p then some (f ((analyzer.tallies.get? p).getD { name := (graph.name? p.ref).getD "" }))
        else analyzer.tallies.get? p := by
  rw [tally, IdMap.get?_upsert]
  by_cases h : package = p
  case pos => simp [h]
  case neg => simp [h, Ne.symm h]

theorem tallies_apply (h : analyzer.HasNoted graph notes) (p : PackageId) :
    (note.apply graph analyzer).tallies.get? p = tallyOf? graph (notes ++ [note]) p := by
  have hp := h.tallies p
  rw [tallyOf?_concat, ← hp]
  cases note
  case package q =>
    simp only [Note.apply, get?_tally, Note.touches, Note.counts, Note.countsAbstract]
    by_cases hq : q = p <;> simp [hq]
  case type decl =>
    simp only [Note.apply, countType, get?_tally, Note.touches, Note.counts, Note.countsAbstract]
    by_cases hq : decl.package = p <;> simp [hq]
  case mention source q target =>
    simp only [Note.apply, get?_tally, Note.touches, Note.counts, Note.countsAbstract]
    by_cases hs : source.package = p <;> by_cases hq : q = p <;> simp [hs, hq]

theorem packages_apply (h : analyzer.HasNoted graph notes) :
    (note.apply graph analyzer).packages.Describes fun p q =>
      ∃ source target, .mention source q target ∈ notes ++ [note] ∧ source.package = p := by
  cases note
  case package => exact h.packages.congr (by simp)
  case type    => exact h.packages.congr (by simp)
  case mention source q target =>
    refine h.packages.add.congr fun a b => ?_
    simp only [List.mem_append, List.mem_singleton, Note.mention.injEq]
    constructor
    case mp =>
      rintro (⟨s, t, hm, hp⟩ | ⟨rfl, rfl⟩)
      case inl => exact ⟨s, t, .inl hm, hp⟩
      case inr => exact ⟨source, target, .inr ⟨rfl, rfl, rfl⟩, rfl⟩
    case mpr =>
      rintro ⟨s, t, hm | ⟨rfl, rfl, rfl⟩, hp⟩
      case inl => exact .inl ⟨s, t, hm, hp⟩
      case inr => exact .inr ⟨hp.symm, rfl⟩

theorem types_apply (h : analyzer.HasNoted graph notes) :
    (note.apply graph analyzer).types.Describes fun t u =>
      ∃ source q, .mention source q u ∈ notes ++ [note] ∧ source.type = some t := by
  cases note
  case package => exact h.types.congr (by simp)
  case type    => exact h.types.congr (by simp)
  case mention source q target =>
    cases hs : source.type
    case none =>
      simp only [Note.apply, hs]
      refine h.types.congr fun t u => ?_
      simp only [List.mem_append, List.mem_singleton, Note.mention.injEq]
      constructor
      case mp =>
        rintro ⟨s, p, hm, ht⟩
        exact ⟨s, p, .inl hm, ht⟩
      case mpr =>
        rintro ⟨s, p, hm | ⟨rfl, rfl, rfl⟩, ht⟩
        case inl => exact ⟨s, p, hm, ht⟩
        case inr => simp [hs] at ht
    case some type =>
      simp only [Note.apply, hs]
      refine h.types.add.congr fun t u => ?_
      simp only [List.mem_append, List.mem_singleton, Note.mention.injEq]
      constructor
      case mp =>
        rintro (⟨s, p, hm, ht⟩ | ⟨rfl, rfl⟩)
        case inl => exact ⟨s, p, .inl hm, ht⟩
        case inr => exact ⟨source, q, .inr ⟨rfl, rfl, rfl⟩, hs⟩
      case mpr =>
        rintro ⟨s, p, hm | ⟨rfl, rfl, rfl⟩, ht⟩
        case inl => exact .inl ⟨s, p, hm, ht⟩
        case inr => exact .inr ⟨Option.some.inj (ht.symm.trans hs), rfl⟩

theorem step (h : analyzer.HasNoted graph notes) : (note.apply graph analyzer).HasNoted graph (notes ++ [note]) where
  tallies    := h.tallies_apply
  packages   := h.packages_apply
  types      := h.types_apply
  isAnalyzed := by
    have := h.isAnalyzed
    cases note <;> exact this

theorem run {more : List Note} (h : analyzer.HasNoted graph notes) :
    (more.foldl (fun a n => n.apply graph a) analyzer).HasNoted graph (notes ++ more) := by
  induction more generalizing analyzer notes
  case nil            => simpa using h
  case cons n rest hi =>
    have hs : (n.apply graph analyzer).HasNoted graph (notes ++ [n]) := h.step
    simpa using hi hs

end HasNoted
end Analyzer

namespace Visit

def mentions (graph : Graph) (visit : Visit) : List Note :=
  match graph.source? visit with
  | none        => []
  | some source => visit.references.filterMap fun target =>
    match graph.packageOf? target with
    | none   => none
    | some p => if p = source.package then none else some (.mention source p target)

def notes (graph : Graph) (visit : Visit) : List Note :=
  match visit with
  | package n => [.package n.id]
  | type n    => .type n :: visit.mentions graph
  | _         => visit.mentions graph

variable {graph : Graph} {visit : Visit} {note : Note}

theorem mem_mentions :
    note ∈ visit.mentions graph ↔ ∃ source p target, note = .mention source p target
      ∧ graph.source? visit = some source ∧ target ∈ visit.references ∧ graph.packageOf? target = some p
      ∧ p ≠ source.package := by
  rw [mentions]
  cases graph.source? visit
  case none   => simp
  case some s =>
    simp only [List.mem_filterMap, Option.some.injEq]
    constructor
    case mp =>
      rintro ⟨t, ht, he⟩
      split at he
      case h_1 => simp at he
      case h_2 q hq =>
        split at he
        case isTrue     => simp at he
        case isFalse hn => exact ⟨s, q, t, (Option.some.inj he).symm, rfl, ht, hq, hn⟩
    case mpr =>
      rintro ⟨_, p, t, rfl, rfl, ht, hp, hn⟩
      exact ⟨t, ht, by simp [hp, hn]⟩

theorem crosses_of_mem_mentions (h : note ∈ visit.mentions graph) : note.Crosses := by
  obtain ⟨_, _, _, rfl, _, _, _, hn⟩ := mem_mentions.mp h
  exact hn

theorem mention_mem_notes {source : Source} {p : PackageId} {target : TypeId} :
    .mention source p target ∈ visit.notes graph ↔
      graph.source? visit = some source ∧ target ∈ visit.references ∧ graph.packageOf? target = some p
        ∧ p ≠ source.package := by
  have hm : .mention source p target ∈ visit.mentions graph ↔
      graph.source? visit = some source ∧ target ∈ visit.references ∧ graph.packageOf? target = some p
        ∧ p ≠ source.package := by
    simp [mem_mentions]
  cases visit <;> simp only [notes, List.mem_cons, List.not_mem_nil, reduceCtorEq, false_or, hm]
  case package => simp [Graph.source?]

theorem package_mem_notes {p : PackageId} : .package p ∈ visit.notes graph ↔ ∃ n, visit = .package n ∧ n.id = p := by
  cases visit <;> simp [notes, mem_mentions, eq_comm]

theorem type_mem_notes {decl : TypeDecl} : .type decl ∈ visit.notes graph ↔ visit = .type decl := by
  cases visit <;> simp [notes, mem_mentions, eq_comm]

theorem countP_notes {f : Note → Bool} (hp : ∀ p, f (.package p) = false)
    (hm : ∀ source p target, f (.mention source p target) = false) :
    (visit.notes graph).countP f = (visit.type?.toList.map Note.type).countP f := by
  have hz : (visit.mentions graph).countP f = 0 := by
    refine List.countP_eq_zero.mpr fun note hn => ?_
    obtain ⟨source, p, target, rfl, _⟩ := mem_mentions.mp hn
    simp [hm]
  cases visit <;> simp [notes, type?, List.countP_cons, hz, hp]

end Visit

namespace Analyzer

variable {graph : Graph} {analyzer : Analyzer} {visit : Visit}

theorem mentionAll_eq :
    analyzer.mentionAll graph visit = (visit.mentions graph).foldl (fun a n => n.apply graph a) analyzer := by
  rw [mentionAll, Visit.mentions]
  cases graph.source? visit
  case none => rfl
  case some source =>
    simp only [List.foldl_filterMap]
    congr 1
    funext a target
    rw [mention]
    cases graph.packageOf? target
    case none => rfl
    case some package =>
      simp only
      split <;> rfl

theorem enter_eq (h : analyzer.isAnalyzed = false) :
    analyzer.enter graph visit = (.descend, (visit.notes graph).foldl (fun a n => n.apply graph a) analyzer) := by
  cases visit
  case package n => simp [enter, h, Visit.notes, Note.apply]
  all_goals simp [enter, Visit.notes, mentionAll_eq, Note.apply]

theorem isAnalyzed_foldl {notes : List Note} :
    (notes.foldl (fun a n => n.apply graph a) analyzer).isAnalyzed = analyzer.isAnalyzed := by
  induction notes generalizing analyzer
  case nil            => rfl
  case cons n rest hi =>
    rw [List.foldl_cons, hi]
    cases n <;> rfl

theorem listener_thorough : (listener graph).Thorough (·.isAnalyzed = false) where
  descends h _ := by simp [listener, enter_eq h]
  keeps h _    := by simp [listener, enter_eq h, isAnalyzed_foldl, h]
  leaves _ _   := rfl

theorem enterAll_eq {visits : List Visit} (h : analyzer.isAnalyzed = false) :
    (listener graph).enterAll visits analyzer
      = (visits.flatMap (·.notes graph)).foldl (fun a n => n.apply graph a) analyzer := by
  induction visits generalizing analyzer
  case nil            => rfl
  case cons v rest hi =>
    have he := @enter_eq graph analyzer v h
    rw [List.flatMap_cons, List.foldl_append, ← hi (by rw [isAnalyzed_foldl, h])]
    simp [Listener.enterAll, listener, he]

end Analyzer

namespace Registry

def notes (registry : Registry) : List Note :=
  registry.visits.flatMap (·.notes registry.graph)

theorem countP_notes {registry : Registry} {f : Note → Bool} (hp : ∀ p, f (.package p) = false)
    (hm : ∀ source p target, f (.mention source p target) = false) :
    registry.notes.countP f = ((registry.visits.filterMap Visit.type?).map Note.type).countP f := by
  rw [notes]
  induction registry.visits
  case nil            => rfl
  case cons v rest hi =>
    rw [List.flatMap_cons, List.countP_append, hi, Visit.countP_notes hp hm]
    cases hv : v.type? <;> simp [hv, List.countP_cons, Nat.add_comm]

theorem analyze_eq_finish (registry : Registry) :
    ∃ noted : Analyzer, ({} : Analyzer).analyze registry = noted.finish
      ∧ noted.HasNoted registry.graph registry.notes := by
  have hw := ((@Analyzer.listener_thorough registry.graph).walkAll registry.forest (s := {}) rfl).right
  rw [Tree.visitsAll_eq_flatMap, Analyzer.enterAll_eq rfl] at hw
  refine ⟨_, congrArg Analyzer.finish hw, ?_⟩
  exact Analyzer.HasNoted.empty.run

end Registry
end PackageCoupling
