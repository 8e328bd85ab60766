import Mathlib.Combinatorics.Enumerative.DoubleCounting
import PackageCoupling.Proofs.Analyzer.Cycles

namespace PackageCoupling

theorem IdMap.mem_keys_iff {kind : NodeKind} {α : Type} {map : IdMap kind α} {id : NodeId kind} :
    id ∈ map.keys ↔ (map.get? id).isSome := by
  constructor
  case mpr =>
    intro h
    obtain ⟨a, ha⟩ := Option.isSome_iff_exists.mp h
    exact mem_keys_of_get? ha
  case mp =>
    intro h
    obtain ⟨⟨_, a⟩, hm, rfl⟩ := List.mem_map.mp h
    exact Option.isSome_iff_exists.mpr ⟨a, mem_toList.mp hm⟩

namespace Coupling

variable {kind : NodeKind} {coupling : Coupling kind} {ids : List (NodeId kind)}

-- What is noted at one end is noted at the other.
def Mutual (coupling : Coupling kind) : Prop :=
  ∀ a b, b ∈ coupling.efferentsOf a ↔ a ∈ coupling.afferentsOf b

theorem Mutual.empty : ({} : Coupling kind).Mutual :=
  fun _ _ => iff_of_false IdSet.not_mem_empty IdSet.not_mem_empty

theorem Mutual.add {source target : NodeId kind} (h : coupling.Mutual) : (coupling.add source target).Mutual := by
  intro a b
  rw [mem_efferentsOf_add, mem_afferentsOf_add, h a b]

-- Every pair is counted once at each of its ends.
theorem Mutual.sum_size (h : coupling.Mutual) (hn : ids.Nodup)
    (hi : ∀ a b, b ∈ coupling.efferentsOf a → a ∈ ids ∧ b ∈ ids) :
    (ids.map fun b => (coupling.afferentsOf b).size).sum = (ids.map fun a => (coupling.efferentsOf a).size).sum := by
  let R (a b : NodeId kind) : Prop := b ∈ coupling.efferentsOf a
  have hs {set : IdSet kind} {s : Finset (NodeId kind)} (hs : ∀ a, a ∈ s ↔ a ∈ set) : set.size = s.card := by
    rw [IdSet.size, ← List.toFinset_card_of_nodup set.nodup_toList]
    exact congrArg Finset.card (Finset.ext fun a => by rw [List.mem_toFinset, IdSet.mem_toList, hs])
  have ha (b : NodeId kind) : (coupling.afferentsOf b).size = (ids.toFinset.bipartiteBelow R b).card := by
    refine hs fun a => ?_
    rw [Finset.mem_bipartiteBelow, List.mem_toFinset, ← h a b]
    exact and_iff_right_of_imp fun he => (hi a b he).left
  have he (a : NodeId kind) : (coupling.efferentsOf a).size = (ids.toFinset.bipartiteAbove R a).card := by
    refine hs fun b => ?_
    rw [Finset.mem_bipartiteAbove, List.mem_toFinset]
    exact and_iff_right_of_imp fun he => (hi a b he).right
  simp only [ha, he]
  rw [← List.sum_toFinset _ hn, ← List.sum_toFinset _ hn]
  exact (Finset.sum_card_bipartiteAbove_eq_sum_card_bipartiteBelow R).symm

end Coupling

namespace Analyzer

variable {graph : Graph} {analyzer analyzer' : Analyzer} {events told : List Event} {package : Package}

structure Balanced (analyzer : Analyzer) : Prop where
  packages : analyzer.packages.Mutual
  types : analyzer.types.Mutual
  not_self : ∀ p, p ∉ analyzer.packages.efferentsOf p
  tallied : analyzer.Tallied
  abstract_le : ∀ p tally, analyzer.tallies.get? p = some tally → tally.abstractTypes ≤ tally.totalTypes
  total_eq : ∀ p stats, analyzer.statsOf? p = some stats →
    stats.concreteTypes + stats.abstractTypes = stats.totalTypes
  sum_eq : (analyzer.stats.values.map (·.afferent)).sum = (analyzer.stats.values.map (·.efferent)).sum

namespace Balanced

theorem empty : ({} : Analyzer).Balanced where
  packages           := .empty
  types              := .empty
  not_self _         := IdSet.not_mem_empty
  tallied            := .empty
  abstract_le _ _ ht := by simp at ht
  total_eq _ _ hs    := by simp [statsOf?] at hs
  sum_eq             := rfl

theorem abstract_le_tally {p q : PackageId} {f : Tally → Tally} {tally : Tally}
    (h : ∀ p tally, analyzer.tallies.get? p = some tally → tally.abstractTypes ≤ tally.totalTypes)
    (hf : ∀ t, t.abstractTypes ≤ t.totalTypes → (f t).abstractTypes ≤ (f t).totalTypes)
    (ht : (analyzer.tally graph p f).tallies.get? q = some tally) : tally.abstractTypes ≤ tally.totalTypes := by
  rw [HasNoted.get?_tally] at ht
  split at ht
  case isFalse => exact h q tally ht
  case isTrue =>
    cases ht
    refine hf _ ?_
    cases hq : analyzer.tallies.get? q
    case none   => exact Nat.le_refl 0
    case some t => exact h q t hq

theorem note {note : Note} (hc : note.Crosses) (h : analyzer.Balanced) : (note.apply graph analyzer).Balanced where
  packages := by
    cases note
    case package => exact h.packages
    case type    => exact h.packages
    case mention => exact h.packages.add
  types := by
    cases note
    case package => exact h.types
    case type    => exact h.types
    case mention source _ _ =>
      simp only [Note.apply]
      split
      case h_1 => exact h.types
      case h_2 => exact h.types.add
  not_self p := by
    cases note
    case package => exact h.not_self p
    case type    => exact h.not_self p
    case mention =>
      intro hp
      rcases Coupling.mem_efferentsOf_add.mp hp with hp | ⟨rfl, hp⟩
      case inl => exact h.not_self p hp
      case inr => exact hc hp.symm
  tallied := h.tallied.note note
  abstract_le p tally := by
    cases note
    case package => exact abstract_le_tally h.abstract_le fun _ => id
    case type decl =>
      refine abstract_le_tally h.abstract_le fun t ht => ?_
      simp only
      split <;> omega
    case mention => exact abstract_le_tally (fun _ _ => abstract_le_tally h.abstract_le fun _ => id) fun _ => id
  total_eq p stats := by
    rw [statsOf?, Grows.note.stats]
    exact h.total_eq p stats
  sum_eq := by
    rw [Grows.note.stats]
    exact h.sum_eq

theorem finish (h : analyzer.Balanced) : analyzer.finish.Balanced := by
  cases ha : analyzer.isAnalyzed
  case true  => rwa [finish_of_isAnalyzed ha]
  case false =>
    have hs : analyzer.finish.stats = analyzer.tallies.mapWithId fun package tally =>
        statsOf tally (analyzer.packages.afferentsOf package).size (analyzer.packages.efferentsOf package).size := by
      simp [Analyzer.finish, ha]
    have hp : analyzer.finish.packages = analyzer.packages := by simp [Analyzer.finish, ha]
    have ht : analyzer.finish.types = analyzer.types := by simp [Analyzer.finish, ha]
    constructor
    case packages    => exact hp ▸ h.packages
    case types       => exact ht ▸ h.types
    case not_self    => exact hp ▸ h.not_self
    case tallied     => exact h.tallied.finish
    case abstract_le =>
      rw [tallies_finish]
      exact h.abstract_le
    case total_eq =>
      intro p stats hp
      rw [statsOf?, hs, IdMap.get?_mapWithId] at hp
      obtain ⟨tally, ht, rfl⟩ := Option.map_eq_some_iff.mp hp
      exact Nat.sub_add_cancel (h.abstract_le p tally ht)
    case sum_eq =>
      have hv (f : PackageStats → Nat) : analyzer.finish.stats.values.map f = analyzer.tallies.toList.map fun entry =>
          f (statsOf entry.2 (analyzer.packages.afferentsOf entry.1).size
            (analyzer.packages.efferentsOf entry.1).size) := by
        rw [hs, IdMap.values, IdMap.mapWithId, List.map_map, List.map_map]
        rfl
      rw [hv, hv]
      have he := h.packages.sum_size analyzer.tallies.nodup_keys fun p q he =>
        (h.tallied p q he).imp IdMap.mem_keys_iff.mpr IdMap.mem_keys_iff.mpr
      rwa [IdMap.keys, List.map_map, List.map_map] at he

end Balanced

end Analyzer
end PackageCoupling
