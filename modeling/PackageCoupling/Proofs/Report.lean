import Mathlib.Data.List.Sort
import PackageCoupling.Proofs.Coupling

namespace PackageCoupling

variable {kind : NodeKind} {α : Type}

theorem IdSet.ext_mem {set set' : IdSet kind} (h : ∀ id, id ∈ set ↔ id ∈ set') : set = set' := by
  have : Std.Irrefl fun a b : NodeId kind => a.val < b.val := ⟨fun _ => Nat.lt_irrefl _⟩
  have : Std.Antisymm fun a b : NodeId kind => a.val < b.val := ⟨fun _ _ h h' => absurd h' (Nat.lt_asymm h)⟩
  exact IdSet.ext (set.ascending.eq_of_mem_iff set'.ascending h)

theorem IdMap.nodup_keys {map : IdMap kind α} : map.keys.Nodup := by
  refine List.pairwise_map.mpr (map.ascending.imp fun {x y} hlt he => ?_)
  rw [he] at hlt
  exact Nat.lt_irrefl _ hlt

theorem IdMap.mem_toList {map : IdMap kind α} {id : NodeId kind} {a : α} :
    (id, a) ∈ map.toList ↔ map.get? id = some a := by
  constructor
  case mpr =>
    intro h
    have ⟨l₁, l₂, e, _⟩ := List.lookup_eq_some_iff.mp h
    simp [e]
  case mp =>
    intro h
    have hn : (map.toList.map Prod.fst).Nodup := map.nodup_keys
    have ⟨l₁, l₂, e⟩ := List.append_of_mem h
    refine List.lookup_eq_some_iff.mpr ⟨l₁, l₂, e, fun p hp => ?_⟩
    rw [e] at hn
    simp only [List.map_append, List.map_cons, List.nodup_append, List.mem_map] at hn
    have := hn.right.right p.1 ⟨p, hp, rfl⟩ id (by simp)
    simpa using this.symm

theorem IdMap.ext_get? {map map' : IdMap kind α} (h : ∀ id, map.get? id = map'.get? id) : map = map' := by
  have : Std.Irrefl fun a b : NodeId kind × α => a.1.val < b.1.val := ⟨fun _ => Nat.lt_irrefl _⟩
  have : Std.Antisymm fun a b : NodeId kind × α => a.1.val < b.1.val := ⟨fun _ _ h h' => absurd h' (Nat.lt_asymm h)⟩
  refine IdMap.ext (map.ascending.eq_of_mem_iff map'.ascending fun ⟨id, a⟩ => ?_)
  rw [mem_toList, mem_toList, h]

theorem IdMap.ext_mem {map map' : IdMap kind (IdSet kind)} (hm : ∀ {a set}, map.get? a = some set → ∃ b, b ∈ set)
    (hm' : ∀ {a set}, map'.get? a = some set → ∃ b, b ∈ set)
    (h : ∀ a b, b ∈ (map.get? a).getD ∅ ↔ b ∈ (map'.get? a).getD ∅) : map = map' := by
  refine ext_get? fun a => ?_
  have ha := h a
  cases he : map.get? a <;> cases he' : map'.get? a <;> simp only [he, he', Option.getD_none, Option.getD_some] at ha
  case none.none => rfl
  case none.some =>
    have ⟨b, hb⟩ := hm' he'
    exact absurd ((ha b).mpr hb) IdSet.not_mem_empty
  case some.none =>
    have ⟨b, hb⟩ := hm he
    exact absurd ((ha b).mp hb) IdSet.not_mem_empty
  case some.some => rw [IdSet.ext_mem ha]

theorem Coupling.Describes.unique {coupling coupling' : Coupling kind} {R : NodeId kind → NodeId kind → Prop}
    (h : coupling.Describes R) (h' : coupling'.Describes R) : coupling = coupling' := by
  refine Coupling.ext (IdMap.ext_mem h.efferents_some h'.efferents_some fun a b => ?_)
    (IdMap.ext_mem h.afferents_some h'.afferents_some fun b a => ?_)
  case refine_1 => exact h.efferents.trans h'.efferents.symm
  case refine_2 => exact h.afferents.trans h'.afferents.symm

-- Which type depends on which other one does not show in a report.
theorem Analyzer.summary_finish_congr {analyzer analyzer' : Analyzer} (h : analyzer.isAnalyzed = false)
    (h' : analyzer'.isAnalyzed = false) (ht : analyzer.tallies = analyzer'.tallies)
    (hp : analyzer.packages = analyzer'.packages) : analyzer.finish.summary = analyzer'.finish.summary := by
  have hn : analyzer.finish.packageName = analyzer'.finish.packageName := by
    funext p
    simp only [packageName, finish, h, h', ht]
    rfl
  rw [summary, summary, hn]
  simp only [finish, h, h', ht, hp]
  rfl

namespace Registry

variable {registry registry' : Registry}

def labels (registry : Registry) : List (PackageId × String) :=
  registry.packages.map fun p => (p.id, p.header.name)

def census (registry : Registry) (package : PackageId) : Nat × Nat :=
  (registry.graph.types.toList.countP (·.package = package),
    registry.graph.types.toList.countP fun t => t.package = package && t.isAbstract)

theorem summary_congr (h : registry.graph.Ownership) (h' : registry'.graph.Ownership)
    (hl : registry.labels = registry'.labels) (hc : registry.census = registry'.census)
    (hd : ∀ p q, registry.graph.PackageDepends p q ↔ registry'.graph.PackageDepends p q) :
    (({} : Analyzer).analyze registry).summary = (({} : Analyzer).analyze registry').summary := by
  have ⟨noted, ha, hn⟩ := registry.analyze_eq_finish
  have ⟨noted', ha', hn'⟩ := registry'.analyze_eq_finish
  rw [ha, ha']
  refine Analyzer.summary_finish_congr hn.isAnalyzed hn'.isAnalyzed (IdMap.ext_get? fun p => ?_) ?_
  case refine_2 => exact ((hn.package_coupling h).congr hd).unique (hn'.package_coupling h')
  case refine_1 =>
    have hf {r r' : Registry} (hl : r.labels = r'.labels) {package : Package} (hp : package ∈ r.packages) :
        ∃ package' ∈ r'.packages, package'.id = package.id ∧ package'.header.name = package.header.name := by
      have hm : (package.id, package.header.name) ∈ r'.labels := hl ▸ List.mem_map_of_mem hp
      have ⟨package', hp', he⟩ := List.mem_map.mp hm
      exact ⟨package', hp', (Prod.mk.inj he).left, (Prod.mk.inj he).right⟩
    by_cases hp : registry.Lists p
    case pos =>
      obtain ⟨package, hp, rfl⟩ := hp
      have ⟨package', hp', hi, hm⟩ := hf hl hp
      have hc := congrFun hc package.id
      simp only [census, Prod.mk.injEq] at hc
      rw [hn.tallies_eq h hp, ← hi, hn'.tallies_eq h' hp', tally, tally, hm, hi, hc.left, hc.right]
    case neg =>
      have hp' : ¬ registry'.Lists p := by
        rintro ⟨package', hp', rfl⟩
        have ⟨package, hm, hi, _⟩ := hf hl.symm hp'
        exact hp ⟨package, hm, hi⟩
      rw [hn.tallies_none h hp, hn'.tallies_none h' hp']

end Registry
end PackageCoupling
