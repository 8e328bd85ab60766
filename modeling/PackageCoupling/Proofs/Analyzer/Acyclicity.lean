import PackageCoupling.Proofs.Analyzer.Finality
import PackageCoupling.Proofs.Census

namespace PackageCoupling

namespace Graph

variable {graph : Graph} {p q : PackageId} {name : String} {cycle : List PackageId}

-- A way from a package along dependencies to other packages and back to it, which comes by no package twice.
def IsRoundTrip (graph : Graph) (cycle : List PackageId) : Prop :=
  ∃ p rest, cycle = p :: (rest ++ [p]) ∧ rest ≠ [] ∧ (p :: rest).Nodup ∧ cycle.IsChain graph.PackageDepends

theorem packageDepends_of_dependency {a b : TypeId} {s t : TypeDecl} (ha : graph.type? a = some s)
    (hd : b ∈ s.dependencies) (hb : graph.type? b = some t) (hn : s.package ≠ t.package) :
    graph.PackageDepends s.package t.package :=
  ⟨hn, a.ref, some a, b, .type ha, .dependency ha hd, by simp [packageOf?, hb]⟩

def Calls (graph : Graph) (packages : List PackageId) (names : List String) : Prop :=
  packages.map (fun p => graph.name? p.ref) = names.map some

theorem Calls.mem_iff {names : List String} (h : graph.Calls cycle names) :
    name ∈ names ↔ ∃ p ∈ cycle, graph.name? p.ref = some name := by
  have hm : some name ∈ names.map some ↔ some name ∈ cycle.map fun p => graph.name? p.ref := by rw [h]
  simpa using hm

theorem Calls.mem_of_mem {cycle' : List PackageId} {names names' : List String} (h : graph.Calls cycle names)
    (h' : graph.Calls cycle' names')
    (hi : ∀ (p q : PackageId) name, graph.name? p.ref = some name → graph.name? q.ref = some name → p = q)
    (hn : ∀ name ∈ names, name ∈ names') (hp : p ∈ cycle) : p ∈ cycle' := by
  have hm : graph.name? p.ref ∈ names.map some := h ▸ List.mem_map_of_mem hp
  obtain ⟨name, hm, he⟩ := List.mem_map.mp hm
  obtain ⟨q, hq, he'⟩ := h'.mem_iff.mp (hn name hm)
  exact hi p q name he.symm he' ▸ hq

theorem name?_package : graph.name? p.ref = (graph.package? p).map (·.header.name) := by
  exact Option.map_map ..

theorem Ownership.package_eq_of_name? (h : graph.Ownership) (hp : graph.name? p.ref = some name)
    (hq : graph.name? q.ref = some name) : p = q := by
  rw [name?_package, Option.map_eq_some_iff] at hp hq
  obtain ⟨package, hp, rfl⟩ := hp
  obtain ⟨package', hq, he⟩ := hq
  exact h.eq_of_name_eq hp hq he.symm

end Graph

namespace Analyzer

variable {graph : Graph} {registry : Registry} {known : Analyzer} {notes : List Note} {p : PackageId}
variable {cycle : List PackageId} {cycles : List (List PackageId)} {seen : List (IdSet .package)}

theorem HasNoted.tallied (h : known.HasNoted graph notes) : known.Tallied := by
  have ht {p : PackageId} {note : Note} (hn : note ∈ notes) (hp : note.touches p) :
      (known.tallies.get? p).isSome := by
    rw [h.tallies, tallyOf?, if_pos (List.any_eq_true.mpr ⟨note, hn, hp⟩)]
    rfl
  intro p q he
  obtain ⟨source, target, hm, rfl⟩ := h.packages.efferents.mp he
  exact ⟨ht hm (by simp [Note.touches]), ht hm (by simp [Note.touches])⟩

theorem HasNoted.edge_eq (h : known.HasNoted registry.graph registry.notes) (ho : registry.graph.Ownership) :
    known.edges.Edge = registry.graph.PackageDepends := by
  funext p q
  exact propext (h.package_coupling ho).efferents

theorem HasNoted.packageName (h : known.HasNoted registry.graph registry.notes) (ho : registry.graph.Ownership)
    (hp : (known.tallies.get? p).isSome) : registry.graph.name? p.ref = some (known.packageName p) := by
  by_cases hl : registry.Lists p
  case neg => simp [h.tallies_none ho hl] at hp
  case pos =>
    obtain ⟨package, hm, rfl⟩ := hl
    rw [Graph.name?_package, Registry.package?_of_mem_packages ho hm, Analyzer.packageName, h.tallies_eq ho hm]
    rfl

theorem pairwise_distinctCycles :
    (distinctCycles cycles seen).Pairwise (fun c c' => IdSet.ofList c ≠ IdSet.ofList c')
      ∧ ∀ c ∈ distinctCycles cycles seen, IdSet.ofList c ∉ seen := by
  induction cycles generalizing seen
  case nil => simp [distinctCycles]
  case cons c rest hi =>
    rw [distinctCycles]
    split
    case isTrue => exact hi
    case isFalse hs =>
      obtain ⟨hp, hn⟩ := @hi (IdSet.ofList c :: seen)
      simp only [List.mem_cons, not_or] at hn
      refine ⟨List.pairwise_cons.mpr ⟨fun c' hc he => (hn c' hc).left he.symm, hp⟩, ?_⟩
      exact List.forall_mem_cons.mpr ⟨hs, fun c' hc => (hn c' hc).right⟩

theorem cycle?_finish (h : known.isAnalyzed = false) (hc : known.finish.cycle? p = some cycle) :
    known.edges.cycleFrom? p = some cycle := by
  simp only [cycle?, finish, h, Bool.false_eq_true, if_false, IdMap.get?_mapWithId] at hc
  obtain ⟨_, _, hc⟩ := Option.map_eq_some_iff.mp (Option.join_eq_some_iff.mp hc)
  exact hc

theorem HasNoted.isRoundTrip (h : known.HasNoted registry.graph registry.notes) (ho : registry.graph.Ownership)
    (hc : known.edges.IsCycle cycle) : registry.graph.IsRoundTrip cycle := by
  obtain ⟨p, rest, rfl, hn, hc⟩ := hc
  rw [h.edge_eq ho] at hc
  refine ⟨p, rest, rfl, ?_, hn, hc⟩
  rintro rfl
  have hp : registry.graph.PackageDepends p p := by simpa using hc
  exact hp.left rfl

-- In the report on a registry all cycles are cycles of the graph by name, and no two of them go through the same
-- packages. None that has been found for a package is missing, and there are none only if the graph has none.
theorem reported_cycles_are_those_of_graph {registry : Registry} (h : registry.Reachable fun _ => True) :
    let analyzer := ({} : Analyzer).analyze registry
    (analyzer.summary.isAcyclic ↔ ∀ p, ¬ Relation.TransGen registry.graph.PackageDepends p p)
    ∧ (∀ names ∈ analyzer.summary.cycles, ∃ cycle, registry.graph.Calls cycle names ∧ registry.graph.IsRoundTrip cycle)
    ∧ (analyzer.summary.cycles.Pairwise fun names names' => ¬ ∀ name, name ∈ names ↔ name ∈ names')
    ∧ (∀ p cycle, analyzer.cycle? p = some cycle → ∃ names ∈ analyzer.summary.cycles, ∃ cycle',
      registry.graph.Calls cycle' names ∧ ∀ q, q ∈ cycle' ↔ q ∈ cycle)
    ∧ ∀ (p q : PackageId) name, registry.graph.name? p.ref = some name → registry.graph.name? q.ref = some name →
      p = q := by
  have ho := h.graph.ownership
  obtain ⟨known, ha, hn⟩ := registry.analyze_eq_finish
  have hk := hn.isAnalyzed
  have ht := hn.tallied
  have hi (p q : PackageId) (name : String) := @ho.package_eq_of_name? _ p q name
  -- The packages of a reported cycle are called by the names that are reported.
  have hl (c : List PackageId) (hc : c ∈ known.reported) :
      registry.graph.Calls c (c.map known.finish.packageName) := by
    rw [Graph.Calls, List.map_map]
    refine List.map_congr_left fun p hp => ?_
    rw [hn.packageName ho (ht.isSome_of_mem_reported hc hp), Function.comp_apply, packageName_finish]
  have hs : known.finish.summary.cycles = known.reported.map (·.map known.finish.packageName) :=
    cycles_summary hk rfl
  rw [ha]
  refine ⟨?acyclic, ?sound, ?distinct, ?complete, hi⟩
  case acyclic =>
    rw [Report.isAcyclic, hs, List.isEmpty_iff, List.map_eq_nil_iff, ← hn.edge_eq ho]
    constructor
    case mp =>
      intro he p hp
      obtain ⟨cycle, hf⟩ := PackageEdges.exists_cycleFrom? .refl hp
      obtain ⟨c, hc, _⟩ := ht.exists_mem_reported hf
      simp [he] at hc
    case mpr =>
      refine fun hp => List.eq_nil_iff_forall_not_mem.mpr fun c hc => ?_
      obtain ⟨start, hf⟩ := exists_of_mem_reported hc
      obtain ⟨p, rest, rfl, _⟩ := (PackageEdges.cycleFrom?_eq_some hf).left
      exact hp p ((PackageEdges.cycleFrom?_eq_some hf).left.onCycle (List.mem_cons_self ..))
  case sound =>
    rw [hs, List.forall_mem_map]
    intro c hc
    obtain ⟨start, hf⟩ := exists_of_mem_reported hc
    exact ⟨c, hl c hc, hn.isRoundTrip ho (PackageEdges.cycleFrom?_eq_some hf).left⟩
  case distinct =>
    rw [hs, List.pairwise_map]
    refine pairwise_distinctCycles.left.imp_of_mem fun {c c'} hc hc' hne he => hne (IdSet.ext_mem fun p => ?_)
    rw [IdSet.mem_ofList, IdSet.mem_ofList]
    exact ⟨(hl c hc).mem_of_mem (hl c' hc') hi fun name => (he name).mp,
      (hl c' hc').mem_of_mem (hl c hc) hi fun name => (he name).mpr⟩
  case complete =>
    intro p cycle hp
    obtain ⟨c, hc, hm⟩ := ht.exists_mem_reported (cycle?_finish hk hp)
    exact ⟨c.map known.finish.packageName, hs ▸ List.mem_map_of_mem hc, c, hl c hc, hm⟩

-- One package leads to a cycle of two others.
theorem reported_cycles_are_those_of_graph_led :
    let ops : List Registry.Op := [.build (.type .cls) "p1.A", .build (.type .cls) "p2.B", .build (.type .cls) "p3.C",
      .edit (.connect ⟨0⟩ ⟨1⟩), .edit (.connect ⟨1⟩ ⟨0⟩), .edit (.connect ⟨2⟩ ⟨0⟩)]
    let registry := (Registry.ofConfig {}).perform ops
    let analyzer := ({} : Analyzer).analyze registry
    registry.Reachable (fun _ => True) ∧ ¬ analyzer.summary.isAcyclic
    ∧ ∃ names ∈ analyzer.summary.cycles, ∃ cycle, registry.graph.Calls cycle names
      ∧ registry.graph.IsRoundTrip cycle := by
  intro ops registry analyzer
  have h : registry.Reachable (fun _ => True) :=
    ⟨{}, Registry.ofConfig {}, rfl, .perform fun _ _ => trivial⟩
  obtain ⟨h₀, h₁⟩ : (registry.graph.type? ⟨0⟩).map (fun t => (t.package, t.dependencies)) = some (⟨1⟩, [⟨1⟩])
      ∧ (registry.graph.type? ⟨1⟩).map (fun t => (t.package, t.dependencies)) = some (⟨2⟩, [⟨0⟩]) := by
    decide +kernel
  obtain ⟨t, ht, hp, hd⟩ : ∃ t, registry.graph.type? ⟨0⟩ = some t ∧ t.package = ⟨1⟩ ∧ t.dependencies = [⟨1⟩] := by
    simpa using h₀
  obtain ⟨u, hu, hq, he⟩ : ∃ u, registry.graph.type? ⟨1⟩ = some u ∧ u.package = ⟨2⟩ ∧ u.dependencies = [⟨0⟩] := by
    simpa using h₁
  have hf : registry.graph.PackageDepends ⟨1⟩ ⟨2⟩ := by
    simpa [hp, hq] using Graph.packageDepends_of_dependency ht (hd ▸ List.mem_singleton_self _) hu (by simp [hp, hq])
  have hb : registry.graph.PackageDepends ⟨2⟩ ⟨1⟩ := by
    simpa [hp, hq] using Graph.packageDepends_of_dependency hu (he ▸ List.mem_singleton_self _) ht (by simp [hp, hq])
  obtain ⟨ha, hs, _⟩ := reported_cycles_are_those_of_graph h
  have hn : ¬ analyzer.summary.isAcyclic := fun hc => ha.mp hc ⟨1⟩ (.tail (.single hf) hb)
  obtain ⟨names, hm⟩ := List.exists_mem_of_ne_nil analyzer.summary.cycles (by simpa [Report.isAcyclic] using hn)
  exact ⟨h, hn, names, hm, hs names hm⟩

end Analyzer
end PackageCoupling
