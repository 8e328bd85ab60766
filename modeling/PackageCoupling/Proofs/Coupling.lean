import PackageCoupling.Proofs.Analyzer
import PackageCoupling.Proofs.Registry.Run

namespace PackageCoupling

namespace Graph

-- A node speaks for a package, and for a type of that package if it is that type or belongs to it.
inductive Speaks (graph : Graph) : NodeRef → Option TypeId → PackageId → Prop
  | type {id : TypeId} {node} (ht : graph.type? id = some node) : Speaks graph id.ref (some id) node.package
  | property {id : PropertyId} {node owner} (hp : graph.property? id = some node)
    (ht : graph.type? node.owner = some owner) : Speaks graph id.ref (some node.owner) owner.package
  | constant {id : ConstantId} {node owner} (hc : graph.constant? id = some node)
    (ht : graph.type? node.owner = some owner) : Speaks graph id.ref (some node.owner) owner.package
  | method {id : CallableId} {node type owner} (hc : graph.callable? id = some node) (ho : node.owner = some type)
    (ht : graph.type? type = some owner) : Speaks graph id.ref (some type) owner.package
  | function {id : CallableId} {node package} (hc : graph.callable? id = some node) (ho : node.owner = none)
    (hp : node.package = some package) : Speaks graph id.ref none package
  | parameter {id : ParameterId} {node type package} (hp : graph.parameter? id = some node)
    (hs : Speaks graph node.callable.ref type package) : Speaks graph id.ref type package

-- A node mentions a type itself.
inductive Mentions (graph : Graph) : NodeRef → TypeId → Prop
  | parent {id : TypeId} {node target} (ht : graph.type? id = some node) (hm : node.parent = some target) :
    Mentions graph id.ref target
  | interface {id : TypeId} {node target} (ht : graph.type? id = some node) (hm : target ∈ node.interfaces) :
    Mentions graph id.ref target
  | dependency {id : TypeId} {node target} (ht : graph.type? id = some node) (hm : target ∈ node.dependencies) :
    Mentions graph id.ref target
  | use {id : CallableId} {node target} (hc : graph.callable? id = some node) (hm : target ∈ node.dependencies) :
    Mentions graph id.ref target
  | exception {id : CallableId} {node target} (hc : graph.callable? id = some node) (hm : target ∈ node.exceptions) :
    Mentions graph id.ref target
  | result {id : CallableId} {node target} (hc : graph.callable? id = some node) (hm : node.returnType = some target) :
    Mentions graph id.ref target
  | parameter {id : ParameterId} {node target} (hp : graph.parameter? id = some node) (hm : node.type = some target) :
    Mentions graph id.ref target
  | property {id : PropertyId} {node target} (hp : graph.property? id = some node) (hm : node.type = some target) :
    Mentions graph id.ref target
  | constant {id : ConstantId} {node target} (hc : graph.constant? id = some node) (hm : node.target = some target) :
    Mentions graph id.ref target

-- A package depends on another one if something that speaks for it mentions a type of the other one.
def PackageDepends (graph : Graph) (p q : PackageId) : Prop :=
  p ≠ q ∧ ∃ node type target, graph.Speaks node type p ∧ graph.Mentions node target ∧ graph.packageOf? target = some q

-- Types depend on each other across the borders of packages only.
def TypeDepends (graph : Graph) (type target : TypeId) : Prop :=
  ∃ node p q, graph.Speaks node (some type) p ∧ graph.Mentions node target ∧ graph.packageOf? target = some q ∧ p ≠ q

variable {graph : Graph} {node : NodeRef} {type : Option TypeId} {package : PackageId} {target : TypeId}

theorem mentions_iff : graph.Mentions node target ↔ ∃ v, graph.visit? node = some v ∧ target ∈ v.references := by
  constructor
  case mp =>
    intro h
    cases h
    case parent n ht hm | interface n ht hm | dependency n ht hm =>
      exact ⟨.type n, by simp [visit?, NodeId.ref, ht], by simp [Visit.references, TypeDecl.references, hm]⟩
    case use n hc hm | exception n hc hm | result n hc hm =>
      exact ⟨.callable n, by simp [visit?, NodeId.ref, hc], by simp [Visit.references, Callable.references, hm]⟩
    case parameter n hp hm =>
      exact ⟨.parameter n, by simp [visit?, NodeId.ref, hp], by simp [Visit.references, Parameter.references, hm]⟩
    case property n hp hm =>
      exact ⟨.property n, by simp [visit?, NodeId.ref, hp], by simp [Visit.references, Property.references, hm]⟩
    case constant n hc hm =>
      exact ⟨.constant n, by simp [visit?, NodeId.ref, hc], by simp [Visit.references, Constant.references, hm]⟩
  case mpr =>
    rintro ⟨v, hv, hm⟩
    obtain ⟨kind, id⟩ := node
    cases kind <;> simp only [visit?, Option.map_eq_some_iff] at hv <;> obtain ⟨n, hn, rfl⟩ := hv
    case package => simp [Visit.references] at hm
    case type =>
      simp only [Visit.references, TypeDecl.references, List.mem_eraseDups, List.mem_append, Option.mem_toList] at hm
      obtain (hm | hm) | hm := hm
      case inl.inl => exact .parent hn hm
      case inl.inr => exact .interface hn hm
      case inr     => exact .dependency hn hm
    case callable =>
      simp only [Visit.references, Callable.references, List.mem_eraseDups, List.mem_append, Option.mem_toList] at hm
      obtain (hm | hm) | hm := hm
      case inl.inl => exact .use hn hm
      case inl.inr => exact .exception hn hm
      case inr     => exact .result hn hm
    case parameter =>
      simp only [Visit.references, Parameter.references, Option.mem_toList] at hm
      exact .parameter hn hm
    case property =>
      simp only [Visit.references, Property.references, Option.mem_toList] at hm
      exact .property hn hm
    case constant =>
      simp only [Visit.references, Constant.references, Option.mem_toList] at hm
      exact .constant hn hm

theorem typeSource?_eq_some {owner : TypeId} :
    graph.typeSource? owner = some ⟨type, package⟩ ↔
      type = some owner ∧ ∃ node, graph.type? owner = some node ∧ node.package = package := by
  simp only [typeSource?, packageOf?, Option.map_map, Option.map_eq_some_iff, Function.comp_apply, Source.mk.injEq]
  constructor
  case mp =>
    rintro ⟨n, hn, ht, hp⟩
    exact ⟨ht.symm, n, hn, hp⟩
  case mpr =>
    rintro ⟨ht, n, hn, hp⟩
    exact ⟨n, hn, ht.symm, hp⟩

theorem speaks_callable {id : CallableId} :
    graph.Speaks id.ref type package ↔
      ∃ node, graph.callable? id = some node ∧ graph.callableSource? node = some ⟨type, package⟩ := by
  constructor
  case mp =>
    intro hs
    generalize hr : id.ref = node at hs
    cases hs <;> simp only [NodeId.ref, NodeRef.mk.injEq, reduceCtorEq, false_and, true_and, heq_eq_eq] at hr <;> subst hr
    case method n t owner ho ht hc =>
      exact ⟨n, hc, by simpa [callableSource?, ho] using typeSource?_eq_some.mpr ⟨rfl, owner, ht, rfl⟩⟩
    case function n ho hp hc => exact ⟨n, hc, by simp [callableSource?, ho, hp]⟩
  case mpr =>
    rintro ⟨n, hc, hs⟩
    rw [callableSource?] at hs
    split at hs
    case h_1 t ho =>
      obtain ⟨rfl, owner, ht, rfl⟩ := typeSource?_eq_some.mp hs
      exact .method hc ho ht
    case h_2 ho =>
      obtain ⟨p, hp, he⟩ := Option.map_eq_some_iff.mp hs
      simp only [Source.mk.injEq] at he
      obtain ⟨rfl, rfl⟩ := he
      exact .function hc ho hp

theorem speaks_iff (h : graph.Ownership) :
    graph.Speaks node type package ↔ ∃ v, graph.visit? node = some v ∧ graph.source? v = some ⟨type, package⟩ := by
  constructor
  case mp =>
    intro hs
    cases hs
    case type id n ht =>
      have hi : n.id = id := h.typeIds id n ht
      exact ⟨.type n, by simp [visit?, NodeId.ref, ht], by simp [source?, hi]⟩
    case property n owner hp ht =>
      exact ⟨.property n, by simp [visit?, NodeId.ref, hp], typeSource?_eq_some.mpr ⟨rfl, owner, ht, rfl⟩⟩
    case constant n owner hc ht =>
      exact ⟨.constant n, by simp [visit?, NodeId.ref, hc], typeSource?_eq_some.mpr ⟨rfl, owner, ht, rfl⟩⟩
    case method id n t owner hc ho ht =>
      obtain ⟨n, hc, hs⟩ := speaks_callable.mp (.method hc ho ht)
      exact ⟨.callable n, by simp [visit?, NodeId.ref, hc], hs⟩
    case function id n hc ho hp =>
      obtain ⟨n, hc, hs⟩ := speaks_callable.mp (.function hc ho hp)
      exact ⟨.callable n, by simp [visit?, NodeId.ref, hc], hs⟩
    case parameter n hp hs =>
      obtain ⟨c, hc, hs⟩ := speaks_callable.mp hs
      exact ⟨.parameter n, by simp [visit?, NodeId.ref, hp], by simp [source?, hc, hs]⟩
  case mpr =>
    rintro ⟨v, hv, hs⟩
    obtain ⟨kind, id⟩ := node
    cases kind <;> simp only [visit?, Option.map_eq_some_iff] at hv <;> obtain ⟨n, hn, rfl⟩ := hv
    case package  => simp [source?] at hs
    case callable => exact speaks_callable.mpr ⟨n, hn, hs⟩
    case type =>
      have hi : n.id = id := h.typeIds id n hn
      simp only [source?, Option.some.injEq, Source.mk.injEq] at hs
      obtain ⟨rfl, rfl⟩ := hs
      rw [hi]
      exact .type hn
    case parameter =>
      obtain ⟨c, hc, hs⟩ := Option.bind_eq_some_iff.mp hs
      exact .parameter hn (speaks_callable.mpr ⟨c, hc, hs⟩)
    case property =>
      obtain ⟨rfl, owner, ht, rfl⟩ := typeSource?_eq_some.mp hs
      exact .property hn ht
    case constant =>
      obtain ⟨rfl, owner, ht, rfl⟩ := typeSource?_eq_some.mp hs
      exact .constant hn ht

end Graph

namespace Registry

variable {registry : Registry} {source : Source} {p q : PackageId} {target : TypeId}

theorem mem_visits_of_source? {node : NodeRef} {visit : Visit} (h : registry.graph.Ownership)
    (hv : registry.graph.visit? node = some visit) (hs : registry.graph.source? visit = some source) :
    visit ∈ registry.visits := by
  -- Callables are found with their types or in their packages, and parameters with their callables.
  have hc {id : CallableId} {c : Callable} (hc : registry.graph.callable? id = some c)
      (hs : registry.graph.callableSource? c = some source) {v : Visit}
      (hv : v ∈ (registry.graph.callableTree c).visits) : v ∈ registry.visits := by
    rw [Graph.callableSource?] at hs
    split at hs
    case h_1 owner ho =>
      obtain ⟨_, t, ht, _⟩ := Graph.typeSource?_eq_some.mp hs
      exact mem_visits_of_method h hc ho ht hv
    case h_2 ho =>
      obtain ⟨_, hp, _⟩ := Option.map_eq_some_iff.mp hs
      exact mem_visits_of_function h hc hp hv
  obtain ⟨kind, id⟩ := node
  cases kind <;> simp only [Graph.visit?, Option.map_eq_some_iff] at hv <;> obtain ⟨n, hn, rfl⟩ := hv
  case package  => simp [Graph.source?] at hs
  case type     => exact mem_visits_of_typeTree h hn (by simp [Graph.visits_typeTree])
  case callable => exact hc hn hs (by simp [Graph.visits_callableTree])
  case parameter =>
    obtain ⟨c, hn', hs⟩ := Option.bind_eq_some_iff.mp hs
    exact hc hn' hs (mem_visits_callableTree h hn hn')
  case property =>
    obtain ⟨_, t, ht, _⟩ := Graph.typeSource?_eq_some.mp hs
    exact mem_visits_of_property h hn ht
  case constant =>
    obtain ⟨_, t, ht, _⟩ := Graph.typeSource?_eq_some.mp hs
    exact mem_visits_of_constant h hn ht

theorem mention_mem_notes (h : registry.graph.Ownership) :
    .mention source q target ∈ registry.notes ↔ ∃ node, registry.graph.Speaks node source.type source.package
      ∧ registry.graph.Mentions node target ∧ registry.graph.packageOf? target = some q ∧ source.package ≠ q := by
  simp only [notes, List.mem_flatMap, Visit.mention_mem_notes, Graph.speaks_iff h, Graph.mentions_iff]
  constructor
  case mp =>
    rintro ⟨v, hv, hs, hr, hq, hn⟩
    obtain ⟨node, hv⟩ := exists_visit?_of_mem_visits hv
    exact ⟨node, ⟨v, hv, hs⟩, ⟨v, hv, hr⟩, hq, hn.symm⟩
  case mpr =>
    rintro ⟨node, ⟨v, hv, hs⟩, ⟨v', hv', hr⟩, hq, hn⟩
    cases hv.symm.trans hv'
    exact ⟨v, mem_visits_of_source? h hv hs, hs, hr, hq, hn.symm⟩

-- The registry has a package of the given id, and does not hide it.
def Lists (registry : Registry) (p : PackageId) : Prop :=
  ∃ package ∈ registry.packages, package.id = p

theorem lists_type {id : TypeId} {type : TypeDecl} (h : registry.graph.Ownership)
    (ht : registry.graph.type? id = some type) : registry.Lists type.package := by
  have ⟨package, hp, hi, _⟩ := exists_package_of_type h ht
  exact ⟨package, hp, hi⟩

theorem lists_function {id : CallableId} {callable : Callable} (h : registry.graph.Ownership)
    (hc : registry.graph.callable? id = some callable) (hp : callable.package = some p) : registry.Lists p := by
  have ⟨package, hp, hi, _⟩ := exists_package_of_function h hc hp
  exact ⟨package, hp, hi⟩

theorem lists_speaker {node : NodeRef} {type : Option TypeId} (h : registry.graph.Ownership)
    (hs : registry.graph.Speaks node type p) : registry.Lists p := by
  induction hs
  case type ht          => exact lists_type h ht
  case property ht      => exact lists_type h ht
  case constant ht      => exact lists_type h ht
  case method ht        => exact lists_type h ht
  case parameter hi     => exact hi
  case function hc _ hp => exact lists_function h hc hp

theorem any_touches_iff (h : registry.graph.Ownership) : registry.notes.any (·.touches p) ↔ registry.Lists p := by
  rw [List.any_eq_true]
  constructor
  case mp =>
    rintro ⟨note, hn, hp⟩
    obtain ⟨v, hv, hn'⟩ := List.mem_flatMap.mp hn
    cases note <;> simp only [Note.touches, Bool.or_eq_true, decide_eq_true_eq] at hp
    case package q =>
      obtain ⟨package, rfl, rfl⟩ := Visit.package_mem_notes.mp hn'
      exact ⟨package, package_mem_visits.mp hv, hp⟩
    case type decl =>
      cases Visit.type_mem_notes.mp hn'
      have hm := (visited_types_perm h).mem_iff.mp (List.mem_filterMap.mpr ⟨_, hv, rfl⟩)
      obtain ⟨i, hi⟩ := Arena.mem_toList_iff.mp hm
      exact hp ▸ lists_type h hi
    case mention source q target =>
      obtain ⟨node, hs, _, hq, _⟩ := (mention_mem_notes h).mp hn
      obtain ⟨n, hn, he⟩ := Option.map_eq_some_iff.mp hq
      cases hp
      case inl hp => exact hp ▸ lists_speaker h hs
      case inr hp => exact hp ▸ he ▸ lists_type h hn
  case mpr =>
    rintro ⟨package, hp, rfl⟩
    refine ⟨.package package.id, ?_, by simp [Note.touches]⟩
    exact List.mem_flatMap.mpr ⟨.package package, package_mem_visits.mpr hp, by simp [Visit.notes]⟩

def tally (registry : Registry) (package : Package) : Tally where
  name := package.header.name
  totalTypes := registry.graph.types.toList.countP (·.package = package.id)
  abstractTypes := registry.graph.types.toList.countP fun t => t.package = package.id && t.isAbstract

theorem tallyOf?_notes (h : registry.graph.Ownership) {package : Package} (hp : package ∈ registry.packages) :
    tallyOf? registry.graph registry.notes package.id = some (registry.tally package) := by
  have hc {f : Note → Bool} (hp : ∀ p, f (.package p) = false)
      (hm : ∀ source p target, f (.mention source p target) = false) :
      registry.notes.countP f = registry.graph.types.toList.countP fun t => f (.type t) := by
    rw [countP_notes hp hm, List.countP_map, (visited_types_perm h).countP_eq]
    rfl
  have hn : registry.graph.name? package.id.ref = some package.header.name := by
    have ⟨i, hi⟩ := Arena.mem_toList_iff.mp (List.mem_filter.mp hp).left
    have he : package.id = i := h.packageIds i package hi
    simp [Graph.name?, Graph.header?, NodeId.ref, Graph.package?, he, hi]
  rw [tallyOf?, if_pos ((any_touches_iff h).mpr ⟨package, hp, rfl⟩), tally, hn]
  rw [hc (fun _ => rfl) fun _ _ _ => rfl, hc (fun _ => rfl) fun _ _ _ => rfl]
  rfl

end Registry

namespace Analyzer.HasNoted

variable {registry : Registry} {analyzer : Analyzer}

theorem package_coupling (hn : analyzer.HasNoted registry.graph registry.notes) (h : registry.graph.Ownership) :
    analyzer.packages.Describes registry.graph.PackageDepends := by
  refine hn.packages.congr fun p q => ?_
  simp only [Registry.mention_mem_notes h]
  constructor
  case mp =>
    rintro ⟨source, target, ⟨node, hs, hm, hq, hn⟩, rfl⟩
    exact ⟨hn, node, source.type, target, hs, hm, hq⟩
  case mpr =>
    rintro ⟨hn, node, type, target, hs, hm, hq⟩
    exact ⟨⟨type, p⟩, target, ⟨node, hs, hm, hq, hn⟩, rfl⟩

theorem type_coupling (hn : analyzer.HasNoted registry.graph registry.notes) (h : registry.graph.Ownership) :
    analyzer.types.Describes registry.graph.TypeDepends := by
  refine hn.types.congr fun t u => ?_
  simp only [Registry.mention_mem_notes h]
  constructor
  case mp =>
    rintro ⟨source, q, ⟨node, hs, hm, hq, hn⟩, ht⟩
    exact ⟨node, source.package, q, ht ▸ hs, hm, hq, hn⟩
  case mpr =>
    rintro ⟨node, p, q, hs, hm, hq, hn⟩
    exact ⟨⟨some t, p⟩, q, ⟨node, hs, hm, hq, hn⟩, rfl⟩

theorem tallies_eq (hn : analyzer.HasNoted registry.graph registry.notes) (h : registry.graph.Ownership)
    {package : Package} (hp : package ∈ registry.packages) :
    analyzer.tallies.get? package.id = some (registry.tally package) := by
  rw [hn.tallies, Registry.tallyOf?_notes h hp]

theorem tallies_none (hn : analyzer.HasNoted registry.graph registry.notes) (h : registry.graph.Ownership)
    {p : PackageId} (hp : ¬ registry.Lists p) : analyzer.tallies.get? p = none := by
  rw [hn.tallies, tallyOf?, if_neg (mt (Registry.any_touches_iff h).mp hp)]

end Analyzer.HasNoted

namespace Analyzer

variable {registry : Registry} {analyzer : Analyzer}

-- The metrics of a package, by what is in it and by how many packages it is coupled with.
structure Measures (analyzer : Analyzer) (registry : Registry) (package : Package) (stats : PackageStats) : Prop where
  name : stats.package = package.header.name
  totalTypes : stats.totalTypes = registry.graph.types.toList.countP (·.package = package.id)
  abstractTypes : stats.abstractTypes
    = registry.graph.types.toList.countP fun t => t.package = package.id && t.isAbstract
  concreteTypes : stats.concreteTypes
    = registry.graph.types.toList.countP fun t => t.package = package.id && !t.isAbstract
  afferent : stats.afferent = (analyzer.afferents (.package package.id)).length
  efferent : stats.efferent = (analyzer.efferents (.package package.id)).length
  abstractness : stats.abstractness
    = if stats.totalTypes = 0 then 0 else Float.ofNat stats.abstractTypes / Float.ofNat stats.totalTypes
  instability : stats.instability
    = if stats.afferent + stats.efferent = 0 then 0
      else Float.ofNat stats.efferent / Float.ofNat (stats.afferent + stats.efferent)
  distance : stats.distance = (stats.abstractness + stats.instability - 1.0).abs
  zone : stats.zone = Zone.classify stats.instability stats.abstractness

-- What an analyzer is to say about a registry: the dependencies in both directions, each of them once, and
-- metrics for the packages that the registry lists.
structure Portrays (analyzer : Analyzer) (registry : Registry) : Prop where
  efferents : ∀ p e, e ∈ analyzer.efferents (.package p) ↔ ∃ q, e = .package q ∧ registry.graph.PackageDepends p q
  afferents : ∀ p e, e ∈ analyzer.afferents (.package p) ↔ ∃ q, e = .package q ∧ registry.graph.PackageDepends q p
  typeEfferents : ∀ t e, e ∈ analyzer.efferents (.type t) ↔ ∃ u, e = .type u ∧ registry.graph.TypeDepends t u
  typeAfferents : ∀ t e, e ∈ analyzer.afferents (.type t) ↔ ∃ u, e = .type u ∧ registry.graph.TypeDepends u t
  nodup_efferents : ∀ e, (analyzer.efferents e).Nodup
  nodup_afferents : ∀ e, (analyzer.afferents e).Nodup
  isSome_stats : ∀ p, (analyzer.statsOf? p).isSome ↔ registry.Lists p
  stats : ∀ package ∈ registry.packages,
    ∃ stats, analyzer.statsOf? package.id = some stats ∧ analyzer.Measures registry package stats

theorem efferents_finish (h : analyzer.isAnalyzed = false) (endpoint : Endpoint) :
    analyzer.finish.efferents endpoint = match endpoint with
      | .package p => (analyzer.packages.efferentsOf p).toList.map .package
      | .type t    => (analyzer.types.efferentsOf t).toList.map .type := by
  simp only [efferents, finish, h]
  rfl

theorem afferents_finish (h : analyzer.isAnalyzed = false) (endpoint : Endpoint) :
    analyzer.finish.afferents endpoint = match endpoint with
      | .package p => (analyzer.packages.afferentsOf p).toList.map .package
      | .type t    => (analyzer.types.afferentsOf t).toList.map .type := by
  simp only [afferents, finish, h]
  rfl

theorem statsOf?_finish (h : analyzer.isAnalyzed = false) (p : PackageId) :
    analyzer.finish.statsOf? p = (analyzer.tallies.get? p).map fun tally =>
      statsOf tally (analyzer.finish.afferents (.package p)).length (analyzer.finish.efferents (.package p)).length := by
  simp only [afferents_finish h, efferents_finish h, List.length_map]
  simp only [statsOf?, finish, h]
  exact IdMap.get?_mapWithId

theorem measures_statsOf {package : Package} :
    analyzer.Measures registry package (statsOf (registry.tally package)
      (analyzer.afferents (.package package.id)).length (analyzer.efferents (.package package.id)).length) := by
  constructor
  case concreteTypes =>
    -- Types that are not abstract are those that are left.
    have hc := registry.graph.types.toList.countP_eq_countP_filter_add (·.package = package.id) TypeDecl.isAbstract
    rw [List.countP_filter, List.countP_filter] at hc
    exact Nat.sub_eq_of_eq_add' hc
  all_goals rfl

end Analyzer

theorem IdSet.mem_map_toList {kind : NodeKind} {set : IdSet kind} {β : Type} {f : NodeId kind → β} {b : β}
    {P : NodeId kind → Prop} (h : ∀ id, id ∈ set ↔ P id) : b ∈ set.toList.map f ↔ ∃ id, b = f id ∧ P id := by
  simp only [List.mem_map, IdSet.mem_toList, h, and_comm, eq_comm]

-- Whatever has been done to a registry, a new analyzer finds the coupling of its graph.
theorem analyze_portrays {registry : Registry} (h : registry.Reachable fun _ => True) :
    (({} : Analyzer).analyze registry).Portrays registry := by
  have ho := h.graph.ownership
  have ⟨noted, ha, hn⟩ := registry.analyze_eq_finish
  have hf := hn.isAnalyzed
  have hp := hn.package_coupling ho
  have ht := hn.type_coupling ho
  rw [ha]
  constructor
  case efferents =>
    intro p e
    rw [Analyzer.efferents_finish hf]
    exact IdSet.mem_map_toList fun _ => hp.efferents
  case afferents =>
    intro p e
    rw [Analyzer.afferents_finish hf]
    exact IdSet.mem_map_toList fun _ => hp.afferents
  case typeEfferents =>
    intro t e
    rw [Analyzer.efferents_finish hf]
    exact IdSet.mem_map_toList fun _ => ht.efferents
  case typeAfferents =>
    intro t e
    rw [Analyzer.afferents_finish hf]
    exact IdSet.mem_map_toList fun _ => ht.afferents
  case nodup_efferents =>
    intro e
    rw [Analyzer.efferents_finish hf]
    cases e
    case package => exact IdSet.nodup_toList.map fun _ _ => Endpoint.package.inj
    case type    => exact IdSet.nodup_toList.map fun _ _ => Endpoint.type.inj
  case nodup_afferents =>
    intro e
    rw [Analyzer.afferents_finish hf]
    cases e
    case package => exact IdSet.nodup_toList.map fun _ _ => Endpoint.package.inj
    case type    => exact IdSet.nodup_toList.map fun _ _ => Endpoint.type.inj
  case stats =>
    intro package hp
    rw [Analyzer.statsOf?_finish hf, hn.tallies_eq ho hp]
    exact ⟨_, rfl, Analyzer.measures_statsOf⟩
  case isSome_stats =>
    intro p
    rw [Analyzer.statsOf?_finish hf, Option.isSome_map]
    by_cases hl : registry.Lists p
    case pos =>
      obtain ⟨package, hp, rfl⟩ := hl
      simp only [hn.tallies_eq ho hp, Option.isSome_some, true_iff]
      exact ⟨package, hp, rfl⟩
    case neg => simp [hn.tallies_none ho hl, hl]

-- A method that was moved to another type, a type that was erased, and a package that nothing is left in.
theorem analyze_portrays_edited :
    let ops : List Registry.Op := [
      .build (.type .cls) "shapes.Circle", .build (.type .interface) "shapes.Round", .build (.type .cls) "Canvas",
      .edit (.newMethod "draw"), .edit (.attachMethod ⟨0⟩ ⟨0⟩), .edit (.addUse ⟨0⟩ ⟨2⟩), .edit (.addInterface ⟨2⟩ ⟨1⟩),
      .edit (.attachMethod ⟨1⟩ ⟨0⟩), .edit (.eraseType ⟨0⟩), .edit (.relocate ⟨2⟩ "drawing"), .seek (.type .trait) "Faded",
      .edit (.eraseType ⟨3⟩)]
    let registry := (Registry.ofConfig {}).perform ops
    registry.Reachable (fun _ => True) ∧ (({} : Analyzer).analyze registry).Portrays registry := by
  intro ops registry
  have h : registry.Reachable (fun _ => True) :=
    ⟨{}, Registry.ofConfig {}, rfl, .perform fun _ _ => trivial⟩
  exact ⟨h, analyze_portrays h⟩

end PackageCoupling
