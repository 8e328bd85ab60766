import PackageCoupling.Proofs.Graph.Ownership
import PackageCoupling.Walk.Listener

namespace PackageCoupling

namespace Tree

mutual

def visits : Tree → List Visit
  | .node visit children => visit :: visitsAll children

def visitsAll : List Tree → List Visit
  | []            => []
  | tree :: trees => tree.visits ++ visitsAll trees

end

theorem visitsAll_eq_flatMap {trees : List Tree} : visitsAll trees = trees.flatMap visits := by
  induction trees
  case nil               => rfl
  case cons tree rest hi => rw [visitsAll, hi, List.flatMap_cons]

@[simp]
theorem visits_leaf {visit : Visit} : (leaf visit).visits = [visit] :=
  rfl

end Tree

namespace Listener

variable {σ : Type} {listener : Listener σ} {P : σ → Prop}

-- In states with a certain property a listener wants to see everything, and keeps the property. Leaving a
-- node makes no difference to it.
structure Thorough (listener : Listener σ) (P : σ → Prop) : Prop where
  descends : ∀ {s}, P s → ∀ v, (listener.enter (.visit v) s).1 = .descend
  keeps : ∀ {s}, P s → ∀ v, P (listener.enter (.visit v) s).2
  leaves : ∀ v s, listener.leave (.visit v) s = s

def enterAll (listener : Listener σ) (visits : List Visit) (s : σ) : σ :=
  visits.foldl (fun s v => (listener.enter (.visit v) s).2) s

theorem Thorough.enterAll (h : listener.Thorough P) {visits : List Visit} {s : σ} (hs : P s) :
    P (listener.enterAll visits s) := by
  induction visits generalizing s
  case nil            => exact hs
  case cons v rest hi => exact hi (h.keeps hs v)

mutual

theorem Thorough.walk (h : listener.Thorough P) : ∀ (tree : Tree) {s : σ}, P s →
    (listener.walk tree s).answer = .descend ∧ (listener.walk tree s).state = listener.enterAll tree.visits s
  | .node v children, s, hs => by
    have hd := h.descends hs v
    have ⟨ha, he⟩ := h.walkAll children (h.keeps hs v)
    rw [Listener.walk]
    split
    case h_1 hr => simp [hr] at hd
    case h_2 hr => simp [hr] at hd
    case h_3 s' hr =>
      simp only [hr] at ha he
      simp only [ha, he, h.leaves]
      simp [Tree.visits, Listener.enterAll, hr]

theorem Thorough.walkAll (h : listener.Thorough P) : ∀ (trees : List Tree) {s : σ}, P s →
    (listener.walkAll trees s).answer = .descend
      ∧ (listener.walkAll trees s).state = listener.enterAll (Tree.visitsAll trees) s
  | [], s, hs => ⟨rfl, rfl⟩
  | tree :: trees, s, hs => by
    have ⟨ha, he⟩ := h.walk tree hs
    have hp : P (listener.enterAll tree.visits s) := h.enterAll hs
    have ⟨ha', he'⟩ := h.walkAll trees hp
    rw [Listener.walkAll]
    simp only [ha, he, ha', he']
    simp [Tree.visitsAll, Listener.enterAll]

end

end Listener

def Graph.visit? (graph : Graph) : NodeRef → Option Visit
  | ⟨.package, id⟩   => (graph.package? id).map .package
  | ⟨.type, id⟩      => (graph.type? id).map .type
  | ⟨.callable, id⟩  => (graph.callable? id).map .callable
  | ⟨.parameter, id⟩ => (graph.parameter? id).map .parameter
  | ⟨.property, id⟩  => (graph.property? id).map .property
  | ⟨.constant, id⟩  => (graph.constant? id).map .constant

def Visit.type? : Visit → Option TypeDecl
  | .type n => some n
  | _       => none

namespace Graph

variable {graph : Graph} {callable : Callable} {type : TypeDecl} {package : Package}

theorem visits_callableTree :
    (graph.callableTree callable).visits
      = .callable callable :: (callable.parameters.filterMap graph.parameter?).map .parameter := by
  simp only [callableTree, Tree.visits, Tree.visitsAll_eq_flatMap, List.flatMap_map, Tree.visits_leaf,
    ← List.map_eq_flatMap]

theorem visits_typeTree :
    (graph.typeTree type).visits
      = .type type :: ((type.constants.filterMap graph.constant?).map .constant
        ++ (type.properties.filterMap graph.property?).map .property
        ++ (type.methods.filterMap graph.callable?).flatMap fun c => (graph.callableTree c).visits) := by
  simp only [typeTree, Tree.visits, Tree.visitsAll_eq_flatMap, List.flatMap_append, List.flatMap_map,
    Tree.visits_leaf, ← List.map_eq_flatMap]

theorem visits_packageTree :
    (graph.packageTree package).visits
      = .package package :: (TypeKind.all.flatMap (fun kind =>
          (graph.typesOfKind package kind).flatMap fun t => (graph.typeTree t).visits)
        ++ (package.functions.filterMap graph.callable?).flatMap fun c => (graph.callableTree c).visits) := by
  simp [packageTree, Tree.visits, Tree.visitsAll_eq_flatMap, List.flatMap_map, List.flatMap_assoc]

theorem filterMap_type?_callableTree : (graph.callableTree callable).visits.filterMap Visit.type? = [] := by
  rw [visits_callableTree, List.filterMap_eq_nil_iff]
  intro v hv
  simp only [List.mem_cons, List.mem_map] at hv
  obtain rfl | ⟨p, _, rfl⟩ := hv <;> rfl

theorem filterMap_type?_typeTree : (graph.typeTree type).visits.filterMap Visit.type? = [type] := by
  simp [visits_typeTree, Visit.type?, List.filterMap_flatMap, filterMap_type?_callableTree]

theorem filterMap_type?_packageTree :
    (graph.packageTree package).visits.filterMap Visit.type? = TypeKind.all.flatMap (graph.typesOfKind package) := by
  simp [visits_packageTree, Visit.type?, List.filterMap_cons, List.filterMap_flatMap, filterMap_type?_callableTree,
    filterMap_type?_typeTree]

theorem Ownership.nodup_typesOfKind {packageId : PackageId} (h : graph.Ownership)
    (hp : graph.package? packageId = some package) :
    (TypeKind.all.flatMap (graph.typesOfKind package)).Nodup := by
  have hd : (package.types.filterMap graph.type?).Nodup := by
    refine (h.types.nodup hp).filterMap ?_
    intro i j t hi hj
    exact (h.typeIds i t hi).symm.trans (h.typeIds j t hj)
  refine List.nodup_flatMap.mpr ⟨fun kind _ => hd.filter _, ?_⟩
  have hk {k l : TypeKind} (hne : k ≠ l) : List.Disjoint (graph.typesOfKind package k) (graph.typesOfKind package l) := by
    intro t hk hl
    simp only [typesOfKind, List.mem_filter, decide_eq_true_eq] at hk hl
    exact hne (hk.right.symm.trans hl.right)
  exact List.Pairwise.imp hk (by decide)

end Graph

namespace Registry

def visits (registry : Registry) : List Visit :=
  registry.forest.flatMap Tree.visits

variable {registry : Registry} {visit : Visit} {package : Package} {packageId : PackageId}
variable {type : TypeDecl} {typeId : TypeId}
variable {callable : Callable} {callableId : CallableId}

theorem mem_visits :
    visit ∈ registry.visits ↔ ∃ p ∈ registry.packages, visit ∈ (registry.graph.packageTree p).visits := by
  simp [visits, forest]

theorem mem_packages (hp : registry.graph.package? packageId = some package) (he : package.isEmpty = false) :
    package ∈ registry.packages := by
  refine List.mem_filter.mpr ⟨Arena.mem_toList_iff.mpr ⟨packageId, hp⟩, ?_⟩
  simp [he]

theorem package?_of_mem_packages (h : registry.graph.Ownership) (hp : package ∈ registry.packages) :
    registry.graph.package? package.id = some package := by
  obtain ⟨i, hi⟩ := Arena.mem_toList_iff.mp (List.mem_filter.mp hp).left
  have hl : package.id = i := h.packageIds i package hi
  exact hl ▸ hi

theorem exists_package_of_type (h : registry.graph.Ownership) (ht : registry.graph.type? typeId = some type) :
    ∃ p ∈ registry.packages, p.id = type.package ∧ typeId ∈ p.types := by
  have ho : (registry.graph.types.get? typeId).bind (some ·.package) = some type.package := by
    rw [Graph.type?] at ht
    simp [ht]
  obtain ⟨p, hp⟩ := h.packagesFull type.package (h.types.issued ho)
  have hm : typeId ∈ p.types := (h.types.mem_iff hp).mpr ho
  exact ⟨p, mem_packages hp (by simp [Package.isEmpty, List.ne_nil_of_mem hm]), h.packageIds _ p hp, hm⟩

theorem exists_package_of_function (h : registry.graph.Ownership)
    (hc : registry.graph.callable? callableId = some callable) (hp : callable.package = some packageId) :
    ∃ p ∈ registry.packages, p.id = packageId ∧ callableId ∈ p.functions := by
  have ho : (registry.graph.callables.get? callableId).bind (·.package) = some packageId := by
    rw [Graph.callable?] at hc
    simp [hc, hp]
  obtain ⟨p, hp⟩ := h.packagesFull packageId (h.functions.issued ho)
  have hm : callableId ∈ p.functions := (h.functions.mem_iff hp).mpr ho
  exact ⟨p, mem_packages hp (by simp [Package.isEmpty, List.ne_nil_of_mem hm]), h.packageIds _ p hp, hm⟩

theorem mem_visits_of_typeTree (h : registry.graph.Ownership) (ht : registry.graph.type? typeId = some type)
    (hv : visit ∈ (registry.graph.typeTree type).visits) : visit ∈ registry.visits := by
  have ⟨p, hp, _, hm⟩ := exists_package_of_type h ht
  refine mem_visits.mpr ⟨p, hp, ?_⟩
  have hk : type ∈ registry.graph.typesOfKind p type.kind := by
    simp only [Graph.typesOfKind, List.mem_filter, List.mem_filterMap, decide_true, and_true]
    exact ⟨typeId, hm, ht⟩
  have ha : type.kind ∈ TypeKind.all := by cases type.kind <;> decide
  simp only [Graph.visits_packageTree, List.mem_cons, List.mem_append, List.mem_flatMap]
  exact .inr (.inl ⟨type.kind, ha, type, hk, hv⟩)

theorem mem_visits_of_function (h : registry.graph.Ownership) (hc : registry.graph.callable? callableId = some callable)
    (hp : callable.package = some packageId) (hv : visit ∈ (registry.graph.callableTree callable).visits) :
    visit ∈ registry.visits := by
  have ⟨p, hp, _, hm⟩ := exists_package_of_function h hc hp
  refine mem_visits.mpr ⟨p, hp, ?_⟩
  simp only [Graph.visits_packageTree, List.mem_cons, List.mem_append, List.mem_flatMap, List.mem_filterMap]
  exact .inr (.inr ⟨callable, ⟨callableId, hm, hc⟩, hv⟩)

theorem mem_visits_of_method (h : registry.graph.Ownership) (hc : registry.graph.callable? callableId = some callable)
    (ho : callable.owner = some typeId) (ht : registry.graph.type? typeId = some type)
    (hv : visit ∈ (registry.graph.callableTree callable).visits) : visit ∈ registry.visits := by
  have hm : callableId ∈ type.methods := by
    rw [Graph.callable?] at hc
    exact (h.methods.mem_iff ht).mpr (by simp [hc, ho])
  refine mem_visits_of_typeTree h ht ?_
  simp only [Graph.visits_typeTree, List.mem_cons, List.mem_append, List.mem_flatMap, List.mem_filterMap]
  exact .inr (.inr ⟨callable, ⟨callableId, hm, hc⟩, hv⟩)

theorem mem_visits_of_property {property : Property} {propertyId : PropertyId} (h : registry.graph.Ownership)
    (hp : registry.graph.property? propertyId = some property)
    (ht : registry.graph.type? property.owner = some type) : .property property ∈ registry.visits := by
  have hm : propertyId ∈ type.properties := by
    rw [Graph.property?] at hp
    exact (h.properties.mem_iff ht).mpr (by simp [hp])
  refine mem_visits_of_typeTree h ht ?_
  simp only [Graph.visits_typeTree, List.mem_cons, List.mem_append, List.mem_map, List.mem_filterMap]
  exact .inr (.inl (.inr ⟨property, ⟨propertyId, hm, hp⟩, rfl⟩))

theorem mem_visits_of_constant {constant : Constant} {constantId : ConstantId} (h : registry.graph.Ownership)
    (hc : registry.graph.constant? constantId = some constant)
    (ht : registry.graph.type? constant.owner = some type) : .constant constant ∈ registry.visits := by
  have hm : constantId ∈ type.constants := by
    rw [Graph.constant?] at hc
    exact (h.constants.mem_iff ht).mpr (by simp [hc])
  refine mem_visits_of_typeTree h ht ?_
  simp only [Graph.visits_typeTree, List.mem_cons, List.mem_append, List.mem_map, List.mem_filterMap]
  exact .inr (.inl (.inl ⟨constant, ⟨constantId, hm, hc⟩, rfl⟩))

theorem mem_visits_callableTree {parameter : Parameter} {parameterId : ParameterId} (h : registry.graph.Ownership)
    (hp : registry.graph.parameter? parameterId = some parameter)
    (hc : registry.graph.callable? parameter.callable = some callable) :
    .parameter parameter ∈ (registry.graph.callableTree callable).visits := by
  have hm : parameterId ∈ callable.parameters := by
    rw [Graph.parameter?] at hp
    exact (h.parameters.mem_iff hc).mpr (by simp [hp])
  simp only [Graph.visits_callableTree, List.mem_cons, List.mem_map, List.mem_filterMap]
  exact .inr ⟨parameter, ⟨parameterId, hm, hp⟩, rfl⟩

theorem exists_visit?_of_mem_visits (h : visit ∈ registry.visits) :
    ∃ node, registry.graph.visit? node = some visit := by
  have hc {c : Callable} {i : CallableId} (hi : registry.graph.callable? i = some c)
      (hv : visit ∈ (registry.graph.callableTree c).visits) : ∃ node, registry.graph.visit? node = some visit := by
    simp only [Graph.visits_callableTree, List.mem_cons, List.mem_map, List.mem_filterMap] at hv
    cases hv
    case inl hv => exact ⟨i.ref, by simp [Graph.visit?, NodeId.ref, hi, hv]⟩
    case inr hv =>
      have ⟨p, ⟨j, _, hj⟩, he⟩ := hv
      exact ⟨j.ref, by simp [Graph.visit?, NodeId.ref, hj, he]⟩
  have hm {ms : List CallableId} (hv : visit ∈ (ms.filterMap registry.graph.callable?).flatMap fun c =>
      (registry.graph.callableTree c).visits) : ∃ node, registry.graph.visit? node = some visit := by
    simp only [List.mem_flatMap, List.mem_filterMap] at hv
    have ⟨c, ⟨i, _, hi⟩, hv⟩ := hv
    exact hc hi hv
  have ⟨p, hp, hv⟩ := mem_visits.mp h
  simp only [Graph.visits_packageTree, List.mem_cons, List.mem_append] at hv
  obtain hv | hv | hv := hv
  case inl =>
    have ⟨i, hi⟩ := Arena.mem_toList_iff.mp (List.mem_filter.mp hp).left
    exact ⟨i.ref, by simp [Graph.visit?, NodeId.ref, Graph.package?, hi, hv]⟩
  case inr.inr => exact hm hv
  case inr.inl =>
    simp only [List.mem_flatMap, Graph.typesOfKind, List.mem_filter, List.mem_filterMap] at hv
    have ⟨_, _, t, ⟨⟨i, _, hi⟩, _⟩, hv⟩ := hv
    simp only [Graph.visits_typeTree, List.mem_cons, List.mem_append] at hv
    obtain hv | (hv | hv) | hv := hv
    case inl => exact ⟨i.ref, by simp [Graph.visit?, NodeId.ref, hi, hv]⟩
    case inr.inr => exact hm hv
    all_goals
      simp only [List.mem_map, List.mem_filterMap] at hv
      have ⟨n, ⟨j, _, hj⟩, he⟩ := hv
      exact ⟨j.ref, by simp [Graph.visit?, NodeId.ref, hj, he]⟩

theorem package_mem_visits : .package package ∈ registry.visits ↔ package ∈ registry.packages := by
  simp [mem_visits, Graph.visits_packageTree, Graph.visits_typeTree, Graph.visits_callableTree]

theorem filterMap_type?_visits : registry.visits.filterMap Visit.type?
    = registry.packages.flatMap fun p => TypeKind.all.flatMap (registry.graph.typesOfKind p) := by
  simp [visits, forest, List.filterMap_flatMap, List.flatMap_map, Graph.filterMap_type?_packageTree]

theorem visited_types_perm (h : registry.graph.Ownership) :
    (registry.visits.filterMap Visit.type?).Perm registry.graph.types.toList := by
  have hm {p : Package} {t : TypeDecl} (hp : registry.graph.package? p.id = some p)
      (ht : t ∈ TypeKind.all.flatMap (registry.graph.typesOfKind p)) : t.package = p.id := by
    simp only [List.mem_flatMap, Graph.typesOfKind, List.mem_filter, List.mem_filterMap] at ht
    obtain ⟨_, _, ⟨i, hi, hg⟩, _⟩ := ht
    have := (h.types.mem_iff hp).mp hi
    rw [Graph.type?] at hg
    simpa [hg] using this
  refine (List.perm_ext_iff_of_nodup ?_ h.typeIds.nodup_toList).mpr fun t => ?_
  case refine_1 =>
    rw [filterMap_type?_visits]
    refine List.nodup_flatMap.mpr ⟨fun p hi => h.nodup_typesOfKind (package?_of_mem_packages h hi), ?_⟩
    have hd : registry.packages.Nodup := h.packageIds.nodup_toList.filter _
    refine hd.imp_of_mem ?_
    intro p q hi hj hne t htp htq
    replace hi := package?_of_mem_packages h hi
    replace hj := package?_of_mem_packages h hj
    have he : p.id = q.id := (hm hi htp).symm.trans (hm hj htq)
    have := hi.symm.trans (he ▸ hj)
    exact hne (Option.some.inj this)
  case refine_2 =>
    constructor
    case mp =>
      intro ht
      obtain ⟨v, hv, he⟩ := List.mem_filterMap.mp ht
      obtain ⟨⟨kind, i⟩, hn⟩ := exists_visit?_of_mem_visits hv
      cases v <;> simp only [Visit.type?, reduceCtorEq, Option.some.injEq] at he
      subst he
      cases kind <;> simp [Graph.visit?] at hn
      exact Arena.mem_toList_iff.mpr ⟨i, hn⟩
    case mpr =>
      intro ht
      obtain ⟨i, hi⟩ := Arena.mem_toList_iff.mp ht
      refine List.mem_filterMap.mpr ⟨.type t, mem_visits_of_typeTree h hi ?_, rfl⟩
      simp [Graph.visits_typeTree]

end Registry
end PackageCoupling
