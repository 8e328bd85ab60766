import Mathlib.Data.List.Count
import Mathlib.Data.List.Perm.Basic
import PackageCoupling.Proofs.Graph.Membership
import PackageCoupling.Proofs.Walk
import PackageCoupling.Proofs.Walk.Discipline

namespace PackageCoupling

def Event.entered? : Event → Option Visit
  | .enter (.visit v) => some v
  | _                 => none

def Visit.members : Visit → List NodeRef
  | package n  => n.types.map NodeId.ref ++ n.functions.map NodeId.ref
  | type n     => n.constants.map NodeId.ref ++ n.properties.map NodeId.ref ++ n.methods.map NodeId.ref
  | callable n => n.parameters.map NodeId.ref
  | _          => []

namespace Tree

mutual

theorem filterMap_events : ∀ tree : Tree, tree.events.filterMap Event.entered? = tree.visits
  | .node v children => by
    simp [events, visits, Visit.around, Event.entered?, filterMap_eventsAll children]

theorem filterMap_eventsAll : ∀ trees : List Tree, (eventsAll trees).filterMap Event.entered? = visitsAll trees
  | []            => rfl
  | tree :: trees => by
    simp [eventsAll, visitsAll, filterMap_events tree, filterMap_eventsAll trees]

end

end Tree

namespace Listener

variable {σ : Type} {listener : Listener σ}

theorem trace_follow (h : ∀ call s, (listener.enter call s).1 = .descend) (route : Route) (s : σ) :
    (listener.follow route s).trace = route.events := by
  have ha (events : List Event) (s : σ) : listener.Attends events s ⟨.descend, listener.replay events s, events⟩ := by
    induction events generalizing s
    case nil => exact .done
    case cons event rest hi =>
      cases event
      case leave call => exact .leave (hi _)
      case enter call => exact .descend (Prod.ext (h call s) rfl) (hi _)
  rw [attends_follow.unique (ha route.events s)]

end Listener

namespace NodeId

variable {kind kind' : NodeKind} {id : NodeId kind}

theorem ref_injective : Function.Injective (ref : NodeId kind → NodeRef) := by
  intro i j h
  exact eq_of_heq (NodeRef.mk.inj h).right

@[simp]
theorem count_map_ref {ids : List (NodeId kind)} : (ids.map ref).count id.ref = ids.count id :=
  List.count_map_of_injective ids ref ref_injective id

theorem count_map_ref_of_ne {ids : List (NodeId kind')} (h : kind' ≠ kind) : (ids.map ref).count id.ref = 0 := by
  refine List.count_eq_zero.mpr fun hm => ?_
  obtain ⟨j, _, hj⟩ := List.mem_map.mp hm
  exact h (NodeRef.mk.inj hj).left

end NodeId

namespace Arena

variable {kind kind' : NodeKind} {α β : Type}

theorem Labelled.map_filterMap {arena : Arena kind α} {id : α → NodeId kind} {ids : List (NodeId kind)}
    (h : arena.Labelled id) (hl : ∀ i ∈ ids, arena.contains i) : (ids.filterMap arena.get?).map id = ids := by
  induction ids
  case nil => rfl
  case cons i rest hi =>
    obtain ⟨a, ha⟩ := contains_iff.mp (hl i List.mem_cons_self)
    rw [List.filterMap_cons_some ha, List.map_cons, h i a ha, hi fun j hj => hl j (List.mem_cons_of_mem i hj)]

theorem Labelled.count_map_filter {arena : Arena kind α} {id : α → NodeId kind} {i : NodeId kind} {q : α → Bool}
    (h : arena.Labelled id) : ((arena.toList.filter q).map id).count i = ((arena.get? i).any q).toNat := by
  have hd : ((arena.toList.filter q).map id).Nodup := by
    refine (h.nodup_toList.filter q).map_on ?_
    intro a ha b hb he
    obtain ⟨j, hj⟩ := mem_toList_iff.mp (List.mem_filter.mp ha).left
    obtain ⟨k, hk⟩ := mem_toList_iff.mp (List.mem_filter.mp hb).left
    rw [h j a hj, h k b hk] at he
    exact Option.some.inj (hj.symm.trans (he ▸ hk))
  have hm : i ∈ (arena.toList.filter q).map id ↔ (arena.get? i).any q := by
    simp only [List.mem_map, List.mem_filter, Option.any_eq_true]
    constructor
    case mp =>
      rintro ⟨a, ⟨ha, hq⟩, rfl⟩
      obtain ⟨j, hj⟩ := mem_toList_iff.mp ha
      exact ⟨a, h j a hj ▸ hj, hq⟩
    case mpr =>
      rintro ⟨a, ha, hq⟩
      exact ⟨a, ⟨mem_toList_iff.mpr ⟨i, ha⟩, hq⟩, h i a ha⟩
  rw [hd.count]
  by_cases hc : (arena.get? i).any q <;> simp [hm, hc]

variable {owners : Arena kind α} {members : α → List (NodeId kind')} {owned : Arena kind' β}
variable {owner : β → Option (NodeId kind)} {j : NodeId kind'}

theorem Owns.exists_of_mem {i : NodeId kind} {a : α} (h : owners.Owns members owned owner)
    (ha : owners.get? i = some a) (hj : j ∈ members a) : ∃ b, owned.get? j = some b := by
  obtain ⟨b, hb, _⟩ := Option.bind_eq_some_iff.mp ((h.mem_iff ha).mp hj)
  exact ⟨b, hb⟩

-- Whatever belongs to something that is there is listed once, and by nothing else.
theorem Owns.count_flatMap (h : owners.Owns members owned owner) :
    (owners.toList.flatMap members).count j = (((owned.get? j).bind owner).any owners.contains).toNat := by
  by_cases hc : ((owned.get? j).bind owner).any owners.contains
  case pos =>
    obtain ⟨i, hi, hl⟩ := (Option.any_eq_true _ _).mp hc
    obtain ⟨a, ha⟩ := contains_iff.mp hl
    obtain ⟨before, after, ht, he, _⟩ := exists_toList ha
    -- The others would have to be the owner as well.
    have hz : ∀ b ∈ before ++ after, j ∉ members b := by
      intro b hb hj
      obtain ⟨k, hk⟩ := mem_toList_iff.mp (he ▸ hb)
      rw [get?_erase] at hk
      split at hk
      case isTrue => simp at hk
      case isFalse hne =>
        have := (h.mem_iff hk).mp hj
        exact hne (Option.some.inj (hi.symm.trans this))
    have hb : j ∉ before.flatMap members := by simpa using fun b hb => hz b (by simp [hb])
    have hf : j ∉ after.flatMap members := by simpa using fun b hb => hz b (by simp [hb])
    rw [ht, List.flatMap_append, List.flatMap_cons, List.count_append, List.count_append, (h.nodup ha).count,
      List.count_eq_zero.mpr hb, List.count_eq_zero.mpr hf]
    simp [(h.mem_iff ha).mpr hi, hc]
  case neg =>
    have hz : j ∉ owners.toList.flatMap members := by
      intro hm
      obtain ⟨a, ha, hj⟩ := List.mem_flatMap.mp hm
      obtain ⟨i, hi⟩ := mem_toList_iff.mp ha
      refine hc ?_
      rw [(h.mem_iff hi).mp hj]
      exact contains_of_get? hi
    rw [List.count_eq_zero.mpr hz]
    simp [hc]

theorem Owns.contains_of_mem_flatMap (h : owners.Owns members owned owner)
    (hj : j ∈ owners.toList.flatMap members) : owned.contains j := by
  obtain ⟨a, ha, hm⟩ := List.mem_flatMap.mp hj
  obtain ⟨i, hi⟩ := mem_toList_iff.mp ha
  exact contains_iff.mpr (h.exists_of_mem hi hm)

end Arena

namespace Graph

variable {graph : Graph}

def parametersOf (graph : Graph) (callable : CallableId) : List ParameterId :=
  (graph.callable? callable).elim [] (·.parameters)

-- The visits to types and to packages, sorted by what they come to. Only the order of the parts differs, so that it is
-- enough to count.

theorem visits_types_perm (graph : Graph) (types : List TypeDecl) :
    (types.flatMap fun t => (graph.typeTree t).visits).Perm
      (types.map .type ++ ((types.flatMap (·.constants)).filterMap graph.constant?).map .constant
        ++ ((types.flatMap (·.properties)).filterMap graph.property?).map .property
        ++ ((types.flatMap (·.methods)).filterMap graph.callable?).flatMap fun c => (graph.callableTree c).visits) := by
  induction types
  case nil => rfl
  case cons type rest hi =>
    rw [List.perm_iff_count] at hi ⊢
    intro v
    have hi := hi v
    simp only [List.flatMap_cons, List.map_cons, List.filterMap_append, List.map_append, List.flatMap_append,
      List.count_append, List.cons_append, List.count_cons, visits_typeTree] at hi ⊢
    omega

theorem visits_packages_perm (graph : Graph) (packages : List Package) :
    (packages.flatMap fun p => (graph.packageTree p).visits).Perm
      (packages.map .package
        ++ (packages.flatMap fun p => TypeKind.all.flatMap (graph.typesOfKind p)).flatMap (fun t =>
          (graph.typeTree t).visits)
        ++ ((packages.flatMap (·.functions)).filterMap graph.callable?).flatMap fun c =>
          (graph.callableTree c).visits) := by
  induction packages
  case nil => rfl
  case cons package rest hi =>
    rw [List.perm_iff_count] at hi ⊢
    intro v
    have hi := hi v
    simp only [List.flatMap_cons, List.map_cons, List.filterMap_append, List.flatMap_append,
      List.count_append, List.cons_append, List.count_cons, visits_packageTree, List.flatMap_assoc] at hi ⊢
    omega

theorem refs_callables_perm {callables : List CallableId} (h : graph.Ownership) (ha : graph.Arrangement)
    (hl : ∀ c ∈ callables, graph.callables.contains c) :
    (((callables.filterMap graph.callable?).flatMap fun c => (graph.callableTree c).visits).map Visit.ref).Perm
      (callables.map NodeId.ref ++ (callables.flatMap graph.parametersOf).map NodeId.ref) := by
  have hr {id : CallableId} {callable : Callable} (hc : graph.callable? id = some callable) :
      (graph.callableTree callable).visits.map Visit.ref
        = id.ref :: (graph.parametersOf id).map NodeId.ref := by
    have hp : ∀ p ∈ callable.parameters, graph.parameters.contains p :=
      fun p hp => Arena.contains_iff.mpr (h.parameters.exists_of_mem hc hp)
    have hm := congrArg (List.map NodeId.ref) (ha.parameterIds.map_filterMap hp)
    rw [visits_callableTree, List.map_cons, List.map_map, parametersOf, hc, Option.elim_some, ← hm, List.map_map]
    exact congrArg (NodeId.ref · :: _) (ha.callableIds id callable hc)
  induction callables
  case nil => rfl
  case cons c rest hi =>
    obtain ⟨callable, hc⟩ : ∃ callable, graph.callable? c = some callable :=
      Arena.contains_iff.mp (hl c List.mem_cons_self)
    have hi := hi fun d hd => hl d (List.mem_cons_of_mem c hd)
    rw [List.filterMap_cons_some hc, List.flatMap_cons, List.map_append, hr hc]
    rw [List.perm_iff_count] at hi ⊢
    intro v
    have hi := hi v
    simp only [List.flatMap_cons, List.map_cons, List.map_append, List.count_append, List.cons_append,
      List.count_cons] at hi ⊢
    omega

end Graph

namespace Registry

variable {registry : Registry}

-- The callables that belong to a type or a package, once for each.
def attached (registry : Registry) : List CallableId :=
  registry.graph.types.toList.flatMap (·.methods) ++ registry.graph.packages.toList.flatMap (·.functions)

theorem contains_of_mem_attached {c : CallableId} (h : registry.graph.Ownership) (hc : c ∈ registry.attached) :
    registry.graph.callables.contains c := by
  cases List.mem_append.mp hc
  case inl hm => exact h.methods.contains_of_mem_flatMap hm
  case inr hf => exact h.functions.contains_of_mem_flatMap hf

theorem flatMap_functions_packages :
    registry.packages.flatMap (·.functions) = registry.graph.packages.toList.flatMap (·.functions) := by
  rw [packages]
  induction registry.graph.packages.toList
  case nil => rfl
  case cons p rest hi =>
    rw [List.filter_cons]
    split
    case isTrue => rw [List.flatMap_cons, List.flatMap_cons, hi]
    case isFalse hp =>
      have hf : p.functions = [] := by
        simp only [Package.isEmpty] at hp
        simp_all
      rw [List.flatMap_cons, hf, hi, List.nil_append]

theorem visits_perm (h : registry.graph.Ownership) : registry.visits.Perm
    (registry.packages.map .package ++ registry.graph.types.toList.map .type
      ++ ((registry.graph.types.toList.flatMap (·.constants)).filterMap registry.graph.constant?).map .constant
      ++ ((registry.graph.types.toList.flatMap (·.properties)).filterMap registry.graph.property?).map .property
      ++ (registry.attached.filterMap registry.graph.callable?).flatMap fun c =>
        (registry.graph.callableTree c).visits) := by
  have hp := registry.graph.visits_packages_perm registry.packages
  have ht := ((visited_types_perm h).flatMap_right fun t => (registry.graph.typeTree t).visits).trans
    (registry.graph.visits_types_perm _)
  rw [filterMap_type?_visits] at ht
  rw [flatMap_functions_packages] at hp
  rw [visits, forest, List.flatMap_map, List.perm_iff_count]
  intro v
  have hp := hp.count_eq v
  have ht := ht.count_eq v
  simp only [attached, List.filterMap_append, List.flatMap_append, List.count_append] at hp ht ⊢
  omega

theorem refs_perm (h : registry.graph.Ownership) (ha : registry.graph.Arrangement) :
    (registry.visits.map Visit.ref).Perm
      ((registry.packages.map (·.id)).map NodeId.ref ++ (registry.graph.types.toList.map (·.id)).map NodeId.ref
        ++ (registry.graph.types.toList.flatMap (·.constants)).map NodeId.ref
        ++ (registry.graph.types.toList.flatMap (·.properties)).map NodeId.ref
        ++ (registry.attached.map NodeId.ref
          ++ (registry.attached.flatMap registry.graph.parametersOf).map NodeId.ref)) := by
  have hc := ha.constantIds.map_filterMap fun _ => h.constants.contains_of_mem_flatMap
  have hp := ha.propertyIds.map_filterMap fun _ => h.properties.contains_of_mem_flatMap
  have hm := Graph.refs_callables_perm h ha fun _ => contains_of_mem_attached h
  refine ((visits_perm h).map Visit.ref).trans ?_
  nth_rewrite 2 [← hc, ← hp]
  simp only [List.map_append, List.map_map]
  exact hm.append_left _

theorem count_parametersOf {p : ParameterId} {callables : List CallableId} (h : registry.graph.Ownership)
    (hl : ∀ c ∈ callables, registry.graph.callables.contains c) :
    (callables.flatMap registry.graph.parametersOf).count p
      = (registry.graph.parameter? p).elim 0 fun parameter => callables.count parameter.callable := by
  induction callables
  case nil => cases registry.graph.parameter? p <;> rfl
  case cons c rest hi =>
    obtain ⟨callable, hc⟩ : ∃ callable, registry.graph.callable? c = some callable :=
      Arena.contains_iff.mp (hl c List.mem_cons_self)
    have hi := hi fun d hd => hl d (List.mem_cons_of_mem c hd)
    have hm : p ∈ callable.parameters ↔ _ := h.parameters.mem_iff hc
    rw [List.flatMap_cons, List.count_append, hi, Graph.parametersOf, hc, Option.elim_some,
      (h.parameters.nodup hc).count]
    rw [Graph.parameter?]
    cases hp : registry.graph.parameters.get? p
    case none => simp [hm, hp]
    case some parameter =>
      simp only [hm, hp, Option.bind_some, Option.some.injEq, Option.elim_some, List.count_cons, beq_iff_eq,
        eq_comm (a := c)]
      omega

def times (trace : List Event) (node : NodeRef) : Nat :=
  ((trace.filterMap Event.entered?).map Visit.ref).count node

-- A walk comes to packages and types once, to types while it is in their packages, to other nodes as often as they
-- belong to something that is there, and everything that a node lists is there as well.
structure Covered (registry : Registry) (trace : List Event) : Prop where
  packages : ∀ id : PackageId, times trace id.ref = ((registry.graph.package? id).any fun p =>
    id ≠ registry.defaultPackage || !p.types.isEmpty || !p.functions.isEmpty).toNat
  types : ∀ id : TypeId, times trace id.ref = (registry.graph.types.contains id).toNat
  places : ∀ id type, registry.graph.type? id = some type →
    ∃ package before within after, registry.graph.package? type.package = some package
      ∧ trace = before ++ Visit.around (.package package) within ++ after
      ∧ .enter (.visit (.type type)) ∈ within ∧ ∀ p, .enter (.visit (.package p)) ∉ within
  properties : ∀ id : PropertyId, times trace id.ref
    = ((registry.graph.property? id).any (registry.graph.types.contains ·.owner)).toNat
  constants : ∀ id : ConstantId, times trace id.ref
    = ((registry.graph.constant? id).any (registry.graph.types.contains ·.owner)).toNat
  callables : ∀ id : CallableId, times trace id.ref = (registry.graph.callable? id).elim 0 fun c =>
    c.package.isSome.toNat + (c.owner.any registry.graph.types.contains).toNat
  parameters : ∀ id : ParameterId, times trace id.ref
    = (registry.graph.parameter? id).elim 0 fun p => times trace p.callable.ref
  visits : ∀ v ∈ trace.filterMap Event.entered?, registry.graph.visit? v.ref = some v
  members : ∀ v ∈ trace.filterMap Event.entered?, ∀ node ∈ v.members, registry.graph.contains node

theorem mem_filterMap_entered? {trace : List Event} {v : Visit} :
    v ∈ trace.filterMap Event.entered? ↔ .enter (.visit v) ∈ trace := by
  rw [List.mem_filterMap]
  constructor
  case mpr => exact fun h => ⟨_, h, rfl⟩
  case mp =>
    rintro ⟨event, he, hv⟩
    cases event
    case leave => simp [Event.entered?] at hv
    case enter call =>
      cases call
      case node  => simp [Event.entered?] at hv
      case visit => exact Option.some.inj hv ▸ he

theorem ref_of_visit? {node : NodeRef} {v : Visit} (h : registry.graph.Ownership) (ha : registry.graph.Arrangement)
    (hv : registry.graph.visit? node = some v) : v.ref = node := by
  obtain ⟨kind, id⟩ := node
  cases kind
  all_goals obtain ⟨n, hn, rfl⟩ := Option.map_eq_some_iff.mp hv
  case package   => exact congrArg NodeId.ref (h.packageIds id n hn)
  case type      => exact congrArg NodeId.ref (h.typeIds id n hn)
  case callable  => exact congrArg NodeId.ref (ha.callableIds id n hn)
  case parameter => exact congrArg NodeId.ref (ha.parameterIds id n hn)
  case property  => exact congrArg NodeId.ref (ha.propertyIds id n hn)
  case constant  => exact congrArg NodeId.ref (ha.constantIds id n hn)

theorem contains_of_mem_members {v : Visit} {node : NodeRef} (h : registry.graph.Ownership)
    (hv : registry.graph.visit? v.ref = some v) (hn : node ∈ v.members) : registry.graph.contains node := by
  have ht {t : TypeId} (ht : ∃ type, registry.graph.type? t = some type) : registry.graph.contains t.ref := by
    obtain ⟨type, ht⟩ := ht
    simp [Graph.contains, Graph.header?, NodeId.ref, ht]
  have hc {c : CallableId} (hc : ∃ callable, registry.graph.callable? c = some callable) :
      registry.graph.contains c.ref := by
    obtain ⟨callable, hc⟩ := hc
    simp [Graph.contains, Graph.header?, NodeId.ref, hc]
  cases v
  case package n =>
    have hp : registry.graph.package? n.id = some n := by simpa [Graph.visit?, Visit.ref, NodeId.ref] using hv
    simp only [Visit.members, List.mem_append, List.mem_map] at hn
    obtain ⟨t, hm, rfl⟩ | ⟨c, hm, rfl⟩ := hn
    case inl => exact ht (h.types.exists_of_mem hp hm)
    case inr => exact hc (h.functions.exists_of_mem hp hm)
  case type n =>
    have hp : registry.graph.type? n.id = some n := by simpa [Graph.visit?, Visit.ref, NodeId.ref] using hv
    simp only [Visit.members, List.mem_append, List.mem_map] at hn
    obtain (⟨c, hm, rfl⟩ | ⟨p, hm, rfl⟩) | ⟨c, hm, rfl⟩ := hn
    case inl.inl =>
      obtain ⟨constant, hk⟩ : ∃ constant, registry.graph.constant? c = some constant := h.constants.exists_of_mem hp hm
      simp [Graph.contains, Graph.header?, NodeId.ref, hk]
    case inl.inr =>
      obtain ⟨property, hk⟩ : ∃ property, registry.graph.property? p = some property := h.properties.exists_of_mem hp hm
      simp [Graph.contains, Graph.header?, NodeId.ref, hk]
    case inr => exact hc (h.methods.exists_of_mem hp hm)
  case callable n =>
    have hp : registry.graph.callable? n.id = some n := by simpa [Graph.visit?, Visit.ref, NodeId.ref] using hv
    obtain ⟨p, hm, rfl⟩ := List.mem_map.mp hn
    obtain ⟨parameter, hk⟩ : ∃ parameter, registry.graph.parameter? p = some parameter :=
      h.parameters.exists_of_mem hp hm
    simp [Graph.contains, Graph.header?, NodeId.ref, hk]
  all_goals simp [Visit.members] at hn

theorem exists_around_of_type {typeId : TypeId} {type : TypeDecl} (h : registry.graph.Ownership)
    (ht : registry.graph.type? typeId = some type) :
    ∃ package before within after, registry.graph.package? type.package = some package
      ∧ (Route.packages registry).events = before ++ Visit.around (.package package) within ++ after
      ∧ .enter (.visit (.type type)) ∈ within ∧ ∀ p, .enter (.visit (.package p)) ∉ within := by
  obtain ⟨package, hp, hi, hm⟩ := exists_package_of_type h ht
  obtain ⟨before, after, hs⟩ := List.append_of_mem hp
  have hk : type ∈ registry.graph.typesOfKind package type.kind := by
    simp only [Graph.typesOfKind, List.mem_filter, List.mem_filterMap, decide_true, and_true]
    exact ⟨typeId, hm, ht⟩
  have ha : type.kind ∈ TypeKind.all := by cases type.kind <;> decide
  obtain ⟨children, hc⟩ : ∃ children, registry.graph.packageTree package = .node (.package package) children :=
    ⟨_, rfl⟩
  have hw := congrArg Tree.visits hc
  rw [Graph.visits_packageTree, Tree.visits, List.cons.injEq] at hw
  refine ⟨package, before.flatMap registry.graph.packageEvents, Tree.eventsAll children,
    after.flatMap registry.graph.packageEvents, hi ▸ package?_of_mem_packages h hp, ?_, ?_, fun p => ?_⟩
  case refine_1 =>
    rw [Route.events, ← packages_eq_packagesByAge, hs, List.flatMap_append, List.flatMap_cons,
      ← Graph.events_packageTree, hc, Tree.events, List.append_assoc]
  all_goals rw [← mem_filterMap_entered?, Tree.filterMap_eventsAll, ← hw.right]
  case refine_2 =>
    simp only [List.mem_append, List.mem_flatMap]
    exact .inl ⟨type.kind, ha, type, hk, by simp [Graph.visits_typeTree]⟩
  case refine_3 => simp [Graph.visits_typeTree, Graph.visits_callableTree]

theorem covered_events (h : registry.graph.Ownership) (ha : registry.graph.Arrangement) :
    registry.Covered (Route.packages registry).events := by
  have hv : (Route.packages registry).events.filterMap Event.entered? = registry.visits := by
    rw [Route.events_eq_eventsAll, Tree.filterMap_eventsAll, Tree.visitsAll_eq_flatMap]
    rfl
  have ht (node : NodeRef) : times (Route.packages registry).events node = _ :=
    hv ▸ (refs_perm h ha).count_eq node
  simp only [List.count_append] at ht
  have hr {v : Visit} (hm : v ∈ registry.visits) : registry.graph.visit? v.ref = some v := by
    obtain ⟨node, hn⟩ := exists_visit?_of_mem_visits hm
    rw [ref_of_visit? h ha hn, hn]
  have hm (id : CallableId) : times (Route.packages registry).events id.ref = registry.attached.count id := by
    simp [ht, NodeId.count_map_ref_of_ne, -List.map_map]
  constructor
  case packages =>
    intro id
    calc times (Route.packages registry).events id.ref
      _ = (registry.packages.map (·.id)).count id := by simp [ht, NodeId.count_map_ref_of_ne, -List.map_map]
      _ = _ := h.packageIds.count_map_filter
      _ = _ := by
        rw [Graph.package?]
        cases hp : registry.graph.packages.get? id
        case none   => rfl
        case some p =>
          have hi : p.id = id := h.packageIds id p hp
          simp [Package.isEmpty, hi, Bool.or_assoc]
  case types =>
    intro id
    calc times (Route.packages registry).events id.ref
      _ = (registry.graph.types.toList.map (·.id)).count id := by
        simp [ht, NodeId.count_map_ref_of_ne, -List.map_map]
      _ = _ := by simpa [Arena.contains] using h.typeIds.count_map_filter (i := id) (q := fun _ => true)
  case properties =>
    intro id
    calc times (Route.packages registry).events id.ref
      _ = (registry.graph.types.toList.flatMap (·.properties)).count id := by
        simp [ht, NodeId.count_map_ref_of_ne, -List.map_map]
      _ = _ := h.properties.count_flatMap
      _ = _ := by simp [Graph.property?, Option.any_bind, Function.comp_def]
  case constants =>
    intro id
    calc times (Route.packages registry).events id.ref
      _ = (registry.graph.types.toList.flatMap (·.constants)).count id := by
        simp [ht, NodeId.count_map_ref_of_ne, -List.map_map]
      _ = _ := h.constants.count_flatMap
      _ = _ := by simp [Graph.constant?, Option.any_bind, Function.comp_def]
  case callables =>
    intro id
    rw [hm, attached, List.count_append, h.methods.count_flatMap, h.functions.count_flatMap, Graph.callable?]
    cases hc : registry.graph.callables.get? id
    case none => rfl
    case some c =>
      -- A package that something belongs to is there.
      have hp : c.package.any registry.graph.packages.contains = c.package.isSome := by
        cases hp : c.package
        case none   => rfl
        case some p =>
          have hi := h.functions.issued (Option.bind_eq_some_iff.mpr ⟨c, hc, hp⟩)
          exact Arena.contains_iff.mpr (h.packagesFull p hi)
      rw [Option.bind_some, Option.bind_some, hp, Option.elim_some, Nat.add_comm]
  case parameters =>
    intro id
    calc times (Route.packages registry).events id.ref
      _ = (registry.attached.flatMap registry.graph.parametersOf).count id := by
        simp [ht, NodeId.count_map_ref_of_ne, -List.map_map]
      _ = _ := count_parametersOf h fun _ => contains_of_mem_attached h
      _ = _ := by simp only [hm]
  case places  => exact fun _ _ => exists_around_of_type h
  case visits  => exact fun v hm => hr (hv ▸ hm)
  case members => exact fun v hm _ => contains_of_mem_members h (hr (hv ▸ hm))

-- Whatever has been done to a registry, a walk covers its graph if the listener always wants to go on.
theorem walks_cover_graph {σ : Type} {registry : Registry} {listener : Listener σ}
    (h : registry.Reachable (fun _ => True)) (hd : ∀ call s, (listener.enter call s).1 = .descend) (s : σ) :
    registry.Covered (registry.walk listener s).trace := by
  have ht : (registry.walk listener s).trace = _ := Listener.trace_follow hd (.packages registry) s
  rw [ht]
  exact covered_events h.graph.ownership h.graph.arrangement

-- A function that is a method as well is visited twice, along with its parameter. The property of a type that is gone
-- is not visited any more.
theorem walks_cover_graph_twice :
    let registry := (ofConfig {}).perform [
      .build .function "app.start", .edit (.newParameter ⟨0⟩ "mode" none), .build (.type .cls) "app.Engine",
      .edit (.attachMethod ⟨0⟩ ⟨0⟩), .build (.type .cls) "app.Bolt", .edit (.newProperty ⟨1⟩ "width" none),
      .edit (.eraseType ⟨1⟩)]
    let listener : Listener Nat := { enter _ count := (.descend, count + 1), leave _ count := count }
    let trace := (registry.walk listener 0).trace
    times trace (⟨0⟩ : CallableId).ref = 2 ∧ times trace (⟨0⟩ : ParameterId).ref = 2
      ∧ registry.graph.properties.contains ⟨0⟩ ∧ times trace (⟨0⟩ : PropertyId).ref = 0 := by
  intro registry listener trace
  have h : registry.Reachable (fun _ => True) := ⟨{}, ofConfig {}, rfl, .perform fun _ _ => trivial⟩
  have hd : ∀ call s, (listener.enter call s).1 = .descend := fun _ _ => rfl
  have hc := walks_cover_graph h hd 0
  have ht : times trace (⟨0⟩ : CallableId).ref = 2 := by
    rw [hc.callables]
    decide +kernel
  refine ⟨ht, ?_, by decide +kernel, ?_⟩
  case refine_1 =>
    obtain ⟨parameter, hp, ho⟩ := Option.map_eq_some_iff.mp
      (show (registry.graph.parameter? ⟨0⟩).map (·.callable) = some ⟨0⟩ by decide +kernel)
    rw [hc.parameters, hp, Option.elim_some, ho, ht]
  case refine_2 =>
    rw [hc.properties]
    decide +kernel

end Registry
end PackageCoupling
