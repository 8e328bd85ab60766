import PackageCoupling.Proofs.Census
import PackageCoupling.Proofs.Graph.Mentions

namespace PackageCoupling

def Arena.Positioned (callables : Arena .callable Callable) (parameters : Arena .parameter Parameter) : Prop :=
  ∀ id callable i p, callables.get? id = some callable → callable.parameters[i]? = some p →
    (parameters.get? p).map (·.position) = some i

namespace Arena.Positioned

variable {callables callables' : Arena .callable Callable} {parameters parameters' : Arena .parameter Parameter}

theorem congr (h : callables.Positioned parameters)
    (hc : ∀ id, (callables'.get? id).map (·.parameters) = (callables.get? id).map (·.parameters))
    (hp : ∀ id, (parameters'.get? id).map (·.position) = (parameters.get? id).map (·.position)) :
    callables'.Positioned parameters' := by
  intro id callable' i p hi hl
  have hi' := hc id
  rw [hi] at hi'
  have ⟨callable, hi, he⟩ := Option.map_eq_some_iff.mp hi'.symm
  rw [hp]
  exact h id callable i p hi (he ▸ hl)

theorem push {callable : Callable} (h : callables.Positioned parameters) (hp : callable.parameters = []) :
    (callables.push callable).Positioned parameters := by
  intro id callable' i p hi hl
  rw [get?_push] at hi
  split at hi
  case isTrue =>
    obtain rfl := Option.some.inj hi
    simp [hp] at hl
  case isFalse => exact h id callable' i p hi hl

theorem push_parameter {id : CallableId} {callable : Callable} {parameter : Parameter}
    (h : callables.Positioned parameters) (hc : callables.get? id = some callable)
    (hp : parameter.position = callable.parameters.length) :
    (callables.modify id fun c => { c with parameters := c.parameters ++ [parameters.next] }).Positioned
      (parameters.push parameter) := by
  intro id' callable' i p hi hl
  have ho {c : Callable} (hi : callables.get? id' = some c) (hl : c.parameters[i]? = some p) :
      ((parameters.push parameter).get? p).map (·.position) = some i := by
    have hg := h id' c i p hi hl
    have hn : p ≠ parameters.next := by
      rintro rfl
      simp [get?_next] at hg
    rw [get?_push, if_neg hn, hg]
  rw [get?_modify] at hi
  split at hi
  case isFalse => exact ho hi hl
  case isTrue he =>
    subst he
    rw [hc] at hi
    obtain rfl := Option.some.inj hi
    rw [List.getElem?_append] at hl
    split at hl
    case isTrue => exact ho hc hl
    case isFalse hle =>
      obtain ⟨hz, rfl⟩ : i - callable.parameters.length = 0 ∧ parameters.next = p := by
        simpa [List.getElem?_singleton] using hl
      have : callable.parameters.length = i := by omega
      simp [get?_push, hp, this]

end Arena.Positioned

namespace Graph

-- Members are under the ids that they hold, callables never go, and parameters stand where they say.
structure Arrangement (graph : Graph) : Prop where
  callableIds : graph.callables.Labelled (·.id)
  parameterIds : graph.parameters.Labelled (·.id)
  propertyIds : graph.properties.Labelled (·.id)
  constantIds : graph.constants.Labelled (·.id)
  callablesFull : graph.callables.Full
  positions : graph.callables.Positioned graph.parameters

variable {graph graph' : Graph} {gone moved : TypeId → Prop}

namespace Arrangement

theorem empty : (∅ : Graph).Arrangement where
  callableIds   := .empty
  parameterIds  := .empty
  propertyIds   := .empty
  constantIds   := .empty
  callablesFull := fun i hi => absurd hi (by simp [EmptyCollection.emptyCollection, Arena.next])
  positions     := fun _ _ _ _ hi _ => by simp [EmptyCollection.emptyCollection, Arena.get?] at hi

theorem congr (h : graph.Arrangement)
    (hc : ∀ id, (graph'.callable? id).map (fun c => (c.id, c.parameters))
      = (graph.callable? id).map fun c => (c.id, c.parameters))
    (hp : ∀ id, (graph'.parameter? id).map (fun p => (p.id, p.position))
      = (graph.parameter? id).map fun p => (p.id, p.position))
    (ho : ∀ id, (graph'.property? id).map (·.id) = (graph.property? id).map (·.id))
    (hk : ∀ id, (graph'.constant? id).map (·.id) = (graph.constant? id).map (·.id))
    (hn : graph'.callables.next = graph.callables.next) : graph'.Arrangement := by
  have hf {α β γ : Type} {o o' : Option α} {f : α → β} (g : β → γ) (he : o'.map f = o.map f) :
      o'.map (fun a => g (f a)) = o.map fun a => g (f a) := by
    have := congrArg (Option.map g) he
    simpa [Function.comp_def] using this
  exact {
    callableIds   := h.callableIds.congr fun id => hf (·.1) (hc id)
    parameterIds  := h.parameterIds.congr fun id => hf (·.1) (hp id)
    propertyIds   := h.propertyIds.congr ho
    constantIds   := h.constantIds.congr hk
    callablesFull := h.callablesFull.congr hn fun id => by
      have := congrArg Option.isSome (hc id)
      simpa [Arena.contains, callable?] using this
    positions     := h.positions.congr (fun id => hf (·.2) (hc id)) fun id => hf (·.2) (hp id) }

end Arrangement

theorem Transition.arrangement (hc : Transition gone moved graph graph') (h : graph.Arrangement) :
    graph'.Arrangement := by
  cases hc
  case function =>
    exact { h with
      callableIds   := h.callableIds.push rfl
      callablesFull := h.callablesFull.push
      positions     := h.positions.push rfl }
  case method =>
    exact { h with
      callableIds   := h.callableIds.push rfl
      callablesFull := h.callablesFull.push
      positions     := h.positions.push rfl }
  case attach =>
    rw [attach_eq]
    refine h.congr (fun _ => ?_) (fun _ => rfl) (fun _ => rfl) (fun _ => rfl) Arena.next_modify
    exact Arena.map_get?_modify fun _ => rfl
  case parameter hc _ =>
    exact { h with
      callableIds   := h.callableIds.modify fun _ => rfl
      parameterIds  := h.parameterIds.push rfl
      callablesFull := h.callablesFull.modify
      positions     := h.positions.push_parameter hc rfl }
  case property      => exact { h with propertyIds := h.propertyIds.push rfl }
  case constant      => exact { h with constantIds := h.constantIds.push rfl }
  case skipParameter => exact { h with
    parameterIds := h.parameterIds.reserve
    positions    := h.positions.congr (fun _ => rfl) (by simp) }
  case skipProperty  => exact { h with propertyIds := h.propertyIds.reserve }
  case skipConstant  => exact { h with constantIds := h.constantIds.reserve }
  case revise hf _ _ =>
    refine h.congr (fun _ => ?_) (fun _ => ?_) (fun _ => ?_) (fun _ => ?_) ?_
    case refine_1 => exact Arena.map_get?_congr (congrArg Graph.callables hf) fun _ => rfl
    case refine_2 => exact Arena.map_get?_congr (congrArg Graph.parameters hf) fun _ => rfl
    case refine_3 => exact Arena.map_get?_congr (congrArg Graph.properties hf) fun _ => rfl
    case refine_4 => exact Arena.map_get?_congr (congrArg Graph.constants hf) fun _ => rfl
    case refine_5 => simpa [frame] using congrArg (·.callables.next) hf
  case inherit =>
    have hm {α β : Type} {o : Option α} {P : Prop} [Decidable P] {f : α → α} {g : α → β} (hg : ∀ a, g (f a) = g a) :
        (o.map fun a => if P then f a else a).map g = o.map g := by
      by_cases hp : P <;> simp [hp, Function.comp_def, hg]
    refine h.congr (fun _ => ?_) (fun _ => by simp [parameter?, moveMembers_eq]) (fun _ => ?_) (fun _ => ?_)
      (by simp [moveMembers_eq])
    case refine_1 =>
      rw [callable?_moveMembers]
      exact hm fun _ => rfl
    case refine_2 =>
      rw [property?_moveMembers]
      exact hm fun _ => rfl
    case refine_3 =>
      rw [constant?_moveMembers]
      exact hm fun _ => rfl
  all_goals exact { h with }

theorem Transitions.arrangement (h : Transitions gone moved ∅ graph) : graph.Arrangement :=
  h.preserve Transition.arrangement .empty

-- Nodes list what says that it belongs to them, without repetitions, and parameters in their order. What a node belongs
-- to is there, except for types that are gone. Packages are found by their names, which they share with no other.
structure Consistent (graph : Graph) : Prop where
  mem_types : ∀ {p package}, graph.package? p = some package →
    ∀ t, t ∈ package.types ↔ ∃ type, graph.type? t = some type ∧ type.package = p
  mem_functions : ∀ {p package}, graph.package? p = some package →
    ∀ c, c ∈ package.functions ↔ ∃ callable, graph.callable? c = some callable ∧ callable.package = some p
  mem_methods : ∀ {t type}, graph.type? t = some type →
    ∀ c, c ∈ type.methods ↔ ∃ callable, graph.callable? c = some callable ∧ callable.owner = some t
  mem_properties : ∀ {t type}, graph.type? t = some type →
    ∀ p, p ∈ type.properties ↔ ∃ property, graph.property? p = some property ∧ property.owner = t
  mem_constants : ∀ {t type}, graph.type? t = some type →
    ∀ c, c ∈ type.constants ↔ ∃ constant, graph.constant? c = some constant ∧ constant.owner = t
  parameter_at : ∀ {c callable}, graph.callable? c = some callable → ∀ i p, callable.parameters[i]? = some p
    ↔ ∃ parameter, graph.parameter? p = some parameter ∧ parameter.callable = c ∧ parameter.position = i
  package_of_type : ∀ {t type}, graph.type? t = some type → graph.packages.contains type.package
  package_of_function : ∀ {c callable p}, graph.callable? c = some callable → callable.package = some p →
    graph.packages.contains p
  callable_of_parameter : ∀ {p parameter}, graph.parameter? p = some parameter →
    graph.callables.contains parameter.callable
  nodup_package : ∀ {p package}, graph.package? p = some package → package.types.Nodup ∧ package.functions.Nodup
  nodup_type : ∀ {t type}, graph.type? t = some type →
    type.methods.Nodup ∧ type.properties.Nodup ∧ type.constants.Nodup ∧ type.interfaces.Nodup
  nodup_callable : ∀ {c callable}, graph.callable? c = some callable →
    callable.parameters.Nodup ∧ callable.dependencies.Nodup ∧ callable.exceptions.Nodup
  packageNamed?_iff : ∀ {name p}, (graph.packageNamed? name).map (·.id) = some p
    ↔ ∃ package, graph.package? p = some package ∧ package.header.name = name
  name_inj : ∀ {p p' package package'}, graph.package? p = some package → graph.package? p' = some package' →
    package.header.name = package'.header.name → p = p'

theorem Ownership.parameter_at {c : CallableId} {callable : Callable} {i : Nat} {p : ParameterId} (h : graph.Ownership)
    (ha : graph.Arrangement) (hc : graph.callable? c = some callable) :
    callable.parameters[i]? = some p
      ↔ ∃ parameter, graph.parameter? p = some parameter ∧ parameter.callable = c ∧ parameter.position = i := by
  have hm : p ∈ callable.parameters ↔ _ := h.parameters.mem_iff hc
  simp only [Option.bind_eq_some_iff, Option.some.injEq] at hm
  constructor
  case mp =>
    intro hp
    obtain ⟨parameter, hg, ho⟩ := hm.mp (List.mem_of_getElem? hp)
    have hi := ha.positions c callable i p hc hp
    rw [hg] at hi
    exact ⟨parameter, hg, ho, Option.some.inj hi⟩
  case mpr =>
    rintro ⟨parameter, hg, ho, rfl⟩
    obtain ⟨j, hj⟩ := List.mem_iff_getElem?.mp (hm.mpr ⟨parameter, hg, ho⟩)
    have hi := ha.positions c callable j p hc hj
    rw [parameter?] at hg
    rw [hg] at hi
    have hi : parameter.position = j := Option.some.inj hi
    rw [hi, hj]

theorem Ownership.packageNamed?_iff {name : String} {p : PackageId} (h : graph.Ownership) :
    (graph.packageNamed? name).map (·.id) = some p
      ↔ ∃ package, graph.package? p = some package ∧ package.header.name = name := by
  constructor
  case mp =>
    intro hn
    obtain ⟨package, hf, rfl⟩ := Option.map_eq_some_iff.mp hn
    obtain ⟨i, hi, hp⟩ := Option.bind_eq_some_iff.mp hf
    obtain ⟨found, hg, hn⟩ := h.packageIndex.exists_get? hi
    cases hp.symm.trans hg
    have hd : package.id = i := h.packageIds i package hp
    exact ⟨package, hd ▸ hp, hn⟩
  case mpr =>
    rintro ⟨package, hp, rfl⟩
    have hd : package.id = p := h.packageIds p package hp
    rw [packageNamed?, h.packageIndex.lookup_eq hp, Option.bind_some, hp, Option.map_some, hd]

theorem Transitions.consistent (h : Transitions gone moved ∅ graph) : graph.Consistent := by
  have ho := h.ownership
  have ha := h.arrangement
  have hm := h.mentionsOnce
  have hp {id : PackageId} (hi : id.val < graph.packages.next.val) : graph.packages.contains id :=
    Arena.contains_iff.mpr (ho.packagesFull id hi)
  constructor
  case mem_types =>
    intro p package hp t
    simpa [type?, Option.bind_eq_some_iff] using ho.types.mem_iff hp
  case mem_functions =>
    intro p package hp c
    simpa [callable?, Option.bind_eq_some_iff] using ho.functions.mem_iff hp
  case mem_methods =>
    intro t type ht c
    simpa [callable?, Option.bind_eq_some_iff] using ho.methods.mem_iff ht
  case mem_properties =>
    intro t type ht p
    simpa [property?, Option.bind_eq_some_iff] using ho.properties.mem_iff ht
  case mem_constants =>
    intro t type ht c
    simpa [constant?, Option.bind_eq_some_iff] using ho.constants.mem_iff ht
  case parameter_at      => exact fun hc _ _ => ho.parameter_at ha hc
  case packageNamed?_iff => exact ho.packageNamed?_iff
  case name_inj          => exact ho.eq_of_name_eq
  case package_of_type =>
    intro t type ht
    exact hp (ho.types.issued (Option.bind_eq_some_iff.mpr ⟨type, ht, rfl⟩))
  case package_of_function =>
    intro c callable p hc hi
    exact hp (ho.functions.issued (Option.bind_eq_some_iff.mpr ⟨callable, hc, hi⟩))
  case callable_of_parameter =>
    intro p parameter hp
    have hi := ho.parameters.issued (Option.bind_eq_some_iff.mpr ⟨parameter, hp, rfl⟩)
    exact Arena.contains_iff.mpr (ha.callablesFull _ hi)
  case nodup_package => exact fun hp => ⟨ho.types.nodup hp, ho.functions.nodup hp⟩
  case nodup_type =>
    intro t type ht
    exact ⟨ho.methods.nodup ht, ho.properties.nodup ht, ho.constants.nodup ht, hm.interfaces t type ht⟩
  case nodup_callable =>
    intro c callable hc
    exact ⟨ho.parameters.nodup hc, hm.uses c callable hc, hm.exceptions c callable hc⟩

end Graph

-- Both ends agree in every graph that operations can bring about, be it by itself or as the graph of a registry.
theorem members_noted_at_both_ends {graph : Graph}
    (h : graph.Reachable ∨ ∃ registry : Registry, registry.Reachable (fun _ => True) ∧ registry.graph = graph) :
    graph.Consistent := by
  cases h
  case inl h => exact h.changes.consistent
  case inr h =>
    obtain ⟨registry, hr, rfl⟩ := h
    exact hr.graph.consistent

-- A method goes along when an interface takes the place of the class that it was attached to. An id is used up by a
-- parameter of a callable that is not there, but no position.
theorem members_noted_at_both_ends_inherited :
    let ops : List Registry.Op := [
      .seek .classOrInterface "Shape", .build .method "draw", .edit (.attachMethod ⟨0⟩ ⟨0⟩),
      .edit (.newParameter ⟨0⟩ "canvas" none), .edit (.newParameter ⟨7⟩ "brush" none),
      .edit (.newParameter ⟨0⟩ "scale" none), .build (.type .interface) "Shape"]
    let graph := ((Registry.ofConfig {}).perform ops).graph
    ∃ type callable, graph.type? ⟨1⟩ = some type ∧ graph.callable? ⟨0⟩ = some callable ∧ ⟨0⟩ ∈ type.methods
      ∧ callable.parameters[1]? = some ⟨2⟩ := by
  intro ops graph
  have h : ((Registry.ofConfig {}).perform ops).Reachable (fun _ => True) :=
    ⟨{}, Registry.ofConfig {}, rfl, .perform fun _ _ => trivial⟩
  have hg := members_noted_at_both_ends (.inr ⟨_, h, rfl⟩)
  obtain ⟨ht, hc, hp⟩ : (graph.type? ⟨1⟩).isSome ∧ (graph.callable? ⟨0⟩).map (·.owner) = some (some ⟨1⟩)
      ∧ (graph.parameter? ⟨2⟩).map (fun p => (p.callable, p.position)) = some (⟨0⟩, 1) := by
    decide +kernel
  obtain ⟨type, ht⟩ := Option.isSome_iff_exists.mp ht
  obtain ⟨callable, hc, ho⟩ := Option.map_eq_some_iff.mp hc
  obtain ⟨parameter, hp, he⟩ := Option.map_eq_some_iff.mp hp
  refine ⟨type, callable, ht, hc, (hg.mem_methods ht ⟨0⟩).mpr ⟨callable, hc, ho⟩, ?_⟩
  exact (hg.parameter_at hc 1 ⟨2⟩).mpr ⟨parameter, hp, Prod.mk.inj he⟩

end PackageCoupling
