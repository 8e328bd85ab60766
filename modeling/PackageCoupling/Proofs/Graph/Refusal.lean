import PackageCoupling.Proofs.Graph.Substitute

namespace PackageCoupling

-- The same nodes are there under the same ids. At most ids have been used up.
structure Arena.Same {kind : NodeKind} {α : Type} (arena arena' : Arena kind α) : Prop where
  get? : ∀ id, arena'.get? id = arena.get? id
  issued : arena.next.val ≤ arena'.next.val

namespace Arena.Same

variable {kind : NodeKind} {α : Type} {arena : Arena kind α}

theorem refl : arena.Same arena where
  get? _ := rfl
  issued := Nat.le_refl _

theorem reserve : arena.Same arena.reserve where
  get? _ := get?_reserve
  issued := by simp [Arena.next, Arena.reserve]

end Arena.Same

namespace Graph

variable {graph : Graph}

-- All nodes are the same, and packages go by the same names.
structure SameNodes (graph graph' : Graph) : Prop where
  packages : graph.packages.Same graph'.packages
  types : graph.types.Same graph'.types
  callables : graph.callables.Same graph'.callables
  parameters : graph.parameters.Same graph'.parameters
  properties : graph.properties.Same graph'.properties
  constants : graph.constants.Same graph'.constants
  packageNamed? : ∀ name, graph'.packageNamed? name = graph.packageNamed? name

namespace SameNodes

theorem refl : graph.SameNodes graph :=
  ⟨.refl, .refl, .refl, .refl, .refl, .refl, fun _ => rfl⟩

theorem reserveParameter : graph.SameNodes { graph with parameters := graph.parameters.reserve } :=
  { @refl graph with parameters := .reserve }

theorem reserveProperty : graph.SameNodes { graph with properties := graph.properties.reserve } :=
  { @refl graph with properties := .reserve }

theorem reserveConstant : graph.SameNodes { graph with constants := graph.constants.reserve } :=
  { @refl graph with constants := .reserve }

end SameNodes

theorem contains_typeRef (id : TypeId) : graph.contains id.ref = graph.types.contains id :=
  Option.isSome_map

theorem contains_callableRef (id : CallableId) : graph.contains id.ref = graph.callables.contains id :=
  Option.isSome_map

theorem contains_propertyRef (id : PropertyId) : graph.contains id.ref = graph.properties.contains id :=
  Option.isSome_map

theorem contains_constantRef (id : ConstantId) : graph.contains id.ref = graph.constants.contains id :=
  Option.isSome_map

namespace Edit

variable {α β : Type} {left : Graph → Prop} {nodes : List NodeRef} {node : NodeRef}

-- What an edit comes to that asks for some nodes one after the other. If one of them is not there, the edit is refused
-- and leaves a graph of which `left` holds. If all of them are there, it is not refused.
inductive Verdict (graph : Graph) (left : Graph → Prop) : List NodeRef → EStateM.Result Fault Graph α → Prop
  | done {a graph'} : Verdict graph left [] (.ok a graph')
  | found {node nodes result} (hc : graph.contains node) (h : Verdict graph left nodes result) :
    Verdict graph left (node :: nodes) result
  | refused {node nodes graph'} (hn : ¬ graph.contains node) (hg : left graph') :
    Verdict graph left (node :: nodes) (.error (.unknownNode node) graph')

namespace Verdict

variable {result : EStateM.Result Fault Graph α}

theorem error_iff (h : Verdict graph left nodes result) :
    (∃ fault graph', result = .error fault graph') ↔ ∃ node ∈ nodes, ¬ graph.contains node := by
  induction h
  case done          => simp
  case found hc _ hi => simp [hi, hc]
  case refused hn _  => simp [hn]

theorem of_error {fault : Fault} {graph' : Graph} (h : Verdict graph left nodes result)
    (he : result = .error fault graph') :
    left graph' ∧ ∃ node, nodes.find? (!graph.contains ·) = some node ∧ fault = .unknownNode node := by
  induction h
  case done => cases he
  case found hc _ hi =>
    obtain ⟨hg, node, hf, rfl⟩ := hi he
    exact ⟨hg, node, by simp [hc, hf], rfl⟩
  case refused node _ _ hn hg =>
    cases he
    exact ⟨hg, node, by simp [hn], rfl⟩

theorem ok_of_contains (h : Verdict graph left nodes result) (hc : ∀ node ∈ nodes, graph.contains node) :
    ∃ a graph', result = .ok a graph' := by
  induction h
  case done => exact ⟨_, _, rfl⟩
  case found hi =>
    rw [List.forall_mem_cons] at hc
    exact hi hc.right
  case refused hn _ => exact absurd (hc _ (List.mem_cons_self ..)) hn

theorem returns {f : α → β} {edit : Edit α} (h : Verdict graph left nodes (edit graph)) :
    Verdict graph left nodes ((do return f (← edit) : Edit β) graph) := by
  rw [bind_apply]
  generalize edit graph = result at h ⊢
  induction h
  case done          => exact .done
  case found hc _ hi => exact .found hc hi
  case refused hn hg => exact .refused hn hg

theorem require {find? : Graph → Option α} {f : α → Edit β} (hc : graph.contains node = (find? graph).isSome)
    (hg : left graph) (hf : ∀ a, find? graph = some a → Verdict graph left nodes (f a graph)) :
    Verdict graph left (node :: nodes) ((Edit.require node find? >>= f) graph) := by
  rw [bind_apply, require_apply]
  cases ha : find? graph <;> rw [ha] at hc
  case none   => exact .refused (by simp [hc]) hg
  case some a => exact .found hc (hf a ha)

theorem discard_require {find? : Graph → Option α} {f : PUnit → Edit β}
    (hc : graph.contains node = (find? graph).isSome) (hg : left graph)
    (hf : ∀ a, find? graph = some a → Verdict graph left nodes (f ⟨⟩ graph)) :
    Verdict graph left (node :: nodes) ((discard (Edit.require node find?) >>= f) graph) := by
  rw [bind_apply, discard_apply, require_apply]
  cases ha : find? graph <;> rw [ha] at hc
  case none   => exact .refused (by simp [hc]) hg
  case some a => exact .found hc (hf a ha)

theorem requireTarget {target : Option TypeId} {f : PUnit → Edit β} (hg : left graph)
    (hf : Verdict graph left nodes (f ⟨⟩ graph)) :
    Verdict graph left (target.toList.map NodeId.ref ++ nodes) ((Edit.requireTarget target >>= f) graph) := by
  cases target
  case none      => exact hf
  case some type => exact .discard_require (contains_typeRef type) hg fun _ _ => hf

end Verdict

theorem attachMethod_verdict (hg : left graph) (owner : TypeId) (method : CallableId) :
    Verdict graph left [owner.ref, method.ref] (attachMethod owner method graph) := by
  refine .discard_require (contains_typeRef owner) hg fun _ _ => ?_
  exact .require (contains_callableRef method) hg fun _ _ => .done

theorem newParameter_verdict (callable : CallableId) (name : String) (type : Option TypeId) :
    Verdict graph graph.SameNodes (type.toList.map NodeId.ref ++ [callable.ref])
      (newParameter callable name type graph) := by
  refine .requireTarget .refl ?_
  have hc : graph.contains callable.ref = (graph.callable? callable).isSome := contains_callableRef callable
  rw [bind_apply, get_apply]
  cases ho : graph.callable? callable <;> rw [ho] at hc
  case none   => simpa [ho] using .refused (by simp [hc]) .reserveParameter
  case some _ => simpa [ho] using .found hc .done

theorem newProperty_verdict (owner : TypeId) (name : String) (type : Option TypeId) :
    Verdict graph graph.SameNodes (type.toList.map NodeId.ref ++ [owner.ref]) (newProperty owner name type graph) := by
  refine .requireTarget .refl ?_
  have hc : graph.contains owner.ref = (graph.type? owner).isSome := contains_typeRef owner
  rw [bind_apply, get_apply]
  cases ho : graph.type? owner <;> rw [ho] at hc
  case none   => simpa [ho] using .refused (by simp [hc]) .reserveProperty
  case some _ => simpa [ho] using .found hc .done

theorem newConstant_verdict (owner : TypeId) (name : String) :
    Verdict graph graph.SameNodes [owner.ref] (newConstant owner name graph) := by
  have hc : graph.contains owner.ref = (graph.type? owner).isSome := contains_typeRef owner
  rw [newConstant, bind_apply, get_apply]
  cases ho : graph.type? owner <;> rw [ho] at hc
  case none   => simpa [ho] using .refused (by simp [hc]) .reserveConstant
  case some _ => simpa [ho] using .found hc .done

theorem setConstantTarget_verdict (hg : left graph) (constant : ConstantId) (target : TypeId) :
    Verdict graph left [target.ref, constant.ref] (setConstantTarget constant target graph) := by
  refine .discard_require (contains_typeRef target) hg fun _ _ => ?_
  exact .discard_require (contains_constantRef constant) hg fun _ _ => .done

theorem connect_verdict (hg : left graph) (source target : TypeId) :
    Verdict graph left [target.ref, source.ref] (connect source target graph) := by
  refine .discard_require (contains_typeRef target) hg fun _ _ => ?_
  refine .require (contains_typeRef source) hg fun _ _ => ?_
  split <;> exact .done

theorem disconnect_verdict (hg : left graph) (source target : TypeId) :
    Verdict graph left [target.ref, source.ref] (disconnect source target graph) := by
  refine .discard_require (contains_typeRef target) hg fun _ _ => ?_
  exact .require (contains_typeRef source) hg fun _ _ => .done

theorem addUse_verdict (hg : left graph) (callable : CallableId) (target : TypeId) :
    Verdict graph left [target.ref, callable.ref] (addUse callable target graph) := by
  refine .discard_require (contains_typeRef target) hg fun _ _ => ?_
  refine .require (contains_callableRef callable) hg fun _ _ => ?_
  split <;> exact .done

theorem addException_verdict (hg : left graph) (callable : CallableId) (target : TypeId) :
    Verdict graph left [target.ref, callable.ref] (addException callable target graph) := by
  refine .discard_require (contains_typeRef target) hg fun _ _ => ?_
  refine .require (contains_callableRef callable) hg fun _ _ => ?_
  split <;> exact .done

theorem setReturnType_verdict (hg : left graph) (callable : CallableId) (target : Option TypeId) :
    Verdict graph left (target.toList.map NodeId.ref ++ [callable.ref]) (setReturnType callable target graph) :=
  .requireTarget hg (.discard_require (contains_callableRef callable) hg fun _ _ => .done)

theorem modify_connect_done {f : Graph → Graph} {source target : TypeId} (hs : (f graph).types.contains source)
    (ht : (f graph).types.contains target) :
    Verdict graph left [] ((do modify f; discard (connect source target) : Edit PUnit) graph) := by
  obtain ⟨_, g, he, _⟩ := (connect_leaves hs ht).discard
  change Verdict graph left [] (discard (connect source target) (f graph))
  rw [he]
  exact .done

theorem addInterface_verdict (hg : left graph) (type interface : TypeId) :
    Verdict graph left [interface.ref, type.ref] (addInterface type interface graph) := by
  refine .discard_require (contains_typeRef interface) hg fun _ hi => ?_
  refine .discard_require (contains_typeRef type) hg fun _ ht => ?_
  refine modify_connect_done ?_ ?_
  case refine_1 => simpa [updateType] using Arena.contains_of_get? ht
  case refine_2 => simpa [updateType] using Arena.contains_of_get? hi

theorem setParent_verdict (hg : left graph) (type parent : TypeId) :
    Verdict graph left [parent.ref, type.ref] (setParent type parent graph) := by
  refine .discard_require (contains_typeRef parent) hg fun _ hp => ?_
  refine .require (contains_typeRef type) hg fun decl ht => ?_
  have ht := Arena.contains_of_get? ht
  have hp := Arena.contains_of_get? hp
  refine modify_connect_done ?_ ?_
  all_goals
    cases decl.parent
    case none => simp [updateType, ht, hp]
    case some =>
      simp only
      split <;> simp [updateType, eraseEdge, ht, hp]

-- A loop gets to its end if none of its rounds is refused as long as only dependencies have changed.
theorem forM_of_rewires {ends : List TypeId} {f : TypeId → Edit PUnit}
    (hf : ∀ t ∈ ends, ∀ g, Rewires graph g → ∃ g', f t g = .ok ⟨⟩ g' ∧ Rewires g g') :
    ∃ g', ends.forM f graph = .ok ⟨⟩ g' ∧ Rewires graph g' := by
  induction ends generalizing graph
  case nil => exact ⟨graph, rfl, .refl⟩
  case cons t ends hi =>
    rw [List.forall_mem_cons] at hf
    obtain ⟨g, he, hr⟩ := hf.left graph .refl
    obtain ⟨g', he', hr'⟩ := hi fun u hu g' hg' => hf.right u hu g' (hr.trans hg')
    refine ⟨g', ?_, hr.trans hr'⟩
    change (f t >>= fun _ => ends.forM f) graph = _
    rw [bind_apply, he, ← he']

theorem disconnect_all_ok {ends : List TypeId} {edge : TypeId → TypeId × TypeId}
    (h : ∀ t ∈ ends, graph.types.contains (edge t).1 ∧ graph.types.contains (edge t).2) :
    ∃ graph', (ends.forM fun t => discard (disconnect (edge t).1 (edge t).2)) graph = .ok ⟨⟩ graph'
      ∧ Rewires graph graph' := by
  refine forM_of_rewires fun t ht g hg => ?_
  obtain ⟨_, g', he, hr, _⟩ := (disconnect_leaves (hg.contains (h t ht).left) (hg.contains (h t ht).right)).discard
  exact ⟨g', he, hr⟩

theorem exchange_all_ok {new : TypeId} {ends : List TypeId} {former latter : TypeId → TypeId × TypeId}
    (ho : ∀ t ∈ ends, graph.types.contains (former t).1 ∧ graph.types.contains (former t).2)
    (hn : ∀ t ∈ ends, graph.types.contains (latter t).1 ∧ graph.types.contains (latter t).2) :
    ∃ graph', (ends.forM fun t => do
      discard (disconnect (former t).1 (former t).2)
      if t ≠ new then
        discard (connect (latter t).1 (latter t).2)) graph = .ok ⟨⟩ graph' ∧ Rewires graph graph' := by
  refine forM_of_rewires fun t ht g hg => ?_
  obtain ⟨_, g₁, he, hr, _⟩ := (disconnect_leaves (hg.contains (ho t ht).left) (hg.contains (ho t ht).right)).discard
  simp only [bind_apply, he]
  split
  case isFalse => exact ⟨g₁, rfl, hr⟩
  case isTrue  =>
    have hg := hg.trans hr
    obtain ⟨_, g₂, he₂, hr₂, _⟩ := (connect_leaves (hg.contains (hn t ht).left) (hg.contains (hn t ht).right)).discard
    exact ⟨g₂, he₂, hr.trans hr₂⟩

theorem substitute_verdict (h : graph.Reciprocal) (hg : left graph) (old new : TypeId) :
    Verdict graph left [new.ref, old.ref] (substitute old new graph) := by
  refine .discard_require (contains_typeRef new) hg fun _ hn => ?_
  refine .require (contains_typeRef old) hg fun decl ho => ?_
  have hc {t : TypeId} (ht : graph.types.contains t) : (graph.substitutePlaces old new).types.contains t := by
    rwa [contains_substitutePlaces]
  have ho' := Arena.contains_of_get? ho
  have hn' := Arena.contains_of_get? hn
  obtain ⟨g₁, he₁, hr₁⟩ := @exchange_all_ok (graph.substitutePlaces old new) new decl.dependencies (old, ·) (new, ·)
    (fun t ht => ⟨hc ho', hc (h.dependency_live ho ht)⟩) fun t ht => ⟨hc hn', hc (h.dependency_live ho ht)⟩
  have hc {t : TypeId} (ht : graph.types.contains t) : g₁.types.contains t := hr₁.contains (hc ht)
  obtain ⟨g₂, he₂, _⟩ := @exchange_all_ok g₁ new decl.children (·, old) (·, new)
    (fun t ht => ⟨hc (h.child_live ho ht), hc ho'⟩) fun t ht => ⟨hc (h.child_live ho ht), hc hn'⟩
  simp only at he₁ he₂
  simp only [bind_apply, modifyGet_apply, he₁, he₂]
  exact .done

theorem eraseType_verdict (h : graph.Reciprocal) (hg : left graph) (type : TypeId) :
    Verdict graph left [type.ref] (eraseType type graph) := by
  refine .require (contains_typeRef type) hg fun decl hd => ?_
  have ht := Arena.contains_of_get? hd
  obtain ⟨g₁, h₁, hr₁⟩ := @disconnect_all_ok graph decl.dependencies (fun t => (type, t)) fun t hm =>
    ⟨ht, h.dependency_live hd hm⟩
  obtain ⟨g₂, h₂, hr₂⟩ := @disconnect_all_ok g₁ decl.children (fun t => (t, type)) fun t hm =>
    ⟨hr₁.contains (h.child_live hd hm), hr₁.contains ht⟩
  obtain ⟨d₂, hd₂, _⟩ := (hr₁.trans hr₂).type?_eq hd
  have hq : (g₂.updatePackage decl.package fun p => { p with types := Distinct.remove p.types type }).type? type
      = some d₂ := hd₂
  simp only [bind_apply, h₁, h₂, modify_apply, requireType_apply, hq, pure_apply]
  exact .done

theorem eraseType_of_contains {type : TypeId} (h : graph.Reciprocal) (ht : graph.types.contains type) :
    ∃ decl graph', eraseType type graph = .ok decl graph' := by
  have hv : Verdict graph (fun _ => True) [type.ref] (eraseType type graph) := eraseType_verdict h trivial type
  refine hv.ok_of_contains fun node hm => ?_
  rw [List.mem_singleton.mp hm, contains_typeRef]
  exact ht

end Edit

namespace Op

-- The nodes that an operation cannot do without, in the order in which it asks for them.
def required : Op → List NodeRef
  | ensurePackage _                   => []
  | newType _ _ _                     => []
  | newFunction _ _                   => []
  | newMethod _                       => []
  -- A type that is not there is just not moved.
  | relocate _ _                      => []
  | attachMethod owner method         => [owner.ref, method.ref]
  | newParameter callable _ type      => type.toList.map NodeId.ref ++ [callable.ref]
  | newProperty owner _ type          => type.toList.map NodeId.ref ++ [owner.ref]
  | newConstant owner _               => [owner.ref]
  | setConstantTarget constant target => [target.ref, constant.ref]
  | setTypeModifiers type _           => [type.ref]
  | setCallableModifiers callable _   => [callable.ref]
  | setPropertyModifiers property _   => [property.ref]
  | setLocation node _                => [node]
  | connect source target             => [target.ref, source.ref]
  | disconnect source target          => [target.ref, source.ref]
  | setParent type parent             => [parent.ref, type.ref]
  | addInterface type interface       => [interface.ref, type.ref]
  | addUse callable target            => [target.ref, callable.ref]
  | addException callable target      => [target.ref, callable.ref]
  | setReturnType callable target     => target.toList.map NodeId.ref ++ [callable.ref]
  | substitute old new                => [new.ref, old.ref]
  | eraseType type                    => [type.ref]

theorem verdict (h : graph.Reciprocal) (op : Op) :
    Edit.Verdict graph graph.SameNodes op.required (op.run graph) := by
  cases op
  case attachMethod owner method    => exact (Edit.attachMethod_verdict .refl owner method).returns
  case newParameter callable name type => exact (Edit.newParameter_verdict callable name type).returns
  case newProperty owner name type  => exact (Edit.newProperty_verdict owner name type).returns
  case newConstant owner name       => exact (Edit.newConstant_verdict owner name).returns
  case setConstantTarget constant target => exact (Edit.setConstantTarget_verdict .refl constant target).returns
  case setTypeModifiers type _ =>
    exact .returns (.discard_require (contains_typeRef type) .refl fun _ _ => .done)
  case setCallableModifiers callable _ =>
    exact .returns (.discard_require (contains_callableRef callable) .refl fun _ _ => .done)
  case setPropertyModifiers property _ =>
    exact .returns (.discard_require (contains_propertyRef property) .refl fun _ _ => .done)
  case setLocation                  => exact .returns (.discard_require rfl .refl fun _ _ => .done)
  case connect source target        => exact (Edit.connect_verdict .refl source target).returns
  case disconnect source target     => exact (Edit.disconnect_verdict .refl source target).returns
  case setParent type parent        => exact (Edit.setParent_verdict .refl type parent).returns
  case addInterface type interface  => exact (Edit.addInterface_verdict .refl type interface).returns
  case addUse callable target       => exact (Edit.addUse_verdict .refl callable target).returns
  case addException callable target => exact (Edit.addException_verdict .refl callable target).returns
  case setReturnType callable target => exact (Edit.setReturnType_verdict .refl callable target).returns
  case substitute old new           => exact (Edit.substitute_verdict h .refl old new).returns
  case eraseType type               => exact (Edit.eraseType_verdict h .refl type).returns
  all_goals exact .done

end Op

theorem relocate_of_not_contains {type : TypeId} (h : ¬ graph.types.contains type) (package : String) :
    graph.relocate type package = (none, graph) := by
  have ht : graph.packageOf? type = none := by simpa [packageOf?, Arena.contains, type?] using h
  rw [relocate, ht]

end Graph

-- In every graph that operations can bring about, be it by itself or as the graph of a registry, an operation is
-- refused just if one of the nodes that it is given is not there. Then the fault names the first one of them, and all
-- nodes and the names of packages stay as they are. A type that is not there is not moved, and no package is made for
-- it.
theorem refused_edits_change_nothing {graph : Graph}
    (h : graph.Reachable ∨ ∃ registry : Registry, registry.Reachable (fun _ => True) ∧ registry.graph = graph) :
    (∀ op : Graph.Op, (∃ fault graph', op.run graph = .error fault graph')
      ↔ ∃ node ∈ op.required, ¬ graph.contains node)
    ∧ (∀ (op : Graph.Op) fault graph', op.run graph = .error fault graph' → graph.SameNodes graph'
      ∧ ∃ node, op.required.find? (!graph.contains ·) = some node ∧ fault = .unknownNode node)
    ∧ ∀ type package, ¬ graph.contains (NodeId.ref type) →
      Graph.Op.run (.relocate type package) graph = .ok (.place none) graph := by
  have hr : graph.Reciprocal := by
    cases h
    case inl h => exact h.changes.reciprocal
    case inr h =>
      obtain ⟨registry, hr, rfl⟩ := h
      exact hr.graph.reciprocal
  refine ⟨fun op => (op.verdict hr).error_iff, fun op _ _ he => (op.verdict hr).of_error he, ?unmoved⟩
  case unmoved =>
    intro type package hn
    rw [Graph.contains_typeRef] at hn
    rw [Graph.Op.run, bind_apply, modifyGet_apply, Graph.relocate_of_not_contains hn]
    rfl

-- A property of a type that is there cannot be added to one that has been erased, and uses up an id all the same.
theorem refused_edits_change_nothing_reserved :
    let ops : List Registry.Op := [.build (.type .cls) "Shape", .build (.type .cls) "Circle",
      .edit (.setParent ⟨1⟩ ⟨0⟩), .edit (.eraseType ⟨0⟩)]
    let graph := ((Registry.ofConfig {}).perform ops).graph
    let edit : Graph.Op := .newProperty ⟨0⟩ "area" (some ⟨1⟩)
    (∃ fault graph', edit.run graph = .error fault graph' ∧ graph.SameNodes graph')
    ∧ (after edit.run graph).properties.next ≠ graph.properties.next := by
  intro ops graph edit
  have h : ∃ registry : Registry, registry.Reachable (fun _ => True) ∧ registry.graph = graph :=
    ⟨_, ⟨{}, Registry.ofConfig {}, rfl, .perform fun _ _ => trivial⟩, rfl⟩
  obtain ⟨hi, hs, _⟩ := refused_edits_change_nothing (.inr h)
  obtain ⟨hn, hd⟩ : ¬ graph.contains (⟨.type, ⟨0⟩⟩ : NodeRef)
      ∧ (after edit.run graph).properties.next ≠ graph.properties.next := by
    decide +kernel
  obtain ⟨fault, graph', he⟩ := (hi edit).mpr ⟨_, by simp [edit, Graph.Op.required, NodeId.ref], hn⟩
  exact ⟨⟨fault, graph', he, (hs edit fault graph' he).left⟩, hd⟩

end PackageCoupling
