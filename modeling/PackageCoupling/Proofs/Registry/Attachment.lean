import PackageCoupling.Proofs.Registry.DeclarationOrder
import PackageCoupling.Proofs.Registry.Persistence
import PackageCoupling.Proofs.Walk.Coverage

namespace PackageCoupling

namespace Graph

variable {graph graph' : Graph} {gone moved : TypeId → Prop} {id : CallableId}

-- Functions are in packages, and methods are not.
def Assigned (graph : Graph) : Prop :=
  graph.callables.All fun c => c.package.isSome ↔ c.kind = .function

theorem Assigned.congr (h : graph.Assigned)
    (hc : ∀ id, (graph'.callable? id).map (fun c => (c.kind, c.package))
      = (graph.callable? id).map fun c => (c.kind, c.package)) : graph'.Assigned := by
  intro id c' hi
  have he := hc id
  rw [callable?, hi, Option.map_some] at he
  obtain ⟨c, hi, he⟩ := Option.map_eq_some_iff.mp he.symm
  obtain ⟨hk, hp⟩ := Prod.mk.inj he
  rw [← hk, ← hp]
  exact h id c hi

theorem Transition.assigned (hc : Transition gone moved graph graph') (h : graph.Assigned) : graph'.Assigned := by
  cases hc
  case function  => exact Arena.All.push h (by simp)
  case method    => exact Arena.All.push h (by simp)
  case parameter => exact Arena.All.modify h fun _ _ hc => hc
  case attach    =>
    rw [attach_eq]
    exact Arena.All.modify h fun _ _ hc => hc
  case inherit   =>
    rw [moveMembers_eq]
    exact Arena.All.foldl_modify h fun _ hc => hc
  case revise hf _ _ =>
    exact h.congr fun id => Arena.map_get?_congr (k := Callable.frame) (congrArg (·.callables) hf) fun _ => rfl
  all_goals exact h

theorem Transitions.assigned (h : Transitions gone moved ∅ graph) : graph.Assigned :=
  h.preserve Transition.assigned .empty

def ownerOf? (graph : Graph) (id : CallableId) : Option TypeId :=
  (graph.callable? id).bind (·.owner)

-- The same callables belong to types, if not to the same types.
def OwnsAlike (graph graph' : Graph) : Prop :=
  ∀ id, (graph'.ownerOf? id).isSome = (graph.ownerOf? id).isSome

namespace OwnsAlike

theorem refl : OwnsAlike graph graph :=
  fun _ => rfl

theorem trans {graph'' : Graph} (h : OwnsAlike graph graph') (h' : OwnsAlike graph' graph'') :
    OwnsAlike graph graph'' :=
  fun id => (h' id).trans (h id)

theorem of_callables_eq (h : graph'.callables = graph.callables) : OwnsAlike graph graph' := by
  intro id
  rw [ownerOf?, callable?, h]
  rfl

theorem of_modify {c : CallableId} {f : Callable → Callable} (h : graph'.callables = graph.callables.modify c f)
    (hf : ∀ c, (f c).owner = c.owner) : OwnsAlike graph graph' := by
  intro id
  rw [ownerOf?, callable?, h, Arena.get?_modify_eq_map, ownerOf?, callable?]
  cases graph.callables.get? id
  case none   => rfl
  case some d =>
    simp only [Option.map_some, Option.bind_some]
    split
    case isTrue  => rw [hf]
    case isFalse => rfl

theorem of_push {c : Callable} (h : graph'.callables = graph.callables.push c) (hc : c.owner = none) :
    OwnsAlike graph graph' := by
  intro id
  rw [ownerOf?, callable?, h, Arena.get?_push]
  split
  case isTrue hi => simp [ownerOf?, callable?, hi, Arena.get?_next, hc]
  case isFalse   => rfl

end OwnsAlike

theorem Rewires.ownsAlike (h : Rewires graph graph') : OwnsAlike graph graph' :=
  .of_callables_eq (congrArg (·.callables) h.bare)

theorem callables_newType (kind : TypeKind) (name package : String) :
    (graph.newType kind name package).2.callables = graph.callables := by
  rw [newType_eq]
  exact callables_ensurePackage package

theorem callables_relocate (type : TypeId) (package : String) :
    (graph.relocate type package).2.callables = graph.callables := by
  cases ht : graph.packageOf? type
  case none => rw [relocate, ht]
  case some old =>
    rw [relocate_eq ht]
    split <;> exact callables_ensurePackage package

theorem newFunction_ownsAlike (name package : String) : OwnsAlike graph (graph.newFunction name package).2 :=
  (OwnsAlike.of_callables_eq (callables_ensurePackage package)).trans (.of_push rfl rfl)

namespace Edit

theorem connect_ownsAlike (source target : TypeId) : (discard (connect source target)).Within OwnsAlike :=
  fun g => ((connect_rewires source target).discard g).ownsAlike

theorem newParameter_ownsAlike (callable : CallableId) (name : String) (target : Option TypeId) :
    (newParameter callable name target).Within OwnsAlike := by
  intro g
  refine after_requireTarget .refl fun ht => ?_
  rw [after_bind, get_apply]
  cases hc : g.callable? callable
  case none   => simpa [hc] using .of_callables_eq rfl
  case some c =>
    simp only [hc]
    exact .of_modify (f := fun c => { c with parameters := c.parameters ++ [g.parameters.next] }) rfl fun _ => rfl

theorem newProperty_ownsAlike (owner : TypeId) (name : String) (target : Option TypeId) :
    (newProperty owner name target).Within OwnsAlike := by
  intro g
  refine after_requireTarget .refl fun ht => ?_
  rw [after_bind, get_apply]
  cases ho : g.type? owner <;> simpa [ho] using .of_callables_eq rfl

theorem newConstant_ownsAlike (owner : TypeId) (name : String) : (newConstant owner name).Within OwnsAlike := by
  intro g
  rw [newConstant, after_bind, get_apply]
  cases ho : g.type? owner <;> simpa [ho] using .of_callables_eq rfl

theorem setLocation_ownsAlike (node : NodeRef) (location : Location) :
    (setLocation node location).Within OwnsAlike := by
  intro g
  refine after_discard_require .refl fun _ _ => ?_
  obtain ⟨kind, id⟩ := node
  cases kind
  case callable => exact .of_modify (f := _) rfl fun _ => rfl
  all_goals exact .of_callables_eq rfl

theorem addInterface_ownsAlike (type interface : TypeId) : (addInterface type interface).Within OwnsAlike := by
  intro g
  refine after_discard_require .refl fun _ _ => ?_
  refine after_discard_require .refl fun _ _ => ?_
  exact OwnsAlike.trans (.of_callables_eq rfl) (connect_ownsAlike type interface _)

theorem setParent_ownsAlike (type parent : TypeId) : (setParent type parent).Within OwnsAlike := by
  intro g
  refine after_discard_require .refl fun _ _ => ?_
  refine after_require .refl fun decl _ => ?_
  refine OwnsAlike.trans (.of_callables_eq ?_) (connect_ownsAlike type parent _)
  cases decl.parent
  case none => rfl
  case some =>
    simp only
    split <;> rfl

theorem eraseType_ownsAlike (type : TypeId) : (eraseType type).Within OwnsAlike := by
  intro g
  have he := @eraseType_erasure g type
  rw [after]
  generalize eraseType type g = result at he ⊢
  cases he
  case refused hr      => exact hr.ownsAlike
  case erased hr _ _ _ => exact hr.ownsAlike

-- The methods of a type already belonged to a type before they came to belong to the other one.
theorem substitute_ownsAlike (h : graph.Ownership) (old new : TypeId) :
    OwnsAlike graph (after (substitute old new) graph) := by
  refine after_discard_require (P := OwnsAlike graph) .refl fun _ _ => ?_
  refine after_require .refl fun decl ho => ?_
  have hp : OwnsAlike graph (graph.substitutePlaces old new) := by
    intro id
    simp only [ownerOf?, callable?, substitutePlaces, Arena.get?_map, Option.bind_map]
    rfl
  have hd := exchange_rewires new decl.dependencies (old, ·) (new, ·)
  have hc := exchange_rewires new decl.children (·, old) (·, new)
  refine hd.after_bind (fun _ h => hp.trans h.ownsAlike) fun _ g₁ _ h₁ => ?_
  refine hc.after_bind (fun _ h => hp.trans (h₁.trans h).ownsAlike) fun _ g₂ _ h₂ => ?_
  have hg : OwnsAlike graph g₂ := hp.trans (h₁.trans h₂).ownsAlike
  refine hg.trans fun id => ?_
  have hm : id ∈ decl.methods → (g₂.ownerOf? id).isSome := by
    intro hm
    have ho : graph.ownerOf? id = some old := (h.methods.mem_iff ho).mp hm
    rw [hg id, ho]
    rfl
  change ((g₂.moveMembers decl old new).ownerOf? id).isSome = _
  rw [ownerOf?, callable?_moveMembers]
  rw [ownerOf?] at hm ⊢
  cases hc : g₂.callable? id <;> rw [hc] at hm
  case none   => rfl
  case some c =>
    simp only [Option.map_some, Option.bind_some]
    split
    case isTrue hi => exact (hm hi).symm
    case isFalse   => rfl

theorem isSome_ownerOf?_attachMethod {owner : TypeId} {method : CallableId} :
    ((after (attachMethod owner method) graph).ownerOf? id).isSome
      ↔ (graph.ownerOf? id).isSome ∨ id = method ∧ graph.types.contains owner ∧ graph.callables.contains method := by
  rw [attachMethod, after_bind, discard_apply, requireType_apply]
  cases ho : graph.type? owner
  case none =>
    have hn : graph.types.contains owner = false := by rw [Arena.contains, ← type?, ho]; rfl
    simp [hn]
  case some =>
    simp only [after_bind, requireCallable, require_apply]
    cases hm : graph.callable? method
    case none =>
      have hn : graph.callables.contains method = false := by rw [Arena.contains, ← callable?, hm]; rfl
      simp [hn]
    case some c =>
      have hl : graph.types.contains owner := Arena.contains_of_get? ho
      have hl' : graph.callables.contains method := Arena.contains_of_get? hm
      change ((graph.attach owner method c.owner).ownerOf? id).isSome ↔ _
      rw [attach_eq, ownerOf?, callable?, Arena.get?_modify]
      split
      case isFalse hi => simp [ownerOf?, callable?, Ne.symm hi]
      case isTrue hi  =>
        subst hi
        rw [← callable?, hm]
        simp [hl, hl']

end Edit

theorem Op.ownsAlike {op : Op} (h : graph.Ownership) (ha : ∀ owner method, op ≠ .attachMethod owner method) :
    OwnsAlike graph (after op.run graph) := by
  cases op
  case attachMethod owner method  => exact absurd rfl (ha owner method)
  case ensurePackage name         => exact .of_callables_eq (callables_ensurePackage name)
  case newType kind name package  => exact .of_callables_eq (callables_newType kind name package)
  case newFunction name package   => exact newFunction_ownsAlike name package
  case newMethod name             => exact .of_push rfl rfl
  case relocate type package      => exact .of_callables_eq (callables_relocate type package)
  case newParameter callable name target => exact (Edit.newParameter_ownsAlike callable name target).returns graph
  case newProperty owner name target => exact (Edit.newProperty_ownsAlike owner name target).returns graph
  case newConstant owner name     => exact (Edit.newConstant_ownsAlike owner name).returns graph
  case setLocation node location  => exact (Edit.setLocation_ownsAlike node location).returns graph
  case connect source target      => exact ((Edit.connect_rewires source target).returns graph).ownsAlike
  case disconnect source target   => exact ((Edit.disconnect_rewires source target).returns graph).ownsAlike
  case setParent type parent      => exact (Edit.setParent_ownsAlike type parent).returns graph
  case addInterface type interface => exact (Edit.addInterface_ownsAlike type interface).returns graph
  case eraseType type             => exact (Edit.eraseType_ownsAlike type).returns graph
  all_goals rw [Op.run, after_returns]
  case substitute old new => exact Edit.substitute_ownsAlike h old new
  case setConstantTarget =>
    refine Edit.after_discard_require .refl fun _ _ => Edit.after_discard_require .refl fun _ _ => ?_
    exact .of_callables_eq rfl
  case setTypeModifiers     => exact Edit.after_discard_require .refl fun _ _ => .of_callables_eq rfl
  case setPropertyModifiers => exact Edit.after_discard_require .refl fun _ _ => .of_callables_eq rfl
  case setCallableModifiers => exact Edit.after_discard_require .refl fun _ _ => .of_modify rfl fun _ => rfl
  case setReturnType        =>
    refine Edit.after_requireTarget .refl fun _ => Edit.after_discard_require .refl fun _ _ => ?_
    exact .of_modify rfl fun _ => rfl
  case addUse | addException =>
    refine Edit.after_discard_require .refl fun _ _ => Edit.after_require .refl fun _ _ => ?_
    split
    case isTrue  => exact .refl
    case isFalse => exact .of_modify rfl fun _ => rfl

end Graph

namespace Registry

variable {registry registry' start : Registry} {kind : TypeKind} {id : CallableId} {ops : List Op} {op : Op}

theorem Resolved.callables_eq {name : QualifiedName} {type : TypeId} {resolution : Resolution}
    (hr : Resolved registry kind name (type, resolution, registry')) :
    registry'.graph.callables = registry.graph.callables := by
  cases hr
  case reused   => rfl
  case promoted => exact Graph.callables_relocate type name.package
  case created  => exact Graph.callables_newType kind name.localName name.package

theorem callables_seek (sought : Sought) (name : String) :
    (registry.seek sought name).2.graph.callables = registry.graph.callables := by
  rcases seek_resolved sought name with hs | ⟨_, _, _, _, hr, hs⟩ <;> rw [hs]
  case inl => rw [graph_freeze]
  case inr => exact hr.callables_eq.trans (congrArg (·.callables) graph_freeze)

namespace Action

theorem reconcile_ownsAlike (h : registry.graph.Ownership) (key : String) (interface : TypeId) :
    Graph.OwnsAlike registry.graph (after (reconcile key interface) registry).graph := by
  refine graph_reconcile .refl (fun cls => Graph.Edit.substitute_ownsAlike h cls interface) ?_
  intro cls graph ho
  exact ho.trans (Graph.Edit.eraseType_ownsAlike cls graph)

theorem buildType_ownsAlike (h : registry.graph.Ownership) (kind : TypeKind) (name : String) :
    Graph.OwnsAlike registry.graph (after (buildType kind name) registry).graph := by
  have hr : Resolved registry kind (registry.split name) (registry.resolve kind (registry.split name)) :=
    resolve_resolved
  have hd : Graph.OwnsAlike registry.graph (declared registry kind (registry.split name)).graph :=
    .of_callables_eq hr.callables_eq
  have hw : (declared registry kind (registry.split name)).graph.Ownership :=
    Graph.Transitions.preserve hr.graph_changes Graph.Transition.ownership h
  refine after_buildType (P := fun r => Graph.OwnsAlike registry.graph r.graph) .refl hd fun _ => ?_
  exact hd.trans (reconcile_ownsAlike hw _ _)

end Action

def Op.Attaches (op : Op) (registry : Registry) (id : CallableId) : Prop :=
  ∃ owner, op = .edit (.attachMethod owner id) ∧ registry.graph.types.contains owner
    ∧ registry.graph.callables.contains id

theorem Op.isSome_ownerOf? (h : registry.graph.Ownership) :
    ((after op.run registry).graph.ownerOf? id).isSome
      ↔ (registry.graph.ownerOf? id).isSome ∨ op.Attaches registry id := by
  have hk (ho : Graph.OwnsAlike registry.graph (after op.run registry).graph)
      (hn : ∀ owner, op ≠ .edit (.attachMethod owner id)) : ((after op.run registry).graph.ownerOf? id).isSome
        ↔ (registry.graph.ownerOf? id).isSome ∨ op.Attaches registry id := by
    simp [ho id, Attaches, hn]
  cases op
  case build declaration name =>
    refine hk ?_ (by simp)
    cases declaration <;> rw [Op.run, after_returns]
    case type kind => exact Action.buildType_ownsAlike h kind name
    all_goals refine Action.after_requireWritable (P := fun r => Graph.OwnsAlike registry.graph r.graph) .refl ?_
    case package  => exact .of_callables_eq (Graph.callables_ensurePackage name)
    case function => exact Graph.newFunction_ownsAlike _ _
    case method   => exact .of_push rfl rfl
  case seek sought name => exact hk (.of_callables_eq (callables_seek sought name)) (by simp)
  case finalize         => exact hk .refl (by simp)
  case edit op =>
    have he : (after (Op.edit op).run registry).graph = after op.run registry.graph :=
      congrArg (·.graph) Action.after_edit
    by_cases ha : ∃ owner method, op = .attachMethod owner method
    case neg =>
      refine hk (he ▸ Graph.Op.ownsAlike h fun owner method ho => ha ⟨owner, method, ho⟩) fun owner ho => ?_
      exact ha ⟨owner, id, Op.edit.inj ho⟩
    case pos =>
      obtain ⟨owner, method, rfl⟩ := ha
      rw [he, Graph.Op.run, after_returns, Graph.Edit.isSome_ownerOf?_attachMethod]
      refine or_congr_right ⟨?_, ?_⟩
      case refine_1 =>
        rintro ⟨rfl, hc⟩
        exact ⟨owner, rfl, hc⟩
      case refine_2 =>
        rintro ⟨_, ho, hc⟩
        cases ho
        exact ⟨rfl, hc⟩

def Attached (start : Registry) (ops : List Op) (id : CallableId) : Prop :=
  ∃ before op rest, ops = before ++ op :: rest ∧ op.Attaches (start.perform before) id

theorem Attached.concat_iff :
    Attached start (ops ++ [op]) id ↔ Attached start ops id ∨ op.Attaches (start.perform ops) id :=
  exists_split_concat

-- A graph from which operations may start: an empty one, or that of a new registry.
def IsFresh (start : Registry) : Prop :=
  start.graph = ∅ ∨ ∃ config, create config = .ok start

theorem IsFresh.changes (h : start.IsFresh) : Graph.Changes (fun _ => True) ∅ (start.perform ops).graph := by
  have hs : Graph.Changes (fun _ => True) ∅ start.graph := by
    rcases h with h | ⟨config, hc⟩
    case inl => rw [h]
    case inr => exact create_eq_ok hc ▸ Graph.ensurePackage_changes config.defaultPackage
  have ho : Steps (fun _ => True) start (start.perform ops) := .perform fun _ _ => trivial
  have hc : Changes (fun _ => True) start (start.perform ops) := ho.changes fun _ _ => trivial
  refine hc.preserve (P := fun r => Graph.Changes _ ∅ r.graph) (fun hc hi => ?_) hs
  exact hi.trans (hc.graph (fun _ => id) (fun _ => id) (fun _ _ => trivial) fun _ _ => trivial)

theorem IsFresh.callables_eq (h : start.IsFresh) : start.graph.callables = ∅ := by
  rcases h with h | ⟨config, hc⟩
  case inl => rw [h]; rfl
  case inr => exact create_eq_ok hc ▸ @Graph.callables_ensurePackage ∅ config.defaultPackage

theorem IsFresh.isSome_ownerOf? (h : start.IsFresh) :
    ((start.perform ops).graph.ownerOf? id).isSome ↔ Attached start ops id := by
  induction ops using List.reverseRecOn
  case nil =>
    have hn : start.graph.callable? id = none := by rw [Graph.callable?, h.callables_eq, Arena.get?_empty]
    simp [perform, Graph.ownerOf?, hn, Attached]
  case append_singleton ops op hi =>
    rw [perform_concat, Op.isSome_ownerOf? h.changes.ownership, hi, Attached.concat_iff]

-- Methods belong to no package and to one type at most, functions belong to one package, and whatever has been attached
-- to a type belongs to that as well. So a callable has two owners just if it is a function that has been attached
-- to a type. If a walk goes everywhere, then it comes to a callable once for each owner that is there.
theorem callables_have_one_owner_unless_attached {callable : Callable} (hs : start.IsFresh)
    (hc : (start.perform ops).graph.callable? id = some callable) :
    let registry := start.perform ops
    (∀ t type, registry.graph.type? t = some type → (id ∈ type.methods ↔ callable.owner = some t))
    ∧ (∀ p package, registry.graph.package? p = some package → (id ∈ package.functions ↔ callable.package = some p))
    ∧ (callable.kind = .method → callable.package = none)
    ∧ (callable.kind = .function → ∃ p, callable.package = some p ∧ registry.graph.packages.contains p)
    ∧ (callable.owner.isSome ↔ Attached start ops id)
    ∧ (callable.owner.isSome ∧ callable.package.isSome ↔ callable.kind = .function ∧ Attached start ops id)
    ∧ ∀ {σ : Type} (listener : Listener σ) (s : σ), (∀ call s, (listener.enter call s).1 = .descend) →
      times (registry.walk listener s).trace id.ref
        = (decide (callable.kind = .function)).toNat + (callable.owner.any registry.graph.types.contains).toNat := by
  intro registry
  have hg : Graph.Changes (fun _ => True) ∅ registry.graph := hs.changes
  have hw : registry.graph.Ownership := hg.ownership
  have hc' : registry.graph.callables.get? id = some callable := hc
  have hk : callable.package.isSome ↔ callable.kind = .function := hg.assigned id callable hc
  have ha : callable.owner.isSome ↔ Attached start ops id := by
    have ho : registry.graph.ownerOf? id = callable.owner := by rw [Graph.ownerOf?, hc, Option.bind_some]
    rw [← ho]
    exact hs.isSome_ownerOf?
  refine ⟨fun t type ht => ?types, fun p package hp => ?packages, ?method, ?function, ha, ?both, ?visits⟩
  case types    => rw [hw.methods.mem_iff ht, hc', Option.bind_some]
  case packages => rw [hw.functions.mem_iff hp, hc', Option.bind_some]
  case method =>
    intro hm
    rw [hm] at hk
    simpa using hk
  case function =>
    intro hf
    obtain ⟨p, hp⟩ := Option.isSome_iff_exists.mp (hk.mpr hf)
    have hi : p.val < registry.graph.packages.next.val := hw.functions.issued (by rw [hc', Option.bind_some, hp])
    exact ⟨p, hp, Arena.contains_iff.mpr (hw.packagesFull p hi)⟩
  case both => rw [ha, hk, and_comm]
  case visits =>
    intro σ listener s hd
    have ht : (registry.walk listener s).trace = (Route.packages registry).events :=
      Listener.trace_follow hd (.packages registry) s
    have hv := (covered_events hw hg.arrangement).callables id
    rw [hc, Option.elim_some] at hv
    rw [ht, hv, Bool.eq_iff_iff.mpr (hk.trans decide_eq_true_iff.symm)]

-- A function is attached to one type and then to another one.
theorem callables_have_one_owner_unless_attached_moved :
    let ops : List Op := [.build .function "app.start", .build (.type .cls) "app.Engine",
      .build (.type .cls) "lib.Bolt", .edit (.attachMethod ⟨0⟩ ⟨0⟩), .edit (.attachMethod ⟨1⟩ ⟨0⟩)]
    let registry := (ofConfig {}).perform ops
    let listener : Listener Nat := { enter _ count := (.descend, count + 1), leave _ count := count }
    ∃ function, registry.graph.callable? ⟨0⟩ = some function ∧ function.owner = some ⟨1⟩
      ∧ (∀ type, registry.graph.type? ⟨0⟩ = some type → ⟨0⟩ ∉ type.methods)
      ∧ (∃ p, function.package = some p ∧ registry.graph.packages.contains p) ∧ Attached (ofConfig {}) ops ⟨0⟩
      ∧ times (registry.walk listener 0).trace (⟨0⟩ : CallableId).ref = 2 := by
  intro ops registry listener
  have hl : registry.graph.types.contains ⟨1⟩ := by decide +kernel
  obtain ⟨function, hf, he⟩ := Option.map_eq_some_iff.mp
    (show (registry.graph.callable? ⟨0⟩).map (fun c => (c.kind, c.owner)) = some (.function, some ⟨1⟩) by
      decide +kernel)
  obtain ⟨hk, ho⟩ := Prod.mk.inj he
  obtain ⟨hm, -, -, hp, ha, -, hv⟩ := callables_have_one_owner_unless_attached (.inr ⟨{}, rfl⟩) hf
  refine ⟨function, hf, ho, fun type ht => ?_, hp hk, ha.mp (by rw [ho]; rfl), ?_⟩
  case refine_1 => simp [hm _ type ht, ho]
  case refine_2 => rw [hv listener 0 fun _ _ => rfl, hk, ho, Option.any_some, hl]; rfl

-- Nothing keeps functions from being attached to types, and then they have two owners.
theorem attached_function_has_two_owners :
    ¬ ∀ (start : Registry) ops id callable, start.IsFresh → (start.perform ops).graph.callable? id = some callable →
      ¬ (callable.owner.isSome ∧ callable.package.isSome) := by
  intro h
  let ops : List Op := [.build (.type .cls) "p.A", .build .function "q.f", .edit (.attachMethod ⟨0⟩ ⟨0⟩)]
  obtain ⟨function, hf, he⟩ := Option.map_eq_some_iff.mp
    (show (((ofConfig {}).perform ops).graph.callable? ⟨0⟩).map (fun c => (c.owner, c.package))
      = some (some ⟨0⟩, some ⟨2⟩) by decide +kernel)
  obtain ⟨ho, hp⟩ := Prod.mk.inj he
  exact h (ofConfig {}) ops ⟨0⟩ function (.inr ⟨{}, rfl⟩) hf (by simp [ho, hp])

end Registry
end PackageCoupling
