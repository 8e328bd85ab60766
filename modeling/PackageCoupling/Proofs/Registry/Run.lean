import PackageCoupling.Proofs.Graph.Run
import PackageCoupling.Proofs.Registry.Generation
import PackageCoupling.Registry.Build

namespace PackageCoupling.Registry

variable {registry registry' : Registry} {kind : TypeKind} {name : QualifiedName} {gone moved : TypeId → Prop}

-- Nothing in the active generation answers to a name or could be moved so that it does.
structure IsNew (registry : Registry) (kind : TypeKind) (name : QualifiedName) : Prop where
  unknown : registry.active.find? kind name.key name.package registry.config.defaultPackage = none
  unclaimed : name.package ≠ registry.config.defaultPackage →
    ∀ id ∈ registry.active.only? kind name.key registry.config.defaultPackage, ¬ registry.graph.types.contains id

def promote (registry : Registry) (kind : TypeKind) (name : QualifiedName) (id : TypeId) : Registry :=
  { registry with
    graph := (registry.graph.relocate id name.package).2
    active := registry.active.relocate kind name.key id name.package }

inductive Resolved (registry : Registry) (kind : TypeKind) (name : QualifiedName) :
    TypeId × Resolution × Registry → Prop
  | reused {id} (hf : registry.active.find? kind name.key name.package registry.config.defaultPackage = some id) :
    Resolved registry kind name (id, .reused, registry)
  | promoted {id} (hf : registry.active.find? kind name.key name.package registry.config.defaultPackage = none)
    (ho : registry.active.only? kind name.key registry.config.defaultPackage = some id)
    (hp : name.package ≠ registry.config.defaultPackage) (hl : registry.graph.types.contains id) :
    Resolved registry kind name (id, .promoted, registry.promote kind name id)
  | created (hn : registry.IsNew kind name) :
    Resolved registry kind name ((registry.newType kind name).1, .created, (registry.newType kind name).2)

theorem resolve_resolved : Resolved registry kind name (registry.resolve kind name) := by
  rw [resolve]
  cases hi : registry.active.inPackage? kind name.key name.package
  case some id => exact .reused (by simp [Generation.find?, hi])
  case none =>
    simp only
    split
    case isTrue hd =>
      cases hf : registry.active.first? kind name.key
      case some id => exact .reused (by rw [Generation.find?, hi, if_pos hd, hf]; rfl)
      case none =>
        refine .created ⟨?_, fun hp => absurd hd hp⟩
        simp [Generation.find?, hi, hf]
    case isFalse hd =>
      have hf : registry.active.find? kind name.key name.package registry.config.defaultPackage = none := by
        simp [Generation.find?, hi, hd]
      cases ho : registry.active.only? kind name.key registry.config.defaultPackage
      case none => exact .created ⟨hf, fun _ id hid => by simp [ho] at hid⟩
      case some id =>
        have hs := registry.graph.isSome_relocate id name.package
        simp only
        split
        case h_1 hr =>
          refine .created ⟨hf, fun _ id' hid => ?_⟩
          cases ho.symm.trans hid
          simp [← hs, hr]
        case h_2 graph hr =>
          have hp : registry.promote kind name id =
              { registry with graph, active := registry.active.relocate kind name.key id name.package } := by
            rw [promote, hr]
          exact hp ▸ .promoted hf ho hd (by simp [← hs, hr])

theorem Resolved.frame {id : TypeId} {resolution : Resolution}
    (h : Resolved registry kind name (id, resolution, registry')) :
    registry' = { registry with graph := registry'.graph, active := registry'.active } := by
  cases h <;> rfl

theorem Resolved.find? {id : TypeId} {resolution : Resolution}
    (h : Resolved registry kind name (id, resolution, registry')) :
    registry'.active.find? kind name.key name.package registry'.config.defaultPackage = some id := by
  cases h
  case reused hf            => exact hf
  case promoted hf hp ho hl => exact Generation.find?_relocate_self ho
  case created hn           => exact Generation.find?_insert_self hn.unknown

theorem split_key (name : String) : (registry.split name).key = Text.lowercase (registry.split name).localName := by
  rw [split, QualifiedName.split]
  split <;> rfl

-- What the operations on registries can do. Types of which `gone` holds may be erased for no reason, all
-- others only if an interface takes their place. Types of which `moved` holds may move for no reason, all
-- others only from the default package to one that is named.
inductive Transition (gone moved : TypeId → Prop) : Registry → Registry → Prop
  | edit {r : Registry} {graph} (hg : Graph.Transitions gone moved r.graph graph) :
    Transition gone moved r { r with graph }
  | freeze {r : Registry} : Transition gone moved r r.freeze
  | create {r : Registry} {kind name} (hk : name.key = Text.lowercase name.localName) (hn : r.IsNew kind name) :
    Transition gone moved r (r.newType kind name).2
  -- New types are placeholders only where there are two generations.
  | suppose {r : Registry} {kind name} (hk : name.key = Text.lowercase name.localName) (hf : r.isFrozen)
    (hn : r.IsNew kind name) :
    Transition gone moved r { (r.newType kind name).2 with
      placeholders := Distinct.add r.placeholders (r.newType kind name).1 }
  | promote {r : Registry} {kind name id}
    (hf : r.active.find? kind name.key name.package r.config.defaultPackage = none)
    (ho : r.active.only? kind name.key r.config.defaultPackage = some id)
    (hp : name.package ≠ r.config.defaultPackage) (hl : r.graph.types.contains id) :
    Transition gone moved r (r.promote kind name id)
  | declare {r : Registry} (id : TypeId) :
    Transition gone moved r { r with placeholders := Distinct.remove r.placeholders id }
  | reconcile {r : Registry} {package key cls interface count graph₁ erased graph}
    (hi : r.active.find? .interface key package r.config.defaultPackage = some interface)
    (hs : Graph.Edit.substitute cls interface r.graph = .ok count graph₁)
    (he : Graph.Edit.eraseType cls graph₁ = .ok erased graph)
    (hp : Action.placeholder? r key = some cls)
    (hg : ∀ {gone moved}, gone cls → Graph.Transitions gone moved r.graph graph) (hl : ¬ graph.types.contains cls) :
    Transition gone moved r { r with
      graph
      active := r.active.remove .cls key cls
      frozen := r.frozen.remove .cls key cls
      placeholders := Distinct.remove r.placeholders cls }
  | finalize {r : Registry} : Transition gone moved r r.finalize

abbrev Transitions (gone moved : TypeId → Prop) : Registry → Registry → Prop :=
  Relation.ReflTransGen (Transition gone moved)

abbrev Change (gone : TypeId → Prop) : Registry → Registry → Prop :=
  Transition gone fun _ => True

abbrev Changes (gone : TypeId → Prop) : Registry → Registry → Prop :=
  Transitions gone fun _ => True

theorem Transitions.preserve {P : Registry → Prop} (h : Transitions gone moved registry registry')
    (hc : ∀ {r r'}, Transition gone moved r r' → P r → P r') (hr : P registry) : P registry' := by
  induction h
  case refl         => exact hr
  case tail _ hs hi => exact hc hs hi

theorem Resolved.changes {id : TypeId} {resolution : Resolution} (hk : name.key = Text.lowercase name.localName)
    (h : Resolved registry kind name (id, resolution, registry')) : Transitions gone moved registry registry' := by
  cases h
  case reused               => exact .refl
  case promoted hf hp ho hl => exact .single (.promote hf ho hp hl)
  case created hn           => exact .single (.create hk hn)

theorem Resolved.graph_changes {id : TypeId} {resolution : Resolution}
    (hr : Resolved registry kind name (id, resolution, registry')) :
    Graph.Changes (fun _ => False) registry.graph registry'.graph := by
  cases hr
  case reused   => exact .refl
  case promoted => exact Graph.relocate_changes id name.package
  case created  => exact Graph.newType_changes kind name.localName name.package

theorem newType_eq : registry.newType kind name = (registry.graph.types.next, { registry with
    graph := (registry.graph.newType kind name.localName name.package).2
    active := registry.active.insert kind name.key name.package registry.graph.types.next }) := by
  rw [newType, Graph.newType_eq]

theorem isFrozen_freeze : registry.freeze.isFrozen = true := by
  rw [freeze]
  split
  case isTrue h  => exact h
  case isFalse h => rfl

theorem graph_freeze : registry.freeze.graph = registry.graph := by
  rw [freeze]
  split <;> rfl

-- A request freezes the registry. If nothing answers to the name, then it is resolved, and the type may become a
-- placeholder.
theorem seek_resolved (sought : Sought) (name : String) : (registry.seek sought name).2 = registry.freeze
    ∨ ∃ id resolution r placeholders,
      Resolved registry.freeze sought.assumed (registry.freeze.split name) (id, resolution, r)
      ∧ (registry.seek sought name).2 = { r with placeholders } := by
  rw [seek]
  split
  case h_1 => exact .inl rfl
  case h_2 =>
    have hr := @resolve_resolved registry.freeze sought.assumed (registry.freeze.split name)
    generalize registry.freeze.resolve sought.assumed (registry.freeze.split name) = resolved at hr ⊢
    obtain ⟨id, resolution, r⟩ := resolved
    refine .inr ⟨id, resolution, r, ?_⟩
    cases resolution <;> exact ⟨_, hr, rfl⟩

theorem seek_changes (sought : Sought) (name : String) :
    Transitions gone moved registry (registry.seek sought name).2 := by
  refine .head .freeze ?_
  rw [seek]
  split
  case h_1 => exact .refl
  case h_2 =>
    have hr := @resolve_resolved registry.freeze sought.assumed (registry.freeze.split name)
    generalize registry.freeze.resolve sought.assumed (registry.freeze.split name) = resolved at hr ⊢
    cases hr
    case reused               => exact .refl
    case promoted hf ho hp hl => exact .single (.promote hf ho hp hl)
    case created hn           => exact .single (.suppose (split_key name) isFrozen_freeze hn)

namespace Action

theorem after_edit {α : Type} {edit : Graph.Edit α} :
    after (Action.edit edit) registry = { registry with graph := after edit registry.graph } := by
  rw [after, after, Action.edit]
  cases edit registry.graph <;> rfl

theorem requireWritable_apply (declaration : Declaration) (name : String) :
    requireWritable declaration name registry =
      if registry.isFinalized then .error (.finalized declaration name) registry else .ok ⟨⟩ registry := by
  rw [requireWritable, bind_apply, get_apply]
  simp only
  split <;> rfl

theorem after_requireWritable {α : Type} {declaration : Declaration} {name : String} {f : PUnit → Action α}
    {P : Registry → Prop} (hr : P registry) (h : P (after (f ⟨⟩) registry)) :
    P (after (requireWritable declaration name >>= f) registry) := by
  rw [after_bind, requireWritable_apply]
  by_cases hf : registry.isFinalized
  case pos => simpa [hf] using hr
  case neg => simpa [hf] using h

-- What putting an interface in the place of a placeholder comes to.
inductive Reconciled (registry : Registry) (key : String) (interface : TypeId) :
    EStateM.Result Fault Registry PUnit → Prop
  | unneeded (hp : placeholder? registry key = none) : Reconciled registry key interface (.ok ⟨⟩ registry)
  | refused {fault graph} (hg : ∀ {gone moved}, Graph.Transitions gone moved registry.graph graph) :
    Reconciled registry key interface (.error fault { registry with graph })
  | done {cls count graph₁ decl graph} (hp : placeholder? registry key = some cls)
    (hs : Graph.Edit.substitute cls interface registry.graph = .ok count graph₁)
    (he : Graph.Edit.eraseType cls graph₁ = .ok decl graph) :
    Reconciled registry key interface (.ok ⟨⟩ { registry with
      graph
      active := registry.active.remove .cls key cls
      frozen := registry.frozen.remove .cls key cls
      placeholders := Distinct.remove registry.placeholders cls })

theorem reconcile_apply (key : String) (interface : TypeId) :
    reconcile key interface registry = match placeholder? registry key with
      | none     => .ok ⟨⟩ registry
      | some cls => match Graph.Edit.substitute cls interface registry.graph with
        | .error e graph => .error e { registry with graph }
        | .ok _ graph₁   => match Graph.Edit.eraseType cls graph₁ with
          | .error e graph => .error e { registry with graph }
          | .ok _ graph    => .ok ⟨⟩ { registry with
            graph
            active := registry.active.remove .cls key cls
            frozen := registry.frozen.remove .cls key cls
            placeholders := Distinct.remove registry.placeholders cls } := by
  rw [reconcile, bind_apply, get_apply]
  simp only
  cases placeholder? registry key
  case none => rfl
  case some cls =>
    simp only [bind_apply, discard_apply, Action.edit]
    cases Graph.Edit.substitute cls interface registry.graph
    case error => rfl
    case ok count graph₁ =>
      simp only
      cases Graph.Edit.eraseType cls graph₁ <;> rfl

-- The graph that is left when a placeholder has been replaced and erased, or as much of that as has been done.
theorem graph_reconcile {P : Graph → Prop} {key : String} {interface : TypeId} (h : P registry.graph)
    (hs : ∀ cls, P (after (Graph.Edit.substitute cls interface) registry.graph))
    (he : ∀ cls graph, P graph → P (after (Graph.Edit.eraseType cls) graph)) :
    P (after (reconcile key interface) registry).graph := by
  rw [after, reconcile_apply]
  cases placeholder? registry key
  case none => exact h
  case some cls =>
    replace hs := hs cls
    rw [after] at hs
    cases hg : Graph.Edit.substitute cls interface registry.graph <;> simp only [hg] at hs ⊢
    case error => exact hs
    case ok _ graph =>
      replace he := he cls graph hs
      rw [after] at he
      cases hg : Graph.Edit.eraseType cls graph <;> simp only [hg] at he ⊢ <;> exact he

theorem reconcile_reconciled (key : String) (interface : TypeId) :
    Reconciled registry key interface (reconcile key interface registry) := by
  rw [reconcile_apply]
  cases hp : placeholder? registry key
  case none => exact .unneeded hp
  case some cls =>
    have hg {gone moved} : Graph.Transitions gone moved registry.graph
        (after (Graph.Edit.substitute cls interface) registry.graph) :=
      Graph.Edit.substitute_changing cls interface registry.graph
    rw [after] at hg
    cases hs : Graph.Edit.substitute cls interface registry.graph <;> simp only [hs] at hg ⊢
    case error => exact .refused hg
    case ok count graph₁ =>
      have hr := @Graph.Edit.eraseType_erasure graph₁ cls
      cases he : Graph.Edit.eraseType cls graph₁ <;> rw [he] at hr
      case ok => exact .done hp hs he
      case error =>
        cases hr
        case refused hr => exact .refused (hg.trans hr.changes)

theorem reconcile_changes {key package : String} {interface : TypeId}
    (hi : registry.active.find? .interface key package registry.config.defaultPackage = some interface) :
    Transitions gone moved registry (after (reconcile key interface) registry) := by
  have h := @reconcile_reconciled registry key interface
  rw [after]
  generalize reconcile key interface registry = result at h ⊢
  cases h
  case unneeded   => exact .refl
  case refused hg => exact .single (.edit hg)
  case done cls _ graph₁ _ _ hp hs he =>
    have hg {gone moved} : Graph.Transitions gone moved registry.graph graph₁ :=
      (Graph.Edit.substitute_changing cls interface).of_ok hs
    have hr := @Graph.Edit.eraseType_erasure graph₁ cls
    have he' := he
    rw [he] at hr
    cases hr
    case erased graph' hr ht hd hc =>
      have hr {gone moved} (hc' : gone cls) : Graph.Transitions gone moved registry.graph _ :=
        (hg.trans hr.changes).tail (.remove hc' ht hd hc)
      exact .single (.reconcile hi hs he' hp hr Graph.not_contains_removeType)

theorem isFrozen_reconcile (key : String) (interface : TypeId) :
    (after (reconcile key interface) registry).isFrozen = registry.isFrozen := by
  have h := @reconcile_reconciled registry key interface
  rw [after]
  generalize reconcile key interface registry = result at h ⊢
  cases h <;> rfl

def declared (registry : Registry) (kind : TypeKind) (name : QualifiedName) : Registry :=
  let resolved := registry.resolve kind name
  { resolved.2.2 with placeholders := Distinct.remove resolved.2.2.placeholders resolved.1 }

theorem buildType_apply (kind : TypeKind) (name : String) :
    buildType kind name registry =
      if registry.isFinalized then .error (.finalized (.type kind) name) registry
      else
        let id := (registry.resolve kind (registry.split name)).1
        if kind = .interface then
          match reconcile (registry.split name).key id (declared registry kind (registry.split name)) with
          | .ok _ r    => .ok id r
          | .error e r => .error e r
        else .ok id (declared registry kind (registry.split name)) := by
  rw [buildType, bind_apply, requireWritable_apply]
  by_cases hf : registry.isFinalized
  case pos => simp [hf]
  case neg =>
    have hr {r : Registry} {id : TypeId} (x : Action PUnit) : (x >>= fun _ => pure id) r = match x r with
        | .ok _ r    => .ok id r
        | .error e r => .error e r := by
      rw [bind_apply]
      cases x r <;> rfl
    rw [if_neg hf, if_neg hf]
    simp only [bind_apply, get_apply, modifyGet_apply]
    split
    case isTrue  => exact hr _
    case isFalse => rfl

theorem declared_changes (kind : TypeKind) (hk : name.key = Text.lowercase name.localName) :
    Transitions gone moved registry (declared registry kind name) := by
  have hr : Resolved registry kind name (registry.resolve kind name) := resolve_resolved
  exact (hr.changes hk).tail (.declare _)

theorem find?_declared (kind : TypeKind) (name : QualifiedName) :
    (declared registry kind name).active.find? kind name.key name.package
      (declared registry kind name).config.defaultPackage = some (registry.resolve kind name).1 := by
  have hr : Resolved registry kind name (registry.resolve kind name) := resolve_resolved
  exact hr.find?

theorem buildType_ok {kind : TypeKind} {name : String} {id : TypeId}
    (h : buildType kind name registry = .ok id registry') :
    id = (registry.resolve kind (registry.split name)).1
      ∧ (∀ {gone moved}, Transitions gone moved (declared registry kind (registry.split name)) registry')
      ∧ registry'.isFrozen = (declared registry kind (registry.split name)).isFrozen := by
  rw [buildType_apply] at h
  split at h
  case isTrue  => simp at h
  case isFalse =>
    simp only at h
    split at h
    case isFalse =>
      cases h
      exact ⟨rfl, .refl, rfl⟩
    case isTrue hk =>
      subst hk
      have hi := @find?_declared registry .interface (registry.split name)
      have hc {gone moved} := @reconcile_changes _ gone moved _ _ _ hi
      have hf := @isFrozen_reconcile (declared registry .interface (registry.split name)) (registry.split name).key
        (registry.resolve .interface (registry.split name)).1
      rw [after] at hf
      simp only [after] at hc
      split at h <;> cases h
      case h_1 hr =>
        simp only [hr] at hc hf
        exact ⟨rfl, hc, hf⟩

theorem changes_of_buildType {name : String} {id : TypeId} (h : buildType kind name registry = .ok id registry') :
    Transitions gone moved registry registry' :=
  (declared_changes kind (split_key name)).trans (buildType_ok h).right.left

theorem after_buildType {kind : TypeKind} {name : String} {P : Registry → Prop} (hr : P registry)
    (hd : P (declared registry kind (registry.split name)))
    (hc : kind = .interface → P (after (reconcile (registry.split name).key
      (registry.resolve kind (registry.split name)).1) (declared registry kind (registry.split name)))) :
    P (after (buildType kind name) registry) := by
  rw [after, buildType_apply]
  by_cases hf : registry.isFinalized
  case pos => simpa [hf] using hr
  case neg =>
    by_cases hk : kind = .interface
    case neg => simpa [hf, hk] using hd
    case pos =>
      replace hc := hc hk
      rw [after] at hc
      simp only [hf, hk] at hc ⊢
      split at hc
      case h_1 he => simpa [he] using hc
      case h_2 he => simpa [he] using hc

theorem buildType_changes (kind : TypeKind) (name : String) :
    Transitions gone moved registry (after (buildType kind name) registry) := by
  have hd : Transitions gone moved registry (declared registry kind (registry.split name)) :=
    declared_changes kind (split_key name)
  refine after_buildType .refl hd ?_
  rintro rfl
  exact hd.trans (reconcile_changes (find?_declared .interface (registry.split name)))

end Action

theorem Op.transitions {op : Op} (hg : ∀ t, op = .edit (.eraseType t) → gone t)
    (hm : ∀ t p, op = .edit (.relocate t p) → moved t) : Transitions gone moved registry (after op.run registry) := by
  cases op
  case build declaration name =>
    cases declaration <;> rw [Op.run, after_returns]
    case package =>
      refine Action.after_requireWritable .refl ?_
      exact .single (.edit (Graph.ensurePackage_changes name))
    case type kind => exact Action.buildType_changes kind name
    case function =>
      refine Action.after_requireWritable .refl ?_
      exact .single (.edit (Graph.newFunction_changes _ _))
    case method =>
      refine Action.after_requireWritable .refl ?_
      exact .single (.edit (.single (.method name)))
  case seek sought name => exact seek_changes sought name
  case finalize         => exact .single .finalize
  case edit op =>
    rw [Op.run, Action.after_edit]
    refine .single (.edit (Graph.Op.transitions registry.graph ?_ ?_))
    case refine_1 => exact fun t ht => hg t (ht ▸ rfl)
    case refine_2 => exact fun t p ht => hm t p (ht ▸ rfl)

-- Runs of operations, some of which may be refused.
inductive Steps (allowed : Op → Prop) : Registry → Registry → Prop
  | refl {r : Registry} : Steps allowed r r
  | step {r₁ r₂ : Registry} {op : Op} (ha : allowed op) (hs : Steps allowed (after op.run r₁) r₂) : Steps allowed r₁ r₂

def perform (registry : Registry) (ops : List Op) : Registry :=
  ops.foldl (fun r op => after op.run r) registry

def Reachable (allowed : Op → Prop) (registry : Registry) : Prop :=
  ∃ config start, create config = .ok start ∧ Steps allowed start registry

variable {allowed : Op → Prop}

theorem Steps.perform {ops : List Op} (ha : ∀ op ∈ ops, allowed op) :
    Steps allowed registry (registry.perform ops) := by
  induction ops generalizing registry
  case nil => exact .refl
  case cons op ops hi =>
    rw [List.forall_mem_cons] at ha
    exact .step ha.left (hi ha.right)

theorem Steps.transitions (h : Steps allowed registry registry') (hg : ∀ t, allowed (.edit (.eraseType t)) → gone t)
    (hm : ∀ t p, allowed (.edit (.relocate t p)) → moved t) : Transitions gone moved registry registry' := by
  induction h
  case refl         => exact .refl
  case step ha _ hi => exact (Op.transitions (fun t ht => hg t (ht ▸ ha)) fun t p ht => hm t p (ht ▸ ha)).trans hi

theorem Steps.changes (h : Steps allowed registry registry')
    (hg : ∀ t, allowed (.edit (.eraseType t)) → gone t) : Changes gone registry registry' :=
  h.transitions hg fun _ _ _ => trivial

theorem create_eq_ok {config : Config} (h : create config = .ok registry) : registry = ofConfig config := by
  rw [create] at h
  cases hv : config.validate <;> rw [hv] at h <;> cases h
  rfl

theorem Reachable.transitions (h : registry.Reachable allowed) (hg : ∀ t, allowed (.edit (.eraseType t)) → gone t)
    (hm : ∀ t p, allowed (.edit (.relocate t p)) → moved t) :
    ∃ config, Transitions gone moved (ofConfig config) registry := by
  have ⟨config, start, hc, hs⟩ := h
  exact ⟨config, create_eq_ok hc ▸ hs.transitions hg hm⟩

theorem Reachable.changes (h : registry.Reachable allowed) (hg : ∀ t, allowed (.edit (.eraseType t)) → gone t) :
    ∃ config, Changes gone (ofConfig config) registry :=
  h.transitions hg fun _ _ _ => trivial

theorem placeholder?_eq_some {key : String} {cls : TypeId} (h : Action.placeholder? registry key = some cls) :
    cls ∈ registry.placeholders ∧ ∃ e, (e ∈ registry.frozen.named .cls key ∨ e ∈ registry.active.named .cls key)
      ∧ e.package = registry.config.defaultPackage ∧ e.id = cls := by
  obtain ⟨generation, hg, hf⟩ := List.exists_of_findSome?_eq_some h
  simp only [Option.filter_eq_some_iff, decide_eq_true_eq] at hf
  obtain ⟨e, he, hi⟩ := Option.map_eq_some_iff.mp hf.left
  refine ⟨hf.right, e, ?_, by simpa using List.find?_some he, hi⟩
  have hm := List.mem_of_find?_eq_some he
  simp only [List.mem_cons, List.not_mem_nil, or_false] at hg
  cases hg
  case inl hg => exact .inl (hg ▸ hm)
  case inr hg => exact .inr (hg ▸ hm)

-- What a transition does to the graph. Of its own accord a registry only erases placeholders and only moves types of
-- the active generation.
theorem Transition.graph {gone' moved' : TypeId → Prop} (h : Transition gone moved registry registry')
    (hg : ∀ t, gone t → gone' t) (hm : ∀ t, moved t → moved' t) (hp : ∀ t ∈ registry.placeholders, gone' t)
    (ha : ∀ e ∈ registry.active.entries, moved' e.id) :
    Graph.Transitions gone' moved' registry.graph registry'.graph := by
  cases h
  case edit he              => exact he.mono hg hm
  case freeze               => rw [graph_freeze]
  case create               => exact Graph.newType_changes _ _ _
  case suppose              => exact Graph.newType_changes _ _ _
  case promote _ ho _ _     =>
    obtain ⟨e, hn, _, hi⟩ := Generation.only?_eq_some.mp ho
    have he : e ∈ registry.active.entries := (Generation.mem_named.mp (hn ▸ List.mem_singleton_self e)).left
    exact Graph.relocate_transitions (hi ▸ ha e he) _
  case declare              => exact .refl
  case reconcile hq hr _    => exact hr (hp _ (placeholder?_eq_some hq).left)
  case finalize             => exact .refl

theorem Reachable.graph (h : registry.Reachable allowed) : Graph.Changes (fun _ => True) ∅ registry.graph := by
  have ⟨config, hc⟩ : ∃ config, Changes (fun _ => True) (ofConfig config) registry := h.changes fun _ _ => trivial
  have hs : Graph.Changes (fun _ => True) ∅ (ofConfig config).graph := Graph.ensurePackage_changes config.defaultPackage
  refine hc.preserve (P := fun r => Graph.Changes _ ∅ r.graph) (fun hc hi => ?_) hs
  exact hi.trans (hc.graph (fun _ => id) (fun _ => id) (fun _ _ => trivial) fun _ _ => trivial)

end PackageCoupling.Registry
