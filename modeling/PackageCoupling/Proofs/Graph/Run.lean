import PackageCoupling.Proofs.Distinct
import PackageCoupling.Proofs.Graph.Change

namespace PackageCoupling

section Actions

variable {ε σ α β : Type} {s : σ}

theorem bind_apply (x : EStateM ε σ α) (f : α → EStateM ε σ β) :
    (x >>= f) s = match x s with
      | .ok a s    => f a s
      | .error e s => .error e s :=
  rfl

theorem pure_apply (a : α) : (pure a : EStateM ε σ α) s = .ok a s :=
  rfl

theorem get_apply : (get : EStateM ε σ σ) s = .ok s s :=
  rfl

theorem modify_apply (f : σ → σ) : (modify f : EStateM ε σ PUnit) s = .ok ⟨⟩ (f s) :=
  rfl

theorem modifyGet_apply (f : σ → α × σ) : (modifyGet f : EStateM ε σ α) s = .ok (f s).1 (f s).2 :=
  rfl

theorem discard_apply (x : EStateM ε σ α) :
    discard x s = match x s with
      | .ok _ s    => .ok ⟨⟩ s
      | .error e s => .error e s :=
  rfl

theorem after_bind (x : EStateM ε σ α) (f : α → EStateM ε σ β) :
    after (x >>= f) s = match x s with
      | .ok a s    => after (f a) s
      | .error _ s => s := by
  rw [after, bind_apply]
  cases x s <;> rfl

theorem after_returns (x : EStateM ε σ α) (f : α → β) : after (do return f (← x)) s = after x s := by
  rw [after_bind, after]
  cases x s <;> rfl

end Actions

def TypeDecl.bare (type : TypeDecl) : TypeDecl :=
  { type with dependencies := [], children := [] }

namespace Graph

variable {graph : Graph} {gone moved : TypeId → Prop}

namespace Transition

theorem reviseType {type : TypeId} {f : TypeDecl → TypeDecl} (hf : ∀ t, (f t).frame = t.frame)
    (hm : ∀ t, ∀ u ∈ (f t).ids, u ∈ t.ids ∨ graph.types.contains u)
    (ho : ∀ t, t.interfaces.Nodup → (f t).interfaces.Nodup) :
    Transition gone moved graph (graph.updateType type f) := by
  refine .revise ?_ (fun h hl => ?_) (fun h => ?_)
  case refine_1 => simp [frame, updateType, Arena.map_modify hf]
  case refine_2 =>
    refine { h with types := h.types.modify fun t _ ht u hu => ?_ }
    cases hm t u hu
    case inl hu => exact ht u hu
    case inr hu => exact hl u hu
  case refine_3 => exact { h with interfaces := h.interfaces.modify fun t _ => ho t }

theorem reviseCallable {callable : CallableId} {f : Callable → Callable} (hf : ∀ c, (f c).frame = c.frame)
    (hm : ∀ c, ∀ u ∈ (f c).ids, u ∈ c.ids ∨ graph.types.contains u)
    (hu : ∀ c, graph.callable? callable = some c → c.dependencies.Nodup → (f c).dependencies.Nodup)
    (he : ∀ c, graph.callable? callable = some c → c.exceptions.Nodup → (f c).exceptions.Nodup) :
    Transition gone moved graph (graph.updateCallable callable f) := by
  refine .revise ?_ (fun h hl => ?_) (fun h => ?_)
  case refine_1 => simp [frame, updateCallable, Arena.map_modify hf]
  case refine_2 =>
    refine { h with callables := h.callables.modify fun c _ hc u hu => ?_ }
    cases hm c u hu
    case inl hu => exact hc u hu
    case inr hu => exact hl u hu
  case refine_3 =>
    exact { h with
      uses := h.uses.modify hu
      exceptions := h.exceptions.modify he }

theorem reviseProperty {property : PropertyId} {f : Property → Property} (hf : ∀ p, (f p).frame = p.frame)
    (hm : ∀ p, ∀ u ∈ (f p).ids, u ∈ p.ids ∨ graph.types.contains u) :
    Transition gone moved graph (graph.updateProperty property f) := by
  refine .revise ?_ (fun h hl => ?_) (fun h => { h with })
  case refine_1 => simp [frame, updateProperty, Arena.map_modify hf]
  case refine_2 =>
    refine { h with properties := h.properties.modify fun p _ hp u hu => ?_ }
    cases hm p u hu
    case inl hu => exact hp u hu
    case inr hu => exact hl u hu

theorem reviseConstant {constant : ConstantId} {f : Constant → Constant} (hf : ∀ c, (f c).frame = c.frame)
    (hm : ∀ c, ∀ u ∈ (f c).ids, u ∈ c.ids ∨ graph.types.contains u) :
    Transition gone moved graph (graph.updateConstant constant f) := by
  refine .revise ?_ (fun h hl => ?_) (fun h => { h with })
  case refine_1 => simp [frame, updateConstant, Arena.map_modify hf]
  case refine_2 =>
    refine { h with constants := h.constants.modify fun c _ hc u hu => ?_ }
    cases hm c u hu
    case inl hu => exact hc u hu
    case inr hu => exact hl u hu

theorem reviseHeader {f : Header → Header} (hf : ∀ h, (f h).frame = h.frame) (node : NodeRef) :
    Transition gone moved graph (graph.updateHeader f node) := by
  match node with
  | ⟨.package, id⟩ =>
    refine .revise ?_ (fun h _ => { h with packages := h.packages.modify fun _ _ hp => hp }) fun h => { h with }
    rw [frame, frame, updateHeader, Arena.map_modify]
    simp [Package.frame, hf]
  | ⟨.parameter, id⟩ =>
    refine .revise ?_ (fun h _ => { h with parameters := h.parameters.modify fun _ _ hp => hp }) fun h => { h with }
    rw [frame, frame, updateHeader, Arena.map_modify]
    simp [Parameter.frame, hf]
  | ⟨.type, id⟩ =>
    exact .reviseType (by simp [TypeDecl.frame, hf]) (fun _ _ => .inl) fun _ h => h
  | ⟨.callable, id⟩ =>
    exact .reviseCallable (by simp [Callable.frame, hf]) (fun _ _ => .inl) (fun _ _ h => h) fun _ _ h => h
  | ⟨.property, id⟩ => exact .reviseProperty (by simp [Property.frame, hf]) fun _ _ => .inl
  | ⟨.constant, id⟩ => exact .reviseConstant (by simp [Constant.frame, hf]) fun _ _ => .inl

end Transition

-- Graphs without the dependencies between types.

def bare (graph : Graph) : Graph :=
  { graph with types := graph.types.map TypeDecl.bare }

theorem bare_insertEdge {source target : TypeId} : (graph.insertEdge source target).bare = graph.bare := by
  rw [bare, bare, insertEdge, updateType, updateType, Arena.map_modify, Arena.map_modify]
  all_goals exact fun _ => rfl

theorem bare_eraseEdge {source target : TypeId} : (graph.eraseEdge source target).bare = graph.bare := by
  rw [bare, bare, eraseEdge, updateType, updateType, Arena.map_modify, Arena.map_modify]
  all_goals exact fun _ => rfl

theorem type?_updateType {id other : TypeId} {f : TypeDecl → TypeDecl} :
    (graph.updateType id f).type? other = (graph.type? other).map fun t => if id = other then f t else t :=
  Arena.get?_modify_eq_map

theorem type?_insertEdge {source target id : TypeId} :
    (graph.insertEdge source target).type? id = (graph.type? id).map fun t => { t with
      dependencies := if source = id then t.dependencies ++ [target] else t.dependencies
      children := if target = id then Distinct.add t.children source else t.children } := by
  simp only [insertEdge, type?_updateType, Option.map_map]
  congr 1
  funext t
  by_cases hs : source = id <;> by_cases ht : target = id <;> simp [hs, ht]

theorem type?_eraseEdge {source target id : TypeId} :
    (graph.eraseEdge source target).type? id = (graph.type? id).map fun t => { t with
      dependencies := if source = id then Distinct.remove t.dependencies target else t.dependencies
      children := if target = id then Distinct.remove t.children source else t.children } := by
  simp only [eraseEdge, type?_updateType, Option.map_map]
  congr 1
  funext t
  by_cases hs : source = id <;> by_cases ht : target = id <;> simp [hs, ht]

def eraseEdges (graph : Graph) (edges : List (TypeId × TypeId)) : Graph :=
  edges.foldl (fun graph edge => graph.eraseEdge edge.1 edge.2) graph

theorem type?_eraseEdges {edges : List (TypeId × TypeId)} {id : TypeId} {type' : TypeDecl}
    (h : (graph.eraseEdges edges).type? id = some type') :
    ∃ type, graph.type? id = some type ∧ type'.package = type.package
      ∧ (∀ t, t ∈ type'.dependencies ↔ t ∈ type.dependencies ∧ (id, t) ∉ edges)
      ∧ (∀ t, t ∈ type'.children ↔ t ∈ type.children ∧ (t, id) ∉ edges) := by
  induction edges generalizing graph
  case nil => exact ⟨type', h, rfl, by simp, by simp⟩
  case cons edge edges hi =>
    have ⟨t₁, h₁, hp, hd, hc⟩ := hi h
    rw [type?_eraseEdge] at h₁
    have ⟨t₀, h₀, he⟩ := Option.map_eq_some_iff.mp h₁
    subst he
    refine ⟨t₀, h₀, hp, fun t => ?_, fun t => ?_⟩
    case refine_1 =>
      rw [hd t]
      by_cases hs : edge.1 = id <;> simp [hs, Prod.ext_iff]
      case pos => grind
      case neg => grind
    case refine_2 =>
      rw [hc t]
      by_cases hs : edge.2 = id <;> simp [hs, Prod.ext_iff]
      case pos => grind
      case neg => grind

-- Changes to nothing but the dependencies between types.
structure Rewires (graph graph' : Graph) : Prop where
  changes : ∀ {gone moved}, Transitions gone moved graph graph'
  bare : graph'.bare = graph.bare

namespace Rewires

theorem refl : Rewires graph graph :=
  ⟨.refl, rfl⟩

theorem trans {graph₁ graph₂ graph₃ : Graph} (h₁ : Rewires graph₁ graph₂) (h₂ : Rewires graph₂ graph₃) :
    Rewires graph₁ graph₃ :=
  ⟨h₁.changes.trans h₂.changes, h₂.bare.trans h₁.bare⟩

theorem type?_eq {graph' : Graph} {id : TypeId} {type : TypeDecl} (h : Rewires graph graph')
    (ht : graph.type? id = some type) : ∃ type', graph'.type? id = some type' ∧ type'.bare = type.bare := by
  have hb : (graph'.types.map TypeDecl.bare).get? id = (graph.types.map TypeDecl.bare).get? id :=
    congrArg (·.types.get? id) h.bare
  rw [type?] at ht ⊢
  simpa [ht] using hb

theorem type?_eq_none {graph' : Graph} {id : TypeId} (h : Rewires graph graph') (ht : graph.type? id = none) :
    graph'.type? id = none := by
  have hb : (graph'.types.map TypeDecl.bare).get? id = (graph.types.map TypeDecl.bare).get? id :=
    congrArg (·.types.get? id) h.bare
  rw [type?] at ht ⊢
  simpa [ht] using hb

theorem next_eq {graph' : Graph} (h : Rewires graph graph') : graph'.types.next = graph.types.next := by
  have hb : (graph'.types.map TypeDecl.bare).next = (graph.types.map TypeDecl.bare).next :=
    congrArg (·.types.next) h.bare
  rwa [Arena.next_map, Arena.next_map] at hb

end Rewires

theorem mem_of_mem_substituteSlot {old new t : TypeId} {slot : Option TypeId}
    (h : t ∈ substituteSlot old new slot) : t ∈ slot ∨ t = new := by
  rw [substituteSlot] at h
  split at h
  case isTrue  => exact .inr (Option.mem_some.mp h).symm
  case isFalse => exact .inl h

theorem frame_substitutePlaces {old new : TypeId} : (graph.substitutePlaces old new).frame = graph.frame := by
  rw [frame, frame, substitutePlaces, Arena.map_map, Arena.map_map, Arena.map_map, Arena.map_map, Arena.map_map]
  all_goals exact fun _ => rfl

theorem type?_substitutePlaces {old new id : TypeId} {decl : TypeDecl} (h : graph.type? id = some decl) :
    (graph.substitutePlaces old new).type? id = some (decl.substitute old new) := by
  rw [type?] at h
  simp [type?, Graph.substitutePlaces, h]

theorem Transition.substitutePlaces {old new : TypeId} (hn : graph.types.contains new) :
    Transition gone moved graph (graph.substitutePlaces old new) := by
  -- A substitution brings in nothing but `new`.
  have hs {P : TypeId → Prop} {ids ids' : List TypeId} (hl : ∀ t, graph.types.contains t → P t)
      (hi : ∀ t ∈ ids', t ∈ ids ∨ t = new) (h : ∀ t ∈ ids, P t) : ∀ t ∈ ids', P t := by
    intro t ht
    cases hi t ht
    case inl ht => exact h t ht
    case inr ht => exact ht ▸ hl new hn
  have hm := @Distinct.mem_of_mem_substitute TypeId _
  have ho := @mem_of_mem_substituteSlot
  refine .revise frame_substitutePlaces (fun h hl => ?_) fun h => ?_
  case refine_1 =>
    refine ⟨h.packages, h.types.map fun t => hs hl ?_, h.callables.map fun c => hs hl ?_,
      h.parameters.map fun p hp t ht => ?_, h.properties.map fun p => hs hl ?_, h.constants.map fun c => hs hl ?_⟩
    case refine_3 =>
      cases ho ht
      case inl ht => exact hp t ht
      case inr ht => exact ht ▸ hl new hn
    all_goals
      intro t
      simp only [TypeDecl.ids, TypeDecl.substitute, Callable.ids, Callable.substitute, Property.ids, Constant.ids,
        List.mem_append, List.mem_cons, Option.mem_toList, ← Option.mem_def]
      grind
  case refine_2 =>
    exact {
      interfaces := h.interfaces.map fun _ => Distinct.nodup_substitute
      uses := h.uses.map fun _ => Distinct.nodup_substitute
      exceptions := h.exceptions.map fun _ => Distinct.nodup_substitute }

theorem moveMembers_congr {old new : TypeId} {decl decl' : TypeDecl} (h : decl'.bare = (decl.substitute old new).bare) :
    graph.moveMembers decl old new = graph.moveMembers decl' old new := by
  simp only [TypeDecl.bare, TypeDecl.substitute, TypeDecl.mk.injEq] at h
  simp only [moveMembers, h]

end Graph

namespace Graph

variable {graph : Graph} {gone moved : TypeId → Prop}

namespace Edit

variable {α β : Type}

def Within (R : Graph → Graph → Prop) (edit : Edit α) : Prop :=
  ∀ graph, R graph (after edit graph)

abbrev Changing (gone moved : TypeId → Prop) (edit : Edit α) : Prop :=
  edit.Within (Transitions gone moved)

namespace Within

variable {R : Graph → Graph → Prop} {edit : Edit α}

theorem of_ok {a : α} {graph' : Graph} (h : edit.Within R) (he : edit graph = .ok a graph') : R graph graph' := by
  have hg := h graph
  rwa [after, he] at hg

theorem bind {f : α → Edit β} (ht : ∀ {a b c}, R a b → R b c → R a c) (h : edit.Within R) (hf : ∀ a, (f a).Within R) :
    (edit >>= f).Within R := by
  intro graph
  have hg := h graph
  rw [after_bind]
  rw [after] at hg
  cases hr : edit graph <;> simp only [hr] at hg ⊢
  case ok a g    => exact ht hg (hf a g)
  case error e g => exact hg

theorem discard (h : edit.Within R) : (discard edit).Within R := by
  intro graph
  have hg := h graph
  rw [after] at hg ⊢
  rw [discard_apply]
  cases hr : edit graph <;> simpa only [hr] using hg

theorem returns {f : α → β} (h : edit.Within R) : (do return f (← edit)).Within R := by
  intro graph
  rw [after_returns]
  exact h graph

theorem forM {as : List α} {f : α → Edit PUnit} (hr : ∀ a, R a a) (ht : ∀ {a b c}, R a b → R b c → R a c)
    (hf : ∀ a, (f a).Within R) : (as.forM f).Within R := by
  induction as
  case nil          => exact hr
  case cons a as hi => exact (hf a).bind ht fun _ => hi

theorem after_bind {f : α → Edit β} {P : Graph → Prop} (h : edit.Within R) (he : ∀ g, R graph g → P g)
    (hf : ∀ a g, edit graph = .ok a g → R graph g → P (after (f a) g)) : P (after (edit >>= f) graph) := by
  have hg := h graph
  rw [PackageCoupling.after_bind]
  rw [after] at hg
  cases hr : edit graph <;> simp only [hr] at hg ⊢
  case ok a g    => exact hf a g hr hg
  case error e g => exact he g hg

end Within

theorem require_apply (node : NodeRef) (find? : Graph → Option α) :
    require node find? graph = match find? graph with
      | some a => .ok a graph
      | none   => .error (.unknownNode node) graph := by
  simp only [require, bind_apply, get_apply]
  cases find? graph <;> rfl

theorem requireType_apply (id : TypeId) :
    requireType id graph = match graph.type? id with
      | some type => .ok type graph
      | none      => .error (.unknownNode id.ref) graph := by
  rw [requireType, require_apply]
  cases graph.type? id <;> rfl

section

variable {P : Graph → Prop} {node : NodeRef} {find? : Graph → Option α}

theorem after_require {f : α → Edit β} (hg : P graph)
    (h : ∀ a, find? graph = some a → P (after (f a) graph)) : P (after (require node find? >>= f) graph) := by
  rw [after_bind, require_apply]
  cases ha : find? graph
  case none   => exact hg
  case some a => exact h a ha

theorem after_discard_require {f : PUnit → Edit β} (hg : P graph)
    (h : ∀ a, find? graph = some a → P (after (f ⟨⟩) graph)) :
    P (after (discard (require node find?) >>= f) graph) := by
  rw [after_bind, discard_apply, require_apply]
  cases ha : find? graph
  case none   => exact hg
  case some a => exact h a ha

theorem after_requireTarget {target : Option TypeId} {f : PUnit → Edit β} (hg : P graph)
    (h : (∀ t ∈ target, graph.types.contains t) → P (after (f ⟨⟩) graph)) :
    P (after (requireTarget target >>= f) graph) := by
  cases target
  case none => exact h (by simp)
  case some t =>
    refine after_discard_require hg fun a ha => h ?_
    intro u hu
    cases hu
    exact Arena.contains_of_get? ha

end

theorem attachMethod_changing (owner : TypeId) (method : CallableId) :
    (attachMethod owner method).Changing gone moved := by
  intro g
  refine after_discard_require .refl fun t ht => ?_
  refine after_require .refl fun c hc => ?_
  exact .single (.attach (Arena.contains_of_get? ht) hc)

theorem newParameter_changing (callable : CallableId) (name : String) (type : Option TypeId) :
    (newParameter callable name type).Changing gone moved := by
  intro g
  refine after_requireTarget .refl fun ht => ?_
  rw [after_bind, get_apply]
  cases hc : g.callable? callable
  case none   => simpa [hc] using .single .skipParameter
  case some c => simpa [hc] using .single (.parameter name hc ht)

theorem newProperty_changing (owner : TypeId) (name : String) (type : Option TypeId) :
    (newProperty owner name type).Changing gone moved := by
  intro g
  refine after_requireTarget .refl fun ht => ?_
  rw [after_bind, get_apply]
  cases ho : g.type? owner
  case none   => simpa [ho] using .single .skipProperty
  case some t => simpa [ho] using .single (.property name (Arena.contains_of_get? ho) ht)

theorem newConstant_changing (owner : TypeId) (name : String) : (newConstant owner name).Changing gone moved := by
  intro g
  rw [newConstant, after_bind, get_apply]
  cases ho : g.type? owner
  case none   => simpa [ho] using .single .skipConstant
  case some t => simpa [ho] using .single (.constant name (Arena.contains_of_get? ho))

theorem setConstantTarget_changing (constant : ConstantId) (target : TypeId) :
    (setConstantTarget constant target).Changing gone moved := by
  intro g
  refine after_discard_require .refl fun t ht => ?_
  refine after_discard_require .refl fun c _ => ?_
  refine .single (.reviseConstant (fun _ => rfl) ?_)
  intro c u hu
  have := Arena.contains_of_get? ht
  simp only [Constant.ids, Option.toList_some, List.mem_cons, List.not_mem_nil, or_false] at hu ⊢
  grind

theorem setTypeModifiers_changing (type : TypeId) (modifiers : Modifiers) :
    (setTypeModifiers type modifiers).Changing gone moved := by
  intro g
  refine after_discard_require .refl fun _ _ => ?_
  exact .single (.reviseType (fun _ => rfl) (fun _ _ => .inl) fun _ h => h)

theorem setCallableModifiers_changing (callable : CallableId) (modifiers : Modifiers) :
    (setCallableModifiers callable modifiers).Changing gone moved := by
  intro g
  refine after_discard_require .refl fun _ _ => ?_
  exact .single (.reviseCallable (fun _ => rfl) (fun _ _ => .inl) (fun _ _ h => h) fun _ _ h => h)

theorem setPropertyModifiers_changing (property : PropertyId) (modifiers : Modifiers) :
    (setPropertyModifiers property modifiers).Changing gone moved := by
  intro g
  refine after_discard_require .refl fun _ _ => ?_
  exact .single (.reviseProperty (fun _ => rfl) fun _ _ => .inl)

theorem setLocation_changing (node : NodeRef) (location : Location) :
    (setLocation node location).Changing gone moved := by
  intro g
  refine after_discard_require .refl fun _ _ => ?_
  have hf (h : Header) : ({ h with location := some location } : Header).frame = h.frame := rfl
  exact .single (.reviseHeader hf node)

theorem connect_rewires (source target : TypeId) : (connect source target).Within Rewires := by
  intro g
  refine after_discard_require .refl fun t ht => ?_
  refine after_require .refl fun decl hs => ?_
  split
  case isTrue => exact .refl
  case isFalse h =>
    rw [not_or] at h
    exact ⟨.single (.link hs (Arena.contains_of_get? ht) h.left h.right), bare_insertEdge⟩

theorem disconnect_rewires (source target : TypeId) : (disconnect source target).Within Rewires := by
  intro g
  refine after_discard_require .refl fun t ht => ?_
  refine after_require .refl fun decl hs => ?_
  exact ⟨.single (.unlink (Arena.contains_of_get? hs) (Arena.contains_of_get? ht)), bare_eraseEdge⟩

theorem addInterface_changing (type interface : TypeId) : (addInterface type interface).Changing gone moved := by
  intro g
  refine after_discard_require .refl fun t ht => ?_
  refine after_discard_require .refl fun decl hs => ?_
  have hr : Transition gone moved g
      (g.updateType type fun t => { t with interfaces := Distinct.add t.interfaces interface }) := by
    refine .reviseType (fun _ => rfl) ?_ fun _ => Distinct.nodup_add
    intro t u hu
    have := Arena.contains_of_get? ht
    simp only [TypeDecl.ids, List.mem_append, Distinct.mem_add] at hu ⊢
    grind
  exact .head hr ((connect_rewires type interface).discard _).changes

theorem addUse_changing (callable : CallableId) (target : TypeId) : (addUse callable target).Changing gone moved := by
  intro g
  refine after_discard_require .refl fun t ht => ?_
  refine after_require .refl fun node hc => ?_
  split
  case isTrue => exact .refl
  case isFalse hn =>
    refine .single (.reviseCallable (fun _ => rfl) ?_ ?_ fun _ _ h => h)
    case refine_1 =>
      intro c u hu
      have := Arena.contains_of_get? ht
      simp only [Callable.ids, List.mem_append, List.mem_singleton] at hu ⊢
      grind
    case refine_2 =>
      intro c hc' hd
      cases hc.symm.trans hc'
      exact List.concat_eq_append ▸ hd.concat hn

theorem addException_changing (callable : CallableId) (target : TypeId) :
    (addException callable target).Changing gone moved := by
  intro g
  refine after_discard_require .refl fun t ht => ?_
  refine after_require .refl fun node hc => ?_
  split
  case isTrue => exact .refl
  case isFalse hn =>
    refine .single (.reviseCallable (fun _ => rfl) ?_ (fun _ _ h => h) ?_)
    case refine_1 =>
      intro c u hu
      have := Arena.contains_of_get? ht
      simp only [Callable.ids, List.mem_append, List.mem_singleton] at hu ⊢
      grind
    case refine_2 =>
      intro c hc' hd
      cases hc.symm.trans hc'
      exact List.concat_eq_append ▸ hd.concat hn

theorem setReturnType_changing (callable : CallableId) (target : Option TypeId) :
    (setReturnType callable target).Changing gone moved := by
  intro g
  refine after_requireTarget .refl fun ht => ?_
  refine after_discard_require .refl fun _ _ => ?_
  refine .single (.reviseCallable (fun _ => rfl) ?_ (fun _ _ h => h) fun _ _ h => h)
  intro c u hu
  simp only [Callable.ids, List.mem_append, Option.mem_toList] at hu ⊢
  grind

-- The dependency on the previous parent is given up before the one on the new parent is taken up.
theorem setParent_changing (type parent : TypeId) : (setParent type parent).Changing gone moved := by
  intro g
  refine after_discard_require .refl fun t ht => ?_
  refine after_require .refl fun decl hs => ?_
  let g₁ := g.updateType type fun t => { t with parent := some parent }
  have hr : Transition gone moved g g₁ := by
    refine .reviseType (fun _ => rfl) ?_ fun _ h => h
    intro t u hu
    have := Arena.contains_of_get? ht
    simp only [TypeDecl.ids, Option.toList_some, List.mem_append, List.mem_singleton] at hu ⊢
    grind
  refine .head hr ?_
  have hc (g₂ : Graph) : Transitions gone moved g₂ (after (discard (connect type parent)) g₂) :=
    ((connect_rewires type parent).discard g₂).changes
  rw [after_bind, modify_apply]
  simp only
  cases hp : decl.parent
  case none => exact hc g₁
  case some previous =>
    simp only
    split
    case isFalse => exact hc g₁
    case isTrue h =>
      refine .head (.unlink ?_ h.right.right) (hc _)
      simpa [g₁, updateType] using Arena.contains_of_get? hs

theorem exchange_rewires (new : TypeId) (ends : List TypeId) (former latter : TypeId → TypeId × TypeId) :
    Within Rewires (ends.forM fun t => do
      discard (disconnect (former t).1 (former t).2)
      if t ≠ new then
        discard (connect (latter t).1 (latter t).2)) := by
  refine .forM (fun _ => .refl) .trans fun t => ?_
  refine .bind .trans (disconnect_rewires (former t).1 (former t).2).discard fun _ => ?_
  split
  case isTrue  => exact (connect_rewires (latter t).1 (latter t).2).discard
  case isFalse => exact fun _ => .refl

theorem substitute_changing (old new : TypeId) : (substitute old new).Changing gone moved := by
  intro g
  refine after_discard_require .refl fun t hn => ?_
  refine after_require .refl fun decl ho => ?_
  have hp : Transition gone moved g (g.substitutePlaces old new) := .substitutePlaces (Arena.contains_of_get? hn)
  refine .head hp ?_
  have hd := exchange_rewires new decl.dependencies (old, ·) (new, ·)
  have hc := exchange_rewires new decl.children (·, old) (·, new)
  refine hd.after_bind (fun _ h => h.changes) fun _ g₁ _ h₁ => ?_
  refine hc.after_bind (fun _ h => (h₁.trans h).changes) fun _ g₂ _ h₂ => ?_
  have hr := h₁.trans h₂
  obtain ⟨d, hd, hb⟩ := hr.type?_eq (type?_substitutePlaces ho)
  obtain ⟨_, hl, _⟩ := hr.type?_eq (type?_substitutePlaces hn)
  refine hr.changes.tail ?_
  have : Transition gone moved g₂ (g₂.moveMembers d old new) := .inherit hd (Arena.contains_of_get? hl)
  rwa [← moveMembers_congr hb] at this

theorem disconnect_ok {source target : TypeId} {graph' : Graph} {a : PUnit}
    (h : discard (disconnect source target) graph = .ok a graph') : graph' = graph.eraseEdge source target := by
  simp only [discard_apply, disconnect, bind_apply, requireType_apply] at h
  cases ht : graph.type? target <;> simp only [ht] at h
  case none => simp at h
  case some =>
    cases hs : graph.type? source <;> simp only [hs] at h
    case none => simp at h
    case some => exact (EStateM.Result.ok.inj h).right.symm

theorem forM_ok {as : List α} {f : α → Edit PUnit} {step : Graph → α → Graph} {graph' : Graph} {u : PUnit}
    (hf : ∀ {a g u g'}, f a g = .ok u g' → g' = step g a) (h : as.forM f graph = .ok u graph') :
    graph' = as.foldl step graph := by
  induction as generalizing graph
  case nil          => exact (EStateM.Result.ok.inj h).right.symm
  case cons a as hi =>
    change (f a >>= fun _ => as.forM f) graph = _ at h
    rw [bind_apply] at h
    cases hr : f a graph <;> simp only [hr] at h
    case ok _ g    => rw [hi h, hf hr, List.foldl_cons]
    case error _ g => simp at h

theorem disconnect_dependencies_ok {source : TypeId} {targets : List TypeId} {graph' : Graph} {u : PUnit}
    (h : (targets.forM fun target => discard (disconnect source target)) graph = .ok u graph') :
    graph' = graph.eraseEdges (targets.map (source, ·)) := by
  rw [eraseEdges, List.foldl_map]
  exact forM_ok disconnect_ok h

theorem disconnect_children_ok {target : TypeId} {sources : List TypeId} {graph' : Graph} {u : PUnit}
    (h : (sources.forM fun source => discard (disconnect source target)) graph = .ok u graph') :
    graph' = graph.eraseEdges (sources.map (·, target)) := by
  rw [eraseEdges, List.foldl_map]
  exact forM_ok disconnect_ok h

-- What erasing a type comes to. A type that is erased has lost its dependencies before, and where the edit
-- is refused the type is still there.
inductive Erasure (type : TypeId) (graph : Graph) : EStateM.Result Fault Graph TypeDecl → Prop
  | refused {fault graph'} (hr : Rewires graph graph') : Erasure type graph (.error fault graph')
  | erased {decl graph'} (hr : Rewires graph graph') (ht : graph'.type? type = some decl)
    (hd : decl.dependencies = []) (hc : decl.children = []) :
    Erasure type graph (.ok decl (graph'.removeType type decl.package))

theorem eraseType_erasure (type : TypeId) : Erasure type graph (eraseType type graph) := by
  rw [eraseType, bind_apply, requireType_apply]
  cases ht : graph.type? type
  case none => exact .refused .refl
  case some decl =>
    have h₁ : Within Rewires (decl.dependencies.forM fun target => discard (disconnect type target)) :=
      .forM (fun _ => .refl) .trans fun target => (disconnect_rewires type target).discard
    have h₂ : Within Rewires (decl.children.forM fun child => discard (disconnect child type)) :=
      .forM (fun _ => .refl) .trans fun child => (disconnect_rewires child type).discard
    replace h₁ := h₁ graph
    simp only [bind_apply]
    rw [after] at h₁
    cases hg₁ : (decl.dependencies.forM fun target => discard (disconnect type target)) graph <;> simp only [hg₁] at h₁ ⊢
    case error => exact .refused h₁
    case ok g₁ =>
      replace h₂ := h₂ g₁
      rw [after] at h₂
      cases hg₂ : (decl.children.forM fun child => discard (disconnect child type)) g₁ <;> simp only [hg₂] at h₂ ⊢
      case error => exact .refused (h₁.trans h₂)
      case ok g₂ =>
        have ⟨d₂, hd₂, _⟩ := (h₁.trans h₂).type?_eq ht
        have ⟨d₁, hd₁, hp₁, hs₁, hc₁⟩ := type?_eraseEdges (disconnect_children_ok hg₂ ▸ hd₂)
        have ⟨d, hd, hp, hs, hc⟩ := type?_eraseEdges (disconnect_dependencies_ok hg₁ ▸ hd₁)
        cases ht.symm.trans hd
        have hq : (g₂.updatePackage decl.package fun p => { p with types := Distinct.remove p.types type }).type? type
            = some d₂ := hd₂
        simp only [modify_apply, requireType_apply, hq, pure_apply]
        rw [← hp, ← hp₁]
        refine .erased (h₁.trans h₂) hd₂ ?_ ?_
        case refine_1 =>
          refine List.eq_nil_iff_forall_not_mem.mpr fun t htd => ?_
          simp only [hs₁, hs, List.mem_map, Prod.mk.injEq, true_and, exists_eq_right] at htd
          exact htd.left.right htd.left.left
        case refine_2 =>
          refine List.eq_nil_iff_forall_not_mem.mpr fun t htc => ?_
          simp only [hc₁, hc, List.mem_map, Prod.mk.injEq, and_true, exists_eq_right] at htc
          exact htc.right htc.left.left

theorem eraseType_changing {type : TypeId} (hg : gone type) : (eraseType type).Changing gone moved := by
  intro g
  have he := @eraseType_erasure g type
  rw [after]
  generalize eraseType type g = result at he ⊢
  cases he
  case refused hr         => exact hr.changes
  case erased hr ht hd hc => exact hr.changes.tail (.remove hg ht hd hc)

end Edit

theorem ensurePackage_changes (name : String) : Transitions gone moved graph (graph.ensurePackage name).2 := by
  rw [ensurePackage]
  cases hp : graph.packageIndex.lookup name
  case some => exact .refl
  case none => exact .single (.package hp)

theorem lookup_ensurePackage (name : String) :
    (graph.ensurePackage name).2.packageIndex.lookup name = some (graph.ensurePackage name).1 := by
  rw [ensurePackage]
  cases hp : graph.packageIndex.lookup name
  case some => exact hp
  case none => exact List.lookup_cons_self

theorem hasPackage_ensurePackage (name : String) :
    (graph.ensurePackage name).2.HasPackage (graph.ensurePackage name).1 :=
  ⟨name, lookup_ensurePackage name⟩

theorem types_ensurePackage (name : String) : (graph.ensurePackage name).2.types = graph.types := by
  rw [ensurePackage]
  cases graph.packageIndex.lookup name <;> rfl

theorem not_contains_removeType {type : TypeId} {package : PackageId} :
    ¬ (graph.removeType type package).types.contains type := by
  simp [removeType, Arena.contains, Arena.get?_erase]

theorem newType_eq (kind : TypeKind) (name package : String) :
    graph.newType kind name package =
      (graph.types.next, (graph.ensurePackage package).2.addType kind name (graph.ensurePackage package).1) := by
  rw [newType]
  simp only [types_ensurePackage, addType, updatePackage]

theorem newType_changes (kind : TypeKind) (name package : String) :
    Transitions gone moved graph (graph.newType kind name package).2 :=
  (ensurePackage_changes package).tail (.type kind name (hasPackage_ensurePackage package))

theorem newFunction_changes (name package : String) : Transitions gone moved graph (graph.newFunction name package).2 :=
  (ensurePackage_changes package).tail (.function name (hasPackage_ensurePackage package))

theorem relocate_eq {type : TypeId} {old : PackageId} (ht : graph.packageOf? type = some old) (package : String) :
    (graph.relocate type package).2 =
      if old = (graph.ensurePackage package).1 then (graph.ensurePackage package).2
      else (graph.ensurePackage package).2.moveType type old (graph.ensurePackage package).1 := by
  rw [relocate, ht]
  simp only
  split <;> rfl

theorem relocate_transitions {type : TypeId} (hm : moved type) (package : String) :
    Transitions gone moved graph (graph.relocate type package).2 := by
  cases ht : graph.packageOf? type
  case none =>
    rw [relocate, ht]
  case some old =>
    have he : Transitions gone moved graph (graph.ensurePackage package).2 := ensurePackage_changes package
    have hp := @hasPackage_ensurePackage graph package
    have ht' : (graph.ensurePackage package).2.packageOf? type = some old := by
      rw [ensurePackage]
      cases graph.packageIndex.lookup package <;> exact ht
    rw [relocate_eq ht]
    split
    case isTrue     => exact he
    case isFalse hn => exact he.tail (.relocate hm ht' hp hn)

theorem relocate_changes (type : TypeId) (package : String) : Changes gone graph (graph.relocate type package).2 :=
  relocate_transitions trivial package

theorem isSome_relocate (type : TypeId) (package : String) :
    (graph.relocate type package).1.isSome = graph.types.contains type := by
  rw [relocate, Arena.contains, packageOf?, type?]
  cases graph.types.get? type
  case none   => rfl
  case some t =>
    simp only [Option.map_some, Option.isSome_some]
    split <;> rfl

-- Every operation amounts to a sequence of transitions. A type moves only by an operation that is there for it.
theorem Op.transitions {op : Op} (graph : Graph) (hg : ∀ t, op = .eraseType t → gone t)
    (hm : ∀ t p, op = .relocate t p → moved t) : Transitions gone moved graph (after op.run graph) := by
  cases op
  case ensurePackage name           => exact ensurePackage_changes name
  case newType kind name package    => exact newType_changes kind name package
  case newFunction name package     => exact newFunction_changes name package
  case newMethod name               => exact .single (.method name)
  case relocate type package        => exact relocate_transitions (hm type package rfl) package
  case attachMethod owner method    => exact (Edit.attachMethod_changing owner method).returns graph
  case newParameter callable name type =>
    exact (Edit.newParameter_changing callable name type).returns graph
  case newProperty owner name type  => exact (Edit.newProperty_changing owner name type).returns graph
  case newConstant owner name       => exact (Edit.newConstant_changing owner name).returns graph
  case setConstantTarget constant target =>
    exact (Edit.setConstantTarget_changing constant target).returns graph
  case setTypeModifiers type modifiers =>
    exact (Edit.setTypeModifiers_changing type modifiers).returns graph
  case setCallableModifiers callable modifiers =>
    exact (Edit.setCallableModifiers_changing callable modifiers).returns graph
  case setPropertyModifiers property modifiers =>
    exact (Edit.setPropertyModifiers_changing property modifiers).returns graph
  case setLocation node location    => exact (Edit.setLocation_changing node location).returns graph
  case connect source target        =>
    exact ((Edit.connect_rewires source target).returns graph).changes
  case disconnect source target     =>
    exact ((Edit.disconnect_rewires source target).returns graph).changes
  case setParent type parent        => exact (Edit.setParent_changing type parent).returns graph
  case addInterface type interface  => exact (Edit.addInterface_changing type interface).returns graph
  case addUse callable target       => exact (Edit.addUse_changing callable target).returns graph
  case addException callable target => exact (Edit.addException_changing callable target).returns graph
  case setReturnType callable target =>
    exact (Edit.setReturnType_changing callable target).returns graph
  case substitute old new           => exact (Edit.substitute_changing old new).returns graph
  case eraseType type               => exact (Edit.eraseType_changing (hg type rfl)).returns graph

theorem Op.changes {op : Op} (graph : Graph) (hg : ∀ t, op = .eraseType t → gone t) :
    Changes gone graph (after op.run graph) :=
  Op.transitions graph hg fun _ _ _ => trivial

-- The graphs that operations can bring about, from the empty graph on. Operations may be refused.
inductive Reachable : Graph → Prop
  | empty : Reachable ∅
  | step {graph : Graph} (op : Op) : Reachable graph → Reachable (after op.run graph)

theorem Reachable.changes (h : graph.Reachable) : Changes (fun _ => True) ∅ graph := by
  induction h
  case empty       => exact .refl
  case step _ _ hi => exact hi.trans (Op.changes _ fun _ _ => trivial)

end Graph
end PackageCoupling
