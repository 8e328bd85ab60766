import PackageCoupling.Proofs.Graph.Substitute

namespace PackageCoupling

def TypeDecl.bases (type : TypeDecl) : List TypeId :=
  type.parent.toList ++ type.interfaces

namespace Graph

variable {α β : Type} {type id : TypeId} {kind : TypeKind} {f : Graph → Graph}

def endingIn (f : Graph → Graph) : EStateM.Result Fault Graph α → EStateM.Result Fault Graph α
  | .ok a g    => .ok a (f g)
  | .error e g => .error e (f g)

namespace Edit

-- An edit does not notice that a graph has been changed, and does the same whether before or after.
def Commutes (f : Graph → Graph) (edit : Edit α) : Prop :=
  ∀ g, edit (f g) = endingIn f (edit g)

namespace Commutes

variable {edit : Edit α} {node : NodeRef} {find? : Graph → Option α}

theorem pure {a : α} : (pure a : Edit α).Commutes f :=
  fun _ => rfl

theorem throw {fault : Fault} : (throw fault : Edit α).Commutes f :=
  fun _ => rfl

theorem bind {k : α → Edit β} (h : edit.Commutes f) (hk : ∀ a, (k a).Commutes f) : (edit >>= k).Commutes f := by
  intro g
  rw [bind_apply, bind_apply, h g]
  cases edit g
  case ok a g => exact hk a g
  case error  => rfl

theorem discard (h : edit.Commutes f) : (discard edit).Commutes f := by
  intro g
  rw [discard_apply, discard_apply, h g]
  cases edit g <;> rfl

theorem modify {m : Graph → Graph} (h : ∀ g, m (f g) = f (m g)) : (modify m : Edit PUnit).Commutes f := by
  intro g
  rw [modify_apply, modify_apply, h]
  rfl

theorem modifyGet {m : Graph → α × Graph} (h : ∀ g, m (f g) = ((m g).1, f (m g).2)) :
    (modifyGet m : Edit α).Commutes f := by
  intro g
  rw [modifyGet_apply, modifyGet_apply, h]
  rfl

theorem get_bind {k : Graph → Edit α} (hf : ∀ g, k (f g) = k g) (h : ∀ g, (k g).Commutes f) :
    (get >>= k).Commutes f := by
  intro g
  rw [bind_apply, bind_apply, get_apply, get_apply]
  simp only [hf]
  exact h g g

theorem require_bind {k : α → Edit β} (hf : ∀ g, (find? (f g)).map k = (find? g).map k)
    (h : ∀ a, (k a).Commutes f) : (require node find? >>= k).Commutes f := by
  intro g
  have hg := hf g
  simp only [bind_apply, require_apply]
  cases ha : find? g <;> cases hb : find? (f g) <;> simp only [ha, hb, Option.map_none, Option.map_some] at hg ⊢
  case none.none => rfl
  case none.some => simp at hg
  case some.none => simp at hg
  case some.some a b => rw [Option.some.inj hg, h a g]

theorem require (hf : ∀ g, find? (f g) = find? g) : (require node find?).Commutes f := by
  intro g
  simp only [require_apply, hf]
  cases find? g <;> rfl

theorem discard_require (hf : ∀ g, (find? (f g)).isSome = (find? g).isSome) :
    (Functor.discard (Edit.require node find?)).Commutes f := by
  intro g
  have hg := hf g
  simp only [discard_apply, require_apply]
  cases ha : find? g <;> cases hb : find? (f g) <;> simp [ha, hb] at hg ⊢ <;> rfl

end Commutes
end Edit

def retype (type : TypeId) (kind : TypeKind) (graph : Graph) : Graph :=
  graph.updateType type fun t => { t with kind }

variable {graph : Graph}

theorem type?_retype : (graph.retype type kind).type? id =
    (graph.type? id).map fun t => if type = id then { t with kind } else t :=
  type?_updateType

theorem updateType_retype {h : TypeDecl → TypeDecl} (hh : ∀ t, h { t with kind } = { h t with kind }) :
    (graph.retype type kind).updateType id h = (graph.updateType id h).retype type kind := by
  simp only [retype, updateType]
  rw [Arena.modify_comm hh]

namespace Edit

theorem requireType_commutes (id : TypeId) : (discard (requireType id)).Commutes (retype type kind) :=
  .discard_require fun g => by simp [type?_retype]

theorem requireType_bind_commutes {k : TypeDecl → Edit β} (hk : ∀ t, k { t with kind } = k t)
    (h : ∀ t, (k t).Commutes (retype type kind)) : (requireType id >>= k).Commutes (retype type kind) := by
  refine .require_bind (fun g => ?_) h
  rw [type?_retype, Option.map_map]
  congr 1
  funext t
  simp only [Function.comp_apply]
  split
  case isTrue  => exact hk t
  case isFalse => rfl

theorem requireCallable_commutes (callable : CallableId) : (requireCallable callable).Commutes (retype type kind) :=
  .require fun _ => rfl

theorem requireTarget_commutes (target : Option TypeId) : (requireTarget target).Commutes (retype type kind) := by
  cases target
  case none    => exact .pure
  case some id => exact requireType_commutes id

theorem attachMethod_commutes (owner : TypeId) (method : CallableId) :
    (attachMethod owner method).Commutes (retype type kind) := by
  refine .bind (requireType_commutes owner) fun _ => ?_
  refine .bind (requireCallable_commutes method) fun c => ?_
  refine .modify fun g => ?_
  have hc : (g.retype type kind).updateCallable method (fun c => { c with owner := some owner })
      = (g.updateCallable method fun c => { c with owner := some owner }).retype type kind := rfl
  simp only [hc]
  cases c.owner
  case none => exact updateType_retype fun _ => rfl
  case some previous =>
    simp only
    split
    case isTrue => exact updateType_retype fun _ => rfl
    case isFalse =>
      rw [updateType_retype fun _ => rfl]
      exact updateType_retype fun _ => rfl

theorem newParameter_commutes (callable : CallableId) (name : String) (target : Option TypeId) :
    (newParameter callable name target).Commutes (retype type kind) := by
  refine .bind (requireTarget_commutes target) fun _ => .get_bind (fun _ => rfl) fun g => ?_
  cases g.callable? callable
  case none   => exact .bind (.modify fun _ => rfl) fun _ => .throw
  case some c => exact .modifyGet fun _ => rfl

theorem newProperty_commutes (owner : TypeId) (name : String) (target : Option TypeId) :
    (newProperty owner name target).Commutes (retype type kind) := by
  refine .bind (requireTarget_commutes target) fun _ => .get_bind (fun g => ?_) fun g => ?_
  case refine_1 =>
    rw [type?_retype]
    cases g.type? owner <;> rfl
  case refine_2 =>
    cases g.type? owner
    case none => exact .bind (.modify fun _ => rfl) fun _ => .throw
    case some =>
      refine .modifyGet fun g => Prod.ext rfl (Graph.ext rfl ?_ rfl rfl rfl rfl rfl)
      exact Arena.modify_comm fun _ => rfl

theorem newConstant_commutes (owner : TypeId) (name : String) :
    (newConstant owner name).Commutes (retype type kind) := by
  refine .get_bind (fun g => ?_) fun g => ?_
  case refine_1 =>
    rw [type?_retype]
    cases g.type? owner <;> rfl
  case refine_2 =>
    cases g.type? owner
    case none => exact .bind (.modify fun _ => rfl) fun _ => .throw
    case some =>
      refine .modifyGet fun g => Prod.ext rfl (Graph.ext rfl ?_ rfl rfl rfl rfl rfl)
      exact Arena.modify_comm fun _ => rfl

theorem setConstantTarget_commutes (constant : ConstantId) (target : TypeId) :
    (setConstantTarget constant target).Commutes (retype type kind) := by
  refine .bind (requireType_commutes target) fun _ => ?_
  exact .bind (.discard_require fun _ => rfl) fun _ => .modify fun _ => rfl

theorem setTypeModifiers_commutes (id : TypeId) (modifiers : Modifiers) :
    (setTypeModifiers id modifiers).Commutes (retype type kind) := by
  refine .bind (requireType_commutes id) fun _ => .modify fun g => ?_
  exact updateType_retype fun _ => rfl

theorem setCallableModifiers_commutes (callable : CallableId) (modifiers : Modifiers) :
    (setCallableModifiers callable modifiers).Commutes (retype type kind) :=
  .bind (requireCallable_commutes callable).discard fun _ => .modify fun _ => rfl

theorem setPropertyModifiers_commutes (property : PropertyId) (modifiers : Modifiers) :
    (setPropertyModifiers property modifiers).Commutes (retype type kind) :=
  .bind (.discard_require fun _ => rfl) fun _ => .modify fun _ => rfl

theorem setLocation_commutes (node : NodeRef) (location : Location) :
    (setLocation node location).Commutes (retype type kind) := by
  refine .bind (.discard_require fun g => ?_) fun _ => .modify fun g => ?_
  all_goals
    obtain ⟨k, id⟩ := node
    cases k
  case refine_1.type => simp [header?, type?_retype]
  case refine_2.type => exact updateType_retype fun _ => rfl
  all_goals rfl

theorem connect_commutes (source target : TypeId) : (connect source target).Commutes (retype type kind) := by
  refine .bind (requireType_commutes target) fun _ => requireType_bind_commutes (fun _ => rfl) fun decl => ?_
  split
  case isTrue => exact .pure
  case isFalse =>
    refine .bind (.modify fun g => ?_) fun _ => .pure
    rw [insertEdge, updateType_retype fun _ => rfl]
    exact updateType_retype fun _ => rfl

theorem eraseEdge_retype {source target : TypeId} :
    (graph.retype type kind).eraseEdge source target = (graph.eraseEdge source target).retype type kind := by
  rw [eraseEdge, updateType_retype fun _ => rfl]
  exact updateType_retype fun _ => rfl

theorem setParent_commutes (id parent : TypeId) : (setParent id parent).Commutes (retype type kind) := by
  refine .bind (requireType_commutes parent) fun _ => requireType_bind_commutes (fun _ => rfl) fun decl => ?_
  refine .bind (.modify fun g => ?_) fun _ => (connect_commutes id parent).discard
  rw [updateType_retype fun _ => rfl]
  cases decl.parent
  case none => rfl
  case some previous =>
    have hc (g : Graph) : (g.retype type kind).types.contains previous = g.types.contains previous :=
      Arena.contains_modify
    simp only [hc]
    split
    case isTrue  => exact eraseEdge_retype
    case isFalse => rfl

theorem addInterface_commutes (id interface : TypeId) : (addInterface id interface).Commutes (retype type kind) := by
  refine .bind (requireType_commutes interface) fun _ => .bind (requireType_commutes id) fun _ => ?_
  refine .bind (.modify fun g => ?_) fun _ => (connect_commutes id interface).discard
  exact updateType_retype fun _ => rfl

theorem addUse_commutes (callable : CallableId) (target : TypeId) :
    (addUse callable target).Commutes (retype type kind) := by
  refine .bind (requireType_commutes target) fun _ => .bind (requireCallable_commutes callable) fun c => ?_
  split
  case isTrue  => exact .pure
  case isFalse => exact .bind (.modify fun _ => rfl) fun _ => .pure

theorem addException_commutes (callable : CallableId) (target : TypeId) :
    (addException callable target).Commutes (retype type kind) := by
  refine .bind (requireType_commutes target) fun _ => .bind (requireCallable_commutes callable) fun c => ?_
  split
  case isTrue  => exact .pure
  case isFalse => exact .bind (.modify fun _ => rfl) fun _ => .pure

theorem setReturnType_commutes (callable : CallableId) (target : Option TypeId) :
    (setReturnType callable target).Commutes (retype type kind) := by
  refine .bind (requireTarget_commutes target) fun _ => ?_
  exact .bind (requireCallable_commutes callable).discard fun _ => .modify fun _ => rfl

end Edit

theorem ensurePackage_retype (name : String) :
    (graph.retype type kind).ensurePackage name
      = ((graph.ensurePackage name).1, (graph.ensurePackage name).2.retype type kind) := by
  have hp : (graph.retype type kind).packageIndex = graph.packageIndex := rfl
  simp only [ensurePackage, hp]
  cases graph.packageIndex.lookup name <;> rfl

namespace Op

-- Operations that make, move, replace and erase no types, and take no dependency away for its own sake.
def isDescription : Op → Bool
  | newType _ _ _ | relocate _ _ | disconnect _ _ | substitute _ _ | eraseType _ => false
  | _ => true

theorem run_commutes {op : Op} (h : op.isDescription) : op.run.Commutes (retype type kind) := by
  cases op
  case newType | relocate | disconnect | substitute | eraseType => simp [isDescription] at h
  case ensurePackage name => exact .bind (.modifyGet fun _ => ensurePackage_retype name) fun _ => .pure
  case newFunction name package =>
    refine .bind (.modifyGet fun g => ?_) fun _ => .pure
    simp only [Graph.newFunction, ensurePackage_retype]
    rfl
  case newMethod name => exact .bind (.modifyGet fun _ => rfl) fun _ => .pure
  case attachMethod owner method => exact .bind (Edit.attachMethod_commutes owner method) fun _ => .pure
  case newParameter callable name target =>
    exact .bind (Edit.newParameter_commutes callable name target) fun _ => .pure
  case newProperty owner name target => exact .bind (Edit.newProperty_commutes owner name target) fun _ => .pure
  case newConstant owner name => exact .bind (Edit.newConstant_commutes owner name) fun _ => .pure
  case setConstantTarget constant target =>
    exact .bind (Edit.setConstantTarget_commutes constant target) fun _ => .pure
  case setTypeModifiers id modifiers => exact .bind (Edit.setTypeModifiers_commutes id modifiers) fun _ => .pure
  case setCallableModifiers callable modifiers =>
    exact .bind (Edit.setCallableModifiers_commutes callable modifiers) fun _ => .pure
  case setPropertyModifiers property modifiers =>
    exact .bind (Edit.setPropertyModifiers_commutes property modifiers) fun _ => .pure
  case setLocation node location => exact .bind (Edit.setLocation_commutes node location) fun _ => .pure
  case connect source target => exact .bind (Edit.connect_commutes source target) fun _ => .pure
  case setParent id parent => exact .bind (Edit.setParent_commutes id parent) fun _ => .pure
  case addInterface id interface => exact .bind (Edit.addInterface_commutes id interface) fun _ => .pure
  case addUse callable target => exact .bind (Edit.addUse_commutes callable target) fun _ => .pure
  case addException callable target => exact .bind (Edit.addException_commutes callable target) fun _ => .pure
  case setReturnType callable target => exact .bind (Edit.setReturnType_commutes callable target) fun _ => .pure

end Op

-- A type is in a package and depends on the types that it inherits from.
def Resides (graph : Graph) (type : TypeId) (package : PackageId) : Prop :=
  ∃ decl, graph.type? type = some decl ∧ decl.package = package ∧ ∀ t ∈ decl.bases, t = type ∨ t ∈ decl.dependencies

def Keeps (type : TypeId) (graph graph' : Graph) : Prop :=
  ∀ package, graph.Resides type package → graph'.Resides type package

section

variable {graph' : Graph}

theorem Keeps.refl : Keeps type graph graph :=
  fun _ h => h

theorem Keeps.map {f : TypeDecl → TypeDecl} (h : graph'.type? type = (graph.type? type).map f)
    (hf : ∀ t, (f t).package = t.package ∧ (f t).bases = t.bases ∧ ∀ u ∈ t.dependencies, u ∈ (f t).dependencies) :
    Keeps type graph graph' := by
  intro package ⟨t, ht, hp, hb⟩
  have ⟨hp', hb', hd'⟩ := hf t
  exact ⟨f t, by rw [h, ht, Option.map_some], hp'.trans hp, fun u hu => (hb u (hb' ▸ hu)).imp_right (hd' u)⟩

theorem Keeps.of_types_eq (h : graph'.types = graph.types) : Keeps type graph graph' := by
  intro package hr
  rwa [Resides, type?, h]

theorem Keeps.updateType {f : TypeDecl → TypeDecl}
    (hf : ∀ t, (f t).package = t.package ∧ (f t).bases = t.bases ∧ (f t).dependencies = t.dependencies) :
    Keeps type graph (graph.updateType id f) := by
  refine .map type?_updateType fun t => ?_
  have ⟨hp, hb, hd⟩ := hf t
  split
  case isTrue  => exact ⟨hp, hb, fun u hu => hd ▸ hu⟩
  case isFalse => exact ⟨rfl, rfl, fun _ hu => hu⟩

theorem Keeps.connect {base : TypeId} (hi : graph'.types.contains id) (hb : graph'.types.contains base)
    (h : ∀ t, graph.type? type = some t → ∃ t', graph'.type? type = some t' ∧ t'.package = t.package
      ∧ ∀ u ∈ t'.bases, id = type ∧ u = base ∨ u ∈ t.bases ∧ (u ∈ t.dependencies → u ∈ t'.dependencies)) :
    Keeps type graph (after (discard (Edit.connect id base)) graph') := by
  intro package ⟨t, ht, hp, hr⟩
  have ⟨t', ht', hp', hr'⟩ := h t ht
  have ⟨_, g, he, hw, hd⟩ := (Edit.connect_leaves hi hb).discard
  have ⟨t'', ht'', hb''⟩ := hw.type?_eq ht'
  simp only [TypeDecl.bare, TypeDecl.mk.injEq] at hb''
  rw [after, he]
  refine ⟨t'', ht'', by simp [hb'', hp', hp], fun u hu => ?_⟩
  have hu : u ∈ t'.bases := by simpa [TypeDecl.bases, hb''] using hu
  have hd := hd type u
  simp only [depends_iff ht'', depends_iff ht'] at hd
  rw [hd]
  cases hr' u hu
  case inl h =>
    obtain ⟨rfl, rfl⟩ := h
    by_cases hs : u = id
    case pos => exact .inl hs
    case neg => exact .inr (.inr ⟨rfl, rfl, fun h => hs h.symm⟩)
  case inr h => exact (hr u h.left).imp_right fun hu => .inl (h.right hu)

end

namespace Edit

theorem attachMethod_keeps (owner : TypeId) (method : CallableId) :
    (attachMethod owner method).Within (Keeps type) := by
  intro g
  refine after_discard_require .refl fun t ht => ?_
  refine after_require .refl fun c hc => ?_
  exact .map type?_attach fun _ => ⟨rfl, rfl, fun _ hu => hu⟩

theorem newParameter_keeps (callable : CallableId) (name : String) (target : Option TypeId) :
    (newParameter callable name target).Within (Keeps type) := by
  intro g
  refine after_requireTarget .refl fun ht => ?_
  rw [after_bind, get_apply]
  cases hc : g.callable? callable <;> simpa [hc] using .of_types_eq rfl

theorem newProperty_keeps (owner : TypeId) (name : String) (target : Option TypeId) :
    (newProperty owner name target).Within (Keeps type) := by
  intro g
  refine after_requireTarget .refl fun ht => ?_
  rw [after_bind, get_apply]
  cases ho : g.type? owner
  case none => simpa [ho] using .of_types_eq rfl
  case some =>
    have hk : Keeps type g (g.addProperty owner name target) :=
      Keeps.updateType fun _ => ⟨rfl, rfl, rfl⟩
    simp only [ho]
    exact hk

theorem newConstant_keeps (owner : TypeId) (name : String) : (newConstant owner name).Within (Keeps type) := by
  intro g
  rw [newConstant, after_bind, get_apply]
  cases ho : g.type? owner
  case none => simpa [ho] using .of_types_eq rfl
  case some =>
    have hk : Keeps type g (g.addConstant owner name) :=
      Keeps.updateType fun _ => ⟨rfl, rfl, rfl⟩
    simp only [ho]
    exact hk

theorem connect_keeps (source target : TypeId) : (connect source target).Within (Keeps type) := by
  intro g
  refine after_discard_require .refl fun t ht => ?_
  refine after_require .refl fun decl hs => ?_
  split
  case isTrue  => exact .refl
  case isFalse =>
    refine .map type?_insertEdge fun t => ⟨rfl, rfl, fun u hu => ?_⟩
    simp only
    split <;> simp [hu]

theorem addInterface_keeps (id interface : TypeId) : (addInterface id interface).Within (Keeps type) := by
  intro g
  refine after_discard_require .refl fun t ht => ?_
  refine after_discard_require .refl fun decl hs => ?_
  have hc {t : TypeId} (ht : g.types.contains t) :
      (g.updateType id fun t => { t with interfaces := Distinct.add t.interfaces interface }).types.contains t :=
    Arena.contains_modify.trans ht
  refine .connect (hc (Arena.contains_of_get? hs)) (hc (Arena.contains_of_get? ht)) fun t ht => ?_
  rw [type?_updateType, ht, Option.map_some]
  refine ⟨_, rfl, ?_⟩
  split
  case isFalse => exact ⟨rfl, fun u hu => .inr ⟨hu, fun hu => hu⟩⟩
  case isTrue hi =>
    refine ⟨rfl, fun u hu => ?_⟩
    simp only [TypeDecl.bases, List.mem_append, Distinct.mem_add, ← or_assoc] at hu ⊢
    cases hu
    case inl hu => exact .inr ⟨hu, fun hu => hu⟩
    case inr hu => exact .inl ⟨hi, hu⟩

theorem setParent_keeps (id parent : TypeId) : (setParent id parent).Within (Keeps type) := by
  intro g
  refine after_discard_require .refl fun t ht => ?_
  refine after_require .refl fun decl hs => ?_
  -- Whether or not the previous parent is given up, only its own dependency on it may be gone.
  have hk (g₁ : Graph) (hl : ∀ t, g.types.contains t → g₁.types.contains t)
      (hg : ∀ t, g.type? type = some t → ∃ t', g₁.type? type = some t' ∧ t'.package = t.package
        ∧ t'.interfaces = t.interfaces ∧ t'.parent = (if id = type then some parent else t.parent)
        ∧ ∀ u ∈ t.dependencies, id ≠ type ∨ u ∈ t.interfaces → u ∈ t'.dependencies) :
      Keeps type g (after (discard (connect id parent)) g₁) := by
    refine .connect (hl _ (Arena.contains_of_get? hs)) (hl _ (Arena.contains_of_get? ht)) fun t ht => ?_
    obtain ⟨t', ht', hp, hi, hr, hd⟩ := hg t ht
    refine ⟨t', ht', hp, fun u hu => ?_⟩
    simp only [TypeDecl.bases, List.mem_append, Option.mem_toList, hr, hi] at hu ⊢
    grind
  let g₁ := g.updateType id fun t => { t with parent := some parent }
  have hl (t : TypeId) (ht : g.types.contains t) : g₁.types.contains t := Arena.contains_modify.trans ht
  have hg : g₁.type? type = (g.type? type).map fun t => if id = type then { t with parent := some parent } else t :=
    type?_updateType
  have h₁ : Keeps type g (after (discard (connect id parent)) g₁) := by
    refine hk g₁ hl fun t ht => ⟨_, by rw [hg, ht, Option.map_some], ?_⟩
    split
    case isTrue  => exact ⟨rfl, rfl, rfl, fun _ hu _ => hu⟩
    case isFalse => exact ⟨rfl, rfl, rfl, fun _ hu _ => hu⟩
  rw [after_bind, modify_apply]
  simp only
  cases hp : decl.parent
  case none => exact h₁
  case some previous =>
    simp only
    split
    case isFalse => exact h₁
    case isTrue h =>
      have hl₁ (t : TypeId) (ht : g.types.contains t) : (g₁.eraseEdge id previous).types.contains t := by
        simpa [eraseEdge, updateType] using hl t ht
      refine hk (g₁.eraseEdge id previous) hl₁ fun t ht => ?_
      rw [type?_eraseEdge, hg, ht, Option.map_map, Option.map_some]
      refine ⟨_, rfl, ?_⟩
      by_cases hi : id = type
      case neg => simp [hi]
      case pos =>
        subst hi
        cases hs.symm.trans ht
        obtain ⟨_, hn, _⟩ := h
        simp only [Function.comp_apply, if_true, Distinct.mem_remove, ne_eq, not_true, false_or, true_and]
        intro u hu hi
        exact ⟨hu, fun he => hn (he ▸ hi)⟩

theorem setLocation_keeps (node : NodeRef) (location : Location) : (setLocation node location).Within (Keeps type) := by
  intro g
  refine after_discard_require .refl fun _ _ => ?_
  obtain ⟨kind, id⟩ := node
  cases kind
  case type => exact Keeps.updateType fun _ => ⟨rfl, rfl, rfl⟩
  all_goals exact .of_types_eq rfl

end Edit

theorem Op.run_keeps {op : Op} (h : op.isDescription) : op.run.Within (Keeps type) := by
  cases op
  case newType | relocate | disconnect | substitute | eraseType => simp [isDescription] at h
  case ensurePackage name         => exact fun g => .of_types_eq (types_ensurePackage name)
  case newFunction name package   => exact fun g => .of_types_eq (types_ensurePackage package)
  case newMethod                  => exact fun g => .of_types_eq rfl
  case attachMethod owner method  => exact (Edit.attachMethod_keeps owner method).returns
  case newParameter callable name target => exact (Edit.newParameter_keeps callable name target).returns
  case newProperty owner name target => exact (Edit.newProperty_keeps owner name target).returns
  case newConstant owner name     => exact (Edit.newConstant_keeps owner name).returns
  case setLocation node location  => exact (Edit.setLocation_keeps node location).returns
  case connect source target      => exact (Edit.connect_keeps source target).returns
  case setParent id parent        => exact (Edit.setParent_keeps id parent).returns
  case addInterface id interface  => exact (Edit.addInterface_keeps id interface).returns
  all_goals refine Edit.Within.returns fun g => ?_
  case setConstantTarget =>
    exact Edit.after_discard_require .refl fun _ _ => Edit.after_discard_require .refl fun _ _ => .of_types_eq rfl
  case setTypeModifiers =>
    exact Edit.after_discard_require .refl fun _ _ => Keeps.updateType fun _ => ⟨rfl, rfl, rfl⟩
  case setCallableModifiers => exact Edit.after_discard_require .refl fun _ _ => .of_types_eq rfl
  case setPropertyModifiers => exact Edit.after_discard_require .refl fun _ _ => .of_types_eq rfl
  case setReturnType =>
    exact Edit.after_requireTarget .refl fun _ => Edit.after_discard_require .refl fun _ _ => .of_types_eq rfl
  case addUse | addException =>
    refine Edit.after_discard_require .refl fun _ _ => Edit.after_require .refl fun _ _ => ?_
    split <;> exact .of_types_eq rfl

theorem newType_retype {kind' : TypeKind} (name package : String) :
    (graph.newType kind' name package).2 = (graph.newType kind name package).2.retype graph.types.next kind' := by
  have hn : graph.types.next = (graph.ensurePackage package).2.types.next := by rw [types_ensurePackage]
  rw [newType_eq, newType_eq, hn]
  simp only [retype, updateType, addType, Arena.modify_push]

theorem newType_resides (name package : String) :
    (graph.newType kind name package).2.Resides graph.types.next (graph.ensurePackage package).1 := by
  have hn : graph.types.next = (graph.ensurePackage package).2.types.next := by rw [types_ensurePackage]
  rw [newType_eq, hn]
  refine ⟨_, Arena.get?_push.trans (if_pos rfl), rfl, fun t ht => ?_⟩
  simp [TypeDecl.bases] at ht

def perform (graph : Graph) (ops : List Op) : Graph :=
  ops.foldl (fun g op => after op.run g) graph

theorem perform_retype {ops : List Op} (h : ∀ op ∈ ops, op.isDescription) :
    (graph.retype type kind).perform ops = (graph.perform ops).retype type kind := by
  induction ops generalizing graph
  case nil => rfl
  case cons op ops hi =>
    rw [List.forall_mem_cons] at h
    have ho : after op.run (graph.retype type kind) = (after op.run graph).retype type kind := by
      rw [after, after, Op.run_commutes h.left]
      cases op.run graph <;> rfl
    have hp := @hi (after op.run graph) h.right
    rwa [← ho] at hp

theorem perform_keeps {ops : List Op} (h : ∀ op ∈ ops, op.isDescription) : Keeps type graph (graph.perform ops) := by
  induction ops generalizing graph
  case nil => exact .refl
  case cons op ops hi =>
    rw [List.forall_mem_cons] at h
    exact fun package hr => hi h.right package (Op.run_keeps h.left graph package hr)

theorem perform_changes {gone : TypeId → Prop} {ops : List Op} (h : ∀ op ∈ ops, op.isDescription) :
    Changes gone graph (graph.perform ops) := by
  induction ops generalizing graph
  case nil => exact .refl
  case cons op ops hi =>
    rw [List.forall_mem_cons] at h
    refine (Op.changes graph fun t ht => ?_).trans (hi h.right)
    simp [ht, Op.isDescription] at h

end Graph
end PackageCoupling
