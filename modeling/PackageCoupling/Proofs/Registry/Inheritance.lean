import PackageCoupling.Proofs.Registry.Integrity
import PackageCoupling.Proofs.Replacement

namespace PackageCoupling

namespace Graph

variable {graph graph' g : Graph} {id base old new : TypeId} {decl : TypeDecl} {kind : TypeKind}

-- Every type that is there resides in a package and depends on the types that it inherits from.
def Backed (graph : Graph) : Prop :=
  ∀ id, graph.types.contains id → ∃ package, graph.Resides id package

namespace Backed

theorem mem_dependencies (h : graph.Backed) (ht : graph.type? id = some decl) (hb : base ∈ decl.bases) :
    base = id ∨ base ∈ decl.dependencies := by
  obtain ⟨_, t, ht', _, hr⟩ := h id (contains_type.mpr ⟨decl, ht⟩)
  cases ht.symm.trans ht'
  exact hr base hb

theorem of_types_eq (h : graph.Backed) (ht : graph'.types = graph.types) : graph'.Backed := by
  intro id hc
  rw [ht] at hc
  obtain ⟨package, hr⟩ := h id hc
  exact ⟨package, Keeps.of_types_eq ht package hr⟩

theorem ofConfig (config : Config) : (Registry.ofConfig config).graph.Backed := by
  have he : (∅ : Graph).Backed := by
    intro id hc
    have hn : (∅ : Graph).types.get? id = none := Arena.get?_empty
    simp [Arena.contains, hn] at hc
  exact he.of_types_eq (@types_ensurePackage ∅ config.defaultPackage)

theorem newType (h : graph.Backed) (name package : String) : (graph.newType kind name package).2.Backed := by
  intro id hc
  by_cases hi : id = graph.types.next
  case pos => exact ⟨_, hi ▸ newType_resides name package⟩
  case neg =>
    have ht : (graph.newType kind name package).2.type? id = graph.type? id := by
      rw [newType_eq, type?, addType, Arena.get?_push, if_neg (by rwa [types_ensurePackage])]
      simp only [types_ensurePackage, type?]
    rw [contains_type, ht, ← contains_type] at hc
    obtain ⟨p, hr⟩ := h id hc
    exact ⟨p, by rwa [Resides, ht]⟩

theorem relocate (h : graph.Backed) (type : TypeId) (package : String) : (graph.relocate type package).2.Backed := by
  cases hp : graph.packageOf? type
  case none => simpa [Graph.relocate, hp] using h
  case some old =>
    have he := h.of_types_eq (types_ensurePackage package)
    rw [relocate_eq hp]
    split
    case isTrue => exact he
    case isFalse =>
      intro id hc
      rw [moveType, updateType, Arena.contains_modify] at hc
      obtain ⟨_, t, ht, _, hr⟩ := he id hc
      refine ⟨_, _, type?_updateType.trans (congrArg _ ht), rfl, ?_⟩
      split <;> exact hr

end Backed

-- A type that is not there has no kind that could be changed. If it came into being by a description, which does not
-- depend on kinds, it would be of every kind.
theorem Op.contains_of_isDescription {op : Op} (h : op.isDescription) (hc : (after op.run graph).types.contains id) :
    graph.types.contains id := by
  by_contra hn
  rw [Arena.contains, Option.isSome_iff_ne_none, not_not] at hn
  have hk (kind : TypeKind) : (after op.run graph).retype id kind = after op.run graph := by
    have hg : graph.retype id kind = graph := by
      rw [retype, updateType, Arena.modify_of_get?_eq_none hn]
    have hr := @run_commutes id kind op h graph
    rw [hg] at hr
    rw [after]
    cases hop : op.run graph <;> rw [hop] at hr <;> injection hr with _ hr <;> exact hr.symm
  obtain ⟨t, ht⟩ := contains_type.mp hc
  have hk (kind : TypeKind) : t.kind = kind := by
    have ht' := @type?_retype id id kind (after op.run graph)
    rw [hk, ht, Option.map_some, if_pos rfl] at ht'
    exact congrArg TypeDecl.kind (Option.some.inj ht')
  have := (hk .cls).symm.trans (hk .interface)
  cases this

-- Operations by which a type may come to inherit from what it does not depend on.
def Op.takesAway : Op → Bool
  | disconnect _ _ | substitute _ _ | eraseType _ => true
  | _ => false

theorem Op.backed {op : Op} (hop : op.takesAway = false) (h : graph.Backed) : (after op.run graph).Backed := by
  by_cases hd : op.isDescription
  case pos =>
    intro id hc
    obtain ⟨package, hr⟩ := h id (contains_of_isDescription hd hc)
    exact ⟨package, run_keeps hd graph package hr⟩
  case neg =>
    cases op <;> simp [isDescription, takesAway] at hd hop
    case newType kind name package => exact h.newType name package
    case relocate type package     => exact h.relocate type package

theorem mem_bases_substitute (hd : decl.interfaces.Nodup) (hne : old ≠ new) :
    base ∈ (decl.substitute old new).bases ↔ base ∈ decl.bases ∧ base ≠ old ∨ old ∈ decl.bases ∧ base = new := by
  simp only [TypeDecl.bases, TypeDecl.substitute, List.mem_append, Option.mem_toList, mem_substituteSlot,
    Distinct.mem_substitute hd hne]
  grind

theorem depends_of_replace {a b : TypeId} :
    ((g.moveMembers decl old new).removeType old decl.package).Depends a b ↔ a ≠ old ∧ g.Depends a b := by
  rw [← @depends_moveMembers g a b old new decl]
  simp only [Depends, removeType, type?, Arena.get?_erase]
  by_cases ha : old = a
  case pos => simp [ha]
  case neg => simp [ha, Ne.symm ha]

-- If a type inherited from the one that has been replaced, then it depended on it and now depends on the other one.
theorem Backed.replace (h : graph.Backed) (hm : graph.MentionsOnce) (hne : old ≠ new)
    (hg : Rewires (graph.substitutePlaces old new) g) (hd : ∀ a b, g.Depends a b ↔ graph.Handover old new a b) :
    ((g.moveMembers decl old new).removeType old decl.package).Backed := by
  intro id hc
  obtain ⟨type', ht'⟩ := contains_type.mp hc
  obtain ⟨type, ht, hp, hi⟩ := type?_of_replace hg ht'
  refine ⟨type'.package, type', ht', rfl, fun base hb => ?_⟩
  have hb : base ∈ (type.substitute old new).bases := by
    rwa [TypeDecl.bases, hp, hi] at hb
  have hid : id ≠ old := by
    rintro rfl
    exact not_contains_removeType hc
  have hr {t : TypeId} (hb : t ∈ type.bases) : t = id ∨ graph.Depends id t := by
    rw [depends_iff ht]
    exact h.mem_dependencies ht hb
  rw [← depends_iff ht', depends_of_replace, hd, Handover]
  rw [mem_bases_substitute (hm.interfaces id type ht) hne] at hb
  cases hb
  case inl hb =>
    obtain ⟨hb, hne⟩ := hb
    exact (hr hb).imp_right fun hd => ⟨hid, .inl ⟨hd, hid, hne⟩⟩
  case inr hb =>
    obtain ⟨hb, rfl⟩ := hb
    have hd := (hr hb).resolve_left hid.symm
    by_cases hn : id = base
    case pos => exact .inl hn.symm
    case neg => exact .inr ⟨hid, .inr (.inr ⟨rfl, hd, hn⟩)⟩

end Graph

namespace Registry

variable {registry registry' : Registry} {kind : TypeKind} {name : QualifiedName}

theorem Resolved.backed {id : TypeId} {resolution : Resolution}
    (hr : Resolved registry kind name (id, resolution, registry')) (h : registry.graph.Backed) :
    registry'.graph.Backed := by
  cases hr
  case reused   => exact h
  case promoted => exact h.relocate id name.package
  case created  => exact h.newType name.localName name.package

theorem seek_backed (sought : Sought) (name : String) (h : registry.graph.Backed) :
    (registry.seek sought name).2.graph.Backed := by
  rw [← graph_freeze] at h
  rcases seek_resolved sought name with hs | ⟨_, _, _, _, hr, hs⟩ <;> rw [hs]
  case inl => exact h
  case inr => exact hr.backed h

namespace Action

theorem declared_backed (h : registry.graph.Backed) : (declared registry kind name).graph.Backed := by
  have hr : Resolved registry kind name (registry.resolve kind name) := resolve_resolved
  exact hr.backed h

theorem reconcile_backed {key package : String} {interface : TypeId} (hi : registry.Intact)
    (hf : registry.active.find? .interface key package registry.config.defaultPackage = some interface)
    (h : registry.graph.Backed) : (after (reconcile key interface) registry).graph.Backed := by
  rw [after, reconcile_apply]
  cases hp : placeholder? registry key
  case none => exact h
  case some cls =>
    obtain ⟨decl, ho, hl, hne⟩ := hi.replaceable hf hp
    obtain ⟨count, g, erased, hs, he, hg, hd⟩ := Graph.Edit.replace_ok hi.changes.reciprocal ho hl hne
    simp only [hs, he]
    exact h.replace hi.changes.mentionsOnce hne hg hd

theorem buildType_backed (kind : TypeKind) (name : String) (hi : registry.Intact) (h : registry.graph.Backed) :
    (after (buildType kind name) registry).graph.Backed := by
  refine after_buildType (P := fun r => r.graph.Backed) h (declared_backed h) ?_
  rintro rfl
  have hc : Changes (fun _ => False) registry (declared registry .interface (registry.split name)) :=
    declared_changes .interface (split_key name)
  exact reconcile_backed (hc.intact hi) (find?_declared .interface (registry.split name)) (declared_backed h)

end Action

def Op.KeepsBases (op : Op) : Prop :=
  ∀ edit, op = .edit edit → edit.takesAway = false

theorem Op.KeepsBases.keepsTypes {op : Op} (h : op.KeepsBases) : op.KeepsTypes := by
  rintro type rfl
  have := h _ rfl
  simp [Graph.Op.takesAway] at this

theorem Op.backed {op : Op} (hop : op.KeepsBases) (hi : registry.Intact) (h : registry.graph.Backed) :
    (after op.run registry).graph.Backed := by
  cases op
  case build declaration name =>
    cases declaration <;> rw [Op.run, after_returns]
    case type kind => exact Action.buildType_backed kind name hi h
    all_goals refine Action.after_requireWritable (P := fun r => r.graph.Backed) h ?_
    case package  => exact h.of_types_eq (Graph.types_ensurePackage name)
    case function => exact h.of_types_eq (Graph.types_ensurePackage _)
    case method   => exact h.of_types_eq rfl
  case seek sought name => exact seek_backed sought name h
  case finalize         => exact h
  case edit op =>
    rw [Op.run, Action.after_edit]
    exact Graph.Op.backed (hop op rfl) h

theorem Steps.backed (hs : Steps Op.KeepsBases registry registry') (hi : registry.Intact) (h : registry.graph.Backed) :
    registry'.graph.Backed := by
  induction hs
  case refl => exact h
  case step r₁ _ op ha _ hind =>
    have hc : Changes (fun _ => False) r₁ (after op.run r₁) := Op.transitions ha.keepsTypes fun _ _ _ => trivial
    exact hind (hc.intact hi) (Op.backed ha hi h)

-- Unless a dependency is taken away, or a type is replaced or erased directly, whatever a type inherits from is there.
-- It is the type itself, or else the type depends on it, which both of them know.
theorem types_depend_on_bases {id base : TypeId} {type : TypeDecl} (h : registry.Reachable Op.KeepsBases)
    (ht : registry.graph.type? id = some type) (hb : type.parent = some base ∨ base ∈ type.interfaces) :
    ∃ decl, registry.graph.type? base = some decl ∧ (base = id ∨ base ∈ type.dependencies ∧ id ∈ decl.children) := by
  obtain ⟨config, start, hc, hs⟩ := h
  cases create_eq_ok hc
  have hi : registry.Intact := (hs.changes fun t ha => ha.keepsTypes t rfl).intact (.ofConfig config)
  have hk : registry.graph.Backed := hs.backed (.ofConfig config) (.ofConfig config)
  have hb : base ∈ type.bases := by simpa [TypeDecl.bases] using hb
  have hm : base ∈ type.ids := List.mem_append_left _ (List.mem_append_left _ hb)
  obtain ⟨decl, hd⟩ := Graph.contains_type.mp (hi.stored.graph.types id type ht base hm)
  refine ⟨decl, hd, (hk.mem_dependencies ht hb).imp_right fun hm => ⟨hm, ?_⟩⟩
  exact (hi.changes.reciprocal.dependency_iff ht hd).mp hm

-- A class that has got another parent still implements what had been its parent, which turns out to be an interface.
theorem types_depend_on_bases_reparented :
    let registry := (ofConfig {}).perform [.seek .classOrInterface "Shape", .build (.type .cls) "a.Circle",
      .build (.type .cls) "b.Curve", .edit (.setParent ⟨1⟩ ⟨0⟩), .edit (.addInterface ⟨1⟩ ⟨0⟩),
      .edit (.setParent ⟨1⟩ ⟨2⟩), .build (.type .interface) "Shape"]
    ∃ type, registry.graph.type? ⟨1⟩ = some type ∧ type.parent = some ⟨2⟩ ∧ type.interfaces = [⟨3⟩]
      ∧ ∃ decl, registry.graph.type? ⟨3⟩ = some decl ∧ ⟨3⟩ ∈ type.dependencies ∧ ⟨1⟩ ∈ decl.children := by
  intro registry
  have h : registry.Reachable Op.KeepsBases := by
    refine ⟨{}, ofConfig {}, rfl, .perform ?_⟩
    simp [Op.KeepsBases, Graph.Op.takesAway]
  have hs : (registry.graph.type? ⟨1⟩).map (fun t => (t.parent, t.interfaces)) = some (some ⟨2⟩, [⟨3⟩]) := by
    decide +kernel
  obtain ⟨type, ht, he⟩ := Option.map_eq_some_iff.mp hs
  obtain ⟨hp, hi⟩ := Prod.mk.inj he
  have hm : ⟨3⟩ ∈ type.interfaces := by simp [hi]
  obtain ⟨decl, hd, hb⟩ := types_depend_on_bases h ht (.inr hm)
  exact ⟨type, ht, hp, hi, decl, hd, hb.resolve_left (by decide)⟩

end Registry
end PackageCoupling
