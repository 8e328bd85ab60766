import PackageCoupling.Proofs.Graph.Mentions
import PackageCoupling.Proofs.Graph.Ownership
import PackageCoupling.Proofs.Graph.Substitute
import PackageCoupling.Proofs.Registry.Names

namespace PackageCoupling

variable {old new : TypeId}

theorem not_mem_substituteSlot {slot : Option TypeId} (hne : old ≠ new) : old ∉ substituteSlot old new slot := by
  rw [substituteSlot]
  split
  case isTrue    => simpa using Ne.symm hne
  case isFalse h => exact h

theorem Distinct.not_mem_substitute {types : List TypeId} (hd : types.Nodup) (hne : old ≠ new) :
    old ∉ Distinct.substitute old new types := by
  rw [mem_substitute hd hne]
  simp [hne]

namespace Graph

variable {graph g : Graph} {decl : TypeDecl}

theorem type?_of_replace {id : TypeId} {type' : TypeDecl} (hg : Rewires (graph.substitutePlaces old new) g)
    (ht' : ((g.moveMembers decl old new).removeType old decl.package).type? id = some type') :
    ∃ type, graph.type? id = some type ∧ type'.parent = substituteSlot old new type.parent
      ∧ type'.interfaces = Distinct.substitute old new type.interfaces := by
  have hm : (g.moveMembers decl old new).type? id = some type' := by
    simp only [removeType, type?, Arena.get?_erase] at ht'
    split at ht'
    case isTrue  => simp at ht'
    case isFalse => exact ht'
  rw [type?_moveMembers] at hm
  obtain ⟨type₁, ht₁, he⟩ := Option.map_eq_some_iff.mp hm
  have hb := congrArg (·.types.get? id) hg.bare
  simp only [bare, substitutePlaces, Arena.get?_map, Option.map_map] at hb
  rw [← type?, ht₁] at hb
  obtain ⟨type, ht, hb⟩ := Option.map_eq_some_iff.mp hb.symm
  have hp : type'.parent = type₁.parent ∧ type'.interfaces = type₁.interfaces := by
    subst he
    split <;> split <;> exact ⟨rfl, rfl⟩
  exact ⟨type, ht, hp.left.trans (congrArg TypeDecl.parent hb).symm,
    hp.right.trans (congrArg TypeDecl.interfaces hb).symm⟩

theorem mentionsOnly_replace (hw : graph.Ownership) (hm : graph.MentionsOnce) (ho : graph.type? old = some decl)
    (hne : old ≠ new) (hg : Rewires (graph.substitutePlaces old new) g)
    (hw' : ((g.moveMembers decl old new).removeType old decl.package).Ownership)
    (hr' : ((g.moveMembers decl old new).removeType old decl.package).Reciprocal) :
    ((g.moveMembers decl old new).removeType old decl.package).MentionsOnly (· ≠ old) := by
  have hl {t : TypeId} (ht : ((g.moveMembers decl old new).removeType old decl.package).types.contains t) :
      t ≠ old := by
    rintro rfl
    exact not_contains_removeType ht
  constructor
  case packages =>
    intro i p hp t ht
    obtain ⟨n, hn, _⟩ := Option.bind_eq_some_iff.mp ((hw'.types.mem_iff hp).mp ht)
    exact hl (Arena.contains_of_get? hn)
  case types =>
    intro i t' ht' u hu
    obtain ⟨t, ht, hp, hi⟩ := type?_of_replace hg ht'
    simp only [TypeDecl.ids, List.mem_append, Option.mem_toList, hp, hi] at hu
    rintro rfl
    rcases hu with ((hu | hu) | hu) | hu
    · exact not_mem_substituteSlot hne hu
    · exact Distinct.not_mem_substitute (hm.interfaces i t ht) hne hu
    · exact hl (hr'.dependency_live ht' hu) rfl
    · exact hl (hr'.child_live ht' hu) rfl
  case callables =>
    intro i c' hc' u hu
    obtain ⟨c, hc, rfl⟩ := Option.map_eq_some_iff.mp ((callable?_of_substitute hg).symm.trans hc')
    have hi : i ∈ decl.methods ↔ c.owner = some old := by
      rw [hw.methods.mem_iff ho, ← callable?, hc, Option.bind_some]
    have hd := Distinct.not_mem_substitute (hm.uses i c hc) hne
    have hx := Distinct.not_mem_substitute (hm.exceptions i c hc) hne
    have hr := @not_mem_substituteSlot _ _ c.returnType hne
    rintro rfl
    simp only [Callable.ids] at hu
    split at hu <;> simp_all [Callable.substitute]
  case parameters =>
    intro i p' hp' u hu
    obtain ⟨p, hp, rfl⟩ := Option.map_eq_some_iff.mp ((parameter?_of_substitute hg).symm.trans hp')
    rintro rfl
    exact not_mem_substituteSlot hne hu
  case properties =>
    intro i p' hp' u hu
    obtain ⟨p, hp, rfl⟩ := Option.map_eq_some_iff.mp ((property?_of_substitute hg).symm.trans hp')
    have hi : i ∈ decl.properties ↔ p.owner = old := by
      rw [hw.properties.mem_iff ho, ← property?, hp, Option.bind_some, Option.some_inj]
    have ht := @not_mem_substituteSlot _ _ p.type hne
    rintro rfl
    simp only [Property.ids] at hu
    split at hu <;> simp_all
  case constants =>
    intro i c' hc' u hu
    obtain ⟨c, hc, rfl⟩ := Option.map_eq_some_iff.mp ((constant?_of_substitute hg).symm.trans hc')
    have hi : i ∈ decl.constants ↔ c.owner = old := by
      rw [hw.constants.mem_iff ho, ← constant?, hc, Option.bind_some, Option.some_inj]
    have ht := @not_mem_substituteSlot _ _ c.target hne
    rintro rfl
    simp only [Constant.ids] at hu
    split at hu <;> simp_all

end Graph

namespace Registry

variable {registry registry' : Registry} {moved P Q : TypeId → Prop}

-- Every id of a type that is stored anywhere in the registry has a property.
structure StoresOnly (registry : Registry) (P : TypeId → Prop) : Prop where
  graph : registry.graph.MentionsOnly P
  active : ∀ e ∈ registry.active.entries, P e.id
  frozen : ∀ e ∈ registry.frozen.entries, P e.id
  placeholders : ∀ id ∈ registry.placeholders, P id

theorem StoresOnly.mono (h : registry.StoresOnly P) (hs : ∀ t, P t → Q t) : registry.StoresOnly Q where
  graph := h.graph.mono hs
  active e he := hs _ (h.active e he)
  frozen e he := hs _ (h.frozen e he)
  placeholders id hi := hs _ (h.placeholders id hi)

-- No id of a type that is gone is left in the registry.
structure Intact (registry : Registry) : Prop where
  indexed : registry.Indexed
  changes : Graph.Changes (fun _ => True) ∅ registry.graph
  stored : registry.StoresOnly (registry.graph.types.contains ·)

theorem Indexed.ne_of_kind_ne {kind kind' : TypeKind} {key key' : String} {e e' : Entry} (h : registry.Indexed)
    (he : e ∈ registry.active.named kind key) (he' : e' ∈ registry.active.named kind' key') (hk : kind ≠ kind') :
    e.id ≠ e'.id := by
  have ⟨hm, hk₁, _⟩ := Generation.mem_named.mp he
  have ⟨hm', hk₂, _⟩ := Generation.mem_named.mp he'
  intro hi
  have := List.inj_on_of_nodup_map h.distinct hm hm' hi
  exact hk (hk₁.symm.trans (this ▸ hk₂))

namespace Intact

theorem ofConfig (config : Config) : (Registry.ofConfig config).Intact := by
  have hc {gone} : Graph.Changes gone ∅ (Registry.ofConfig config).graph :=
    Graph.ensurePackage_changes config.defaultPackage
  have hi := Indexed.ofConfig config
  refine ⟨hi, hc, ?_, hi.live, fun e he => (hi.declared e he).left, nofun⟩
  have hn : Graph.Changes (fun _ => False) ∅ (Registry.ofConfig config).graph := hc
  exact hn.mentionsOnly .empty (fun _ => False.elim) fun _ => id

theorem replaceable {key package : String} {cls interface : TypeId} (h : registry.Intact)
    (hi : registry.active.find? .interface key package registry.config.defaultPackage = some interface)
    (hp : Action.placeholder? registry key = some cls) :
    ∃ decl, registry.graph.type? cls = some decl ∧ registry.graph.types.contains interface ∧ cls ≠ interface := by
  obtain ⟨e, hn, _, rfl⟩ := h.indexed.named_placeholder hp
  obtain ⟨e', hm', rfl, _⟩ := Generation.exists_entry_of_find? hi
  have hm : e ∈ registry.active.named .cls key := hn ▸ List.mem_singleton_self e
  obtain ⟨decl, ho⟩ := Arena.contains_iff.mp (h.indexed.live e (Generation.mem_named.mp hm).left)
  have hl := h.indexed.live e' (Generation.mem_named.mp hm').left
  exact ⟨decl, ho, hl, h.indexed.ne_of_kind_ne hm hm' (by decide)⟩

theorem replace {key package : String} {cls interface : TypeId} (h : registry.Intact)
    (hi : registry.active.find? .interface key package registry.config.defaultPackage = some interface)
    (hp : Action.placeholder? registry key = some cls) :
    ∃ count graph₁ erased graph, Graph.Edit.substitute cls interface registry.graph = .ok count graph₁
      ∧ Graph.Edit.eraseType cls graph₁ = .ok erased graph ∧ ¬ graph.types.contains cls
      ∧ graph.MentionsOnly (· ≠ cls) := by
  obtain ⟨decl, ho, hl, hne⟩ := h.replaceable hi hp
  obtain ⟨count, g, erased, hs, he, hg, _⟩ := Graph.Edit.replace_ok h.changes.reciprocal ho hl hne
  refine ⟨count, _, erased, _, hs, he, Graph.not_contains_removeType, ?_⟩
  have h₁ := (@Graph.Edit.substitute_changing (fun _ => True) (fun _ => True) cls interface).of_ok hs
  have h₂ := (@Graph.Edit.eraseType_changing (fun _ => True) (fun _ => True) cls trivial).of_ok he
  have hc := (h.changes.trans h₁).trans h₂
  exact Graph.mentionsOnly_replace h.changes.ownership h.changes.mentionsOnce ho hne hg
    (Graph.Transitions.ownership hc) (Graph.Transitions.reciprocal hc)

end Intact

theorem Transition.intact (hc : Transition (fun _ => False) moved registry registry') (h : registry.Intact) :
    registry'.Intact := by
  have hi := hc.indexed h.indexed
  have hg : Graph.Changes (fun _ => True) registry.graph registry'.graph :=
    hc.graph (fun _ => False.elim) (fun _ _ => trivial) (fun _ _ => trivial) fun _ _ => trivial
  refine ⟨hi, h.changes.trans hg, ?_⟩
  -- Only if a type goes there is more to it than that new mentions are mentions of what is there.
  have hk (hg : Graph.Changes (fun _ => False) registry.graph registry'.graph)
      (hp : ∀ t ∈ registry'.placeholders, t ∈ registry.placeholders ∨ registry'.graph.types.contains t) :
      registry'.StoresOnly (registry'.graph.types.contains ·) := by
    have hs (t : TypeId) (ht : registry.graph.types.contains t) : registry'.graph.types.contains t :=
      hg.lifetime.stays ht fun h => h
    refine ⟨?_, hi.live, fun e he => (hi.declared e he).left, fun t ht => ?_⟩
    case refine_1 => exact hg.mentionsOnly (h.stored.graph.mono hs) (fun _ => False.elim) fun _ => id
    case refine_2 => exact (hp t ht).elim (fun hp => hs t (h.stored.placeholders t hp)) id
  cases hc
  case edit he    => exact hk (he.mono (fun _ => id) fun _ _ => trivial) fun _ => .inl
  case freeze     =>
    refine hk (graph_freeze ▸ .refl) ?_
    rw [Registry.freeze]
    split <;> exact fun _ => .inl
  case create     => exact hk (Graph.newType_changes _ _ _) fun _ => .inl
  case suppose kind name _ _ _ =>
    refine hk (Graph.newType_changes _ _ _) fun t ht => (Distinct.mem_add.mp ht).imp_right ?_
    rintro rfl
    exact Graph.contains_newType kind name.localName name.package
  case promote    => exact hk (Graph.relocate_changes _ _) fun _ => .inl
  case declare    => exact hk .refl fun _ ht => .inl (Distinct.mem_remove.mp ht).left
  case finalize   => exact hk .refl fun _ => .inl
  case reconcile cls interface count graph₁ erased graph hf hs he hp hr hl =>
    have hr : Graph.Changes (· = cls) registry.graph graph := hr rfl
    have hs' (t : TypeId) (ht : registry.graph.types.contains t) (hn : t ≠ cls) : graph.types.contains t :=
      hr.lifetime.stays ht hn
    obtain ⟨_, _, _, _, hs₂, he₂, _, hm⟩ := h.replace hf hp
    cases hs.symm.trans hs₂
    cases he.symm.trans he₂
    refine ⟨?_, hi.live, fun e he => (hi.declared e he).left, fun t ht => ?_⟩
    case refine_1 =>
      have hm' : graph.MentionsOnly fun t => t ≠ cls → graph.types.contains t :=
        hr.mentionsOnly (h.stored.graph.mono hs') (fun t he hn => absurd he hn) fun _ ht _ => ht
      exact (hm.and hm').mono fun t ht => ht.right ht.left
    case refine_2 =>
      obtain ⟨ht, hn⟩ := Distinct.mem_remove.mp ht
      exact hs' t (h.stored.placeholders t ht) hn

theorem Transitions.intact (hc : Transitions (fun _ => False) moved registry registry') (h : registry.Intact) :
    registry'.Intact :=
  hc.preserve Transition.intact h

theorem Reachable.intact (h : registry.Reachable Op.KeepsTypes) : registry.Intact := by
  have ⟨config, hc⟩ : ∃ config, Changes (fun _ => False) (Registry.ofConfig config) registry :=
    h.changes fun type ht => ht type rfl
  exact hc.intact (.ofConfig config)

-- Types do not come back, so nothing of a type that is gone is ever stored again.
theorem Intact.forgets {type : TypeId} (h : registry.Intact) (hn : type.val < registry.graph.types.next.val)
    (hl : ¬ registry.graph.types.contains type) (hc : Transitions (fun _ => False) moved registry registry') :
    registry'.StoresOnly (· ≠ type) := by
  refine (hc.intact h).stored.mono ?_
  rintro t ht rfl
  exact hl (hc.lifetime.dead hn ht)

section

variable {kind kind' : TypeKind} {name : QualifiedName} {key : String} {cls id : TypeId}

theorem Resolved.named_of_ne {resolution : Resolution} (hr : Resolved registry kind name (id, resolution, registry'))
    (hk : ¬(kind' = kind ∧ key = name.key)) : registry'.active.named kind' key = registry.active.named kind' key := by
  cases hr
  case reused   => rfl
  case promoted => exact Generation.named_relocate_of_ne hk
  case created  =>
    rw [newType_eq, Generation.named_insert, if_neg fun he => hk ⟨he.left.symm, he.right.symm⟩, List.append_nil]

theorem Indexed.placeholder?_of_named {e : Entry} (h : registry.Indexed) (hn : registry.active.named .cls key = [e])
    (hd : e.package = registry.config.defaultPackage) (hp : e.id ∈ registry.placeholders) :
    Action.placeholder? registry key = some e.id := by
  have hf : (registry.frozen.inPackage? .cls key registry.config.defaultPackage).filter (· ∈ registry.placeholders)
      = none := by
    rw [Option.filter_eq_none_iff]
    intro id hi
    obtain ⟨e', he', rfl⟩ := Option.map_eq_some_iff.mp hi
    have hm := (Generation.mem_named.mp (List.mem_of_find?_eq_some he')).left
    simpa using (h.declared e' hm).right
  rw [Action.placeholder?, List.findSome?_cons, hf]
  simp [Generation.inPackage?, hn, hd, hp]

theorem Indexed.placeholder?_declared (h : registry.Indexed) (hk : name.key = Text.lowercase name.localName)
    (hp : Action.placeholder? registry key = some cls) :
    Action.placeholder? (Action.declared registry .interface name) key = some cls := by
  have hr : Resolved registry .interface name (registry.resolve .interface name) := resolve_resolved
  have hc : Changes (fun _ => False) registry (Action.declared registry .interface name) :=
    Action.declared_changes .interface hk
  have hi := hc.indexed h
  obtain ⟨e, hn, hd, rfl⟩ := h.named_placeholder hp
  have hn' : (Action.declared registry .interface name).active.named .cls key = [e] :=
    (hr.named_of_ne (by simp)).trans hn
  refine hi.placeholder?_of_named hn' (hc.config_eq ▸ hd) ?_
  obtain ⟨e', he', hi', _⟩ := Generation.exists_entry_of_find? (@Action.find?_declared registry .interface name)
  have hq : (registry.resolve .interface name).2.2.placeholders = registry.placeholders :=
    congrArg (·.placeholders) hr.frame
  refine Distinct.mem_remove.mpr ⟨hq ▸ (placeholder?_eq_some hp).left, ?_⟩
  exact hi' ▸ hi.ne_of_kind_ne (hn' ▸ List.mem_singleton_self e) he' (by decide)

theorem Intact.buildType_interface {name : String} (h : registry.Intact) (hf : registry.isFinalized = false)
    (hp : Action.placeholder? registry (registry.split name).key = some cls) :
    ∃ id r, Action.buildType .interface name registry = .ok id r ∧ ¬ r.graph.types.contains cls := by
  have hc : Changes (fun _ => False) registry (Action.declared registry .interface (registry.split name)) :=
    Action.declared_changes .interface (split_key name)
  have hp' := h.indexed.placeholder?_declared (@split_key registry name) hp
  obtain ⟨count, graph₁, erased, graph, hs, he, hl, _⟩ :=
    (hc.intact h).replace (Action.find?_declared .interface (registry.split name)) hp'
  rw [Action.buildType_apply, if_neg (by simp [hf])]
  simp only [if_true, Action.reconcile_apply, hp', hs, he]
  exact ⟨_, _, rfl, hl⟩

end

-- As long as no type is erased directly, all ids of types that are stored anywhere are those of types that are there.
-- An interface that is declared takes the place of the class that had been assumed in its stead, and nothing of
-- that class is ever stored again.
theorem stored_ids_are_live (h : registry.Reachable Op.KeepsTypes) :
    registry.StoresOnly (registry.graph.types.contains ·)
    ∧ (∀ name cls, registry.isFinalized = false →
      Action.placeholder? registry (registry.split name).key = some cls →
      ∃ id r, Action.buildType .interface name registry = .ok id r ∧ ¬ r.graph.types.contains cls)
    ∧ ∀ name id r cls, Action.buildType .interface name registry = .ok id r → registry.graph.types.contains cls →
      ¬ r.graph.types.contains cls → ∀ r', Steps Op.KeepsTypes r r' → r'.StoresOnly (· ≠ cls) := by
  have hi := h.intact
  refine ⟨hi.stored, ?replaced, ?forgotten⟩
  case replaced  => exact fun name cls hf hp => hi.buildType_interface hf hp
  case forgotten =>
    intro name id r cls hb hl hn r' hs
    have hc : Changes (fun _ => False) registry r := Action.changes_of_buildType hb
    have ⟨_, ht⟩ := Arena.contains_iff.mp hl
    exact (hc.intact hi).forgets (Nat.lt_of_lt_of_le (Arena.lt_next ht) hc.lifetime.issued) hn hs.keep

-- A type that has been asked for, that a class inherits from and that has a method, turns out to be an interface.
theorem stored_ids_are_live_replaced :
    let registry := (ofConfig {}).perform [.seek .classOrInterface "Shape", .build (.type .cls) "a.Circle",
      .edit (.setParent ⟨1⟩ ⟨0⟩), .edit (.connect ⟨1⟩ ⟨0⟩), .build .method "area", .edit (.attachMethod ⟨0⟩ ⟨0⟩)]
    registry.graph.types.contains ⟨0⟩ ∧ Action.placeholder? registry (registry.split "Shape").key = some ⟨0⟩
      ∧ ∃ id r, Action.buildType .interface "Shape" registry = .ok id r ∧ r.StoresOnly (· ≠ ⟨0⟩) := by
  intro registry
  have h : registry.Reachable Op.KeepsTypes := by
    refine ⟨{}, ofConfig {}, rfl, .perform ?_⟩
    simp [Op.KeepsTypes]
  obtain ⟨hl, hp, hf⟩ : registry.graph.types.contains ⟨0⟩
      ∧ Action.placeholder? registry (registry.split "Shape").key = some ⟨0⟩ ∧ registry.isFinalized = false := by
    decide +kernel
  obtain ⟨_, hr, hs⟩ := stored_ids_are_live h
  obtain ⟨id, r, hb, hn⟩ := hr "Shape" ⟨0⟩ hf hp
  exact ⟨hl, hp, id, r, hb, hs "Shape" id r ⟨0⟩ hb hl hn r .refl⟩

end Registry
end PackageCoupling
