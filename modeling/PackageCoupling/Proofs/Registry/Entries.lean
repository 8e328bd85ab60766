import PackageCoupling.Proofs.Registry.Freeze
import PackageCoupling.Proofs.Registry.Persistence

namespace PackageCoupling

namespace Graph

variable {graph graph' : Graph}

theorem next_relocate (type : TypeId) (package : String) :
    (graph.relocate type package).2.types.next = graph.types.next := by
  cases ht : graph.packageOf? type
  case none => rw [relocate, ht]
  case some old =>
    rw [relocate_eq ht]
    split
    case isTrue  => rw [types_ensurePackage]
    case isFalse => simp [moveType, updateType, updatePackage, types_ensurePackage]

theorem types_newFunction (name package : String) : (graph.newFunction name package).2.types = graph.types :=
  types_ensurePackage package

namespace Edit

theorem next_substitute (old new : TypeId) :
    (after (substitute old new) graph).types.next = graph.types.next := by
  let P (g : Graph) : Prop := g.types.next = graph.types.next
  change P _
  refine after_discard_require rfl fun t hn => ?_
  refine after_require rfl fun decl ho => ?_
  have hp : (graph.substitutePlaces old new).types.next = graph.types.next := by simp [substitutePlaces]
  have hd := exchange_rewires new decl.dependencies (old, ·) (new, ·)
  have hc := exchange_rewires new decl.children (·, old) (·, new)
  refine hd.after_bind (fun _ h => h.next_eq.trans hp) fun _ g₁ _ h₁ => ?_
  refine hc.after_bind (fun _ h => (h₁.trans h).next_eq.trans hp) fun _ g₂ _ h₂ => ?_
  have hm : (g₂.moveMembers decl old new).types.next = g₂.types.next := by simp [moveMembers_eq]
  exact (hm.trans (h₁.trans h₂).next_eq).trans hp

theorem next_eraseType (type : TypeId) : (after (eraseType type) graph).types.next = graph.types.next := by
  have he := @eraseType_erasure graph type
  rw [after]
  generalize eraseType type graph = result at he ⊢
  cases he
  case refused hr      => exact hr.next_eq
  case erased hr _ _ _ => simpa [removeType] using hr.next_eq

end Edit
end Graph

namespace Generation

variable {generation : Generation} {kind : TypeKind} {key package default : String} {id : TypeId}

-- A name stands for one type of a kind in each package, and for no other type at all if there is one in the default
-- package.
structure Unambiguous (generation : Generation) (default : String) : Prop where
  once : ∀ kind key, ((generation.named kind key).map (·.package)).Nodup
  alone : ∀ {kind key e}, e ∈ generation.named kind key → e.package = default → generation.named kind key = [e]

namespace Unambiguous

theorem empty : (∅ : Generation).Unambiguous default where
  once _ _  := .nil
  alone h   := by simp [named, EmptyCollection.emptyCollection] at h

theorem remove (h : generation.Unambiguous default) : (generation.remove kind key id).Unambiguous default where
  once kind' key' := by
    rw [named_remove]
    exact (h.once kind' key').sublist (List.filter_sublist.map _)
  alone hm hd := by
    rw [named_remove] at hm ⊢
    obtain ⟨hm, hf⟩ := List.mem_filter.mp hm
    rw [h.alone hm hd, List.filter_singleton, hf, cond_true]

end Unambiguous

theorem once_insert (h : ∀ kind key, ((generation.named kind key).map (·.package)).Nodup)
    (hn : generation.inPackage? kind key package = none) (kind' : TypeKind) (key' : String) :
    (((generation.insert kind key package id).named kind' key').map (·.package)).Nodup := by
  rw [named_insert]
  split
  case isFalse => simpa using h kind' key'
  case isTrue hk =>
    obtain ⟨rfl, rfl⟩ := hk
    have hp : package ∉ (generation.named kind key).map (·.package) := by
      simpa [inPackage?] using hn
    simpa using (h kind key).concat hp

theorem once_relocate (h : ∀ kind key, ((generation.named kind key).map (·.package)).Nodup)
    (ho : generation.only? kind key default = some id) (kind' : TypeKind) (key' : String) :
    (((generation.relocate kind key id package).named kind' key').map (·.package)).Nodup := by
  by_cases hk : kind' = kind ∧ key' = key
  case neg => simpa [named_relocate_of_ne hk] using h kind' key'
  case pos =>
    obtain ⟨rfl, rfl⟩ := hk
    obtain ⟨e, he, _⟩ := only?_eq_some.mp ho
    simp [named_relocate, he]

theorem mem_map_id_remove {id' : TypeId} (h : id' ≠ id) :
    id' ∈ (generation.remove kind key id).entries.map (·.id) ↔ id' ∈ generation.entries.map (·.id) := by
  simp only [remove, List.mem_map, List.mem_filter]
  constructor
  case mp =>
    rintro ⟨e, he, hi⟩
    exact ⟨e, he.left, hi⟩
  case mpr =>
    rintro ⟨e, he, rfl⟩
    exact ⟨e, ⟨he, by simp [h]⟩, rfl⟩

end Generation

namespace Registry

variable {registry registry' start : Registry} {kind : TypeKind} {gone moved : TypeId → Prop} {id : TypeId}
variable {ops : List Op} {op : Op}

def known (registry : Registry) : List TypeId :=
  registry.frozen.entries.map (·.id) ++ registry.active.entries.map (·.id)

structure Catalogued (registry : Registry) : Prop where
  indexed : registry.Indexed
  divided : ∃ date, registry.Divided date
  active : registry.active.Unambiguous registry.config.defaultPackage
  frozen : registry.frozen.Unambiguous registry.config.defaultPackage
  distinct : (registry.frozen.entries.map (·.id)).Nodup

namespace Catalogued

theorem ofConfig (config : Config) : (Registry.ofConfig config).Catalogued where
  indexed  := .ofConfig config
  divided  := ⟨0, .ofConfig config⟩
  active   := .empty
  frozen   := .empty
  distinct := .nil

theorem nodup_known (h : registry.Catalogued) : registry.known.Nodup := by
  obtain ⟨date, hd⟩ := h.divided
  refine List.nodup_append.mpr ⟨h.distinct, h.indexed.distinct, ?_⟩
  intro t ht t' ht'
  obtain ⟨e, he, rfl⟩ := List.mem_map.mp ht
  obtain ⟨e', he', rfl⟩ := List.mem_map.mp ht'
  exact fun hi => Nat.not_lt_of_le (hd.active e' he').left (hi ▸ hd.frozen e he)

theorem contains (h : registry.Catalogued) (hk : id ∈ registry.known) : registry.graph.types.contains id := by
  cases List.mem_append.mp hk
  case inl hk =>
    obtain ⟨e, he, rfl⟩ := List.mem_map.mp hk
    exact (h.indexed.declared e he).left
  case inr hk =>
    obtain ⟨e, he, rfl⟩ := List.mem_map.mp hk
    exact h.indexed.live e he

end Catalogued

theorem Transition.catalogued (hc : Transition (fun _ => False) moved registry registry') (h : registry.Catalogued) :
    registry'.Catalogued := by
  have hi := hc.indexed h.indexed
  have hd := hc.exists_divided h.divided
  cases hc
  case edit | declare | finalize => exact { h with indexed := hi, divided := hd }
  case freeze =>
    rw [Registry.freeze] at hi hd ⊢
    split
    case isTrue     => exact h
    case isFalse hf =>
      rw [if_neg hf] at hi hd
      exact ⟨hi, hd, .empty, h.active, h.indexed.distinct⟩
  case create hn | suppose hn =>
    have hp := (Generation.find?_eq_none.mp hn.unknown).left
    exact { h with indexed := hi, divided := hd, active := ⟨Generation.once_insert h.active.once hp, hi.alone⟩ }
  case promote ho _ _ =>
    exact { h with indexed := hi, divided := hd, active := ⟨Generation.once_relocate h.active.once ho, hi.alone⟩ }
  case reconcile =>
    exact ⟨hi, hd, h.active.remove, h.frozen.remove, h.distinct.sublist (List.filter_sublist.map _)⟩

theorem Transitions.catalogued (hc : Transitions (fun _ => False) moved registry registry') (h : registry.Catalogued) :
    registry'.Catalogued :=
  hc.preserve Transition.catalogued h

theorem known_newType {name : QualifiedName} :
    (registry.newType kind name).2.known = registry.known ++ [registry.graph.types.next] := by
  simp [newType_eq, known, Generation.insert]

theorem Transition.mem_known_iff (hc : Transition gone moved registry registry') (hd : ∃ date, registry.Divided date)
    (hn : id.val < registry.graph.types.next.val) (hl : registry'.graph.types.contains id) :
    id ∈ registry'.known ↔ id ∈ registry.known := by
  have hne : id ≠ registry.graph.types.next := fun he => Nat.ne_of_lt hn (congrArg NodeId.val he)
  cases hc
  case edit | declare | finalize => rfl
  case freeze =>
    rw [Registry.freeze]
    split
    case isTrue     => rfl
    case isFalse hf =>
      obtain ⟨date, hd⟩ := hd
      obtain ⟨rfl, _⟩ := hd.unfrozen (by simpa using hf)
      have he : registry.frozen.entries = [] :=
        List.eq_nil_iff_forall_not_mem.mpr fun e he => Nat.not_lt_zero _ (hd.frozen e he)
      simp [Registry.known, he, EmptyCollection.emptyCollection]
  case create | suppose =>
    change id ∈ (registry.newType _ _).2.known ↔ _
    simp [known_newType, hne]
  case promote => simp only [Registry.known, Registry.promote, Generation.map_id_relocate]
  case reconcile cls _ _ _ _ _ _ _ _ _ _ hg =>
    have hne : id ≠ cls := fun he => hg (he ▸ hl)
    simp only [Registry.known, List.mem_append, Generation.mem_map_id_remove hne]

theorem Transitions.mem_known_iff (hc : Transitions gone moved registry registry')
    (hd : ∃ date, registry.Divided date) (hn : id.val < registry.graph.types.next.val)
    (hl : registry'.graph.types.contains id) : id ∈ registry'.known ↔ id ∈ registry.known := by
  induction hc
  case refl => rfl
  case tail hr hc hi =>
    have hn' := Nat.lt_of_lt_of_le hn (Transitions.lifetime hr).issued
    have hd' := Transitions.preserve hr Transition.exists_divided hd
    exact (hc.mem_known_iff hd' hn' hl).trans (hi (hc.lifetime.dead hn' hl))

def Enrols (registry registry' : Registry) : Prop :=
  ∀ id, registry'.graph.types.contains id → id.val < registry.graph.types.next.val ∨ id ∈ registry'.known

theorem Enrols.of_next (h : registry'.graph.types.next = registry.graph.types.next) : Enrols registry registry' := by
  intro id hl
  exact .inl (h ▸ Arena.lt_next_of_contains hl)

theorem Resolved.enrols {name : QualifiedName} {resolution : Resolution}
    (hr : Resolved registry kind name (id, resolution, registry')) : Enrols registry registry' := by
  cases hr
  case reused   => exact .of_next rfl
  case promoted => exact .of_next (Graph.next_relocate id name.package)
  case created =>
    intro t hl
    have hn : (registry.newType kind name).2.graph.types.next.val = registry.graph.types.next.val + 1 := by
      simp [newType_eq, Graph.newType_eq, Graph.addType, Graph.types_ensurePackage, Arena.next_push]
    have hlt := Arena.lt_next_of_contains hl
    rw [hn] at hlt
    refine (Nat.lt_succ_iff_lt_or_eq.mp hlt).imp_right fun he => ?_
    have he : t = registry.graph.types.next := NodeId.ext he
    simp [known_newType, he]

theorem seek_enrols (sought : Sought) (name : String) : Enrols registry (registry.seek sought name).2 := by
  rcases seek_resolved sought name with hs | ⟨_, _, _, _, hr, hs⟩ <;> rw [hs]
  case inl => exact .of_next (by rw [graph_freeze])
  case inr =>
    have he := hr.enrols
    rw [Enrols, graph_freeze] at he
    exact he

namespace Action

theorem next_reconcile (key : String) (interface : TypeId) :
    (after (reconcile key interface) registry).graph.types.next = registry.graph.types.next := by
  refine graph_reconcile (P := fun graph => graph.types.next = registry.graph.types.next) rfl ?_ ?_
  case refine_1 =>
    intro cls
    exact Graph.Edit.next_substitute cls interface
  case refine_2 =>
    intro cls graph hn
    exact (Graph.Edit.next_eraseType cls).trans hn

theorem declared_enrols {name : QualifiedName} : Enrols registry (declared registry kind name) := by
  have hr : Resolved registry kind name (registry.resolve kind name) := resolve_resolved
  exact hr.enrols

theorem buildType_enrols (hd : ∃ date, registry.Divided date) (name : String) :
    Enrols registry (after (buildType kind name) registry) := by
  refine after_buildType (.of_next rfl) declared_enrols ?_
  rintro rfl id hl
  have hr : Changes (fun _ => False) registry (declared registry .interface (registry.split name)) :=
    declared_changes .interface (split_key name)
  have hc : Changes (fun _ => False) (declared registry .interface (registry.split name)) _ :=
    reconcile_changes (find?_declared .interface (registry.split name))
  have hn : id.val < (declared registry .interface (registry.split name)).graph.types.next.val :=
    next_reconcile _ _ ▸ Arena.lt_next_of_contains hl
  refine (declared_enrols id (hc.lifetime.dead hn hl)).imp_right fun hk => ?_
  exact (hc.mem_known_iff (hr.preserve Transition.exists_divided hd) hn hl).mpr hk

end Action

theorem Op.enrols (ho : op.IsOwn) (hd : ∃ date, registry.Divided date) :
    Enrols registry (after op.run registry) := by
  cases op
  case edit edit        => exact absurd rfl (ho edit)
  case finalize         => exact .of_next rfl
  case seek sought name => exact seek_enrols sought name
  case build declaration name =>
    cases declaration <;> rw [Op.run, after_returns]
    case type kind => exact Action.buildType_enrols hd name
    all_goals refine Action.after_requireWritable (.of_next rfl) (.of_next ?_)
    case package  => exact congrArg (·.next) (Graph.types_ensurePackage name)
    case function => exact congrArg (·.next) (Graph.types_newFunction _ _)
    case method   => rfl

-- In the course of operations a type has come into being by one on the registry itself, and not by an edit of its
-- graph.
def Created (start : Registry) (ops : List Op) (id : TypeId) : Prop :=
  ∃ before op rest, ops = before ++ op :: rest ∧ op.IsOwn ∧ ¬ (start.perform before).graph.types.contains id
    ∧ (after op.run (start.perform before)).graph.types.contains id

namespace Created

theorem concat_iff : Created start (ops ++ [op]) id ↔
    Created start ops id ∨ op.IsOwn ∧ ¬ (start.perform ops).graph.types.contains id
      ∧ (after op.run (start.perform ops)).graph.types.contains id :=
  exists_split_concat

theorem issued (h : Created start ops id) : id.val < (start.perform ops).graph.types.next.val := by
  induction ops using List.reverseRecOn
  case nil =>
    obtain ⟨before, op, rest, he, _⟩ := h
    simp at he
  case append_singleton ops op hi =>
    have ho : Changes (fun _ => True) (start.perform ops) (after op.run (start.perform ops)) :=
      Op.transitions (fun _ _ => trivial) fun _ _ _ => trivial
    rw [perform_concat]
    cases concat_iff.mp h
    case inl h => exact Nat.lt_of_lt_of_le (hi h) ho.lifetime.issued
    case inr h => exact Arena.lt_next_of_contains h.right.right

end Created

theorem catalogued_perform {config : Config} (hc : create config = .ok start) (hk : ∀ op ∈ ops, op.KeepsTypes) :
    (start.perform ops).Catalogued :=
  create_eq_ok hc ▸ (Steps.perform hk).keep.catalogued (.ofConfig config)

theorem mem_known_perform {config : Config} (hc : create config = .ok start) (hk : ∀ op ∈ ops, op.KeepsTypes) :
    id ∈ (start.perform ops).known ↔ (start.perform ops).graph.types.contains id ∧ Created start ops id := by
  induction ops using List.reverseRecOn
  case nil =>
    have hn : start.known = [] := create_eq_ok hc ▸ rfl
    simp [perform, hn, Created]
  case append_singleton ops op hi =>
    have hk' : ∀ op ∈ ops, op.KeepsTypes := fun o ho => hk o (List.mem_append_left _ ho)
    have h := catalogued_perform hc hk'
    have h' := catalogued_perform hc hk
    have ho : Changes (fun _ => False) (start.perform ops) (after op.run (start.perform ops)) :=
      Op.transitions (fun t ht => hk op (by simp) t ht) fun _ _ _ => trivial
    rw [perform_concat] at h' ⊢
    refine and_iff_right_of_imp h'.contains |>.symm.trans (and_congr_right fun hl => ?_)
    rw [Created.concat_iff]
    -- A type that is older than the operation is known as before. One that is not is known just if it has come into
    -- being through the registry.
    by_cases hn : id.val < (start.perform ops).graph.types.next.val
    case pos =>
      have hl₀ := ho.lifetime.dead hn hl
      rw [ho.mem_known_iff h.divided hn hl, hi hk']
      simp [hl₀]
    case neg =>
      have hl₀ : ¬ (start.perform ops).graph.types.contains id := fun hl => hn (Arena.lt_next_of_contains hl)
      rw [or_iff_right fun hc => hn (Created.issued hc), and_iff_left ⟨hl₀, hl⟩]
      constructor
      case mpr => exact fun ho => (Op.enrols ho h.divided id hl).resolve_left hn
      case mp =>
        rintro hm edit rfl
        rw [Op.run, Action.after_edit] at hm
        exact hl₀ (h.contains hm)

-- As long as no type is erased directly, no name is ambiguous in either generation, and every type that is there and
-- has been brought about by the registry is entered once, in one of the generations. No other type is entered.
theorem types_are_entered_once {config : Config} (hc : create config = .ok start)
    (hk : ∀ op ∈ ops, op.KeepsTypes) :
    let registry := start.perform ops
    registry.active.Unambiguous registry.config.defaultPackage
    ∧ registry.frozen.Unambiguous registry.config.defaultPackage
    ∧ registry.known.Nodup
    ∧ ∀ id, registry.known.count id = 1 ↔ registry.graph.types.contains id ∧ Created start ops id := by
  intro registry
  have h : registry.Catalogued := catalogued_perform hc hk
  refine ⟨h.active, h.frozen, h.nodup_known, ?_⟩
  intro id
  rw [← mem_known_perform hc hk]
  constructor
  case mp  => exact fun hn => List.count_pos_iff.mp (by simp [registry, hn])
  case mpr => exact List.count_eq_one_of_mem h.nodup_known

-- An interface has replaced a class, and a type has been added to the graph that the registry does not know.
theorem types_are_entered_once_replaced :
    let before : List Op := [.build (.type .cls) "Shape", .seek .classOrInterface "Circle",
      .edit (.newType .cls "Square" "app")]
    let ops : List Op := before ++ [.build (.type .interface) "Circle"]
    create {} = .ok (ofConfig {}) ∧ (∀ op ∈ ops, op.KeepsTypes)
    ∧ ((ofConfig {}).perform ops).known.count ⟨3⟩ = 1
    ∧ ¬ ((ofConfig {}).perform ops).graph.types.contains ⟨1⟩ ∧ ¬ Created (ofConfig {}) ops ⟨2⟩ := by
  intro before ops
  have hc : create {} = .ok (ofConfig {}) := rfl
  have hk : ∀ op ∈ ops, op.KeepsTypes := by simp [ops, before, Op.KeepsTypes]
  obtain ⟨hn, hl, hd, hs, hm⟩ : ¬ ((ofConfig {}).perform before).graph.types.contains ⟨3⟩
      ∧ ((ofConfig {}).perform ops).graph.types.contains ⟨3⟩ ∧ ¬ ((ofConfig {}).perform ops).graph.types.contains ⟨1⟩
      ∧ ((ofConfig {}).perform ops).graph.types.contains ⟨2⟩ ∧ ((ofConfig {}).perform ops).known.count ⟨2⟩ ≠ 1 := by
    decide +kernel
  obtain ⟨_, _, _, he⟩ := types_are_entered_once hc hk
  have hp : (ofConfig {}).perform ops = after (Op.run (.build (.type .interface) "Circle")) _ := perform_concat
  have ho : Created (ofConfig {}) ops ⟨3⟩ := ⟨before, _, [], rfl, by simp [Op.IsOwn], hn, hp ▸ hl⟩
  exact ⟨hc, hk, (he ⟨3⟩).mpr ⟨hl, ho⟩, hd, fun hc => hm ((he ⟨2⟩).mpr ⟨hs, hc⟩)⟩

end Registry
end PackageCoupling
