import PackageCoupling.Proofs.Graph.Refusal
import PackageCoupling.Proofs.Registry.Freeze
import PackageCoupling.Proofs.Registry.Persistence

namespace PackageCoupling

namespace Graph.Edit

variable {graph : Graph} {type : TypeId}

theorem after_eraseType_of_not_contains (h : ¬ graph.types.contains type) : after (eraseType type) graph = graph := by
  have ht : graph.type? type = none := by simpa [Arena.contains, type?] using h
  rw [after, eraseType, bind_apply, requireType_apply, ht]

theorem not_contains_eraseType (h : graph.Reciprocal) : ¬ (after (eraseType type) graph).types.contains type := by
  by_cases ht : graph.types.contains type
  case pos =>
    obtain ⟨decl, graph', he⟩ := eraseType_of_contains h ht
    have hr := @eraseType_erasure graph type
    rw [he] at hr
    rw [after, he]
    cases hr
    exact not_contains_removeType
  case neg => rwa [after_eraseType_of_not_contains ht]

end Graph.Edit

namespace Registry

variable {registry registry' start : Registry} {kind : TypeKind} {gone gone' moved : TypeId → Prop} {id : TypeId}
variable {ops : List Op} {op : Op}

-- The types that names stand for are there, except for those of which `gone` holds. In the active generation no type
-- goes by two names.
structure Accounted (registry : Registry) (gone : TypeId → Prop) : Prop where
  divided : ∃ date, registry.Divided date
  distinct : (registry.active.entries.map (·.id)).Nodup
  active : ∀ e ∈ registry.active.entries, gone e.id ∨ registry.graph.types.contains e.id
  frozen : ∀ e ∈ registry.frozen.entries, gone e.id ∨ registry.graph.types.contains e.id

namespace Accounted

theorem ofConfig (config : Config) : (Registry.ofConfig config).Accounted gone where
  divided    := ⟨0, .ofConfig config⟩
  distinct   := .nil
  active e h := by simp [Registry.ofConfig, EmptyCollection.emptyCollection] at h
  frozen e h := by simp [Registry.ofConfig, EmptyCollection.emptyCollection] at h

theorem mono (h : registry.Accounted gone) (hg : ∀ t, gone t → gone' t) : registry.Accounted gone' :=
  { h with
    active e he := (h.active e he).imp_left (hg e.id)
    frozen e he := (h.frozen e he).imp_left (hg e.id) }

theorem exists_placeholder {key : String} {cls : TypeId} (h : registry.Accounted gone)
    (hp : Action.placeholder? registry key = some cls) : ∃ e ∈ registry.active.named .cls key, e.id = cls := by
  obtain ⟨date, hd⟩ := h.divided
  obtain ⟨hc, e, he, _, hi⟩ := placeholder?_eq_some hp
  cases he
  case inl he => exact absurd (hi ▸ hc) (hd.not_mem_placeholders e (Generation.mem_named.mp he).left)
  case inr he => exact ⟨e, he, hi⟩

theorem newType {name : QualifiedName} (h : registry.Accounted gone) :
    (registry.newType kind name).2.Accounted gone := by
  obtain ⟨date, hd⟩ := h.divided
  have hs {t : TypeId} (ht : gone t ∨ registry.graph.types.contains t) :
      gone t ∨ (registry.newType kind name).2.graph.types.contains t := ht.imp_right Indexed.contains_newType
  have he : (registry.newType kind name).2.active = registry.active.insert kind name.key name.package
      (registry.newType kind name).1 := rfl
  constructor
  case divided => exact ⟨date, hd.newType⟩
  case distinct =>
    have hf : (registry.newType kind name).1 ∉ registry.active.entries.map (·.id) := by
      intro hm
      obtain ⟨e, hm, hi⟩ := List.mem_map.mp hm
      have hl := (hd.active e hm).right
      rw [hi, newType_eq] at hl
      exact Nat.lt_irrefl _ hl
    simp only [he, Generation.insert, List.map_append, List.map_cons, List.map_nil]
    exact List.concat_eq_append ▸ h.distinct.concat hf
  case active =>
    intro e hm
    simp only [he, Generation.insert, List.mem_append, List.mem_singleton] at hm
    cases hm
    case inl hm => exact hs (h.active e hm)
    case inr hm => exact .inr (hm ▸ Graph.contains_newType kind name.localName name.package)
  case frozen => exact fun e hm => hs (h.frozen e hm)

end Accounted

-- Only what is erased directly is missing. A registry forgets the names of what it erases of its own accord.
theorem Transition.accounted (hc : Transition gone moved registry registry') (h : registry.Accounted gone) :
    registry'.Accounted gone := by
  have hd := hc.exists_divided h.divided
  cases hc
  case edit graph hg =>
    have hs {t : TypeId} (ht : gone t ∨ registry.graph.types.contains t) : gone t ∨ graph.types.contains t := by
      by_cases hn : gone t
      case pos => exact .inl hn
      case neg => exact .inr (hg.lifetime.stays (ht.resolve_left hn) hn)
    exact { h with
      divided     := hd
      active e he := hs (h.active e he)
      frozen e he := hs (h.frozen e he) }
  case freeze =>
    rw [Registry.freeze] at hd ⊢
    split
    case isTrue => exact h
    case isFalse hf =>
      rw [if_neg hf] at hd
      exact {
        divided     := hd
        distinct    := .nil
        active e he := by simp [EmptyCollection.emptyCollection] at he
        frozen      := h.active }
  case create  => exact h.newType
  case suppose => exact { h.newType with divided := hd }
  case promote kind name id hf ho hp hl =>
    have hg : Graph.Changes (fun _ => False) registry.graph (registry.promote kind name id).graph :=
      Graph.relocate_changes id name.package
    have hs {t : TypeId} (ht : gone t ∨ registry.graph.types.contains t) :
        gone t ∨ (registry.promote kind name id).graph.types.contains t :=
      ht.imp_right fun ht => hg.lifetime.stays ht fun h => h
    refine { divided := hd, distinct := ?_, active := ?_, frozen := fun e he => hs (h.frozen e he) }
    case refine_1 =>
      rw [Registry.promote, Generation.map_id_relocate]
      exact h.distinct
    case refine_2 =>
      intro e he
      obtain ⟨e', he', hi⟩ := Generation.id_of_mem_relocate he
      exact hi ▸ hs (h.active e' he')
  case declare => exact { h with divided := hd }
  case reconcile package key cls _ _ _ _ graph _ _ _ hp hg _ =>
    obtain ⟨date, hv⟩ := h.divided
    have hg : Graph.Changes (· = cls) registry.graph graph := hg rfl
    obtain ⟨e₀, hm₀, hi⟩ := h.exists_placeholder hp
    obtain ⟨hm₀, hk, hy⟩ := Generation.mem_named.mp hm₀
    refine { divided := hd, distinct := ?_, active := ?_, frozen := ?_ }
    case refine_1 => exact h.distinct.sublist (List.filter_sublist.map _)
    case refine_2 =>
      intro e hm
      obtain ⟨hm, hf⟩ := List.mem_filter.mp hm
      refine (h.active e hm).imp_right fun hl => hg.lifetime.stays hl fun he => ?_
      -- Only the placeholder itself goes by its id.
      have := List.inj_on_of_nodup_map h.distinct hm hm₀ (he.trans hi.symm)
      simp_all
    case refine_3 =>
      intro e hm
      obtain ⟨hm, _⟩ := List.mem_filter.mp hm
      refine (h.frozen e hm).imp_right fun hl => hg.lifetime.stays hl fun he => ?_
      exact hv.not_mem_placeholders e hm (he ▸ (placeholder?_eq_some hp).left)
  case finalize => exact { h with divided := hd }

theorem Transitions.accounted (hc : Transitions gone moved registry registry') (h : registry.Accounted gone) :
    registry'.Accounted gone :=
  hc.preserve Transition.accounted h

theorem Accounted.contains_of_activeType? {name : QualifiedName} (h : registry.Accounted gone)
    (hi : registry.activeType? kind name = some id) : gone id ∨ registry.graph.types.contains id := by
  obtain ⟨e, he, hi, _⟩ := Generation.exists_entry_of_find? hi
  exact hi ▸ h.active e (Generation.mem_named.mp he).left

theorem Accounted.contains_of_lookup? {name : QualifiedName} (h : registry.Accounted gone)
    (hk : registry.lookup? kind name = some id) : gone id ∨ registry.graph.types.contains id := by
  cases lookup?_eq_some.mp hk
  case inr hk => exact h.contains_of_activeType? hk.right
  case inl hk =>
    obtain ⟨e, he, hi, _⟩ := Generation.exists_entry_of_find? hk
    exact hi ▸ h.frozen e (Generation.mem_named.mp he).left

theorem Accounted.contains_seek (h : registry.Accounted gone) (sought : Sought) (name : String) :
    gone (registry.seek sought name).1
      ∨ (registry.seek sought name).2.graph.types.contains (registry.seek sought name).1 := by
  have hc : Changes gone registry (registry.seek sought name).2 := seek_changes sought name
  obtain ⟨_, kind, _, hl⟩ := @exists_lookup?_seek registry name sought
  exact (hc.accounted h).contains_of_lookup? hl

theorem Accounted.contains_reconcile {key package : String} {interface : TypeId} {r : Registry}
    (h : registry.Accounted gone)
    (hi : registry.active.find? .interface key package registry.config.defaultPackage = some interface)
    (hr : Action.reconcile key interface registry = .ok ⟨⟩ r) :
    gone interface ∨ r.graph.types.contains interface := by
  obtain ⟨e, he, hi, _⟩ := Generation.exists_entry_of_find? hi
  obtain ⟨hm, hk, _⟩ := Generation.mem_named.mp he
  have hl := hi ▸ h.active e hm
  have hs := @Action.reconcile_reconciled registry key interface
  rw [hr] at hs
  cases hs
  case unneeded => exact hl
  case done cls _ graph₁ _ graph hp hs he =>
    obtain ⟨e₀, hm₀, hi₀⟩ := h.exists_placeholder hp
    obtain ⟨hm₀, hk₀, _⟩ := Generation.mem_named.mp hm₀
    have he : Graph.Changes (· = cls) graph₁ graph :=
      (@Graph.Edit.eraseType_changing (· = cls) _ cls rfl).of_ok he
    have hg : Graph.Changes (· = cls) registry.graph graph :=
      ((Graph.Edit.substitute_changing cls interface).of_ok hs).trans he
    refine hl.imp_right fun hl => hg.lifetime.stays hl fun hc => ?_
    have := List.inj_on_of_nodup_map h.distinct hm hm₀ (hi.trans (hc.trans hi₀.symm))
    simp [← this, hk] at hk₀

theorem Accounted.contains_buildType {name : String} {r : Registry} (h : registry.Accounted gone)
    (hb : Action.buildType kind name registry = .ok id r) : gone id ∨ r.graph.types.contains id := by
  have hc : Changes gone registry (Action.declared registry kind (registry.split name)) :=
    Action.declared_changes kind (split_key name)
  have hd := hc.accounted h
  have hf := @Action.find?_declared registry kind (registry.split name)
  rw [Action.buildType_apply] at hb
  split at hb
  case isTrue  => simp at hb
  case isFalse =>
    simp only at hb
    split at hb
    case isFalse =>
      cases hb
      exact hd.contains_of_activeType? hf
    case isTrue hk =>
      subst hk
      split at hb <;> cases hb
      case h_1 hr => exact hd.contains_reconcile hf hr

-- In the course of operations a type has been erased, and not for the sake of an interface.
def Erased (start : Registry) (ops : List Op) (id : TypeId) : Prop :=
  ∃ before rest, ops = before ++ .edit (.eraseType id) :: rest ∧ (start.perform before).graph.types.contains id

namespace Erased

theorem concat_iff : Erased start (ops ++ [op]) id ↔
    Erased start ops id ∨ op = .edit (.eraseType id) ∧ (start.perform ops).graph.types.contains id := by
  have he (ops : List Op) : Erased start ops id ↔ ∃ before o rest, ops = before ++ o :: rest
      ∧ o = .edit (.eraseType id) ∧ (start.perform before).graph.types.contains id := by
    simp [Erased]
  rw [he, he, exists_split_concat]

theorem dead {config : Config} (hc : create config = .ok start) (h : Erased start ops id) :
    id.val < (start.perform ops).graph.types.next.val ∧ ¬ (start.perform ops).graph.types.contains id := by
  induction ops using List.reverseRecOn
  case nil =>
    obtain ⟨before, rest, he, _⟩ := h
    simp at he
  case append_singleton ops op hi =>
    have ho : Changes (fun _ => True) (start.perform ops) (after op.run (start.perform ops)) :=
      Op.transitions (fun _ _ => trivial) fun _ _ _ => trivial
    rw [perform_concat]
    cases concat_iff.mp h
    case inl h =>
      obtain ⟨hn, hd⟩ := hi h
      exact ⟨Nat.lt_of_lt_of_le hn ho.lifetime.issued, fun hl => hd (ho.lifetime.dead hn hl)⟩
    case inr h =>
      obtain ⟨rfl, hl⟩ := h
      obtain ⟨type, ht⟩ := Arena.contains_iff.mp hl
      have hr : (start.perform ops).Reachable (fun _ => True) := ⟨config, start, hc, .perform fun _ _ => trivial⟩
      refine ⟨Nat.lt_of_lt_of_le (Arena.lt_next ht) ho.lifetime.issued, ?_⟩
      rw [Op.run, Action.after_edit, Graph.Op.run, after_returns]
      exact Graph.Edit.not_contains_eraseType hr.graph.reciprocal

theorem not_contains {config : Config} (h : Erased start ops id) (hc : create config = .ok start)
    (hr : Changes (fun _ => False) (start.perform ops) registry) : ¬ registry.graph.types.contains id := by
  obtain ⟨hn, hd⟩ := h.dead hc
  exact fun hl => hd (hr.lifetime.dead hn hl)

end Erased

theorem accounted_perform {config : Config} (hc : create config = .ok start) (ops : List Op) :
    (start.perform ops).Accounted (Erased start ops) := by
  induction ops using List.reverseRecOn
  case nil => exact create_eq_ok hc ▸ .ofConfig config
  case append_singleton ops op hi =>
    have hm (t : TypeId) (ht : Erased start ops t) : Erased start (ops ++ [op]) t := Erased.concat_iff.mpr (.inl ht)
    replace hi := hi.mono hm
    rw [perform_concat]
    by_cases hg : ∀ t, op = .edit (.eraseType t) → (start.perform ops).graph.types.contains t
    case pos =>
      have ho : Transitions _ (fun _ => True) (start.perform ops) (after op.run (start.perform ops)) :=
        Op.transitions (fun t ht => Erased.concat_iff.mpr (.inr ⟨ht, hg t ht⟩)) fun _ _ _ => trivial
      exact ho.accounted hi
    case neg =>
      -- An operation that has nothing to erase is refused.
      obtain ⟨t, rfl, ht⟩ : ∃ t, op = .edit (.eraseType t) ∧ ¬ (start.perform ops).graph.types.contains t := by
        simpa using hg
      rw [Op.run, Action.after_edit, Graph.Op.run, after_returns, Graph.Edit.after_eraseType_of_not_contains ht]
      exact hi

-- Whatever is done to a registry and to its graph, a type that is asked for or declared is there when it is returned,
-- just if it has not been erased directly before.
theorem returned_types_are_there_unless_erased {config : Config} (hc : create config = .ok start) (ops : List Op) :
    let registry := start.perform ops
    (∀ sought name, (registry.seek sought name).2.graph.types.contains (registry.seek sought name).1
      ↔ ¬ Erased start ops (registry.seek sought name).1)
    ∧ ∀ kind name id r, Action.buildType kind name registry = .ok id r →
      (r.graph.types.contains id ↔ ¬ Erased start ops id) := by
  intro registry
  have ha : registry.Accounted (Erased start ops) := accounted_perform hc ops
  have hd {id : TypeId} {r : Registry} (hr : Changes (fun _ => False) registry r) (hl : r.graph.types.contains id) :
      ¬ Erased start ops id := by
    intro he
    obtain ⟨hn, hd⟩ := he.dead hc
    exact hd (hr.lifetime.dead hn hl)
  refine ⟨?sought, ?built⟩
  case sought =>
    intro sought name
    exact ⟨hd (seek_changes sought name), (ha.contains_seek sought name).resolve_left⟩
  case built =>
    intro kind name id r hb
    exact ⟨hd (Action.changes_of_buildType hb), (ha.contains_buildType hb).resolve_left⟩

-- A class that could have moved to another package, had it not been erased, is not what a declaration there comes up
-- with.
theorem returned_types_are_there_unless_erased_unclaimed :
    let ops : List Op := [.build (.type .cls) "Engine", .edit (.eraseType ⟨0⟩)]
    let registry := (ofConfig {}).perform ops
    create {} = .ok (ofConfig {})
    ∧ ∃ r, Action.buildType .cls "app.Engine" registry = .ok ⟨1⟩ r ∧ r.graph.types.contains ⟨1⟩ := by
  intro ops registry
  have hc : create {} = .ok (ofConfig {}) := rfl
  obtain ⟨hf, hi⟩ : registry.isFinalized = false ∧ (registry.resolve .cls (registry.split "app.Engine")).1 = ⟨1⟩ := by
    decide +kernel
  have hb : Action.buildType .cls "app.Engine" registry
      = .ok ⟨1⟩ (Action.declared registry .cls (registry.split "app.Engine")) := by
    simp [Action.buildType_apply, hf, hi]
  refine ⟨hc, _, hb, ((returned_types_are_there_unless_erased hc ops).right _ _ _ _ hb).mpr ?_⟩
  rintro ⟨before, rest, he, _⟩
  have hm : .edit (.eraseType ⟨1⟩) ∈ ops := by simp [he]
  simp [ops] at hm

-- A class that has been erased is still what a request for it comes up with.
theorem request_returns_erased_type :
    let registry := (ofConfig {}).perform [.build (.type .cls) "app.Engine", .edit (.eraseType ⟨0⟩)]
    (registry.seek (.type .cls) "app.Engine").1 = ⟨0⟩
    ∧ (registry.seek (.type .cls) "app.Engine").2.graph.types.contains ⟨0⟩ = false := by
  decide +kernel

end Registry
end PackageCoupling
