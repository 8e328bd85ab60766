import PackageCoupling.Proofs.Graph.Lifetime
import PackageCoupling.Proofs.Registry.Generation
import PackageCoupling.Proofs.Registry.Run

namespace PackageCoupling.Registry

variable {registry registry' : Registry} {kind : TypeKind} {name : QualifiedName} {key : String} {cls : TypeId}
variable {moved : TypeId → Prop}

-- What holds of the names of a registry as long as types are only erased in favour of interfaces. A type in
-- the default package is alone under its name. What is frozen is there for good, and before there is a frozen
-- generation there are no placeholders.
structure Indexed (registry : Registry) : Prop where
  alone : ∀ {kind key e}, e ∈ registry.active.named kind key → e.package = registry.config.defaultPackage →
    registry.active.named kind key = [e]
  distinct : (registry.active.entries.map (·.id)).Nodup
  live : ∀ e ∈ registry.active.entries, registry.graph.types.contains e.id
  declared : ∀ e ∈ registry.frozen.entries, registry.graph.types.contains e.id ∧ e.id ∉ registry.placeholders
  unfrozen : registry.isFrozen = false → registry.frozen = ∅ ∧ registry.placeholders = []

namespace Indexed

theorem ofConfig (config : Config) : (Registry.ofConfig config).Indexed where
  alone h     := by simp [Registry.ofConfig, Generation.named, EmptyCollection.emptyCollection] at h
  distinct    := .nil
  live e h    := by simp [Registry.ofConfig, EmptyCollection.emptyCollection] at h
  declared e h := by simp [Registry.ofConfig, EmptyCollection.emptyCollection] at h
  unfrozen _  := ⟨rfl, rfl⟩

theorem named_placeholder (h : registry.Indexed) (hp : Action.placeholder? registry key = some cls) :
    ∃ e, registry.active.named .cls key = [e] ∧ e.package = registry.config.defaultPackage ∧ e.id = cls := by
  have ⟨hc, e, he, hd, hi⟩ := placeholder?_eq_some hp
  cases he
  case inl he => exact absurd (hi ▸ hc) (h.declared e (Generation.mem_named.mp he).left).right
  case inr he => exact ⟨e, h.alone he hd, hd, hi⟩

theorem ne_newType (h : registry.graph.types.contains cls) : cls ≠ (registry.newType kind name).1 := by
  have hl := Arena.lt_next_of_contains h
  intro he
  rw [he, newType_eq] at hl
  exact Nat.lt_irrefl _ hl

theorem contains_newType (hc : registry.graph.types.contains cls) :
    (registry.newType kind name).2.graph.types.contains cls := by
  have hl : Graph.Changes (fun _ => False) registry.graph (registry.newType kind name).2.graph :=
    Graph.newType_changes kind name.localName name.package
  exact hl.lifetime.stays hc fun h => h

theorem newType (h : registry.Indexed) (hn : registry.IsNew kind name) : (registry.newType kind name).2.Indexed := by
  have he : (registry.newType kind name).2.active = registry.active.insert kind name.key name.package
      (registry.newType kind name).1 := rfl
  constructor
  case alone =>
    intro kind' key' e hm hd
    rw [he, Generation.named_insert] at hm ⊢
    split at hm
    case isFalse hk =>
      rw [List.append_nil] at hm
      rw [if_neg hk, List.append_nil]
      exact h.alone hm hd
    case isTrue hk =>
      obtain ⟨rfl, rfl⟩ := hk
      obtain ⟨hi, hf⟩ := Generation.find?_eq_none.mp hn.unknown
      rw [if_pos ⟨rfl, rfl⟩]
      cases List.mem_append.mp hm
      case inr hm =>
        -- Nothing answered to the name, not even in another package.
        have hm := List.mem_singleton.mp hm
        subst hm
        have hf := hf hd
        simp only [Generation.first?, Option.map_eq_none_iff, List.head?_eq_none_iff] at hf
        rw [hf, List.nil_append]
      case inl hm =>
        -- A type in the default package would have answered or moved.
        have ha := h.alone hm hd
        by_cases hp : name.package = registry.config.defaultPackage
        case pos =>
          have hf := hf hp
          simp [Generation.first?, ha] at hf
        case neg =>
          have ho := Generation.only?_eq_some.mpr ⟨e, ha, hd, rfl⟩
          exact absurd (h.live e (Generation.mem_named.mp hm).left) (hn.unclaimed hp _ ho)
  case distinct =>
    have hf : (registry.newType kind name).1 ∉ registry.active.entries.map (·.id) := by
      intro hm
      obtain ⟨e, hm, he⟩ := List.mem_map.mp hm
      exact ne_newType (h.live e hm) he
    simp only [he, Generation.insert, List.map_append, List.map_cons, List.map_nil]
    exact List.concat_eq_append ▸ h.distinct.concat hf
  case live =>
    intro e hm
    simp only [he, Generation.insert, List.mem_append, List.mem_singleton] at hm
    cases hm
    case inl hm => exact contains_newType (h.live e hm)
    case inr hm => exact hm ▸ Graph.contains_newType kind name.localName name.package
  case declared =>
    intro e hm
    obtain ⟨hc, hp⟩ := h.declared e hm
    exact ⟨contains_newType hc, hp⟩
  case unfrozen => exact h.unfrozen

theorem promote {id : TypeId} (h : registry.Indexed) (hp : name.package ≠ registry.config.defaultPackage) :
    (registry.promote kind name id).Indexed := by
  have hl : Graph.Changes (fun _ => False) registry.graph (registry.promote kind name id).graph :=
    Graph.relocate_changes id name.package
  have hs {t : TypeId} (ht : registry.graph.types.contains t) :
      (registry.promote kind name id).graph.types.contains t := hl.lifetime.stays ht fun h => h
  have ha : (registry.promote kind name id).active = registry.active.relocate kind name.key id name.package := rfl
  constructor
  case alone =>
    intro kind' key' e hm hd
    rw [ha, Generation.named_relocate] at hm ⊢
    obtain ⟨e', hm, he⟩ := List.mem_map.mp hm
    have hd' : e'.package = registry.config.defaultPackage := by
      subst he
      split at hd
      case isTrue  => exact absurd hd hp
      case isFalse => exact hd
    rw [h.alone hm hd', List.map_singleton, he]
  case distinct =>
    rw [ha, Generation.map_id_relocate]
    exact h.distinct
  case live =>
    intro e hm
    obtain ⟨e', hm, hi⟩ := Generation.id_of_mem_relocate (ha ▸ hm)
    exact hi ▸ hs (h.live e' hm)
  case declared =>
    intro e hm
    obtain ⟨hc, hp⟩ := h.declared e hm
    exact ⟨hs hc, hp⟩
  case unfrozen => exact h.unfrozen

theorem reconcile {graph : Graph} (h : registry.Indexed) (hp : Action.placeholder? registry key = some cls)
    (hg : Graph.Changes (· = cls) registry.graph graph) :
    { registry with
      graph
      active := registry.active.remove .cls key cls
      frozen := registry.frozen.remove .cls key cls
      placeholders := Distinct.remove registry.placeholders cls : Registry }.Indexed := by
  have ⟨e₀, hn, hd, hi⟩ := h.named_placeholder hp
  have ⟨hc, _⟩ := placeholder?_eq_some hp
  have hm₀ : e₀ ∈ registry.active.named .cls key := hn ▸ List.mem_singleton_self e₀
  constructor
  case alone =>
    intro kind' key' e hm hd
    rw [Generation.named_remove] at hm ⊢
    have ⟨hm, hf⟩ := List.mem_filter.mp hm
    rw [h.alone hm hd, List.filter_singleton, hf, cond_true]
  case distinct => exact h.distinct.sublist (List.filter_sublist.map _)
  case live =>
    intro e hm
    have ⟨hm, hf⟩ := List.mem_filter.mp hm
    refine hg.lifetime.stays (h.live e hm) fun he => ?_
    -- Only the placeholder itself goes by its id.
    have ⟨hm₀, hk, hy⟩ := Generation.mem_named.mp hm₀
    have := List.inj_on_of_nodup_map h.distinct hm hm₀ (he.trans hi.symm)
    simp_all
  case declared =>
    intro e hm
    have ⟨hl, hq⟩ := h.declared e (List.mem_filter.mp hm).left
    refine ⟨hg.lifetime.stays hl fun he => hq (he ▸ hc), ?_⟩
    simp [hq]
  case unfrozen =>
    intro hf
    have ⟨_, hq⟩ := h.unfrozen hf
    simp [hq] at hc

end Indexed

theorem Transition.indexed (hc : Transition (fun _ => False) moved registry registry') (h : registry.Indexed) :
    registry'.Indexed := by
  cases hc
  case edit graph hg =>
    have hs {t : TypeId} (ht : registry.graph.types.contains t) : graph.types.contains t :=
      hg.lifetime.stays ht fun h => h
    exact { h with
      live e hm     := hs (h.live e hm)
      declared e hm := ⟨hs (h.declared e hm).left, (h.declared e hm).right⟩ }
  case freeze =>
    rw [Registry.freeze]
    split
    case isTrue     => exact h
    case isFalse hf =>
      obtain ⟨_, hp⟩ := h.unfrozen (by simpa using hf)
      constructor
      case alone    => simp [Generation.named, EmptyCollection.emptyCollection]
      case distinct => exact .nil
      case live     => simp [EmptyCollection.emptyCollection]
      case declared => exact fun e hm => ⟨h.live e hm, by simp [hp]⟩
      case unfrozen => simp
  case create hn => exact h.newType hn
  case suppose kind name hf hn =>
    exact { h.newType hn with
      declared e hm := by
        obtain ⟨hl, hp⟩ := h.declared e hm
        exact ⟨Indexed.contains_newType hl, by simp [hp, Indexed.ne_newType hl]⟩
      unfrozen hu := absurd hf (by simp_all [Registry.newType]) }
  case promote hf ho hp hl => exact h.promote hp
  case declare id =>
    exact { h with
      declared e hm := ⟨(h.declared e hm).left, by simp [(h.declared e hm).right]⟩
      unfrozen hu   := ⟨(h.unfrozen hu).left, by simp [(h.unfrozen hu).right, Distinct.remove]⟩ }
  case reconcile hp hg hl => exact h.reconcile hp (hg rfl)
  case finalize           => exact { h with }

theorem Transitions.indexed (hc : Transitions (fun _ => False) moved registry registry') (h : registry.Indexed) :
    registry'.Indexed :=
  hc.preserve Transition.indexed h

section

variable {gone : TypeId → Prop}

theorem Transition.config_eq (hc : Transition gone moved registry registry') : registry'.config = registry.config := by
  cases hc
  case freeze =>
    rw [Registry.freeze]
    split <;> rfl
  all_goals rfl

theorem Transition.lifetime (hc : Transition gone moved registry registry') :
    Graph.Lifetime (fun _ => True) registry.graph registry'.graph := by
  have hg : Graph.Changes (fun _ => True) registry.graph registry'.graph :=
    hc.graph (fun _ _ => trivial) (fun _ _ => trivial) (fun _ _ => trivial) fun _ _ => trivial
  exact hg.lifetime

theorem Transitions.lifetime (hc : Transitions gone moved registry registry') :
    Graph.Lifetime (fun _ => True) registry.graph registry'.graph := by
  induction hc
  case refl         => exact .refl
  case tail _ hs hi => exact hi.trans hs.lifetime

theorem Transitions.config_eq (hc : Transitions gone moved registry registry') :
    registry'.config = registry.config := by
  induction hc
  case refl         => rfl
  case tail _ hs hi => exact hs.config_eq.trans hi

theorem Transition.isFrozen (hc : Transition gone moved registry registry') (h : registry.isFrozen) :
    registry'.isFrozen := by
  cases hc
  case freeze => exact isFrozen_freeze
  all_goals exact h

theorem Transitions.isFrozen (hc : Transitions gone moved registry registry') (h : registry.isFrozen) :
    registry'.isFrozen :=
  hc.preserve Transition.isFrozen h

end

def activeType? (registry : Registry) (kind : TypeKind) (name : QualifiedName) : Option TypeId :=
  registry.active.find? kind name.key name.package registry.config.defaultPackage

def frozenType? (registry : Registry) (kind : TypeKind) (name : QualifiedName) : Option TypeId :=
  registry.frozen.find? kind name.key name.package registry.config.defaultPackage

variable {id : TypeId}

theorem Transition.activeType? (hc : Transition (fun _ => False) moved registry registry') (h : registry.Indexed)
    (hf : registry'.isFrozen = registry.isFrozen) (hl : registry'.graph.types.contains id)
    (hi : registry.activeType? kind name = some id) : registry'.activeType? kind name = some id := by
  cases hc
  case freeze =>
    rw [Registry.freeze] at hf ⊢
    split
    case isTrue    => exact hi
    case isFalse h => simp [h] at hf
  case create hn           => exact Generation.find?_insert hi hn.unknown
  case suppose hn          => exact Generation.find?_insert hi hn.unknown
  case promote hf ho hp _  => exact Generation.find?_relocate hi ho hp
  case reconcile hp hg hn =>
    obtain ⟨e₀, hm, _⟩ := h.named_placeholder hp
    refine Generation.find?_remove hi (fun he => hn (he ▸ hl)) fun e he _ => ?_
    rw [hm, List.mem_singleton] at he
    rw [he, hm]
  all_goals exact hi

theorem Transition.frozen_eq {gone : TypeId → Prop} (hc : Transition gone moved registry registry')
    (hp : ∀ e ∈ registry.frozen.entries, e.id ∉ registry.placeholders) (hf : registry.isFrozen) :
    registry'.frozen = registry.frozen := by
  cases hc
  case freeze =>
    rw [Registry.freeze]
    split
    case isTrue     => rfl
    case isFalse hn => exact absurd hf hn
  case reconcile hq hg hn =>
    obtain ⟨hm, _⟩ := placeholder?_eq_some hq
    simp only [Generation.remove, Generation.ext_iff, List.filter_eq_self, decide_eq_true_eq]
    rintro e he ⟨_, _, hi⟩
    exact hp e he (hi ▸ hm)
  all_goals rfl

theorem lookup?_eq :
    registry.lookup? kind name = (registry.frozenType? kind name).or (registry.activeType? kind name) := by
  rw [Registry.lookup?, frozenType?, activeType?]
  cases registry.frozen.find? kind name.key name.package registry.config.defaultPackage <;> rfl

theorem lookup?_eq_some :
    registry.lookup? kind name = some id ↔ registry.frozenType? kind name = some id
      ∨ registry.frozenType? kind name = none ∧ registry.activeType? kind name = some id := by
  rw [lookup?_eq]
  cases registry.frozenType? kind name <;> simp

theorem Indexed.contains_of_activeType? (h : registry.Indexed) (hi : registry.activeType? kind name = some id) :
    registry.graph.types.contains id := by
  have ⟨e, he, hi, _⟩ := Generation.exists_entry_of_find? hi
  exact hi ▸ h.live e (Generation.mem_named.mp he).left

theorem Indexed.contains_of_lookup? (h : registry.Indexed) (hk : registry.lookup? kind name = some id) :
    registry.graph.types.contains id := by
  cases lookup?_eq_some.mp hk
  case inl hk =>
    have ⟨e, he, hi, _⟩ := Generation.exists_entry_of_find? hk
    exact hi ▸ (h.declared e (Generation.mem_named.mp he).left).left
  case inr hk => exact h.contains_of_activeType? hk.right

theorem Transition.frozenType?_eq (hc : Transition (fun _ => False) moved registry registry') (h : registry.Indexed)
    (hf : registry.isFrozen) : registry'.frozenType? kind name = registry.frozenType? kind name := by
  rw [frozenType?, frozenType?, hc.frozen_eq (fun e he => (h.declared e he).right) hf, hc.config_eq]

theorem Transition.lookup? (hc : Transition (fun _ => False) moved registry registry') (h : registry.Indexed)
    (hf : registry.isFrozen) (hl : registry'.graph.types.contains id) (hk : registry.lookup? kind name = some id) :
    registry'.lookup? kind name = some id := by
  have hf' : registry'.isFrozen = registry.isFrozen := by rw [hf, hc.isFrozen hf]
  rw [lookup?_eq_some, hc.frozenType?_eq h hf]
  cases lookup?_eq_some.mp hk
  case inl hk => exact .inl hk
  case inr hk => exact .inr ⟨hk.left, hc.activeType? h hf' hl hk.right⟩

-- Types do not come back, so a type that is there in the end was there all the time.
theorem Transitions.lookup? (hc : Transitions (fun _ => False) moved registry registry') (h : registry.Indexed)
    (hf : registry.isFrozen) (hk : registry.lookup? kind name = some id) (hl : registry'.graph.types.contains id) :
    registry'.lookup? kind name = some id := by
  have ⟨_, hs⟩ := Arena.contains_iff.mp (h.contains_of_lookup? hk)
  have hn := Arena.lt_next hs
  induction hc
  case refl => exact hk
  case tail hr hc hi =>
    have hl' := hc.lifetime.dead (Nat.lt_of_lt_of_le hn (Transitions.lifetime hr).issued) hl
    exact hc.lookup? (Transitions.indexed hr h) (Transitions.isFrozen hr hf) hl (hi hl')

-- A type that has been declared under a name goes by it in the active generation.
structure Declares (registry : Registry) (kind : TypeKind) (name : QualifiedName) (id : TypeId) : Prop where
  found : registry.activeType? kind name = some id
  live : registry.graph.types.contains id
  settled : id ∉ registry.placeholders

theorem Transition.settled (hc : Transition (fun _ => False) moved registry registry')
    (hl : registry.graph.types.contains id) (hp : id ∉ registry.placeholders) :
    registry'.graph.types.contains id ∧ id ∉ registry'.placeholders := by
  cases hc
  case edit hg    => exact ⟨hg.lifetime.stays hl fun h => h, hp⟩
  case freeze     =>
    rw [graph_freeze]
    refine ⟨hl, ?_⟩
    rw [Registry.freeze]
    split <;> exact hp
  case create     => exact ⟨Indexed.contains_newType hl, hp⟩
  case suppose    => exact ⟨Indexed.contains_newType hl, by simp [hp, Indexed.ne_newType hl]⟩
  case promote name id' _ _ _ _ =>
    have hs : Graph.Changes (fun _ => False) registry.graph (registry.graph.relocate id' name.package).2 :=
      Graph.relocate_changes id' name.package
    exact ⟨hs.lifetime.stays hl fun h => h, hp⟩
  case declare    => exact ⟨hl, by simp [hp]⟩
  case reconcile cls _ _ _ _ graph _ _ _ hq hg hn =>
    obtain ⟨hm, _⟩ := placeholder?_eq_some hq
    have hs : Graph.Changes (· = cls) registry.graph graph := hg rfl
    exact ⟨hs.lifetime.stays hl fun he => hp (he ▸ hm), by simp [hp]⟩
  case finalize   => exact ⟨hl, hp⟩

theorem Transition.declares (hc : Transition (fun _ => False) moved registry registry') (h : registry.Indexed)
    (hf : registry'.isFrozen = registry.isFrozen) (hd : registry.Declares kind name id) :
    registry'.Declares kind name id := by
  have ⟨hl, hp⟩ := hc.settled hd.live hd.settled
  exact ⟨hc.activeType? h hf hl hd.found, hl, hp⟩

theorem Transitions.declares (hc : Transitions (fun _ => False) moved registry registry') (h : registry.Indexed)
    (hf : registry'.isFrozen = registry.isFrozen) (hd : registry.Declares kind name id) :
    registry'.Declares kind name id := by
  induction hc
  case refl => exact hd
  case tail b r hr hc hi =>
    -- A registry that is frozen stays so.
    have hb : b.isFrozen = registry.isFrozen := by
      cases hs : registry.isFrozen
      case true => exact Transitions.isFrozen hr hs
      case false =>
        cases he : b.isFrozen
        case false => rfl
        case true  => exact absurd (hc.isFrozen he) (by simp [hf, hs])
    exact hc.declares (Transitions.indexed hr h) (hf.trans hb.symm) (hi hb)

theorem freeze_of_isFrozen (h : registry.isFrozen) : registry.freeze = registry := by
  rw [Registry.freeze, if_pos h]

theorem frozenType?_freeze (h : registry.isFrozen = false) :
    registry.freeze.frozenType? kind name = registry.activeType? kind name := by
  rw [Registry.freeze, if_neg (by simp [h])]
  rfl

theorem Transition.eq_freeze {gone : TypeId → Prop} (hc : Transition gone moved registry registry')
    (h : registry.isFrozen = false) (h' : registry'.isFrozen) : registry' = registry.freeze := by
  cases hc
  case freeze => rfl
  all_goals exact absurd h' (by simp_all [Registry.newType, Registry.promote, Registry.finalize])

structure Establishes (registry : Registry) (kind : TypeKind) (name : QualifiedName) (id : TypeId) : Prop where
  found : registry.freeze.frozenType? kind name = some id
  live : registry.graph.types.contains id
  settled : id ∉ registry.placeholders

theorem Transition.establishes (hc : Transition (fun _ => False) moved registry registry') (h : registry.Indexed)
    (he : registry.Establishes kind name id) : registry'.Establishes kind name id := by
  have ⟨hl, hp⟩ := hc.settled he.live he.settled
  refine ⟨?_, hl, hp⟩
  have hi := he.found
  cases hf : registry.isFrozen
  case true =>
    rw [freeze_of_isFrozen hf] at hi
    rw [freeze_of_isFrozen (hc.isFrozen hf), hc.frozenType?_eq h hf, hi]
  case false =>
    cases hf' : registry'.isFrozen
    case true  =>
      rw [hc.eq_freeze hf hf', freeze_of_isFrozen isFrozen_freeze, hi]
    case false =>
      rw [frozenType?_freeze hf] at hi
      rw [frozenType?_freeze hf', hc.activeType? h (hf'.trans hf.symm) hl hi]

theorem Transitions.establishes (hc : Transitions (fun _ => False) moved registry registry') (h : registry.Indexed)
    (he : registry.Establishes kind name id) : registry'.Establishes kind name id := by
  induction hc
  case refl          => exact he
  case tail hr hc hi => exact hc.establishes (Transitions.indexed hr h) hi

section

variable {resolution : Resolution}

theorem Resolved.activeType? (hr : Resolved registry kind name (id, resolution, registry')) :
    registry'.activeType? kind name = some id :=
  hr.find?

theorem Resolved.frozenType? (hr : Resolved registry kind name (id, resolution, registry')) :
    registry'.frozenType? kind name = registry.frozenType? kind name := by
  rw [hr.frame]
  rfl

theorem Resolved.isFrozen (hr : Resolved registry kind name (id, resolution, registry')) :
    registry'.isFrozen = registry.isFrozen :=
  congrArg (·.isFrozen) hr.frame

theorem Resolved.eq_of_activeType? {id' : TypeId} (hr : Resolved registry kind name (id, resolution, registry'))
    (h : registry.activeType? kind name = some id') : id = id' := by
  cases hr
  case reused hf            => exact Option.some.inj (hf.symm.trans h)
  case promoted hf ho hp hl => exact absurd (hf.symm.trans h) (by simp)
  case created hn           => exact absurd (hn.unknown.symm.trans h) (by simp)

end

section

variable {name : String}

theorem split_freeze : registry.freeze.split name = registry.split name := by
  rw [Registry.freeze]
  split <;> rfl

theorem Transitions.split_eq {gone : TypeId → Prop} (hc : Transitions gone moved registry registry') :
    registry'.split name = registry.split name := by
  rw [Registry.split, Registry.split, hc.config_eq]

theorem seek_of_findSome? {sought : Sought}
    (h : sought.kinds.findSome? (registry.freeze.lookup? · (registry.split name)) = some id) :
    registry.seek sought name = (id, registry.freeze) := by
  rw [Registry.seek, split_freeze, h]

theorem seek_of_lookup? (h : registry.freeze.lookup? kind (registry.split name) = some id) :
    registry.seek (.type kind) name = (id, registry.freeze) :=
  seek_of_findSome? (by simp [Sought.kinds, h])

theorem assumed_mem_kinds (sought : Sought) : sought.assumed ∈ sought.kinds := by
  cases sought <;> simp [Sought.assumed, Sought.kinds]

theorem findSome?_kinds {sought : Sought} {f : TypeKind → Option TypeId} (h : f sought.assumed = some id) :
    sought.kinds.findSome? f = some id := by
  cases sought <;> simp_all [Sought.kinds, Sought.assumed]

theorem findSome?_seek (sought : Sought) : (registry.seek sought name).2.isFrozen
    ∧ sought.kinds.findSome? ((registry.seek sought name).2.lookup? · (registry.split name))
      = some (registry.seek sought name).1 := by
  rw [Registry.seek, split_freeze]
  cases hk : sought.kinds.findSome? (registry.freeze.lookup? · (registry.split name))
  case some id => exact ⟨isFrozen_freeze, hk⟩
  case none =>
    have hr := @resolve_resolved registry.freeze sought.assumed (registry.split name)
    have hf : registry.freeze.frozenType? sought.assumed (registry.split name) = none := by
      have hn := List.findSome?_eq_none_iff.mp hk sought.assumed (assumed_mem_kinds sought)
      rw [lookup?_eq, Option.or_eq_none_iff] at hn
      exact hn.left
    simp only
    generalize registry.freeze.resolve sought.assumed (registry.split name) = resolved at hr ⊢
    obtain ⟨id, resolution, r⟩ := resolved
    have hl := lookup?_eq_some.mpr (.inr ⟨hr.frozenType?.trans hf, hr.activeType?⟩)
    have hf := hr.isFrozen.trans isFrozen_freeze
    cases resolution <;> exact ⟨hf, findSome?_kinds hl⟩

theorem exists_lookup?_seek (sought : Sought) : (registry.seek sought name).2.isFrozen
    ∧ ∃ kind ∈ sought.kinds, (registry.seek sought name).2.lookup? kind (registry.split name)
      = some (registry.seek sought name).1 := by
  have ⟨hf, hk⟩ := @findSome?_seek registry name sought
  exact ⟨hf, List.exists_of_findSome?_eq_some hk⟩

theorem lookup?_seek : (registry.seek (.type kind) name).2.isFrozen
    ∧ (registry.seek (.type kind) name).2.lookup? kind (registry.split name)
      = some (registry.seek (.type kind) name).1 := by
  have ⟨hf, kind', hk, hl⟩ := @exists_lookup?_seek registry name (.type kind)
  exact ⟨hf, List.mem_singleton.mp hk ▸ hl⟩

theorem Action.isFrozen_declared {name : QualifiedName} :
    (declared registry kind name).isFrozen = registry.isFrozen := by
  have hr : Resolved registry kind name (registry.resolve kind name) := resolve_resolved
  exact hr.isFrozen

theorem Action.declared_declares {name : QualifiedName} (h : registry.Indexed)
    (hk : name.key = Text.lowercase name.localName) :
    (declared registry kind name).Declares kind name (registry.resolve kind name).1 := by
  have hr : Resolved registry kind name (registry.resolve kind name) := resolve_resolved
  have hc : Changes (fun _ => False) registry (registry.resolve kind name).2.2 := hr.changes hk
  have hi : (registry.resolve kind name).2.2.Indexed := hc.indexed h
  exact ⟨hr.activeType?, hi.contains_of_activeType? hr.activeType?, by simp [declared]⟩

theorem Action.buildType_declares (h : registry.Indexed) (hb : Action.buildType kind name registry = .ok id registry') :
    registry'.Declares kind (registry.split name) id := by
  have ⟨hi, hc, hf⟩ := Action.buildType_ok hb
  have hd : Changes (fun _ => False) registry (Action.declared registry kind (registry.split name)) :=
    Action.declared_changes kind (split_key name)
  have hc : Changes (fun _ => False) (Action.declared registry kind (registry.split name)) registry' := hc
  exact hi ▸ hc.declares (hd.indexed h) hf (Action.declared_declares h (split_key name))

end

def Op.KeepsTypes (op : Op) : Prop :=
  ∀ type, op ≠ .edit (.eraseType type)

theorem Steps.keep (h : Steps Op.KeepsTypes registry registry') : Changes (fun _ => False) registry registry' :=
  h.changes fun type ht => ht type rfl

theorem Reachable.indexed (h : registry.Reachable Op.KeepsTypes) : registry.Indexed := by
  have ⟨config, hc⟩ : ∃ config, Changes (fun _ => False) (ofConfig config) registry :=
    h.changes fun type ht => ht type rfl
  exact hc.indexed (.ofConfig config)

-- As long as no type is erased directly, a name that is asked for stands for the same type while that type is
-- there, a name that is declared stands for the same type until the types are frozen, and what has been
-- declared before that is found by its name for good.
theorem names_keep_their_types (h : registry.Reachable Op.KeepsTypes) (kind : TypeKind) (name : String) :
    (∀ r, Steps Op.KeepsTypes (registry.seek (.type kind) name).2 r →
      r.graph.types.contains (registry.seek (.type kind) name).1 →
      (r.seek (.type kind) name).1 = (registry.seek (.type kind) name).1)
    ∧ (∀ id r₁ r₂, Action.buildType kind name registry = .ok id r₁ → Steps Op.KeepsTypes r₁ r₂ →
      r₂.isFrozen = r₁.isFrozen → r₂.graph.types.contains id
        ∧ ∀ id' r₃, Action.buildType kind name r₂ = .ok id' r₃ → id' = id ∧ r₃.graph.types.contains id)
    ∧ (∀ id r₁ r₂, Action.buildType kind name registry = .ok id r₁ → r₁.isFrozen = false →
      Steps Op.KeepsTypes r₁ r₂ → (r₂.seek (.type kind) name).1 = id) := by
  have hi := h.indexed
  refine ⟨?sought, ?declared, ?established⟩
  case sought =>
    intro r hs hl
    have hc : Changes (fun _ => False) registry (registry.seek (.type kind) name).2 := seek_changes (.type kind) name
    have ha : Changes (fun _ => False) registry r := hc.trans hs.keep
    have ⟨hf, hk⟩ := @lookup?_seek registry kind name
    have hk := hs.keep.lookup? (hc.indexed hi) hf hk hl
    rw [← freeze_of_isFrozen (hs.keep.isFrozen hf), ← ha.split_eq] at hk
    rw [seek_of_lookup? hk]
  case declared =>
    intro id r₁ r₂ hb hs hf
    have hc : Changes (fun _ => False) registry r₁ := Action.changes_of_buildType hb
    have ha : Changes (fun _ => False) registry r₂ := hc.trans hs.keep
    have hd := hs.keep.declares (hc.indexed hi) hf (Action.buildType_declares hi hb)
    refine ⟨hd.live, fun id' r₃ hb' => ?_⟩
    have ⟨he, _, _⟩ := Action.buildType_ok hb'
    have hr := @resolve_resolved r₂ kind (r₂.split name)
    rw [ha.split_eq] at he hr
    have he := he.trans (hr.eq_of_activeType? hd.found)
    exact ⟨he, he ▸ (Action.buildType_declares (ha.indexed hi) hb').live⟩
  case established =>
    intro id r₁ r₂ hb hf hs
    have hc : Changes (fun _ => False) registry r₁ := Action.changes_of_buildType hb
    have ha : Changes (fun _ => False) registry r₂ := hc.trans hs.keep
    have hd := Action.buildType_declares hi hb
    have he : r₁.Establishes kind (registry.split name) id :=
      ⟨(frozenType?_freeze hf).trans hd.found, hd.live, hd.settled⟩
    have he := hs.keep.establishes (hc.indexed hi) he
    rw [← ha.split_eq] at he
    rw [seek_of_lookup? (lookup?_eq_some.mpr (.inl he.found))]

-- A class that is declared in the default package, moves to another one by a second declaration and is followed
-- by a class of the same name, before all of them are frozen.
theorem names_keep_their_types_moved :
    let registry := ofConfig {}
    let moved := [.build (.type .cls) "a.Shape", .build (.type .cls) "b.Shape", .seek .classOrInterface "b.Shape",
      .build (.type .interface) "Shape", .edit (.relocate ⟨0⟩ "c")]
    ∃ r₁ id, Action.buildType .cls "Shape" registry = .ok id r₁ ∧ r₁.isFrozen = false
      ∧ ((r₁.perform moved).seek (.type .cls) "Shape").1 = id := by
  intro registry moved
  have h : registry.Reachable Op.KeepsTypes := ⟨{}, registry, rfl, .refl⟩
  have hb : Action.buildType .cls "Shape" registry = .ok (registry.resolve .cls (registry.split "Shape")).1
      (Action.declared registry .cls (registry.split "Shape")) := Action.buildType_apply .cls "Shape"
  have hf : (Action.declared registry .cls (registry.split "Shape")).isFrozen = false := Action.isFrozen_declared
  have hk : ∀ op ∈ moved, op.KeepsTypes := by simp [moved, Op.KeepsTypes]
  exact ⟨_, _, hb, hf, (names_keep_their_types h .cls "Shape").right.right _ _ _ hb hf (.perform hk)⟩

end PackageCoupling.Registry
