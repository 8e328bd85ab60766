import Mathlib.Data.List.Induction
import PackageCoupling.Proofs.Census
import PackageCoupling.Proofs.Registry.Integrity
import PackageCoupling.Proofs.Registry.Resolution

namespace PackageCoupling

-- A type has lasted: it has kept its kind and its name, and its package too unless it has left the default package.
structure TypeDecl.Lasts (default : PackageId) (type type' : TypeDecl) : Prop where
  kind : type'.kind = type.kind
  name : type'.header.name = type.header.name
  package : type'.package = type.package ∨ type.package = default ∧ type'.package ≠ default

namespace TypeDecl

variable {default : PackageId} {type type' type'' : TypeDecl}

theorem Remains.lasts (h : Remains False type type') : Lasts default type type' where
  kind    := h.kind
  name    := h.name
  package := .inl (h.package not_false)

theorem Lasts.refl : Lasts default type type where
  kind    := rfl
  name    := rfl
  package := .inl rfl

theorem Lasts.trans (h : Lasts default type type') (h' : Lasts default type' type'') : Lasts default type type'' where
  kind    := h'.kind.trans h.kind
  name    := h'.name.trans h.name
  package := by
    cases h.package
    case inl he => exact he ▸ h'.package
    case inr he => exact .inr ⟨he.left, (h'.package.resolve_right fun hd => he.right hd.left) ▸ he.right⟩

end TypeDecl

namespace Registry

variable {registry registry' start : Registry} {kind : TypeKind} {name : String} {ops : List Op} {op : Op} {id : TypeId}

-- What can be told about types from the names under which they are known, and the other way round.
structure Tracked (registry : Registry) : Prop where
  accurate : registry.Accurate
  intact : registry.Intact
  default : ∃ owner, registry.graph.package? registry.defaultPackage = some owner
    ∧ owner.header.name = registry.config.defaultPackage
  known : ∀ id ∈ registry.placeholders, ∃ e ∈ registry.active.entries, e.id = id

theorem Tracked.ofConfig (config : Config) : (Registry.ofConfig config).Tracked where
  accurate   := .ofConfig config
  intact     := .ofConfig config
  default    := Graph.ensurePackage_named .empty config.defaultPackage
  known _ hi := absurd hi List.not_mem_nil

section

variable {gone moved : TypeId → Prop}

theorem Transition.defaultPackage_eq (hc : Transition gone moved registry registry') :
    registry'.defaultPackage = registry.defaultPackage := by
  cases hc
  case freeze =>
    rw [Registry.freeze]
    split <;> rfl
  all_goals rfl

theorem Transition.known (hc : Transition (fun _ => False) moved registry registry') (hi : registry.Indexed)
    (h : ∀ id ∈ registry.placeholders, ∃ e ∈ registry.active.entries, e.id = id) :
    ∀ id ∈ registry'.placeholders, ∃ e ∈ registry'.active.entries, e.id = id := by
  intro id hp
  cases hc
  case edit     => exact h id hp
  case finalize => exact h id hp
  case declare  => exact h id (Distinct.mem_remove.mp hp).left
  case freeze   =>
    rw [Registry.freeze] at hp ⊢
    split at hp
    case isTrue hf =>
      rw [if_pos hf]
      exact h id hp
    case isFalse hf =>
      have hn := (hi.unfrozen (by simpa using hf)).right
      simp [hn] at hp
  case create =>
    obtain ⟨e, he, rfl⟩ := h id hp
    exact ⟨e, List.mem_append_left _ he, rfl⟩
  case suppose kind name _ _ _ =>
    cases Distinct.mem_add.mp hp
    case inl hp =>
      obtain ⟨e, he, rfl⟩ := h id hp
      exact ⟨e, List.mem_append_left _ he, rfl⟩
    case inr hp => exact ⟨_, List.mem_append_right _ (List.mem_singleton_self _), hp.symm⟩
  case promote =>
    obtain ⟨e, he, rfl⟩ := h id hp
    refine ⟨_, List.mem_map_of_mem he, ?_⟩
    split <;> rfl
  case reconcile =>
    obtain ⟨hp, hn⟩ := Distinct.mem_remove.mp hp
    obtain ⟨e, he, rfl⟩ := h id hp
    exact ⟨e, List.mem_filter.mpr ⟨he, by simp [hn]⟩, rfl⟩

end

theorem Transition.tracked (hc : Transition (fun _ => False) (fun _ => False) registry registry')
    (h : registry.Tracked) : registry'.Tracked := by
  refine ⟨hc.accurate h.accurate, hc.intact h.intact, ?_, hc.known h.intact.indexed h.known⟩
  have hg : Graph.Changes (fun _ => True) registry.graph registry'.graph :=
    hc.graph (fun _ => False.elim) (fun _ => False.elim) (fun _ _ => trivial) fun _ _ => trivial
  obtain ⟨owner, ho, hn⟩ := h.default
  obtain ⟨owner', ho', hn'⟩ := hg.package? ho
  exact ⟨owner', hc.defaultPackage_eq ▸ ho', (hn'.trans hn).trans (congrArg _ hc.config_eq.symm)⟩

theorem Transitions.tracked (hc : Transitions (fun _ => False) (fun _ => False) registry registry')
    (h : registry.Tracked) : registry'.Tracked :=
  hc.preserve Transition.tracked h

theorem Tracked.name_eq_default_iff {p : PackageId} {owner : Package} (h : registry.Tracked)
    (hp : registry.graph.package? p = some owner) :
    owner.header.name = registry.config.defaultPackage ↔ p = registry.defaultPackage := by
  obtain ⟨owner', hd, hn⟩ := h.default
  constructor
  case mpr =>
    rintro rfl
    cases hp.symm.trans hd
    exact hn
  case mp =>
    intro he
    exact h.accurate.ownership.eq_of_name_eq hp hd (he.trans hn.symm)

theorem Tracked.package_promote {name : QualifiedName} {e : Entry} {type type' : TypeDecl} (h : registry.Tracked)
    (h' : (registry.promote kind name e.id).Tracked) (he : e ∈ registry.active.entries)
    (hd : e.package = registry.config.defaultPackage) (hp : name.package ≠ registry.config.defaultPackage)
    (ht : registry.graph.type? e.id = some type)
    (ht' : (registry.promote kind name e.id).graph.type? e.id = some type') :
    type.package = registry.defaultPackage ∧ type'.package ≠ registry.defaultPackage := by
  have hh : (registry.promote kind name e.id).graph.Houses e.id e.kind e.key name.package :=
    (h.accurate.active e he).relocate h.accurate.ownership
  obtain ⟨_, owner, hs, ho, _, _, hn⟩ := h.accurate.active e he
  cases ht.symm.trans hs
  obtain ⟨_, owner', hs', ho', _, _, hn'⟩ := hh
  cases ht'.symm.trans hs'
  refine ⟨(h.name_eq_default_iff ho).mp (hn.trans hd), fun hi => hp ?_⟩
  exact hn'.symm.trans ((h'.name_eq_default_iff ho').mpr hi)

theorem Transition.lasts {type type' : TypeDecl} (hc : Transition (fun _ => False) (fun _ => False) registry registry')
    (h : registry.Tracked) (ht : registry.graph.type? id = some type) (ht' : registry'.graph.type? id = some type') :
    type.Lasts registry.defaultPackage type' := by
  -- Nothing moves unless it is promoted.
  have hr (gone : TypeId → Prop) (hg : Graph.Transitions gone (fun _ => False) registry.graph registry'.graph) :
      type.Lasts registry.defaultPackage type' := by
    obtain ⟨_, hs, hm⟩ := hg.remains (Arena.lt_next ht) ht'
    cases ht.symm.trans hs
    exact hm.lasts
  have h' := hc.tracked h
  cases hc
  case edit hg   => exact hr _ hg
  case freeze    => exact hr (fun _ => False) (graph_freeze ▸ .refl)
  case create    => exact hr (fun _ => False) (Graph.newType_changes _ _ _)
  case suppose   => exact hr (fun _ => False) (Graph.newType_changes _ _ _)
  case declare   => exact hr (fun _ => False) .refl
  case finalize  => exact hr (fun _ => False) .refl
  case reconcile cls _ _ _ _ _ _ _ _ _ hg _ => exact hr (· = cls) (hg rfl)
  case promote kind name promoted hf ho hp hl =>
    obtain ⟨e, hn, hd, rfl⟩ := Generation.only?_eq_some.mp ho
    have he := (Generation.mem_named.mp (hn ▸ List.mem_singleton_self e)).left
    have hg : Graph.Transitions (fun _ => False) (· = e.id) registry.graph (registry.promote kind name e.id).graph :=
      Graph.relocate_transitions (by rfl) name.package
    obtain ⟨_, hs, hm⟩ := hg.remains (Arena.lt_next ht) ht'
    cases ht.symm.trans hs
    refine ⟨hm.kind, hm.name, ?_⟩
    by_cases hi : id = e.id
    case neg => exact .inl (hm.package hi)
    case pos =>
      subst hi
      exact .inr (h.package_promote h' he hd hp ht ht')

theorem Transitions.defaultPackage_eq {gone moved : TypeId → Prop} (hc : Transitions gone moved registry registry') :
    registry'.defaultPackage = registry.defaultPackage := by
  induction hc
  case refl         => rfl
  case tail _ hs hi => exact hs.defaultPackage_eq.trans hi

theorem Transitions.lasts {type type' : TypeDecl}
    (hc : Transitions (fun _ => False) (fun _ => False) registry registry') (h : registry.Tracked)
    (ht : registry.graph.type? id = some type) (ht' : registry'.graph.type? id = some type') :
    type.Lasts registry.defaultPackage type' := by
  induction hc generalizing type'
  case refl =>
    cases ht.symm.trans ht'
    exact .refl
  case tail b c hr hs hi =>
    -- A type that is there in the end was there all the time.
    have hn := Nat.lt_of_lt_of_le (Arena.lt_next ht) (Transitions.lifetime hr).issued
    obtain ⟨_, hb⟩ := Arena.contains_iff.mp (hs.lifetime.dead hn (Arena.contains_of_get? ht'))
    have hl := hs.lasts (Transitions.tracked hr h) hb ht'
    rw [Transitions.defaultPackage_eq hr] at hl
    exact (hi hb).trans hl

namespace Action

-- What the declaration of a type comes to. Only an interface does away with anything.
inductive Built (registry : Registry) (kind : TypeKind) (name : String) : EStateM.Result Fault Registry TypeId → Prop
  | refused (hf : registry.isFinalized) : Built registry kind name (.error (.finalized (.type kind) name) registry)
  | declared :
    Built registry kind name (.ok (registry.resolve kind (registry.split name)).1
      (declared registry kind (registry.split name)))
  | replaced {cls graph} (hk : kind = .interface)
    (hp : placeholder? (declared registry kind (registry.split name)) (registry.split name).key = some cls)
    (hg : ∀ {gone moved : TypeId → Prop}, gone cls →
      Graph.Transitions gone moved (declared registry kind (registry.split name)).graph graph)
    (hl : ¬ graph.types.contains cls) :
    Built registry kind name (.ok (registry.resolve kind (registry.split name)).1
      { declared registry kind (registry.split name) with
        graph
        active := (declared registry kind (registry.split name)).active.remove .cls (registry.split name).key cls
        frozen := (declared registry kind (registry.split name)).frozen.remove .cls (registry.split name).key cls
        placeholders := Distinct.remove (declared registry kind (registry.split name)).placeholders cls })

theorem buildType_built (h : registry.Intact) : Built registry kind name (buildType kind name registry) := by
  rw [buildType_apply]
  by_cases hf : registry.isFinalized
  case pos =>
    rw [if_pos hf]
    exact .refused hf
  case neg =>
    rw [if_neg hf]
    by_cases hk : kind = .interface
    case neg =>
      simp only [hk, if_false]
      exact .declared
    case pos =>
      subst hk
      have hc : Changes (fun _ => False) registry (Action.declared registry .interface (registry.split name)) :=
        Action.declared_changes .interface (split_key name)
      simp only [if_true, reconcile_apply]
      cases hp : placeholder? (Action.declared registry .interface (registry.split name)) (registry.split name).key
      case none => exact .declared
      case some cls =>
        obtain ⟨count, graph₁, erased, graph, hs, he, hl, _⟩ :=
          (hc.intact h).replace (Action.find?_declared .interface (registry.split name)) hp
        simp only [hs, he]
        refine .replaced rfl hp (fun hg => ?_) hl
        exact ((Graph.Edit.substitute_changing _ _).of_ok hs).trans ((Graph.Edit.eraseType_changing hg).of_ok he)

theorem mem_placeholders_declared {name : QualifiedName} : id ∈ (declared registry kind name).placeholders ↔
    id ∈ registry.placeholders ∧ id ≠ (registry.resolve kind name).1 := by
  have hr : Resolved registry kind name (registry.resolve kind name) := resolve_resolved
  have hp : (registry.resolve kind name).2.2.placeholders = registry.placeholders :=
    congrArg (·.placeholders) hr.frame
  rw [declared, Distinct.mem_remove, hp]

theorem declared_graph {name : QualifiedName} :
    Graph.Changes (fun _ => False) registry.graph (declared registry kind name).graph := by
  have hr : Resolved registry kind name (registry.resolve kind name) := resolve_resolved
  exact hr.graph_changes

end Action

theorem placeholders_freeze : registry.freeze.placeholders = registry.placeholders := by
  rw [freeze]
  split <;> rfl

theorem seek_graph (sought : Sought) (name : String) :
    Graph.Changes (fun _ => False) registry.graph (registry.seek sought name).2.graph := by
  rcases seek_resolved sought name with hs | ⟨_, _, _, _, hr, hs⟩ <;> rw [hs]
  case inl => rw [graph_freeze]
  case inr => exact graph_freeze ▸ hr.graph_changes

theorem mem_placeholders_seek {sought : Sought} (h : registry.Indexed) :
    id ∈ (registry.seek sought name).2.placeholders ↔
      ¬ registry.graph.types.contains id ∧ (registry.seek sought name).1 = id ∨ id ∈ registry.placeholders := by
  have hc : Changes (fun _ => False) registry registry.freeze := .single .freeze
  have hi := hc.indexed h
  -- Nothing happens if the type is there.
  have hk {id' : TypeId} (hl : registry.freeze.graph.types.contains id') : id ∈ registry.freeze.placeholders ↔
      ¬ registry.graph.types.contains id ∧ id' = id ∨ id ∈ registry.placeholders := by
    rw [placeholders_freeze, or_iff_right]
    rintro ⟨hn, rfl⟩
    exact hn (graph_freeze ▸ hl)
  rw [seek]
  split
  case h_1 id' hs =>
    obtain ⟨kind, _, hl⟩ := List.exists_of_findSome?_eq_some hs
    exact hk (hi.contains_of_lookup? hl)
  case h_2 =>
    have hr := @resolve_resolved registry.freeze sought.assumed (registry.freeze.split name)
    generalize registry.freeze.resolve sought.assumed (registry.freeze.split name) = resolved at hr ⊢
    cases hr
    case reused hf            => exact hk (hi.contains_of_activeType? hf)
    case promoted hf ho hp hl => exact hk hl
    case created hn           =>
      rw [Distinct.mem_add, or_comm]
      refine or_congr ⟨fun he => ⟨fun hl => ?_, he.symm⟩, fun he => he.right.symm⟩ ?_
      case refine_1 =>
        rw [← graph_freeze] at hl
        exact Indexed.ne_newType hl he
      case refine_2 => rw [newType_eq, placeholders_freeze]

-- Requests and declarations of types apart, operations do nothing but change the graph, and no type goes by that.
inductive Op.Effect (registry : Registry) : Op → Prop
  | seek (sought : Sought) (name : String) : Effect registry (.seek sought name)
  | build (kind : TypeKind) (name : String) : Effect registry (.build (.type kind) name)
  | minor {op : Op} (hs : ∀ sought name, op ≠ .seek sought name) (hb : ∀ kind name, op ≠ .build (.type kind) name)
    (hm : (after op.run registry).placeholders = registry.placeholders
      ∧ Graph.Changes (fun _ => False) registry.graph (after op.run registry).graph) : Effect registry op

theorem Op.effect (hk : op.KeepsPlaces) : op.Effect registry := by
  cases op
  case seek sought name => exact .seek sought name
  case finalize         => exact .minor (by simp) (by simp) ⟨rfl, .refl⟩
  case edit op =>
    refine .minor (by simp) (by simp) ?_
    rw [Op.run, Action.after_edit]
    exact ⟨rfl, Graph.Op.changes registry.graph fun t ht => hk.left t (ht ▸ rfl)⟩
  case build declaration name =>
    cases declaration
    case type kind => exact .build kind name
    -- Declarations of anything else may be refused.
    all_goals
      refine .minor (by simp) (by simp) ?_
      rw [Op.run, after_returns]
      refine Action.after_requireWritable (P := fun r => r.placeholders = registry.placeholders
        ∧ Graph.Changes (fun _ => False) registry.graph r.graph) ⟨rfl, .refl⟩ ?_
    case package  => exact ⟨rfl, Graph.ensurePackage_changes name⟩
    case function => exact ⟨rfl, Graph.newFunction_changes _ _⟩
    case method   => exact ⟨rfl, .single (.method name)⟩

-- An operation asks for a type that was not there before.
def Op.Supposes (op : Op) (registry : Registry) (id : TypeId) : Prop :=
  ∃ sought name, op = .seek sought name ∧ ¬ registry.graph.types.contains id ∧ (registry.seek sought name).1 = id

def Op.Settles (op : Op) (registry : Registry) (id : TypeId) : Prop :=
  ∃ kind name r, op = .build (.type kind) name ∧ Action.buildType kind name registry = .ok id r

-- Of the types that are there after an operation, the placeholders are those that it has made up, and those that were
-- placeholders before unless it has declared them.
theorem Op.mem_placeholders (hk : op.KeepsPlaces) (h : registry.Intact)
    (hl : (after op.run registry).graph.types.contains id) :
    id ∈ (after op.run registry).placeholders ↔
      op.Supposes registry id ∨ id ∈ registry.placeholders ∧ ¬ op.Settles registry id := by
  have he : op.Effect registry := Op.effect hk
  cases he
  case minor hs hb hm => simp [hm.left, Op.Supposes, Op.Settles, hs, hb]
  case seek sought name =>
    have hs : id ∈ (registry.seek sought name).2.placeholders ↔ _ := mem_placeholders_seek h.indexed
    rw [Op.run, after_returns]
    refine hs.trans ?_
    simp [Op.Supposes, Op.Settles]
  case build kind name =>
    have hb : Action.Built registry kind name (Action.buildType kind name registry) := Action.buildType_built h
    have hs : Op.Settles (.build (.type kind) name) registry id ↔
        ∃ r, Action.buildType kind name registry = .ok id r := by
      simp [Op.Settles]
    have hn : ¬ Op.Supposes (.build (.type kind) name) registry id := by simp [Op.Supposes]
    rw [Op.run, after_returns, after] at hl ⊢
    rw [or_iff_right hn, hs]
    generalize Action.buildType kind name registry = result at hb hl ⊢
    cases hb
    case refused  => simp
    case declared =>
      rw [Action.mem_placeholders_declared]
      simp [eq_comm]
    case replaced cls graph _ _ _ hc =>
      rw [Distinct.mem_remove, Action.mem_placeholders_declared]
      have : id ≠ cls := fun he => hc (he ▸ hl)
      simp [this, eq_comm]

theorem Tracked.placeholder?_eq_some_iff {type : TypeDecl} {key : String} (h : registry.Tracked)
    (ht : registry.graph.type? id = some type) :
    Action.placeholder? registry key = some id ↔ id ∈ registry.placeholders ∧ type.kind = .cls
      ∧ type.package = registry.defaultPackage ∧ Text.lowercase type.header.name = key := by
  have hi := h.intact.indexed
  constructor
  case mp =>
    intro hp
    obtain ⟨e, hn, hd, rfl⟩ := hi.named_placeholder hp
    obtain ⟨hm, hk, hy⟩ := Generation.mem_named.mp (hn ▸ List.mem_singleton_self e)
    obtain ⟨_, owner, hs, ho, hk', hy', hn⟩ := h.accurate.active e hm
    cases ht.symm.trans hs
    exact ⟨(placeholder?_eq_some hp).left, hk'.trans hk, (h.name_eq_default_iff ho).mp (hn.trans hd), hy'.trans hy⟩
  case mpr =>
    rintro ⟨hp, hk, hd, hy⟩
    obtain ⟨e, hm, rfl⟩ := h.known id hp
    obtain ⟨_, owner, hs, ho, hk', hy', hn⟩ := h.accurate.active e hm
    cases ht.symm.trans hs
    have hd : e.package = registry.config.defaultPackage := hn.symm.trans ((h.name_eq_default_iff ho).mpr hd)
    have hm := Generation.mem_named.mpr ⟨hm, hk'.symm.trans hk, hy'.symm.trans hy⟩
    exact hi.placeholder?_of_named (hi.alone hm hd) hd hp

theorem Action.isFinalized_of_buildType {r : Registry} (h : Action.buildType kind name registry = .ok id r) :
    registry.isFinalized = false := by
  rw [buildType_apply] at h
  split at h
  case isTrue     => cases h
  case isFalse hf => simpa using hf

-- The only operation by which a type goes is the declaration of an interface, and the type is a placeholder for it.
theorem Tracked.goes_iff {type : TypeDecl} (h : registry.Tracked) (hk : op.KeepsPlaces)
    (ht : registry.graph.type? id = some type) :
    ¬ (after op.run registry).graph.types.contains id ↔
      ∃ name interface r, op = .build (.type .interface) name
        ∧ Action.buildType .interface name registry = .ok interface r ∧ id ∈ registry.placeholders ∧ type.kind = .cls
        ∧ type.package = registry.defaultPackage ∧ Text.lowercase type.header.name = (registry.split name).key := by
  have hl := Arena.contains_of_get? ht
  constructor
  case mpr =>
    rintro ⟨name, interface, r, rfl, hb, hp⟩
    obtain ⟨_, r', hb', hn⟩ := h.intact.buildType_interface (Action.isFinalized_of_buildType hb)
      ((h.placeholder?_eq_some_iff ht).mpr hp)
    rwa [Op.run, after_returns, after, hb']
  case mp =>
    intro hn
    have he : op.Effect registry := Op.effect hk
    cases he
    case minor hm => exact absurd (hm.right.lifetime.stays hl fun h => h) hn
    case seek sought name =>
      rw [Op.run, after_returns] at hn
      exact absurd ((seek_graph sought name).lifetime.stays hl fun h => h) hn
    case build kind name =>
      have hb : Action.Built registry kind name (Action.buildType kind name registry) := Action.buildType_built h.intact
      have hd : (Action.declared registry kind (registry.split name)).graph.types.contains id :=
        Action.declared_graph.lifetime.stays hl fun h => h
      rw [Op.run, after_returns, after] at hn
      generalize hr : Action.buildType kind name registry = result at hb hn
      cases hb
      case refused  => exact absurd hl hn
      case declared => exact absurd hd hn
      case replaced cls graph hk hp hg _ =>
        subst hk
        have hg : Graph.Changes (· = cls) _ graph := hg rfl
        obtain rfl : id = cls := Decidable.not_not.mp fun hne => hn (hg.lifetime.stays hd hne)
        -- The declaration itself has not changed what the placeholder is.
        have hc : Transitions (fun _ => False) (fun _ => False) registry
            (Action.declared registry .interface (registry.split name)) :=
          Action.declared_changes .interface (split_key name)
        obtain ⟨type', ht'⟩ := Arena.contains_iff.mp hd
        obtain ⟨hm, hk, hp, hy⟩ := ((hc.tracked h).placeholder?_eq_some_iff ht').mp hp
        have hs := hc.lasts h ht ht'
        rw [hc.defaultPackage_eq] at hp
        refine ⟨name, _, _, rfl, hr, (Action.mem_placeholders_declared.mp hm).left, hs.kind ▸ hk, ?_, hs.name ▸ hy⟩
        cases hs.package
        case inl he => exact he ▸ hp
        case inr he => exact he.left

theorem Steps.stay (h : Steps Op.KeepsPlaces registry registry') :
    Transitions (fun _ => False) (fun _ => False) registry registry' :=
  h.transitions (fun type ht => ht.left type rfl) fun type package ht => ht.right type package rfl

theorem perform_concat : start.perform (ops ++ [op]) = after op.run (start.perform ops) := by
  rw [perform, List.foldl_append]
  rfl

theorem exists_split_concat {P : List Op → Op → Prop} :
    (∃ before o rest, ops ++ [op] = before ++ o :: rest ∧ P before o) ↔
      (∃ before o rest, ops = before ++ o :: rest ∧ P before o) ∨ P ops op := by
  constructor
  case mp =>
    rintro ⟨before, o, rest, he, hp⟩
    cases rest using List.reverseRecOn
    case nil =>
      obtain ⟨rfl, ho⟩ := List.append_inj' he rfl
      exact .inr ((List.cons.inj ho).left ▸ hp)
    case append_singleton rest last _ =>
      rw [← List.cons_append, ← List.append_assoc] at he
      obtain ⟨rfl, _⟩ := List.append_inj' he rfl
      exact .inl ⟨before, o, rest, rfl, hp⟩
  case mpr =>
    rintro (⟨before, o, rest, rfl, hp⟩ | hp)
    case inl => exact ⟨before, o, rest ++ [op], by simp, hp⟩
    case inr => exact ⟨ops, op, [], rfl, hp⟩

-- In the course of operations a type has been made up, and it has not been declared since.
inductive Supposed (start : Registry) : List Op → TypeId → Prop
  | sought {ops : List Op} {op : Op} {id : TypeId} (hs : op.Supposes (start.perform ops) id) :
    Supposed start (ops ++ [op]) id
  | kept {ops : List Op} {op : Op} {id : TypeId} (hs : Supposed start ops id)
    (hn : ¬ op.Settles (start.perform ops) id) : Supposed start (ops ++ [op]) id

namespace Supposed

theorem not_nil : ¬ Supposed start [] id := by
  intro h
  generalize hn : [] = none at h
  cases h <;> simp at hn

theorem concat_iff : Supposed start (ops ++ [op]) id ↔
    op.Supposes (start.perform ops) id ∨ Supposed start ops id ∧ ¬ op.Settles (start.perform ops) id := by
  constructor
  case mpr =>
    rintro (hs | ⟨hs, hn⟩)
    case inl => exact .sought hs
    case inr => exact .kept hs hn
  case mp =>
    intro h
    generalize ha : ops ++ [op] = all at h
    cases h
    case sought hs  =>
      obtain ⟨rfl, hl⟩ := List.append_inj' ha rfl
      cases hl
      exact .inl hs
    case kept hs hn =>
      obtain ⟨rfl, hl⟩ := List.append_inj' ha rfl
      cases hl
      exact .inr ⟨hs, hn⟩

theorem issued (hk : ∀ op ∈ ops, op.KeepsPlaces) (h : start.Tracked) (hs : Supposed start ops id) :
    id.val < (start.perform ops).graph.types.next.val := by
  induction ops using List.reverseRecOn
  case nil => exact absurd hs not_nil
  case append_singleton ops op hi =>
    rw [List.forall_mem_append, List.forall_mem_singleton] at hk
    have hc : Transitions (fun _ => False) (fun _ => False) (start.perform ops) (after op.run (start.perform ops)) :=
      Steps.stay (.step hk.right .refl)
    rw [perform_concat]
    cases concat_iff.mp hs
    case inr hs => exact Nat.lt_of_lt_of_le (hi hk.left hs.left) hc.lifetime.issued
    case inl hs =>
      obtain ⟨sought, name, rfl, _, rfl⟩ := hs
      have ht := hc.tracked ((Steps.perform hk.left).stay.tracked h)
      rw [Op.run, after_returns] at ht ⊢
      obtain ⟨_, kind, _, hl⟩ := @exists_lookup?_seek (start.perform ops) name sought
      obtain ⟨_, hl⟩ := Arena.contains_iff.mp (ht.intact.indexed.contains_of_lookup? hl)
      exact Arena.lt_next hl

end Supposed

theorem mem_placeholders_perform (hk : ∀ op ∈ ops, op.KeepsPlaces) (h : start.Tracked) (hn : start.placeholders = [])
    (hl : (start.perform ops).graph.types.contains id) :
    id ∈ (start.perform ops).placeholders ↔ Supposed start ops id := by
  induction ops using List.reverseRecOn
  case nil => simp [perform, hn, Supposed.not_nil]
  case append_singleton ops op hi =>
    rw [List.forall_mem_append, List.forall_mem_singleton] at hk
    have ht := (Steps.perform hk.left).stay.tracked h
    rw [perform_concat] at hl ⊢
    rw [Op.mem_placeholders hk.right ht.intact hl, Supposed.concat_iff]
    refine or_congr_right (and_congr_left fun _ => ?_)
    by_cases hp : (start.perform ops).graph.types.contains id
    case pos => exact hi hk.left hp
    case neg =>
      -- Types do not come back.
      have hc : Transitions (fun _ => False) (fun _ => False) (start.perform ops) (after op.run (start.perform ops)) :=
        Steps.stay (.step hk.right .refl)
      refine iff_of_false (fun hm => hp (ht.intact.stored.placeholders id hm)) fun hs => hp ?_
      exact hc.lifetime.dead (hs.issued hk.left h) hl

-- As long as no type is erased or moved directly, a type goes if and only if an interface is declared that goes by the
-- same name, and the type is a class in the default package that has been made up and not been declared since. A type
-- keeps its kind and its name, and leaves its package at most once, if that is the default package, for another one.
-- A type that has gone never comes back.
theorem types_stay_until_replaced {config : Config} (hc : create config = .ok start)
    (ho : ∀ op ∈ ops, op.KeepsPlaces) :
    let registry := start.perform ops
    (∀ (op : Op) id type, op.KeepsPlaces → registry.graph.type? id = some type →
      (¬ (after op.run registry).graph.types.contains id ↔
        ∃ name interface r, op = .build (.type .interface) name
          ∧ Action.buildType .interface name registry = .ok interface r ∧ Supposed start ops id ∧ type.kind = .cls
          ∧ type.package = registry.defaultPackage ∧ Text.lowercase type.header.name = (registry.split name).key))
    ∧ (∀ r id type type', Steps Op.KeepsPlaces registry r → registry.graph.type? id = some type →
      r.graph.type? id = some type' → type.Lasts registry.defaultPackage type')
    ∧ (∀ r₁ r₂ id type type₁ type₂, Steps Op.KeepsPlaces registry r₁ → Steps Op.KeepsPlaces r₁ r₂ →
      registry.graph.type? id = some type → r₁.graph.type? id = some type₁ → r₂.graph.type? id = some type₂ →
      type₁.package ≠ type.package → type₂.package = type₁.package)
    ∧ ∀ r₁ r₂ id, Steps Op.KeepsPlaces registry r₁ → Steps Op.KeepsPlaces r₁ r₂ → registry.graph.types.contains id →
      ¬ r₁.graph.types.contains id → ¬ r₂.graph.types.contains id := by
  intro registry
  obtain rfl := create_eq_ok hc
  have hs : (ofConfig config).Tracked := .ofConfig config
  have h : registry.Tracked := (Steps.perform ho).stay.tracked hs
  refine ⟨?goes, fun r id type type' hr ht ht' => hr.stay.lasts h ht ht', ?moves, ?returns⟩
  case goes =>
    intro op id type hk ht
    rw [h.goes_iff hk ht]
    simp only [registry, mem_placeholders_perform ho hs rfl (Arena.contains_of_get? ht)]
  case moves =>
    intro r₁ r₂ id type type₁ type₂ h₁ h₂ ht ht₁ ht₂ hm
    obtain ⟨_, hd⟩ := (h₁.stay.lasts h ht ht₁).package.resolve_left hm
    refine (h₂.stay.lasts (h₁.stay.tracked h) ht₁ ht₂).package.resolve_right fun he => ?_
    exact hd (he.left.trans h₁.stay.defaultPackage_eq)
  case returns =>
    intro r₁ r₂ id h₁ h₂ hl hn hl'
    obtain ⟨_, ht⟩ := Arena.contains_iff.mp hl
    exact hn (h₂.stay.lifetime.dead (Nat.lt_of_lt_of_le (Arena.lt_next ht) h₁.stay.lifetime.issued) hl')

-- A class that has been made up and then been moved to another package does not make way for an interface.
theorem types_stay_until_replaced_moved :
    let ops : List Op := [.seek .classOrInterface "Bar", .seek (.type .cls) "app.Bar"]
    Supposed (ofConfig {}) ops ⟨0⟩
    ∧ (after (Op.run (.build (.type .interface) "Bar")) ((ofConfig {}).perform ops)).graph.types.contains ⟨0⟩ := by
  intro ops
  have hc : create {} = .ok (ofConfig {}) := rfl
  have ho : ∀ op ∈ ops, op.KeepsPlaces := by simp [ops, Op.KeepsPlaces, Op.KeepsTypes]
  have hk : Op.KeepsPlaces (.build (.type .interface) "Bar") := by simp [Op.KeepsPlaces, Op.KeepsTypes]
  obtain ⟨hl, hp, hd⟩ : ((ofConfig {}).perform ops).graph.types.contains ⟨0⟩
      ∧ ⟨0⟩ ∈ ((ofConfig {}).perform ops).placeholders
      ∧ ((ofConfig {}).perform ops).graph.packageOf? ⟨0⟩ ≠ some ((ofConfig {}).perform ops).defaultPackage := by
    decide +kernel
  refine ⟨(mem_placeholders_perform ho (.ofConfig {}) rfl hl).mp hp, Decidable.not_not.mp fun hn => ?_⟩
  obtain ⟨type, ht⟩ := Arena.contains_iff.mp hl
  obtain ⟨_, _, _, _, _, _, _, he, _⟩ := ((types_stay_until_replaced hc ho).left _ _ type hk ht).mp hn
  refine hd ?_
  rw [Graph.packageOf?, Graph.type?, ht, Option.map_some, he]

end Registry
end PackageCoupling
