import PackageCoupling.Proofs.Graph.Placement
import PackageCoupling.Proofs.Registry.Names

namespace PackageCoupling.Registry

variable {registry registry' : Registry} {kind : TypeKind} {name : QualifiedName} {gone moved : TypeId → Prop}
variable {date : Nat}

-- The generations are divided by a date. As long as there is only one generation the date is the beginning of time.
structure Divided (registry : Registry) (date : Nat) : Prop where
  frozen : ∀ e ∈ registry.frozen.entries, e.id.val < date
  active : ∀ e ∈ registry.active.entries, date ≤ e.id.val ∧ e.id.val < registry.graph.types.next.val
  placeholders : ∀ id ∈ registry.placeholders, date ≤ id.val
  issued : date ≤ registry.graph.types.next.val
  unfrozen : registry.isFrozen = false → date = 0 ∧ registry.placeholders = []

namespace Divided

theorem ofConfig (config : Config) : (Registry.ofConfig config).Divided 0 where
  frozen e h       := by simp [Registry.ofConfig, EmptyCollection.emptyCollection] at h
  active e h       := by simp [Registry.ofConfig, EmptyCollection.emptyCollection] at h
  placeholders e h := by simp [Registry.ofConfig] at h
  issued           := Nat.zero_le _
  unfrozen _       := ⟨rfl, rfl⟩

theorem not_mem_placeholders (h : registry.Divided date) :
    ∀ e ∈ registry.frozen.entries, e.id ∉ registry.placeholders := by
  intro e he hp
  exact Nat.not_le_of_lt (h.frozen e he) (h.placeholders e.id hp)

theorem freeze (h : registry.Divided date) (hf : registry.isFrozen = false) :
    registry.freeze.Divided registry.graph.types.next.val := by
  have ⟨_, hp⟩ := h.unfrozen hf
  rw [Registry.freeze, if_neg (by simp [hf])]
  constructor
  case frozen       => exact fun e he => (h.active e he).right
  case active       => simp [EmptyCollection.emptyCollection]
  case placeholders => simp [hp]
  case issued       => exact Nat.le_refl _
  case unfrozen     => simp

theorem edit {graph : Graph} (h : registry.Divided date)
    (hn : registry.graph.types.next.val ≤ graph.types.next.val) : { registry with graph }.Divided date :=
  { h with
    active e he := ⟨(h.active e he).left, Nat.lt_of_lt_of_le (h.active e he).right hn⟩
    issued      := Nat.le_trans h.issued hn }

theorem newType (h : registry.Divided date) : (registry.newType kind name).2.Divided date := by
  have hl : Graph.Changes (fun _ => False) registry.graph
      (registry.graph.newType kind name.localName name.package).2 :=
    Graph.newType_changes kind name.localName name.package
  have ⟨_, hc⟩ := Arena.contains_iff.mp (@Graph.contains_newType registry.graph kind name.localName name.package)
  rw [congrArg Prod.fst (Graph.newType_eq kind name.localName name.package)] at hc
  rw [newType_eq]
  refine { h.edit hl.lifetime.issued with active := ?_ }
  intro e he
  cases List.mem_append.mp he
  case inl he => exact (h.edit hl.lifetime.issued).active e he
  case inr he => exact List.mem_singleton.mp he ▸ ⟨h.issued, Arena.lt_next hc⟩

end Divided

theorem Transition.divided (hc : Transition gone moved registry registry') (h : registry.Divided date)
    (hf : registry'.isFrozen = registry.isFrozen) : registry'.Divided date := by
  cases hc
  case edit hg => exact h.edit (Graph.Transitions.lifetime hg).issued
  case freeze =>
    rw [Registry.freeze] at hf ⊢
    split
    case isTrue    => exact h
    case isFalse h => simp [h] at hf
  case create  => exact h.newType
  case suppose hf _ =>
    refine { h.newType with placeholders := ?_, unfrozen := fun hu => absurd hf (by simp_all [Registry.newType]) }
    intro id hi
    cases (Distinct.mem_add.mp hi)
    case inl hi => exact h.placeholders id hi
    case inr hi => exact hi ▸ newType_eq ▸ h.issued
  case promote name id _ _ _ _ =>
    have hl : Graph.Changes (fun _ => False) registry.graph (registry.graph.relocate id name.package).2 :=
      Graph.relocate_changes id name.package
    refine { h.edit hl.lifetime.issued with active := ?_ }
    intro e he
    obtain ⟨e', he', hi⟩ := Generation.id_of_mem_relocate he
    exact hi ▸ (h.edit hl.lifetime.issued).active e' he'
  case declare id =>
    exact { h with
      placeholders i hi := h.placeholders i (Distinct.mem_remove.mp hi).left
      unfrozen hu       := ⟨(h.unfrozen hu).left, by simp [(h.unfrozen hu).right, Distinct.remove]⟩ }
  case reconcile cls _ _ _ _ graph _ _ _ hp hg _ =>
    have hl : Graph.Changes (· = cls) registry.graph graph := hg rfl
    have he := h.edit hl.lifetime.issued
    exact { he with
      frozen e hm       := h.frozen e (List.mem_filter.mp hm).left
      active e hm       := he.active e (List.mem_filter.mp hm).left
      placeholders i hi := h.placeholders i (Distinct.mem_remove.mp hi).left
      unfrozen hu       := ⟨(h.unfrozen hu).left, by simp [(h.unfrozen hu).right, Distinct.remove]⟩ }
  case finalize => exact { h with }

theorem Transitions.divided (hc : Transitions gone moved registry registry') (h : registry.Divided date)
    (hf : registry.isFrozen) : registry'.Divided date ∧ registry'.frozen = registry.frozen := by
  induction hc
  case refl => exact ⟨h, rfl⟩
  case tail b c hr hc hi =>
    have hb : b.isFrozen := Transitions.isFrozen hr hf
    have ⟨hd, he⟩ := hi
    exact ⟨hc.divided hd (by rw [hb, hc.isFrozen hb]), (hc.frozen_eq hd.not_mem_placeholders hb).trans he⟩

theorem Transition.exists_divided (hc : Transition gone moved registry registry')
    (h : ∃ date, registry.Divided date) : ∃ date, registry'.Divided date := by
  have ⟨date, h⟩ := h
  cases hf : registry.isFrozen
  case true => exact ⟨date, hc.divided h (by rw [hf, hc.isFrozen hf])⟩
  case false =>
    cases hf' : registry'.isFrozen
    case false => exact ⟨date, hc.divided h (by rw [hf, hf'])⟩
    case true  => exact ⟨_, hc.eq_freeze hf hf' ▸ h.freeze hf⟩

theorem Reachable.divided {allowed : Op → Prop} (h : registry.Reachable allowed) : ∃ date, registry.Divided date := by
  have ⟨config, hc⟩ : ∃ config, Changes (fun _ => True) (Registry.ofConfig config) registry :=
    h.changes fun _ _ => trivial
  exact hc.preserve Transition.exists_divided ⟨0, .ofConfig config⟩

-- Of its own accord a registry erases and moves only what is younger than its frozen generation.
theorem Transitions.graph (hc : Transitions (fun _ => False) (fun _ => False) registry registry')
    (h : registry.Divided date) (hf : registry.isFrozen) :
    Graph.Transitions (date ≤ ·.val) (date ≤ ·.val) registry.graph registry'.graph := by
  induction hc
  case refl => exact .refl
  case tail hr hc hi =>
    have ⟨hd, _⟩ := Transitions.divided hr h hf
    refine hi.trans (hc.graph (fun _ => False.elim) (fun _ => False.elim) hd.placeholders ?_)
    exact fun e he => (hd.active e he).left

theorem Action.divided_buildType {name : String} {id : TypeId} (h : registry.Divided date) (hf : registry.isFrozen)
    (hb : Action.buildType kind name registry = .ok id registry') : date ≤ id.val := by
  have ⟨hi, _, _⟩ := Action.buildType_ok hb
  have hc : Changes (fun _ => False) registry (Action.declared registry kind (registry.split name)) :=
    Action.declared_changes kind (split_key name)
  have ⟨e, he, hi', _⟩ := Generation.exists_entry_of_find? (@Action.find?_declared registry kind (registry.split name))
  have ⟨hd, _⟩ := hc.divided h hf
  exact hi ▸ hi' ▸ (hd.active e (Generation.mem_named.mp he).left).left

theorem seek_freeze {sought : Sought} {name : String} :
    registry.freeze.seek sought name = registry.seek sought name := by
  rw [Registry.seek, Registry.seek, freeze_of_isFrozen isFrozen_freeze]

def Op.IsOwn (op : Op) : Prop :=
  ∀ edit, op ≠ .edit edit

-- Whatever is done after the first request for a type, what had been declared before it stays frozen as it was, later
-- declarations come up with types that are newer than the request, and no operation on the registry itself erases a
-- frozen type or takes it out of its package.
theorem frozen_types_stay_apart (h : registry.Reachable fun _ => True) (hf : registry.isFrozen = false)
    (sought : Sought) (name : String) {r : Registry} (hs : Steps (fun _ => True) (registry.seek sought name).2 r) :
    r.frozen = registry.active
    ∧ (∀ kind name id r', Action.buildType kind name r = .ok id r' → registry.graph.types.next.val ≤ id.val)
    ∧ ∀ op, Op.IsOwn op → ∀ e ∈ r.frozen.entries,
      (after op.run r).graph.packageOf? e.id = r.graph.packageOf? e.id := by
  have ⟨_, hd⟩ := h.divided
  have hc : Changes (fun _ => True) registry.freeze r :=
    (seek_freeze ▸ seek_changes sought name).trans (hs.changes fun _ _ => trivial)
  have hr : r.isFrozen := hc.isFrozen isFrozen_freeze
  obtain ⟨hd, he⟩ := hc.divided (hd.freeze hf) isFrozen_freeze
  refine ⟨?unchanged, ?newer, ?untouched⟩
  case unchanged => rw [he, Registry.freeze, if_neg (by simp [hf])]
  case newer     => exact fun kind name id r' hb => Action.divided_buildType hd hr hb
  case untouched =>
    intro op ho e hm
    have hg := Transitions.graph (Op.transitions (fun t he => ho _ he) fun t p he => ho _ he) hd hr
    have ha : e.id.val < registry.graph.types.next.val := hd.frozen e hm
    exact hg.packageOf? (Nat.lt_of_lt_of_le ha hd.issued) (Nat.not_le_of_lt ha) (Nat.not_le_of_lt ha)

-- A class that is declared in the default package before the types are frozen, and that no class of the same name in
-- another package moves afterwards.
theorem frozen_types_stay_apart_declared :
    let later := [.build (.type .interface) "Thing", .build (.type .cls) "a.Shape", .edit (.eraseType ⟨1⟩), .finalize]
    ∃ id r₁, Action.buildType .cls "Shape" (ofConfig {}) = .ok id r₁ ∧ r₁.isFrozen = false ∧
      let r₂ := (r₁.seek .classOrInterface "Thing").2.perform later
      r₂.frozen = r₁.active ∧ (after (Op.run (.build (.type .cls) "b.Shape")) r₂).graph.packageOf? id
        = r₂.graph.packageOf? id := by
  intro later
  have hb : Action.buildType .cls "Shape" (ofConfig {})
      = .ok ((ofConfig {}).resolve .cls ((ofConfig {}).split "Shape")).1
        (Action.declared (ofConfig {}) .cls ((ofConfig {}).split "Shape")) := Action.buildType_apply .cls "Shape"
  have hd : (ofConfig {}).perform [.build (.type .cls) "Shape"]
      = Action.declared (ofConfig {}) .cls ((ofConfig {}).split "Shape") := by
    rw [perform, List.foldl_cons, List.foldl_nil, Op.run, after_returns, after, hb]
  have h : (Action.declared (ofConfig {}) .cls ((ofConfig {}).split "Shape")).Reachable fun _ => True :=
    ⟨{}, ofConfig {}, rfl, hd ▸ .perform fun _ _ => trivial⟩
  have hf : (Action.declared (ofConfig {}) .cls ((ofConfig {}).split "Shape")).isFrozen = false :=
    Action.isFrozen_declared
  have hk := @Action.find?_declared (ofConfig {}) .cls ((ofConfig {}).split "Shape")
  obtain ⟨e, hm, hi, _⟩ := Generation.exists_entry_of_find? hk
  obtain ⟨he, _, hp⟩ :=
    frozen_types_stay_apart h hf .classOrInterface "Thing" (@Steps.perform _ _ later fun _ _ => trivial)
  refine ⟨_, _, hb, hf, he, hi ▸ hp _ (by simp [Op.IsOwn]) e ?_⟩
  exact he ▸ (Generation.mem_named.mp hm).left

end PackageCoupling.Registry
