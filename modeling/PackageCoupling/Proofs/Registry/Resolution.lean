import PackageCoupling.Proofs.Registry.Freeze

namespace PackageCoupling

namespace Graph

variable {graph graph' : Graph} {generation : Generation} {kind : TypeKind} {key package : String} {id : TypeId}
variable {gone moved : TypeId → Prop}

def Confirms (graph : Graph) (generation : Generation) : Prop :=
  ∀ e ∈ generation.entries, graph.Houses e.id e.kind e.key e.package

namespace Confirms

theorem empty : graph.Confirms ∅ := by
  intro e he
  simp [EmptyCollection.emptyCollection] at he

theorem persists (h : graph.Confirms generation) (hc : Transitions gone moved graph graph')
    (hm : ∀ e ∈ generation.entries, ¬ moved e.id) (hl : ∀ e ∈ generation.entries, graph'.types.contains e.id) :
    graph'.Confirms generation :=
  fun e he => (h e he).persists hc (hm e he) (hl e he)

theorem insert (h : graph.Confirms generation) (hh : graph.Houses id kind key package) :
    graph.Confirms (generation.insert kind key package id) := by
  intro e he
  cases List.mem_append.mp he
  case inl he => exact h e he
  case inr he => exact List.mem_singleton.mp he ▸ hh

theorem remove (h : graph.Confirms generation) : graph.Confirms (generation.remove kind key id) :=
  fun e he => h e (List.mem_filter.mp he).left

theorem relocate {e : Entry} (h : graph.Confirms generation) (hw : graph.Ownership)
    (hd : (generation.entries.map (·.id)).Nodup) (he : e ∈ generation.named kind key) :
    (graph.relocate e.id package).2.Confirms (generation.relocate kind key e.id package) := by
  have hc : Transitions (fun _ => False) (· = e.id) graph (graph.relocate e.id package).2 :=
    relocate_transitions (by rfl) package
  have ⟨hm, hk, hy⟩ := Generation.mem_named.mp he
  intro e' he'
  cases Generation.mem_relocate he'
  case inl he' =>
    have hh := h e' he'.left
    refine hh.persists hc (fun hi => ?_) (hc.lifetime.stays hh.contains fun h => h)
    -- No other entry is one of the same type.
    obtain rfl := List.inj_on_of_nodup_map hd he'.left hm hi
    exact he'.right ⟨hk, hy, rfl⟩
  case inr he' =>
    obtain ⟨e₁, he₁, hi, rfl⟩ := he'
    exact hi ▸ (h e₁ (Generation.mem_named.mp he₁).left).relocate hw

end Confirms
end Graph

namespace Registry

variable {registry registry' : Registry} {kind : TypeKind} {name : QualifiedName} {id : TypeId}

-- The generations agree with the graph.
structure Accurate (registry : Registry) : Prop where
  indexed : registry.Indexed
  divided : ∃ date, registry.Divided date
  ownership : registry.graph.Ownership
  active : registry.graph.Confirms registry.active
  frozen : registry.graph.Confirms registry.frozen

theorem Accurate.ofConfig (config : Config) : (Registry.ofConfig config).Accurate where
  indexed   := .ofConfig config
  divided   := ⟨0, .ofConfig config⟩
  ownership := by
    have hc : Graph.Changes (fun _ => False) ∅ (Registry.ofConfig config).graph :=
      Graph.ensurePackage_changes config.defaultPackage
    exact hc.ownership
  active    := .empty
  frozen    := .empty

theorem Accurate.newType (h : registry.Accurate) (hk : name.key = Text.lowercase name.localName) :
    (registry.newType kind name).2.graph.Confirms (registry.newType kind name).2.active
      ∧ (registry.newType kind name).2.graph.Confirms registry.frozen := by
  have hc : Graph.Transitions (fun _ => False) (fun _ => False) registry.graph
      (registry.newType kind name).2.graph := Graph.newType_changes kind name.localName name.package
  have ha := h.active.persists hc (fun _ _ h => h) fun e he => hc.lifetime.stays (h.indexed.live e he) fun h => h
  have hf := h.frozen.persists hc (fun _ _ h => h) fun e he =>
    hc.lifetime.stays (h.indexed.declared e he).left fun h => h
  rw [newType_eq] at ha hf ⊢
  exact ⟨ha.insert (hk ▸ Graph.newType_houses h.ownership kind name.localName name.package), hf⟩

theorem Transition.accurate (hc : Transition (fun _ => False) (fun _ => False) registry registry')
    (h : registry.Accurate) : registry'.Accurate := by
  have hi := hc.indexed h.indexed
  have hw : registry'.graph.Ownership := by
    have hg : Graph.Changes (fun _ => True) registry.graph registry'.graph :=
      hc.graph (fun _ => False.elim) (fun _ => False.elim) (fun _ _ => trivial) fun _ _ => trivial
    exact hg.preserve Graph.Transition.ownership h.ownership
  obtain ⟨ha, hf⟩ : registry'.graph.Confirms registry'.active ∧ registry'.graph.Confirms registry'.frozen := by
    cases hc
    case edit hg =>
      exact ⟨h.active.persists hg (fun _ _ h => h) hi.live,
        h.frozen.persists hg (fun _ _ h => h) fun e he => (hi.declared e he).left⟩
    case freeze =>
      rw [Registry.freeze]
      split
      case isTrue  => exact ⟨h.active, h.frozen⟩
      case isFalse => exact ⟨.empty, h.active⟩
    case create hk _      => exact h.newType hk
    case suppose hk _ _   => exact h.newType hk
    case promote kind name id _ ho _ _ =>
      obtain ⟨e₀, hn, _, rfl⟩ := Generation.only?_eq_some.mp ho
      have hm : e₀ ∈ registry.active.named kind name.key := hn ▸ List.mem_singleton_self e₀
      have hg : Graph.Transitions (fun _ => False) (· = e₀.id) registry.graph
        (registry.graph.relocate e₀.id name.package).2 := Graph.relocate_transitions (by rfl) name.package
      refine ⟨h.active.relocate h.ownership h.indexed.distinct hm, h.frozen.persists hg (fun e he hi => ?_) ?_⟩
      case refine_1 =>
        -- Frozen types are older than the one that moves.
        obtain ⟨date, hd⟩ := h.divided
        exact Nat.not_le_of_lt (hd.frozen e he) (hi ▸ (hd.active e₀ (Generation.mem_named.mp hm).left).left)
      case refine_2 => exact fun e he => (hi.declared e he).left
    case declare  => exact ⟨h.active, h.frozen⟩
    case finalize => exact ⟨h.active, h.frozen⟩
    case reconcile cls _ _ _ _ graph _ _ _ hp hg _ =>
      have hg : Graph.Transitions (· = cls) (fun _ => False) registry.graph graph := hg rfl
      exact ⟨h.active.remove.persists hg (fun _ _ h => h) hi.live,
        h.frozen.remove.persists hg (fun _ _ h => h) fun e he => (hi.declared e he).left⟩
  exact ⟨hi, hc.exists_divided h.divided, hw, ha, hf⟩

theorem Transitions.accurate (hc : Transitions (fun _ => False) (fun _ => False) registry registry')
    (h : registry.Accurate) : registry'.Accurate :=
  hc.preserve Transition.accurate h

def Op.KeepsPlaces (op : Op) : Prop :=
  op.KeepsTypes ∧ ∀ type package, op ≠ .edit (.relocate type package)

theorem Reachable.accurate (h : registry.Reachable Op.KeepsPlaces) : registry.Accurate := by
  have ⟨config, hc⟩ : ∃ config, Transitions (fun _ => False) (fun _ => False) (Registry.ofConfig config) registry :=
    h.transitions (fun type ht => ht.left type rfl) fun type package ht => ht.right type package rfl
  exact hc.accurate (.ofConfig config)

-- A type is one that a name may stand for. Which package it belongs to is open if the name does not say so.
def Answers (registry : Registry) (id : TypeId) (kind : TypeKind) (name : QualifiedName) : Prop :=
  ∃ package, registry.graph.Houses id kind name.key package
    ∧ (name.package ≠ registry.config.defaultPackage → package = name.package)

theorem answers_of_find? {generation : Generation} (h : registry.graph.Confirms generation)
    (hf : generation.find? kind name.key name.package registry.config.defaultPackage = some id) :
    registry.Answers id kind name := by
  obtain ⟨e, he, rfl, hp⟩ := Generation.exists_entry_of_find? hf
  obtain ⟨hm, rfl, hk⟩ := Generation.mem_named.mp he
  exact ⟨e.package, hk ▸ h e hm, hp⟩

theorem Accurate.answers (h : registry.Accurate) (hk : registry.lookup? kind name = some id) :
    registry.Answers id kind name := by
  cases lookup?_eq_some.mp hk
  case inl hk => exact answers_of_find? h.frozen hk
  case inr hk => exact answers_of_find? h.active hk.right

-- As long as no type is erased or moved directly, the generations agree with the graph, and whether a name is asked
-- for or declared, it is resolved by a type that is there, of a kind that has been asked for and of that name, and
-- that belongs to the package that is named, if it is not the default package.
theorem names_resolve_to_their_types (h : registry.Reachable Op.KeepsPlaces) :
    (registry.graph.Confirms registry.active ∧ registry.graph.Confirms registry.frozen)
    ∧ (∀ sought name, ∃ kind ∈ sought.kinds,
      (registry.seek sought name).2.Answers (registry.seek sought name).1 kind (registry.split name))
    ∧ ∀ kind name id r, Action.buildType kind name registry = .ok id r → r.Answers id kind (registry.split name) := by
  have ha := h.accurate
  refine ⟨⟨ha.active, ha.frozen⟩, ?sought, ?declared⟩
  case sought =>
    intro sought name
    have ⟨_, kind, hk, hl⟩ := @exists_lookup?_seek registry name sought
    have hc : Transitions (fun _ => False) (fun _ => False) registry _ := seek_changes sought name
    exact ⟨kind, hk, (hc.accurate ha).answers hl⟩
  case declared =>
    intro kind name id r hb
    have hc : Transitions (fun _ => False) (fun _ => False) registry r := Action.changes_of_buildType hb
    have hd := Action.buildType_declares ha.indexed hb
    exact answers_of_find? (hc.accurate ha).active hd.found

-- A class that is declared without a package and moves by a second declaration is found in the package of the latter.
theorem names_resolve_to_their_types_moved :
    let registry := (ofConfig {}).perform [.build (.type .cls) "Shape", .build (.type .cls) "a.Shape",
      .seek .classOrInterface "Thing", .build (.type .interface) "Thing"]
    registry.Reachable Op.KeepsPlaces
      ∧ (registry.seek (.type .cls) "a.SHAPE").2.graph.Houses (registry.seek (.type .cls) "a.SHAPE").1
        .cls "shape" "a" := by
  intro registry
  have h : registry.Reachable Op.KeepsPlaces := by
    refine ⟨{}, ofConfig {}, rfl, .perform ?_⟩
    simp [Op.KeepsPlaces, Op.KeepsTypes]
  obtain ⟨kind, hk, package, hh, hp⟩ := (names_resolve_to_their_types h).right.left (.type .cls) "a.SHAPE"
  obtain ⟨hs, hd⟩ : registry.split "a.SHAPE" = { localName := "SHAPE", key := "shape", package := "a" }
      ∧ (registry.seek (.type .cls) "a.SHAPE").2.config.defaultPackage ≠ "a" := by
    decide +kernel
  rw [hs] at hh hp
  rw [List.mem_singleton.mp hk, hp hd.symm] at hh
  exact ⟨h, hh⟩

end Registry
end PackageCoupling
