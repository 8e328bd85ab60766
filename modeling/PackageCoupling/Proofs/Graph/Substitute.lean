import PackageCoupling.Proofs.Edges

namespace PackageCoupling.Graph

variable {graph graph' : Graph} {source target a b : TypeId}

def Depends (graph : Graph) (source target : TypeId) : Prop :=
  ∃ decl, graph.type? source = some decl ∧ target ∈ decl.dependencies

theorem depends_iff {decl : TypeDecl} (h : graph.type? source = some decl) :
    graph.Depends source target ↔ target ∈ decl.dependencies := by
  simp [Depends, h]

theorem depends_insertEdge (hs : graph.types.contains source) :
    (graph.insertEdge source target).Depends a b ↔ graph.Depends a b ∨ a = source ∧ b = target := by
  have ⟨s, hs⟩ := contains_type.mp hs
  simp only [Depends, type?_insertEdge, Option.map_eq_some_iff]
  cases ha : graph.type? a
  case none =>
    have : a ≠ source := fun h => by simp [h, hs] at ha
    simp [this]
  case some decl => by_cases h : source = a <;> simp [h, eq_comm (a := a)]

theorem depends_eraseEdge :
    (graph.eraseEdge source target).Depends a b ↔ graph.Depends a b ∧ ¬(a = source ∧ b = target) := by
  simp only [Depends, type?_eraseEdge, Option.map_eq_some_iff]
  cases graph.type? a
  case none      => simp
  case some decl => by_cases h : source = a <;> simp [h, eq_comm (a := a)]

theorem Rewires.contains (h : Rewires graph graph') (hc : graph.types.contains a) : graph'.types.contains a := by
  have ⟨_, ht⟩ := contains_type.mp hc
  have ⟨t, ht, _⟩ := h.type?_eq ht
  exact contains_type.mpr ⟨t, ht⟩

namespace Edit

variable {α β : Type} {edit : Edit α} {R R' : TypeId → TypeId → Prop}

-- An edit is not refused, changes nothing but dependencies and leaves those that are given.
def Leaves (edit : Edit α) (graph : Graph) (R : TypeId → TypeId → Prop) : Prop :=
  ∃ a graph', edit graph = .ok a graph' ∧ Rewires graph graph' ∧ ∀ s t, graph'.Depends s t ↔ R s t

namespace Leaves

theorem congr (h : edit.Leaves graph R) (hr : ∀ s t, R s t ↔ R' s t) : edit.Leaves graph R' := by
  have ⟨a, g, he, hg, hd⟩ := h
  exact ⟨a, g, he, hg, fun s t => (hd s t).trans (hr s t)⟩

theorem pure {a : α} : (pure a : Edit α).Leaves graph graph.Depends :=
  ⟨a, graph, rfl, .refl, fun _ _ => .rfl⟩

theorem bind {k : α → Edit β} (h : edit.Leaves graph R)
    (hk : ∀ a g, Rewires graph g → (∀ s t, g.Depends s t ↔ R s t) → (k a).Leaves g R') :
    (edit >>= k).Leaves graph R' := by
  have ⟨a, g, he, hg, hd⟩ := h
  have ⟨b, g', he', hg', hd'⟩ := hk a g hg hd
  exact ⟨b, g', by rw [bind_apply, he, ← he'], hg.trans hg', hd'⟩

theorem discard (h : edit.Leaves graph R) : (discard edit).Leaves graph R := by
  have ⟨a, g, he, hg, hd⟩ := h
  exact ⟨⟨⟩, g, by rw [discard_apply, he], hg, hd⟩

end Leaves

theorem connect_apply {s t : TypeDecl} (hs : graph.type? source = some s) (ht : graph.type? target = some t) :
    connect source target graph =
      if source = target ∨ target ∈ s.dependencies then .ok false graph
      else .ok true (graph.insertEdge source target) := by
  simp only [connect, bind_apply, discard_apply, requireType_apply, hs, ht]
  split <;> rfl

theorem disconnect_apply {s t : TypeDecl} (hs : graph.type? source = some s) (ht : graph.type? target = some t) :
    disconnect source target graph = .ok (decide (target ∈ s.dependencies)) (graph.eraseEdge source target) := by
  simp only [disconnect, bind_apply, discard_apply, requireType_apply, hs, ht]
  rfl

theorem connect_leaves (hs : graph.types.contains source) (ht : graph.types.contains target) :
    (connect source target).Leaves graph fun a b => graph.Depends a b ∨ a = source ∧ b = target ∧ source ≠ target := by
  have ⟨s, hs'⟩ := contains_type.mp hs
  have ⟨t, ht'⟩ := contains_type.mp ht
  have he := connect_apply hs' ht'
  by_cases h : source = target ∨ target ∈ s.dependencies
  case pos =>
    rw [if_pos h] at he
    refine ⟨false, graph, he, .refl, fun a b => ?_⟩
    simp only [iff_self_or]
    rintro ⟨rfl, rfl, hn⟩
    exact ⟨s, hs', h.resolve_left hn⟩
  case neg =>
    rw [if_neg h] at he
    rw [not_or] at h
    refine ⟨true, _, he, (connect_rewires source target).of_ok he, fun a b => ?_⟩
    simp [depends_insertEdge hs, h.left]

theorem disconnect_leaves (hs : graph.types.contains source) (ht : graph.types.contains target) :
    (disconnect source target).Leaves graph fun a b => graph.Depends a b ∧ ¬(a = source ∧ b = target) := by
  have ⟨s, hs'⟩ := contains_type.mp hs
  have ⟨t, ht'⟩ := contains_type.mp ht
  have he := disconnect_apply hs' ht'
  exact ⟨_, _, he, (disconnect_rewires source target).of_ok he, fun a b => depends_eraseEdge⟩

-- Other dependencies take the place of those that a type is the end of, one by one. None of them is one that
-- is still to go.
theorem exchange_leaves {new : TypeId} {ends : List TypeId} {former latter : TypeId → TypeId × TypeId}
    (ho : ∀ t ∈ ends, graph.types.contains (former t).1 ∧ graph.types.contains (former t).2)
    (hn : ∀ t ∈ ends, graph.types.contains (latter t).1 ∧ graph.types.contains (latter t).2)
    (hd : ∀ t, t ≠ new → (latter t).1 ≠ (latter t).2) (hne : ∀ t u, latter t ≠ former u) :
    Leaves (ends.forM fun t => do
      discard (disconnect (former t).1 (former t).2)
      if t ≠ new then
        discard (connect (latter t).1 (latter t).2)) graph
      fun a b => graph.Depends a b ∧ (∀ t ∈ ends, (a, b) ≠ former t) ∨ ∃ t ∈ ends, t ≠ new ∧ (a, b) = latter t := by
  induction ends generalizing graph
  case nil => exact Leaves.congr .pure (by simp)
  case cons t ends hi =>
    rw [List.forall_mem_cons] at ho hn
    have hr : Leaves (do
        discard (disconnect (former t).1 (former t).2)
        if t ≠ new then
          discard (connect (latter t).1 (latter t).2)) graph
        fun a b => graph.Depends a b ∧ (a, b) ≠ former t ∨ t ≠ new ∧ (a, b) = latter t := by
      refine (disconnect_leaves ho.left.left ho.left.right).discard.bind fun _ g hg he => ?_
      split
      case isTrue h =>
        refine (connect_leaves (hg.contains hn.left.left) (hg.contains hn.left.right)).discard.congr fun a b => ?_
        simp [he, Prod.ext_iff, h, hd t h]
      case isFalse h =>
        refine Leaves.congr .pure fun a b => ?_
        simp [he, Prod.ext_iff, h]
    refine hr.bind fun _ g hg he => ?_
    have hl (p : TypeId × TypeId) (h : graph.types.contains p.1 ∧ graph.types.contains p.2) :
        g.types.contains p.1 ∧ g.types.contains p.2 := ⟨hg.contains h.left, hg.contains h.right⟩
    refine (hi (fun u hu => hl _ (ho.right u hu)) fun u hu => hl _ (hn.right u hu)).congr fun a b => ?_
    have := hne t
    grind

end Edit

theorem contains_substitutePlaces {old new : TypeId} :
    (graph.substitutePlaces old new).types.contains a = graph.types.contains a := by
  simp [substitutePlaces, Arena.contains]

theorem depends_substitutePlaces {old new : TypeId} :
    (graph.substitutePlaces old new).Depends a b ↔ graph.Depends a b := by
  simp [Depends, type?, substitutePlaces, TypeDecl.substitute]

theorem Reciprocal.mem_children {decl : TypeDecl} (h : graph.Reciprocal) (hb : graph.type? b = some decl) :
    a ∈ decl.children ↔ graph.Depends a b := by
  constructor
  case mp =>
    intro ha
    have ⟨s, hs⟩ := contains_type.mp (h.child_live hb ha)
    exact ⟨s, hs, (h.dependency_iff hs hb).mpr ha⟩
  case mpr =>
    intro ⟨s, hs, hd⟩
    exact (h.dependency_iff hs hb).mp hd

theorem Reciprocal.isolated {decl : TypeDecl} (h : graph.Reciprocal) (ht : graph.type? a = some decl)
    (hs : ∀ b, ¬ graph.Depends a b) (hc : ∀ b, ¬ graph.Depends b a) : decl.dependencies = [] ∧ decl.children = [] := by
  constructor
  case left  => exact List.eq_nil_iff_forall_not_mem.mpr fun b hb => hs b ((depends_iff ht).mpr hb)
  case right => exact List.eq_nil_iff_forall_not_mem.mpr fun b hb => hc b ((h.mem_children ht).mp hb)

-- The dependencies that there are once a type has been put in the place of another one: it depends on what the
-- other one did, and what depended on the other one depends on it.
def Handover (graph : Graph) (old new a b : TypeId) : Prop :=
  graph.Depends a b ∧ a ≠ old ∧ b ≠ old
    ∨ a = new ∧ graph.Depends old b ∧ b ≠ new
    ∨ b = new ∧ graph.Depends a old ∧ a ≠ new

theorem Edit.substitute_apply {old new : TypeId} {decl : TypeDecl} {g₁ g₂ : Graph} {u v : PUnit}
    (ho : graph.type? old = some decl) (hn : graph.types.contains new)
    (hd : (decl.dependencies.forM fun target => do
      discard (disconnect old target)
      if target ≠ new then
        discard (connect new target)) (graph.substitutePlaces old new) = .ok u g₁)
    (hc : (decl.children.forM fun child => do
      discard (disconnect child old)
      if child ≠ new then
        discard (connect child new)) g₁ = .ok v g₂) :
    Edit.substitute old new graph
      = .ok (graph.places old + decl.dependencies.length + decl.children.length
        + decl.methods.length + decl.properties.length + decl.constants.length) (g₂.moveMembers decl old new) := by
  obtain ⟨t, hn⟩ := contains_type.mp hn
  simp only [substitute, bind_apply, discard_apply, requireType_apply, ho, hn, modifyGet_apply, hd, hc]
  rfl

theorem Edit.substitute_ok {old new : TypeId} {decl : TypeDecl} (h : graph.Reciprocal)
    (ho : graph.type? old = some decl) (hn : graph.types.contains new) (hne : old ≠ new) :
    ∃ g, Edit.substitute old new graph
        = .ok (graph.places old + decl.dependencies.length + decl.children.length
          + decl.methods.length + decl.properties.length + decl.constants.length) (g.moveMembers decl old new)
      ∧ Rewires (graph.substitutePlaces old new) g
      ∧ ∀ a b, g.Depends a b ↔ graph.Handover old new a b := by
  have hc {t : TypeId} (ht : graph.types.contains t) : (graph.substitutePlaces old new).types.contains t := by
    rwa [contains_substitutePlaces]
  have hl : graph.types.contains old := contains_type.mpr ⟨decl, ho⟩
  have ⟨_, g₁, he₁, hr₁, hd₁⟩ := @exchange_leaves (graph.substitutePlaces old new) new decl.dependencies (old, ·) (new, ·)
    (fun t ht => ⟨hc hl, hc (h.dependency_live ho ht)⟩) (fun t ht => ⟨hc hn, hc (h.dependency_live ho ht)⟩)
    (fun t ht he => ht he.symm) fun t u he => hne (congrArg Prod.fst he).symm
  have hc {t : TypeId} (ht : graph.types.contains t) : g₁.types.contains t := hr₁.contains (hc ht)
  have ⟨_, g₂, he₂, hr₂, hd₂⟩ := @exchange_leaves g₁ new decl.children (·, old) (·, new)
    (fun t ht => ⟨hc (h.child_live ho ht), hc hl⟩) (fun t ht => ⟨hc (h.child_live ho ht), hc hn⟩)
    (fun t ht he => ht he) fun t u he => hne (congrArg Prod.snd he).symm
  refine ⟨g₂, substitute_apply ho hn he₁ he₂, hr₁.trans hr₂, fun a b => ?_⟩
  have hs := h.dependency_ne ho
  simp only [Handover, hd₂, hd₁, depends_substitutePlaces, h.mem_children ho, ← depends_iff ho, Prod.mk.injEq] at hs ⊢
  grind

theorem depends_moveMembers {old new : TypeId} {decl : TypeDecl} :
    (graph.moveMembers decl old new).Depends a b ↔ graph.Depends a b := by
  simp only [Depends, type?_moveMembers]
  cases graph.type? a
  case none   => simp
  case some t => grind

theorem callable?_of_substitute {old new : TypeId} {decl : TypeDecl} {id : CallableId}
    (h : Rewires (graph.substitutePlaces old new) graph') :
    (graph'.moveMembers decl old new).callable? id = (graph.callable? id).map fun c =>
      { c.substitute old new with owner := if id ∈ decl.methods then some new else c.owner } := by
  have hs : graph'.callable? id = (graph.callable? id).map (Callable.substitute old new) :=
    (congrArg (·.callables.get? id) h.bare).trans Arena.get?_map
  rw [callable?_moveMembers, hs, Option.map_map]
  refine congrArg (Option.map · _) (funext fun c => ?_)
  rw [Function.comp_apply]
  split <;> rfl

theorem property?_of_substitute {old new : TypeId} {decl : TypeDecl} {id : PropertyId}
    (h : Rewires (graph.substitutePlaces old new) graph') :
    (graph'.moveMembers decl old new).property? id = (graph.property? id).map fun p =>
      { p with type := substituteSlot old new p.type, owner := if id ∈ decl.properties then new else p.owner } := by
  have hs : graph'.property? id = (graph.property? id).map fun p => { p with type := substituteSlot old new p.type } :=
    (congrArg (·.properties.get? id) h.bare).trans Arena.get?_map
  rw [property?_moveMembers, hs, Option.map_map]
  refine congrArg (Option.map · _) (funext fun p => ?_)
  rw [Function.comp_apply]
  split <;> rfl

theorem constant?_of_substitute {old new : TypeId} {decl : TypeDecl} {id : ConstantId}
    (h : Rewires (graph.substitutePlaces old new) graph') :
    (graph'.moveMembers decl old new).constant? id = (graph.constant? id).map fun c =>
      { c with target := substituteSlot old new c.target, owner := if id ∈ decl.constants then new else c.owner } := by
  have hs : graph'.constant? id
      = (graph.constant? id).map fun c => { c with target := substituteSlot old new c.target } :=
    (congrArg (·.constants.get? id) h.bare).trans Arena.get?_map
  rw [constant?_moveMembers, hs, Option.map_map]
  refine congrArg (Option.map · _) (funext fun c => ?_)
  rw [Function.comp_apply]
  split <;> rfl

theorem parameter?_of_substitute {old new : TypeId} {decl : TypeDecl} {id : ParameterId}
    (h : Rewires (graph.substitutePlaces old new) graph') :
    (graph'.moveMembers decl old new).parameter? id = (graph.parameter? id).map fun p =>
      { p with type := substituteSlot old new p.type } := by
  rw [moveMembers_eq]
  exact (congrArg (·.parameters.get? id) h.bare).trans Arena.get?_map

theorem Edit.eraseType_ok {type : TypeId} {decl : TypeDecl} (ht : graph.type? type = some decl)
    (hd : decl.dependencies = []) (hc : decl.children = []) :
    Edit.eraseType type graph = .ok decl (graph.removeType type decl.package) := by
  have ht' : (graph.updatePackage decl.package fun p => { p with types := Distinct.remove p.types type }).type? type
      = some decl := ht
  have hf (f : TypeId → Edit PUnit) : [].forM f graph = .ok ⟨⟩ graph := rfl
  simp only [eraseType, bind_apply, requireType_apply, ht, hd, hc, hf, modify_apply, ht']
  rfl

theorem Edit.replace_ok {old new : TypeId} {decl : TypeDecl} (h : graph.Reciprocal)
    (ho : graph.type? old = some decl) (hn : graph.types.contains new) (hne : old ≠ new) :
    ∃ count g erased, Edit.substitute old new graph = .ok count (g.moveMembers decl old new)
      ∧ Edit.eraseType old (g.moveMembers decl old new)
        = .ok erased ((g.moveMembers decl old new).removeType old decl.package)
      ∧ Rewires (graph.substitutePlaces old new) g
      ∧ ∀ a b, g.Depends a b ↔ graph.Handover old new a b := by
  obtain ⟨g, hs, hr, hd⟩ := substitute_ok h ho hn hne
  have hg : g.Reciprocal := by
    have hp : Change (fun _ => False) graph (graph.substitutePlaces old new) := .substitutePlaces hn
    exact Transitions.preserve (.head hp hr.changes) Transition.reciprocal h
  obtain ⟨d, ht, hb⟩ := hr.type?_eq (type?_substitutePlaces ho)
  have hp : d.package = decl.package := by
    have hp := congrArg TypeDecl.package hb
    exact hp
  have hi : ¬ graph.Depends old old := by
    rw [depends_iff ho]
    exact h.dependency_ne ho
  obtain ⟨he₁, he₂⟩ : d.dependencies = [] ∧ d.children = [] := by
    refine hg.isolated ht (fun b hb => ?_) fun b hb => ?_
    all_goals
      rw [hd, Handover] at hb
      grind
  have hm : (g.moveMembers decl old new).type? old = some { d with methods := [], properties := [], constants := [] } := by
    rw [type?_moveMembers, ht]
    simp [hne]
  exact ⟨_, g, _, hs, hp ▸ eraseType_ok hm he₁ he₂, hr, hd⟩

end PackageCoupling.Graph
