import PackageCoupling.Proofs.Graph.Renaming

namespace PackageCoupling

def SameMembers {α : Type} (as bs : List α) : Prop :=
  ∀ a, a ∈ as ↔ a ∈ bs

theorem SameMembers.of_perm {α : Type} {as bs : List α} (h : bs.Perm as) : SameMembers as bs :=
  fun _ => h.mem_iff.symm

theorem rel_iff_of_rel {α : Type} {R S : α → α → Prop} {P : α → Prop} {o o' : Option α} (h : Option.Rel R o o')
    (hp : ∀ {a a'}, R a a' → (S a a' ↔ P a)) : Option.Rel S o o' ↔ ∀ a ∈ o, P a := by
  cases h
  case none   => simp
  case some h => simp [← hp h]

theorem substituteSlot_self {type : TypeId} {slot : Option TypeId} : substituteSlot type type slot = slot := by
  rw [substituteSlot]
  split
  case isTrue h => exact h.symm
  case isFalse  => rfl

theorem Distinct.sameMembers_remove {α : Type} [DecidableEq α] {as : List α} {a : α} :
    SameMembers as (remove as a) ↔ a ∉ as := by
  simp only [SameMembers, mem_remove]
  grind

namespace TypeDecl

-- A type that no longer lists another one as an interface. What it depends on may be in another order.
structure Unlisted (id : TypeId) (type type' : TypeDecl) : Prop where
  dependencies : type'.dependencies.Perm type.dependencies
  children : type'.children.Perm type.children
  eq : type' = { type with
    interfaces := Distinct.remove type.interfaces id
    dependencies := type'.dependencies
    children := type'.children }

-- Nothing that a type mentions or that belongs to it is lost.
structure Intact (type type' : TypeDecl) : Prop where
  parent : type'.parent = type.parent
  interfaces : SameMembers type.interfaces type'.interfaces
  dependencies : SameMembers type.dependencies type'.dependencies
  children : SameMembers type.children type'.children
  methods : SameMembers type.methods type'.methods
  properties : SameMembers type.properties type'.properties
  constants : SameMembers type.constants type'.constants

theorem Unlisted.intact_iff {id : TypeId} {type type' : TypeDecl} (h : type.Unlisted id type') :
    type.Intact type' ↔ id ∉ type.interfaces := by
  rw [h.eq]
  constructor
  case mp  => exact fun hi => Distinct.sameMembers_remove.mp hi.interfaces
  case mpr =>
    intro hn
    exact {
      parent := rfl
      interfaces := Distinct.sameMembers_remove.mpr hn
      dependencies := .of_perm h.dependencies
      children := .of_perm h.children
      methods := fun _ => .rfl
      properties := fun _ => .rfl
      constants := fun _ => .rfl }

end TypeDecl

namespace Callable

def unlist (id : TypeId) (callable : Callable) : Callable :=
  { callable with
    dependencies := Distinct.remove callable.dependencies id
    exceptions := Distinct.remove callable.exceptions id }

structure Intact (callable callable' : Callable) : Prop where
  dependencies : SameMembers callable.dependencies callable'.dependencies
  exceptions : SameMembers callable.exceptions callable'.exceptions
  returnType : callable'.returnType = callable.returnType

theorem intact_unlist_iff {id : TypeId} {callable : Callable} :
    callable.Intact (callable.unlist id) ↔ id ∉ callable.dependencies ∧ id ∉ callable.exceptions := by
  rw [← Distinct.sameMembers_remove, ← Distinct.sameMembers_remove]
  exact ⟨fun h => ⟨h.dependencies, h.exceptions⟩, fun h => ⟨h.left, h.right, rfl⟩⟩

end Callable

namespace Graph

variable {graph g : Graph} {type : TypeId} {decl : TypeDecl}

-- A graph in which no list mentions a type any more, other than the dependencies between types.
structure Unlisted (graph : Graph) (type : TypeId) (graph' : Graph) : Prop where
  packages : graph'.packages = graph.packages
  packageIndex : graph'.packageIndex = graph.packageIndex
  types : ∀ id, Option.Rel (TypeDecl.Unlisted type) (graph.type? id) (graph'.type? id)
  nextType : graph'.types.next = graph.types.next
  callables : graph'.callables = graph.callables.map (Callable.unlist type)
  parameters : graph'.parameters = graph.parameters
  properties : graph'.properties = graph.properties
  constants : graph'.constants = graph.constants

-- Every slot for a type holds the same type, and every list holds the same.
structure Intact (graph graph' : Graph) : Prop where
  types : ∀ id, Option.Rel TypeDecl.Intact (graph.type? id) (graph'.type? id)
  callables : ∀ id, Option.Rel Callable.Intact (graph.callable? id) (graph'.callable? id)
  parameters : ∀ id, (graph'.parameter? id).map (·.type) = (graph.parameter? id).map (·.type)
  properties : ∀ id, (graph'.property? id).map (·.type) = (graph.property? id).map (·.type)
  constants : ∀ id, (graph'.constant? id).map (·.target) = (graph.constant? id).map (·.target)

-- No list mentions a type, other than the dependencies between types.
structure Omits (graph : Graph) (type : TypeId) : Prop where
  interfaces : graph.types.All (type ∉ ·.interfaces)
  uses : graph.callables.All (type ∉ ·.dependencies)
  exceptions : graph.callables.All (type ∉ ·.exceptions)

theorem Unlisted.intact_iff {graph' : Graph} (h : graph.Unlisted type graph') :
    graph.Intact graph' ↔ graph.Omits type := by
  have ht (id : TypeId) : Option.Rel TypeDecl.Intact (graph.type? id) (graph'.type? id)
      ↔ ∀ t ∈ graph.type? id, type ∉ t.interfaces :=
    rel_iff_of_rel (h.types id) TypeDecl.Unlisted.intact_iff
  have hc (id : CallableId) : Option.Rel Callable.Intact (graph.callable? id) (graph'.callable? id)
      ↔ ∀ c ∈ graph.callable? id, type ∉ c.dependencies ∧ type ∉ c.exceptions := by
    have hr : Option.Rel (fun c c' => c' = c.unlist type) (graph.callable? id) (graph'.callable? id) := by
      rw [callable?, callable?, h.callables, Arena.get?_map]
      cases graph.callables.get? id
      case none => exact .none
      case some => exact .some rfl
    exact rel_iff_of_rel hr fun hu => hu ▸ Callable.intact_unlist_iff
  constructor
  case mp =>
    intro hi
    exact {
      interfaces := fun id => (ht id).mp (hi.types id)
      uses := fun id c hd => ((hc id).mp (hi.callables id) c hd).left
      exceptions := fun id c hd => ((hc id).mp (hi.callables id) c hd).right }
  case mpr =>
    intro ho
    exact {
      types := fun id => (ht id).mpr (ho.interfaces id)
      callables := fun id => (hc id).mpr fun c hd => ⟨ho.uses id c hd, ho.exceptions id c hd⟩
      parameters := fun id => by rw [parameter?, h.parameters, parameter?]
      properties := fun id => by rw [property?, h.properties, property?]
      constants := fun id => by rw [constant?, h.constants, constant?] }

theorem Ownership.moveMembers_self (h : graph.Ownership) (ht : graph.type? type = some decl) :
    graph.moveMembers decl type type = graph := by
  have hm : decl.methods.foldl Distinct.add [] = decl.methods := Distinct.foldl_add (by simpa using h.methods.nodup ht)
  rw [moveMembers_eq, h.methods.foldl_modify_eq_self ht ?methods, h.properties.foldl_modify_eq_self ht ?properties,
    h.constants.foldl_modify_eq_self ht ?constants, Arena.modify_modify, Arena.modify_eq_self ?types]
  case methods =>
    intro c ho
    rw [← ho]
  case properties | constants =>
    intro n ho
    rw [← Option.some.inj ho]
  case types =>
    intro t hd
    cases ht.symm.trans hd
    simp only [hm, List.nil_append]

namespace Edit

-- Dependencies that are given up one by one, and each of them taken up again at once, are the same in the end.
theorem reconnect_leaves {new : TypeId} {ends : List TypeId} {edge : TypeId → TypeId × TypeId}
    (hl : ∀ t ∈ ends, graph.types.contains (edge t).1 ∧ graph.types.contains (edge t).2)
    (hd : ∀ t ∈ ends, graph.Depends (edge t).1 (edge t).2) (hn : ∀ t ∈ ends, t ≠ new ∧ (edge t).1 ≠ (edge t).2) :
    Leaves (ends.forM fun t => do
      discard (disconnect (edge t).1 (edge t).2)
      if t ≠ new then
        discard (connect (edge t).1 (edge t).2)) graph graph.Depends := by
  induction ends generalizing graph
  case nil => exact .pure
  case cons t ends ih =>
    rw [List.forall_mem_cons] at hl hd hn
    have hr : Leaves (do
        discard (disconnect (edge t).1 (edge t).2)
        if t ≠ new then
          discard (connect (edge t).1 (edge t).2)) graph graph.Depends := by
      refine (disconnect_leaves hl.left.left hl.left.right).discard.bind fun _ g hg he => ?_
      rw [if_pos hn.left.left]
      refine (connect_leaves (hg.contains hl.left.left) (hg.contains hl.left.right)).discard.congr fun a b => ?_
      grind
    refine hr.bind fun _ g hg he => ?_
    refine (ih (fun u hu => ?live) (fun u hu => ?depends) hn.right).congr he
    case live    => exact ⟨hg.contains (hl.right u hu).left, hg.contains (hl.right u hu).right⟩
    case depends => exact (he _ _).mpr (hd.right u hu)

theorem substitute_self_ok (h : graph.Reciprocal) (ht : graph.type? type = some decl) :
    ∃ g, Edit.substitute type type graph
        = .ok (graph.places type + decl.dependencies.length + decl.children.length
          + decl.methods.length + decl.properties.length + decl.constants.length) (g.moveMembers decl type type)
      ∧ Rewires (graph.substitutePlaces type type) g
      ∧ ∀ a b, g.Depends a b ↔ graph.Depends a b := by
  have hl : graph.types.contains type := contains_type.mpr ⟨decl, ht⟩
  have hc {t : TypeId} (ht : graph.types.contains t) : (graph.substitutePlaces type type).types.contains t := by
    rwa [contains_substitutePlaces]
  have hne {t : TypeId} (hm : t ∈ decl.dependencies) : t ≠ type := fun he => h.dependency_ne ht (he ▸ hm)
  have hne' {t : TypeId} (hm : t ∈ decl.children) : t ≠ type := fun he => h.child_ne ht (he ▸ hm)
  obtain ⟨_, g₁, he₁, hr₁, hd₁⟩ := @reconnect_leaves (graph.substitutePlaces type type) type decl.dependencies (type, ·)
    (fun t hm => ⟨hc hl, hc (h.dependency_live ht hm)⟩)
    (fun t hm => depends_substitutePlaces.mpr ((depends_iff ht).mpr hm)) fun t hm => ⟨hne hm, (hne hm).symm⟩
  have hd₁ (a b : TypeId) : g₁.Depends a b ↔ graph.Depends a b := (hd₁ a b).trans depends_substitutePlaces
  obtain ⟨_, g₂, he₂, hr₂, hd₂⟩ := @reconnect_leaves g₁ type decl.children (·, type)
    (fun t hm => ⟨hr₁.contains (hc (h.child_live ht hm)), hr₁.contains (hc hl)⟩)
    (fun t hm => (hd₁ t type).mpr ((h.mem_children ht).mp hm)) fun t hm => ⟨hne' hm, hne' hm⟩
  exact ⟨g₂, substitute_apply ht hl he₁ he₂, hr₁.trans hr₂, fun a b => (hd₂ a b).trans (hd₁ a b)⟩

end Edit

-- Dependencies are noted at both ends in both graphs, so that the lists are the same if the dependencies are.
theorem Rewires.unlisted (hg : Rewires (graph.substitutePlaces type type) g) (hm : graph.MentionsOnce)
    (hr : graph.Reciprocal) (hr' : g.Reciprocal) (hd : ∀ a b, g.Depends a b ↔ graph.Depends a b) :
    graph.Unlisted type g := by
  constructor
  case packages => exact congrArg (·.packages) hg.bare
  case packageIndex => exact congrArg (·.packageIndex) hg.bare
  case nextType => exact hg.next_eq.trans (by simp [substitutePlaces])
  case callables =>
    have hc : g.callables = graph.callables.map (Callable.substitute type type) := congrArg (·.callables) hg.bare
    rw [hc]
    refine Arena.map_congr fun id c hc => ?_
    simp only [Callable.substitute, Callable.unlist, Distinct.substitute_self (hm.uses id c hc),
      Distinct.substitute_self (hm.exceptions id c hc), substituteSlot_self]
  case parameters =>
    refine (congrArg (·.parameters) hg.bare).trans (Arena.map_eq_self fun p => ?_)
    rw [substituteSlot_self]
  case properties =>
    refine (congrArg (·.properties) hg.bare).trans (Arena.map_eq_self fun p => ?_)
    rw [substituteSlot_self]
  case constants =>
    refine (congrArg (·.constants) hg.bare).trans (Arena.map_eq_self fun c => ?_)
    rw [substituteSlot_self]
  case types =>
    intro id
    cases ht : graph.type? id
    case none =>
      have hn : (graph.substitutePlaces type type).type? id = none := by
        rw [type?] at ht
        simp [type?, substitutePlaces, ht]
      rw [hg.type?_eq_none hn]
      exact .none
    case some t =>
      obtain ⟨t', ht', hb⟩ := hg.type?_eq (type?_substitutePlaces ht)
      rw [ht']
      refine .some ⟨?dependencies, ?children, ?eq⟩
      case dependencies =>
        refine (List.perm_ext_iff_of_nodup (hr'.nodup_dependencies ht') (hr.nodup_dependencies ht)).mpr fun b => ?_
        rw [← depends_iff ht', hd, depends_iff ht]
      case children =>
        refine (List.perm_ext_iff_of_nodup (hr'.nodup_children ht') (hr.nodup_children ht)).mpr fun a => ?_
        rw [hr'.mem_children ht', hd, hr.mem_children ht]
      case eq =>
        have hi := Distinct.substitute_self (a := type) (hm.interfaces id t ht)
        simp only [TypeDecl.bare, TypeDecl.substitute, TypeDecl.mk.injEq, substituteSlot_self, hi] at hb
        ext1 <;> simp [hb]

end Graph

-- In every graph that operations can bring about, be it by itself or as the graph of a registry, a type can be put in
-- its own place. Nothing is lost then just if no list mentions the type.
theorem type_in_its_own_place_is_unlisted {graph : Graph} {type : TypeId} {decl : TypeDecl}
    (h : graph.Reachable ∨ ∃ registry : Registry, registry.Reachable (fun _ => True) ∧ registry.graph = graph)
    (ht : graph.type? type = some decl) :
    ∃ graph', Graph.Edit.substitute type type graph
        = .ok (graph.mentioned.count type + decl.dependencies.length + decl.children.length
          + decl.methods.length + decl.properties.length + decl.constants.length) graph'
      ∧ graph.Unlisted type graph' ∧ (graph.Intact graph' ↔ graph.Omits type) := by
  have hc : Graph.Changes (fun _ => True) ∅ graph := by
    cases h
    case inl h => exact h.changes
    case inr h =>
      obtain ⟨registry, hr, rfl⟩ := h
      exact hr.graph
  have hl : graph.types.contains type := Graph.contains_type.mpr ⟨decl, ht⟩
  obtain ⟨g, hs, hg, hd⟩ := Graph.Edit.substitute_self_ok hc.reciprocal ht
  have hp : Graph.Changes (fun _ => True) ∅ g := hc.trans (.head (.substitutePlaces hl) hg.changes)
  have hu : graph.Unlisted type g := hg.unlisted hc.mentionsOnce hc.reciprocal hp.reciprocal hd
  obtain ⟨d, hd, hb⟩ := hg.type?_eq (Graph.type?_substitutePlaces ht)
  rw [Graph.moveMembers_congr hb, hp.ownership.moveMembers_self hd, hc.mentionsOnce.places_eq] at hs
  exact ⟨g, hs, hu, hu.intact_iff⟩

-- Two classes depend on each other. The one is the parent of the other, and its own members mention it in slots.
theorem type_in_its_own_place_is_unlisted_unmentioned :
    let ops : List Registry.Op := [
      .build (.type .cls) "app.Node", .build (.type .cls) "app.Leaf", .edit (.connect ⟨0⟩ ⟨1⟩),
      .edit (.setParent ⟨1⟩ ⟨0⟩), .edit (.newMethod "next"), .edit (.attachMethod ⟨0⟩ ⟨0⟩),
      .edit (.setReturnType ⟨0⟩ (some ⟨0⟩)), .edit (.addUse ⟨0⟩ ⟨1⟩), .edit (.newProperty ⟨0⟩ "root" (some ⟨0⟩))]
    let graph := ((Registry.ofConfig { builtins := [] }).perform ops).graph
    ∃ decl graph', graph.type? ⟨0⟩ = some decl ∧ graph.Omits ⟨0⟩
      ∧ Graph.Edit.substitute ⟨0⟩ ⟨0⟩ graph = .ok 7 graph' ∧ graph.Unlisted ⟨0⟩ graph' ∧ graph.Intact graph' := by
  intro ops graph
  have h : ∃ registry : Registry, registry.Reachable (fun _ => True) ∧ registry.graph = graph :=
    ⟨_, ⟨{ builtins := [] }, Registry.ofConfig { builtins := [] }, rfl, .perform fun _ _ => trivial⟩, rfl⟩
  obtain ⟨⟨decl, ht, hs⟩, hi, hc⟩ : (∃ decl ∈ graph.type? ⟨0⟩, graph.mentioned.count ⟨0⟩ + decl.dependencies.length
        + decl.children.length + decl.methods.length + decl.properties.length + decl.constants.length = 7)
      ∧ (∀ t ∈ graph.types.toList, ⟨0⟩ ∉ t.interfaces)
      ∧ ∀ c ∈ graph.callables.toList, ⟨0⟩ ∉ c.dependencies ∧ ⟨0⟩ ∉ c.exceptions := by
    decide +kernel
  have ho : graph.Omits ⟨0⟩ := {
    interfaces := fun i t ht => hi t (Arena.mem_toList_iff.mpr ⟨i, ht⟩)
    uses := fun i c ht => (hc c (Arena.mem_toList_iff.mpr ⟨i, ht⟩)).left
    exceptions := fun i c ht => (hc c (Arena.mem_toList_iff.mpr ⟨i, ht⟩)).right }
  obtain ⟨graph', he, hu, hk⟩ := type_in_its_own_place_is_unlisted (.inr h) ht
  exact ⟨decl, graph', ht, ho, hs ▸ he, hu, hk.mpr ho⟩

-- A method that uses the class that it belongs to, and may throw it, no longer does.
theorem type_in_its_own_place_is_lost :
    ¬ ∀ (graph : Graph) type decl,
      graph.Reachable ∨ (∃ registry : Registry, registry.Reachable (fun _ => True) ∧ registry.graph = graph) →
      graph.type? type = some decl →
      ∃ count graph', Graph.Edit.substitute type type graph = .ok count graph' ∧ graph.Intact graph' := by
  intro h
  let ops : List Registry.Op := [
    .build (.type .cls) "app.Node", .build (.type .cls) "app.Leaf", .edit (.addInterface ⟨1⟩ ⟨0⟩),
    .edit (.newMethod "next"), .edit (.attachMethod ⟨0⟩ ⟨0⟩), .edit (.addUse ⟨0⟩ ⟨0⟩), .edit (.addException ⟨0⟩ ⟨0⟩),
    .edit (.setReturnType ⟨0⟩ (some ⟨0⟩))]
  let graph := ((Registry.ofConfig {}).perform ops).graph
  have hr : ∃ registry : Registry, registry.Reachable (fun _ => True) ∧ registry.graph = graph :=
    ⟨_, ⟨{}, Registry.ofConfig {}, rfl, .perform fun _ _ => trivial⟩, rfl⟩
  obtain ⟨⟨decl, ht⟩, ⟨c, hc, hm⟩, ⟨c', hc', hm'⟩⟩ : (∃ decl, graph.type? ⟨0⟩ = some decl)
      ∧ (∃ c ∈ graph.callable? ⟨0⟩, ⟨0⟩ ∈ c.dependencies)
      ∧ ∃ c ∈ (after (Graph.Edit.substitute ⟨0⟩ ⟨0⟩) graph).callable? ⟨0⟩, ⟨0⟩ ∉ c.dependencies := by
    rw [← Option.isSome_iff_exists]
    decide +kernel
  obtain ⟨count, graph', hs, hi⟩ := h graph ⟨0⟩ decl (.inr hr) ht
  rw [after, hs] at hc'
  have hk := hi.callables ⟨0⟩
  rw [hc, hc'] at hk
  cases hk
  case some hk => exact hm' ((hk.dependencies ⟨0⟩).mp hm)

end PackageCoupling
