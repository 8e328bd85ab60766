import PackageCoupling.Proofs.Registry.Run

namespace PackageCoupling

def TypeDecl.edges (type : TypeDecl) : List TypeId × List TypeId :=
  (type.dependencies, type.children)

namespace Graph

-- A type depends on another one just if it is a child of it. Both are there, no dependency is noted twice,
-- and no type depends on itself.
structure Reciprocal (graph : Graph) : Prop where
  dependency_iff : ∀ {a b s t}, graph.type? a = some s → graph.type? b = some t →
    (b ∈ s.dependencies ↔ a ∈ t.children)
  dependency_live : ∀ {a b s}, graph.type? a = some s → b ∈ s.dependencies → graph.types.contains b
  child_live : ∀ {a b t}, graph.type? b = some t → a ∈ t.children → graph.types.contains a
  nodup_dependencies : ∀ {a s}, graph.type? a = some s → s.dependencies.Nodup
  nodup_children : ∀ {a s}, graph.type? a = some s → s.children.Nodup
  dependency_ne : ∀ {a s}, graph.type? a = some s → a ∉ s.dependencies
  child_ne : ∀ {a s}, graph.type? a = some s → a ∉ s.children

variable {graph graph' : Graph} {source target id : TypeId}

theorem contains_type : graph.types.contains id = true ↔ ∃ t, graph.type? id = some t :=
  Arena.contains_iff

namespace Reciprocal

theorem empty : (∅ : Graph).Reciprocal := by
  constructor <;> intros <;> simp_all [type?, EmptyCollection.emptyCollection, Arena.get?]

theorem congr (h : graph.Reciprocal)
    (he : ∀ id, (graph'.type? id).map TypeDecl.edges = (graph.type? id).map TypeDecl.edges) :
    graph'.Reciprocal := by
  have hv {id t'} (ht : graph'.type? id = some t') :
      ∃ t, graph.type? id = some t ∧ t'.dependencies = t.dependencies ∧ t'.children = t.children := by
    have hi := he id
    rw [ht] at hi
    have ⟨t, ht, hd⟩ := Option.map_eq_some_iff.mp hi.symm
    exact ⟨t, ht, (Prod.mk.inj hd.symm).left, (Prod.mk.inj hd.symm).right⟩
  have hl {id} (hc : graph.types.contains id = true) : graph'.types.contains id = true := by
    have ⟨t, ht⟩ := contains_type.mp hc
    have hi := he id
    rw [ht] at hi
    have ⟨t', ht', _⟩ := Option.map_eq_some_iff.mp hi
    exact contains_type.mpr ⟨t', ht'⟩
  constructor
  case dependency_iff =>
    intro a b s' t' ha hb
    have ⟨s, hs, hd, _⟩ := hv ha
    have ⟨t, ht, _, hc⟩ := hv hb
    rw [hd, hc, h.dependency_iff hs ht]
  case dependency_live =>
    intro a b s' ha hb
    have ⟨s, hs, hd, _⟩ := hv ha
    exact hl (h.dependency_live hs (hd ▸ hb))
  case child_live =>
    intro a b t' hb ha
    have ⟨t, ht, _, hc⟩ := hv hb
    exact hl (h.child_live ht (hc ▸ ha))
  all_goals
    intro a s' ha
    have ⟨s, hs, hd, hc⟩ := hv ha
  case nodup_dependencies => exact hd ▸ h.nodup_dependencies hs
  case nodup_children     => exact hc ▸ h.nodup_children hs
  case dependency_ne      => exact hd ▸ h.dependency_ne hs
  case child_ne           => exact hc ▸ h.child_ne hs

theorem insertEdge {decl : TypeDecl} (h : graph.Reciprocal) (hs : graph.type? source = some decl)
    (ht : graph.types.contains target = true) (hn : source ≠ target) (hd : target ∉ decl.dependencies) :
    (graph.insertEdge source target).Reciprocal := by
  have he {id t'} (hi : (graph.insertEdge source target).type? id = some t') :
      ∃ t, graph.type? id = some t
        ∧ t'.dependencies = (if source = id then t.dependencies ++ [target] else t.dependencies)
        ∧ t'.children = if target = id then Distinct.add t.children source else t.children := by
    rw [type?_insertEdge] at hi
    obtain ⟨t, ht, hi⟩ := Option.map_eq_some_iff.mp hi
    exact ⟨t, ht, hi ▸ rfl, hi ▸ rfl⟩
  have hl {id} (hc : graph.types.contains id = true) : (graph.insertEdge source target).types.contains id = true := by
    simpa [Graph.insertEdge, updateType] using hc
  constructor
  case dependency_iff =>
    intro a b s' t' ha hb
    obtain ⟨s, hs, hd, _⟩ := he ha
    obtain ⟨t, ht, _, hc⟩ := he hb
    have := h.dependency_iff hs ht
    grind [Distinct.mem_add]
  case dependency_live =>
    intro a b s' ha hb
    obtain ⟨s, hs, hd, _⟩ := he ha
    have := @h.dependency_live a b s hs
    grind
  case child_live =>
    intro a b t' hb ha
    obtain ⟨t, ht, _, hc⟩ := he hb
    have := @h.child_live a b t ht
    have := contains_type.mpr ⟨decl, hs⟩
    grind [Distinct.mem_add]
  all_goals
    intro a s' ha
    obtain ⟨s, hs, hd, hc⟩ := he ha
  case nodup_dependencies =>
    have := h.nodup_dependencies hs
    grind
  case nodup_children =>
    have := h.nodup_children hs
    grind [Distinct.nodup_add]
  case dependency_ne =>
    have := h.dependency_ne hs
    grind
  case child_ne =>
    have := h.child_ne hs
    grind [Distinct.mem_add]

theorem eraseEdge (h : graph.Reciprocal) : (graph.eraseEdge source target).Reciprocal := by
  have he {id t'} (hi : (graph.eraseEdge source target).type? id = some t') :
      ∃ t, graph.type? id = some t
        ∧ t'.dependencies = (if source = id then Distinct.remove t.dependencies target else t.dependencies)
        ∧ t'.children = if target = id then Distinct.remove t.children source else t.children := by
    rw [type?_eraseEdge] at hi
    obtain ⟨t, ht, hi⟩ := Option.map_eq_some_iff.mp hi
    exact ⟨t, ht, hi ▸ rfl, hi ▸ rfl⟩
  have hl {id} (hc : graph.types.contains id = true) : (graph.eraseEdge source target).types.contains id = true := by
    simpa [Graph.eraseEdge, updateType] using hc
  constructor
  case dependency_iff =>
    intro a b s' t' ha hb
    obtain ⟨s, hs, hd, _⟩ := he ha
    obtain ⟨t, ht, _, hc⟩ := he hb
    have := h.dependency_iff hs ht
    grind [Distinct.mem_remove]
  case dependency_live =>
    intro a b s' ha hb
    obtain ⟨s, hs, hd, _⟩ := he ha
    have := @h.dependency_live a b s hs
    grind [Distinct.mem_remove]
  case child_live =>
    intro a b t' hb ha
    obtain ⟨t, ht, _, hc⟩ := he hb
    have := @h.child_live a b t ht
    grind [Distinct.mem_remove]
  all_goals
    intro a s' ha
    obtain ⟨s, hs, hd, hc⟩ := he ha
  case nodup_dependencies =>
    have := h.nodup_dependencies hs
    grind [Distinct.nodup_remove]
  case nodup_children =>
    have := h.nodup_children hs
    grind [Distinct.nodup_remove]
  case dependency_ne =>
    have := h.dependency_ne hs
    grind [Distinct.mem_remove]
  case child_ne =>
    have := h.child_ne hs
    grind [Distinct.mem_remove]

theorem push {type : TypeDecl} (h : graph.Reciprocal) (hd : type.dependencies = [])
    (hc : type.children = []) (ht : graph'.types = graph.types.push type) : graph'.Reciprocal := by
  have hv (id) : graph'.type? id = if id = graph.types.next then some type else graph.type? id := by
    rw [type?, ht, Arena.get?_push, type?]
  have hn : graph.type? graph.types.next = none := Arena.get?_next
  have hl {id} (hg : graph.types.contains id = true) : graph'.types.contains id = true := by
    obtain ⟨t, hi⟩ := contains_type.mp hg
    refine contains_type.mpr ⟨t, ?_⟩
    grind
  constructor
  case dependency_iff =>
    intro a b s t ha hb
    rw [hv] at ha hb
    have := @h.dependency_iff a b s t
    have := @h.dependency_live a b s
    have := @h.child_live a b t
    grind [contains_type]
  case dependency_live =>
    intro a b s ha hb
    rw [hv] at ha
    have := @h.dependency_live a b s
    grind
  case child_live =>
    intro a b t hb ha
    rw [hv] at hb
    have := @h.child_live a b t
    grind
  all_goals
    intro a s ha
    rw [hv] at ha
  case nodup_dependencies =>
    have := @h.nodup_dependencies a s
    grind
  case nodup_children =>
    have := @h.nodup_children a s
    grind
  case dependency_ne =>
    have := @h.dependency_ne a s
    grind
  case child_ne =>
    have := @h.child_ne a s
    grind

theorem erase {type : TypeDecl} (h : graph.Reciprocal) (hi : graph.type? id = some type)
    (hd : type.dependencies = []) (hc : type.children = []) (ht : graph'.types = graph.types.erase id) :
    graph'.Reciprocal := by
  have hv (i) : graph'.type? i = if id = i then none else graph.type? i := by
    rw [type?, ht, Arena.get?_erase, type?]
  have hl {i} (hg : graph.types.contains i = true) (hn : id ≠ i) : graph'.types.contains i = true := by
    obtain ⟨t, hi⟩ := contains_type.mp hg
    refine contains_type.mpr ⟨t, ?_⟩
    grind
  constructor
  case dependency_iff =>
    intro a b s t ha hb
    rw [hv] at ha hb
    have := @h.dependency_iff a b s t
    grind
  case dependency_live =>
    intro a b s ha hb
    rw [hv] at ha
    have := @h.dependency_live a b s
    have := @h.dependency_iff a id s type
    grind
  case child_live =>
    intro a b t hb ha
    rw [hv] at hb
    have := @h.child_live a b t
    have := @h.dependency_iff id b type t
    grind
  all_goals
    intro a s ha
    rw [hv] at ha
  case nodup_dependencies =>
    have := @h.nodup_dependencies a s
    grind
  case nodup_children =>
    have := @h.nodup_children a s
    grind
  case dependency_ne =>
    have := @h.dependency_ne a s
    grind
  case child_ne =>
    have := @h.child_ne a s
    grind

end Reciprocal

theorem Transition.reciprocal {gone moved : TypeId → Prop} (hc : Transition gone moved graph graph')
    (h : graph.Reciprocal) : graph'.Reciprocal := by
  cases hc
  case type kind name hp           => exact h.push rfl rfl rfl
  case link hs ht hn hd            => exact h.insertEdge hs ht hn hd
  case unlink                      => exact h.eraseEdge
  case remove _ ht hd hc           => exact h.erase ht hd hc rfl
  case revise hf _ _ =>
    refine h.congr fun id => ?_
    have hi := congrArg (fun g : Graph => (g.type? id).map TypeDecl.edges) hf
    simp only [type?, frame, Arena.get?_map, Option.map_map] at hi
    exact hi
  case inherit decl ho hn =>
    refine h.congr fun id => ?_
    rw [type?_moveMembers, Option.map_map]
    congr 1
    funext t
    simp only [Function.comp_apply]
    split <;> split <;> rfl
  case attach owner method c ho hm =>
    refine h.congr fun id => ?_
    rw [type?_attach, Option.map_map]
    rfl
  case relocate ht hp hn           => exact h.congr fun id => Arena.map_get?_modify fun _ => rfl
  case property ho ht              => exact h.congr fun id => Arena.map_get?_modify fun _ => rfl
  case constant ho                 => exact h.congr fun id => Arena.map_get?_modify fun _ => rfl
  all_goals exact h.congr fun _ => rfl

theorem Transitions.reciprocal {gone moved : TypeId → Prop} (h : Transitions gone moved ∅ graph) : graph.Reciprocal :=
  h.preserve Transition.reciprocal .empty

end Graph

-- Both ends agree in every graph that operations can bring about, be it by itself or as the graph of a registry.
theorem dependencies_noted_at_both_ends {graph : Graph}
    (h : graph.Reachable ∨ ∃ registry : Registry, registry.Reachable (fun _ => True) ∧ registry.graph = graph) :
    graph.Reciprocal := by
  cases h
  case inl h => exact h.changes.reciprocal
  case inr h =>
    have ⟨registry, hr, hg⟩ := h
    exact hg ▸ hr.graph.reciprocal

-- An interface takes the place of a class that was assumed in its stead, and that depends on a type which
-- depends on it.
theorem dependencies_noted_at_both_ends_reconciled :
    let ops : List Registry.Op := [
      .build (.type .cls) "Shape", .seek .classOrInterface "Drawable", .edit (.connect ⟨0⟩ ⟨1⟩),
      .edit (.setParent ⟨1⟩ ⟨0⟩), .build (.type .interface) "Drawable"]
    let registry := (Registry.ofConfig {}).perform ops
    (∃ r : Registry, r.Reachable (fun _ => True) ∧ r.graph = registry.graph) ∧ registry.graph.Reciprocal := by
  intro ops registry
  have h : registry.Reachable (fun _ => True) :=
    ⟨{}, Registry.ofConfig {}, rfl, .perform fun _ _ => trivial⟩
  exact ⟨⟨registry, h, rfl⟩, dependencies_noted_at_both_ends (.inr ⟨registry, h, rfl⟩)⟩

end PackageCoupling
