import PackageCoupling.Proofs.Graph.Lifetime

namespace PackageCoupling.Graph

variable {graph graph' : Graph} {gone moved P Q : TypeId → Prop}

namespace MentionsOnly

theorem empty : (∅ : Graph).MentionsOnly P :=
  ⟨.empty, .empty, .empty, .empty, .empty, .empty⟩

theorem mono (h : graph.MentionsOnly P) (hs : ∀ t, P t → Q t) : graph.MentionsOnly Q where
  packages   := h.packages.mono fun _ hp t ht => hs t (hp t ht)
  types      := h.types.mono fun _ hp t ht => hs t (hp t ht)
  callables  := h.callables.mono fun _ hp t ht => hs t (hp t ht)
  parameters := h.parameters.mono fun _ hp t ht => hs t (hp t ht)
  properties := h.properties.mono fun _ hp t ht => hs t (hp t ht)
  constants  := h.constants.mono fun _ hp t ht => hs t (hp t ht)

theorem and (h : graph.MentionsOnly P) (h' : graph.MentionsOnly Q) : graph.MentionsOnly fun t => P t ∧ Q t where
  packages i n hn t ht   := ⟨h.packages i n hn t ht, h'.packages i n hn t ht⟩
  types i n hn t ht      := ⟨h.types i n hn t ht, h'.types i n hn t ht⟩
  callables i n hn t ht  := ⟨h.callables i n hn t ht, h'.callables i n hn t ht⟩
  parameters i n hn t ht := ⟨h.parameters i n hn t ht, h'.parameters i n hn t ht⟩
  properties i n hn t ht := ⟨h.properties i n hn t ht, h'.properties i n hn t ht⟩
  constants i n hn t ht  := ⟨h.constants i n hn t ht, h'.constants i n hn t ht⟩

end MentionsOnly

theorem Transition.mentionsOnly (hc : Transition gone moved graph graph') (h : graph.MentionsOnly P)
    (hl : ∀ t, graph.types.contains t → P t) (hl' : ∀ t, graph'.types.contains t → P t) : graph'.MentionsOnly P := by
  cases hc
  case package => exact { h with packages := h.packages.push (by simp) }
  case type kind name package hp =>
    have hn : P graph.types.next := hl' _ (by simp [addType, Arena.contains, Arena.get?_push])
    refine { h with packages := h.packages.modify fun p _ hp => ?_, types := h.types.push (by simp [TypeDecl.ids]) }
    simp only [List.mem_append, List.mem_singleton]
    grind
  case function =>
    exact { h with
      packages := h.packages.modify fun _ _ hp => hp
      callables := h.callables.push (by simp [Callable.ids]) }
  case method => exact { h with callables := h.callables.push (by simp [Callable.ids]) }
  case relocate type old new _ ht hp hn =>
    have ht : P type := by
      obtain ⟨t, ht, _⟩ := Option.map_eq_some_iff.mp ht
      exact hl type (Arena.contains_of_get? ht)
    refine { h with
      packages := .modify (.modify h.packages fun p _ hp t ht => ?_) fun p _ hp => ?_
      types := h.types.modify fun _ _ ht => ht }
    case refine_1 => exact hp t (Distinct.mem_remove.mp ht).left
    case refine_2 =>
      simp only [List.mem_append, List.mem_singleton]
      grind
  case attach owner method callable ho hm =>
    rw [attach_eq]
    refine { h with types := fun i t' ht' => ?_, callables := h.callables.modify fun c _ hc => ?_ }
    case refine_1 =>
      have ht' : (graph.attach owner method callable.owner).type? i = some t' := ht'
      rw [type?_attach] at ht'
      obtain ⟨t, ht, he⟩ := Option.map_eq_some_iff.mp ht'
      exact he ▸ h.types i t ht
    case refine_2 =>
      have := hl owner ho
      simp only [Callable.ids, List.mem_append, Option.mem_toList] at hc ⊢
      grind
  case parameter callable name node type hc ht =>
    exact { h with
      callables := h.callables.modify fun _ _ hc => hc
      parameters := h.parameters.push fun t h => hl t (ht t h) }
  case property owner name type ho ht =>
    refine { h with types := h.types.modify fun _ _ ht => ht, properties := h.properties.push fun t h => ?_ }
    simp only [Property.ids, List.mem_cons, Option.mem_toList] at h
    have := hl owner ho
    grind
  case constant owner name ho =>
    refine { h with types := h.types.modify fun _ _ ht => ht, constants := h.constants.push fun t h => ?_ }
    simp only [Constant.ids, Option.toList_none, List.mem_singleton] at h
    exact h ▸ hl owner ho
  case skipParameter => exact { h with parameters := h.parameters.reserve }
  case skipProperty  => exact { h with properties := h.properties.reserve }
  case skipConstant  => exact { h with constants := h.constants.reserve }
  case revise hm _   => exact hm h hl
  case link source target decl hs ht hn hd =>
    have hs := hl source (Arena.contains_of_get? hs)
    have ht := hl target ht
    refine { h with types := .modify (.modify h.types fun t _ h => ?_) fun t _ h => ?_ }
    all_goals
      simp only [TypeDecl.ids, List.mem_append, List.mem_singleton, Distinct.mem_add] at h ⊢
      grind
  case unlink =>
    refine { h with types := .modify (.modify h.types fun t _ h => ?_) fun t _ h => ?_ }
    all_goals
      simp only [TypeDecl.ids, List.mem_append, Distinct.mem_remove] at h ⊢
      grind
  case inherit old new decl ho hn =>
    have hn := hl new hn
    rw [moveMembers_eq]
    refine { h with
      types := .modify (.modify h.types fun _ _ ht => ht) fun _ _ ht => ht
      callables := h.callables.foldl_modify fun c hc => ?_
      properties := h.properties.foldl_modify fun p hp => ?_
      constants := h.constants.foldl_modify fun c hc => ?_ }
    all_goals
      simp only [Callable.ids, Property.ids, Constant.ids, List.mem_append, List.mem_cons, Option.mem_toList] at *
      grind
  case remove =>
    refine { h with packages := h.packages.modify fun p _ hp t ht => ?_, types := h.types.erase }
    exact hp t (Distinct.mem_remove.mp ht).left

theorem Transitions.mentionsOnly (hc : Transitions gone moved graph graph') (h : graph.MentionsOnly P)
    (hg : ∀ t, gone t → P t) (hl : ∀ t, graph'.types.contains t → P t) : graph'.MentionsOnly P := by
  -- A type that is there in between either goes or is there in the end.
  have hp {g : Graph} (hr : Transitions gone moved g graph') (t : TypeId) (ht : g.types.contains t) : P t := by
    by_cases hn : gone t
    case pos => exact hg t hn
    case neg => exact hl t (hr.lifetime.stays ht hn)
  induction hc using Relation.ReflTransGen.head_induction_on
  case refl          => exact h
  case head hs hr hi => exact hi (hs.mentionsOnly h (hp (.head hs hr)) (hp hr))

theorem Transitions.mentionsIssued (h : Transitions gone moved ∅ graph) :
    graph.MentionsOnly (·.val < graph.types.next.val) := by
  have hl {g : Graph} (t : TypeId) (ht : g.types.contains t) : t.val < g.types.next.val := by
    have ⟨_, ht⟩ := Arena.contains_iff.mp ht
    exact Arena.lt_next ht
  refine h.preserve (P := fun g => g.MentionsOnly (·.val < g.types.next.val)) (fun {g g'} hc hi => ?_) .empty
  have hn := hc.lifetime.issued
  exact hc.mentionsOnly (hi.mono fun t ht => Nat.lt_of_lt_of_le ht hn) (fun t ht => Nat.lt_of_lt_of_le (hl t ht) hn) hl

theorem Transition.mentionsOnce (hc : Transition gone moved graph graph') (h : graph.MentionsOnce) :
    graph'.MentionsOnce := by
  cases hc
  case type       => exact { h with interfaces := h.interfaces.push .nil }
  case function   => exact { h with uses := h.uses.push .nil, exceptions := h.exceptions.push .nil }
  case method     => exact { h with uses := h.uses.push .nil, exceptions := h.exceptions.push .nil }
  case relocate   => exact { h with interfaces := h.interfaces.modify fun _ _ h => h }
  case parameter  =>
    exact { h with uses := h.uses.modify fun _ _ h => h, exceptions := h.exceptions.modify fun _ _ h => h }
  case property   => exact { h with interfaces := h.interfaces.modify fun _ _ h => h }
  case constant   => exact { h with interfaces := h.interfaces.modify fun _ _ h => h }
  case revise ho  => exact ho h
  case link       => exact { h with interfaces := .modify (.modify h.interfaces fun _ _ h => h) fun _ _ h => h }
  case unlink     => exact { h with interfaces := .modify (.modify h.interfaces fun _ _ h => h) fun _ _ h => h }
  case remove     => exact { h with interfaces := h.interfaces.erase }
  case attach owner method callable ho hm =>
    rw [attach_eq]
    refine {
      interfaces := fun i t' ht' => ?_
      uses := h.uses.modify fun _ _ h => h
      exceptions := h.exceptions.modify fun _ _ h => h }
    have ht' : (graph.attach owner method callable.owner).type? i = some t' := ht'
    rw [type?_attach] at ht'
    have ⟨t, ht, he⟩ := Option.map_eq_some_iff.mp ht'
    exact he ▸ h.interfaces i t ht
  case inherit =>
    rw [moveMembers_eq]
    exact {
      interfaces := .modify (.modify h.interfaces fun _ _ h => h) fun _ _ h => h
      uses := h.uses.foldl_modify fun _ h => h
      exceptions := h.exceptions.foldl_modify fun _ h => h }
  all_goals exact { h with }

theorem Transitions.mentionsOnce (h : Transitions gone moved ∅ graph) : graph.MentionsOnce :=
  h.preserve Transition.mentionsOnce ⟨.empty, .empty, .empty⟩

end PackageCoupling.Graph
