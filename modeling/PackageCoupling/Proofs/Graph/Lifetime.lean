import PackageCoupling.Proofs.Graph.Run

namespace PackageCoupling.Graph

variable {graph graph' graph'' : Graph} {gone moved : TypeId → Prop} {type : TypeId}

-- What becomes of types: they stay unless `gone` holds of them, and those that are gone stay so.
structure Lifetime (gone : TypeId → Prop) (graph graph' : Graph) : Prop where
  stays : ∀ {t}, graph.types.contains t → ¬ gone t → graph'.types.contains t
  dead : ∀ {t}, t.val < graph.types.next.val → graph'.types.contains t → graph.types.contains t
  issued : graph.types.next.val ≤ graph'.types.next.val

namespace Lifetime

theorem refl : Lifetime gone graph graph where
  stays h _ := h
  dead _ h  := h
  issued    := Nat.le_refl _

theorem trans (h : Lifetime gone graph graph') (h' : Lifetime gone graph' graph'') : Lifetime gone graph graph'' where
  stays ht hg := h'.stays (h.stays ht hg) hg
  dead hn ht  := h.dead hn (h'.dead (Nat.lt_of_lt_of_le hn h.issued) ht)
  issued      := Nat.le_trans h.issued h'.issued

theorem congr (hc : ∀ t, graph'.types.contains t = graph.types.contains t)
    (hn : graph'.types.next = graph.types.next) : Lifetime gone graph graph' where
  stays ht _ := hc _ ▸ ht
  dead _ ht  := hc _ ▸ ht
  issued     := by simp [hn]

end Lifetime

theorem Transition.lifetime (h : Transition gone moved graph graph') : Lifetime gone graph graph' := by
  cases h
  case type kind name package hp =>
    constructor
    case stays =>
      intro t ht _
      obtain ⟨decl, ht⟩ := Arena.contains_iff.mp ht
      have : t.val ≠ graph.types.next.val := Nat.ne_of_lt (Arena.lt_next ht)
      have : t ≠ graph.types.next := fun he => this (congrArg NodeId.val he)
      exact Arena.contains_of_get? (a := decl) (by simp [addType, Arena.get?_push, this, ht])
    case dead =>
      intro t hn ht
      have : t ≠ graph.types.next := fun he => Nat.ne_of_lt hn (congrArg NodeId.val he)
      obtain ⟨decl, ht⟩ := Arena.contains_iff.mp ht
      simp only [addType, Arena.get?_push, this, if_false] at ht
      exact Arena.contains_of_get? ht
    case issued => simp [addType, Arena.next_push]
  case remove type decl hg ht hd hc =>
    constructor
    case stays =>
      intro t ht hn
      obtain ⟨decl, ht⟩ := Arena.contains_iff.mp ht
      have : type ≠ t := fun he => hn (he ▸ hg)
      exact Arena.contains_of_get? (a := decl) (by simp [removeType, Arena.get?_erase, this, ht])
    case dead =>
      intro t _ ht
      obtain ⟨decl, ht⟩ := Arena.contains_iff.mp ht
      simp only [removeType, Arena.get?_erase] at ht
      split at ht
      case isTrue  => simp at ht
      case isFalse => exact Arena.contains_of_get? ht
    case issued => simp [removeType]
  case revise hf _ _ =>
    have hc (t : TypeId) : graph'.frame.types.contains t = graph.frame.types.contains t := by rw [hf]
    have hn : graph'.frame.types.next = graph.frame.types.next := by rw [hf]
    exact .congr (by simpa [frame, Arena.contains] using hc) (by simpa [frame] using hn)
  case relocate   =>
    refine .congr ?_ ?_ <;> simp [moveType, updateType, updatePackage]
  case property   => exact .congr (by simp [addProperty, updateType]) (by simp [addProperty, updateType])
  case constant   => exact .congr (by simp [addConstant, updateType]) (by simp [addConstant, updateType])
  case link       => exact .congr (by simp [insertEdge, updateType]) (by simp [insertEdge, updateType])
  case unlink     => exact .congr (by simp [eraseEdge, updateType]) (by simp [eraseEdge, updateType])
  case inherit    => exact .congr (by simp [moveMembers_eq]) (by simp [moveMembers_eq])
  case attach owner method callable _ _ =>
    refine .congr (fun t => ?_) nextType_attach
    have ht := @type?_attach graph owner t method callable.owner
    rw [type?] at ht
    simp [Arena.contains, ht, type?]
  all_goals exact .congr (fun _ => rfl) rfl

theorem Transitions.lifetime (h : Transitions gone moved graph graph') : Lifetime gone graph graph' := by
  induction h
  case refl         => exact .refl
  case tail _ hs hi => exact hi.trans hs.lifetime

theorem contains_newType (kind : TypeKind) (name package : String) :
    (graph.newType kind name package).2.types.contains (graph.newType kind name package).1 := by
  simp [newType, Arena.contains, updatePackage, Arena.get?_push]

end PackageCoupling.Graph
