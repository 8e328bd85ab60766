import PackageCoupling.NodeId

namespace PackageCoupling

@[ext]
structure IdSet (kind : NodeKind) where
  toList : List (NodeId kind) := []
  ascending : toList.Pairwise (·.val < ·.val) := by exact .nil
deriving DecidableEq, Repr

namespace IdSet

variable {kind : NodeKind}

instance : EmptyCollection (IdSet kind) where
  emptyCollection := {}

instance : Membership (NodeId kind) (IdSet kind) where
  mem set id := id ∈ set.toList

instance (id : NodeId kind) (set : IdSet kind) : Decidable (id ∈ set) :=
  inferInstanceAs (Decidable (id ∈ set.toList))

def insertInto (id : NodeId kind) : List (NodeId kind) → List (NodeId kind)
  | [] => [id]
  | other :: rest =>
    if id.val < other.val then id :: other :: rest
    else if id = other then other :: rest
    else other :: insertInto id rest

theorem mem_insertInto {id other : NodeId kind} {ids : List (NodeId kind)} :
    other ∈ insertInto id ids ↔ other = id ∨ other ∈ ids := by
  induction ids <;> grind [insertInto]

theorem insertInto_ascending {id : NodeId kind} {ids : List (NodeId kind)}
    (h : ids.Pairwise (·.val < ·.val)) : (insertInto id ids).Pairwise (·.val < ·.val) := by
  induction ids
  case nil => simp [insertInto]
  case cons other rest hi =>
    have ⟨hl, hr⟩ := List.pairwise_cons.mp h
    rw [insertInto]
    split
    case isTrue hlt =>
      refine List.pairwise_cons.mpr ⟨?_, h⟩
      intro x hx
      cases List.mem_cons.mp hx
      case inl hx => exact hx ▸ hlt
      case inr hx => exact Nat.lt_trans hlt (hl x hx)
    case isFalse hlt =>
      split
      case isTrue      => exact h
      case isFalse hne =>
        refine List.pairwise_cons.mpr ⟨?_, hi hr⟩
        intro x hx
        cases mem_insertInto.mp hx
        case inr hx => exact hl x hx
        case inl hx =>
          subst hx
          have : x.val ≠ other.val := fun e => hne (NodeId.ext e)
          omega

def insert (set : IdSet kind) (id : NodeId kind) : IdSet kind :=
  ⟨insertInto id set.toList, insertInto_ascending set.ascending⟩

def ofList (ids : List (NodeId kind)) : IdSet kind :=
  ids.foldl insert ∅

def size (set : IdSet kind) : Nat :=
  set.toList.length

variable {set : IdSet kind} {id other : NodeId kind}

theorem mem_toList : id ∈ set.toList ↔ id ∈ set :=
  .rfl

@[simp]
theorem mem_insert : other ∈ set.insert id ↔ other = id ∨ other ∈ set :=
  mem_insertInto

end IdSet
end PackageCoupling
