import PackageCoupling.NodeId

namespace PackageCoupling

@[ext]
structure IdMap (kind : NodeKind) (α : Type) where
  toList : List (NodeId kind × α) := []
  ascending : toList.Pairwise (·.1.val < ·.1.val) := by exact .nil

namespace IdMap

variable {kind : NodeKind} {α : Type}

instance : EmptyCollection (IdMap kind α) where
  emptyCollection := {}

def get? (map : IdMap kind α) (id : NodeId kind) : Option α :=
  map.toList.lookup id

def keys (map : IdMap kind α) : List (NodeId kind) :=
  map.toList.map (·.1)

def values (map : IdMap kind α) : List α :=
  map.toList.map (·.2)

def upsertInto (id : NodeId kind) (f : Option α → α) : List (NodeId kind × α) → List (NodeId kind × α)
  | [] => [(id, f none)]
  | (other, a) :: rest =>
    if id.val < other.val then (id, f none) :: (other, a) :: rest
    else if id = other then (other, f (some a)) :: rest
    else (other, a) :: upsertInto id f rest

theorem mem_keys_upsertInto {id other : NodeId kind} {f : Option α → α} {entries : List (NodeId kind × α)} :
    other ∈ (upsertInto id f entries).map (·.1) ↔ other = id ∨ other ∈ entries.map (·.1) := by
  induction entries <;> grind [upsertInto]

theorem upsertInto_ascending {id : NodeId kind} {f : Option α → α} {entries : List (NodeId kind × α)}
    (h : entries.Pairwise (·.1.val < ·.1.val)) :
    (upsertInto id f entries).Pairwise (·.1.val < ·.1.val) := by
  induction entries
  case nil => simp [upsertInto]
  case cons entry rest hi =>
    have ⟨hl, hr⟩ := List.pairwise_cons.mp h
    rw [upsertInto]
    split
    case isTrue hlt =>
      refine List.pairwise_cons.mpr ⟨?_, h⟩
      intro x hx
      cases List.mem_cons.mp hx
      case inl hx => exact hx ▸ hlt
      case inr hx => exact Nat.lt_trans hlt (hl x hx)
    case isFalse hlt =>
      split
      case isTrue      => exact List.pairwise_cons.mpr ⟨hl, hr⟩
      case isFalse hne =>
        refine List.pairwise_cons.mpr ⟨?_, hi hr⟩
        intro x hx
        cases mem_keys_upsertInto.mp (List.mem_map_of_mem hx)
        case inr hx =>
          have ⟨y, hy, e⟩ := List.mem_map.mp hx
          exact e ▸ hl y hy
        case inl hx =>
          have : id.val ≠ entry.1.val := fun e => hne (NodeId.ext e)
          show entry.1.val < x.1.val
          rw [hx]
          omega

-- Changes the value of an id, or gives it one.
def upsert (map : IdMap kind α) (id : NodeId kind) (f : Option α → α) : IdMap kind α :=
  ⟨upsertInto id f map.toList, upsertInto_ascending map.ascending⟩

def insert (map : IdMap kind α) (id : NodeId kind) (a : α) : IdMap kind α :=
  map.upsert id fun _ => a

def mapWithId {β : Type} (map : IdMap kind α) (f : NodeId kind → α → β) : IdMap kind β where
  toList := map.toList.map fun (id, a) => (id, f id a)
  ascending := map.ascending.map _ fun _ _ => id

variable {map : IdMap kind α} {id other : NodeId kind} {a : α} {f : Option α → α}

@[simp]
theorem get?_empty : (∅ : IdMap kind α).get? id = none :=
  rfl

theorem lookup_eq_none_of_lt {entries : List (NodeId kind × α)}
    (h : ∀ entry ∈ entries, id.val < entry.1.val) : entries.lookup id = none := by
  refine List.lookup_eq_none_iff.mpr ?_
  intro entry he
  have := h entry he
  simp only [bne_iff_ne, ne_eq]
  intro e
  simp [e] at this

theorem lookup_upsertInto {entries : List (NodeId kind × α)} (h : entries.Pairwise (·.1.val < ·.1.val)) :
    (upsertInto id f entries).lookup other
      = if other = id then some (f (entries.lookup id)) else entries.lookup other := by
  induction entries
  case nil => grind [upsertInto]
  case cons entry rest hi =>
    obtain ⟨hl, hr⟩ := List.pairwise_cons.mp h
    have : (∀ e ∈ entry :: rest, id.val < e.1.val) → (entry :: rest).lookup id = none := lookup_eq_none_of_lt
    grind [upsertInto]

theorem get?_upsert :
    (map.upsert id f).get? other = if other = id then some (f (map.get? id)) else map.get? other :=
  lookup_upsertInto map.ascending

theorem get?_mapWithId {β : Type} {g : NodeId kind → α → β} :
    (map.mapWithId g).get? id = (map.get? id).map (g id) := by
  simp only [get?, mapWithId]
  induction map.toList <;> grind

theorem mem_keys_of_get? (h : map.get? id = some a) : id ∈ map.keys := by
  have ⟨l₁, l₂, e, _⟩ := List.lookup_eq_some_iff.mp h
  simp [keys, e]

end IdMap
end PackageCoupling
