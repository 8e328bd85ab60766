import PackageCoupling.NodeId

namespace PackageCoupling

-- Nodes of one kind under ids that are issued in order and never twice. Ids have no bound here, which makes no
-- difference to ids of 32 bits as long as fewer than 2 ^ 32 of each kind are issued. A cell without a node belongs to an
-- id that was used up without one or whose node has been erased.
@[ext]
structure Arena (kind : NodeKind) (α : Type) where
  cells : Array (Option α) := #[]

namespace Arena

variable {kind : NodeKind} {α : Type}

instance : EmptyCollection (Arena kind α) where
  emptyCollection := {}

def get? (arena : Arena kind α) (id : NodeId kind) : Option α :=
  arena.cells[id.val]?.join

def contains (arena : Arena kind α) (id : NodeId kind) : Bool :=
  (arena.get? id).isSome

def next (arena : Arena kind α) : NodeId kind :=
  ⟨arena.cells.size⟩

def push (arena : Arena kind α) (a : α) : Arena kind α :=
  ⟨arena.cells.push (some a)⟩

-- Uses up the next id without a node.
def reserve (arena : Arena kind α) : Arena kind α :=
  ⟨arena.cells.push none⟩

def modify (arena : Arena kind α) (id : NodeId kind) (f : α → α) : Arena kind α :=
  ⟨arena.cells.modify id.val (Option.map f)⟩

def erase (arena : Arena kind α) (id : NodeId kind) : Arena kind α :=
  ⟨arena.cells.modify id.val fun _ => none⟩

def map (arena : Arena kind α) (f : α → α) : Arena kind α :=
  ⟨arena.cells.map (Option.map f)⟩

def toList (arena : Arena kind α) : List α :=
  arena.cells.toList.filterMap id

variable {arena : Arena kind α} {i j : NodeId kind} {a : α} {f : α → α}

@[simp]
theorem get?_empty : (∅ : Arena kind α).get? i = none := by
  simp [get?, EmptyCollection.emptyCollection]

theorem get?_next : arena.get? arena.next = none := by
  simp [get?, next]

theorem get?_push : (arena.push a).get? i = if i = arena.next then some a else arena.get? i := by
  simp only [get?, push, next, NodeId.ext_iff, Array.getElem?_push]
  split <;> rfl

@[simp]
theorem get?_reserve : arena.reserve.get? i = arena.get? i := by
  simp only [get?, reserve, Array.getElem?_push]
  split
  case isTrue h => simp [h]
  case isFalse  => rfl

theorem get?_modify : (arena.modify i f).get? j = if i = j then (arena.get? j).map f else arena.get? j := by
  simp only [get?, modify, Array.getElem?_modify, NodeId.ext_iff]
  split
  case isTrue  => cases arena.cells[j.val]? <;> rfl
  case isFalse => rfl

theorem get?_erase : (arena.erase i).get? j = if i = j then none else arena.get? j := by
  simp only [get?, erase, Array.getElem?_modify, NodeId.ext_iff]
  split
  case isTrue  => cases arena.cells[j.val]? <;> rfl
  case isFalse => rfl

@[simp]
theorem get?_map : (arena.map f).get? i = (arena.get? i).map f := by
  simp only [get?, map, Array.getElem?_map]
  cases arena.cells[i.val]? <;> rfl

theorem mem_toList_iff : a ∈ arena.toList ↔ ∃ i, arena.get? i = some a := by
  simp only [toList, List.mem_filterMap, Array.mem_toList_iff, id, Array.mem_iff_getElem?, get?]
  constructor
  case mp =>
    intro ⟨_, ⟨n, hn⟩, h⟩
    exact ⟨⟨n⟩, by simp [hn, h]⟩
  case mpr =>
    intro ⟨i, h⟩
    exact ⟨some a, ⟨i.val, Option.join_eq_some_iff.mp h⟩, rfl⟩

end Arena
end PackageCoupling
