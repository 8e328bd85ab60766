import Mathlib.Data.List.Nodup
import PackageCoupling.Arena
import PackageCoupling.Distinct

namespace PackageCoupling.Arena

variable {kind : NodeKind} {α : Type} {arena : Arena kind α} {i j : NodeId kind} {a : α} {f : α → α}

theorem next_push : (arena.push a).next.val = arena.next.val + 1 := by
  simp [next, push]

@[simp]
theorem next_modify : (arena.modify i f).next = arena.next := by
  simp [next, modify]

@[simp]
theorem next_erase : (arena.erase i).next = arena.next := by
  simp [next, erase]

@[simp]
theorem next_map : (arena.map f).next = arena.next := by
  simp [next, map]

theorem lt_next (h : arena.get? i = some a) : i.val < arena.next.val := by
  by_contra hn
  have : arena.cells[i.val]? = none := Array.getElem?_eq_none (Nat.le_of_not_lt hn)
  simp [get?, this] at h

theorem get?_modify_eq_map :
    (arena.modify i f).get? j = (arena.get? j).map fun a => if i = j then f a else a := by
  rw [get?_modify]
  split <;> simp

theorem map_get?_modify {β : Type} {k : α → β} (hf : ∀ a, k (f a) = k a) :
    ((arena.modify i f).get? j).map k = (arena.get? j).map k := by
  rw [get?_modify]
  split
  case isTrue  => rw [Option.map_map, show k ∘ f = k from funext hf]
  case isFalse => rfl

theorem map_get?_congr {β : Type} {arena' : Arena kind α} {k : α → α} {g : α → β} (h : arena'.map k = arena.map k)
    (hg : ∀ a, g (k a) = g a) : (arena'.get? i).map g = (arena.get? i).map g := by
  have hk (arena : Arena kind α) : (arena.get? i).map g = ((arena.map k).get? i).map g := by
    simp [Function.comp_def, hg]
  rw [hk, h, ← hk]

theorem contains_iff : arena.contains i = true ↔ ∃ a, arena.get? i = some a := by
  simp [contains, Option.isSome_iff_exists]

theorem contains_of_get? (h : arena.get? i = some a) : arena.contains i = true :=
  contains_iff.mpr ⟨a, h⟩

theorem lt_next_of_contains (h : arena.contains i) : i.val < arena.next.val := by
  have ⟨_, ha⟩ := contains_iff.mp h
  exact lt_next ha

@[simp]
theorem contains_modify : (arena.modify i f).contains j = arena.contains j := by
  simp only [contains, get?_modify]
  split <;> simp

-- The same node is changed in the same way several times over, which has to make no difference.
theorem get?_foldl_modify {is : List (NodeId kind)} (hf : ∀ a, f (f a) = f a) :
    (is.foldl (fun arena i => arena.modify i f) arena).get? j
      = if j ∈ is then (arena.get? j).map f else arena.get? j := by
  induction is generalizing arena
  case nil => simp
  case cons i is hi =>
    rw [List.foldl_cons, hi, get?_modify]
    by_cases he : i = j
    case pos => by_cases hm : j ∈ is <;> simp [hm, he, Function.comp_def, hf]
    case neg => simp [he, Ne.symm he]

@[simp]
theorem next_foldl_modify {is : List (NodeId kind)} :
    (is.foldl (fun arena i => arena.modify i f) arena).next = arena.next := by
  induction is generalizing arena
  case nil           => rfl
  case cons i is hi => rw [List.foldl_cons, hi, next_modify]

theorem map_modify {k : α → α} (hf : ∀ a, k (f a) = k a) : (arena.modify i f).map k = arena.map k := by
  ext1
  apply Array.ext_getElem?
  intro n
  simp only [modify, map, Array.getElem?_map, Array.getElem?_modify]
  split
  case isTrue  => simp [Function.comp_def, hf]
  case isFalse => rfl

theorem modify_comm {g : α → α} (h : ∀ a, g (f a) = f (g a)) :
    (arena.modify i f).modify j g = (arena.modify j g).modify i f := by
  refine Arena.ext (Array.ext_getElem? fun n => ?_)
  simp only [modify, Array.getElem?_modify]
  by_cases hi : i.val = n <;> by_cases hj : j.val = n <;> simp [hi, hj, Function.comp_def, h]

theorem map_map {k : α → α} (hf : ∀ a, k (f a) = k a) : (arena.map f).map k = arena.map k := by
  simp [map, Function.comp_def, hf]

theorem toList_push : (arena.push a).toList = arena.toList ++ [a] := by
  simp [toList, push]

theorem toList_eq_filterMap : arena.toList = (List.range arena.next.val).filterMap fun n => arena.get? ⟨n⟩ := by
  have hc : arena.cells.toList = (List.range arena.next.val).map fun n => arena.get? ⟨n⟩ := by
    apply List.ext_getElem
    case hl => simp [next]
    case h =>
      intro n hn _
      have hn : n < arena.cells.size := by simpa using hn
      simp [get?, hn]
  rw [toList, hc, List.filterMap_map]
  rfl

theorem toList_map {k : α → α} : (arena.map k).toList = arena.toList.map k := by
  simp only [toList, map, Array.toList_map, List.filterMap_map, List.map_filterMap]
  rfl

theorem map_toList_modify {β : Type} {k : α → β} (hf : ∀ a, k (f a) = k a) :
    (arena.modify i f).toList.map k = arena.toList.map k := by
  have hl (cells : Array (Option α)) :
      (cells.toList.filterMap id).map k = (cells.map (Option.map k)).toList.filterMap id := by
    simp only [Array.toList_map, List.filterMap_map, List.map_filterMap]
    rfl
  have hm : (arena.modify i f).cells.map (Option.map k) = arena.cells.map (Option.map k) := by
    refine Array.ext_getElem? fun n => ?_
    simp only [modify, Array.getElem?_map, Array.getElem?_modify]
    split
    case isTrue  => simp [Function.comp_def, hf]
    case isFalse => rfl
  rw [toList, toList, hl, hm, ← hl]

theorem exists_toList (h : arena.get? i = some a) : ∃ l₁ l₂, arena.toList = l₁ ++ a :: l₂
    ∧ (arena.erase i).toList = l₁ ++ l₂ ∧ ∀ f, (arena.modify i f).toList = l₁ ++ f a :: l₂ := by
  have hc : arena.cells[i.val]? = some (some a) := Option.join_eq_some_iff.mp h
  have ⟨hl, hi⟩ := Array.getElem?_eq_some_iff.mp hc
  have hl' : i.val < arena.cells.toList.length := by simpa using hl
  have hi' : arena.cells.toList[i.val] = some a := by simpa using hi
  refine ⟨(arena.cells.toList.take i.val).filterMap id, (arena.cells.toList.drop (i.val + 1)).filterMap id,
    ?_, ?_, fun f => ?_⟩
  case refine_1 =>
    have he : arena.cells.toList = arena.cells.toList.take i.val ++ some a :: arena.cells.toList.drop (i.val + 1) := by
      rw [← hi', List.getElem_cons_drop, List.take_append_drop]
    rw [toList]
    conv => lhs; rw [he]
    simp
  case refine_2 =>
    rw [toList, erase, Array.toList_modify, List.modify_eq_take_cons_drop hl']
    simp
  case refine_3 =>
    rw [toList, modify, Array.toList_modify, List.modify_eq_take_cons_drop hl', hi']
    simp

section

variable {P : α → Bool}

theorem countP_push : (arena.push a).toList.countP P = arena.toList.countP P + if P a then 1 else 0 := by
  rw [toList_push, List.countP_append, List.countP_singleton]

theorem countP_erase (h : arena.get? i = some a) :
    (arena.erase i).toList.countP P + (if P a then 1 else 0) = arena.toList.countP P := by
  have ⟨l₁, l₂, hl, he, _⟩ := exists_toList h
  rw [hl, he, List.countP_append, List.countP_append, List.countP_cons, Nat.add_assoc]

theorem countP_modify (h : arena.get? i = some a) :
    (arena.modify i f).toList.countP P + (if P a then 1 else 0) = arena.toList.countP P + if P (f a) then 1 else 0 := by
  have ⟨l₁, l₂, hl, _, hm⟩ := exists_toList h
  rw [hl, hm, List.countP_append, List.countP_append, List.countP_cons, List.countP_cons]
  omega

theorem countP_congr {arena' : Arena kind α} {k : α → α} (h : arena'.map k = arena.map k) (hk : ∀ a, P (k a) = P a) :
    arena'.toList.countP P = arena.toList.countP P := by
  have ht (arena : Arena kind α) : arena.toList.countP P = (arena.map k).toList.countP P := by
    rw [toList_map, List.countP_map]
    congr 1
    funext a
    exact (hk a).symm
  rw [ht, h, ← ht]

end

theorem modify_modify {g : α → α} : (arena.modify i f).modify i g = arena.modify i fun a => g (f a) := by
  refine Arena.ext (Array.ext_getElem? fun n => ?_)
  simp only [modify, Array.getElem?_modify]
  split <;> simp [Function.comp_def]

theorem ext_get? {arena' : Arena kind α} (hn : arena'.next = arena.next) (h : ∀ i, arena'.get? i = arena.get? i) :
    arena' = arena := by
  refine Arena.ext (Array.ext (congrArg NodeId.val hn) fun n h₁ h₂ => ?_)
  simpa [get?, h₁, h₂] using h ⟨n⟩

theorem map_eq_self (h : ∀ a, f a = a) : arena.map f = arena :=
  ext_get? next_map fun i => by simp [funext h]

theorem modify_eq_self (h : ∀ a, arena.get? i = some a → f a = a) : arena.modify i f = arena := by
  refine ext_get? next_modify fun j => ?_
  rw [get?_modify]
  split
  case isFalse   => rfl
  case isTrue hi =>
    subst hi
    cases ha : arena.get? i
    case none   => rfl
    case some a => rw [Option.map_some, h a ha]

theorem foldl_modify_eq_self {is : List (NodeId kind)} (h : ∀ i ∈ is, ∀ a, arena.get? i = some a → f a = a) :
    is.foldl (fun arena i => arena.modify i f) arena = arena := by
  induction is
  case nil          => rfl
  case cons i is hi =>
    rw [List.forall_mem_cons] at h
    rw [List.foldl_cons, modify_eq_self h.left, hi h.right]

theorem modify_of_get?_eq_none (h : arena.get? i = none) : arena.modify i f = arena :=
  modify_eq_self (by simp [h])

theorem modify_push : (arena.push a).modify arena.next f = arena.push (f a) := by
  refine Arena.ext (Array.ext_getElem? fun n => ?_)
  simp only [modify, push, next, Array.getElem?_modify, Array.getElem?_push]
  grind

def All (arena : Arena kind α) (P : α → Prop) : Prop :=
  ∀ i a, arena.get? i = some a → P a

theorem map_congr {g : α → α} (h : arena.All fun a => f a = g a) : arena.map f = arena.map g := by
  refine ext_get? (by simp) fun i => ?_
  rw [get?_map, get?_map]
  exact Option.map_congr (h i)

namespace All

variable {P Q : α → Prop}

theorem empty : (∅ : Arena kind α).All P := by
  simp [All]

theorem mono (h : arena.All P) (hs : ∀ a, P a → Q a) : arena.All Q :=
  fun i a ha => hs a (h i a ha)

theorem push (h : arena.All P) (ha : P a) : (arena.push a).All P := by
  intro j b hj
  rw [get?_push] at hj
  split at hj
  case isTrue  => exact Option.some.inj hj ▸ ha
  case isFalse => exact h j b hj

theorem reserve (h : arena.All P) : arena.reserve.All P := by
  simpa [All] using h

theorem modify (h : arena.All P) (hf : ∀ a, arena.get? i = some a → P a → P (f a)) : (arena.modify i f).All P := by
  intro j b hj
  rw [get?_modify] at hj
  split at hj
  case isFalse => exact h j b hj
  case isTrue hi =>
    have ⟨a, ha, he⟩ := Option.map_eq_some_iff.mp hj
    exact he ▸ hf a (hi ▸ ha) (h j a ha)

theorem map (h : arena.All P) (hf : ∀ a, P a → P (f a)) : (arena.map f).All P := by
  intro j b hj
  rw [get?_map] at hj
  have ⟨a, ha, he⟩ := Option.map_eq_some_iff.mp hj
  exact he ▸ hf a (h j a ha)

theorem erase (h : arena.All P) : (arena.erase i).All P := by
  intro j b hj
  rw [get?_erase] at hj
  split at hj
  case isTrue  => simp at hj
  case isFalse => exact h j b hj

theorem foldl_modify {is : List (NodeId kind)} (h : arena.All P) (hf : ∀ a, P a → P (f a)) :
    (is.foldl (fun arena i => arena.modify i f) arena).All P := by
  induction is generalizing arena
  case nil          => exact h
  case cons i is hi => exact hi (h.modify fun a _ => hf a)

end All

-- Every node holds the id that it is under.
def Labelled (arena : Arena kind α) (id : α → NodeId kind) : Prop :=
  ∀ i a, arena.get? i = some a → id a = i

namespace Labelled

variable {id : α → NodeId kind}

theorem empty : (∅ : Arena kind α).Labelled id := by
  simp [Labelled]

theorem push (h : arena.Labelled id) (ha : id a = arena.next) : (arena.push a).Labelled id := by
  intro i b hi
  rw [get?_push] at hi
  split at hi
  case isTrue hn => exact Option.some.inj hi ▸ hn ▸ ha
  case isFalse   => exact h i b hi

theorem modify (h : arena.Labelled id) (hf : ∀ a, id (f a) = id a) : (arena.modify i f).Labelled id := by
  intro j b hj
  rw [get?_modify_eq_map] at hj
  have ⟨a, ha, he⟩ := Option.map_eq_some_iff.mp hj
  rw [← he, ← h j a ha]
  split
  case isTrue  => exact hf a
  case isFalse => rfl

theorem erase (h : arena.Labelled id) : (arena.erase i).Labelled id := by
  intro j b hj
  rw [get?_erase] at hj
  split at hj
  case isTrue  => simp at hj
  case isFalse => exact h j b hj

theorem reserve (h : arena.Labelled id) : arena.reserve.Labelled id := by
  simpa [Labelled] using h

theorem congr {arena' : Arena kind α} (h : arena.Labelled id)
    (he : ∀ i, (arena'.get? i).map id = (arena.get? i).map id) : arena'.Labelled id := by
  intro i a' ha'
  have hi := he i
  rw [ha'] at hi
  have ⟨a, ha, hd⟩ := Option.map_eq_some_iff.mp hi.symm
  exact hd.symm.trans (h i a ha)

theorem nodup_toList (h : arena.Labelled id) : arena.toList.Nodup := by
  rw [toList, List.nodup_iff_pairwise_ne, List.pairwise_filterMap, List.pairwise_iff_getElem]
  intro m n hm hn hlt a ha b hb he
  have ha : arena.get? ⟨m⟩ = some a := by
    simp only [Array.getElem_toList, id_eq] at ha
    simp [get?, Array.getElem?_eq_getElem hm, ha]
  have hb : arena.get? ⟨n⟩ = some b := by
    simp only [Array.getElem_toList, id_eq] at hb
    simp [get?, Array.getElem?_eq_getElem hn, hb]
  have := (h _ a ha).symm.trans (he ▸ h _ b hb)
  simp only [NodeId.mk.injEq] at this
  omega

end Labelled

-- There is a node under every id that has been issued.
def Full (arena : Arena kind α) : Prop :=
  ∀ i : NodeId kind, i.val < arena.next.val → ∃ a, arena.get? i = some a

theorem Full.push (h : arena.Full) : (arena.push a).Full := by
  intro i hi
  rw [next_push] at hi
  rw [get?_push]
  by_cases he : i = arena.next
  case pos => simp [he]
  case neg =>
    have : i.val ≠ arena.next.val := fun e => he (NodeId.ext e)
    simp [he, h i (by omega)]

theorem Full.congr {arena' : Arena kind α} (h : arena.Full) (hn : arena'.next = arena.next)
    (hc : ∀ i, arena'.contains i = arena.contains i) : arena'.Full := by
  intro i hi
  have ha := h i (hn ▸ hi)
  rw [← contains_iff] at ha ⊢
  rw [hc, ha]

theorem Full.modify (h : arena.Full) : (arena.modify i f).Full := by
  intro j hj
  have ⟨a, ha⟩ := h j (by simpa using hj)
  rw [get?_modify]
  split <;> simp [ha]

-- An index leads from the name of every node to its id, and nowhere else.
def Indexed (arena : Arena kind α) (name : α → String) (index : List (String × NodeId kind)) : Prop :=
  ∀ n i, index.lookup n = some i ↔ (arena.get? i).map name = some n

namespace Indexed

variable {name : α → String} {index : List (String × NodeId kind)}

theorem empty : (∅ : Arena kind α).Indexed name [] := by
  simp [Indexed]

theorem push (h : arena.Indexed name index) (hn : index.lookup (name a) = none) :
    (arena.push a).Indexed name ((name a, arena.next) :: index) := by
  intro n i
  -- No name led to the id that comes next.
  have hf : index.lookup n ≠ some arena.next := by simp [h n, get?_next]
  rw [List.lookup_cons, get?_push]
  by_cases he : n = name a
  case pos =>
    have hl : index.lookup n = none := he ▸ hn
    have hi : (arena.get? i).map name ≠ some n := by simp [← h n i, hl]
    by_cases hx : i = arena.next
    case pos => simp [he, hx]
    case neg => simp [← he, hx, hi, Ne.symm hx]
  case neg =>
    rw [beq_false_of_ne he]
    by_cases hx : i = arena.next
    case pos => simp [hx, hf, Ne.symm he]
    case neg => simp [hx, h n i]

theorem congr {arena' : Arena kind α} (h : arena.Indexed name index)
    (he : ∀ i, (arena'.get? i).map name = (arena.get? i).map name) : arena'.Indexed name index := by
  intro n i
  rw [he, h n i]

theorem modify (h : arena.Indexed name index) (hf : ∀ a, name (f a) = name a) :
    (arena.modify i f).Indexed name index :=
  h.congr fun _ => map_get?_modify hf

theorem exists_get? {n : String} (h : arena.Indexed name index) (hi : index.lookup n = some i) :
    ∃ a, arena.get? i = some a ∧ name a = n :=
  Option.map_eq_some_iff.mp ((h n i).mp hi)

theorem lookup_eq (h : arena.Indexed name index) (ha : arena.get? i = some a) : index.lookup (name a) = some i :=
  (h (name a) i).mpr (by rw [ha, Option.map_some])

end Indexed

-- The nodes of the arena `owners` list the nodes of the arena `owned` that belong to them. A node may
-- belong to one that is gone, but not to one that has never been there.
structure Owns {kind kind' : NodeKind} {α β : Type} (owners : Arena kind α) (members : α → List (NodeId kind'))
    (owned : Arena kind' β) (owner : β → Option (NodeId kind)) : Prop where
  nodup : ∀ {i a}, owners.get? i = some a → (members a).Nodup
  mem_iff : ∀ {i a j}, owners.get? i = some a → (j ∈ members a ↔ (owned.get? j).bind owner = some i)
  issued : ∀ {i j}, (owned.get? j).bind owner = some i → i.val < owners.next.val

namespace Owns

variable {kind kind' : NodeKind} {α β : Type} {owners owners' : Arena kind α} {members : α → List (NodeId kind')}
variable {owned owned' : Arena kind' β} {owner : β → Option (NodeId kind)}
variable {i i' : NodeId kind} {j : NodeId kind'} {a : α} {b : β} {f f' : α → α} {g : β → β}

theorem empty : (∅ : Arena kind α).Owns members (∅ : Arena kind' β) owner where
  nodup h   := by simp at h
  mem_iff h := by simp at h
  issued h  := by simp at h

theorem congr (h : owners.Owns members owned owner) (hn : owners.next.val ≤ owners'.next.val)
    (hm : ∀ i a', owners'.get? i = some a' → ∃ a, owners.get? i = some a ∧ members a' = members a)
    (ho : ∀ j, (owned'.get? j).bind owner = (owned.get? j).bind owner) :
    owners'.Owns members owned' owner where
  nodup hi := by
    have ⟨_, ha, he⟩ := hm _ _ hi
    exact he ▸ h.nodup ha
  mem_iff hi := by
    have ⟨_, ha, he⟩ := hm _ _ hi
    rw [he, ho, h.mem_iff ha]
  issued hj := Nat.lt_of_lt_of_le (h.issued (ho _ ▸ hj)) hn

theorem modify_owner (h : owners.Owns members owned owner) (hf : ∀ a, members (f a) = members a) :
    (owners.modify i f).Owns members owned owner := by
  refine h.congr (by simp) ?_ fun _ => rfl
  intro j a' hj
  rw [get?_modify_eq_map] at hj
  have ⟨a, ha, he⟩ := Option.map_eq_some_iff.mp hj
  refine ⟨a, ha, ?_⟩
  rw [← he]
  split
  case isTrue  => exact hf a
  case isFalse => rfl

theorem erase_owner (h : owners.Owns members owned owner) : (owners.erase i).Owns members owned owner := by
  refine h.congr (by simp) ?_ fun _ => rfl
  intro j a' hj
  rw [get?_erase] at hj
  split at hj
  case isTrue  => simp at hj
  case isFalse => exact ⟨a', hj, rfl⟩

theorem modify_owned (h : owners.Owns members owned owner) (hg : ∀ b, owner (g b) = owner b) :
    owners.Owns members (owned.modify j g) owner := by
  refine h.congr (Nat.le_refl _) (fun _ a ha => ⟨a, ha, rfl⟩) ?_
  intro k
  rw [get?_modify_eq_map]
  cases owned.get? k
  case none   => rfl
  case some b =>
    simp only [Option.map_some, Option.bind_some]
    split
    case isTrue  => exact hg b
    case isFalse => rfl

theorem reserve_owned (h : owners.Owns members owned owner) : owners.Owns members owned.reserve owner :=
  h.congr (Nat.le_refl _) (fun _ a ha => ⟨a, ha, rfl⟩) (by simp)

theorem push_owner (h : owners.Owns members owned owner) (ha : members a = []) :
    (owners.push a).Owns members owned owner where
  nodup {i b} hi := by
    have := @h.nodup i b
    grind [get?_push]
  mem_iff {i b j} hi := by
    have := @h.mem_iff i b j
    have := @h.issued i j
    grind [get?_push]
  issued hj := by
    have := h.issued hj
    rw [next_push]
    omega

theorem push_stray (h : owners.Owns members owned owner) (hb : owner b = none) :
    owners.Owns members (owned.push b) owner := by
  refine h.congr (Nat.le_refl _) (fun _ a ha => ⟨a, ha, rfl⟩) ?_
  intro k
  have := @get?_next kind' β owned
  grind [get?_push]

theorem push_owned (h : owners.Owns members owned owner) (hi : owners.contains i = true)
    (hf : ∀ a, members (f a) = members a ++ [owned.next]) (hb : owner b = some i) :
    (owners.modify i f).Owns members (owned.push b) owner := by
  have hn := @get?_next kind' β owned
  have ⟨a, ha⟩ := contains_iff.mp hi
  constructor
  case nodup =>
    intro i' a' hi'
    rw [get?_modify_eq_map] at hi'
    have ⟨c, hc, he⟩ := Option.map_eq_some_iff.mp hi'
    have hd := h.nodup hc
    have hm : owned.next ∉ members c := by simp [h.mem_iff hc, hn]
    grind
  case mem_iff =>
    intro i' a' j hi'
    rw [get?_modify_eq_map] at hi'
    have ⟨c, hc, he⟩ := Option.map_eq_some_iff.mp hi'
    have hm := @h.mem_iff i' c j hc
    grind [get?_push]
  case issued =>
    intro i' j hj
    rw [get?_push] at hj
    split at hj
    case isTrue =>
      have : i = i' := by simpa [hb] using hj
      simpa [← this] using lt_next ha
    case isFalse => simpa using h.issued hj

-- A node that is given to an owner is taken away from the one that it belonged to before.
theorem give (h : owners.Owns members owned owner) (hi : owners.contains i = true) (hj : owned.contains j = true)
    (hg : ∀ b, owner (g b) = some i) (hn : owners.next.val ≤ owners'.next.val)
    (hm : ∀ i' a', owners'.get? i' = some a' → ∃ a, owners.get? i' = some a ∧ members a' =
      if i' = i then Distinct.add (members a) j
      else if (owned.get? j).bind owner = some i' then Distinct.remove (members a) j
      else members a) :
    owners'.Owns members (owned.modify j g) owner := by
  have ⟨b, hb⟩ := contains_iff.mp hj
  have ho : ∀ k, ((owned.modify j g).get? k).bind owner
      = if k = j then some i else (owned.get? k).bind owner := by
    intro k
    rw [get?_modify]
    by_cases hk : j = k
    case pos => subst hk; simp [hb, hg]
    case neg => simp [hk, Ne.symm hk]
  constructor
  case nodup =>
    intro i' a' hi'
    have ⟨a, ha, he⟩ := hm i' a' hi'
    have hd := h.nodup ha
    rw [he]
    split
    case isTrue => exact Distinct.nodup_add hd
    case isFalse =>
      split
      case isTrue  => exact Distinct.nodup_remove hd
      case isFalse => exact hd
  case mem_iff =>
    intro i' a' k hi'
    have ⟨a, ha, he⟩ := hm i' a' hi'
    have hk := @h.mem_iff i' a k ha
    rw [he, ho]
    split
    case isTrue => grind [Distinct.mem_add]
    case isFalse => grind [Distinct.mem_remove]
  case issued =>
    intro i' k hk
    rw [ho] at hk
    split at hk
    case isTrue =>
      have ⟨a, ha⟩ := contains_iff.mp hi
      have : i = i' := by simpa using hk
      exact this ▸ Nat.lt_of_lt_of_le (lt_next ha) hn
    case isFalse => exact Nat.lt_of_lt_of_le (h.issued hk) hn

theorem erase_owned (h : owners.Owns members owned owner) (hn : owners.next.val ≤ owners'.next.val)
    (hm : ∀ i' a', owners'.get? i' = some a' → ∃ a, owners.get? i' = some a ∧ members a' =
      if (owned.get? j).bind owner = some i' then Distinct.remove (members a) j else members a) :
    owners'.Owns members (owned.erase j) owner := by
  have ho : ∀ k, ((owned.erase j).get? k).bind owner = if k = j then none else (owned.get? k).bind owner := by
    intro k
    rw [get?_erase]
    by_cases hk : j = k
    case pos => simp [hk]
    case neg => simp [hk, Ne.symm hk]
  constructor
  case nodup =>
    intro i' a' hi'
    have ⟨a, ha, he⟩ := hm i' a' hi'
    have hd := h.nodup ha
    rw [he]
    split
    case isTrue  => exact Distinct.nodup_remove hd
    case isFalse => exact hd
  case mem_iff =>
    intro i' a' k hi'
    have ⟨a, ha, he⟩ := hm i' a' hi'
    have hk := @h.mem_iff i' a k ha
    rw [he, ho]
    grind [Distinct.mem_remove]
  case issued =>
    intro i' k hk
    rw [ho] at hk
    split at hk
    case isTrue  => simp at hk
    case isFalse => exact Nat.lt_of_lt_of_le (h.issued hk) hn

theorem foldl_modify_eq_self (h : owners.Owns members owned owner) (ha : owners.get? i = some a)
    (hg : ∀ b, owner b = some i → g b = b) : (members a).foldl (fun owned j => owned.modify j g) owned = owned := by
  refine Arena.foldl_modify_eq_self fun j hj b hb => hg b ?_
  have ho := (h.mem_iff ha).mp hj
  rwa [hb, Option.bind_some] at ho

-- Everything that belongs to one owner goes to another one, or comes back to the same one.
theorem inherit (h : owners.Owns members owned owner) (ha : owners.get? i = some a)
    (hi : owners.contains i' = true) (hn : owners.next.val ≤ owners'.next.val) (hg : ∀ b, owner (g b) = some i')
    (ho : ∀ k, owned'.get? k = (owned.get? k).map fun b => if k ∈ members a then g b else b)
    (hm : ∀ x c', owners'.get? x = some c' → ∃ c, owners.get? x = some c ∧ members c' =
      (if x = i then [] else members c) ++ if x = i' then members a else []) :
    owners'.Owns members owned' owner := by
  have hd := h.nodup ha
  replace ho : ∀ k, (owned'.get? k).bind owner = if k ∈ members a then some i' else (owned.get? k).bind owner := by
    intro k
    have hk := @h.mem_iff i a k ha
    rw [ho]
    cases hb : owned.get? k
    case none   => simp [hk, hb]
    case some b => by_cases hm : k ∈ members a <;> simp [hm, hg]
  constructor
  case nodup =>
    intro x c' hx
    obtain ⟨c, hc, he⟩ := hm x c' hx
    have hdc := h.nodup hc
    have hs : ∀ k ∈ members a, ∀ l ∈ members c, x ≠ i → l ≠ k := by
      intro k hk l hl hx
      have := (h.mem_iff ha).mp hk
      have := (h.mem_iff hc).mp hl
      grind
    rw [he, List.nodup_append]
    grind
  case mem_iff =>
    intro x c' k hx
    obtain ⟨c, hc, he⟩ := hm x c' hx
    have hk := @h.mem_iff x c k hc
    have hka := @h.mem_iff i a k ha
    rw [he, ho]
    grind
  case issued =>
    intro x k hk
    rw [ho] at hk
    split at hk
    case isTrue =>
      obtain ⟨c, hc⟩ := contains_iff.mp hi
      have : i' = x := by simpa using hk
      exact this ▸ Nat.lt_of_lt_of_le (lt_next hc) hn
    case isFalse => exact Nat.lt_of_lt_of_le (h.issued hk) hn

end Owns
end PackageCoupling.Arena
