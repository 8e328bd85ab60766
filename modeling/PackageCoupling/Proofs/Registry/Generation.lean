import Mathlib.Data.List.Basic
import PackageCoupling.Registry.Generation

namespace PackageCoupling.Generation

variable {generation generation' : Generation} {kind kind' : TypeKind} {key key' package default : String} {id : TypeId}
variable {entry : Entry}

theorem mem_named :
    entry ∈ generation.named kind key ↔ entry ∈ generation.entries ∧ entry.kind = kind ∧ entry.key = key := by
  simp [named]

theorem named_insert :
    (generation.insert kind key package id).named kind' key' = generation.named kind' key'
      ++ if kind = kind' ∧ key = key' then [⟨kind, key, package, id⟩] else [] := by
  simp only [named, insert, List.filter_append, List.filter_cons, List.filter_nil, decide_eq_true_eq]

theorem named_relocate :
    (generation.relocate kind key id package).named kind' key' = (generation.named kind' key').map fun e =>
      if e.kind = kind ∧ e.key = key ∧ e.id = id then { e with package } else e := by
  simp only [named, relocate, List.filter_map]
  congr 1
  refine List.filter_congr fun e _ => ?_
  simp only [Function.comp_apply]
  split <;> rfl

theorem named_relocate_of_ne (h : ¬(kind' = kind ∧ key' = key)) :
    (generation.relocate kind key id package).named kind' key' = generation.named kind' key' := by
  rw [named_relocate]
  refine (List.map_congr_left fun e he => ?_).trans (List.map_id _)
  have ⟨_, hk, hy⟩ := mem_named.mp he
  exact if_neg fun hi => h ⟨hk.symm.trans hi.left, hy.symm.trans hi.right.left⟩

theorem named_remove :
    (generation.remove kind key id).named kind' key' = (generation.named kind' key').filter fun e =>
      ¬(e.kind = kind ∧ e.key = key ∧ e.id = id) := by
  simp only [named, remove, List.filter_filter, and_comm, Bool.and_comm]

theorem mem_relocate (h : entry ∈ (generation.relocate kind key id package).entries) :
    entry ∈ generation.entries ∧ ¬(entry.kind = kind ∧ entry.key = key ∧ entry.id = id)
      ∨ ∃ e ∈ generation.named kind key, e.id = id ∧ entry = { e with package } := by
  obtain ⟨e, he, rfl⟩ := List.mem_map.mp h
  split
  case isTrue hi  => exact .inr ⟨e, mem_named.mpr ⟨he, hi.left, hi.right.left⟩, hi.right.right, rfl⟩
  case isFalse hn => exact .inl ⟨he, hn⟩

theorem id_of_mem_relocate (h : entry ∈ (generation.relocate kind key id package).entries) :
    ∃ e ∈ generation.entries, e.id = entry.id := by
  cases mem_relocate h
  case inl h => exact ⟨entry, h.left, rfl⟩
  case inr h =>
    have ⟨e, he, _, hi⟩ := h
    exact ⟨e, (mem_named.mp he).left, hi ▸ rfl⟩

theorem map_id_relocate :
    (generation.relocate kind key id package).entries.map (·.id) = generation.entries.map (·.id) := by
  rw [relocate, List.map_map]
  congr 1
  funext e
  simp only [Function.comp_apply]
  split <;> rfl

theorem find?_congr (h : generation'.named kind key = generation.named kind key) :
    generation'.find? kind key package default = generation.find? kind key package default := by
  simp only [find?, inPackage?, first?, h]

theorem find?_eq_some :
    generation.find? kind key package default = some id ↔ generation.inPackage? kind key package = some id
      ∨ generation.inPackage? kind key package = none ∧ package = default ∧ generation.first? kind key = some id := by
  rw [find?]
  cases generation.inPackage? kind key package <;> simp

theorem find?_eq_none :
    generation.find? kind key package default = none ↔ generation.inPackage? kind key package = none
      ∧ (package = default → generation.first? kind key = none) := by
  rw [find?]
  cases generation.inPackage? kind key package <;> simp

theorem only?_eq_some :
    generation.only? kind key package = some id ↔
      ∃ e, generation.named kind key = [e] ∧ e.package = package ∧ e.id = id := by
  rw [only?]
  split
  case h_1 e he => simp [he]
  case h_2 hn =>
    simp only [reduceCtorEq, false_iff]
    rintro ⟨e, he, _⟩
    exact hn e he

theorem exists_entry_of_find? (h : generation.find? kind key package default = some id) :
    ∃ e ∈ generation.named kind key, e.id = id ∧ (package ≠ default → e.package = package) := by
  cases find?_eq_some.mp h
  case inl h =>
    have ⟨e, he, hi⟩ := Option.map_eq_some_iff.mp h
    exact ⟨e, List.mem_of_find?_eq_some he, hi, fun _ => by simpa using List.find?_some he⟩
  case inr h =>
    have ⟨e, he, hi⟩ := Option.map_eq_some_iff.mp h.right.right
    exact ⟨e, List.mem_of_head? he, hi, fun hp => absurd h.right.left hp⟩

theorem inPackage?_insert {package' : String} :
    (generation.insert kind key package' id).inPackage? kind key package
      = (generation.inPackage? kind key package).or (if package' = package then some id else none) := by
  simp only [inPackage?, named_insert, and_self, if_true, List.find?_append, Option.map_or, List.find?_cons]
  by_cases hp : package' = package
  case pos => simp [hp]
  case neg =>
    have hb : (package' == package) = false := beq_eq_false_iff_ne.mpr hp
    simp [hb, hp]

theorem first?_insert : (generation.insert kind key package id).first? kind key
    = (generation.first? kind key).or (some id) := by
  simp only [first?, named_insert, and_self, if_true, List.head?_append, Option.map_or]
  rfl

theorem find?_insert {package' : String} {id' : TypeId} (h : generation.find? kind key package default = some id)
    (hn : generation.find? kind' key' package' default = none) :
    (generation.insert kind' key' package' id').find? kind key package default = some id := by
  by_cases hk : kind' = kind ∧ key' = key
  case neg => exact (find?_congr (by simp [named_insert, hk])).trans h
  case pos =>
    obtain ⟨rfl, rfl⟩ := hk
    rw [find?_eq_some, inPackage?_insert, first?_insert]
    cases find?_eq_some.mp h
    case inl h => simp [h]
    case inr h =>
      have ⟨hp, hd, hf⟩ := h
      -- Otherwise the new type would be the first one.
      have hne : package' ≠ package := by
        rintro rfl
        have := (find?_eq_none.mp hn).right hd
        simp [this] at hf
      exact .inr ⟨by simp [hp, hne], hd, by simp [hf]⟩

theorem find?_insert_self (h : generation.find? kind key package default = none) :
    (generation.insert kind key package id).find? kind key package default = some id := by
  have ⟨hp, _⟩ := find?_eq_none.mp h
  exact find?_eq_some.mpr (.inl (by simp [inPackage?_insert, hp]))

theorem find?_relocate {package' : String} {id' : TypeId} (h : generation.find? kind key package default = some id)
    (ho : generation.only? kind' key' default = some id') (hp : package' ≠ default) :
    (generation.relocate kind' key' id' package').find? kind key package default = some id := by
  obtain ⟨e, he, rfl, rfl⟩ := only?_eq_some.mp ho
  by_cases hk : kind = kind' ∧ key = key'
  case neg => exact (find?_congr (named_relocate_of_ne hk)).trans h
  case pos =>
    obtain ⟨rfl, rfl⟩ := hk
    have ⟨_, hk, hy⟩ := mem_named.mp (he ▸ List.mem_singleton_self e)
    have hr : (generation.relocate kind key e.id package').named kind key = [{ e with package := package' }] := by
      simp [named_relocate, he, hk, hy]
    -- The type was found in the default package, because it was in no other one.
    have hd : package = e.package := by
      cases find?_eq_some.mp h
      case inr h => exact h.right.left
      case inl h =>
        have ⟨e', hf, _⟩ := Option.map_eq_some_iff.mp h
        rw [he] at hf
        have := List.find?_some hf
        have := List.mem_singleton.mp (List.mem_of_find?_eq_some hf)
        simp_all
    have ⟨e', he', hi, _⟩ := exists_entry_of_find? h
    rw [he, List.mem_singleton] at he'
    subst he' hd
    refine find?_eq_some.mpr (.inr ⟨?_, rfl, ?_⟩)
    case refine_1 => simpa [inPackage?, hr] using hp
    case refine_2 => simpa [first?, hr] using hi

theorem find?_relocate_self (h : generation.only? kind key default = some id) :
    (generation.relocate kind key id package).find? kind key package default = some id := by
  obtain ⟨e, he, rfl, rfl⟩ := only?_eq_some.mp h
  have ⟨_, hk, hy⟩ := mem_named.mp (he ▸ List.mem_singleton_self e)
  refine find?_eq_some.mpr (.inl ?_)
  simp [inPackage?, named_relocate, he, hk, hy]

theorem find?_remove {id' : TypeId} (h : generation.find? kind key package default = some id) (hn : id ≠ id')
    (hs : ∀ e ∈ generation.named kind' key', e.id = id' → generation.named kind' key' = [e]) :
    (generation.remove kind' key' id').find? kind key package default = some id := by
  refine (find?_congr ?_).trans h
  rw [named_remove, List.filter_eq_self]
  intro e he
  simp only [not_and, decide_eq_true_eq]
  rintro rfl rfl rfl
  have ⟨_, hk, hy⟩ := mem_named.mp he
  have ⟨e', he', hi, _⟩ := exists_entry_of_find? h
  rw [hk, hy] at hs
  rw [hs e he rfl, List.mem_singleton] at he'
  exact hn (he' ▸ hi.symm)

end PackageCoupling.Generation
