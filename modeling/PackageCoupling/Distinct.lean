namespace PackageCoupling.Distinct

variable {α : Type} [DecidableEq α]

def add (as : List α) (a : α) : List α :=
  if a ∈ as then as else as ++ [a]

def remove (as : List α) (a : α) : List α :=
  as.filter (· ≠ a)

-- Puts `new` in the place of `old`, or only takes `old` out if `new` is there already.
def substitute (old new : α) (as : List α) : List α :=
  if new ∈ as then as.erase old else as.replace old new

variable {as : List α} {a b : α}

@[simp]
theorem mem_add : b ∈ add as a ↔ b ∈ as ∨ b = a := by
  rw [add]
  split
  case isTrue h => exact ⟨.inl, (·.elim id (· ▸ h))⟩
  case isFalse  => simp

@[simp]
theorem mem_remove : b ∈ remove as a ↔ b ∈ as ∧ b ≠ a := by
  simp [remove]

theorem nodup_add (h : as.Nodup) : (add as a).Nodup := by
  rw [add]
  split
  case isTrue  => exact h
  case isFalse => grind

theorem nodup_remove (h : as.Nodup) : (remove as a).Nodup :=
  h.filter _

end PackageCoupling.Distinct
