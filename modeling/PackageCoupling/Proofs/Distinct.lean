import Mathlib.Data.List.Nodup
import PackageCoupling.Distinct

namespace PackageCoupling.Distinct

variable {α : Type} [DecidableEq α] {as bs : List α} {a old new : α}

theorem mem_replace (hd : as.Nodup) (hn : new ∉ as) :
    a ∈ as.replace old new ↔ (a ∈ as ∧ a ≠ old) ∨ (old ∈ as ∧ a = new) := by
  induction as
  case nil          => simp
  case cons b bs hi =>
    have ⟨hb, hd⟩ := List.nodup_cons.mp hd
    simp only [List.mem_cons, not_or] at hn
    have hi := hi hd hn.right
    by_cases he : old = b
    case pos =>
      subst he
      simp only [List.replace_cons_self, List.mem_cons]
      grind
    case neg =>
      rw [List.replace_cons]
      simp only [beq_eq_false_iff_ne.mpr he, List.mem_cons, hi]
      grind

-- Substitution acts on the members as on a set, unless a member takes its own place.
theorem mem_substitute (hd : as.Nodup) (hn : old ≠ new) :
    a ∈ substitute old new as ↔ (a ∈ as ∧ a ≠ old) ∨ (old ∈ as ∧ a = new) := by
  rw [substitute]
  split
  case isTrue hm =>
    rw [hd.mem_erase_iff]
    grind
  case isFalse hm => exact mem_replace hd hm

theorem mem_of_mem_replace (h : a ∈ as.replace old new) : a ∈ as ∨ a = new := by
  induction as
  case nil          => simp at h
  case cons b bs hi => grind

theorem mem_of_mem_substitute (h : a ∈ substitute old new as) : a ∈ as ∨ a = new := by
  rw [substitute] at h
  split at h
  case isTrue  => exact .inl (List.mem_of_mem_erase h)
  case isFalse => exact mem_of_mem_replace h

theorem nodup_replace (hd : as.Nodup) (hn : new ∉ as) : (as.replace old new).Nodup := by
  induction as
  case nil          => simp
  case cons b bs hi =>
    have ⟨hb, hd⟩ := List.nodup_cons.mp hd
    simp only [List.mem_cons, not_or] at hn
    have ⟨hne, hn⟩ := hn
    by_cases he : old = b
    case pos => simp [he, hn, hd]
    case neg =>
      rw [List.replace_cons, beq_eq_false_iff_ne.mpr he]
      refine List.nodup_cons.mpr ⟨?_, hi hd hn⟩
      rw [mem_replace hd hn]
      grind

theorem nodup_substitute (hd : as.Nodup) : (substitute old new as).Nodup := by
  rw [substitute]
  split
  case isTrue     => exact hd.erase old
  case isFalse hn => exact nodup_replace hd hn

-- A member that takes its own place is there already, and so it is only taken out.
theorem substitute_self (h : as.Nodup) : substitute a a as = remove as a := by
  have hr : as.erase a = remove as a := by
    rw [h.erase_eq_filter, remove]
    exact List.filter_congr fun b _ => by simp [bne, beq_eq_decide]
  rw [substitute]
  split
  case isTrue     => exact hr
  case isFalse hn => rw [← hr, List.replace_of_not_mem hn, List.erase_of_not_mem hn]

theorem foldl_add (h : (as ++ bs).Nodup) : bs.foldl add as = as ++ bs := by
  induction bs generalizing as
  case nil          => simp
  case cons b bs hi =>
    have hb : b ∉ as := by
      have := (List.nodup_append.mp h).right.right
      grind
    rw [List.foldl_cons, add, if_neg hb, hi (by simpa using h)]
    simp

end PackageCoupling.Distinct
