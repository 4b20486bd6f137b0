import Mathlib

/-! # Texts with a number after a colon

A number is written without a colon. So the number after the last colon of a text
can be read back, and the text before it as well.
-/

namespace NotebookSlice

theorem colon_notMem_toString (n : ℤ) : ':' ∉ (toString n).toList := by
  intro h
  have hdigits (m : ℕ) : ':' ∉ (Nat.repr m).toList := by
    rw [Nat.repr_eq_ofList_toDigits, String.toList_ofList]
    intro hmem
    have := Nat.isDigit_of_mem_toDigits (by decide) (by decide) hmem
    revert this
    decide
  rw [Int.toString_eq_repr, Int.repr_eq_if] at h
  split at h
  · exact hdigits _ h
  · rw [String.toList_append, List.mem_append] at h
    rcases h with h | h
    · revert h
      decide
    · exact hdigits _ h

theorem eq_of_append_colon {as bs us vs : List Char} (h : as ++ ':' :: us = bs ++ ':' :: vs)
    (hus : ':' ∉ us) (hvs : ':' ∉ vs) : us = vs := by
  rcases List.append_eq_append_iff.mp h with ⟨cs, -, hcs⟩ | ⟨cs, -, hcs⟩
  · cases cs with
    | nil => exact (List.cons.inj hcs).2
    | cons c cs =>
      refine absurd ?_ hus
      rw [(List.cons.inj hcs).2]
      simp
  · cases cs with
    | nil => exact (List.cons.inj hcs).2.symm
    | cons c cs =>
      refine absurd ?_ hvs
      rw [(List.cons.inj hcs).2]
      simp

/-- A text and the number after it are known from the two with a colon between. -/
theorem colon_toString_inj {a b : String} {m n : ℤ} :
    a ++ ":" ++ toString m = b ++ ":" ++ toString n ↔ a = b ∧ m = n := by
  constructor
  · intro h
    have hlist : a.toList ++ ':' :: (toString m).toList =
        b.toList ++ ':' :: (toString n).toList := by
      simpa using congrArg String.toList h
    have hnumber := eq_of_append_colon hlist (colon_notMem_toString m) (colon_notMem_toString n)
    rw [hnumber, List.append_cancel_right_eq, String.toList_inj] at hlist
    exact ⟨hlist, Int.repr_inj.mp (String.toList_inj.mp hnumber)⟩
  · rintro ⟨rfl, rfl⟩
    rfl

end NotebookSlice
