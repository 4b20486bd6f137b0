import Mathlib.Data.Nat.Notation
import NotebookSlice.Syntax.Lexer

/-! # Where decorators stand

The mark of a decorator begins a line. The expression after it may go on in
parentheses, which need not begin on the line of the mark.
-/

namespace NotebookSlice.Syntax

/-- The tokens up to the first one that opens no parenthesis stand on the line. -/
def startsOn (line : ℕ) : List Token → Bool
  | [] => true
  | t :: ts => t.line == line && (t.kind != .punct .lpar || startsOn line ts)

/-- Every decorator begins on the line of its mark. A mark belongs to a decorator where a line
of code is `fresh`. -/
def decoratorsInLine : (fresh : Bool) → List Token → Bool
  | _, [] => true
  | fresh, t :: ts =>
    (!(fresh && t.kind == .punct .at) || startsOn t.line ts) && decoratorsInLine t.isLayout ts

variable {ts : List Token} {fresh : Bool} {i k line : ℕ} {t u : Token}

theorem line_of_startsOn (h : startsOn line ts = true) (hu : ts[k]? = some u)
    (hpars : ∀ j v, j < k → ts[j]? = some v → v.kind = .punct .lpar) : u.line = line := by
  induction ts generalizing k with
  | nil => cases hu
  | cons t ts ih =>
    simp only [startsOn, Bool.and_eq_true, beq_iff_eq] at h
    obtain ⟨hline, hmore⟩ := h
    cases k with
    | zero => rwa [← Option.some.inj hu]
    | succ k =>
      have hkind := hpars 0 t (Nat.succ_pos k) rfl
      rw [hkind] at hmore
      exact ih (by simpa using hmore) hu fun j v hj hv => hpars (j + 1) v (Nat.succ_lt_succ hj) hv

/-- What comes after the mark of a decorator, up to parentheses, stands on its line. -/
theorem line_of_decoratorsInLine (h : decoratorsInLine fresh ts = true) (ht : ts[i]? = some t)
    (hkind : t.kind = .punct .at) (hfirst : i = 0 → fresh = true)
    (hbefore : ∀ v, 0 < i → ts[i - 1]? = some v → v.isLayout = true) (hlt : i < k)
    (hu : ts[k]? = some u)
    (hpars : ∀ j v, i < j → j < k → ts[j]? = some v → v.kind = .punct .lpar) :
    u.line = t.line := by
  induction ts generalizing i k fresh with
  | nil => cases ht
  | cons v ts ih =>
    simp only [decoratorsInLine, Bool.and_eq_true] at h
    obtain ⟨hhere, hmore⟩ := h
    obtain ⟨k, rfl⟩ := Nat.exists_eq_add_one_of_ne_zero (Nat.ne_zero_of_lt hlt)
    cases i with
    | zero =>
      obtain rfl := Option.some.inj ht
      have hstarts : startsOn v.line ts = true := by simpa [hfirst rfl, hkind] using hhere
      exact line_of_startsOn hstarts hu fun j w hj hw =>
        hpars (j + 1) w (Nat.succ_pos j) (Nat.succ_lt_succ hj) hw
    | succ i =>
      refine ih hmore ht ?_ (fun w hpos hw => hbefore w (Nat.succ_pos i) ?_)
        (Nat.lt_of_succ_lt_succ hlt) hu fun j w hij hjk hw =>
          hpars (j + 1) w (Nat.succ_lt_succ hij) (Nat.succ_lt_succ hjk) hw
      · rintro rfl
        exact hbefore v (Nat.succ_pos 0) rfl
      · obtain ⟨i, rfl⟩ := Nat.exists_eq_add_one_of_ne_zero (Nat.ne_zero_of_lt hpos)
        exact hw

end NotebookSlice.Syntax
