import Mathlib.Data.List.Basic
import NotebookSlice.Syntax.Lexer

/-! # Scanners

Names, numbers and marks end with their line at the latest, whatever follows the
line. A string may go on over several lines, but ends with a quote, so what follows it
does not matter either.
-/

namespace NotebookSlice.Syntax

open Text

/-- What the scanner leaves of a line does not depend on the lines below. -/
def LineLocal (f : List Char → Option (List Char)) : Prop :=
  ∀ w, '\n' ∉ w → ∃ r : Option (List Char), (∀ x ∈ r, x <:+ w) ∧
    ∀ m, f (w ++ '\n' :: m) = r.map (· ++ '\n' :: m)

namespace LineLocal

variable {f g : List Char → Option (List Char)}

theorem bind (hf : LineLocal f) (hg : LineLocal g) : LineLocal fun cs => (f cs).bind g := by
  intro w hw
  obtain ⟨r, hr, hfr⟩ := hf w hw
  cases r with
  | none => exact ⟨.none, by simp, fun m => by simp [hfr]⟩
  | some x =>
    have hx : x <:+ w := hr x rfl
    obtain ⟨r', hr', hgr⟩ := hg x fun h => hw (hx.subset h)
    exact ⟨r', fun y hy => (hr' y hy).trans hx, fun m => by simp [hfr, hgr]⟩

end LineLocal

namespace Number

theorem endsWord_append (w m : List Char) :
    endsWord (w ++ '\n' :: m) = endsWord (w ++ ['\n']) := by
  cases w <;> rfl

theorem isPrefixOf_append {word : List Char} (h : '\n' ∉ word) (w m : List Char) :
    word.isPrefixOf (w ++ '\n' :: m) = word.isPrefixOf w := by
  induction word generalizing w with
  | nil => simp
  | cons c cs ih =>
    obtain ⟨hc, hcs⟩ := not_or.mp (List.mem_cons.not.mp h)
    cases w with
    | nil =>
      rw [List.nil_append, List.isPrefixOf_cons_cons, beq_false_of_ne (Ne.symm hc)]
      rfl
    | cons d w => rw [List.cons_append, List.isPrefixOf_cons_cons, List.isPrefixOf_cons_cons, ih hcs]

theorem any_congr {α : Type} {p q : α → Bool} {xs : List α} (h : ∀ x ∈ xs, p x = q x) :
    xs.any p = xs.any q := by
  rw [Bool.eq_iff_iff, List.any_eq_true, List.any_eq_true]
  exact exists_congr fun x => and_congr_right fun hx => by rw [h x hx]

theorem endsBefore_append (w m : List Char) :
    endsBefore (w ++ '\n' :: m) = endsBefore (w ++ ['\n']) := by
  have hstarts : ∀ word ∈ startsBehind, '\n' ∉ word := by decide
  have hwords : ∀ word ∈ wordsBehind, '\n' ∉ word := by decide
  unfold endsBefore
  rw [endsWord_append]
  congr 1
  · congr 1
    refine any_congr fun word hword => ?_
    rw [isPrefixOf_append (hstarts word hword), isPrefixOf_append (hstarts word hword)]
  · refine any_congr fun word hword => ?_
    rw [isPrefixOf_append (hwords word hword), isPrefixOf_append (hwords word hword)]
    cases hletters : word.isPrefixOf w with
    | false => rfl
    | true =>
      have hlen := (List.isPrefixOf_iff_prefix.mp hletters).length_le
      rw [List.drop_append_of_le_length hlen, List.drop_append_of_le_length hlen, endsWord_append]

theorem close_local : LineLocal close := by
  intro w hw
  by_cases h : endsBefore (w ++ ['\n']) = true
  · refine ⟨some w, by simp, fun m => ?_⟩
    rw [close, endsBefore_append, if_pos h]
    rfl
  · refine ⟨none, by simp, fun m => ?_⟩
    rw [close, endsBefore_append, if_neg h]
    rfl

theorem startsWithDigit_append (w m : List Char) :
    startsWithDigit (w ++ '\n' :: m) = startsWithDigit w := by
  cases w <;> rfl

theorem afterDigits_local : LineLocal afterDigits := by
  intro w
  induction w with
  | nil => exact fun _ => ⟨some [], by simp, fun m => rfl⟩
  | cons c cs ih =>
    intro hw
    obtain ⟨r, hr, hcs⟩ := ih fun h => hw (List.mem_cons_of_mem _ h)
    have hr' : ∀ x ∈ r, x <:+ c :: cs := fun x hx => (hr x hx).trans (List.suffix_cons c cs)
    simp only [List.cons_append, afterDigits, startsWithDigit_append, hcs]
    split
    · exact ⟨r, hr', fun _ => rfl⟩
    · split
      · split
        · exact ⟨r, hr', fun _ => rfl⟩
        · exact ⟨none, by simp, fun _ => rfl⟩
      · exact ⟨some (c :: cs), by simp, fun _ => rfl⟩

theorem afterZeros_local : LineLocal afterZeros := by
  intro w
  induction w with
  | nil => exact fun _ => ⟨some [], by simp, fun m => rfl⟩
  | cons c cs ih =>
    intro hw
    obtain ⟨r, hr, hcs⟩ := ih fun h => hw (List.mem_cons_of_mem _ h)
    have hr' : ∀ x ∈ r, x <:+ c :: cs := fun x hx => (hr x hx).trans (List.suffix_cons c cs)
    by_cases hzero : c = '0'
    · subst hzero
      exact ⟨r, hr', hcs⟩
    · by_cases hunderscore : c = '_'
      · subst hunderscore
        simp only [List.cons_append, afterZeros, startsWithDigit_append, hcs]
        split
        · exact ⟨r, hr', fun _ => rfl⟩
        · exact ⟨none, by simp, fun _ => rfl⟩
      · refine ⟨some (c :: cs), by simp, fun m => ?_⟩
        rw [List.cons_append, afterZeros]
        · rfl
        · simpa using hzero
        · simpa using hunderscore

theorem afterBaseDigits_local (ok : Char → Bool) (hok : ok '\n' = false) (run : DigitRun) :
    LineLocal (afterBaseDigits ok run) := by
  intro w
  induction w generalizing run with
  | nil =>
    intro _
    cases run with
    | digits =>
      refine ⟨some [], by simp, fun m => ?_⟩
      simp [afterBaseDigits, hok, isAsciiDigit]
    | _ =>
      refine ⟨none, by simp, fun m => ?_⟩
      simp [afterBaseDigits, hok]
  | cons c cs ih =>
    intro hw
    have hcs (run : DigitRun) := ih run fun h => hw (List.mem_cons_of_mem _ h)
    have hr {r : Option (List Char)} (h : ∀ x ∈ r, x <:+ cs) : ∀ x ∈ r, x <:+ c :: cs :=
      fun x hx => (h x hx).trans (List.suffix_cons c cs)
    obtain ⟨r, hr₁, hdigits⟩ := hcs .digits
    obtain ⟨r', hr₂, hseparator⟩ := hcs .separator
    cases run <;> simp only [List.cons_append, afterBaseDigits, hdigits, hseparator]
    all_goals
      split
      · exact ⟨r, hr hr₁, fun _ => rfl⟩
    · split
      · exact ⟨r', hr hr₂, fun _ => rfl⟩
      · exact ⟨none, by simp, fun _ => rfl⟩
    · exact ⟨none, by simp, fun _ => rfl⟩
    · split
      · exact ⟨r', hr hr₂, fun _ => rfl⟩
      · split
        · exact ⟨none, by simp, fun _ => rfl⟩
        · exact ⟨some (c :: cs), by simp, fun _ => rfl⟩

theorem suffix_local : LineLocal suffix := by
  intro w hw
  cases w with
  | nil => exact close_local [] hw
  | cons c cs =>
    obtain ⟨r, hr, hcs⟩ := close_local cs fun h => hw (List.mem_cons_of_mem _ h)
    have hr' : ∀ x ∈ r, x <:+ c :: cs := fun x hx => (hr x hx).trans (List.suffix_cons c cs)
    by_cases hlower : c = 'j'
    · subst hlower
      exact ⟨r, hr', hcs⟩
    · by_cases hupper : c = 'J'
      · subst hupper
        exact ⟨r, hr', hcs⟩
      · obtain ⟨r, hr, hclose⟩ := close_local (c :: cs) hw
        refine ⟨r, hr, fun m => ?_⟩
        rw [← hclose, List.cons_append, suffix]
        · simpa using hlower
        · simpa using hupper

theorem exponent_local : LineLocal exponent := by
  intro w hw
  have hdigits := afterDigits_local.bind suffix_local
  cases w with
  | nil =>
    obtain ⟨r, hr, hsuffix⟩ := suffix_local [] hw
    exact ⟨r, hr, hsuffix⟩
  | cons e cs =>
    have hcs : '\n' ∉ cs := fun h => hw (List.mem_cons_of_mem _ h)
    obtain ⟨r₁, hr₁, hclose⟩ := close_local (e :: cs) hw
    obtain ⟨r₂, hr₂, hsuffix⟩ := suffix_local (e :: cs) hw
    cases hmark : e == 'e' || e == 'E' with
    | false =>
      refine ⟨r₂, hr₂, fun m => ?_⟩
      simp only [List.cons_append, exponent.eq_def, hmark, Bool.false_eq_true, if_false] at hsuffix ⊢
      exact hsuffix m
    | true =>
      cases cs with
      | nil =>
        refine ⟨r₁, hr₁, fun m => ?_⟩
        rw [← hclose, List.cons_append, exponent.eq_def]
        simp only [hmark, if_true]
        rfl
      | cons c r =>
        obtain ⟨r₃, hr₃, hwhole⟩ := hdigits (c :: r) hcs
        obtain ⟨r₄, hr₄, hrest⟩ := hdigits r fun h => hcs (List.mem_cons_of_mem _ h)
        simp only [List.cons_append] at hwhole hclose
        simp only [List.cons_append, exponent, hmark, if_true, startsWithDigit_append, hwhole, hrest,
          hclose]
        split
        · split
          · exact ⟨r₄, fun x hx => (hr₄ x hx).trans ⟨[e, c], rfl⟩, fun _ => rfl⟩
          · exact ⟨none, by simp, fun _ => rfl⟩
        · split
          · exact ⟨r₃, fun x hx => (hr₃ x hx).trans ⟨[e], rfl⟩, fun _ => rfl⟩
          · exact ⟨r₁, hr₁, fun _ => rfl⟩

theorem fraction_local : LineLocal fraction := by
  intro w hw
  obtain ⟨r, hr, hdigits⟩ := afterDigits_local.bind exponent_local w hw
  obtain ⟨r', hr', hexponent⟩ := exponent_local w hw
  simp only [fraction, startsWithDigit_append]
  split
  · exact ⟨r, hr, hdigits⟩
  · exact ⟨r', hr', hexponent⟩

/-- What may follow the digits after a leading zero: a point, an exponent or the mark of an
imaginary number, and an end if all digits are zeros. -/
theorem afterZeroDigits_local (nonzero : Bool) : LineLocal fun rest =>
    match rest with
    | '.' :: r => fraction r
    | 'e' :: _ | 'E' :: _ => exponent rest
    | 'j' :: _ | 'J' :: _ => suffix rest
    | _ => if nonzero then none else close rest := by
  intro w hw
  have hend : ∃ r : Option (List Char), (∀ x ∈ r, x <:+ w) ∧
      ∀ m, (if nonzero then none else close (w ++ '\n' :: m)) = r.map (· ++ '\n' :: m) := by
    cases nonzero with
    | true => exact ⟨none, by simp, fun _ => rfl⟩
    | false => exact close_local w hw
  cases w with
  | nil => exact hend
  | cons c cs =>
    obtain ⟨r, hr, hfraction⟩ := fraction_local cs fun h => hw (List.mem_cons_of_mem _ h)
    by_cases hpoint : c = '.'
    · subst hpoint
      exact ⟨r, fun x hx => (hr x hx).trans (List.suffix_cons _ _), hfraction⟩
    by_cases hexponent : c = 'e' ∨ c = 'E'
    · rcases hexponent with rfl | rfl
      · exact exponent_local _ hw
      · exact exponent_local _ hw
    by_cases hsuffix : c = 'j' ∨ c = 'J'
    · rcases hsuffix with rfl | rfl
      · exact suffix_local _ hw
      · exact suffix_local _ hw
    · obtain ⟨r, hr, hclose⟩ := hend
      refine ⟨r, hr, fun m => ?_⟩
      rw [← hclose]
      simp only [not_or] at hexponent hsuffix
      simp_all

theorem afterLeadingZero_local : LineLocal afterLeadingZero := by
  unfold afterLeadingZero
  refine LineLocal.bind afterZeros_local fun w hw => ?_
  simp only [startsWithDigit_append]
  split
  · exact LineLocal.bind afterDigits_local (afterZeroDigits_local true) w hw
  · exact afterZeroDigits_local false w hw

theorem afterWhole_local : LineLocal fun rest =>
    match rest with
    | '.' :: r => fraction r
    | r => exponent r := by
  intro w hw
  cases w with
  | nil => exact exponent_local [] hw
  | cons c cs =>
    by_cases hpoint : c = '.'
    · subst hpoint
      obtain ⟨r, hr, hfraction⟩ := fraction_local cs fun h => hw (List.mem_cons_of_mem _ h)
      exact ⟨r, fun x hx => (hr x hx).trans (List.suffix_cons _ _), hfraction⟩
    · obtain ⟨r, hr, hexponent⟩ := exponent_local (c :: cs) hw
      refine ⟨r, hr, fun m => ?_⟩
      rw [← hexponent]
      simp_all

theorem rest?_local {c : Char} {cs : List Char} (hstart : isAsciiDigit c = true ∨ c = '.')
    (hcs : '\n' ∉ cs) : ∃ r : Option (List Char), (∀ x ∈ r, x <:+ cs) ∧
      ∀ m, rest? (c :: cs ++ '\n' :: m) = r.map (· ++ '\n' :: m) := by
  by_cases hpoint : c = '.'
  · subst hpoint
    exact fraction_local cs hcs
  have hdigit := hstart.resolve_right hpoint
  by_cases hzero : c = '0'
  · subst hzero
    cases cs with
    | nil => exact afterLeadingZero_local [] hcs
    | cons d ds =>
      have hds : '\n' ∉ ds := fun h => hcs (List.mem_cons_of_mem _ h)
      have hbase (ok : Char → Bool) (hok : ok '\n' = false) :
          ∃ r : Option (List Char), (∀ x ∈ r, x <:+ d :: ds) ∧ ∀ m,
            (afterBaseDigits ok .start (ds ++ '\n' :: m)).bind close = r.map (· ++ '\n' :: m) := by
        obtain ⟨r, hr, hds⟩ := (afterBaseDigits_local ok hok .start).bind close_local ds hds
        exact ⟨r, fun x hx => (hr x hx).trans (List.suffix_cons _ _), hds⟩
      by_cases hx : d = 'x' ∨ d = 'X'
      · rcases hx with rfl | rfl <;> exact hbase _ (by decide)
      by_cases ho : d = 'o' ∨ d = 'O'
      · rcases ho with rfl | rfl <;> exact hbase _ (by decide)
      by_cases hb : d = 'b' ∨ d = 'B'
      · rcases hb with rfl | rfl <;> exact hbase _ (by decide)
      · obtain ⟨r, hr, hrest⟩ := afterLeadingZero_local (d :: ds) hcs
        refine ⟨r, hr, fun m => ?_⟩
        rw [← hrest]
        simp only [not_or] at hx ho hb
        simp_all [rest?]
  · obtain ⟨r, hr, hrest⟩ := afterDigits_local.bind afterWhole_local cs hcs
    refine ⟨r, hr, fun m => Eq.trans ?_ (hrest m)⟩
    have hdigits : afterDigits (c :: (cs ++ '\n' :: m)) = afterDigits (cs ++ '\n' :: m) := by
      rw [afterDigits, if_pos hdigit]
    beta_reduce
    rw [← hdigits, List.cons_append]
    unfold rest?
    split <;> first | rfl | simp_all

end Number

namespace Lexer

/-! ## Strings -/

/-- A string ends with its quote, and what follows does not matter. -/
def Closes (q : Char) (f : List Char → Option (List Char)) (cs r : List Char) : Prop :=
  ∃ u, cs = u ++ q :: r ∧ ∀ r', f (u ++ q :: r') = some r'

theorem closes_closeQuote {q : Char} (hquote : isQuote q = true) {cs r : List Char}
    (h : closeQuote q cs = some r) : Closes q (closeQuote q) cs r := by
  fun_induction closeQuote q cs with
  | case1 => cases h
  | case2 => cases h
  | case3 c cs ih =>
    obtain ⟨u, rfl, hu⟩ := ih h
    exact ⟨'\\' :: c :: u, rfl, hu⟩
  | case4 c cs hnewline hescape hq =>
    obtain rfl : c = q := by simpa using hq
    cases h
    refine ⟨[], rfl, fun r' => ?_⟩
    have hbackslash : c ≠ '\\' := by rintro rfl; revert hquote; decide
    rw [List.nil_append, closeQuote]
    · simp
    · exact hnewline
    · exact fun _ _ h => absurd h hbackslash
  | case5 c cs hnewline hescape hq ih =>
    obtain ⟨u, rfl, hu⟩ := ih h
    refine ⟨c :: u, rfl, fun r' => ?_⟩
    have hbackslash : c ≠ '\\' := by
      rintro rfl
      cases u <;> exact hescape _ _ rfl rfl
    rw [List.cons_append, closeQuote, if_neg hq]
    · exact hu r'
    · exact hnewline
    · exact fun _ _ h => absurd h hbackslash

theorem closes_closeTriple {q : Char} (hquote : isQuote q = true) {n : Nat} {cs r : List Char}
    (h : closeTriple q n cs = some r) : Closes q (closeTriple q n) cs r := by
  fun_induction closeTriple q n cs with
  | case1 => cases h
  | case2 n c cs ih =>
    obtain ⟨u, rfl, hu⟩ := ih h
    exact ⟨'\\' :: c :: u, rfl, hu⟩
  | case3 c cs hescape hq =>
    obtain rfl : c = q := by simpa using hq
    cases h
    refine ⟨[], rfl, fun r' => ?_⟩
    have hbackslash : c ≠ '\\' := by rintro rfl; revert hquote; decide
    rw [List.nil_append, closeTriple]
    · simp
    · exact fun _ _ h => absurd h hbackslash
  | case4 n c cs hescape hq hn ih =>
    obtain ⟨u, rfl, hu⟩ := ih h
    refine ⟨c :: u, rfl, fun r' => ?_⟩
    have hbackslash : c ≠ '\\' := by
      rintro rfl
      cases u <;> exact hescape _ _ rfl rfl
    rw [List.cons_append, closeTriple, if_pos hq, if_neg hn]
    · exact hu r'
    · exact fun _ _ h => absurd h hbackslash
  | case5 n c cs hescape hq ih =>
    obtain ⟨u, rfl, hu⟩ := ih h
    refine ⟨c :: u, rfl, fun r' => ?_⟩
    have hbackslash : c ≠ '\\' := by
      rintro rfl
      cases u <;> exact hescape _ _ rfl rfl
    rw [List.cons_append, closeTriple, if_neg hq]
    · exact hu r'
    · exact fun _ _ h => absurd h hbackslash

/-- A string in a text that ends with a line feed ends before it. Of what follows only the first
character matters. -/
theorem closes_afterString {q : Char} (hquote : isQuote q = true) {cs r : List Char}
    (hend : cs.getLast? = some '\n') (h : afterString (q :: cs) = some r) :
    ∃ u, cs = u ++ q :: r ∧
      ∀ r', r'.head? = r.head? → afterString (q :: (u ++ q :: r')) = some r' := by
  match cs with
  | [] => cases hend
  | [c] =>
    obtain rfl : c = '\n' := by simpa using hend
    have hne : ('\n' == q) = false := by
      rw [beq_eq_false_iff_ne]
      rintro rfl
      revert hquote
      decide
    simp [afterString, closeQuote, hne] at h
  | b :: c :: cs =>
    simp only [afterString] at h
    split at h
    · rename_i hthree
      obtain ⟨u, rfl, hu⟩ := closes_closeTriple hquote h
      refine ⟨b :: c :: u, rfl, fun r' _ => ?_⟩
      simp only [List.cons_append, afterString, if_pos hthree]
      exact hu r'
    · rename_i hthree
      split at h
      · rename_i htwo
        cases h
        obtain rfl : q = b := by simpa using htwo
        refine ⟨[], rfl, fun r' hr' => ?_⟩
        obtain ⟨r', rfl⟩ := List.head?_eq_some_iff.mp (hr'.trans List.head?_cons)
        simp only [List.nil_append, afterString, if_neg hthree, if_pos htwo]
      · rename_i htwo
        obtain ⟨u, hu, hclose⟩ := closes_closeQuote hquote h
        have hb : b ≠ q := fun hb => htwo (by simp [hb])
        obtain ⟨u, rfl⟩ : ∃ v, u = b :: v := by
          cases u with
          | nil => exact absurd (List.cons.inj hu).1 hb
          | cons b' v => exact ⟨v, by rw [(List.cons.inj hu).1]⟩
        refine ⟨b :: u, hu, fun r' _ => ?_⟩
        have hmore := hclose r'
        have hquoted : (q == b) = false := by simpa using htwo
        rw [List.cons_append] at hmore ⊢
        cases hrest : u ++ q :: r' with
        | nil => simp at hrest
        | cons d ds =>
          rw [hrest] at hmore
          simp only [afterString, hquoted, Bool.false_and, Bool.false_eq_true, if_false]
          exact hmore

theorem add_newline (p : Prefix) : p.add '\n' = none := by
  simp [Prefix.add]

theorem afterPrefix_local (p : Prefix) : LineLocal (afterPrefix p) := by
  intro w
  induction w generalizing p with
  | nil => exact fun _ => ⟨none, by simp, fun m => by simp [afterPrefix, add_newline]⟩
  | cons c cs ih =>
    intro hw
    have hcs : '\n' ∉ cs := fun h => hw (List.mem_cons_of_mem _ h)
    simp only [List.cons_append, afterPrefix]
    cases hadd : p.add c with
    | none => exact ⟨none, by simp, fun _ => rfl⟩
    | some p' =>
      obtain ⟨r, hr, hrest⟩ := ih p' hcs
      cases cs with
      | nil => exact ⟨none, by simp, fun m => by simp [afterPrefix, add_newline, isQuote]⟩
      | cons d ds =>
        simp only [List.cons_append] at hrest ⊢
        split
        · exact ⟨some (d :: ds), by simp, fun _ => rfl⟩
        · exact ⟨r, fun x hx => (hr x hx).trans (List.suffix_cons _ _), hrest⟩

theorem exists_of_afterPrefix {p : Prefix} {cs quoted : List Char}
    (h : afterPrefix p cs = some quoted) : ∃ u q more,
      u ≠ [] ∧ cs = u ++ quoted ∧ quoted = q :: more ∧ isQuote q = true := by
  induction cs generalizing p with
  | nil => cases h
  | cons c cs ih =>
    rw [afterPrefix] at h
    cases hadd : p.add c with
    | none => rw [hadd] at h; cases h
    | some p' =>
      rw [hadd] at h
      cases cs with
      | nil => cases h
      | cons d ds =>
        simp only at h
        split at h
        · cases h
          exact ⟨[c], d, ds, List.cons_ne_nil _ _, rfl, rfl, ‹_›⟩
        · obtain ⟨u, q, more, hne, hcs, hquoted⟩ := ih h
          exact ⟨c :: u, q, more, List.cons_ne_nil _ _, by rw [hcs]; rfl, hquoted⟩

end Lexer

end NotebookSlice.Syntax
