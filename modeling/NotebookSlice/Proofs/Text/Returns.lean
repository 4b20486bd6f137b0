import Mathlib.Data.List.Chain
import NotebookSlice.Proofs.Text.Lines

/-! # Carriage returns

Where carriage returns do no more than end lines, a text has the same lines
without them, up to these returns.
-/

namespace NotebookSlice.Text

variable {ls : List String}

/-- Each carriage return is followed by a line feed, or ends the text. -/
def ReturnsEndLines (cs : List Char) : Prop := cs.IsChain fun c d => c = '\r' → d = '\n'

instance (cs : List Char) : Decidable (ReturnsEndLines cs) :=
  inferInstanceAs (Decidable (cs.IsChain fun c d => c = '\r' → d = '\n'))

def unreturned (s : String) : String := String.ofList (s.toList.filter (· != '\r'))

@[simp] theorem toList_unreturned (s : String) :
    (unreturned s).toList = s.toList.filter (· != '\r') := String.toList_ofList

/-- The lines that a backslash joins: a line that ends in one, and the next line. -/
def Joined (ls : List String) (n : ℕ) : Prop :=
  ∃ k l, ls[k]? = some l ∧ (unreturned l).toList.getLast? = some '\\' ∧ (n = k + 1 ∨ n = k + 2)

/-- What a backslash joins in a part of whole lines it joins in the lines. -/
theorem Joined.of_part {part : List String} {k m : ℕ} (h : Joined part (m + 1))
    (hpart : part <+: ls.drop k) : Joined ls (k + m + 1) := by
  obtain ⟨j, l, hl, hlast, hm⟩ := h
  obtain ⟨hlt, heq⟩ := List.getElem?_eq_some_iff.mp hl
  refine ⟨k + j, l, ?_, hlast, by omega⟩
  rw [← List.getElem?_drop, List.prefix_iff_getElem?.mp hpart j hlt, heq]

theorem forall_joined_iff {p : ℕ → Prop} : (∀ n, Joined ls n → p n) ↔
    ∀ k ∈ List.range ls.length, (ls[k]?.map unreturned).bind (·.toList.getLast?) = some '\\' →
      p (k + 1) ∧ p (k + 2) := by
  constructor
  · intro h k hk hlast
    obtain ⟨_, hmap, hlast⟩ := Option.bind_eq_some_iff.mp hlast
    obtain ⟨l, hl, rfl⟩ := Option.map_eq_some_iff.mp hmap
    exact ⟨h _ ⟨k, l, hl, hlast, .inl rfl⟩, h _ ⟨k, l, hl, hlast, .inr rfl⟩⟩
  · rintro h n ⟨k, l, hl, hlast, hn⟩
    obtain ⟨hlt, -⟩ := List.getElem?_eq_some_iff.mp hl
    obtain ⟨hfirst, hsecond⟩ := h k (List.mem_range.mpr hlt) (by rw [hl]; exact hlast)
    rcases hn with rfl | rfl
    · exact hfirst
    · exact hsecond

theorem splitAt_filter {p : Char → Bool} (hp : p '\n' = true) (cs : List Char) :
    splitAt '\n' (cs.filter p) = (splitAt '\n' cs).map (List.filter p) := by
  induction cs with
  | nil => rfl
  | cons c cs ih =>
    obtain ⟨piece, pieces, hsplit⟩ := List.exists_cons_of_ne_nil (splitAt_ne_nil '\n' cs)
    by_cases hc : c = '\n'
    · rw [hc, List.filter_cons_of_pos hp, splitAt, splitAt, if_pos rfl, if_pos rfl, ih]
      rfl
    · rw [splitAt, if_neg hc, hsplit]
      rw [hsplit, List.map_cons] at ih
      cases hpc : p c with
      | true =>
        rw [List.filter_cons_of_pos hpc, splitAt, if_neg hc, ih]
        simp [hpc]
      | false =>
        rw [List.filter_cons_of_neg (by simp [hpc]), ih]
        simp [hpc]

theorem lines_unreturned (s : String) : lines (unreturned s) = (lines s).map unreturned := by
  rw [lines, splitLines, toList_unreturned, splitAt_filter (by decide), lines, splitLines]
  simp [unreturned, Function.comp_def]

theorem unreturned_unlines (h : ∀ l ∈ ls, '\n' ∉ l.toList) :
    unreturned (unlines ls) = unlines (ls.map unreturned) := by
  rcases eq_or_ne ls [] with rfl | hne
  · rfl
  · rw [← unlines_lines (unreturned (unlines ls)), lines_unreturned, lines_unlines hne h]

theorem exists_returns {cs : List Char} (h : ReturnsEndLines cs) (hcs : '\n' ∉ cs) :
    ∃ rs, cs = cs.filter (· != '\r') ++ rs ∧ ∀ c ∈ rs, c = '\r' := by
  induction cs with
  | nil => exact ⟨[], rfl, List.forall_mem_nil _⟩
  | cons c cs ih =>
    rw [ReturnsEndLines, List.isChain_cons] at h
    by_cases hc : c = '\r'
    · cases cs with
      | nil => exact ⟨[c], by simp [hc], by simp [hc]⟩
      | cons d cs => exact absurd (h.1 d rfl hc) fun hd => hcs (by simp [hd])
    · obtain ⟨rs, hrs, hall⟩ := ih h.2 fun hmem => hcs (List.mem_cons_of_mem c hmem)
      refine ⟨rs, ?_, hall⟩
      rw [List.filter_cons_of_pos (by simpa using hc), List.cons_append, ← hrs]

end NotebookSlice.Text
