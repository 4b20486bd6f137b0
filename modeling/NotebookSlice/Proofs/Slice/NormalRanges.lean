import NotebookSlice.Proofs.Slice.LineRange

/-! # The normal form of ranges is unique

Normal ranges are in order, none is empty, and between each two of them is a line
that they do not cover. There is one such list for the lines it covers.
-/

namespace NotebookSlice.LineRange

def Covers (rs : List LineRange) (n : ℤ) : Prop := ∃ r ∈ rs, n ∈ r.lines

/-- Ranges in order, none of them empty and no two of them touching. -/
structure IsNormal (rs : List LineRange) : Prop where
  nonempty : ∀ r ∈ rs, r.first ≤ r.last
  apart : rs.Pairwise fun a b => a.last + 1 < b.first

variable {a b : LineRange} {as bs rs : List LineRange} {n : ℤ}

theorem covers_cons : Covers (a :: as) n ↔ (a.first ≤ n ∧ n ≤ a.last) ∨ Covers as n := by
  simp [Covers]

theorem covers_first (ha : a.first ≤ a.last) (h : a ∈ as) : Covers as a.first :=
  ⟨a, h, mem_lines.mpr ⟨Int.le_refl _, ha⟩⟩

namespace IsNormal

theorem lt_of_covers (h : IsNormal (a :: as)) (hn : Covers as n) : a.last + 1 < n := by
  obtain ⟨r, hr, hn⟩ := hn
  have := List.rel_of_pairwise_cons h.apart hr
  have := (mem_lines.mp hn).1
  omega

theorem tail (h : IsNormal (a :: as)) : IsNormal as :=
  ⟨fun r hr => h.nonempty r (List.mem_cons_of_mem _ hr), h.apart.of_cons⟩

theorem head (h : IsNormal (a :: as)) : a.first ≤ a.last := h.nonempty a List.mem_cons_self

theorem covers_tail (h : IsNormal (a :: as)) :
    Covers as n ↔ Covers (a :: as) n ∧ a.last < n := by
  rw [covers_cons]
  constructor
  · intro hn
    have := h.lt_of_covers hn
    exact ⟨Or.inr hn, by omega⟩
  · rintro ⟨⟨_, _⟩ | hn, _⟩
    · omega
    · exact hn

/-- Lists that cover the same lines start with the same line, and do so until the same line. -/
theorem head_le_of_covers (h : IsNormal (a :: as)) (h' : IsNormal (b :: bs))
    (hcovers : ∀ n, Covers (a :: as) n → Covers (b :: bs) n) :
    b.first ≤ a.first ∧ (a.first = b.first → a.last ≤ b.last) := by
  have hfirst (n : ℤ) (hn : a.first ≤ n ∧ n ≤ a.last) : (b.first ≤ n ∧ n ≤ b.last) ∨
      b.last + 1 < n :=
    (covers_cons.mp (hcovers n (covers_cons.mpr (Or.inl hn)))).imp_right h'.lt_of_covers
  have ha := h.head
  have hb := h'.head
  constructor
  · have := hfirst a.first ⟨by omega, ha⟩
    omega
  · intro heq
    by_contra hlt
    have := hfirst (b.last + 1) ⟨by omega, by omega⟩
    omega

theorem eq_of_covers (h : IsNormal as) (h' : IsNormal bs)
    (hcovers : ∀ n, Covers as n ↔ Covers bs n) : as = bs := by
  induction as generalizing bs with
  | nil =>
    cases bs with
    | nil => rfl
    | cons b bs => simpa [Covers] using (hcovers _).mpr (covers_first h'.head List.mem_cons_self)
  | cons a as ih =>
    cases bs with
    | nil => simpa [Covers] using (hcovers _).mp (covers_first h.head List.mem_cons_self)
    | cons b bs =>
      obtain ⟨hba, hlast⟩ := h.head_le_of_covers h' fun n => (hcovers n).mp
      obtain ⟨hab, hlast'⟩ := h'.head_le_of_covers h fun n => (hcovers n).mpr
      have hfirst : a.first = b.first := Int.le_antisymm hab hba
      have heq : a.last = b.last := Int.le_antisymm (hlast hfirst) (hlast' hfirst.symm)
      have htail : as = bs := ih h.tail h'.tail fun n => by
        rw [h.covers_tail, h'.covers_tail, hcovers, heq]
      rw [htail, show a = b by cases a; cases b; simp_all]

end IsNormal

/-- The ranges that are joined keep their order and no two of them touch. -/
theorem isNormal_fuse {current : LineRange} (hcurrent : current.first ≤ current.last)
    (hnonempty : ∀ r ∈ rs, r.first ≤ r.last) (hfirst : ∀ r ∈ rs, current.first ≤ r.first)
    (hsorted : rs.Pairwise fun a b => a.first ≤ b.first) :
    IsNormal (fuse current rs) ∧ ∀ r ∈ fuse current rs, current.first ≤ r.first := by
  induction rs generalizing current with
  | nil =>
    simp only [fuse, List.mem_singleton, forall_eq, Int.le_refl, and_true]
    exact ⟨by simpa using hcurrent, List.pairwise_singleton ..⟩
  | cons r rs ih =>
    obtain ⟨hr, hrs⟩ := List.pairwise_cons.mp hsorted
    obtain ⟨hrne, hne⟩ := List.forall_mem_cons.mp hnonempty
    obtain ⟨hle, hrest⟩ := List.forall_mem_cons.mp hfirst
    rw [fuse]
    split
    · exact @ih ⟨current.first, max current.last r.last⟩ (by simp only; omega) hne hrest hrs
    · rename_i hgap
      obtain ⟨hnormal, hafter⟩ := ih hrne hne hr hrs
      constructor
      · refine ⟨List.forall_mem_cons.mpr ⟨hcurrent, hnormal.nonempty⟩,
          List.pairwise_cons.mpr ⟨fun q hq => ?_, hnormal.apart⟩⟩
        have := hafter q hq
        omega
      · refine List.forall_mem_cons.mpr ⟨Int.le_refl _, fun q hq => ?_⟩
        have := hafter q hq
        omega

theorem isNormal_normalize (h : ∀ r ∈ rs, r.first ≤ r.last) : IsNormal (normalize rs) := by
  have hsorted := List.pairwise_mergeSort le_trans le_total rs
  have hmem : ∀ r ∈ rs.mergeSort le, r.first ≤ r.last := fun r hr => h r (List.mem_mergeSort.mp hr)
  unfold normalize
  generalize rs.mergeSort le = sorted at hsorted hmem
  cases sorted with
  | nil => exact ⟨by simp, .nil⟩
  | cons r rest =>
    obtain ⟨hr, hrest⟩ := List.pairwise_cons.mp hsorted
    obtain ⟨hne, hrestne⟩ := List.forall_mem_cons.mp hmem
    exact (isNormal_fuse hne hrestne (fun q hq => first_le_of_le (hr q hq))
      (hrest.imp first_le_of_le)).1

theorem IsNormal.normalize_eq (h : IsNormal rs) : normalize rs = rs :=
  (isNormal_normalize h.nonempty).eq_of_covers h fun _ => mem_normalize

theorem normalize_eq_of_covers (h : ∀ r ∈ as, r.first ≤ r.last) (h' : ∀ r ∈ bs, r.first ≤ r.last)
    (hcovers : ∀ n, Covers as n ↔ Covers bs n) : normalize as = normalize bs :=
  (isNormal_normalize h).eq_of_covers (isNormal_normalize h') fun n => by
    rw [Covers, mem_normalize, Covers, mem_normalize]
    exact hcovers n

end NotebookSlice.LineRange
