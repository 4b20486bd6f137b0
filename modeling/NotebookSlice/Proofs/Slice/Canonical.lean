import NotebookSlice.Proofs.Slice.SliceText

/-! # The normal form stands for a set of lines

Two lists of ranges have the same normal form if and only if they cover the same
lines. So the order of the ranges does not count, nor how often a line is covered,
nor which of the ranges were joined before.
-/

namespace NotebookSlice

namespace LineRange

variable {a b : LineRange} {as bs before after : List LineRange} {n : ℤ}

theorem covers_normalize : Covers (normalize as) n ↔ Covers as n := mem_normalize

theorem covers_append : Covers (as ++ bs) n ↔ Covers as n ∨ Covers bs n := by
  simp only [Covers, List.mem_append, or_and_right, exists_or]

theorem covers_of_perm (h : as.Perm bs) : Covers as n ↔ Covers bs n := by
  simp only [Covers, h.mem_iff]

theorem IsNormal.not_covers_gap (h : IsNormal (before ++ a :: b :: after)) (ha : a.last < n)
    (hb : n < b.first) : ¬ Covers (before ++ a :: b :: after) n := by
  obtain ⟨-, hrest, hbefore⟩ := List.pairwise_append.mp h.apart
  have hafter := (List.pairwise_cons.mp hrest.of_cons).1
  have hane := h.nonempty a (by simp)
  have hbne := h.nonempty b (by simp)
  rintro ⟨r, hr, hn⟩
  obtain ⟨hfirst, hlast⟩ := mem_lines.mp hn
  simp only [List.mem_append, List.mem_cons] at hr
  rcases hr with hr | rfl | rfl | hr
  · have := hbefore r hr a List.mem_cons_self
    omega
  · omega
  · omega
  · have := hafter r hr
    omega

theorem normalize_eq_iff (has : ∀ r ∈ as, r.first ≤ r.last) (hbs : ∀ r ∈ bs, r.first ≤ r.last) :
    normalize as = normalize bs ↔ ∀ n, Covers as n ↔ Covers bs n := by
  constructor
  · intro heq n
    rw [← covers_normalize, heq, covers_normalize]
  · exact normalize_eq_of_covers has hbs

theorem normalize_append (has : ∀ r ∈ as, r.first ≤ r.last) (hbs : ∀ r ∈ bs, r.first ≤ r.last) :
    normalize (normalize as ++ bs) = normalize (as ++ bs) := by
  have hnormal := (isNormal_normalize has).nonempty
  refine (normalize_eq_iff (List.forall_mem_append.mpr ⟨hnormal, hbs⟩)
    (List.forall_mem_append.mpr ⟨has, hbs⟩)).mpr fun n => ?_
  rw [covers_append, covers_append, covers_normalize]

end LineRange

open LineRange

theorem CellSlice.pairwise_lineNumbers_ofRanges {rs : List LineRange} (cell : Cell) (time : Value)
    (h : ∀ r ∈ rs, r.first ≤ r.last) :
    (ofRanges cell rs time).lineNumbers.Pairwise (· < ·) :=
  (isNormal_normalize h).pairwise_lines

namespace LineRange

variable {as bs : List LineRange}

/-- The normal form of nonempty ranges has their lines and no others, in ranges that are sorted
and apart. It is the same for two lists exactly if these cover the same lines. -/
theorem normalize_canonical (has : ∀ r ∈ as, r.first ≤ r.last) (hbs : ∀ r ∈ bs, r.first ≤ r.last) :
    (∀ n, Covers (normalize as) n ↔ Covers as n) ∧
    (∀ r ∈ normalize as, r.first ≤ r.last) ∧
    (normalize as).Pairwise (fun a b => a.last < b.first) ∧
    (∀ before a b after, normalize as = before ++ a :: b :: after →
      ∃ n, a.last < n ∧ n < b.first ∧ ¬ Covers as n) ∧
    (normalize as = normalize bs ↔ ∀ n, Covers as n ↔ Covers bs n) ∧
    (as.Perm bs → normalize as = normalize bs) ∧
    normalize (normalize as) = normalize as ∧
    normalize (normalize as ++ bs) = normalize (as ++ bs) ∧
    ∀ cell time, (CellSlice.ofRanges cell as time).lineNumbers.Pairwise (· < ·) ∧
      ∀ n, n ∈ (CellSlice.ofRanges cell as time).lineNumbers ↔ Covers as n := by
  have hnormal := isNormal_normalize has
  refine ⟨fun n => covers_normalize, hnormal.nonempty, hnormal.apart.imp fun h => by omega, ?_,
    normalize_eq_iff has hbs, fun h => normalize_eq_of_covers has hbs fun n => covers_of_perm h,
    hnormal.normalize_eq, normalize_append has hbs,
    fun cell time => ⟨CellSlice.pairwise_lineNumbers_ofRanges cell time has,
      fun n => CellSlice.mem_lineNumbers_ofRanges⟩⟩
  intro before a b after heq
  rw [heq] at hnormal
  obtain ⟨-, hrest, -⟩ := List.pairwise_append.mp hnormal.apart
  have hgap : a.last + 1 < b.first := List.rel_of_pairwise_cons hrest List.mem_cons_self
  refine ⟨a.last + 1, by omega, hgap, ?_⟩
  rw [← covers_normalize, heq]
  exact hnormal.not_covers_gap (by omega) hgap

/-- Five ranges out of order, two of them touching and one inside another, and three others with
the same lines. -/
theorem normalize_canonical_overlapping :
    normalize [⟨5, 9⟩, ⟨1, 2⟩, ⟨3, 3⟩, ⟨6, 7⟩, ⟨1, 2⟩] = normalize [⟨6, 9⟩, ⟨1, 3⟩, ⟨5, 5⟩] ∧
    normalize [⟨5, 9⟩, ⟨1, 2⟩, ⟨3, 3⟩, ⟨6, 7⟩, ⟨1, 2⟩] ≠ normalize [⟨6, 9⟩, ⟨1, 4⟩, ⟨5, 5⟩] := by
  have heq := (@normalize_canonical [⟨5, 9⟩, ⟨1, 2⟩, ⟨3, 3⟩, ⟨6, 7⟩, ⟨1, 2⟩]
    [⟨6, 9⟩, ⟨1, 3⟩, ⟨5, 5⟩] (by decide) (by decide)).2.2.2.2.1
  have hne := (@normalize_canonical [⟨5, 9⟩, ⟨1, 2⟩, ⟨3, 3⟩, ⟨6, 7⟩, ⟨1, 2⟩]
    [⟨6, 9⟩, ⟨1, 4⟩, ⟨5, 5⟩] (by decide) (by decide)).2.2.2.2.1
  constructor
  · refine heq.mpr fun n => ?_
    simp only [Covers, List.exists_mem_cons_iff, mem_lines, List.not_mem_nil, false_and,
      exists_false, or_false]
    omega
  · refine fun h => absurd (hne.mp h 4) ?_
    simp only [Covers, List.exists_mem_cons_iff, mem_lines, List.not_mem_nil, false_and,
      exists_false, or_false]
    omega

end NotebookSlice.LineRange
