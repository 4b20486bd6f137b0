import NotebookSlice.Proofs.Slice.Grouping
import NotebookSlice.Proofs.Slice.NormalRanges
import NotebookSlice.Proofs.Slice.StableSort

/-! # The union of slices

Merged slices have one slice for each event, with the lines of all slices of the
event. It is the same whether slices are merged at once or in groups, because the
order within a tie and the lines of an event do not depend on the groups. If a
cell and a count stand for an event, the order of the slices plays no role either.
-/

namespace NotebookSlice

namespace SlicedExecution

open LineRange

/-- A slice whose event can be recognised, whose count is a number and whose ranges have lines. -/
structure Mergeable (s : CellSlice) : Prop where
  isKey : s.cell.event.isKey = true
  same_self : SameEvent s s
  count : ∃ q, s.cell.count.rank = .number q
  nonempty : ∀ r ∈ s.ranges, r.first ≤ r.last

theorem same_self_of_mergeable {slices : List CellSlice} (h : ∀ s ∈ slices, Mergeable s) :
    ∀ s ∈ slices, SameEvent s s :=
  fun s hs => (h s hs).same_self

def HasLine (slices : List CellSlice) (event : Value) (n : ℤ) : Prop :=
  ∃ s ∈ slices, event.same s.cell.event = true ∧ n ∈ s.lineNumbers

/-- Some slice belongs to the event of the given one. -/
def knows (slices : List CellSlice) (s : CellSlice) : Bool :=
  slices.any (·.cell.event.same s.cell.event)

def rangesOf (slices : List CellSlice) (event : Value) : List LineRange :=
  (slices.filter (event.same ·.cell.event)).flatMap (·.ranges)

def filled (slices : List CellSlice) (s : CellSlice) : CellSlice :=
  .ofRanges s.cell (rangesOf slices s.cell.event) s.time

def union (slices : List CellSlice) : List CellSlice := (grouped slices).mergeSort countLE

variable {as bs cs slices : List CellSlice} {s t : CellSlice} {event : Value} {n : ℤ}

/-! ## Groups -/

theorem mem_rangesOf {r : LineRange} : r ∈ rangesOf slices event ↔
    ∃ s ∈ slices, event.same s.cell.event = true ∧ r ∈ s.ranges := by
  simp [rangesOf, and_assoc]

theorem covers_rangesOf : Covers (rangesOf slices event) n ↔ HasLine slices event n := by
  simp only [Covers, mem_rangesOf, HasLine, CellSlice.lineNumbers, List.mem_flatMap]
  constructor
  · rintro ⟨r, ⟨s, hs, hsame, hr⟩, hn⟩
    exact ⟨s, hs, hsame, r, hr, hn⟩
  · rintro ⟨s, hs, hsame, r, hr, hn⟩
    exact ⟨r, ⟨s, hs, hsame, hr⟩, hn⟩

theorem hasLine_append : HasLine (as ++ bs) event n ↔ HasLine as event n ∨ HasLine bs event n := by
  simp [HasLine, or_and_right, exists_or]

theorem mem_lineNumbers_filled :
    n ∈ (filled slices s).lineNumbers ↔ HasLine slices s.cell.event n := by
  rw [filled, CellSlice.mem_lineNumbers_ofRanges]
  exact covers_rangesOf

theorem rangesOf_concat : rangesOf (slices ++ [s]) event =
    rangesOf slices event ++ if event.same s.cell.event then s.ranges else [] := by
  rw [rangesOf, List.filter_append, List.flatMap_append, rangesOf]
  cases h : event.same s.cell.event <;> simp [h]

theorem knows_firsts : knows (firsts slices) s = knows slices s := by
  rw [knows, knows, ← List.isSome_find?, ← List.isSome_find?, find?_firsts]

theorem exists_mem_firsts (ht : t ∈ slices) (hself : SameEvent t t) :
    ∃ f ∈ firsts slices, SameEvent f t :=
  List.any_eq_true.mp (knows_firsts.trans (List.any_eq_true.mpr ⟨t, ht, hself⟩))

theorem addToGroups_map {fs : List CellSlice} (hfs : fs.Pairwise fun a b => ¬ SameEvent a b)
    (hself : SameEvent s s) (hnew : knows fs s = false → rangesOf slices s.cell.event = []) :
    addToGroups s (fs.map fun f => (f, rangesOf slices f.cell.event)) =
      (if knows fs s then fs else fs ++ [s]).map fun f =>
        (f, rangesOf (slices ++ [s]) f.cell.event) := by
  induction fs with
  | nil => simp [addToGroups, knows, rangesOf_concat, hself, hnew rfl]
  | cons f fs ih =>
    obtain ⟨hf, hfs⟩ := List.pairwise_cons.mp hfs
    rw [List.map_cons, addToGroups]
    by_cases hsame : SameEvent f s
    · -- the slice is added to this group, and no later group is of its event
      rw [if_pos hsame, if_pos (by simp [knows, hsame]), List.map_cons, rangesOf_concat,
        if_pos hsame]
      refine congrArg _ (List.map_congr_left fun g hg => ?_)
      have hother : ¬ SameEvent g s := fun h =>
        hf g hg (Value.same_trans hsame (Value.same_symm h))
      rw [rangesOf_concat, if_neg hother, List.append_nil]
    · have hknows : knows (f :: fs) s = knows fs s := by simp [knows, hsame]
      rw [if_neg hsame, ih hfs fun h => hnew (hknows.trans h), hknows]
      cases knows fs s <;> simp [rangesOf_concat, hsame]

/-- Each group is the first slice of its event, with the lines of all slices of the event. -/
theorem grouped_eq (hself : ∀ s ∈ slices, SameEvent s s) :
    grouped slices = (firsts slices).map (filled slices) := by
  have hgroups : slices.foldl (fun groups s => addToGroups s groups) [] =
      (firsts slices).map fun f => (f, rangesOf slices f.cell.event) := by
    induction slices using List.reverseRecOn with
    | nil => rfl
    | append_singleton slices s ih =>
      have hs : SameEvent s s := hself s (by simp)
      have hnew : knows (firsts slices) s = false → rangesOf slices s.cell.event = [] := by
        intro hnot
        rw [knows_firsts] at hnot
        refine List.eq_nil_iff_forall_not_mem.mpr fun r hr => ?_
        obtain ⟨t, ht, hsame, -⟩ := mem_rangesOf.mp hr
        exact List.any_eq_false.mp hnot t ht (Value.same_symm hsame)
      rw [List.foldl_append, ih fun t ht => hself t (List.mem_append_left _ ht), List.foldl_cons,
        List.foldl_nil, addToGroups_map (pairwise_firsts slices) hs hnew, firsts_concat]
      rfl
  rw [grouped, hgroups, List.map_map]
  rfl

theorem firsts_append : firsts (as ++ bs) = firsts as ++ (firsts bs).filter (!knows as ·) := by
  induction bs using List.reverseRecOn with
  | nil => simp [firsts]
  | append_singleton bs s ih =>
    have hknows : knows (firsts (as ++ bs)) s = (knows as s || knows bs s) := by
      rw [knows_firsts, knows, List.any_append]
      rfl
    rw [← List.append_assoc, firsts_concat, firsts_concat]
    change (if knows (firsts (as ++ bs)) s then _ else _) = _ ++
      (if knows (firsts bs) s then _ else _ : List CellSlice).filter _
    rw [hknows, knows_firsts, ih]
    cases has : knows as s <;> cases hbs : knows bs s <;> simp [has]

theorem firsts_eq_self (h : slices.Pairwise fun s t => ¬ SameEvent s t) :
    firsts slices = slices := by
  induction slices using List.reverseRecOn with
  | nil => rfl
  | append_singleton slices s ih =>
    obtain ⟨hslices, -, hs⟩ := List.pairwise_append.mp h
    rw [firsts_concat, ih hslices, if_neg]
    rw [List.any_eq_true]
    rintro ⟨t, ht, hsame⟩
    exact hs t ht s (List.mem_singleton_self s) hsame

/-! ## Merged slices -/

theorem map_filled_mergeSort : (as.mergeSort countLE).map (filled slices) =
    (as.map (filled slices)).mergeSort countLE :=
  List.map_mergeSort (f := filled slices) fun _ _ _ _ => rfl

theorem union_eq (hself : ∀ s ∈ slices, SameEvent s s) :
    union slices = ((firsts slices).mergeSort countLE).map (filled slices) := by
  rw [union, grouped_eq hself, map_filled_mergeSort]

theorem mem_union_iff (hself : ∀ s ∈ slices, SameEvent s s) :
    t ∈ union slices ↔ ∃ f ∈ firsts slices, filled slices f = t := by
  simp [union_eq hself]

theorem knows_union (hself : ∀ s ∈ slices, SameEvent s s) :
    knows (union slices) s = knows slices s := by
  refine Eq.trans ?_ knows_firsts
  rw [Bool.eq_iff_iff, knows, knows, List.any_eq_true, List.any_eq_true]
  simp only [mem_union_iff hself, exists_exists_and_eq_and]
  rfl

theorem pairwise_union (hself : ∀ s ∈ slices, SameEvent s s) :
    (union slices).Pairwise fun s t => ¬ SameEvent s t := by
  rw [union_eq hself, List.pairwise_map]
  exact (List.mergeSort_perm ..).symm.pairwise (pairwise_firsts slices)
    fun h hsame => h (Value.same_symm hsame)

theorem hasLine_union (hself : ∀ s ∈ slices, SameEvent s s) :
    HasLine (union slices) event n ↔ HasLine slices event n := by
  constructor
  · rintro ⟨u, hu, hsame, hn⟩
    obtain ⟨f, -, rfl⟩ := (mem_union_iff hself).mp hu
    obtain ⟨s, hs, hfs, hn⟩ := mem_lineNumbers_filled.mp hn
    exact ⟨s, hs, Value.same_trans hsame hfs, hn⟩
  · rintro ⟨s, hs, hsame, hn⟩
    obtain ⟨f, hf, hfs⟩ := exists_mem_firsts hs (hself s hs)
    refine ⟨filled slices f, (mem_union_iff hself).mpr ⟨f, hf, rfl⟩, ?_, ?_⟩
    · exact Value.same_trans hsame (Value.same_symm hfs)
    · exact mem_lineNumbers_filled.mpr ⟨s, hs, hfs, hn⟩

theorem Mergeable.union (h : ∀ s ∈ slices, Mergeable s) : ∀ s ∈ union slices, Mergeable s := by
  intro u hu
  obtain ⟨f, hf, rfl⟩ := (mem_union_iff fun s hs => (h s hs).same_self).mp hu
  have hfirst := h f (firsts_subset slices hf)
  refine ⟨hfirst.isKey, hfirst.same_self, hfirst.count, (isNormal_normalize ?_).nonempty⟩
  intro r hr
  obtain ⟨s, hs, -, hr⟩ := mem_rangesOf.mp hr
  exact (h s hs).nonempty r hr

theorem normalize_rangesOf_congr (has : ∀ s ∈ as, Mergeable s) (hbs : ∀ s ∈ bs, Mergeable s)
    (h : ∀ n, HasLine as event n ↔ HasLine bs event n) :
    normalize (rangesOf as event) = normalize (rangesOf bs event) := by
  refine normalize_eq_of_covers ?_ ?_ fun n => covers_rangesOf.trans ((h n).trans
    covers_rangesOf.symm)
  · intro r hr
    obtain ⟨s, hs, -, hr⟩ := mem_rangesOf.mp hr
    exact (has s hs).nonempty r hr
  · intro r hr
    obtain ⟨s, hs, -, hr⟩ := mem_rangesOf.mp hr
    exact (hbs s hs).nonempty r hr

theorem filled_congr (has : ∀ s ∈ as, Mergeable s) (hbs : ∀ s ∈ bs, Mergeable s)
    (h : ∀ event n, HasLine as event n ↔ HasLine bs event n) : filled as = filled bs := by
  funext s
  rw [filled, CellSlice.ofRanges, normalize_rangesOf_congr has hbs (h _)]
  rfl

theorem union_append_union (has : ∀ s ∈ as, Mergeable s) (hbs : ∀ s ∈ bs, Mergeable s)
    (hcs : ∀ s ∈ cs, Mergeable s) : union (as ++ union bs ++ cs) = union (as ++ bs ++ cs) := by
  have happend {l : List CellSlice} (h : ∀ s ∈ l, Mergeable s) :
      ∀ s ∈ as ++ l ++ cs, Mergeable s := by
    simp only [List.forall_mem_append]
    exact ⟨⟨has, h⟩, hcs⟩
  have hfilled : filled (as ++ union bs ++ cs) = filled (as ++ bs ++ cs) := by
    refine filled_congr (happend (Mergeable.union hbs)) (happend hbs) fun event n => ?_
    simp only [hasLine_append, hasLine_union (same_self_of_mergeable hbs)]
  have hknows (s : CellSlice) : knows (as ++ union bs) s = knows (as ++ bs) s := by
    have hunion := knows_union (s := s) (same_self_of_mergeable hbs)
    rw [knows, knows] at hunion
    rw [knows, knows, List.any_append, List.any_append, hunion]
  have hfirsts : firsts (as ++ union bs ++ cs) = firsts as ++
      (((firsts bs).mergeSort countLE).filter (!knows as ·)).map (filled bs) ++
      (firsts cs).filter (!knows (as ++ bs) ·) := by
    simp only [firsts_append, hknows, firsts_eq_self (pairwise_union (same_self_of_mergeable hbs))]
    rw [union_eq (same_self_of_mergeable hbs), List.filter_map]
    rfl
  rw [union_eq (same_self_of_mergeable (happend (Mergeable.union hbs))),
    union_eq (same_self_of_mergeable (happend hbs)), hfilled, hfirsts,
    firsts_append, firsts_append, map_filled_mergeSort]
  have hmap (l : List CellSlice) : (l.map (filled bs)).map (filled (as ++ bs ++ cs)) =
      l.map (filled (as ++ bs ++ cs)) := List.map_map
  rw [List.map_append, List.map_append, hmap, ← List.map_append, ← List.map_append,
    ← map_filled_mergeSort, mergeSort_append_filter_mergeSort countLE_total countLE_trans]

theorem union_append_of_subset (has : ∀ s ∈ as, Mergeable s) (hsub : bs ⊆ as) :
    union (as ++ bs) = union as := by
  have hall : ∀ s ∈ as ++ bs, Mergeable s :=
    List.forall_mem_append.mpr ⟨has, fun s hs => has s (hsub hs)⟩
  have hnone : (firsts bs).filter (!knows as ·) = [] := by
    refine List.filter_eq_nil_iff.mpr fun s hs => ?_
    have hs := hsub (firsts_subset bs hs)
    simp [show knows as s = true from List.any_eq_true.mpr ⟨s, hs, (has s hs).same_self⟩]
  have hfilled : filled (as ++ bs) = filled as := by
    refine filled_congr hall has fun event n => ?_
    rw [hasLine_append, or_iff_left_of_imp]
    rintro ⟨s, hs, hsame, hn⟩
    exact ⟨s, hsub hs, hsame, hn⟩
  rw [union_eq (same_self_of_mergeable hall), union_eq (same_self_of_mergeable has), firsts_append,
    hnone, List.append_nil, hfilled]

theorem union_union_append (has : ∀ s ∈ as, Mergeable s) (hbs : ∀ s ∈ bs, Mergeable s) :
    union (union as ++ bs) = union (as ++ bs) :=
  union_append_union (List.forall_mem_nil _) has hbs

theorem union_union (has : ∀ s ∈ as, Mergeable s) : union (union as) = union as := by
  have h := union_union_append has (List.forall_mem_nil _)
  rwa [List.append_nil, List.append_nil] at h

theorem union_union_append_self (has : ∀ s ∈ as, Mergeable s) :
    union (union as ++ union as) = union as := by
  rw [union_append_of_subset (Mergeable.union has) (List.Subset.refl _), union_union has]

/-! ## The order of the slices -/

/-- An event has one cell, and a count of its own. -/
structure Coherent (slices : List CellSlice) : Prop where
  cell_eq : ∀ s ∈ slices, ∀ t ∈ slices, SameEvent s t → s.cell = t.cell
  count_ne : ∀ s ∈ slices, ∀ t ∈ slices, ¬ SameEvent s t →
    s.cell.count.rank ≠ t.cell.count.rank

theorem Coherent.of_subset (h : Coherent as) (hsub : bs ⊆ as) : Coherent bs where
  cell_eq s hs t ht := h.cell_eq s (hsub hs) t (hsub ht)
  count_ne s hs t ht := h.count_ne s (hsub hs) t (hsub ht)

theorem mem_map_extent_union (has : ∀ s ∈ as, Mergeable s) (hc : Coherent as)
    {p : Cell × List LineRange} : p ∈ (union as).map CellSlice.extent ↔
      ∃ s ∈ as, (s.cell, normalize (rangesOf as s.cell.event)) = p := by
  simp only [List.mem_map, mem_union_iff (same_self_of_mergeable has), exists_exists_and_eq_and]
  constructor
  · rintro ⟨f, hf, rfl⟩
    exact ⟨f, firsts_subset as hf, rfl⟩
  · rintro ⟨s, hs, rfl⟩
    obtain ⟨f, hf, hsame⟩ := exists_mem_firsts hs (has s hs).same_self
    refine ⟨f, hf, ?_⟩
    rw [← hc.cell_eq f (firsts_subset as hf) s hs hsame]
    rfl

theorem nodup_map_extent_union (has : ∀ s ∈ as, Mergeable s) :
    ((union as).map CellSlice.extent).Nodup := by
  refine List.pairwise_map.mpr
    ((pairwise_union (same_self_of_mergeable has)).imp_of_mem fun {s t} hs _ hst heq => ?_)
  have hcell : s.cell = t.cell := congrArg Prod.fst heq
  exact hst (show s.cell.event.same t.cell.event = true from
    hcell ▸ (Mergeable.union has s hs).same_self)

theorem map_extent_union_of_perm (has : ∀ s ∈ as, Mergeable s) (hc : Coherent as)
    (hperm : bs.Perm as) :
    (union bs).map CellSlice.extent = (union as).map CellSlice.extent := by
  have hbs : ∀ s ∈ bs, Mergeable s := fun s hs => has s (hperm.mem_iff.mp hs)
  have hlines (event : Value) (n : ℤ) : HasLine bs event n ↔ HasLine as event n := by
    simp only [HasLine, hperm.mem_iff]
  have hmem (p : Cell × List LineRange) : p ∈ (union bs).map CellSlice.extent ↔
      p ∈ (union as).map CellSlice.extent := by
    simp only [mem_map_extent_union has hc, mem_map_extent_union hbs (hc.of_subset hperm.subset),
      hperm.mem_iff, normalize_rangesOf_congr hbs has (hlines _)]
  have hsorted (l : List CellSlice) : ((union l).map CellSlice.extent).Pairwise
      fun p q => p.1.count.rank.le q.1.count.rank = true :=
    List.pairwise_map.mpr (List.pairwise_mergeSort countLE_trans countLE_total _)
  refine List.Perm.eq_of_pairwise (fun p q hp hq hle hge => ?_) (hsorted bs) (hsorted as)
    ((List.perm_ext_iff_of_nodup (nodup_map_extent_union hbs) (nodup_map_extent_union has)).mpr
      hmem)
  obtain ⟨s, hs, rfl⟩ := (mem_map_extent_union has hc).mp ((hmem p).mp hp)
  obtain ⟨t, ht, rfl⟩ := (mem_map_extent_union has hc).mp hq
  have hrank : s.cell.count.rank = t.cell.count.rank := by
    obtain ⟨a, ha⟩ := (has s hs).count
    obtain ⟨b, hb⟩ := (has t ht).count
    simp only [ha, hb, Rank.le, decide_eq_true_eq] at hle hge
    rw [ha, hb, le_antisymm hle hge]
  have hsame : SameEvent s t := by_contra fun h => hc.count_ne s hs t ht h hrank
  rw [hc.cell_eq s hs t ht hsame]

/-- Slices that are there already change no lines, wherever they stand. -/
theorem map_extent_union_append_union (has : ∀ s ∈ as, Mergeable s) (hc : Coherent as)
    (hsub : bs ⊆ as) :
    (union (bs ++ union as)).map CellSlice.extent = (union as).map CellSlice.extent := by
  have hbs : ∀ s ∈ bs, Mergeable s := fun s hs => has s (hsub hs)
  have hunion : union (bs ++ union as) = union (bs ++ as) := by
    have h := union_append_union hbs has (List.forall_mem_nil _)
    rwa [List.append_nil, List.append_nil] at h
  rw [hunion, ← union_append_of_subset has hsub]
  refine map_extent_union_of_perm (List.forall_mem_append.mpr ⟨has, hbs⟩) ?_ List.perm_append_comm
  exact hc.of_subset (List.append_subset.mpr ⟨List.Subset.refl _, hsub⟩)

/-! ## Merging -/

variable {all : List SlicedExecution}

theorem merge?_eq_merge (hne : all ≠ []) (hall : ∀ s ∈ all.flatMap (·.slices), Mergeable s)
    (now : Value) : merge? now all = .ok (merge now all) := by
  have hkeys : (all.flatMap (·.slices)).all (·.cell.event.isKey) = true :=
    List.all_eq_true.mpr fun s hs => (hall s hs).isKey
  have hordered : areOrdered (grouped (all.flatMap (·.slices))) = true := by
    refine areOrdered_of_numbers fun u hu => ?_
    rw [grouped_eq (same_self_of_mergeable hall)] at hu
    obtain ⟨f, hf, rfl⟩ := List.mem_map.mp hu
    exact (hall f (firsts_subset _ hf)).count
  rw [merge?, List.isEmpty_eq_false_iff.mpr hne, hkeys, ofSlices?, hordered]
  rfl

/-- One slice for each event, with the lines of all slices of the event, by count. -/
structure IsUnion (merged slices : List CellSlice) : Prop where
  distinct : merged.Pairwise fun s t => ¬ SameEvent s t
  known : ∀ s ∈ merged, ∃ t ∈ slices, SameEvent s t
  complete : ∀ t ∈ slices, ∃ s ∈ merged, SameEvent s t
  mem_lineNumbers : ∀ s ∈ merged, ∀ n,
    n ∈ s.lineNumbers ↔ ∃ t ∈ slices, SameEvent s t ∧ n ∈ t.lineNumbers
  normal : ∀ s ∈ merged, IsNormal s.ranges
  sorted : merged.Pairwise fun s t => countLE s t = true

theorem isUnion_union (h : ∀ s ∈ slices, Mergeable s) : IsUnion (union slices) slices where
  distinct := pairwise_union (same_self_of_mergeable h)
  known u hu := by
    obtain ⟨f, hf, rfl⟩ := (mem_union_iff (same_self_of_mergeable h)).mp hu
    exact ⟨f, firsts_subset _ hf, (h f (firsts_subset _ hf)).same_self⟩
  complete t ht := by
    obtain ⟨f, hf, hsame⟩ := exists_mem_firsts ht (h t ht).same_self
    exact ⟨filled slices f, (mem_union_iff (same_self_of_mergeable h)).mpr ⟨f, hf, rfl⟩, hsame⟩
  mem_lineNumbers u hu n := by
    obtain ⟨f, -, rfl⟩ := (mem_union_iff (same_self_of_mergeable h)).mp hu
    exact mem_lineNumbers_filled
  normal u hu := by
    obtain ⟨f, -, rfl⟩ := (mem_union_iff (same_self_of_mergeable h)).mp hu
    refine isNormal_normalize fun r hr => ?_
    obtain ⟨s, hs, -, hr⟩ := mem_rangesOf.mp hr
    exact (h s hs).nonempty r hr
  sorted := List.pairwise_mergeSort countLE_trans countLE_total _

/-- Merging succeeds at any time, and gives slices of which the property holds. -/
def MergesTo (all : List SlicedExecution) (P : List CellSlice → Prop) : Prop :=
  ∀ now, ∃ m, merge? now all = .ok m ∧ m.time = now ∧ P m.slices

theorem mergesTo_of_union {P : List CellSlice → Prop} (hne : all ≠ [])
    (hall : ∀ s ∈ all.flatMap (·.slices), Mergeable s) (h : P (union (all.flatMap (·.slices)))) :
    MergesTo all P :=
  fun now => ⟨merge now all, merge?_eq_merge hne hall now, rfl, h⟩

theorem mergesTo_pair {x y : SlicedExecution} {P : List CellSlice → Prop}
    (hx : ∀ s ∈ x.slices, Mergeable s) (hy : ∀ s ∈ y.slices, Mergeable s)
    (h : P (union (x.slices ++ y.slices))) : MergesTo [x, y] P := by
  have hflat : [x, y].flatMap (·.slices) = x.slices ++ y.slices := by simp
  refine mergesTo_of_union (List.cons_ne_nil _ _) ?_ (hflat ▸ h)
  rw [hflat]
  exact List.forall_mem_append.mpr ⟨hx, hy⟩

/-- Merging is a union. It gives one slice for each event, with all lines of the event, by count.
It makes no difference whether a part is merged first, and merging the result with itself or with
a merged slice changes nothing. If an event has one cell and a count of its own, the cells and
lines do not depend on the order of the slices. -/
theorem exists_merge?_isUnion (all : List SlicedExecution) (hne : all ≠ [])
    (hall : ∀ s ∈ all.flatMap (·.slices), Mergeable s) (now : Value) :
    ∃ m, merge? now all = .ok m ∧ m.time = now ∧ IsUnion m.slices (all.flatMap (·.slices)) ∧
      (∀ xs ys zs, all = xs ++ ys ++ zs → ys ≠ [] → ∀ earlier, ∃ part,
        merge? earlier ys = .ok part ∧ MergesTo (xs ++ part :: zs) (· = m.slices)) ∧
      (∀ other, other = m ∨ other ∈ all → MergesTo [m, other] (· = m.slices)) ∧
      (Coherent (all.flatMap (·.slices)) →
        (∀ all', all'.Perm all →
          MergesTo all' (·.map CellSlice.extent = m.slices.map CellSlice.extent)) ∧
        ∀ other ∈ all,
          MergesTo [other, m] (·.map CellSlice.extent = m.slices.map CellSlice.extent)) := by
  have hmerged : ∀ s ∈ (merge now all).slices, Mergeable s := Mergeable.union hall
  have hsub {x : SlicedExecution} (hx : x ∈ all) : x.slices ⊆ all.flatMap (·.slices) :=
    fun s hs => List.mem_flatMap.mpr ⟨x, hx, hs⟩
  have hslices {x : SlicedExecution} (hx : x ∈ all) : ∀ s ∈ x.slices, Mergeable s :=
    fun s hs => hall s (hsub hx hs)
  refine ⟨merge now all, merge?_eq_merge hne hall now, rfl, isUnion_union hall, ?_, ?_,
    fun hc => ⟨?_, ?_⟩⟩
  · rintro xs ys zs rfl hys earlier
    simp only [List.flatMap_append, List.forall_mem_append] at hall
    obtain ⟨⟨hxs, hys'⟩, hzs⟩ := hall
    refine ⟨merge earlier ys, merge?_eq_merge hys hys' earlier, mergesTo_of_union (by simp) ?_ ?_⟩
    · simp only [List.flatMap_append, List.flatMap_cons, List.forall_mem_append]
      exact ⟨hxs, Mergeable.union hys', hzs⟩
    · have hunion := union_append_union hxs hys' hzs
      simpa [List.flatMap_append, merge, ofSlices, union] using hunion
  · rintro other (rfl | hother)
    · exact mergesTo_pair hmerged hmerged (union_union_append_self hall)
    · exact mergesTo_pair hmerged (hslices hother) ((union_union_append hall (hslices hother)).trans
        (union_append_of_subset hall (hsub hother)))
  · intro all' hperm
    have hflat := hperm.flatMap_right (·.slices)
    refine mergesTo_of_union ?_ ?_ (map_extent_union_of_perm hall hc hflat)
    · rintro rfl
      exact hne hperm.nil_eq.symm
    · exact fun s hs => hall s (hflat.mem_iff.mp hs)
  · intro other hother
    exact mergesTo_pair (hslices hother) hmerged
      (map_extent_union_append_union hall hc (hsub hother))

def named (event : String) (count : ℤ) (ranges : List LineRange) : CellSlice :=
  ⟨⟨.text event, "", .int count, .text event, .text event, .null, .null⟩, ranges, .null⟩

/-- Two executions share an event, and each has an event of its own. -/
def overlapping : List SlicedExecution :=
  [⟨.null, [named "a" 1 [⟨1, 2⟩], named "b" 2 [⟨4, 4⟩]]⟩,
    ⟨.null, [named "a" 1 [⟨2, 5⟩, ⟨9, 9⟩], named "c" 3 [⟨1, 1⟩]]⟩]

/-- Executions that share an event are merged in either order. -/
theorem exists_merge?_isUnion_overlapping : ∃ m, merge? .null overlapping = .ok m ∧
    IsUnion m.slices (overlapping.flatMap (·.slices)) ∧
    (∀ x ∈ overlapping, MergesTo [m, x] (· = m.slices)) ∧
    MergesTo overlapping.reverse (·.map CellSlice.extent = m.slices.map CellSlice.extent) := by
  have hall : ∀ s ∈ overlapping.flatMap (·.slices), Mergeable s := by
    have hnamed (event : String) (count : ℤ) {ranges : List LineRange}
        (h : ∀ r ∈ ranges, r.first ≤ r.last) : Mergeable (named event count ranges) :=
      ⟨rfl, by simp [SameEvent, named, Value.same], ⟨count, rfl⟩, h⟩
    simp [overlapping, hnamed]
  have hc : Coherent (overlapping.flatMap (·.slices)) := by
    constructor <;> simp [overlapping, SameEvent, named, Value.same, Value.rank]
  obtain ⟨m, hm, -, hunion, -, hsame, hperm⟩ :=
    exists_merge?_isUnion overlapping (List.cons_ne_nil _ _) hall .null
  exact ⟨m, hm, hunion, fun x hx => hsame x (Or.inr hx),
    (hperm hc).1 _ (List.reverse_perm overlapping)⟩

end SlicedExecution

end NotebookSlice
