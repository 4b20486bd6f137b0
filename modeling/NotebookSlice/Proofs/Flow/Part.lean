import Mathlib.Order.Monotone.Basic
import NotebookSlice.Proofs.Flow.LastWriter
import NotebookSlice.Proofs.Flow.Reach

/-! # Parts of a history

A part of a history has some of its executions, at new positions in the same order.
A statement whose sources are all in the part has the same sources there, because
what the part leaves out between a writer and a reader writes nothing.
-/

namespace NotebookSlice.Flow

namespace History

variable {h : History}

theorem Ordered.eq_of_position (ok : h.Ordered) {x y : Execution} (hx : x ∈ h) (hy : y ∈ h)
    (heq : x.position = y.position) : x = y := by
  have hnodup : (h.map Execution.position).Nodup :=
    List.pairwise_map.mpr (ok.positions.imp Nat.ne_of_lt)
  exact List.inj_on_of_nodup_map hnodup hx hy heq

/-- Where a name is written before a place, it has a last writer before that place. -/
theorem exists_lastWriter (ok : h.Ordered) {name : String} {u v : Ref} (hu : h.Writes name u)
    (hb : Before u v) : ∃ w, h.LastWriter name w v := by
  classical
  let earlier := h.steps.filter fun t => Before t.ref v
  have hsorted : Sorted earlier := List.Pairwise.filter _ ok.sorted
  have hmem (t : Step) : t ∈ earlier ↔ t ∈ h.steps ∧ Before t.ref v := by simp [earlier]
  obtain ⟨s, hs, rfl, hd⟩ := writes_iff.mp hu
  obtain ⟨w, hw⟩ : ∃ w, lastWriter? earlier name = some w := by
    rw [← Option.isSome_iff_exists, lastWriter?, Option.isSome_map, List.find?_isSome]
    exact ⟨s, List.mem_reverse.mpr ((hmem s).mpr ⟨hs, hb⟩), by simpa using hd⟩
  obtain ⟨⟨t, ht, rfl, htd⟩, hmax⟩ := (lastWriter?_eq_some_iff hsorted).mp hw
  obtain ⟨ht, htb⟩ := (hmem t).mp ht
  refine ⟨t.ref, writes_iff.mpr ⟨t, ht, rfl, htd⟩, htb, fun x hx hxb => ?_⟩
  obtain ⟨r, hr, rfl, hrd⟩ := writes_iff.mp hx
  exact hmax r ((hmem r).mpr ⟨hr, hxb⟩) hrd

end History

/-! ## Moved places -/

/-- A place after its execution was moved to another position. -/
def moved (place : ℕ → ℕ) (r : Ref) : Ref := (place r.1, r.2)

variable {place : ℕ → ℕ}

theorem moved_injective (hplace : StrictMono place) : Function.Injective (moved place) := by
  intro u v h
  obtain ⟨h1, h2⟩ := Prod.mk.inj h
  exact Prod.ext (hplace.injective h1) h2

theorem before_moved_iff (hplace : StrictMono place) {u v : Ref} :
    Before (moved place u) (moved place v) ↔ Before u v := by
  simp only [Before, moved, hplace.lt_iff_lt, hplace.injective.eq_iff]

/-- Each execution of the part stands in the history, at the position that `place` gives. -/
structure History.PartOf (part h : History) (place : ℕ → ℕ) : Prop where
  strictMono : StrictMono place
  mem : ∀ x ∈ part, { x with position := place x.position } ∈ h

def History.Has (part : History) (position : ℕ) : Prop := ∃ x ∈ part, x.position = position

namespace History.PartOf

variable {part h : History} (hp : part.PartOf h place) (ok : h.Ordered)
include hp ok

/-- An execution of the history at a position of the part is one of the part. -/
theorem exists_of_mem {y : Execution} (hy : y ∈ h) {k : ℕ} (hk : part.Has k)
    (hpos : y.position = place k) :
    ∃ x ∈ part, x.position = k ∧ y = { x with position := place k } := by
  obtain ⟨x, hx, rfl⟩ := hk
  exact ⟨x, hx, rfl, ok.eq_of_position hy (hp.mem x hx) hpos⟩

theorem reads_moved_iff {name : String} {v : Ref} (hv : part.Has v.1) :
    h.Reads name (moved place v) ↔ part.Reads name v := by
  constructor
  · rintro ⟨y, hy, s, hs, heq, hname⟩
    obtain ⟨x, hx, hpos, rfl⟩ := hp.exists_of_mem ok hy hv (Prod.mk.inj heq).1.symm
    exact ⟨x, hx, s, hs, Prod.ext hpos.symm (Prod.mk.inj heq).2, hname⟩
  · rintro ⟨x, hx, s, hs, rfl, hname⟩
    exact ⟨_, hp.mem x hx, s, hs, rfl, hname⟩

theorem writes_moved_iff {name : String} {u : Ref} (hu : part.Has u.1) :
    h.Writes name (moved place u) ↔ part.Writes name u := by
  constructor
  · rintro ⟨y, hy, hd, s, hs, heq, hname⟩
    obtain ⟨x, hx, hpos, rfl⟩ := hp.exists_of_mem ok hy hu (Prod.mk.inj heq).1.symm
    exact ⟨x, hx, hd, s, hs, Prod.ext hpos.symm (Prod.mk.inj heq).2, hname⟩
  · rintro ⟨x, hx, hd, s, hs, rfl, hname⟩
    exact ⟨_, hp.mem x hx, hd, s, hs, rfl, hname⟩

theorem governs_moved_iff {u v : Ref} (hv : part.Has v.1) :
    h.Governs u (moved place v) ↔ ∃ w, moved place w = u ∧ part.Governs w v := by
  constructor
  · rintro ⟨y, hy, s, hs, heq, p, hparent, rfl⟩
    obtain ⟨x, hx, hpos, rfl⟩ := hp.exists_of_mem ok hy hv (Prod.mk.inj heq).1.symm
    exact ⟨(v.1, p), rfl, x, hx, s, hs, Prod.ext hpos.symm (Prod.mk.inj heq).2, p, hparent,
      Prod.ext hpos.symm rfl⟩
  · rintro ⟨w, rfl, x, hx, s, hs, rfl, p, hparent, rfl⟩
    exact ⟨_, hp.mem x hx, s, hs, rfl, p, hparent, rfl⟩

/-- If the last writer before a place is in the part, it is the last writer there. -/
theorem lastWriter_moved_iff {name : String} {u v : Ref}
    (hsource : ∀ w, h.LastWriter name w (moved place v) → ∃ k, part.Has k ∧ place k = w.1) :
    h.LastWriter name u (moved place v) ↔ ∃ w, moved place w = u ∧ part.LastWriter name w v := by
  have hdown {u : Ref} (hu : h.LastWriter name u (moved place v)) :
      ∃ w, moved place w = u ∧ part.LastWriter name w v := by
    obtain ⟨k, hk, hku⟩ := hsource u hu
    obtain ⟨hwrites, hb, hmax⟩ := hu
    have hmoved : moved place (k, u.2) = u := Prod.ext hku rfl
    rw [← hmoved] at hwrites hb hmax
    refine ⟨(k, u.2), hmoved, (hp.writes_moved_iff ok hk).mp hwrites,
      (before_moved_iff hp.strictMono).mp hb, fun w hw hwb => ?_⟩
    have hhas : part.Has w.1 := by
      obtain ⟨x, hx, -, s, -, rfl, -⟩ := hw
      exact ⟨x, hx, rfl⟩
    exact (hmax _ ((hp.writes_moved_iff ok hhas).mpr hw)
      ((before_moved_iff hp.strictMono).mpr hwb)).imp (moved_injective hp.strictMono ·)
      (before_moved_iff hp.strictMono).mp
  refine ⟨hdown, ?_⟩
  rintro ⟨w, rfl, hw⟩
  have hwrites : h.Writes name (moved place w) := by
    obtain ⟨x, hx, hd, s, hs, rfl, hname⟩ := hw.1
    exact ⟨_, hp.mem x hx, hd, s, hs, rfl, hname⟩
  obtain ⟨u, hu⟩ := exists_lastWriter ok hwrites ((before_moved_iff hp.strictMono).mpr hw.2.1)
  obtain ⟨w', rfl, hw'⟩ := hdown hu
  exact hw'.unique hw ▸ hu

/-- If the sources of a statement are in the part, they are its sources there, for the same
reasons. -/
theorem hasReason_moved_iff (okPart : part.Ordered) {u v : Ref} {r : Reason} (hv : part.Has v.1)
    (hsources : ∀ w, (Graph.ofHistory h).Feeds w (moved place v) →
      ∃ k, part.Has k ∧ place k = w.1) :
    HasReason (Graph.ofHistory h).edges u (moved place v) r ↔
      ∃ w, moved place w = u ∧ HasReason (Graph.ofHistory part).edges w v r := by
  cases r with
  | governed =>
    simp only [hasReason_governed_iff]
    exact hp.governs_moved_iff ok hv
  | reads name =>
    simp only [hasReason_reads_iff ok, hasReason_reads_iff okPart, hp.reads_moved_iff ok hv]
    have hlast (hread : part.Reads name v) : h.LastWriter name u (moved place v) ↔
        ∃ w, moved place w = u ∧ part.LastWriter name w v := by
      refine hp.lastWriter_moved_iff ok fun w hw => hsources w (.of_hasReason (r := .reads name) ?_)
      exact (hasReason_reads_iff ok).mpr ⟨(hp.reads_moved_iff ok hv).mpr hread, hw⟩
    constructor
    · rintro ⟨hread, hu⟩
      obtain ⟨w, hw, hwv⟩ := (hlast hread).mp hu
      exact ⟨w, hw, hread, hwv⟩
    · rintro ⟨w, hw, hread, hwv⟩
      exact ⟨hread, (hlast hread).mpr ⟨w, hw, hwv⟩⟩

end History.PartOf

end NotebookSlice.Flow
