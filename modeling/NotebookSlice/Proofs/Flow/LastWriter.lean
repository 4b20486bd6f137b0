import Mathlib.Data.List.Nodup
import NotebookSlice.Proofs.Flow.Edges

/-! # Edges lead from last writers

The graph of an ordered history, described by places in the log: a read comes
from the greatest place before it that writes the name, and control comes from
the parent. The description does not mention how the graph was built.
-/

namespace NotebookSlice.Flow

namespace History

variable (h : History)

def Reads (name : String) (v : Ref) : Prop :=
  ∃ x ∈ h, ∃ s ∈ x.statements, v = (x.position, s.index) ∧ name ∈ s.reads

/-- The statement at the place writes the name, and its execution defines what it writes. -/
def Writes (name : String) (u : Ref) : Prop :=
  ∃ x ∈ h, x.defines = true ∧ ∃ s ∈ x.statements, u = (x.position, s.index) ∧ name ∈ s.writes

def LastWriter (name : String) (u v : Ref) : Prop :=
  h.Writes name u ∧ Before u v ∧ ∀ w, h.Writes name w → Before w v → w = u ∨ Before w u

def Governs (u v : Ref) : Prop :=
  ∃ x ∈ h, ∃ s ∈ x.statements, v = (x.position, s.index) ∧
    ∃ p, s.parent = some p ∧ u = (x.position, p)

variable {h}

theorem exists_step {P : Step → Prop} :
    (∃ t ∈ h.steps, P t) ↔ ∃ x ∈ h, ∃ s ∈ x.statements, P ⟨x.position, x.defines, s⟩ := by
  simp [History.steps, Execution.steps, and_assoc]

theorem reads_iff {name : String} {v : Ref} :
    h.Reads name v ↔ ∃ t ∈ h.steps, v = t.ref ∧ name ∈ t.statement.reads := by
  rw [exists_step]; rfl

theorem governs_iff {u v : Ref} :
    h.Governs u v ↔ ∃ t ∈ h.steps, v = t.ref ∧
      ∃ p, t.statement.parent = some p ∧ u = (t.position, p) := by
  rw [exists_step]; rfl

theorem writes_iff {name : String} {u : Ref} :
    h.Writes name u ↔ ∃ t ∈ h.steps, t.ref = u ∧ name ∈ t.defined := by
  rw [exists_step, Writes]
  refine exists_congr fun x => and_congr_right fun _ => ?_
  cases hd : x.defines <;> simp [Step.defined, Step.ref, eq_comm]

/-- In an ordered history the last writer before a step is that among the steps before it. -/
theorem lastWriter_iff {before after : List Step} {t : Step} (ok : h.Ordered)
    (heq : h.steps = before ++ t :: after) {name : String} {u : Ref} :
    h.LastWriter name u t.ref ↔ lastWriter? before name = some u := by
  have hs := ok.sorted
  rw [heq, Sorted, List.pairwise_append] at hs
  obtain ⟨hbefore, hafter, hcross⟩ := hs
  have hmem : ∀ s ∈ h.steps, Before s.ref t.ref ↔ s ∈ before := by
    intro s hms
    refine ⟨fun hb => ?_, fun hm => hcross s hm t List.mem_cons_self⟩
    rw [heq, List.mem_append, List.mem_cons] at hms
    rcases hms with hm | rfl | hm
    · exact hm
    · exact absurd hb (not_before_self _)
    · exact absurd hb (List.rel_of_pairwise_cons hafter hm).asymm
  have hsub : ∀ s ∈ before, s ∈ h.steps := fun s hm => heq ▸ List.mem_append_left _ hm
  rw [lastWriter?_eq_some_iff hbefore, LastWriter]
  simp only [writes_iff]
  constructor
  · rintro ⟨⟨s, hms, rfl, hd⟩, hb, hmax⟩
    refine ⟨⟨s, (hmem s hms).mp hb, rfl, hd⟩, fun r hr hdr => ?_⟩
    exact hmax r.ref ⟨r, hsub r hr, rfl, hdr⟩ ((hmem r (hsub r hr)).mpr hr)
  · rintro ⟨⟨s, hms, rfl, hd⟩, hmax⟩
    refine ⟨⟨s, hsub s hms, rfl, hd⟩, (hmem s (hsub s hms)).mpr hms, ?_⟩
    rintro w ⟨r, hr, rfl, hdr⟩ hb
    exact hmax r ((hmem r hr).mp hb) hdr

end History

variable {h : History}

/-- A read stands on the edge from the last writer, and on no other. -/
theorem hasReason_reads_iff (ok : h.Ordered) {u v : Ref} {name : String} :
    HasReason (Graph.ofHistory h).edges u v (.reads name) ↔
      h.Reads name v ∧ h.LastWriter name u v := by
  rw [Graph.ofHistory_eq, Graph.hasReason_ofSteps]
  constructor
  · rintro ⟨before, t, after, heq, rfl, hread, hw, -⟩
    exact ⟨History.reads_iff.mpr ⟨t, by simp [heq], rfl, hread⟩,
      (History.lastWriter_iff ok heq).mpr hw⟩
  · rintro ⟨hread, hlast⟩
    obtain ⟨t, ht, rfl, hname⟩ := History.reads_iff.mp hread
    obtain ⟨before, after, heq⟩ := List.append_of_mem ht
    refine ⟨before, t, after, heq, rfl, hname, (History.lastWriter_iff ok heq).mp hlast, ?_⟩
    rintro rfl
    exact not_before_self _ hlast.2.1

theorem hasReason_governed_iff {u v : Ref} :
    HasReason (Graph.ofHistory h).edges u v .governed ↔ h.Governs u v := by
  rw [Graph.ofHistory_eq, Graph.hasReason_ofSteps, History.governs_iff]
  constructor
  · rintro ⟨before, t, after, heq, hv, hp⟩
    exact ⟨t, by simp [heq], hv, hp⟩
  · rintro ⟨t, ht, hv, hp⟩
    obtain ⟨before, after, heq⟩ := List.append_of_mem ht
    exact ⟨before, t, after, heq, hv, hp⟩

theorem History.LastWriter.unique {name : String} {u u' v : Ref} (hu : h.LastWriter name u v)
    (hu' : h.LastWriter name u' v) : u = u' := by
  rcases hu.2.2 u' hu'.1 hu'.2.1 with he | hb
  · exact he.symm
  · rcases hu'.2.2 u hu.1 hu.2.1 with he | hb'
    · exact he
    · exact absurd hb' hb.asymm

/-- The graph of an ordered history. An edge carries a name exactly if its target reads the name
and its source is the last writer of the name before the target; it is a control edge exactly if
its source governs its target. There are no edges without a reason and no parallel ones, and a
name that a statement reads has one source at most. -/
theorem edges_exact (h : History) (ok : h.Ordered) :
    (∀ u v name, (∃ e ∈ (Graph.ofHistory h).edges, e.source = u ∧ e.target = v ∧
        name ∈ e.symbols) ↔ h.Reads name v ∧ h.LastWriter name u v) ∧
    (∀ u v, (∃ e ∈ (Graph.ofHistory h).edges, e.source = u ∧ e.target = v ∧
        e.control = true) ↔ h.Governs u v) ∧
    (∀ e ∈ (Graph.ofHistory h).edges, e.symbols ≠ [] ∨ e.control = true) ∧
    (∀ e ∈ (Graph.ofHistory h).edges, ∀ d ∈ (Graph.ofHistory h).edges,
        e.source = d.source → e.target = d.target → e = d) ∧
    (∀ e ∈ (Graph.ofHistory h).edges, ∀ d ∈ (Graph.ofHistory h).edges, ∀ name,
        e.target = d.target → name ∈ e.symbols → name ∈ d.symbols → e = d) := by
  have hwf : (Graph.ofHistory h).WellFormed := Graph.ofHistory_eq h ▸ Graph.wellFormed_ofSteps _
  have hreads (u v : Ref) (name : String) : (∃ e ∈ (Graph.ofHistory h).edges, e.source = u ∧
      e.target = v ∧ name ∈ e.symbols) ↔ h.Reads name v ∧ h.LastWriter name u v := by
    rw [← hasReason_reads_iff ok]
    simp [HasReason, Edge.ends, Edge.Has, and_assoc]
  have hgoverned (u v : Ref) : (∃ e ∈ (Graph.ofHistory h).edges, e.source = u ∧
      e.target = v ∧ e.control = true) ↔ h.Governs u v := by
    rw [← hasReason_governed_iff]
    simp [HasReason, Edge.ends, Edge.Has, and_assoc]
  have hsimple : ∀ e ∈ (Graph.ofHistory h).edges, ∀ d ∈ (Graph.ofHistory h).edges,
      e.source = d.source → e.target = d.target → e = d := fun e he d hd hs ht =>
    List.inj_on_of_nodup_map hwf.simple he hd (Prod.ext hs ht)
  refine ⟨hreads, hgoverned, fun e he => ?_, hsimple, fun e he d hd name ht hne hnd => ?_⟩
  · obtain ⟨r, hr⟩ := hwf.justified e he
    cases r with
    | reads name => exact Or.inl (List.ne_nil_of_mem hr)
    | governed => exact Or.inr hr
  · have hu := ((hreads _ _ _).mp ⟨e, he, rfl, rfl, hne⟩).2
    have hu' := ((hreads _ _ _).mp ⟨d, hd, rfl, rfl, hnd⟩).2
    exact hsimple e he d hd (hu.unique (ht ▸ hu')) ht

/-- A definition, a failed execution that would overwrite it, and a guarded update. -/
def guardedUpdate : History :=
  [⟨0, [⟨0, .statement, 1, 1, none, [], ["x"], []⟩], true⟩,
    ⟨1, [⟨0, .statement, 1, 1, none, [], ["x"], []⟩], false⟩,
    ⟨3, [⟨0, .header, 1, 1, none, ["x"], [], [1]⟩,
      ⟨1, .statement, 2, 2, some 0, ["x"], ["x"], []⟩], true⟩]

theorem guardedUpdate_ordered : guardedUpdate.Ordered :=
  ⟨by decide, by decide⟩

theorem edges_exact_guardedUpdate : guardedUpdate.Ordered ∧
    guardedUpdate.LastWriter "x" (0, 0) (3, 1) ∧ guardedUpdate.Governs (3, 0) (3, 1) :=
  have exact := edges_exact guardedUpdate guardedUpdate_ordered
  ⟨guardedUpdate_ordered,
    ((exact.1 _ _ _).mp ⟨⟨(0, 0), (3, 1), ["x"], false⟩, by decide, by decide⟩).2,
    (exact.2.1 _ _).mp ⟨⟨(3, 0), (3, 1), [], true⟩, by decide, by decide⟩⟩

end NotebookSlice.Flow
