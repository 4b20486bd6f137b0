import NotebookSlice.Proofs.Flow.LastWriter
import NotebookSlice.Proofs.Flow.Reach

/-! # Replaying a slice

Statements are given an arbitrary meaning: from the values of the names that it
reads, a statement computes new values for the names that it writes. Replaying
only the dependencies of some statements shows each of them the same values as
replaying the whole history.
-/

namespace NotebookSlice.Flow

variable {α : Type*}

abbrev Env (α : Type*) := String → α

abbrev Meaning (α : Type*) :=
  (t : Step) → ({name // name ∈ t.statement.reads} → α) → {name // name ∈ t.statement.writes} → α

namespace Meaning

/-- Runs a step. In an execution that defines nothing it has no effect. -/
def exec (m : Meaning α) (env : Env α) (t : Step) : Env α := fun name =>
  if h : t.defines = true ∧ name ∈ t.statement.writes then
    m t (fun read => env read.1) ⟨name, h.2⟩
  else env name

def run (m : Meaning α) (steps : List Step) (env : Env α) : Env α := steps.foldl m.exec env

def seenAt (m : Meaning α) (steps : List Step) (env : Env α) (v : Ref) : Env α :=
  m.run (steps.takeWhile fun t => t.ref ≠ v) env

@[simp] theorem run_concat (m : Meaning α) (steps : List Step) (t : Step) (env : Env α) :
    m.run (steps ++ [t]) env = m.exec (m.run steps env) t := by
  simp [run]

theorem exec_of_not_mem (m : Meaning α) (env : Env α) {t : Step} {name : String}
    (h : name ∉ t.defined) : m.exec env t name = env name := by
  unfold exec
  split
  · rename_i hd
    exact absurd (by simpa [Step.defined, hd.1] using hd.2) h
  · rfl

theorem exec_congr (m : Meaning α) {env env' : Env α} {t : Step} {name : String}
    (hd : name ∈ t.defined) (h : ∀ read ∈ t.statement.reads, env read = env' read) :
    m.exec env t name = m.exec env' t name := by
  have hw : t.defines = true ∧ name ∈ t.statement.writes := by
    unfold Step.defined at hd
    split at hd <;> simp_all
  have hreads : (fun read : {n // n ∈ t.statement.reads} => env read.1) = fun read => env' read.1 :=
    funext fun read => h read.1 read.2
  simp only [exec, hw, and_self, dif_pos, hreads]

end Meaning

def slice (refs : List Ref) (steps : List Step) : List Step := steps.filter fun t => t.ref ∈ refs

theorem slice_concat (refs : List Ref) (steps : List Step) (t : Step) :
    slice refs (steps ++ [t]) =
      if t.ref ∈ refs then slice refs steps ++ [t] else slice refs steps := by
  by_cases ht : t.ref ∈ refs <;> simp [slice, ht]

theorem slice_split {refs : List Ref} (before after : List Step) {t : Step} (ht : t.ref ∈ refs) :
    slice refs (before ++ t :: after) = slice refs before ++ t :: slice refs after := by
  simp [slice, ht]

/-- The last writers of what the members read are members. -/
def WriterClosed (refs : List Ref) (steps : List Step) : Prop :=
  ∀ before t after, steps = before ++ t :: after → t.ref ∈ refs →
    ∀ name ∈ t.statement.reads, ∀ u, lastWriter? before name = some u → u ∈ refs

theorem WriterClosed.of_concat {refs : List Ref} {steps : List Step} {t : Step}
    (h : WriterClosed refs (steps ++ [t])) : WriterClosed refs steps :=
  fun before s after heq => h before s (after ++ [t]) (by simp [heq])

/-- The names whose last writer is kept have the same values after the slice as after all steps.
Induction on the steps: a kept step finds the same values, because the last writers of what it
reads are kept, and another one becomes the last writer of the names that it changes. -/
theorem run_slice {refs : List Ref} {steps : List Step} (hc : WriterClosed refs steps)
    (m : Meaning α) (env : Env α) {name : String}
    (hname : ∀ u, lastWriter? steps name = some u → u ∈ refs) :
    m.run (slice refs steps) env name = m.run steps env name := by
  induction steps using List.reverseRecOn generalizing name with
  | nil => rfl
  | append_singleton steps t ih =>
    have ih := @ih hc.of_concat
    rw [lastWriter?_concat] at hname
    rw [slice_concat, Meaning.run_concat]
    by_cases hd : name ∈ t.defined
    · have ht : t.ref ∈ refs := hname t.ref (by rw [if_pos hd])
      have hreads : ∀ read ∈ t.statement.reads,
          m.run (slice refs steps) env read = m.run steps env read :=
        fun read hr => ih (hc steps t [] rfl ht read hr)
      rw [if_pos ht, Meaning.run_concat]
      exact m.exec_congr hd hreads
    · rw [if_neg hd] at hname
      by_cases ht : t.ref ∈ refs <;> simp [ht, m.exec_of_not_mem _ hd, ih hname]

theorem seenAt_split (m : Meaning α) (env : Env α) {before after : List Step} {t : Step}
    (h : ∀ s ∈ before, s.ref ≠ t.ref) :
    m.seenAt (before ++ t :: after) env t.ref = m.run before env := by
  have htake : (before ++ t :: after).takeWhile (fun s => s.ref ≠ t.ref) = before := by
    rw [List.takeWhile_append_of_pos (by simpa using h)]
    simp
  rw [Meaning.seenAt, htake]

theorem Sorted.ref_ne {before after : List Step} {t : Step} (h : Sorted (before ++ t :: after)) :
    ∀ s ∈ before, s.ref ≠ t.ref := by
  intro s hs he
  have hb : Before s.ref t.ref := (List.pairwise_append.mp h).2.2 s hs t List.mem_cons_self
  exact not_before_self _ (he ▸ hb)

theorem writerClosed_dependencies {steps : List Step} (hs : Sorted steps) (refs : List Ref) :
    WriterClosed ((Graph.ofSteps steps).dependencies refs) steps := by
  intro before t after heq ht name hname u hu
  obtain ⟨s, hms, rfl, -⟩ := mem_of_lastWriter? hu
  have hr : HasReason (Graph.ofSteps steps).edges s.ref t.ref (.reads name) :=
    Graph.hasReason_ofSteps.mpr
      ⟨before, t, after, heq, rfl, hname, hu, Sorted.ref_ne (heq ▸ hs) s hms⟩
  exact Graph.sourceClosed_dependencies (Graph.wellFormed_ofSteps _) refs _ _ (.of_hasReason hr) ht

/-- Running only the dependencies of some statements, in the order of the log, each of them finds
the values for the names it reads that it finds when everything is run. The statements themselves
are among their dependencies. -/
theorem seenAt_slice_dependencies (h : History) (ok : h.Ordered) (m : Meaning α) (env : Env α)
    (refs : List Ref) :
    ∀ t ∈ h.steps, (t.ref ∈ refs → t.ref ∈ (Graph.ofHistory h).dependencies refs) ∧
      (t.ref ∈ (Graph.ofHistory h).dependencies refs → ∀ name ∈ t.statement.reads,
        m.seenAt (slice ((Graph.ofHistory h).dependencies refs) h.steps) env t.ref name =
          m.seenAt h.steps env t.ref name) := by
  intro t ht
  rw [Graph.ofHistory_eq]
  refine ⟨fun hr => Graph.mem_dependencies_of_mem hr (Graph.ref_mem_nodes_ofSteps ht), ?_⟩
  intro hkept name hname
  have hs := ok.sorted
  have hc := writerClosed_dependencies hs refs
  generalize (Graph.ofSteps h.steps).dependencies refs = kept at hkept hc ⊢
  obtain ⟨before, after, heq⟩ := List.append_of_mem ht
  rw [heq] at hs hc ⊢
  have hne : ∀ s ∈ slice kept before, s.ref ≠ t.ref := fun s hms =>
    hs.ref_ne s (List.mem_of_mem_filter hms)
  rw [slice_split before after hkept, seenAt_split m env hne, seenAt_split m env hs.ref_ne]
  refine run_slice (fun b s a hb => hc b s (a ++ t :: after) (by simp [hb])) m env fun u hu => ?_
  exact hc before t after rfl hkept name hname u hu

/-- The update at the end finds the value of the definition although the failed execution is
left out. -/
theorem seenAt_slice_guardedUpdate :
    guardedUpdate.Ordered ∧
      Meaning.seenAt (fun t _ _ => t.position + 7)
        (slice ((Graph.ofHistory guardedUpdate).dependencies [(3, 1)]) guardedUpdate.steps)
        (fun _ => 0) (3, 1) "x" =
      Meaning.seenAt (fun t _ _ => t.position + 7) guardedUpdate.steps (fun _ => 0) (3, 1) "x" :=
  have kept := seenAt_slice_dependencies guardedUpdate guardedUpdate_ordered
    (fun t _ _ => t.position + 7) (fun _ => 0) [(3, 1)]
    ⟨3, true, ⟨1, .statement, 2, 2, some 0, ["x"], ["x"], []⟩⟩ (by decide)
  ⟨guardedUpdate_ordered, kept.2 (kept.1 (by decide)) "x" (by decide)⟩

end NotebookSlice.Flow
