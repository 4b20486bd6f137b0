import NotebookSlice.Proofs.Flow.Proper
import NotebookSlice.Proofs.Log.Legality

/-! # What a closure contains

The closure of an entry has the sources of its members and something of each of
their blocks. Nothing else is in it: all members are dependencies of the entry or
of a block that was added as a whole, because its header or clause was needed.
-/

namespace NotebookSlice

open NotebookSlice.Flow

theorem Flow.proper_of_analyzeCell {c : Configuration} {text : String} {a : Analysis}
    (h : analyzeCell c text = .ok a) : ProperUnits a.statements := by
  obtain ⟨code, hcode, rfl⟩ := analyzeCell_eq_ok.mp h
  exact proper_analyze c (Code.legal_of_ofText hcode) _

namespace Log

variable {log : Log} {included : List Ref} {e : Entry} {r : Ref}

def block (log : Log) (r : Ref) : List Ref :=
  ((log.statement? r).map Statement.body).getD [] |>.map fun i => (r.1, i)

theorem mem_block {q : Ref} : q ∈ log.block r ↔
    ∃ s, log.statement? r = some s ∧ ∃ i ∈ s.body, q = (r.1, i) := by
  rw [block]
  cases log.statement? r <;> simp [eq_comm]

theorem block_ne_nil_iff : log.block r ≠ [] ↔ ∃ s, log.statement? r = some s ∧ s.body ≠ [] := by
  rw [block]
  cases log.statement? r <;> simp

/-- The included headers and clauses of whose blocks nothing is included. -/
def bare (log : Log) (included : List Ref) : List Ref :=
  included.filter fun r =>
    !(log.block r).isEmpty && (log.block r).all fun q => !included.contains q

theorem mem_bare : r ∈ log.bare included ↔
    r ∈ included ∧ log.block r ≠ [] ∧ ∀ q ∈ log.block r, q ∉ included := by
  simp [bare]

theorem mem_missing_iff_mem_blocks : r ∈ log.missing included ↔
    r ∈ (log.bare included).flatMap log.block := by
  simp only [mem_missing, List.mem_flatMap, mem_bare]
  constructor
  · rintro ⟨ref, href, s, hs, hno, hr⟩
    have hmem : r ∈ log.block ref := mem_block.mpr ⟨s, hs, hr⟩
    refine ⟨ref, ⟨href, List.ne_nil_of_mem hmem, fun q hq => ?_⟩, hmem⟩
    obtain ⟨t, ht, i, hi, rfl⟩ := mem_block.mp hq
    obtain rfl := Option.some.inj (hs.symm.trans ht)
    exact hno i hi
  · rintro ⟨ref, ⟨href, -, hno⟩, hmem⟩
    obtain ⟨s, hs, hr⟩ := mem_block.mp hmem
    exact ⟨ref, href, s, hs, fun i hi => hno _ (mem_block.mpr ⟨s, hs, i, hi, rfl⟩), hr⟩

/-- The places are the dependencies of an entry and of the whole blocks of some headers and clauses
among them. -/
structure Justified (log : Log) (e : Entry) (heads included : List Ref) : Prop where
  subset : heads ⊆ included
  block_ne_nil : ∀ r ∈ heads, log.block r ≠ []
  mem_iff : ∀ r, r ∈ included ↔ r ∈ log.graph.dependencies (e.refs ++ heads.flatMap log.block)

namespace Sound

variable (h : log.Sound)
include h

theorem proper (he : e ∈ log.entries) : ProperUnits e.statements :=
  proper_of_analyzeCell (h.analysed e he)

theorem block_ne_nil_iff_kind :
    log.block r ≠ [] ↔ ∃ s, log.statement? r = some s ∧ s.kind ≠ .statement := by
  rw [block_ne_nil_iff]
  refine exists_congr fun s => and_congr_right fun hs => ?_
  obtain ⟨f, hf, hsf, -⟩ := h.statement?_eq_some_iff.mp hs
  exact (h.proper hf s hsf).body_eq_nil_iff.not

/-- A round adds the blocks of bare headers and clauses, with their dependencies. -/
theorem justified_extend {heads : List Ref} (hj : log.Justified e heads included) :
    log.Justified e (heads ++ log.bare included) (log.extend included) where
  subset r hr := by
    refine mem_extend.mpr (Or.inl ?_)
    exact (List.mem_append.mp hr).elim (hj.subset ·) fun hbare => (mem_bare.mp hbare).1
  block_ne_nil r hr :=
    (List.mem_append.mp hr).elim (hj.block_ne_nil r) fun hbare => (mem_bare.mp hbare).2.1
  mem_iff r := by
    have hmissing : r ∈ log.graph.dependencies (log.missing included) ↔
        r ∈ log.graph.dependencies ((log.bare included).flatMap log.block) := by
      simp only [Graph.mem_dependencies_iff h.wellFormed, mem_missing_iff_mem_blocks]
    rw [mem_extend, hj.mem_iff, hmissing, List.flatMap_append, ← List.append_assoc]
    exact (Graph.mem_dependencies_append h.wellFormed).symm

theorem exists_justified_closure : ∃ heads, log.Justified e heads (log.closure e) := by
  refine complete_induction (P := fun all => ∃ heads, log.Justified e heads all) ?_ ?_ _
  · rintro included ⟨heads, hj⟩ -
    exact ⟨_, h.justified_extend hj⟩
  · exact ⟨[], by simp, by simp, by simp⟩

theorem mem_closure_of_governs {u v : Ref} (hv : v ∈ log.closure e)
    (hpath : Relation.TransGen log.history.Governs u v) : u ∈ log.closure e := by
  have hstep (u v : Ref) (hg : log.history.Governs u v) (hv : v ∈ log.closure e) :
      u ∈ log.closure e := by
    refine h.sourceClosed_closure u v (.of_hasReason (r := .governed) ?_) hv
    rwa [h.graph_eq, hasReason_governed_iff]
  induction hpath using Relation.TransGen.head_induction_on with
  | single hg => exact hstep _ _ hg hv
  | head hg _ ih => exact hstep _ _ hg ih

/-- The last writer of a name that a needed statement reads is needed. -/
theorem mem_closure_of_reads {name : String} {u v : Ref} (hv : v ∈ log.closure e)
    (hread : log.history.Reads name v) (hlast : log.history.LastWriter name u v) :
    u ∈ log.closure e := by
  refine h.sourceClosed_closure u v (.of_hasReason (r := .reads name) ?_) hv
  rw [h.graph_eq, hasReason_reads_iff h.ordered]
  exact ⟨hread, hlast⟩

end Sound

end Log

/-- What the closure of an entry contains. The statements of the entry are in it, and with a
statement all that it depends on, which is what encloses it and the last writer of each name that
it reads. With a header or clause something of its block is in it. And it is exactly what the
entry depends on together with the whole blocks of some of its headers and clauses. -/
theorem Session.closure_exact {session : Session} (h : session.Reachable) {e : Entry}
    (he : e ∈ session.log.entries) :
    e.refs ⊆ session.log.closure e ∧
    (∀ u v, session.log.graph.Feeds u v → v ∈ session.log.closure e →
      u ∈ session.log.closure e) ∧
    (∀ v ∈ session.log.closure e,
      (∀ u, Relation.TransGen session.log.history.Governs u v → u ∈ session.log.closure e) ∧
      ∀ name u, session.log.history.Reads name v → session.log.history.LastWriter name u v →
        u ∈ session.log.closure e) ∧
    (∀ r ∈ session.log.closure e, ∃ s, session.log.statement? r = some s ∧
      (s.kind ≠ .statement → ∃ i ∈ s.body, (r.1, i) ∈ session.log.closure e)) ∧
    ∃ heads : List Ref, heads ⊆ session.log.closure e ∧
      (∀ r ∈ heads, ∃ s, session.log.statement? r = some s ∧ s.kind ≠ .statement) ∧
      ∀ r, r ∈ session.log.closure e ↔
        r ∈ session.log.graph.dependencies (e.refs ++ heads.flatMap session.log.block) := by
  have hsound := h.log.sound
  refine ⟨hsound.refs_subset_closure he, hsound.sourceClosed_closure, fun v hv =>
    ⟨fun u => hsound.mem_closure_of_governs hv, fun name u => hsound.mem_closure_of_reads hv⟩,
    fun r hr => ?_, ?_⟩
  · obtain ⟨s, hs⟩ := hsound.mem_nodes.mp (hsound.closure_subset_nodes hr)
    refine ⟨s, hs, fun hkind => hsound.exists_body_mem_closure hr hs ?_⟩
    obtain ⟨t, ht, hbody⟩ :=
      Log.block_ne_nil_iff.mp (hsound.block_ne_nil_iff_kind.mpr ⟨s, hs, hkind⟩)
    exact Option.some.inj (hs.symm.trans ht) ▸ hbody
  · obtain ⟨heads, hj⟩ := hsound.exists_justified_closure (e := e)
    exact ⟨heads, hj.subset, fun r hr => hsound.block_ne_nil_iff_kind.mp (hj.block_ne_nil r hr),
      hj.mem_iff⟩

/-- The second cell needs the `else` part only, but the `if` does not stand without a block. -/
theorem closure_exact_otherBranch : ∃ session : Session, session.Reachable ∧
    ∃ e ∈ session.log.entries, session.log.closure e = [(1, 0), (0, 3), (0, 2), (0, 0), (0, 1)] ∧
      ∃ heads : List Ref, heads ⊆ session.log.closure e ∧
        (∀ r ∈ heads, ∃ s, session.log.statement? r = some s ∧ s.kind ≠ .statement) ∧
        ∀ r, r ∈ session.log.closure e ↔
          r ∈ session.log.graph.dependencies (e.refs ++ heads.flatMap session.log.block) := by
  obtain ⟨session, h, hclosures⟩ := Session.exists_of_postAll
    [.counted 1 "if True:\n    a = 1\nelse:\n    b = 2", .counted 2 "print(b)"]
    (p := fun log => (log.entries.map log.closure).getLast? =
      some [(1, 0), (0, 3), (0, 2), (0, 0), (0, 1)])
    (by decide +kernel)
  obtain ⟨e, he, hclosure⟩ := List.mem_map.mp (List.mem_of_getLast? hclosures)
  exact ⟨session, h, e, he, hclosure, (Session.closure_exact h he).2.2.2.2⟩

end NotebookSlice
