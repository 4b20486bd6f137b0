import NotebookSlice.Proofs.Flow.OverrideUnits
import NotebookSlice.Proofs.Flow.Part
import NotebookSlice.Proofs.Pairs

/-! # Edges under more rules become paths

A statement that no longer writes a name leaves it to an earlier writer. But it
reads the name, and so it already depended on that writer, if only by a chain of
others of its kind: what is an edge under more rules was a path before.
-/

namespace NotebookSlice.Flow

theorem before_wellFounded : WellFounded Before :=
  Subrelation.wf (fun h => Prod.lex_def.mpr h) (wellFounded_lt.prod_lex wellFounded_lt)

namespace Statement.Overridden

variable {s t : Statement} (h : s.Overridden t)
include h

theorem index_eq : t.index = s.index := by rw [h.eq]

theorem parent_eq : t.parent = s.parent := by rw [h.eq]

theorem reads_eq : t.reads = s.reads := by rw [h.eq]

end Statement.Overridden

/-- The same step with an overridden statement. -/
structure Step.Overridden (t t' : Step) : Prop where
  position : t'.position = t.position
  defines : t'.defines = t.defines
  statement : t.statement.Overridden t'.statement

theorem Step.Overridden.ref_eq {t t' : Step} (h : t.Overridden t') : t'.ref = t.ref :=
  Prod.ext h.position h.statement.index_eq

namespace History

abbrev Overridden (h h' : History) : Prop := List.Forall₂ Step.Overridden h.steps h'.steps

namespace Overridden

variable {h h' : History} (hov : h.Overridden h') {name : String} {u v : Ref}
include hov

theorem reads (hread : h'.Reads name v) : h.Reads name v := by
  obtain ⟨t', ht', rfl, hname⟩ := reads_iff.mp hread
  obtain ⟨t, ht, htt⟩ := exists_of_mem_right hov ht'
  exact reads_iff.mpr ⟨t, ht, htt.ref_eq, htt.statement.reads_eq ▸ hname⟩

theorem governs (hgoverns : h'.Governs u v) : h.Governs u v := by
  obtain ⟨t', ht', rfl, p, hp, rfl⟩ := governs_iff.mp hgoverns
  obtain ⟨t, ht, htt⟩ := exists_of_mem_right hov ht'
  exact governs_iff.mpr ⟨t, ht, htt.ref_eq, p, htt.statement.parent_eq ▸ hp,
    Prod.ext htt.position rfl⟩

theorem writes (hwrites : h'.Writes name u) : h.Writes name u := by
  obtain ⟨t', ht', rfl, hname⟩ := writes_iff.mp hwrites
  obtain ⟨t, ht, htt⟩ := exists_of_mem_right hov ht'
  refine writes_iff.mpr ⟨t, ht, htt.ref_eq.symm, ?_⟩
  rw [Step.defined, htt.defines, List.mem_ite_nil_right] at hname
  exact List.mem_ite_nil_right.mpr ⟨hname.1, htt.statement.writes hname.2⟩

theorem dropped (hwrites : h.Writes name u) : h'.Writes name u ∨ h.Reads name u := by
  obtain ⟨t, ht, rfl, hname⟩ := writes_iff.mp hwrites
  obtain ⟨t', ht', htt⟩ := exists_of_mem_left hov ht
  rw [Step.defined, List.mem_ite_nil_right] at hname
  refine (htt.statement.dropped name hname.2).imp (fun hwritten => ?_) fun hread =>
    reads_iff.mpr ⟨t, ht, rfl, hread⟩
  refine writes_iff.mpr ⟨t', ht', htt.ref_eq, ?_⟩
  rw [Step.defined, htt.defines, List.mem_ite_nil_right]
  exact ⟨hname.1, hwritten⟩

/-- From the last writer under more rules a path leads to the reader. The last writer before them
is that one, or a statement that only reads the name now and has the same last writer. -/
theorem path_of_lastWriter (ok : h.Ordered) (hread : h.Reads name v)
    (hlast : h'.LastWriter name u v) : Relation.TransGen (Graph.ofHistory h).Feeds u v := by
  induction v using before_wellFounded.induction with
  | _ v ih =>
    obtain ⟨hwrites, hb, hmax⟩ := hlast
    obtain ⟨w, hw⟩ := exists_lastWriter ok (hov.writes hwrites) hb
    have hfeeds : (Graph.ofHistory h).Feeds w v :=
      .of_hasReason ((hasReason_reads_iff ok).mpr ⟨hread, hw⟩)
    rcases hw.2.2 u (hov.writes hwrites) hb with rfl | hbw
    · exact .single hfeeds
    · have hnot : ¬ h'.Writes name w := by
        intro hwritten
        rcases hmax w hwritten hw.2.1 with rfl | hbu
        · exact not_before_self _ hbw
        · exact hbw.asymm hbu
      have hreadw := (hov.dropped hw.1).resolve_left hnot
      exact .tail (ih w hw.2.1 hreadw ⟨hwrites, hbw, fun x hx hxw => hmax x hx (hxw.trans hw.2.1)⟩)
        hfeeds

theorem path_of_feeds (ok : h.Ordered) (ok' : h'.Ordered) (hfeeds : (Graph.ofHistory h').Feeds u v) :
    Relation.TransGen (Graph.ofHistory h).Feeds u v := by
  have hwf : (Graph.ofHistory h').WellFormed := Graph.ofHistory_eq h' ▸ Graph.wellFormed_ofSteps _
  obtain ⟨r, hr⟩ := hfeeds.exists_hasReason hwf
  cases r with
  | governed =>
    exact .single (.of_hasReason (hasReason_governed_iff.mpr
      (hov.governs (hasReason_governed_iff.mp hr))))
  | reads name =>
    obtain ⟨hread, hlast⟩ := (hasReason_reads_iff ok').mp hr
    exact hov.path_of_lastWriter ok (hov.reads hread) hlast

end Overridden

end History

end NotebookSlice.Flow
