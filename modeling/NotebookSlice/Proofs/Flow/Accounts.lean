import NotebookSlice.Proofs.Flow.Forest
import NotebookSlice.Proofs.Flow.Visited

/-! # Units account for their code

A cell is split at compound statements, and each part is visited for a unit of its
own. Nothing is lost on the way: every mention in the cell is accounted for by a unit,
and a statement that is not split has one unit that accounts for all of it.
-/

namespace NotebookSlice.Flow

open Syntax

/-! ## Units -/

namespace Statement

/-- The unit writes the name of the module that the mention binds. -/
def Accounts (u : Statement) (m : Mention) : Prop :=
  m.isBinding = true → m.inBareTarget = false → (m.use = .handler → m.inMatch = false) →
    m.name ∈ u.writes

/-- The unit is that of the whole statement. -/
structure Reports (u : Statement) (t : Stmt) : Prop where
  kind : u.kind = .statement
  first : u.first = firstLine t
  last : u.last = max (firstLine t) t.span.last

/-- The unit reads each name that the statement loads where no region holds it. -/
def ReadsFree (u : Statement) (t : Stmt) : Prop :=
  ∀ before m after, mentionsStmt t = before ++ m :: after → m.use = .load →
    m.inBareTarget = false → Free (before.map (·.within [])) m.name m.regions → m.name ∈ u.reads

end Statement

/-- The name of a handler is bound by a nested region or in a `match` statement. -/
def HandlersApart (ms : List Mention) : Prop :=
  ∀ m ∈ ms, m.use = .handler → m.regions ≠ [] ∨ m.inMatch = true

theorem Plain.apart {ms : List Mention} (h : Plain ms) : HandlersApart ms :=
  fun m hm huse => absurd huse (h m hm).1

theorem HandlersApart.append {ms ms' : List Mention} (h : HandlersApart ms)
    (h' : HandlersApart ms') : HandlersApart (ms ++ ms') :=
  List.forall_mem_append.mpr ⟨h, h'⟩

theorem handlersApart_enclosed (kind : RegionKind) (params : List String) (ms : List Mention) :
    HandlersApart (enclosed kind params ms) := by
  rintro _ hmem -
  obtain ⟨m, -, rfl⟩ := List.mem_map.mp hmem
  exact Or.inl (by simp [Mention.under])

theorem handlersApart_matched (ms : List Mention) : HandlersApart (ms.map .matched) := by
  rintro _ hmem -
  obtain ⟨m, -, rfl⟩ := List.mem_map.mp hmem
  exact Or.inr rfl

theorem accounts_unit {ms : List Mention} {names : Names} (h : Covers [] ms .empty names)
    (hapart : HandlersApart ms) (kind : Kind) (first last : ℕ) (parent : Option ℕ) (index : ℕ)
    (body : List ℕ) :
    ∀ m ∈ ms, (unit kind first last parent index body names).Accounts m := by
  have hvisited := h.visited [] .nil fun m _ => ⟨by simp, by simp⟩
  intro m hm hbinding hbare hhandler
  refine hvisited.writes m hm hbare ?_
  rw [Mention.isBinding, Mention.isLocal, Bool.and_eq_true] at hbinding
  rw [Mention.BindsModule, List.append_nil]
  cases huse : m.use with
  | bind => exact Or.inl ⟨rfl, by simpa [huse] using hbinding⟩
  | walrus => exact Or.inr ⟨rfl, by simpa [huse] using hbinding⟩
  | handler =>
    have hregions : m.regions = [] := by simpa [huse] using hbinding
    rcases hapart m hm huse with h | h
    · exact absurd hregions h
    · rw [hhandler huse] at h
      cases h
  | _ => simp [huse] at hbinding

mutual

/-- The statements outside definitions that are not split. -/
def wholes : Stmt → List Stmt
  | .if _ _ body orelse => wholesAll body ++ wholesAll orelse
  | .while _ _ body orelse => wholesAll body ++ wholesAll orelse
  | .for _ _ _ _ body orelse => wholesAll body ++ wholesAll orelse
  | .with _ _ _ body => wholesAll body
  | .try _ _ body handlers orelse final =>
    wholesAll body ++ wholesHandlers handlers ++ wholesAll orelse ++ wholesAll final
  | s => [s]

def wholesAll : List Stmt → List Stmt
  | [] => []
  | s :: ss => wholes s ++ wholesAll ss

def wholesHandlers : List Handler → List Stmt
  | [] => []
  | .mk _ _ _ body :: hs => wholesAll body ++ wholesHandlers hs

end

/-- The units account for the mentions and report the statements. -/
structure Accounted (ms : List Mention) (ts : List Stmt) (us : List Statement) : Prop where
  mentions : ∀ m ∈ ms, ∃ u ∈ us, u.Accounts m
  wholes : ∀ t ∈ ts, ∃ u ∈ us, u.Reports t ∧ u.ReadsFree t

namespace Accounted

variable {ms ms' : List Mention} {ts ts' : List Stmt} {us us' : List Statement}

theorem nil (us : List Statement) : Accounted [] [] us := ⟨by simp, by simp⟩

theorem of_unit {u : Statement} (h : ∀ m ∈ ms, u.Accounts m) : Accounted ms [] [u] where
  mentions m hm := ⟨u, List.mem_cons_self, h m hm⟩
  wholes := by simp

theorem of_perm (h : Accounted ms ts us) (hperm : ms.Perm ms') : Accounted ms' ts us :=
  ⟨fun m hm => h.mentions m (hperm.mem_iff.mpr hm), h.wholes⟩

theorem append (h : Accounted ms ts us) (h' : Accounted ms' ts' us') :
    Accounted (ms ++ ms') (ts ++ ts') (us ++ us') where
  mentions m hm := by
    rcases List.mem_append.mp hm with hm | hm
    · obtain ⟨u, hu, hm⟩ := h.mentions m hm
      exact ⟨u, List.mem_append_left _ hu, hm⟩
    · obtain ⟨u, hu, hm⟩ := h'.mentions m hm
      exact ⟨u, List.mem_append_right _ hu, hm⟩
  wholes t ht := by
    rcases List.mem_append.mp ht with ht | ht
    · obtain ⟨u, hu, ht⟩ := h.wholes t ht
      exact ⟨u, List.mem_append_left _ hu, ht⟩
    · obtain ⟨u, hu, ht⟩ := h'.wholes t ht
      exact ⟨u, List.mem_append_right _ hu, ht⟩

theorem clauseUnits {lines : Option (List String)} {keyword : String} {after first : ℕ}
    {block : (owner next : ℕ) → Block} (h : ∀ owner next, Accounted ms ts (block owner next).2)
    (owner next : ℕ) :
    Accounted ms ts (clauseUnits lines keyword after first block owner next) := by
  unfold Flow.clauseUnits
  split
  · exact h owner next
  · exact (nil [_]).append (h next (next + 1))

theorem optional {lines : Option (List String)} {keyword : String} {after first : ℕ}
    {ss : List Stmt} {block : (owner next : ℕ) → Block}
    (h : ∀ owner next, Accounted (mentionsStmts ss) (wholesAll ss) (block owner next).2)
    (owner next : ℕ) :
    Accounted (mentionsStmts ss) (wholesAll ss)
      (if ss.isEmpty then []
        else Flow.clauseUnits lines keyword after first block owner next) := by
  split
  · rename_i hnil
    rw [List.isEmpty_iff.mp hnil]
    exact nil []
  · exact clauseUnits h owner next

end Accounted

/-! ## The walk -/

variable (c : Configuration) (lines : Option (List String))

/-- Outside compound statements other than `match` handlers occur in definitions only. -/
theorem handlersApart_mentionsStmt {t : Stmt}
    (hif : ∀ span test body orelse, t ≠ .if span test body orelse)
    (hwhile : ∀ span test body orelse, t ≠ .while span test body orelse)
    (hfor : ∀ span async target iter body orelse, t ≠ .for span async target iter body orelse)
    (hwith : ∀ span async items body, t ≠ .with span async items body)
    (htry : ∀ span group body handlers orelse final,
      t ≠ .try span group body handlers orelse final) : HandlersApart (mentionsStmt t) := by
  cases t with
  | «if» => exact absurd rfl (hif _ _ _ _)
  | «while» => exact absurd rfl (hwhile _ _ _ _)
  | «for» => exact absurd rfl (hfor _ _ _ _ _ _)
  | «with» => exact absurd rfl (hwith _ _ _ _)
  | «try» => exact absurd rfl (htry _ _ _ _ _ _)
  | functionDef | classDef =>
    rw [mentionsStmt]
    exact (Plain.apart (by simp)).append (handlersApart_enclosed _ _ _)
  | «match» =>
    rw [mentionsStmt]
    exact (Plain.apart (by simp)).append (handlersApart_matched _)
  | annAssign _ _ _ value _ =>
    cases value <;> exact Plain.apart (by simp [mentionsStmt])
  | «global» | «nonlocal» =>
    intro m hm huse
    obtain ⟨name, -, rfl⟩ := List.mem_map.mp hm
    cases huse
  | _ => exact Plain.apart (by simp [mentionsStmt])

theorem accounted_whole {t : Stmt} (hapart : HandlersApart (mentionsStmt t)) (parent : Option ℕ)
    (next : ℕ) : Accounted (mentionsStmt t) [t]
      [unit .statement (firstLine t) t.span.last parent next [] (visitStmt c t .empty)] := by
  have hcovers := (covers_visitRelation c).of_visitStmt [] t .empty
  refine ⟨fun m hm => ⟨_, List.mem_cons_self, accounts_unit hcovers hapart _ _ _ _ _ _ m hm⟩,
    fun t' ht' => ?_⟩
  obtain rfl := List.mem_singleton.mp ht'
  have hvisited := hcovers.visited [] .nil fun m _ => ⟨by simp, by simp⟩
  refine ⟨_, List.mem_cons_self, ⟨rfl, rfl, rfl⟩, fun before m after heq hload hbare hfree => ?_⟩
  exact hvisited.reads before m after heq hload hbare (by simpa using hfree)

theorem accounted_header {ms : List Mention} {names : Names} (h : Covers [] ms .empty names)
    (hms : Plain ms) (first last : ℕ) (parent : Option ℕ) (index : ℕ) (body : List ℕ) :
    Accounted ms [] [unit .header first last parent index body names] :=
  .of_unit (accounts_unit h hms.apart .header first last parent index body)

theorem accounted_handler (type : Option Expr) (id : Option String) (first last : ℕ)
    (parent : Option ℕ) (index : ℕ) (body : List ℕ) :
    Accounted (mentionsOption type ++ id.toList.map (.of .handler)) []
      [unit .header first last parent index body
        (match id with
          | some id => (visitOption c type .empty).addWrite id
          | none => visitOption c type .empty)] := by
  have htype := (covers_visitRelation c).of_visitOption [] type .empty
  cases id with
  | none =>
    rw [Option.toList_none, List.map_nil, List.append_nil]
    exact accounted_header htype (by simp) ..
  | some id =>
    refine .of_unit fun m hm => ?_
    rcases List.mem_append.mp hm with hm | hm
    · have hm := accounts_unit htype (Plain.apart (by simp)) .header first last parent index
        body m hm
      exact fun h1 h2 h3 => List.mem_insert_of_mem (hm h1 h2 h3)
    · obtain rfl : m = .of .handler id := by simpa using hm
      exact fun _ _ _ => List.mem_insert_self ..

theorem accounted_walk_all :
    (∀ s parent next, Accounted (mentionsStmt s) (wholes s) (walk c lines s parent next)) ∧
    (∀ hs owner next, Accounted (mentionsHandlers hs) (wholesHandlers hs)
      (walkHandlers c lines hs owner next)) ∧
    (∀ ss owner next, Accounted (mentionsStmts ss) (wholesAll ss)
      (walkBlock c lines ss owner next).2) ∧
    (∀ body ss owner next, Accounted (mentionsStmts ss) (wholesAll ss)
      (walkElse c lines body ss owner next)) := by
  apply walk.mutual_induct
  case case1 | case2 =>
    intro span test body orelse parent next ids units heq hblock helse
    rw [heq] at hblock
    have htest := (covers_visitRelation c).of_visit [] test .empty
    have hheader := accounted_header htest (by simp) span.first (blockFirst body - 1) parent next ids
    simp only [walk, heq]
    exact (hheader.append hblock).append helse
  case case3 =>
    intro span async target iter body orelse parent next ids units heq hblock helse
    rw [heq] at hblock
    have hnames := ((covers_visitRelation c).of_visit [] iter .empty).trans
      ((covers_visitRelation c).of_visit [] target _)
    have hheader := (accounted_header hnames (by simp) span.first (blockFirst body - 1) parent next
      ids).of_perm List.perm_append_comm
    simp only [walk, heq]
    exact (hheader.append hblock).append helse
  case case4 =>
    intro span async items body parent next ids units heq hblock
    rw [heq] at hblock
    have hitems := (covers_visitRelation c).of_visitItems [] items .empty
    have hheader := accounted_header hitems (by simp) span.first (blockFirst body - 1) parent next
      ids
    simp only [walk, heq]
    exact hheader.append hblock
  case case5 =>
    intro span group body handlers orelse final parent next ids units heq hblock hhandlers
      helse hfinal
    rw [heq] at hblock
    have hheader := accounted_header (.refl [] .empty) (by simp) span.first (blockFirst body - 1)
      parent next ids
    simp only [walk, heq]
    exact (((hheader.append hblock).append hhandlers).append (.optional helse _ _)).append
      (.optional hfinal _ _)
  case case6 =>
    intro s parent next hif hwhile hfor hwith htry
    rw [walk.eq_6 _ _ _ _ _ hif hwhile hfor hwith htry]
    rw [wholes.eq_6 _ hif hwhile hfor hwith htry]
    exact accounted_whole c (handlersApart_mentionsStmt hif hwhile hfor hwith htry) parent next
  case case7 =>
    intro owner next
    exact .nil _
  case case8 =>
    intro s ss owner next walked ids units heq hs hss
    simp only [walkBlock]
    exact hs.append hss
  case case9 =>
    intro body owner next
    exact .nil _
  case case10 =>
    intro body s ss owner next hs hss
    simp only [walkElse]
    refine .clauseUnits (fun owner next => ?_) owner next
    exact (hs owner next).append (hss owner next)
  case case11 =>
    intro owner next
    exact .nil _
  case case12 =>
    intro span type id body hs owner next ids units heq hblock hhandlers
    rw [heq] at hblock
    have hheader := accounted_handler c type id span.first (blockFirst body - 1) (some owner) next
      ids
    simp only [walkHandlers, heq]
    exact (hheader.append hblock).append hhandlers

theorem accounted_walkAll (ss : List Stmt) (next : ℕ) :
    Accounted (mentionsStmts ss) (wholesAll ss) (walkAll c lines ss next) := by
  induction ss generalizing next with
  | nil => exact .nil _
  | cons s ss ih => exact ((accounted_walk_all c lines).1 s none next).append (ih _)

theorem exists_accounted {text : String} {code : Code} (h : Code.ofText text = .ok code) :
    ∃ a, analyzeCell c text = .ok a ∧
      Accounted (mentionsStmts code.statements) (wholesAll code.statements) a.statements :=
  ⟨_, analyzeCell_eq_ok.mpr ⟨code, h, rfl⟩, accounted_walkAll c _ code.statements 0⟩

end NotebookSlice.Flow
