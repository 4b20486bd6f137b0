import NotebookSlice.Proofs.Flow.Accounts
import NotebookSlice.Proofs.Flow.Scoping

/-! # Names of the module

The scoping rules of the language tell which loads in a definition are loads of
names of the module, and which names a cell binds there. A visit keeps flat lists of
names instead. So the names of a class body hide those of the module in its methods
too, a global declaration does not uncover what a function around it hides, and
private names of a class are left as they are spelled.
-/

namespace NotebookSlice.Flow

open Syntax

/-! ## Loads in definitions -/

/-- Each statement that is not split, such as a definition outside others, has a unit of its own. It
reads each name that is loaded in the statement, at any depth of functions, classes, lambdas and
comprehensions, and that belongs to the module. Three kinds of loads can be missed: of a private
name of a class, which is read as it is spelled; in the target of an annotation without a value; and
of a name that a passed-over region has, where a name that the region itself declares global is only
lost once it was bound there. -/
theorem reads_of_isGlobal {text : String} {code : Code} (hcode : Code.ofText text = .ok code)
    (c : Configuration) : ∃ a, analyzeCell c text = .ok a ∧
      ∀ t ∈ wholesAll code.statements, ∃ u ∈ a.statements, u.Reports t ∧
        ∀ before m after, mentionsStmt t = before ++ m :: after → m.use = .load →
          m.isGlobal = true →
            m.referent ∈ u.reads ∨ m.referent ≠ m.name ∧ m.name ∈ u.reads ∨
              m.inBareTarget = true ∨ m.Shadowed before := by
  obtain ⟨a, ha, haccounted⟩ := exists_accounted c hcode
  refine ⟨a, ha, fun t ht => ?_⟩
  obtain ⟨u, hu, hreports, hreads⟩ := haccounted.wholes t ht
  refine ⟨u, hu, hreports, fun before m after heq hload hglobal => ?_⟩
  cases hbare : m.inBareTarget with
  | true => exact Or.inr (Or.inr (Or.inl rfl))
  | false =>
    by_cases hfree : Free (before.map (·.within [])) m.name m.regions
    · have hread := hreads before m after heq hload hbare hfree
      by_cases hspelled : m.referent = m.name
      · exact Or.inl (hspelled ▸ hread)
      · exact Or.inr (Or.inl ⟨hspelled, hread⟩)
    · rw [Free] at hfree
      push Not at hfree
      obtain ⟨inner, r, outer, hregions, hheld⟩ := hfree
      exact Or.inr (Or.inr (Or.inr
        (Mention.shadowed_of_isGlobal hglobal hregions (held_of_within hheld))))

theorem exists_code {text : String} {p : Code → Bool}
    (h : (Code.ofText text).toOption.any p = true) :
    ∃ code, Code.ofText text = .ok code ∧ p code = true := by
  cases hcode : Code.ofText text with
  | error r => simp [hcode, Except.toOption] at h
  | ok code => exact ⟨code, rfl, by simpa [hcode, Except.toOption] using h⟩

/-- The names of the module that are loaded in the statements. -/
def globalLoads (ts : List Stmt) : List String :=
  ((mentionsStmts ts).filter fun m => m.use == .load && m.isGlobal).map (·.referent)

def globalCounter : String :=
  "class A:\n    def f(self, a):\n        global n\n        n += a + k + __p"

theorem reads_of_isGlobal_counter :
    ∃ code, Code.ofText globalCounter = .ok code ∧
      globalLoads (wholesAll code.statements) = ["n", "k", "_A__p"] ∧
      ∃ a, analyzeCell .empty globalCounter = .ok a ∧
        ∀ t ∈ wholesAll code.statements, ∃ u ∈ a.statements, u.Reports t ∧
          ∀ before m after, mentionsStmt t = before ++ m :: after → m.use = .load →
            m.isGlobal = true →
              m.referent ∈ u.reads ∨ m.referent ≠ m.name ∧ m.name ∈ u.reads ∨
                m.inBareTarget = true ∨ m.Shadowed before := by
  obtain ⟨code, hcode, hloads⟩ := exists_code
    (p := fun code => globalLoads (wholesAll code.statements) = ["n", "k", "_A__p"])
    (show (Code.ofText globalCounter).toOption.any _ = true by decide +kernel)
  exact ⟨code, hcode, of_decide_eq_true hloads, reads_of_isGlobal hcode .empty⟩

/-- A method that loads a name of the module, which the class binds too. -/
def hiddenByClass : String := "class A:\n    x = 1\n    def f(self):\n        return x"

/-- No unit reads the name, although the method does not see the names of its class. -/
theorem not_reads_of_isGlobal : ¬ ∀ (c : Configuration) (text : String) (code : Code)
    (a : Analysis), Code.ofText text = .ok code → code.diagnostics = [] →
    analyzeCell c text = .ok a → ∀ t ∈ wholesAll code.statements,
      t.form ∈ ["FunctionDef", "AsyncFunctionDef", "ClassDef"] →
      ∃ u ∈ a.statements, u.Reports t ∧
        ∀ m ∈ mentionsStmt t, m.use = .load → m.isGlobal = true → m.referent ∈ u.reads := by
  intro hall
  obtain ⟨code, hcode, hrun⟩ := exists_code (p := fun code => decide (code.diagnostics = []) &&
      (analyze .empty code.statements (some hiddenByClass)).all (·.reads = []) &&
      (wholesAll code.statements).any fun t => t.form = "ClassDef" &&
        (mentionsStmt t).any fun m => m.use = .load && m.isGlobal)
    (show (Code.ofText hiddenByClass).toOption.any _ = true by decide +kernel)
  simp only [Bool.and_eq_true, decide_eq_true_eq, List.any_eq_true, List.all_eq_true] at hrun
  obtain ⟨⟨hparses, hreads⟩, t, ht, hclass, m, hm, hload, hglobal⟩ := hrun
  obtain ⟨u, hu, -, hmentions⟩ := hall .empty _ code _ hcode hparses
    (analyzeCell_eq_ok.mpr ⟨code, hcode, rfl⟩) t ht (by simp [hclass])
  have hread := hmentions m hm hload hglobal
  rw [hreads u hu] at hread
  cases hread

/-! ## Bindings in the module -/

/-- Whatever the rules, each name that a cell can bind or delete in the module, outside bodies of
functions and classes, is written by a unit. Two kinds of bindings can be missed: names of handlers
in a `match` statement, and names in the target of an annotation without a value, which only `:=`
can bind there. A star import binds names that are not mentioned. -/
theorem writes_of_isBinding {text : String} {code : Code} (hcode : Code.ofText text = .ok code)
    (c : Configuration) : ∃ a, analyzeCell c text = .ok a ∧
      ∀ m ∈ mentionsStmts code.statements, m.isBinding = true →
        (∃ u ∈ a.statements, m.name ∈ u.writes) ∨ m.use = .handler ∧ m.inMatch = true ∨
          m.inBareTarget = true := by
  obtain ⟨a, ha, haccounted⟩ := exists_accounted c hcode
  refine ⟨a, ha, fun m hm hbinding => ?_⟩
  obtain ⟨u, hu, haccounts⟩ := haccounted.mentions m hm
  cases hbare : m.inBareTarget with
  | true => exact Or.inr (Or.inr rfl)
  | false =>
    by_cases hlost : m.use = .handler ∧ m.inMatch = true
    · exact Or.inr (Or.inl hlost)
    · refine Or.inl ⟨u, hu, haccounts hbinding hbare fun huse => ?_⟩
      rw [Bool.eq_false_iff]
      exact fun hmatch => hlost ⟨huse, hmatch⟩

/-- The names that the statements can bind or delete in the module. -/
def boundNames (ts : List Stmt) : List String :=
  ((mentionsStmts ts).filter (·.isBinding)).map (·.name)

/-- A cell that binds names in blocks, by a handler, and by `:=` in a comprehension. -/
def variedBindings : String :=
  "for i in xs:\n    try: k = [y := x for x in i]\n    except E as e: del k"

theorem writes_of_isBinding_varied :
    ∃ code, Code.ofText variedBindings = .ok code ∧
      boundNames code.statements = ["i", "k", "y", "e", "k"] ∧
      ∃ a, analyzeCell .empty variedBindings = .ok a ∧
        ∀ m ∈ mentionsStmts code.statements, m.isBinding = true →
          (∃ u ∈ a.statements, m.name ∈ u.writes) ∨ m.use = .handler ∧ m.inMatch = true ∨
            m.inBareTarget = true := by
  obtain ⟨code, hcode, hbound⟩ := exists_code
    (p := fun code => boundNames code.statements = ["i", "k", "y", "e", "k"])
    (show (Code.ofText variedBindings).toOption.any _ = true by decide +kernel)
  exact ⟨code, hcode, of_decide_eq_true hbound, writes_of_isBinding hcode .empty⟩

/-- A `match` statement whose case catches an exception by a name. -/
def handlerInMatch : String :=
  "match v:\n    case 0:\n        try:\n            pass\n" ++
    "        except ValueError as e:\n            pass"

/-- The name of a handler in a `match` statement is written by no unit. -/
theorem not_writes_of_isBinding : ¬ ∀ (c : Configuration) (text : String) (code : Code)
    (a : Analysis), Code.ofText text = .ok code → code.diagnostics = [] →
    analyzeCell c text = .ok a → ∀ m ∈ mentionsStmts code.statements, m.isBinding = true →
      ∃ u ∈ a.statements, m.name ∈ u.writes := by
  intro hall
  obtain ⟨code, hcode, hrun⟩ := exists_code (p := fun code => decide (code.diagnostics = []) &&
      (analyze .empty code.statements (some handlerInMatch)).all (·.writes = []) &&
      (mentionsStmts code.statements).any (·.isBinding))
    (show (Code.ofText handlerInMatch).toOption.any _ = true by decide +kernel)
  simp only [Bool.and_eq_true, decide_eq_true_eq, List.any_eq_true, List.all_eq_true] at hrun
  obtain ⟨⟨hparses, hwrites⟩, m, hm, hbinding⟩ := hrun
  obtain ⟨u, hu, hwritten⟩ := hall .empty _ code _ hcode hparses
    (analyzeCell_eq_ok.mpr ⟨code, hcode, rfl⟩) m hm hbinding
  rw [hwrites u hu] at hwritten
  cases hwritten

end NotebookSlice.Flow
