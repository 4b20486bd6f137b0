import NotebookSlice.Syntax.Tree

/-! # Legal statements

What the grammar demands of statements beyond the shape of the tree: no block is
empty, and a `try` has handlers, or a `finally` part and nothing else. The parser
returns its statements together with the proof that they are legal.
-/

namespace NotebookSlice.Syntax

def Stmt.isSimple : Stmt → Bool
  | .functionDef .. | .classDef .. | .for .. | .while .. | .if .. | .with .. | .match ..
  | .try .. => false
  | _ => true

def Case.body : Case → List Stmt
  | mk _ _ b => b

inductive Stmt.Legal : Stmt → Prop
  | simple {s : Stmt} : s.isSimple = true → Legal s
  | functionDef {span : Span} {async : Bool} {name : String} {params : Params} {body : List Stmt}
      {decorators : List Expr} {returns : Option Expr} :
      body ≠ [] → (∀ s ∈ body, Legal s) →
      Legal (.functionDef span async name params body decorators returns)
  | classDef {span : Span} {name : String} {bases : List Expr} {keywords : List Argument}
      {body : List Stmt} {decorators : List Expr} :
      body ≠ [] → (∀ s ∈ body, Legal s) →
      Legal (.classDef span name bases keywords body decorators)
  | for {span : Span} {async : Bool} {target iter : Expr} {body orelse : List Stmt} :
      body ≠ [] → (∀ s ∈ body, Legal s) → (∀ s ∈ orelse, Legal s) →
      Legal (.for span async target iter body orelse)
  | while {span : Span} {test : Expr} {body orelse : List Stmt} :
      body ≠ [] → (∀ s ∈ body, Legal s) → (∀ s ∈ orelse, Legal s) →
      Legal (.while span test body orelse)
  | if {span : Span} {test : Expr} {body orelse : List Stmt} :
      body ≠ [] → (∀ s ∈ body, Legal s) → (∀ s ∈ orelse, Legal s) →
      Legal (.if span test body orelse)
  | with {span : Span} {async : Bool} {items : List WithItem} {body : List Stmt} :
      body ≠ [] → (∀ s ∈ body, Legal s) → Legal (.with span async items body)
  | match {span : Span} {subject : Expr} {cases : List Case} :
      cases ≠ [] → (∀ c ∈ cases, c.body ≠ []) → (∀ c ∈ cases, ∀ s ∈ c.body, Legal s) →
      Legal (.match span subject cases)
  | try {span : Span} {group : Bool} {body : List Stmt} {handlers : List Handler}
      {orelse final : List Stmt} :
      body ≠ [] → (∀ s ∈ body, Legal s) →
      (∀ h ∈ handlers, h.body ≠ []) → (∀ h ∈ handlers, ∀ s ∈ h.body, Legal s) →
      (∀ s ∈ orelse, Legal s) → (∀ s ∈ final, Legal s) →
      (handlers ≠ [] ∨ orelse = [] ∧ final ≠ []) →
      Legal (.try span group body handlers orelse final)

abbrev LegalStmt := { s : Stmt // s.Legal }

abbrev LegalStmts := { ss : List Stmt // ∀ s ∈ ss, s.Legal }

abbrev LegalHandler := { h : Handler // h.body ≠ [] ∧ ∀ s ∈ h.body, s.Legal }

abbrev LegalCase := { c : Case // c.body ≠ [] ∧ ∀ s ∈ c.body, s.Legal }

structure Suite where
  statements : List Stmt
  nonempty : statements ≠ []
  legal : ∀ s ∈ statements, s.Legal

namespace Suite

def ofStmts (first : LegalStmt) (more : List LegalStmt) : Suite where
  statements := first.val :: more.map Subtype.val
  nonempty := List.cons_ne_nil _ _
  legal s hs := by
    rcases List.mem_cons.mp hs with rfl | hs
    · exact first.property
    · obtain ⟨t, -, rfl⟩ := List.mem_map.mp hs
      exact t.property

def flatten (first : Suite) (more : List Suite) : Suite where
  statements := first.statements ++ more.flatMap statements
  nonempty := List.append_ne_nil_of_left_ne_nil first.nonempty _
  legal s hs := by
    rcases List.mem_append.mp hs with hs | hs
    · exact first.legal s hs
    · obtain ⟨suite, -, hs⟩ := List.mem_flatMap.mp hs
      exact suite.legal s hs

def all (suites : List Suite) : LegalStmts where
  val := suites.flatMap statements
  property s hs := by
    obtain ⟨suite, -, hs⟩ := List.mem_flatMap.mp hs
    exact suite.legal s hs

def optional : Option Suite → LegalStmts
  | none => ⟨[], fun _ hs => nomatch hs⟩
  | some suite => ⟨suite.statements, suite.legal⟩

end Suite

namespace Stmt.Legal

theorem handled {span : Span} {group : Bool} (body : Suite) (first : LegalHandler)
    (more : List LegalHandler) (orelse final : LegalStmts) :
    Legal (.try span group body.statements (first.val :: more.map Subtype.val) orelse.val
      final.val) := by
  have hclause : ∀ h ∈ first.val :: more.map Subtype.val, h.body ≠ [] ∧ ∀ s ∈ h.body, s.Legal := by
    intro h hh
    rcases List.mem_cons.mp hh with rfl | hh
    · exact first.property
    · obtain ⟨clause, -, rfl⟩ := List.mem_map.mp hh
      exact clause.property
  exact .try body.nonempty body.legal (fun h hh => (hclause h hh).1) (fun h hh => (hclause h hh).2)
    orelse.property final.property (Or.inl (List.cons_ne_nil _ _))

theorem finalized {span : Span} {group : Bool} (body final : Suite) :
    Legal (.try span group body.statements [] [] final.statements) :=
  .try body.nonempty body.legal (fun _ h => nomatch h) (fun _ h => nomatch h) (fun _ h => nomatch h)
    final.legal (Or.inr ⟨rfl, final.nonempty⟩)

theorem cases {span : Span} {subject : Expr} (first : LegalCase) (more : List LegalCase) :
    Legal (.match span subject (first.val :: more.map Subtype.val)) := by
  have hclause : ∀ c ∈ first.val :: more.map Subtype.val, c.body ≠ [] ∧ ∀ s ∈ c.body, s.Legal := by
    intro c hc
    rcases List.mem_cons.mp hc with rfl | hc
    · exact first.property
    · obtain ⟨clause, -, rfl⟩ := List.mem_map.mp hc
      exact clause.property
  exact .match (List.cons_ne_nil _ _) (fun c hc => (hclause c hc).1) (fun c hc => (hclause c hc).2)

end Stmt.Legal

end NotebookSlice.Syntax
