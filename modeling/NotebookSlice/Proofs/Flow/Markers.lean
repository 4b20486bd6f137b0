import NotebookSlice.Proofs.Flow.Nodes

/-! # Clause markers

The text of a cell only decides which `else` and `finally` parts have a clause. When
the clauses are deleted and what stands below them is given to their headers, the units
are those of the statements alone.
-/

namespace NotebookSlice.Flow

open Syntax

/-! ## Deleting clauses -/

def Statement.isClause (u : Statement) : Bool := u.kind == .clause

def countKept (units : List Statement) : ℕ := units.countP fun u => !u.isClause

/-- The number of a unit once the clauses before it are deleted. -/
def newIndex (units : List Statement) (i : ℕ) : ℕ := countKept (units.take i)

/-- The unit that governs what stood below `p`: for a clause, the clause's parent. -/
def adopter (units : List Statement) (p : ℕ) : ℕ :=
  match units[p]? with
  | some u => if u.isClause then u.parent.getD p else p
  | none => p

/-- The unit as it is numbered once the clauses of all units are deleted. -/
def Statement.renumbered (units : List Statement) (u : Statement) : Statement :=
  { u with
    index := newIndex units u.index
    parent := u.parent.map fun p => newIndex units (adopter units p)
    body := u.body.map (newIndex units) }

def without (units part : List Statement) : List Statement :=
  (part.filter fun u => !u.isClause).map (·.renumbered units)

/-- The units without clauses: their children belong to the clause's parent, and the others are
renumbered. -/
def withoutClauses (units : List Statement) : List Statement := without units units

section Deleting

variable {whole part rest : List Statement} {u : Statement} {next : ℕ}

@[simp] theorem countKept_append : countKept (part ++ rest) = countKept part + countKept rest :=
  List.countP_append

theorem countKept_clause (h : u.isClause = true) : countKept [u] = 0 := by simp [countKept, h]

theorem countKept_other (h : u.isClause = false) : countKept [u] = 1 := by simp [countKept, h]

@[simp] theorem without_append : without whole (part ++ rest) =
    without whole part ++ without whole rest := by
  simp [without]

theorem without_clause (h : u.isClause = true) :
    without whole (u :: rest) = without whole rest := by
  simp [without, h]

theorem without_other (h : u.isClause = false) :
    without whole (u :: rest) = u.renumbered whole :: without whole rest := by
  simp [without, h]

@[simp] theorem length_without : (without whole part).length = countKept part := by
  rw [without, List.length_map, countKept, List.countP_eq_length_filter]

theorem newIndex_of_prefix (h : part <+: whole) (hlength : part.length = next) :
    newIndex whole next = countKept part := by
  rw [newIndex, ← hlength, ← List.prefix_iff_eq_take.mp h]

end Deleting

/-! ## Nodes without clauses -/

/-- What stands in the place of a node when there are no clauses. -/
def Node.bare : Node → List Node
  | .clause _ block => block.map .stmt
  | n => [n]

section Nodes

variable {lines plain : Option (List String)} {n : Node} {ss : List Stmt}

@[simp] theorem Node.flatMap_bare_stmt : (ss.map Node.stmt).flatMap bare = ss.map .stmt := by
  rw [List.flatMap_map]
  exact List.map_eq_flatMap.symm

theorem Node.exists_clause (h : n.kind = .clause) : ∃ line block, n = .clause line block := by
  cases n with
  | stmt s =>
    rw [kind] at h
    split at h <;> cases h
  | handler h => cases h
  | clause line block => exact ⟨line, block, rfl⟩

theorem Node.bare_of_kind (h : n.kind ≠ .clause) : n.bare = [n] := by
  cases n with
  | clause => exact absurd rfl h
  | _ => rfl

theorem Branch.flatMap_bare (hplain : ∀ b : Branch, b.line? plain = none) (b : Branch) :
    (b.nodes lines).flatMap Node.bare = b.nodes plain := by
  unfold nodes
  rw [hplain]
  split
  · rfl
  · cases b.line? lines with
    | none => exact Node.flatMap_bare_stmt
    | some line => exact List.append_nil _

theorem Node.flatMap_bare_others (hplain : ∀ b : Branch, b.line? plain = none) :
    (n.others lines).flatMap bare = n.others plain := by
  simp only [others, List.flatMap_append, List.flatMap_assoc, Branch.flatMap_bare hplain]
  rw [List.flatMap_map]
  exact congrArg (· ++ _) List.map_eq_flatMap.symm

end Nodes

/-! ## Trees without clauses -/

section Trees

variable {c : Configuration} {lines plain : Option (List String)} {whole : List Statement}
  {parent : Option ℕ} {next : ℕ} {ns ns' : List Node} {n : Node} {ss : List Stmt}
  {roots roots' ids parts : List ℕ} {units units' block others : List Statement}

theorem Node.isClause_unit : (n.unit c parent next ids).isClause = (n.kind == .clause) := rfl

theorem Node.renumbered_unit : (n.unit c parent next ids).renumbered whole =
    n.unit c (parent.map fun p => newIndex whole (adopter whole p)) (newIndex whole next)
      (ids.map (newIndex whole)) := rfl

/-- Clauses only stand directly below units that stay. -/
def ClausesBelow (whole : List Statement) (parent : Option ℕ) (ns : List Node) : Prop :=
  ∀ n ∈ ns, n.kind = .clause → ∃ p, parent = some p ∧ adopter whole p = p

/-- Without their clauses, the units are what the nodes yield when there is no clause. The units
before them in the whole decide where the numbers begin. A clause gives no root of its own, so the
roots only correspond when there is none among the nodes. -/
def Clears (c : Configuration) (plain : Option (List String)) (whole : List Statement)
    (parent : Option ℕ) (next : ℕ) (ns : List Node) (roots : List ℕ) (units : List Statement) :
    Prop :=
  ∀ before : List Statement, before.length = next → before ++ units <+: whole →
    ClausesBelow whole parent ns →
    ∃ roots', Yields c plain (parent.map fun p => newIndex whole (adopter whole p))
        (countKept before) (ns.flatMap Node.bare) roots' (without whole units) ∧
      ((∀ n ∈ ns, n.kind ≠ .clause) → roots' = roots.map (newIndex whole))

theorem clausesBelow_of_forall (h : ∀ n ∈ ns, n.kind ≠ .clause) : ClausesBelow whole parent ns :=
  fun n hn hkind => absurd hkind (h n hn)

theorem kind_ne_clause_of_stmt : ∀ n ∈ ss.map Node.stmt, n.kind ≠ .clause := by
  intro n hn
  obtain ⟨s, -, rfl⟩ := List.mem_map.mp hn
  rw [Node.kind]
  split <;> simp

theorem Clears.append (h : Clears c plain whole parent next ns roots units)
    (h' : Clears c plain whole parent (next + units.length) ns' roots' units') :
    Clears c plain whole parent next (ns ++ ns') (roots ++ roots') (units ++ units') := by
  intro before hlength hwhole hbelow
  obtain ⟨hns, hns'⟩ := List.forall_mem_append.mp hbelow
  rw [← List.append_assoc] at hwhole
  obtain ⟨first, hfirst, hroots⟩ :=
    h before hlength ((List.prefix_append _ _).trans hwhole) hns
  obtain ⟨second, hsecond, hroots'⟩ :=
    h' (before ++ units) (by rw [List.length_append, hlength]) hwhole hns'
  refine ⟨first ++ second, ?_, fun hkinds => ?_⟩
  · rw [List.flatMap_append, without_append]
    refine hfirst.append ?_
    rwa [length_without, ← countKept_append]
  · obtain ⟨hkind, hkind'⟩ := List.forall_mem_append.mp hkinds
    rw [hroots hkind, hroots' hkind', List.map_append]

theorem getElem?_of_prefix {before : List Statement} {u : Statement}
    (hlength : before.length = next) (hwhole : before ++ u :: units <+: whole) :
    whole[next]? = some u := by
  obtain ⟨after, rfl⟩ := hwhole
  simp [← hlength]

theorem Clears.clause {line : ℕ}
    (hblock : Clears c plain whole (some next) (next + 1) (ss.map .stmt) ids units) :
    Clears c plain whole parent next [.clause line ss] [next]
      ((Node.clause line ss).unit c parent next ids :: units) := by
  intro before hlength hwhole hbelow
  obtain ⟨p, rfl, hp⟩ := hbelow _ (List.mem_singleton_self _) rfl
  have hadopter : adopter whole next = p := by
    rw [adopter, getElem?_of_prefix hlength hwhole]
    rfl
  rw [List.append_cons] at hwhole
  obtain ⟨roots', hunits, -⟩ := hblock _ (by simp [hlength]) hwhole
    (clausesBelow_of_forall kind_ne_clause_of_stmt)
  refine ⟨roots', ?_, fun hkind => absurd rfl (hkind _ (List.mem_singleton_self _))⟩
  rw [countKept_append, countKept_clause rfl] at hunits
  rw [without_clause rfl]
  simpa [hadopter, hp, Node.bare] using hunits

theorem Clears.node (hplain : ∀ b : Branch, b.line? plain = none) (hkind : n.kind ≠ .clause)
    (hblock : Clears c plain whole (some next) (next + 1) (n.body.map .stmt) ids block)
    (hothers : Clears c plain whole (some next) (next + 1 + block.length) (n.others lines) parts
      others) :
    Clears c plain whole parent next [n] [next]
      (n.unit c parent next ids :: (block ++ others)) := by
  intro before hlength hwhole hbelow
  have hstays : (n.unit c parent next ids).isClause = false := by simpa [Node.isClause_unit]
  have hadopter : adopter whole next = next := by
    rw [adopter, getElem?_of_prefix hlength hwhole]
    simp [hstays]
  have hindex : newIndex whole next = countKept before :=
    newIndex_of_prefix ((List.prefix_append _ _).trans hwhole) hlength
  rw [List.append_cons, ← List.append_assoc] at hwhole
  obtain ⟨ids', hblock', hids⟩ := hblock _ (by simp [hlength])
    ((List.prefix_append _ _).trans hwhole) (clausesBelow_of_forall kind_ne_clause_of_stmt)
  obtain ⟨parts', hothers', -⟩ := hothers _ (by simp [hlength]; omega) hwhole
    fun m _ _ => ⟨next, rfl, hadopter⟩
  rw [countKept_append, countKept_other hstays, ← hindex] at hblock'
  rw [countKept_append, countKept_append, countKept_other hstays, ← hindex] at hothers'
  refine ⟨[newIndex whole next], ?_, fun _ => rfl⟩
  rw [without_other hstays, without_append, Node.renumbered_unit, ← hids kind_ne_clause_of_stmt,
    List.flatMap_singleton, Node.bare_of_kind hkind, ← hindex]
  simp only [Option.map_some, hadopter, Node.flatMap_bare_stmt, Node.flatMap_bare_others hplain]
    at hblock' hothers'
  refine .node hblock' ⟨parts', ?_⟩
  rwa [length_without]

theorem Grows.clears {us : List (Node × Statement)} (hplain : ∀ b : Branch, b.line? plain = none)
    (h : Grows c lines parent next ns roots us) :
    Clears c plain whole parent next ns roots (us.map Prod.snd) := by
  induction h with
  | nil => exact fun _ _ _ _ => ⟨[], .nil, fun _ => rfl⟩
  | @cons parent next n ns ids parts roots block others siblings hblock hothers hsiblings
      ihb iho ihs =>
    have hnode : Clears c plain whole parent next [n] [next]
        (n.unit c parent next ids :: (block.map Prod.snd ++ others.map Prod.snd)) := by
      by_cases hkind : n.kind = .clause
      · obtain ⟨line, ss, rfl⟩ : ∃ line ss, n = .clause line ss := Node.exists_clause hkind
        cases hothers
        rw [List.map_nil, List.append_nil]
        exact .clause ihb
      · rw [← List.length_map Prod.snd] at iho
        exact .node hplain hkind ihb iho
    simp only [List.map_append, List.map_cons]
    refine hnode.append ?_
    simp only [List.length_cons, List.length_append, List.length_map]
    convert ihs using 1
    omega

end Trees

/-! ## Texts -/

variable (c : Configuration) (ss : List Stmt) (source source' : Option String)

theorem getElem?_lines_empty (i : ℕ) : ((Text.lines "")[i]?).getD "" = "" := by
  cases i <;> rfl

theorem isClauseLine_empty (keyword : String) : isClauseLine keyword "" = false := by
  simp [isClauseLine, Text.trimStart]

theorem findLine_false (n count : ℕ) : findLine (fun _ => false) n count = none := by
  induction count generalizing n with
  | zero => rfl
  | succ count ih => exact ih (n + 1)

theorem Branch.line?_lines_empty (b : Branch) : b.line? (some (Text.lines "")) = none := by
  simp only [line?, clauseLine, getElem?_lines_empty, isClauseLine_empty, findLine_false]

/-- Without clauses, the units are those of a text that marks none. -/
theorem withoutClauses_analyze :
    withoutClauses (analyze c ss source) = analyze c ss (some "") := by
  obtain ⟨roots, us, hus, hunits⟩ := yields_walkAll c (source.map Text.lines) ss 0
  obtain ⟨roots', us', hus', hunits'⟩ := yields_walkAll c (some (Text.lines "")) ss 0
  obtain ⟨_, ⟨vs, hvs, hwithout⟩, -⟩ := hus.clears Branch.line?_lines_empty [] rfl
    (List.prefix_refl _) (clausesBelow_of_forall kind_ne_clause_of_stmt)
  rw [Node.flatMap_bare_stmt] at hvs
  obtain ⟨-, rfl⟩ := hus'.unique hvs
  rw [analyze, analyze, ← hunits]
  exact hwithout.symm.trans hunits'

/-- Whether the `else` part of a loop has a clause depends on the text. -/
example :
    let code : List Stmt := [.while ⟨1, 4⟩ (.name 1 .load "a") [.pass ⟨2, 2⟩] [.pass ⟨4, 4⟩]]
    (analyze .empty code none).map (·.parent) = [none, some 0, some 0, some 2] ∧
      (analyze .empty code (some "")).map (·.parent) = [none, some 0, some 0] := by
  decide +kernel

/-- The text only decides the clauses. -/
theorem withoutClauses_analyze_eq :
    withoutClauses (analyze c ss source) = withoutClauses (analyze c ss source') := by
  rw [withoutClauses_analyze, withoutClauses_analyze]

end NotebookSlice.Flow
