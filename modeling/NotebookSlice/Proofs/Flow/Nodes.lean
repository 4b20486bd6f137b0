import NotebookSlice.Proofs.Flow.Shown
import NotebookSlice.Proofs.Slice.Kept

/-! # What units stand for

A unit stands for a statement, for a handler, or for the line of an `else` or
`finally` part. Below it stand the statements of its block, then its handlers, then
the parts after them. The walk through a cell gives the units of these trees from
the front, and the trees determine them.
-/

namespace NotebookSlice.Flow

open Syntax

/-- What a unit stands for: a statement, a handler, or the line of a clause with its block. -/
inductive Node
  | stmt (s : Stmt)
  | handler (h : Handler)
  | clause (line : ℕ) (block : List Stmt)

/-- An `else` or `finally` part: its word, the last line before it, and its block. -/
structure Branch where
  keyword : String
  after : ℕ
  block : List Stmt

/-- The line that is taken for the clause of the part. -/
def Branch.line? (lines : Option (List String)) (b : Branch) : Option ℕ :=
  clauseLine lines b.keyword b.after (blockFirst b.block)

/-- What stands for the part: its clause, or else its statements themselves. -/
def Branch.nodes (lines : Option (List String)) (b : Branch) : List Node :=
  if b.block.isEmpty then []
  else match b.line? lines with
    | none => b.block.map .stmt
    | some line => [.clause line b.block]

namespace Node

def body : Node → List Stmt
  | .stmt (.if _ _ body _) | .stmt (.while _ _ body _) | .stmt (.for _ _ _ _ body _)
  | .stmt (.with _ _ _ body) | .stmt (.try _ _ body _ _ _) => body
  | .stmt _ => []
  | .handler h => h.body
  | .clause _ block => block

def handlers : Node → List Handler
  | .stmt (.try _ _ _ handlers _ _) => handlers
  | _ => []

def branches : Node → List Branch
  | .stmt (.if _ _ body orelse) | .stmt (.while _ _ body orelse)
  | .stmt (.for _ _ _ _ body orelse) => [⟨"else", blockLast body, orelse⟩]
  | .stmt (.try _ _ body handlers orelse final) =>
    let after := afterHandlers body handlers
    [⟨"else", after, orelse⟩,
      ⟨"finally", if orelse.isEmpty then after else blockLast orelse, final⟩]
  | _ => []

/-- The nodes below a node that are not of its block. -/
def others (lines : Option (List String)) (n : Node) : List Node :=
  n.handlers.map .handler ++ n.branches.flatMap (·.nodes lines)

def kind : Node → Kind
  | .stmt s => if isWhole s then .statement else .header
  | .handler _ => .header
  | .clause .. => .clause

def first : Node → ℕ
  | .stmt s => firstLine s
  | .handler h => h.span.first
  | .clause line _ => line

/-- The last line of the node's own unit: all before the block, if there is one. -/
def last : Node → ℕ
  | .stmt s => if isWhole s then s.span.last else blockFirst (body (.stmt s)) - 1
  | n => blockFirst n.body - 1

def names (c : Configuration) : Node → Names
  | .stmt (.if _ test _ _) | .stmt (.while _ test _ _) => visit c test .empty
  | .stmt (.for _ _ target iter _ _) => visit c target (visit c iter .empty)
  | .stmt (.with _ _ items _) => visitItems c items .empty
  | .stmt (.try ..) => .empty
  | .stmt s => visitStmt c s .empty
  | .handler (.mk _ type none _) => visitOption c type .empty
  | .handler (.mk _ type (some id) _) => (visitOption c type .empty).addWrite id
  | .clause .. => .empty

def unit (c : Configuration) (parent : Option ℕ) (index : ℕ) (ids : List ℕ) (n : Node) :
    Statement :=
  Flow.unit n.kind n.first n.last parent index ids (n.names c)

end Node

/-! ## Below a node -/

section Below

variable {lines : Option (List String)} {b : Branch} {n m : Node} {s t : Stmt}

theorem Branch.mem_nodes (h : m ∈ b.nodes lines) :
    (∃ line, b.line? lines = some line ∧ b.block ≠ [] ∧ m = .clause line b.block) ∨
      b.line? lines = none ∧ ∃ s ∈ b.block, m = .stmt s := by
  unfold nodes at h
  split at h
  · cases h
  · rename_i hne
    cases hline : b.line? lines with
    | none =>
      rw [hline] at h
      obtain ⟨s, hs, rfl⟩ := List.mem_map.mp h
      exact .inr ⟨rfl, s, hs, rfl⟩
    | some line =>
      rw [hline] at h
      exact .inl ⟨line, rfl, by simpa using hne, List.mem_singleton.mp h⟩

namespace Node

theorem mem_others : m ∈ n.others lines ↔
    (∃ h ∈ n.handlers, m = .handler h) ∨ ∃ b ∈ n.branches, m ∈ b.nodes lines := by
  simp only [others, List.mem_append, List.mem_map, List.mem_flatMap, eq_comm]

theorem mem_parts_of_body (h : t ∈ (stmt s).body) : t ∈ parts s := by
  cases s <;> simp_all [body, parts]

theorem mem_parts_of_handler {g : Handler} (hg : g ∈ (stmt s).handlers) (h : t ∈ g.body) :
    t ∈ parts s := by
  cases s <;> simp only [handlers, List.not_mem_nil] at hg
  case «try» =>
    simp only [parts, List.mem_append, List.mem_flatMap]
    exact .inl (.inl (.inr ⟨g, hg, h⟩))

theorem mem_parts_of_branch (hb : b ∈ (stmt s).branches) (h : t ∈ b.block) : t ∈ parts s := by
  cases s <;> simp_all [branches, parts]
  case «try» => rcases hb with rfl | rfl <;> simp_all

theorem exists_of_mem_parts (h : t ∈ parts s) : t ∈ (stmt s).body ∨
    (∃ g ∈ (stmt s).handlers, t ∈ g.body) ∨ ∃ b ∈ (stmt s).branches, t ∈ b.block := by
  cases s <;> simp_all [parts, body, handlers, branches]

end Node

/-- The statement and all statements in its blocks have the property. -/
def Throughout (p : Stmt → Prop) (t : Stmt) : Prop := ∀ r, Within r t → p r

namespace Throughout

variable {p : Stmt → Prop}

theorem self (h : Throughout p t) : p t := h t (.refl t)

theorem part (h : Throughout p t) (hs : s ∈ parts t) : Throughout p s :=
  fun r hr => h r (hr.part hs)

theorem intro (h : p t) (hparts : ∀ s ∈ parts t, Throughout p s) : Throughout p t := by
  intro r hr
  cases hr with
  | refl => exact h
  | part hr hs => exact hparts _ hs r hr

end Throughout

end Below

/-! ## Trees of nodes -/

variable (c : Configuration) (lines : Option (List String))

/-- The trees of nodes, each node with its unit. The units are numbered from `next` on, those of
the roots have the given parent. -/
inductive Grows : (parent : Option ℕ) → (next : ℕ) → List Node → (roots : List ℕ) →
    List (Node × Statement) → Prop

  | nil {parent : Option ℕ} {next : ℕ} : Grows parent next [] [] []

  | cons {parent : Option ℕ} {next : ℕ} {n : Node} {ns : List Node} {ids parts roots : List ℕ}
      {block others siblings : List (Node × Statement)} :
      Grows (some next) (next + 1) (n.body.map .stmt) ids block →
      Grows (some next) (next + 1 + block.length) (n.others lines) parts others →
      Grows parent (next + 1 + block.length + others.length) ns roots siblings →
      Grows parent next (n :: ns) (next :: roots)
        ((n, n.unit c parent next ids) :: (block ++ others) ++ siblings)

variable {c lines}

namespace Grows

variable {parent : Option ℕ} {next : ℕ} {ns ns' : List Node} {roots roots' : List ℕ}
  {us us' : List (Node × Statement)}

theorem append (h : Grows c lines parent next ns roots us)
    (h' : Grows c lines parent (next + us.length) ns' roots' us') :
    Grows c lines parent next (ns ++ ns') (roots ++ roots') (us ++ us') := by
  induction h with
  | nil => exact h'
  | @cons parent next n ns ids parts roots block others siblings hblock hothers _ _ _ ih =>
    rw [List.append_assoc]
    refine .cons hblock hothers (ih ?_)
    convert h' using 1
    simp only [List.length_append, List.length_cons]
    omega

theorem forest (h : Grows c lines parent next ns roots us) :
    Forest parent next roots (us.map Prod.snd) := by
  induction h with
  | nil => exact .nil
  | @cons parent next n ns ids parts roots block others siblings _ _ _ ihb iho ihs =>
    simp only [List.map_append, List.map_cons]
    rw [← List.length_map Prod.snd] at iho
    exact .cons (u := n.unit c parent next ids) rfl rfl ihb iho
      (by rwa [List.length_map, List.length_map])

/-- What holds of the roots, and of all nodes below a node it holds of, holds of all nodes. -/
theorem forall_nodes {P : Node → Prop} (h : Grows c lines parent next ns roots us)
    (hns : ∀ n ∈ ns, P n) (hbody : ∀ n, P n → ∀ s ∈ n.body, P (.stmt s))
    (hothers : ∀ n, P n → ∀ m ∈ n.others lines, P m) : ∀ x ∈ us, P x.1 := by
  induction h with
  | nil => exact fun x hx => nomatch hx
  | @cons parent next n ns ids parts roots block others siblings _ _ _ ihb iho ihs =>
    obtain ⟨hn, hns⟩ := List.forall_mem_cons.mp hns
    have hblock : ∀ m ∈ n.body.map Node.stmt, P m := by
      intro m hm
      obtain ⟨s, hs, rfl⟩ := List.mem_map.mp hm
      exact hbody n hn s hs
    exact List.forall_mem_cons.mpr ⟨hn, List.forall_mem_append.mpr
      ⟨List.forall_mem_append.mpr ⟨ihb hblock, iho (hothers n hn)⟩, ihs hns⟩⟩

theorem unique (h : Grows c lines parent next ns roots us)
    (h' : Grows c lines parent next ns roots' us') : roots' = roots ∧ us' = us := by
  induction h generalizing roots' us' with
  | nil =>
    cases h'
    exact ⟨rfl, rfl⟩
  | cons _ _ _ ihb iho ihs =>
    cases h' with
    | cons hblock hothers hsiblings =>
      obtain ⟨rfl, rfl⟩ := ihb hblock
      obtain ⟨rfl, rfl⟩ := iho hothers
      obtain ⟨rfl, rfl⟩ := ihs hsiblings
      exact ⟨rfl, rfl⟩

end Grows

/-! ## The walk -/

def Yields (c : Configuration) (lines : Option (List String)) (parent : Option ℕ) (next : ℕ)
    (ns : List Node) (roots : List ℕ) (units : List Statement) : Prop :=
  ∃ us, Grows c lines parent next ns roots us ∧ us.map Prod.snd = units

/-- The units are those of the nodes below another one, whichever of them are its body. -/
def YieldsParts (c : Configuration) (lines : Option (List String)) (owner next : ℕ)
    (ns : List Node) (units : List Statement) : Prop :=
  ∃ roots, Yields c lines (some owner) next ns roots units

namespace Yields

variable {parent : Option ℕ} {next owner : ℕ} {ns ns' : List Node} {roots roots' ids : List ℕ}
  {units units' block others : List Statement}

theorem nil : Yields c lines parent next [] [] [] := ⟨[], .nil, rfl⟩

theorem append (h : Yields c lines parent next ns roots units)
    (h' : Yields c lines parent (next + units.length) ns' roots' units') :
    Yields c lines parent next (ns ++ ns') (roots ++ roots') (units ++ units') := by
  obtain ⟨us, hus, rfl⟩ := h
  obtain ⟨us', hus', rfl⟩ := h'
  rw [List.length_map] at hus'
  exact ⟨us ++ us', hus.append hus', List.map_append⟩

theorem node {n : Node}
    (hblock : Yields c lines (some next) (next + 1) (n.body.map .stmt) ids block)
    (hothers : YieldsParts c lines next (next + 1 + block.length) (n.others lines) others) :
    Yields c lines parent next [n] [next] (n.unit c parent next ids :: (block ++ others)) := by
  obtain ⟨bs, hbs, rfl⟩ := hblock
  obtain ⟨parts, os, hos, rfl⟩ := hothers
  rw [List.length_map] at hos
  refine ⟨_, .cons hbs hos .nil, ?_⟩
  simp

theorem leaf {n : Node}
    (hblock : Yields c lines (some next) (next + 1) (n.body.map .stmt) ids block)
    (hothers : n.others lines = []) :
    Yields c lines parent next [n] [next] (n.unit c parent next ids :: block) := by
  have h : Yields c lines parent next [n] [next] (n.unit c parent next ids :: (block ++ [])) :=
    node hblock ⟨[], hothers ▸ nil⟩
  rwa [List.append_nil] at h

end Yields

theorem YieldsParts.append {owner next : ℕ} {ns ns' : List Node} {units units' : List Statement}
    (h : YieldsParts c lines owner next ns units)
    (h' : YieldsParts c lines owner (next + units.length) ns' units') :
    YieldsParts c lines owner next (ns ++ ns') (units ++ units') := by
  obtain ⟨roots, h⟩ := h
  obtain ⟨roots', h'⟩ := h'
  exact ⟨roots ++ roots', h.append h'⟩

theorem yields_clauseUnits {b : Branch} {block : (owner next : ℕ) → Block} (hne : b.block ≠ [])
    (h : ∀ owner next, Yields c lines (some owner) next (b.block.map .stmt) (block owner next).1
      (block owner next).2) (owner next : ℕ) :
    YieldsParts c lines owner next (b.nodes lines)
      (clauseUnits lines b.keyword b.after (blockFirst b.block) block owner next) := by
  unfold clauseUnits Branch.nodes Branch.line?
  rw [if_neg (by simpa using hne)]
  cases clauseLine lines b.keyword b.after (blockFirst b.block) with
  | none => exact ⟨_, h owner next⟩
  | some line => exact ⟨[next], .leaf (h next (next + 1)) rfl⟩

theorem yields_optional {b : Branch} {block : (owner next : ℕ) → Block}
    (h : ∀ owner next, Yields c lines (some owner) next (b.block.map .stmt) (block owner next).1
      (block owner next).2) (owner next : ℕ) :
    YieldsParts c lines owner next (b.nodes lines)
      (if b.block.isEmpty then []
        else clauseUnits lines b.keyword b.after (blockFirst b.block) block owner next) := by
  split
  · rename_i hempty
    rw [Branch.nodes, if_pos hempty]
    exact ⟨[], .nil⟩
  · rename_i hsome
    exact yields_clauseUnits (by simpa using hsome) h owner next

variable (c lines)

theorem yields_walk_all :
    (∀ s parent next, Yields c lines parent next [.stmt s] [next] (walk c lines s parent next)) ∧
    (∀ hs owner next, YieldsParts c lines owner next (hs.map .handler)
      (walkHandlers c lines hs owner next)) ∧
    (∀ ss owner next, Yields c lines (some owner) next (ss.map .stmt)
      (walkBlock c lines ss owner next).1 (walkBlock c lines ss owner next).2) ∧
    (∀ body ss owner next, YieldsParts c lines owner next
      (Branch.nodes lines ⟨"else", blockLast body, ss⟩)
      (walkElse c lines body ss owner next)) := by
  apply walk.mutual_induct
  case case1 | case2 | case3 =>
    intros
    rename_i heq hblock helse
    rw [heq] at hblock
    simp only [walk, heq]
    refine .node (n := .stmt _) hblock ?_
    simpa [Node.others, Node.handlers, Node.branches] using helse
  case case4 =>
    intro span async items body parent next ids units heq hblock
    rw [heq] at hblock
    simp only [walk, heq]
    exact .leaf (n := .stmt _) hblock rfl
  case case5 =>
    intro span group body handlers orelse final parent next ids units heq hblock hhandlers
      helse hfinal
    rw [heq] at hblock
    simp only [walk, heq]
    rw [List.append_assoc units, List.append_assoc units]
    refine .node (n := .stmt (.try span group body handlers orelse final)) hblock ?_
    simp only [Node.others, Node.handlers, Node.branches, List.flatMap_cons, List.flatMap_nil,
      List.append_nil, ← List.append_assoc, List.length_append, ← Nat.add_assoc]
    refine (hhandlers.append (yields_optional helse next _)).append ?_
    rw [List.length_append, ← Nat.add_assoc]
    exact yields_optional (b := ⟨"finally", _, final⟩) hfinal next _
  case case6 =>
    intro s parent next hif hwhile hfor hwith htry
    rw [walk.eq_6 _ _ _ _ _ hif hwhile hfor hwith htry]
    cases s with
    | «if» => exact absurd rfl (hif _ _ _ _)
    | «while» => exact absurd rfl (hwhile _ _ _ _)
    | «for» => exact absurd rfl (hfor _ _ _ _ _ _)
    | «with» => exact absurd rfl (hwith _ _ _ _)
    | «try» => exact absurd rfl (htry _ _ _ _ _ _)
    | _ => exact .leaf (n := .stmt _) .nil rfl
  case case7 =>
    intro owner next
    rw [walkBlock]
    exact .nil
  case case8 =>
    intro s ss owner next walked ids units heq hs hss
    rw [heq] at hss
    simp only [walkBlock]
    rw [heq]
    exact hs.append hss
  case case9 =>
    intro body owner next
    rw [walkElse]
    exact ⟨[], .nil⟩
  case case10 =>
    intro body s ss owner next hs hss
    simp only [walkElse]
    exact yields_clauseUnits (b := ⟨"else", blockLast body, s :: ss⟩) (List.cons_ne_nil s ss)
      (fun owner next => (hs owner next).append (hss owner next)) owner next
  case case11 =>
    intro owner next
    rw [walkHandlers]
    exact ⟨[], .nil⟩
  case case12 =>
    intro span type id body hs owner next ids units heq hblock hhandlers
    rw [heq] at hblock
    simp only [walkHandlers, heq]
    have htree (h : Handler) (hbody : h.body = body) :
        Yields c lines (some owner) next [.handler h] [next]
          (Node.unit c (some owner) next ids (.handler h) :: units) :=
      .leaf (by rw [Node.body, hbody]; exact hblock) rfl
    have hlength : next + 1 + units.length = next + (units.length + 1) := by omega
    rw [hlength] at hhandlers ⊢
    cases id with
    | none => exact YieldsParts.append ⟨_, htree (.mk span type none body) rfl⟩ hhandlers
    | some id => exact YieldsParts.append ⟨_, htree (.mk span type (some id) body) rfl⟩ hhandlers

theorem yields_walkAll (ss : List Stmt) (next : ℕ) :
    ∃ roots, Yields c lines none next (ss.map .stmt) roots (walkAll c lines ss next) := by
  induction ss generalizing next with
  | nil => exact ⟨[], .nil⟩
  | cons s ss ih =>
    obtain ⟨roots, hrest⟩ := ih (next + (walk c lines s none next).length)
    exact ⟨_, ((yields_walk_all c lines).1 s none next).append hrest⟩

def unitsOfEach : List Stmt → (next : ℕ) → List (List Statement)
  | [], _ => []
  | s :: ss, next =>
    let units := walk c lines s none next
    units :: unitsOfEach ss (next + units.length)

theorem flatten_unitsOfEach (ss : List Stmt) (next : ℕ) :
    (unitsOfEach c lines ss next).flatten = walkAll c lines ss next := by
  induction ss generalizing next with
  | nil => rfl
  | cons s ss ih => rw [unitsOfEach, List.flatten_cons, ih, walkAll]

end NotebookSlice.Flow
