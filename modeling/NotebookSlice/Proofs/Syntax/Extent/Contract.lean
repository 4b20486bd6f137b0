import NotebookSlice.Proofs.Syntax.Agree
import NotebookSlice.Proofs.Syntax.Lexing.Order

/-! # What parsers read

A contract says what the results of nonterminals satisfy. A parser that is run
with remembered results that satisfy it remembers such results only. Most parsers
read tokens that are no layout and leave a known number of brackets open.
-/

namespace NotebookSlice.Syntax

/-- Tokens, and what is known of the blocks and the `elif` parts that are read from them: the
start, the statements and their end. -/
structure Contract where
  lexed : Lexed
  block : ℕ → List Stmt → ℕ → Prop
  clause : ℕ → List Stmt → ℕ → Prop

namespace Contract

variable (K : Contract)

def level (i : ℕ) : ℤ := Lexer.turns (K.lexed.tokens.toList.take i)

/-- From `i` to `j` there is no layout, and `e` brackets are open after it if there are `b` before
it. -/
structure Spans (b e i j : ℕ) : Prop where
  le : i ≤ j
  level : K.level j + b = K.level i + e
  plain : ∀ k t, i ≤ k → k < j → K.lexed.tokens[k]? = some t → t.isLayout = false

/-- The expression begins at `i`, up to parentheses around it, and ends before `j`. -/
def Opens (i : ℕ) (e : Expr) (j : ℕ) : Prop :=
  ∃ k t, i ≤ k ∧ k < j ∧ K.lexed.tokens[k]? = some t ∧ e.line = t.line ∧
    ∀ l u, i ≤ l → l < k → K.lexed.tokens[l]? = some u → u.kind = .punct .lpar

/-- A statement without blocks on the tokens from `i` to `j`. -/
structure Simple (i : ℕ) (s : Stmt) (j : ℕ) : Prop where
  spans : K.Spans 0 0 i j
  lt : i < j
  simple : s.isSimple = true
  span : ∃ t, K.lexed.tokens[i]? = some t ∧ t.isLayout = false ∧
    s.span = ⟨t.line, Parser.lastLineFrom K.lexed.tokens ⟨t.line, i⟩ j⟩

/-- What is known of the results of nonterminals: the start, the result and its end. -/
def holds : (n : Nonterminal) → (i : ℕ) → n.Out → (j : ℕ) → Prop
  | .file, _, _, _ => True
  | .block, i, suite, j => K.block i suite.statements j
  | .elifClause, i, suite, j => K.clause i suite.statements j
  | .simpleStatement, i, s, j => K.Simple i s.val j
  | .expression, i, e, j | .starExpression, i, e, j | .disjunction, i, e, j
  | .conjunction, i, e, j | .inversion, i, e, j | .bitwiseOr, i, e, j | .bitwiseXor, i, e, j
  | .bitwiseAnd, i, e, j | .shift, i, e, j | .sum, i, e, j | .term, i, e, j | .factor, i, e, j
  | .awaitPrimary, i, e, j | .primary, i, e, j | .strings, i, e, j =>
    K.Spans 0 0 i j ∧ K.Opens i e j
  | _, i, _, j => K.Spans 0 0 i j

def Sound (m : Memory) : Prop :=
  ∀ (n : Nonterminal) i v j, m.find? n i = some (some (v, j)) → K.holds n i v j

variable {α β : Type}

/-- An answer: if there is a result it satisfies `Q` with its end. -/
inductive Gives (Q : α → ℕ → Prop) : Reply α → Prop
  | ok {a : α} {j : ℕ} {m : Memory} : Q a j → K.Sound m → Gives Q (.ok a j m)
  | fail {final : Bool} {m : Memory} : K.Sound m → Gives Q (.fail final m)
  | raised {fault : Fault} : Gives Q (.raised fault)

/-- From `i` on the parser gives results that satisfy `Q`. -/
def Yields (i : ℕ) (p : Parser α) (Q : α → ℕ → Prop) : Prop :=
  ∀ m, K.Sound m → K.Gives Q (p ⟨K.lexed, false⟩ i m)

variable {K} {i : ℕ} {m : Memory} {p q : Parser α} {Q Q' : α → ℕ → Prop} {R : β → ℕ → Prop}

theorem Spans.refl (b i : ℕ) : K.Spans b b i i where
  le := Nat.le_refl i
  level := rfl
  plain k _ hk hk' := absurd hk (by omega)

theorem Spans.trans {b c e i j k : ℕ} (h : K.Spans b c i j) (h' : K.Spans c e j k) :
    K.Spans b e i k where
  le := Nat.le_trans h.le h'.le
  level := by
    have := h.level
    have := h'.level
    omega
  plain l t hl hl' ht := by
    rcases Nat.lt_or_ge l j with hlt | hge
    · exact h.plain l t hl hlt ht
    · exact h'.plain l t hge hl' ht

theorem level_succ {t : Token} (h : K.lexed.tokens[i]? = some t) :
    K.level (i + 1) = K.level i + t.kind.turn := by
  have hlist : K.lexed.tokens.toList[i]? = some t := by rw [Array.getElem?_toList]; exact h
  exact Lexer.turns_take_succ hlist

theorem Spans.succ {b e : ℕ} {t : Token} (ht : K.lexed.tokens[i]? = some t)
    (hplain : t.isLayout = false) (hturn : t.kind.turn + b = e) : K.Spans b e i (i + 1) where
  le := Nat.le_succ i
  level := by
    rw [level_succ ht]
    omega
  plain k t' hk hk' ht' := by
    obtain rfl : k = i := by omega
    rw [ht] at ht'
    cases ht'
    exact hplain

theorem Opens.lt {j : ℕ} {e : Expr} (h : K.Opens i e j) : i < j := by
  obtain ⟨k, t, hik, hkj, -⟩ := h
  omega

/-! ## Memory -/

theorem Sound.empty (size : ℕ) : K.Sound (.empty size) := fun n i v j h => by
  rw [Memory.find?_empty] at h
  cases h

theorem Sound.insert {n : Nonterminal} {r : Option (n.Out × ℕ)} (h : K.Sound m)
    (hr : ∀ v j, r = some (v, j) → K.holds n i v j) : K.Sound (m.insert n i r) := by
  intro n' i' v j hfind
  by_cases hsame : n = n' ∧ i = i'
  · obtain ⟨rfl, rfl⟩ := hsame
    by_cases hsize : i < m.entries.size
    · rw [Memory.find?_insert_self hsize] at hfind
      exact hr v j (Option.some.inj hfind)
    · have hentries : (m.insert n i r).entries[i]? = none :=
        Array.getElem?_eq_none (by rw [Memory.size_insert]; omega)
      rw [Memory.find?, hentries] at hfind
      cases hfind
  · rw [Memory.find?_insert_of_ne (not_and_or.mp hsame)] at hfind
    exact h n' i' v j hfind

/-! ## Parsers -/

theorem Gives.mono {r : Reply α} (h : K.Gives Q r) (hQ : ∀ a j, Q a j → Q' a j) : K.Gives Q' r := by
  cases h with
  | ok ha hm => exact .ok (hQ _ _ ha) hm
  | fail hm => exact .fail hm
  | raised => exact .raised

namespace Yields

theorem mono (h : K.Yields i p Q) (hQ : ∀ a j, Q a j → Q' a j) : K.Yields i p Q' :=
  fun m hm => (h m hm).mono hQ

theorem pure {a : α} (h : Q a i) : K.Yields i (Pure.pure a : Parser α) Q := fun _ hm => .ok h hm

theorem of_ok {a : α} {j : ℕ} {m' : Memory} (h : K.Yields i p Q) (hm : K.Sound m)
    (hok : p ⟨K.lexed, false⟩ i m = .ok a j m') : Q a j := by
  have hreply := h m hm
  rw [hok] at hreply
  cases hreply with
  | ok ha _ => exact ha

theorem and (h : K.Yields i p Q) (h' : K.Yields i p Q') :
    K.Yields i p fun a j => Q a j ∧ Q' a j := by
  intro m hm
  have hreply := h m hm
  have hreply' := h' m hm
  generalize p _ i m = r at hreply hreply' ⊢
  cases hreply with
  | ok ha hm =>
    cases hreply' with
    | ok ha' _ => exact .ok ⟨ha, ha'⟩ hm
  | fail hm => exact .fail hm
  | raised => exact .raised

theorem bind {f : α → Parser β} (h : K.Yields i p Q) (hf : ∀ a j, Q a j → K.Yields j (f a) R) :
    K.Yields i (p >>= f) R := by
  intro m hm
  have hfirst := h m hm
  rw [Parser.bind_apply, Parser.bind]
  generalize p _ i m = r at hfirst ⊢
  cases hfirst with
  | ok ha hm => exact hf _ _ ha _ hm
  | fail hm => exact .fail hm
  | raised => exact .raised

theorem orElse (hp : K.Yields i p Q) (hq : K.Yields i q Q) : K.Yields i (p <|> q) Q := by
  intro m hm
  have hfirst := hp m hm
  rw [Parser.orElse_apply, Parser.orElse]
  generalize p _ i m = r at hfirst ⊢
  cases hfirst with
  | ok ha hm => exact .ok ha hm
  | @fail final m hm =>
    cases final with
    | false => exact hq m hm
    | true => exact .fail hm
  | raised => exact .raised

theorem rule (h : K.Yields i p Q) : K.Yields i (Parser.rule p) Q := by
  intro m hm
  have hreply := h m hm
  unfold Parser.rule
  generalize p _ i m = r at hreply ⊢
  cases hreply with
  | ok ha hm => exact .ok ha hm
  | fail hm => exact .fail hm
  | raised => exact .raised

theorem commit (h : K.Yields i p Q) : K.Yields i (Parser.commit p) Q := by
  intro m hm
  have hreply := h m hm
  unfold Parser.commit
  generalize p _ i m = r at hreply ⊢
  cases hreply with
  | ok ha hm => exact .ok ha hm
  | fail hm => exact .fail hm
  | raised => exact .raised

theorem fail : K.Yields i (Parser.fail : Parser α) Q := fun _ hm => .fail hm

theorem diagnose : K.Yields i (Parser.diagnose p) Q := fun _ hm => .fail hm

theorem raiseAt {line : ℕ} : K.Yields i (Parser.raiseAt line : Parser α) Q := fun _ _ => .raised

theorem raiseHere : K.Yields i (Parser.raiseHere : Parser α) Q := fun _ _ => .raised

theorem exhausted : K.Yields i (Parser.exhausted : Parser α) Q := fun _ _ => .raised

theorem opt (h : K.Yields i p Q) :
    K.Yields i (Parser.opt p) fun a j => a = none ∧ j = i ∨ ∃ b, a = some b ∧ Q b j := by
  intro m hm
  have hreply := h m hm
  unfold Parser.opt
  generalize p _ i m = r at hreply ⊢
  cases hreply with
  | ok ha hm => exact .ok (.inr ⟨_, rfl, ha⟩) hm
  | fail hm => exact .ok (.inl ⟨rfl, rfl⟩) hm
  | raised => exact .raised

theorem followedBy (h : K.Yields i p Q) :
    K.Yields i (Parser.followedBy p) fun _ j => j = i := by
  intro m hm
  have hreply := h m hm
  unfold Parser.followedBy
  generalize p _ i m = r at hreply ⊢
  cases hreply with
  | ok _ hm => exact .ok rfl hm
  | fail hm => exact .fail hm
  | raised => exact .raised

theorem notFollowedBy (h : K.Yields i p Q) :
    K.Yields i (Parser.notFollowedBy p) fun _ j => j = i := by
  intro m hm
  have hreply := h m hm
  unfold Parser.notFollowedBy
  generalize p _ i m = r at hreply ⊢
  cases hreply with
  | ok _ hm => exact .fail hm
  | fail hm => exact .ok rfl hm
  | raised => exact .raised

/-- What holds of no results, and of one result more at a later place, holds of many. -/
theorem many {I : List α → ℕ → Prop} (hnil : I [] i)
    (hstep : ∀ as j, I as j → K.Yields j p fun a k => I (as ++ [a]) k) :
    K.Yields i (Parser.many p) I := by
  have hloop (n : ℕ) : ∀ acc j, I acc.reverse j → K.Yields j (Parser.manyLoop p n acc) I := by
    induction n with
    | zero => exact fun _ _ _ => exhausted
    | succ n ih =>
      intro acc j hI m hm
      have hreply := hstep _ j hI m hm
      unfold Parser.manyLoop
      generalize p _ j m = r at hreply ⊢
      cases hreply with
      | @ok a k m ha hm =>
        simp only
        split
        · exact ih (a :: acc) k (by rwa [List.reverse_cons]) m hm
        · exact .raised
      | fail hm => exact .ok hI hm
      | raised => exact .raised
  exact fun m hm => hloop _ [] i hnil m hm

theorem grow {step : α → Parser α} (h : K.Yields i p Q)
    (hstep : ∀ a j, Q a j → K.Yields j (step a) Q) : K.Yields i (Parser.grow p step) Q := by
  have hloop (n : ℕ) : ∀ a j, Q a j → K.Yields j (Parser.growLoop step n a) Q := by
    induction n with
    | zero => exact fun _ _ _ => exhausted
    | succ n ih =>
      intro a j ha m hm
      have hreply := hstep a j ha m hm
      unfold Parser.growLoop
      generalize step a _ j m = r at hreply ⊢
      cases hreply with
      | ok hb hm => exact ih _ _ hb _ hm
      | fail hm => exact .ok ha hm
      | raised => exact .raised
  exact fun m hm => (h.bind fun a j ha => hloop _ a j ha) m hm

theorem peek : K.Yields i Parser.peek fun t j => j = i ∧ K.lexed.tokens[i]? = some t := by
  intro m hm
  unfold Parser.peek
  simp only
  cases ht : K.lexed.tokens[i]? with
  | some t => exact .ok ⟨rfl, rfl⟩ hm
  | none =>
    cases K.lexed.fault with
    | some fault => exact .raised
    | none => exact .fail hm

theorem accept {f : Token → Option α} (h : ∀ t a, K.lexed.tokens[i]? = some t → f t = some a →
    Q a (i + 1)) : K.Yields i (Parser.accept f) Q := by
  intro m hm
  have hreply := peek (K := K) (i := i) m hm
  unfold Parser.accept
  generalize Parser.peek _ i m = r at hreply ⊢
  cases hreply with
  | @ok t j m ht hm =>
    obtain ⟨rfl, ht⟩ := ht
    simp only
    cases ha : f t with
    | some a => exact .ok (h t a ht ha) hm
    | none => exact .fail hm
  | fail hm => exact .fail hm
  | raised => exact .raised

theorem sym {mark : Punct} : K.Yields i (Parser.sym mark) fun t j => j = i + 1 ∧
    K.lexed.tokens[i]? = some t ∧ t.kind = .punct mark := by
  refine accept fun t a ht ha => ?_
  split at ha
  · rename_i mark' hkind
    simp only [Option.ite_none_right_eq_some, Option.some.injEq] at ha
    obtain ⟨rfl, rfl⟩ := ha
    exact ⟨rfl, ht, hkind⟩
  · cases ha

theorem kw {word : Keyword} : K.Yields i (Parser.kw word) fun t j => j = i + 1 ∧
    K.lexed.tokens[i]? = some t ∧ t.kind = .keyword word := by
  refine accept fun t a ht ha => ?_
  split at ha
  · rename_i word' hkind
    simp only [Option.ite_none_right_eq_some, Option.some.injEq] at ha
    obtain ⟨rfl, rfl⟩ := ha
    exact ⟨rfl, ht, hkind⟩
  · cases ha

theorem kind {k : Token.Kind} : K.Yields i (Parser.kind k) fun t j => j = i + 1 ∧
    K.lexed.tokens[i]? = some t ∧ t.kind = k := by
  refine accept fun t a ht ha => ?_
  simp only [Option.ite_none_right_eq_some, Option.some.injEq] at ha
  obtain ⟨hkind, rfl⟩ := ha
  exact ⟨rfl, ht, hkind⟩

theorem lineHere : K.Yields i Parser.lineHere fun line j => j = i ∧
    ∃ t, K.lexed.tokens[i]? = some t ∧ t.isLayout = false ∧ line = t.line := by
  refine peek.bind fun t j ht => ?_
  obtain ⟨rfl, ht⟩ := ht
  cases hlayout : t.isLayout with
  | true => exact fail
  | false => exact pure ⟨rfl, t, ht, hlayout, rfl⟩

theorem startHere : K.Yields i Parser.startHere fun start j => j = i ∧
    ∃ t, K.lexed.tokens[i]? = some t ∧ t.isLayout = false ∧ start = ⟨t.line, i⟩ := by
  intro m hm
  have hreply := lineHere (K := K) (i := i) m hm
  unfold Parser.startHere
  generalize Parser.lineHere _ i m = r at hreply ⊢
  cases hreply with
  | ok h hm =>
    obtain ⟨rfl, t, ht, hlayout, rfl⟩ := h
    exact .ok ⟨rfl, t, ht, hlayout, rfl⟩ hm
  | fail hm => exact .fail hm
  | raised => exact .raised

theorem spanFrom {start : Parser.Mark} : K.Yields i (Parser.spanFrom start) fun span j => j = i ∧
    span = ⟨start.line, Parser.lastLineFrom K.lexed.tokens start i⟩ := fun _ hm => .ok ⟨rfl, rfl⟩ hm

/-- Results that are remembered satisfy the contract, and so do new ones. -/
theorem remember {n : Nonterminal} {p : Parser n.Out} (h : K.Yields i p (K.holds n i)) :
    K.Yields i (Parser.remember n p) (K.holds n i) := by
  intro m hm
  unfold Parser.remember
  cases n.isRemembered with
  | false => exact rule h m hm
  | true =>
    simp only [if_true]
    cases hfind : m.find? n i with
    | some r =>
      cases r with
      | none => exact .fail hm
      | some x => exact .ok (hm n i x.1 x.2 hfind) hm
    | none =>
      have hreply := h m hm
      simp only
      generalize p _ i m = r at hreply ⊢
      cases hreply with
      | ok ha hm => exact .ok ha (hm.insert fun _ _ heq => by cases heq; exact ha)
      | fail hm => exact .fail (hm.insert fun _ _ heq => by cases heq)
      | raised => exact .raised

end Yields

end Contract

end NotebookSlice.Syntax
