import NotebookSlice.Proofs.Syntax.Grammar.Compound
import NotebookSlice.Proofs.Syntax.Grammar.Parameter
import NotebookSlice.Proofs.Syntax.Lexing.Shift
import NotebookSlice.Proofs.Syntax.StringLiteral
import NotebookSlice.Syntax.Program

/-! # Programs with the same tokens

What is parsed depends on the kinds of the tokens only. Two texts whose tokens are
of the same kinds give the same statements, up to the lines on which they stand.
How deep the grammar may go makes no difference to what has been parsed.
-/

namespace NotebookSlice.Syntax

open List (Forall₂)

def Lines.any : Lines where
  same _ _ := True
  add _ _ := trivial
  reread _ _ := trivial

def Lines.eq : Lines where
  same := Eq
  add h k := by rw [h]
  reread h k := by rw [h]

abbrev Stmt.SameForm : Stmt → Stmt → Prop := Stmt.Alike fun _ _ => True

namespace Lexed

/-- The tokens are of the same kinds, and both end without a fault or with one. -/
structure SameKinds (a b : Lexed) : Prop where
  kinds : b.tokens.toList.map Token.kind = a.tokens.toList.map Token.kind
  fault : b.fault.isSome = a.fault.isSome

/-- The end of a text that has no fault comes after layout, or after nothing. -/
def Ended (l : Lexed) : Prop :=
  l.fault = none → ∃ ts e, l.tokens.toList = ts ++ [e] ∧ e.kind = .endmarker ∧
    ∀ t ∈ ts.getLast?, t.isLayout = true

variable {a b : Lexed}

theorem Ended.getElem?_last (h : a.Ended) (hfault : a.fault = none) :
    ∃ e, a.tokens[a.tokens.size - 1]? = some e ∧ e.kind = .endmarker := by
  obtain ⟨ts, e, htokens, he, -⟩ := h hfault
  have hsize : a.tokens.size = ts.length + 1 := by simpa using congrArg List.length htokens
  refine ⟨e, ?_, he⟩
  rw [← Array.getElem?_toList, htokens, hsize]
  simp

theorem Ended.succ_lt (h : a.Ended) (hfault : a.fault = none) {i : ℕ} {t : Token}
    (hi : i < a.tokens.size - 1) (ht : a.tokens[i]? = some t) (hplain : t.isLayout = false) :
    i + 1 < a.tokens.size - 1 := by
  obtain ⟨ts, e, htokens, -, hlast⟩ := h hfault
  have hsize : a.tokens.size = ts.length + 1 := by simpa using congrArg List.length htokens
  rw [← Array.getElem?_toList, htokens, List.getElem?_append_left (by omega)] at ht
  rw [hsize] at hi ⊢
  refine Nat.lt_of_le_of_ne (by omega) fun heq => ?_
  have hlayout := hlast t (by
    rw [List.getLast?_eq_getElem?, show ts.length - 1 = i by omega]
    exact ht)
  rw [hplain] at hlayout
  cases hlayout

namespace SameKinds

theorem trans {c : Lexed} (h : a.SameKinds b) (h' : b.SameKinds c) : a.SameKinds c :=
  ⟨h'.kinds.trans h.kinds, h'.fault.trans h.fault⟩

theorem forall₂_tokens (h : a.SameKinds b) :
    Forall₂ (Token.Alike Lines.any.same) a.tokens.toList b.tokens.toList := by
  have hkinds : Forall₂ (fun t t' : Token => t'.kind = t.kind) a.tokens.toList b.tokens.toList := by
    have hmap := List.forall₂_eq_eq_eq.symm ▸ h.kinds.symm
    exact (List.forall₂_map_left_iff.mp (List.forall₂_map_right_iff.mp hmap)).imp
      fun _ _ => Eq.symm
  exact hkinds.imp fun _ _ hkind => ⟨hkind, fun _ => trivial, fun _ => trivial⟩

theorem weight (h : a.SameKinds b) : b.weight = a.weight := by
  have hweight (l : Lexed) : l.weight =
      (l.tokens.toList.map Token.kind).foldr (fun k n => (⟨k, 0, 0, 0⟩ : Token).weight + n) 0 := by
    rw [Lexed.weight, List.foldr_map]
    rfl
  rw [hweight, hweight, h.kinds]

end SameKinds

end Lexed

theorem ended_lex (firstLine : ℕ) (text : List Char) : (lex firstLine text).Ended := by
  have hcomplete := Lexer.complete_unifyLineEnds text
  obtain ⟨ts, f, hlexes⟩ := Lexer.exists_lexes (s := .start firstLine) (.inr hcomplete)
  rw [Lexer.lex_eq hlexes]
  intro hfault
  simp only at hfault
  subst hfault
  obtain ⟨us, e, rfl, he, hlast, -⟩ := hlexes.ending (.inr hcomplete)
  exact ⟨us, e, rfl, he, hlast⟩

theorem sameKinds_lex (m n : ℕ) (text : List Char) : (lex m text).SameKinds (lex n text) := by
  have hcomplete := Lexer.complete_unifyLineEnds text
  obtain ⟨ts, f, hlexes⟩ := Lexer.exists_lexes (s := .start m) (.inr hcomplete)
  obtain ⟨ts', f', hlexes', hkinds, hfault⟩ :=
    hlexes.exists_alike (⟨rfl, rfl, rfl⟩ : Lexer.State.Alike (.start m) (.start n))
  rw [Lexer.lex_eq hlexes, Lexer.lex_eq hlexes']
  exact ⟨hkinds, hfault⟩

theorem rel_getElem?_of_forall₂ {α β : Type} {R : α → β → Prop} {xs : List α} {ys : List β}
    (h : Forall₂ R xs ys) (i : ℕ) : Option.Rel R xs[i]? ys[i]? := by
  induction h generalizing i with
  | nil => exact .none
  | cons hhead _ ih =>
    cases i with
    | zero => exact .some hhead
    | succ i => exact ih i

/-- The tokens of `b` are `pre` and then those of `a`, up to lines. -/
structure Lexed.Continues (L : Lines) (a b : Lexed) (pre : List Token) : Prop where
  exists_tokens : ∃ ts, b.tokens.toList = pre ++ ts ∧
    Forall₂ (Token.Alike L.same) a.tokens.toList ts
  ended : a.Ended

namespace Lexed

variable {a b : Lexed} {L : Lines} {pre : List Token}

theorem SameKinds.continues (h : a.SameKinds b) (hended : a.Ended) : a.Continues .any b [] :=
  ⟨⟨_, rfl, h.forall₂_tokens⟩, hended⟩

theorem Continues.refl (a : Lexed) (hended : a.Ended) : a.Continues .eq a [] :=
  ⟨⟨_, rfl, List.forall₂_same.mpr fun _ _ => ⟨rfl, fun _ => rfl, fun _ => rfl⟩⟩, hended⟩

namespace Continues

variable (h : a.Continues L b pre)
include h

theorem size : b.tokens.size = a.tokens.size + pre.length := by
  obtain ⟨ts, htokens, halike⟩ := h.exists_tokens
  rw [← Array.length_toList, htokens, List.length_append, ← halike.length_eq, Nat.add_comm,
    Array.length_toList]

theorem token (i : ℕ) :
    Option.Rel (Token.Alike L.same) a.tokens[i]? b.tokens[i + pre.length]? := by
  obtain ⟨ts, htokens, halike⟩ := h.exists_tokens
  rw [← Array.getElem?_toList, ← Array.getElem?_toList, htokens, Nat.add_comm,
    List.getElem?_append_right (Nat.le_add_right _ _), Nat.add_sub_cancel_left]
  exact rel_getElem?_of_forall₂ halike i

end Continues

end Lexed

namespace Frame

variable {a b : Lexed} {L : Lines} {pre : List Token}

/-- The frame of a whole text and the end of another one. -/
def ending (h : a.Continues L b pre) : Frame where
  lines := L
  left := a
  right := b
  shift := pre.length
  stop := if a.fault.isSome then a.tokens.size + 1 else a.tokens.size - 1
  closed := True
  level _ := 0
  size_le := by rw [h.size]; exact Nat.le_add_right _ _
  fits_left := by split <;> omega
  fits_right := by
    have := h.size
    split <;> omega
  token i _ := h.token i
  inner := by
    intro i t hi ht hplain
    obtain ⟨hlt, -⟩ := Array.getElem?_eq_some_iff.mp ht
    split at hi
    · split <;> omega
    · rename_i hfault
      rw [if_neg hfault]
      exact h.ended.succ_lt (by simpa using hfault) hi ht hplain
  broken := by
    intro i hi hnone
    by_contra hfault
    rw [if_neg hfault] at hi
    obtain ⟨e, he, -⟩ := h.ended.getElem?_last (by simpa using hfault)
    obtain ⟨hlt, -⟩ := Array.getElem?_eq_some_iff.mp he
    have := Array.getElem?_eq_none_iff.mp hnone
    omega
  barred := by
    intro _ t ht
    split at ht
    · have := (Array.getElem?_eq_some_iff.mp ht).1
      omega
    · rename_i hfault
      obtain ⟨e, he, hkind⟩ := h.ended.getElem?_last (by simpa using hfault)
      rw [ht] at he
      rw [Option.some.inj he, hkind]
      rfl
  level_nonneg h := absurd trivial h
  level_stop h := absurd trivial h
  level_succ h := absurd trivial h

variable {h : a.Continues L b pre}

instance clean_ending : (ending h).Clean where
  boundary := by
    intro t ht
    have htokens := h.token (ending h).stop
    have hstop : a.tokens[(ending h).stop]? = some t := ht
    have hkind : t.kind = .endmarker := by
      by_cases hfault : a.fault.isSome
      · have hsize : a.tokens.size + 1 < a.tokens.size := by
          simpa [ending, hfault] using (Array.getElem?_eq_some_iff.mp hstop).1
        omega
      · obtain ⟨e, he, hkind⟩ := h.ended.getElem?_last (by simpa using hfault)
        rw [show (ending h).stop = a.tokens.size - 1 by simp [ending, hfault], he] at hstop
        rw [← Option.some.inj hstop, hkind]
    rw [hstop] at htokens
    generalize hright : b.tokens[(ending h).stop + pre.length]? = x at htokens
    cases htokens with
    | @some _ t' halike =>
      exact ⟨by rw [hkind]; rfl, t', hright, by rw [halike.kind, hkind]; rfl⟩

/-! ## The whole grammar -/

variable {F : Frame} {g g' : Engine}

theorem Engines.strings {P : Region} [P.Le .edge] (hg : F.Engines g g') :
    F.Agrees P .inside (Expr.Alike F.lines.same) (Grammar.strings g) (Grammar.strings g') := by
  refine .bind (R := fun xs ys => Forall₂ (SameText F.lines.same) xs ys ∧ xs ≠ [])
    (.bind .stringToken fun _ _ ha => .bind (.many .stringToken) fun _ _ has =>
      .pure ⟨.cons ha has, List.cons_ne_nil _ _⟩) ?_
  rintro literals literals' ⟨hliterals, hne⟩
  have hread {l l' : ℕ} {text : List Char} (hl : F.lines.same l l') :
      Carries (Expr.Alike F.lines.same) (g.embedded l text) (g'.embedded l' text) :=
    fun _ he => hg.embedded hl he
  have hcarries := StringLiteral.value_carries @F.lines.add @hread hliterals hne
  generalize StringLiteral.value g.embedded literals = x,
    StringLiteral.value g'.embedded literals' = x' at hcarries
  constructor
  intro i m m' hi hm
  cases x with
  | error place => cases place <;> exact .raised
  | ok e =>
    obtain ⟨e', rfl, he⟩ := hcarries e rfl
    exact (Agrees.pure he).reply i m m' hi hm

theorem Engines.production {P : Region} [P.Le .edge] (hg : F.Engines g g') (n : Nonterminal)
    (hn : n.isPlain = true) :
    F.Agrees P .inside (n.Alike F.lines.same) (production g n) (production g' n) := by
  cases n with
  | file | block | elifClause | misplacedAssignment | annotationTarget => cases hn
  | replacement => exact hg.starExpressions
  | simpleStatement => exact hg.simpleStatementBody
  | expression => exact hg.expressionBody
  | starExpression => exact hg.starExpressionBody
  | disjunction => exact .joined (hg.call .conjunction rfl)
  | conjunction => exact .joined (hg.call .inversion rfl)
  | inversion => exact hg.inversionBody
  | bitwiseOr => exact .chain (hg.call .bitwiseXor rfl)
  | bitwiseXor => exact .chain (hg.call .bitwiseAnd rfl)
  | bitwiseAnd => exact .chain (hg.call .shift rfl)
  | shift => exact .chain (hg.call .sum rfl)
  | sum => exact .chain (hg.call .term rfl)
  | term => exact .chain (hg.call .factor rfl)
  | factor => exact hg.factorBody
  | awaitPrimary => exact hg.awaitPrimaryBody
  | primary => exact hg.primaryBody
  | strings => exact hg.strings
  | arguments => exact hg.argumentsBody
  | starTarget => exact hg.starTargetBody
  | unparenthesizedTarget => exact hg.unparenthesizedTargetBody
  | targetPrimary => exact hg.targetPrimaryBody
  | deleteTarget => exact hg.deleteTargetBody
  | singleTarget => exact hg.singleTargetBody
  | closedPattern => exact hg.closedPatternBody
  | starPattern => exact .starPatternBody
  | attributePath => exact .attributePathBody
  | dottedName => exact .dottedNameBody

theorem memories_empty : (ending h).Memories (.empty a.tokens.size) (.empty b.tokens.size) where
  size_left := by
    have := (ending h).fits_left
    simp only [Memory.empty, Array.size_replicate]
    exact Nat.lt_succ_of_le this
  size_right := by
    simp only [Memory.empty, Array.size_replicate]
    exact Nat.lt_succ_self _
  related n i _ := by
    rw [Memory.find?_empty, Memory.find?_empty]
    exact .none
  fresh hclosed := absurd trivial hclosed

end Frame

open NotebookSlice.Syntax.Frame

variable {g g' : Engine} {l l' : ℕ} {text text' : List Char} {L : Lines}

theorem exists_of_run {n : Nonterminal} {v : n.Out} (h : run g n l text = .ok v) :
    ∃ j m, g.call n ⟨lex l text, false⟩ 0 (.empty (lex l text).tokens.size) = .ok v j m := by
  unfold run at h
  simp only at h
  split at h
  · rename_i hcall
    cases h
    exact ⟨_, _, hcall⟩
  · cases h
  · split at h
    · cases h
    · split at h <;> cases h
    · split at h <;> cases h

theorem run_of_call {n : Nonterminal} {v : n.Out} {j : ℕ} {m : Memory}
    (h : g.call n ⟨lex l text, false⟩ 0 (.empty (lex l text).tokens.size) = .ok v j m) :
    run g n l text = .ok v := by
  rw [run]
  simp only [h]

theorem run_alike {n : Nonterminal} {Q : Region} {v : n.Out}
    (h : (lex l text).Continues L (lex l' text') [])
    (hcall : (ending h).Agrees .edge Q (n.Alike L.same) (g.call n) (g'.call n))
    (hrun : run g n l text = .ok v) :
    ∃ v', run g' n l' text' = .ok v' ∧ n.Alike L.same v v' := by
  obtain ⟨j, m, hleft⟩ := exists_of_run hrun
  have hreply := hcall.reply 0 _ _ ?_ memories_empty
  · change (ending h).Replies Q _ 0 (g.call n ⟨lex l text, false⟩ 0 _)
      (g'.call n ⟨lex l' text', false⟩ 0 _) at hreply
    rw [hleft] at hreply
    generalize hright : g'.call n ⟨lex l' text', false⟩ 0 _ = r at hreply
    cases hreply with
    | ok _ _ _ hv _ => exact ⟨_, run_of_call hright, hv⟩
  · exact (Nat.eq_zero_or_pos _).symm.imp_right fun hzero => ⟨trivial, hzero.symm⟩

/-- How a text on one line compares with itself on another one. -/
class Lines.Rereads (L : Lines) : Prop where
  continues : ∀ {l l' : ℕ} (text : List Char), L.same l l' →
    (lex l text).Continues L (lex l' text) []

instance Lines.rereads_any : Lines.any.Rereads where
  continues text _ := (sameKinds_lex _ _ text).continues (ended_lex _ text)

instance Lines.rereads_eq : Lines.eq.Rereads where
  continues text hl := hl ▸ .refl _ (ended_lex _ text)

theorem engines_engine {depth depth' : ℕ} (hle : depth ≤ depth') (F : Frame) [F.lines.Rereads] :
    F.Engines (engine depth) (engine depth') := by
  induction depth generalizing depth' F with
  | zero =>
    refine ⟨fun n _ _ _ => .exhausted, .exhausted, .exhausted, fun _ he => nomatch he⟩
  | succ depth ih =>
    obtain ⟨depth', rfl⟩ : ∃ d, depth' = d + 1 := ⟨depth' - 1, by omega⟩
    have hg := ih (Nat.le_of_succ_le_succ hle) F
    refine ⟨fun n hn P _ => ?_, ?_, ?_, ?_⟩
    · have hexit : n.exit = .inside := by
        cases n <;> first | rfl | cases hn
      exact hexit ▸ Agrees.remember (hexit ▸ hg.production n hn)
    · exact Agrees.remember (n := .block) hg.blockBody
    · exact .rule hg.elifClauseBody
    · intro l l' text e hl he
      have hcontinues := Lines.Rereads.continues text hl
      have hinner := @ih depth' (Nat.le_of_succ_le_succ hle) (ending hcontinues) ‹_›
      exact run_alike hcontinues (hinner.call .replacement rfl) he

namespace Parser

variable {α β : Type} {p : Parser α} {f : α → Parser β} {input : Input} {i j : ℕ} {m m' : Memory}

theorem bind_eq_ok {b : β} : (p >>= f) input i m = .ok b j m' ↔
    ∃ a k m₁, p input i m = .ok a k m₁ ∧ f a input k m₁ = .ok b j m' := by
  rw [bind_apply, Parser.bind]
  cases p input i m <;> simp

theorem rule_eq_ok {a : α} : rule p input i m = .ok a j m' ↔ p input i m = .ok a j m' := by
  unfold rule
  cases p input i m <;> simp

theorem kind_eq_ok {k : Token.Kind} {t : Token} : kind k input i m = .ok t j m' ↔
    input.lexed.tokens[i]? = some t ∧ t.kind = k ∧ j = i + 1 ∧ m' = m.reach (i + 1) := by
  unfold kind accept peek
  cases input.lexed.tokens[i]? with
  | none => cases input.lexed.fault <;> simp
  | some t' =>
    simp only
    by_cases hkind : t'.kind = k
    · simp only [hkind, if_true, Reply.ok.injEq, Option.some.injEq]
      grind
    · simp only [hkind, if_false, reduceCtorEq, false_iff, Option.some.injEq]
      grind

end Parser

theorem fileBody_alike {a b : Lexed} {h : a.Continues L b []} (hg : (ending h).Engines g g')
    {ss : LegalStmts} {j : ℕ} {m m₁ m' : Memory} (hm : (ending h).Memories m m')
    (hleft : Grammar.fileBody g ⟨a, false⟩ 0 m = .ok ss j m₁) :
    ∃ ss' m₁', Grammar.fileBody g' ⟨b, false⟩ 0 m' = .ok ss' j m₁' ∧
      LegalStmts.Alike L.same ss ss' := by
  have hsuites := (Agrees.many hg.statement).reply 0 m m'
    ⟨Nat.zero_le _, fun hopen => absurd trivial hopen⟩ hm
  obtain ⟨suites, i, m₂, hmany, hend⟩ := Parser.bind_eq_ok.mp hleft
  obtain ⟨t, k, m₃, hkind, hreturn⟩ := Parser.bind_eq_ok.mp hend
  obtain ⟨ht, hendmarker, rfl, -⟩ := Parser.kind_eq_ok.mp hkind
  cases hreturn
  change (ending h).Replies .nested _ 0 (Parser.many _ ⟨a, false⟩ 0 m)
    (Parser.many _ ⟨b, false⟩ 0 m') at hsuites
  rw [hmany] at hsuites
  generalize hright : Parser.many (Grammar.statement g') ⟨b, false⟩ 0 m' = r at hsuites
  cases hsuites with
  | @ok _ suites' _ _ m₂' _ _ _ hsuites _ =>
    have htoken := h.token i
    rw [show a.tokens[i]? = some t from ht] at htoken
    generalize ht' : b.tokens[i + ([] : List Token).length]? = x at htoken
    cases htoken with
    | @some _ t' halike =>
      refine ⟨Suite.all suites', _, Parser.bind_eq_ok.mpr ⟨_, _, _, hright, Parser.bind_eq_ok.mpr
        ⟨t', _, _, Parser.kind_eq_ok.mpr ⟨ht', halike.kind.trans hendmarker, rfl, rfl⟩, rfl⟩⟩, ?_⟩
      exact List.rel_flatMap hsuites fun _ _ hsuite => hsuite

theorem exists_fileBody_of_parse {ss : List Stmt} (h : parse l text = .ok ss) :
    ∃ depth legal j m, depthFor (lex l text).weight = depth + 1 ∧ legal.val = ss ∧
      Grammar.fileBody (engine depth) ⟨lex l text, false⟩ 0 (.empty (lex l text).tokens.size) =
        .ok legal j m := by
  unfold parse parseLegal at h
  generalize hlegal : run (engine (depthFor (lex l text).weight)) .file l text = r at h
  cases r with
  | error line => cases h
  | ok legal =>
    cases h
    obtain ⟨j, m, hcall⟩ := exists_of_run hlegal
    obtain ⟨depth, hdepth⟩ : ∃ depth, depthFor (lex l text).weight = depth + 1 :=
      ⟨32 * (lex l text).weight + 127, by simp only [depthFor]; omega⟩
    rw [hdepth] at hcall
    exact ⟨depth, legal, j, m, hdepth, rfl, Parser.rule_eq_ok.mp hcall⟩

/-- Texts with the same tokens have the same statements, on other lines. -/
theorem parse_sameForm {ss : List Stmt} (h : (lex l text).SameKinds (lex l' text'))
    (hparse : parse l text = .ok ss) :
    ∃ ss', parse l' text' = .ok ss' ∧ Forall₂ Stmt.SameForm ss ss' := by
  obtain ⟨depth, legal, j, m, hdepth, rfl, hleft⟩ := exists_fileBody_of_parse hparse
  have hcontinues := h.continues (ended_lex l text)
  have : (ending hcontinues).lines.Rereads := Lines.rereads_any
  obtain ⟨ss', m', hright, hss⟩ := fileBody_alike
    (engines_engine (Nat.le_refl depth) (ending hcontinues)) memories_empty hleft
  refine ⟨ss'.val, ?_, hss⟩
  rw [parse, parseLegal, h.weight, hdepth, run_of_call (n := .file) (Parser.rule_eq_ok.mpr hright)]
  rfl

end NotebookSlice.Syntax
