import Mathlib.Algebra.Ring.Nat
import NotebookSlice.Proofs.Syntax.Extent.Laid
import NotebookSlice.Proofs.Syntax.Lexing.Sequence
import NotebookSlice.Proofs.Syntax.Program

/-! # Programs one after the other

Two programs with a line feed between them are one program, with the statements of the
first and then those of the second. Up to the end of the first one the longer text is
read as the first one alone, and from there on as the second one: what is remembered
does not reach beyond the place where they meet.
-/

namespace NotebookSlice.Syntax

open Text
open List (Forall₂)

/-! ## Answers with a result -/

namespace Parser

variable {α β : Type} {p q : Parser α} {input : Input} {a : α} {i j : ℕ} {m m' : Memory}

theorem orElse_eq_ok : (p <|> q) input i m = .ok a j m' ↔ p input i m = .ok a j m' ∨
    ∃ m₁, p input i m = .fail false m₁ ∧ q input i m₁ = .ok a j m' := by
  rw [orElse_apply, Parser.orElse]
  cases p input i m with
  | ok => simp
  | fail final m₁ => cases final <;> simp
  | raised => simp

theorem exists_of_bind_fail {f : α → Parser β} {final : Bool}
    (h : (p >>= f) input i m = .fail final m') : p input i m = .fail final m' ∨
      ∃ a k m₁, p input i m = .ok a k m₁ ∧ f a input k m₁ = .fail final m' := by
  rw [bind_apply, Parser.bind] at h
  cases hp : p input i m with
  | ok a k m₁ => exact .inr ⟨a, k, m₁, rfl, by rwa [hp] at h⟩
  | fail => exact .inl (by simpa [hp] using h)
  | raised => rw [hp] at h; cases h

theorem bind_of_fail {f : α → Parser β} {final : Bool} (h : p input i m = .fail final m') :
    (p >>= f) input i m = .fail final m' := by
  rw [bind_apply, Parser.bind, h]

theorem commit_ne_fail : commit p input i m ≠ .fail false m' := by
  unfold commit
  cases p input i m <;> simp

theorem commit_eq_ok : commit p input i m = .ok a j m' ↔ p input i m = .ok a j m' := by
  unfold commit
  cases p input i m <;> simp

theorem exists_of_followedBy {u : Unit} (h : followedBy p input i m = .ok u j m') :
    j = i ∧ ∃ a k, p input i m = .ok a k m' := by
  unfold followedBy at h
  cases hp : p input i m with
  | ok a k m₁ =>
    rw [hp] at h
    cases h
    exact ⟨rfl, a, k, rfl⟩
  | fail => rw [hp] at h; cases h
  | raised => rw [hp] at h; cases h

theorem exists_of_startHere {s : Mark} (h : startHere input i m = .ok s j m') :
    j = i ∧ ∃ t, input.lexed.tokens[i]? = some t ∧ t.isLayout = false := by
  obtain ⟨lexed, diagnosing⟩ := input
  cases ht : lexed.tokens[i]? with
  | none =>
    unfold startHere lineHere at h
    rw [bind_apply, Parser.bind] at h
    unfold peek at h
    rw [ht] at h
    cases hfault : lexed.fault <;> simp [hfault] at h
  | some t =>
    rw [startHere_of_getElem? ht] at h
    split at h
    · cases h
    · rename_i hplain
      cases h
      exact ⟨rfl, t, rfl, by simpa using hplain⟩

theorem le_of_manyLoop {n : ℕ} {acc as : List α} (h : manyLoop p n acc input i m = .ok as j m') :
    i ≤ j := by
  induction n generalizing acc i m with
  | zero => cases h
  | succ n ih =>
    unfold manyLoop at h
    cases hp : p input i m with
    | ok a next m₁ =>
      simp only [hp] at h
      split at h
      · rename_i hlt
        exact Nat.le_trans (Nat.le_of_lt hlt) (ih h)
      · cases h
    | fail final m₁ =>
      simp only [hp] at h
      cases h
      exact Nat.le_refl _
    | raised => simp only [hp] at h; cases h

/-- What has been read before a repetition comes before its results. -/
theorem manyLoop_append {n : ℕ} {acc as : List α} (before : List α)
    (h : manyLoop p n acc input i m = .ok as j m') :
    manyLoop p n (acc ++ before) input i m = .ok (before.reverse ++ as) j m' := by
  induction n generalizing acc i m with
  | zero => cases h
  | succ n ih =>
    unfold manyLoop at h ⊢
    cases hp : p input i m with
    | ok a next m₁ =>
      simp only [hp] at h ⊢
      split at h
      · rename_i hlt
        rw [if_pos hlt]
        exact ih h
      · cases h
    | fail final m₁ =>
      simp only [hp] at h ⊢
      cases h
      rw [List.reverse_append]
    | raised => simp only [hp] at h; cases h

end Parser

namespace Frame

variable {α β : Type} {F : Frame} {Q : Region} {R : α → β → Prop} {i j : ℕ} {a : α} {m : Memory}
  {r : Reply β}

theorem Replies.exists_of_ok (h : F.Replies Q R i (.ok a j m) r) :
    ∃ b m', r = .ok b (j + F.shift) m' ∧ F.At Q j ∧ R a b ∧ F.Memories m m' := by
  cases h with
  | ok hj _ _ hR hm => exact ⟨_, _, rfl, hj, hR, hm⟩

theorem Replies.exists_of_fail {final : Bool} (h : F.Replies Q R i (.fail final m) r) :
    ∃ m', r = .fail final m' ∧ F.Memories m m' := by
  cases h with
  | fail hm => exact ⟨_, rfl, hm⟩

end Frame

/-! ## The first token -/

/-- The frame of a text with itself that ends at once, before a token that begins nothing. -/
def Frame.barring (l : Lexed) {t : Token} (ht : l.tokens[0]? = some t)
    (hopens : t.kind.opens = false) : Frame where
  lines := .eq
  left := l
  right := l
  shift := 0
  stop := 0
  closed := t.kind.opens = false
  level _ := 0
  size_le := Nat.le_refl _
  fits_left := Nat.zero_le _
  fits_right := Nat.zero_le _
  token i _ := by
    rw [Nat.add_zero]
    cases l.tokens[i]? with
    | none => exact .none
    | some u => exact .some ⟨rfl, fun _ => rfl, fun _ => rfl⟩
  inner i _ h := absurd h (Nat.not_lt_zero i)
  broken i hi hnone := by
    obtain rfl := Nat.le_zero.mp hi
    rw [ht] at hnone
    cases hnone
  barred _ u hu := by
    rw [ht] at hu
    exact Option.some.inj hu ▸ hopens
  level_nonneg h := absurd hopens h
  level_stop h := absurd hopens h
  level_succ h := absurd hopens h

theorem Token.Kind.opens_of_bounds {k : Token.Kind} (h : k.bounds = false) : k.opens = false := by
  unfold bounds at h
  split at h <;> first | rfl | cases h

/-- No compound statement begins with layout, or with a word that goes on with a statement. -/
theorem Grammar.refuses_compoundStatement (g : Engine) :
    (compoundStatement g).Refuses fun k => !k.bounds :=
  .rule (.orElse (.bind (.followedBy (.orElse (.kw rfl) (.kw rfl)))) (.orElse
    (.bind (.followedBy (.kw rfl))) (.orElse
    (.bind (.followedBy (.kw rfl))) (.orElse
    (.bind (.followedBy (.orElse (.kw rfl) (.kw rfl)))) (.orElse
    (.bind (.followedBy (.orElse (.kw rfl) (.kw rfl)))) (.orElse
    (.bind (.followedBy (.kw rfl))) (.orElse
    (.bind (.followedBy (.kw rfl)))
    (.rule (.startHere fun _ => .orElse_diagnose
      (.bind (.bind (.soft fun _ => rfl))))))))))))

/-- The second alternative gives the result where the first one refuses the token. -/
theorem Parser.Refuses.exists_of_orElse {α : Type} {P : Token.Kind → Bool} {p q : Parser α}
    (hp : p.Refuses P) {l : Lexed} {i j : ℕ} {t : Token} {a : α} {m m' : Memory}
    (ht : l.tokens[i]? = some t) (hP : P t.kind = true)
    (h : (p <|> q) ⟨l, false⟩ i m = .ok a j m') :
    ∃ m₁, q ⟨l, false⟩ i m₁ = .ok a j m' ∧ m₁.entries = m.entries := by
  obtain ⟨m₁, hrefused, hm₁⟩ := hp.refuses m ht hP
  rcases orElse_eq_ok.mp h with h | ⟨m₂, hfail, h⟩
  · rw [hrefused] at h
    cases h
  · rw [hrefused] at hfail
    cases hfail
    exact ⟨m₁, h, hm₁⟩

open Grammar in
/-- A statement does not go beyond a token that no statement begins with. -/
theorem eq_zero_of_statement {depth : ℕ} {l : Lexed} {t : Token} {suite : Suite} {j : ℕ}
    {m' : Memory} (ht : l.tokens[0]? = some t) (hbounds : t.kind.bounds = false)
    (h : statement (engine depth) ⟨l, false⟩ 0 (.empty l.tokens.size) = .ok suite j m') :
    j = 0 := by
  have hrefused : (!t.kind.bounds) = true := by rw [hbounds]; rfl
  have hdecorated : (decorated (engine depth)).Refuses fun k => !k.bounds :=
    .bind (.followedBy (.sym rfl))
  obtain ⟨m₁, h, hm₁⟩ := hdecorated.bind.exists_of_orElse ht hrefused (Parser.rule_eq_ok.mp h)
  obtain ⟨m₂, h, hm₂⟩ := (refuses_compoundStatement _).bind.exists_of_orElse ht hrefused h
  have hopens := Token.Kind.opens_of_bounds hbounds
  let F := Frame.barring l ht hopens
  have : F.lines.Rereads := Lines.rereads_eq
  have hm : F.Memories m₂ m₂ := by
    have hentries : m₂.entries = (Memory.empty l.tokens.size).entries := hm₂.trans hm₁
    have hfind (n : Nonterminal) (i : ℕ) : m₂.find? n i = none := by
      rw [Memory.find?, hentries]
      exact Memory.find?_empty _
    constructor
    · simp [hentries, Memory.empty, F, Frame.barring]
    · simp [hentries, Memory.empty, F, Frame.barring]
    · intro n i _
      rw [hfind, hfind]
      exact .none
    · exact fun ho => absurd hopens ho
  have hreply := ((engines_engine (Nat.le_refl depth) F).simpleStatements (P := .edge)).reply 0 m₂
    m₂ (.inr ⟨hopens, rfl⟩) hm
  change F.Replies _ _ 0 (simpleStatements (engine depth) ⟨l, false⟩ 0 m₂)
    (simpleStatements (engine depth) ⟨l, false⟩ 0 m₂) at hreply
  rw [h] at hreply
  obtain ⟨_, _, -, hj, -⟩ := hreply.exists_of_ok
  exact Nat.le_zero.mp hj

/-- The first token of a program is no layout but its end, and no word that goes on with a
statement. -/
theorem exists_of_parse {l : ℕ} {text : List Char} {ss : List Stmt} (h : parse l text = .ok ss) :
    ∃ t, (lex l text).tokens[0]? = some t ∧ t.kind.bounds = true := by
  obtain ⟨depth, legal, j, m, -, -, hbody⟩ := exists_fileBody_of_parse h
  obtain ⟨suites, i, m₁, hmany, hend⟩ := Parser.bind_eq_ok.mp hbody
  obtain ⟨e, k, m₂, hend, -⟩ := Parser.bind_eq_ok.mp hend
  obtain ⟨he, hkind, -⟩ := Parser.kind_eq_ok.mp hend
  simp only at he
  cases ht : (lex l text).tokens[0]? with
  | none =>
    have hsize := Array.getElem?_eq_none_iff.mp ht
    have := (Array.getElem?_eq_some_iff.mp he).1
    omega
  | some t =>
    refine ⟨t, rfl, ?_⟩
    by_contra hbounds
    rw [Bool.not_eq_true] at hbounds
    unfold Parser.many Parser.manyLoop at hmany
    cases hfirst : Grammar.statement (engine depth) ⟨lex l text, false⟩ 0
        (.empty (lex l text).tokens.size) with
    | ok suite next m₃ =>
      obtain rfl := eq_zero_of_statement ht hbounds hfirst
      simp [hfirst, Parser.exhausted] at hmany
    | fail final m₃ =>
      simp only [hfirst] at hmany
      cases hmany
      rw [ht] at he
      rw [Option.some.inj he, hkind] at hbounds
      cases hbounds
    | raised => simp [hfirst] at hmany

/-! ## The first text -/

namespace Lexed.Joins

variable {a b c : Lexed} {as as' : List Token} (h : a.Joins b c as as')
include h

theorem size_left : a.tokens.size = as.length + 1 := by
  obtain ⟨e, he, -⟩ := h.left
  rw [← Array.length_toList, he, List.length_append, List.length_singleton]

theorem size_whole : c.tokens.size = as.length + b.tokens.size := by
  rw [← Array.length_toList, h.whole, List.length_append, ← h.alike.length_eq]
  rfl

theorem getElem?_left {i : ℕ} (hi : i < as.length) : a.tokens[i]? = as[i]? := by
  obtain ⟨e, he, -⟩ := h.left
  rw [← Array.getElem?_toList, he, List.getElem?_append_left hi]

theorem getElem?_whole {i : ℕ} (hi : i < as.length) : c.tokens[i]? = as'[i]? := by
  rw [← Array.getElem?_toList, h.whole, List.getElem?_append_left (h.alike.length_eq ▸ hi)]

theorem getElem?_whole_add (i : ℕ) : c.tokens[as.length + i]? = b.tokens[i]? := by
  rw [← Array.getElem?_toList, h.whole, h.alike.length_eq,
    List.getElem?_append_right (Nat.le_add_right _ _), Nat.add_sub_cancel_left,
    Array.getElem?_toList]

theorem exists_end : ∃ e, a.tokens[as.length]? = some e ∧ e.kind = .endmarker := by
  obtain ⟨e, he, hkind⟩ := h.left
  refine ⟨e, ?_, hkind⟩
  rw [← Array.getElem?_toList, he, List.getElem?_append_right (Nat.le_refl _), Nat.sub_self]
  rfl

theorem continues (hended : b.Ended) : b.Continues .eq c as' :=
  ⟨⟨_, h.whole, List.forall₂_same.mpr fun _ _ => ⟨rfl, fun _ => rfl, fun _ => rfl⟩⟩, hended⟩

end Lexed.Joins

/-- The first text has no fault, and nothing at the beginning of the second one goes on with it. -/
structure Lexed.Composes (a b c : Lexed) (as as' : List Token) : Prop extends
    a.Joins b c as as' where
  ended : a.Ended
  fault : a.fault = none
  first : ∃ t, b.tokens[0]? = some t ∧ t.kind.bounds = true

namespace Frame

variable {a b c : Lexed} {as as' : List Token}

/-- What two texts have in common of which the second one goes on after the end of the first one. -/
def opening (h : a.Composes b c as as') : Frame where
  lines := .eq
  left := a
  right := c
  shift := 0
  stop := as.length
  closed := False
  level i := Lexer.blocks (as.take i)
  size_le := by
    obtain ⟨t, ht, -⟩ := h.first
    have := (Array.getElem?_eq_some_iff.mp ht).1
    have := h.size_left
    have := h.size_whole
    omega
  fits_left := by have := h.size_left; omega
  fits_right := by have := h.size_whole; omega
  token i hi := by
    have hlt := hi.resolve_right fun h => h.1
    rw [Nat.add_zero, h.getElem?_left hlt, h.getElem?_whole hlt]
    exact rel_getElem?_of_forall₂ h.alike i
  inner i t hi ht hplain := by
    have hsize := h.size_left
    have := h.ended.succ_lt h.fault (by omega) ht hplain
    omega
  broken i hi hnone := by
    have := Array.getElem?_eq_none_iff.mp hnone
    have := h.size_left
    omega
  barred h := h.elim
  level_nonneg _ i _ := h.blocks_nonneg _ _ (List.take_append_drop i as).symm
  level_stop _ := by rw [List.take_length]; exact h.blocks
  level_succ _ i t hi ht := by
    rw [h.getElem?_left hi] at ht
    rw [List.take_add_one, ht, Lexer.blocks_append]
    exact congrArg _ (Int.add_zero _)

variable {h : a.Composes b c as as'}

instance clean_opening : (opening h).Clean where
  boundary t ht := by
    obtain ⟨e, he, hkind⟩ := h.exists_end
    obtain ⟨u, hu, hbounds⟩ := h.first
    obtain rfl : e = t := Option.some.inj (he.symm.trans ht)
    exact ⟨by rw [hkind]; rfl, u, (h.getElem?_whole_add 0).trans hu, hbounds⟩

theorem lt_of_opening {i : ℕ} {t : Token} (ht : a.tokens[i]? = some t)
    (hplain : t.isLayout = false) : i < (opening h).stop := by
  have hsize := h.size_left
  have hlt := (Array.getElem?_eq_some_iff.mp ht).1
  refine Nat.lt_of_le_of_ne (by simp only [opening]; omega) ?_
  rintro rfl
  obtain ⟨e, he, hkind⟩ := h.exists_end
  obtain rfl : e = t := Option.some.inj (he.symm.trans ht)
  rw [Token.isLayout_eq, hkind] at hplain
  cases hplain

/-! ## The way to the boundary -/

variable {F : Frame} {α β : Type} {R : α → β → Prop} {p : Parser α} {p' : Parser β}

/-- To a result on the left from inside of the stretch corresponds one on the right. -/
def Follows (F : Frame) (R : α → β → Prop) (p : Parser α) (p' : Parser β) : Prop :=
  ∀ ⦃i j : ℕ⦄ ⦃x : α⦄ ⦃m m' m₁ : Memory⦄, i < F.stop → F.Memories m m' →
    p ⟨F.left, false⟩ i m = .ok x j m₁ → ∃ y m₁', p' ⟨F.right, false⟩ (i + F.shift) m' =
      .ok y (j + F.shift) m₁' ∧ R x y ∧ F.Memories m₁ m₁'

theorem Agrees.follows {Q : Region} (h : F.Agrees .inside Q R p p') : F.Follows R p p' := by
  intro i j x m m' m₁ hi hm hleft
  have hreply := h.reply i m m' hi hm
  rw [hleft] at hreply
  obtain ⟨y, m₁', hright, -, hR, hm₁⟩ := hreply.exists_of_ok
  exact ⟨y, m₁', hright, hR, hm₁⟩

/-- A repetition that ends before the boundary ends there on both sides. -/
theorem Agrees.follows_manyLoop {Q : Region} (h : F.Agrees .inside Q R p p') {n n' i j : ℕ}
    {m m' m₁ : Memory} {xs acc : List α} {acc' : List β} (hn : n ≤ n') (hacc : Forall₂ R acc acc')
    (hm : F.Memories m m') (hj : j < F.stop)
    (hleft : Parser.manyLoop p n acc ⟨F.left, false⟩ i m = .ok xs j m₁) :
    ∃ ys m₁', Parser.manyLoop p' n' acc' ⟨F.right, false⟩ (i + F.shift) m' =
      .ok ys (j + F.shift) m₁' ∧ Forall₂ R xs ys ∧ F.Memories m₁ m₁' := by
  induction n generalizing n' i m m' acc acc' with
  | zero => cases hleft
  | succ n ih =>
    obtain ⟨n', rfl⟩ : ∃ k, n' = k + 1 := ⟨n' - 1, by omega⟩
    have hi : i < F.stop := Nat.lt_of_le_of_lt (Parser.le_of_manyLoop hleft) hj
    have hreply := h.reply i m m' hi hm
    unfold Parser.manyLoop at hleft ⊢
    cases hp : p ⟨F.left, false⟩ i m with
    | ok x k m₂ =>
      rw [hp] at hreply hleft
      obtain ⟨y, m₂', hright, -, hR, hm₂⟩ := hreply.exists_of_ok
      simp only at hleft
      split at hleft
      · rename_i hlt
        simp only [hright, Nat.add_lt_add_iff_right, hlt, if_true]
        exact ih (by omega) (.cons hR hacc) hm₂ hleft
      · cases hleft
    | fail final m₂ =>
      rw [hp] at hreply hleft
      obtain ⟨m₂', hright, hm₂⟩ := hreply.exists_of_fail
      cases hleft
      simp only [hright]
      exact ⟨_, _, rfl, List.forall₂_reverse_iff.mpr hacc, hm₂⟩
    | raised =>
      rw [hp] at hleft
      cases hleft

/-- A repetition that ends at the boundary on the left comes there on the right, and goes on. -/
theorem Follows.exists_manyLoop (h : F.Follows R p p') {n n' i : ℕ} {m m' m₁ : Memory}
    {xs acc : List α} {acc' : List β} (hi : i ≤ F.stop) (hacc : Forall₂ R acc acc')
    (hm : F.Memories m m') (hn : F.stop < i + n')
    (hleft : Parser.manyLoop p n acc ⟨F.left, false⟩ i m = .ok xs F.stop m₁) :
    ∃ k ys m₂ m₂', n' + i ≤ k + F.stop ∧ Forall₂ R xs ys.reverse ∧ F.Memories m₂ m₂' ∧
      Parser.manyLoop p' n' acc' ⟨F.right, false⟩ (i + F.shift) m' =
        Parser.manyLoop p' k ys ⟨F.right, false⟩ (F.stop + F.shift) m₂' := by
  induction n generalizing n' i m m' acc acc' with
  | zero => cases hleft
  | succ n ih =>
    rcases Nat.lt_or_eq_of_le hi with hlt | rfl
    · obtain ⟨n', rfl⟩ : ∃ k, n' = k + 1 := ⟨n' - 1, by omega⟩
      unfold Parser.manyLoop at hleft
      cases hp : p ⟨F.left, false⟩ i m with
      | ok x j m₂ =>
        obtain ⟨y, m₂', hright, hR, hm₂⟩ := h hlt hm hp
        simp only [hp] at hleft
        split at hleft
        · rename_i hj
          have hle := Parser.le_of_manyLoop hleft
          obtain ⟨k, ys, m₃, m₃', hk, hys, hm₃, heq⟩ :=
            ih hle (.cons hR hacc) hm₂ (show F.stop < j + n' by omega) hleft
          refine ⟨k, ys, m₃, m₃', by omega, hys, hm₃, ?_⟩
          rw [← heq, Parser.manyLoop]
          simp only [hright, Nat.add_lt_add_iff_right, hj, if_true]
        · cases hleft
      | fail final m₂ =>
        simp only [hp] at hleft
        cases hleft
        omega
      | raised =>
        simp only [hp] at hleft
        cases hleft
    · refine ⟨n', acc', m, m', Nat.le_refl _, ?_, hm, rfl⟩
      unfold Parser.manyLoop at hleft
      cases hp : p ⟨F.left, false⟩ F.stop m with
      | ok x j m₂ =>
        simp only [hp] at hleft
        split at hleft
        · have := Parser.le_of_manyLoop hleft
          omega
        · cases hleft
      | fail final m₂ =>
        simp only [hp] at hleft
        cases hleft
        exact List.forall₂_reverse_iff.mpr hacc
      | raised =>
        simp only [hp] at hleft
        cases hleft

/-! ## Statements -/

variable {g g' : Engine}

theorem isLayout_of_definition {l : Lexed} {ds : List Expr} {i j : ℕ} {s : LegalStmt}
    {m m' : Memory}
    (hleft : (Grammar.functionDef g ds <|> Grammar.classDef g ds) ⟨l, false⟩ i m = .ok s j m') :
    ∃ t, l.tokens[i]? = some t ∧ t.isLayout = false := by
  have hstart {f : Parser.Mark → Parser LegalStmt} {m m' : Memory}
      (h : Parser.rule (Parser.startHere >>= f) ⟨l, false⟩ i m = .ok s j m') :
      ∃ t, l.tokens[i]? = some t ∧ t.isLayout = false := by
    obtain ⟨s, k, m₁, h, -⟩ := Parser.bind_eq_ok.mp (Parser.rule_eq_ok.mp h)
    exact (Parser.exists_of_startHere h).2
  rcases Parser.orElse_eq_ok.mp hleft with h | ⟨m₁, -, h⟩ <;> exact hstart h

theorem opens_at : Token.Kind.opens (.punct .at) = true := rfl

namespace Engines

variable (hg : (opening h).Engines g g')
include hg

theorem decorated_follows :
    (opening h).Follows (LegalStmt.Alike Eq) (Grammar.decorated g) (Grammar.decorated g') := by
  intro i j s m m' m₁ hi hm hleft
  obtain ⟨u, k, m₂, hmark, hrest⟩ := Parser.bind_eq_ok.mp hleft
  obtain ⟨rfl, -⟩ := Parser.exists_of_followedBy hmark
  obtain ⟨u', m₂', hmark', -, hm₂⟩ :=
    (Agrees.followedBy (P := .inside) (Agrees.sym opens_at)).follows hi hm hmark
  obtain ⟨ds, k, m₃, hds, hdefinition⟩ := Parser.bind_eq_ok.mp (Parser.commit_eq_ok.mp hrest)
  obtain ⟨t, ht, hplain⟩ := isLayout_of_definition hdefinition
  have hk := lt_of_opening (h := h) ht hplain
  obtain ⟨d, k₁, m₄, hd, hmore⟩ := Parser.bind_eq_ok.mp (Parser.rule_eq_ok.mp hds)
  obtain ⟨more, k₂, m₅, hmany, hpure⟩ := Parser.bind_eq_ok.mp hmore
  cases hpure
  obtain ⟨d', m₄', hd', hhead, hm₄⟩ := (hg.decorator (P := .inside)).follows hi hm₂ hd
  obtain ⟨more', m₅', hmany', htail, hm₅⟩ := (hg.decorator (P := .inside)).follows_manyLoop
    (Nat.succ_le_succ (opening h).size_le) .nil hm₄ hk hmany
  have hdecorators : Forall₂ (Expr.Alike Eq) (d :: more) (d' :: more') := .cons hhead htail
  obtain ⟨s', m₁', hdefinition', hs, hm₁⟩ :=
    (Agrees.orElse (hg.functionDef (P := .inside) hdecorators)
      (hg.classDef hdecorators)).follows hk hm₅ hdefinition
  refine ⟨s', m₁', Parser.bind_eq_ok.mpr ⟨_, _, _, hmark', Parser.commit_eq_ok.mpr
    (Parser.bind_eq_ok.mpr ⟨_, _, _, Parser.rule_eq_ok.mpr (Parser.bind_eq_ok.mpr
      ⟨_, _, _, hd', Parser.bind_eq_ok.mpr ⟨_, _, _, hmany', rfl⟩⟩), hdefinition'⟩)⟩, hs, hm₁⟩

theorem statement_follows :
    (opening h).Follows (Suite.Alike Eq) (Grammar.statement g) (Grammar.statement g') := by
  intro i j suite m m' m₁ hi hm hleft
  rcases Parser.orElse_eq_ok.mp (Parser.rule_eq_ok.mp hleft) with hleft | ⟨m₂, hnone, hrest⟩
  · obtain ⟨s, k, m₂, hs, hpure⟩ := Parser.bind_eq_ok.mp hleft
    cases hpure
    obtain ⟨s', m₁', hs', halike, hm₁⟩ := hg.decorated_follows hi hm hs
    exact ⟨_, m₁', Parser.rule_eq_ok.mpr (Parser.orElse_eq_ok.mpr (.inl
      (Parser.bind_eq_ok.mpr ⟨_, _, _, hs', rfl⟩))), Suite.alike_ofStmts halike .nil, hm₁⟩
  · -- without the mark of a decorator both go on to the other statements
    have hmark := (Agrees.followedBy (F := opening h) (P := .inside)
      (Agrees.sym opens_at)).reply i m m' hi hm
    obtain ⟨m₂', hnone', hm₂⟩ : ∃ m₂', Parser.followedBy (Parser.sym .at) ⟨c, false⟩ i m' =
        .fail false m₂' ∧ (opening h).Memories m₂ m₂' := by
      have hfail := (Parser.exists_of_bind_fail hnone).resolve_right
        fun ⟨_, _, _, _, h⟩ => by cases h
      have hfail := (Parser.exists_of_bind_fail hfail).resolve_right
        fun ⟨_, _, _, _, h⟩ => Parser.commit_ne_fail h
      rw [show Parser.followedBy (Parser.sym .at) ⟨(opening h).left, false⟩ i m = _ from hfail]
        at hmark
      exact hmark.exists_of_fail
    obtain ⟨suite', m₁', hrest', halike, hm₁⟩ := (Agrees.orElse
      (.bind hg.compoundStatement fun _ _ hs => .pure (Suite.alike_ofStmts hs .nil))
      hg.simpleStatements).follows hi hm₂ hrest
    exact ⟨suite', m₁', Parser.rule_eq_ok.mpr (Parser.orElse_eq_ok.mpr (.inr
      ⟨m₂', Parser.bind_of_fail (Parser.bind_of_fail hnone'), hrest'⟩)), halike, hm₁⟩

end Engines

end Frame

/-! ## The second text -/

namespace Lexed

theorem weight_eq_sum (l : Lexed) : l.weight = (l.tokens.toList.map Token.weight).sum := by
  rw [weight, List.sum, List.foldr_map]

namespace Composes

variable {a b c : Lexed} {as as' : List Token} (h : a.Composes b c as as')
include h

theorem sum_weights : (as'.map Token.weight).sum = (as.map Token.weight).sum := by
  have hmap : as.map Token.weight = as'.map Token.weight := by
    rw [← List.forall₂_eq_eq_eq, List.forall₂_map_left_iff, List.forall₂_map_right_iff]
    exact h.alike.imp fun t t' htokens => by rw [Token.weight, Token.weight, htokens.kind]
  rw [hmap]

theorem weight_right : b.weight ≤ c.weight := by
  rw [weight_eq_sum, weight_eq_sum c, h.whole, List.map_append, List.sum_append]
  exact Nat.le_add_left _ _

theorem weight_left (hended : b.Ended) (hfault : b.fault = none) : a.weight ≤ c.weight := by
  obtain ⟨e, he, hkind⟩ := h.left
  obtain ⟨ts, e', he', hkind', -⟩ := hended hfault
  have hone {t : Token} (ht : t.kind = .endmarker) : t.weight = 1 := by rw [Token.weight, ht]
  rw [weight_eq_sum, weight_eq_sum c, h.whole, he, he']
  simp only [List.map_append, List.sum_append, h.sum_weights, List.map_singleton,
    List.sum_singleton, hone hkind, hone hkind']
  omega

end Composes

end Lexed

theorem depthFor_mono {m n : ℕ} (h : m ≤ n) : depthFor m ≤ depthFor n := by
  unfold depthFor
  omega

namespace Frame

variable {a b c : Lexed} {as as' : List Token} {h : a.Composes b c as as'} (hended : b.Ended)
  {g g₁ g₂ : Engine}

/-- What is remembered of the first text is nothing about the second one. -/
theorem memories_ending {m m' : Memory} (hm : (opening h).Memories m m') :
    (ending (h.continues hended)).Memories (.empty b.tokens.size) m' where
  size_left := memories_empty.size_left
  size_right := hm.size_right
  related n i _ := by
    have hfresh : m'.find? n (i + as'.length) = none := by
      rw [← h.alike.length_eq, Nat.add_comm]
      exact hm.fresh not_false n (as.length + i) (Nat.le_add_right _ _)
    rw [Memory.find?_empty,
      show m'.find? n (i + (ending (h.continues hended)).shift) = none from hfresh]
    exact .none
  fresh ho := absurd trivial ho

theorem memories_opening : (opening h).Memories (.empty a.tokens.size) (.empty c.tokens.size) where
  size_left := by
    have := (opening h).fits_left
    simp only [Memory.empty, Array.size_replicate]
    exact Nat.lt_succ_of_le this
  size_right := by
    simp only [Memory.empty, Array.size_replicate]
    exact Nat.lt_succ_self _
  related n i _ := by
    rw [Memory.find?_empty, Memory.find?_empty]
    exact .none
  fresh _ n i _ := Memory.find?_empty _

/-- After the first text the second one is read as it would be alone. -/
theorem manyLoop_ending (hg : (ending (h.continues hended)).Engines g₂ g) {k i : ℕ}
    (ys : List Suite) {suites : List Suite} {m m' m₁ : Memory} (hm : (opening h).Memories m m')
    (hk : b.tokens.size + 1 ≤ k)
    (hmany : Parser.many (Grammar.statement g₂) ⟨b, false⟩ 0 (.empty b.tokens.size) =
      .ok suites i m₁) :
    ∃ zs m₂, Parser.manyLoop (Grammar.statement g) k ys ⟨c, false⟩ as.length m' =
      .ok (ys.reverse ++ zs) (as.length + i) m₂ ∧ Forall₂ (Suite.Alike Eq) suites zs := by
  have hreply := (Agrees.manyLoop hg.statement hk .nil).reply 0 _ _
    ⟨Nat.zero_le _, fun ho => absurd trivial ho⟩ (memories_ending hended hm)
  change (ending (h.continues hended)).Replies _ _ 0
    (Parser.many (Grammar.statement g₂) ⟨b, false⟩ 0 (.empty b.tokens.size)) _ at hreply
  rw [hmany] at hreply
  obtain ⟨zs, m₂, hright, -, hzs, -⟩ := hreply.exists_of_ok
  refine ⟨zs, m₂, ?_, hzs⟩
  rw [h.alike.length_eq, Nat.add_comm as'.length]
  have hloop := Parser.manyLoop_append ys hright
  rwa [List.nil_append, show 0 + (ending (h.continues hended)).shift = as'.length from
    Nat.zero_add _] at hloop

/-- The statements of the first program and then those of the second one. -/
theorem fileBody_append {ss ss' : LegalStmts} {j : ℕ} {m m' : Memory}
    (hg₁ : (opening h).Engines g₁ g) (hg₂ : (ending (h.continues hended)).Engines g₂ g)
    (hleft : Grammar.fileBody g₁ ⟨a, false⟩ 0 (.empty a.tokens.size) =
      .ok ss (as.length + 1) m)
    (hright : Grammar.fileBody g₂ ⟨b, false⟩ 0 (.empty b.tokens.size) = .ok ss' j m') :
    ∃ legal k m₁, Grammar.fileBody g ⟨c, false⟩ 0 (.empty c.tokens.size) = .ok legal k m₁ ∧
      legal.val = ss.val ++ ss'.val := by
  have hsize := h.size_whole
  obtain ⟨suites, i, m₁, hmany, hreturn⟩ := Parser.bind_eq_ok.mp hleft
  obtain ⟨e, i', m₂, hkind, hpure⟩ := Parser.bind_eq_ok.mp hreturn
  obtain ⟨-, -, hi, -⟩ := Parser.kind_eq_ok.mp hkind
  cases hpure
  obtain rfl := Nat.succ.inj hi
  obtain ⟨suites', i', m₃, hmany', hreturn'⟩ := Parser.bind_eq_ok.mp hright
  obtain ⟨e', i'', m₄, hkind', hpure'⟩ := Parser.bind_eq_ok.mp hreturn'
  obtain ⟨he', hendmarker, -, -⟩ := Parser.kind_eq_ok.mp hkind'
  cases hpure'
  obtain ⟨k, ys, n₁, n₁', hk, hys, hn₁, heq⟩ := hg₁.statement_follows.exists_manyLoop
    (Nat.zero_le _) .nil memories_opening (show as.length < 0 + (c.tokens.size + 1) by omega) hmany
  have hfuel : b.tokens.size + 1 ≤ k := by
    simp only [opening] at hk
    omega
  obtain ⟨zs, m₅, hloop, hzs⟩ := manyLoop_ending hended hg₂ ys hn₁ hfuel hmany'
  have hwhole := heq.trans hloop
  refine ⟨Suite.all (ys.reverse ++ zs), _, _, Parser.bind_eq_ok.mpr ⟨_, _, _, hwhole,
    Parser.bind_eq_ok.mpr ⟨e', _, _, Parser.kind_eq_ok.mpr ⟨?_, hendmarker, rfl, rfl⟩, rfl⟩⟩, ?_⟩
  · exact (h.getElem?_whole_add i').trans he'
  · have hall : Forall₂ (Stmt.Alike Eq) ((suites ++ suites').flatMap Suite.statements)
        ((ys.reverse ++ zs).flatMap Suite.statements) :=
      List.rel_flatMap (List.rel_append hys hzs) fun _ _ hsuite => hsuite
    exact (Stmt.eq_of_alikeAll _ hall).symm.trans List.flatMap_append

end Frame

theorem size_of_endmarker {firstLine i : ℕ} {text : List Char} {t : Token}
    (ht : (lex firstLine text).tokens[i]? = some t) (hkind : t.kind = .endmarker) :
    (lex firstLine text).tokens.size = i + 1 := by
  obtain ⟨ts, f, hlexes⟩ := Lexer.exists_lexes (s := .start firstLine)
    (.inr (Lexer.complete_unifyLineEnds text))
  rw [Lexer.lex_eq hlexes] at ht ⊢
  rw [List.getElem?_toArray] at ht
  have hlast := List.drop_eq_nil_iff.mp (hlexes.ends_of_endmarker (exists_split ht) hkind).1
  have hlt := (List.getElem?_eq_some_iff.mp ht).1
  rw [List.size_toArray]
  omega

theorem eq_size_of_fileBody {g : Engine} {firstLine j : ℕ} {text : List Char} {m m' : Memory}
    {legal : LegalStmts}
    (h : Grammar.fileBody g ⟨lex firstLine text, false⟩ 0 m = .ok legal j m') :
    j = (lex firstLine text).tokens.size := by
  obtain ⟨suites, i, m₁, -, hreturn⟩ := Parser.bind_eq_ok.mp h
  obtain ⟨e, i', m₂, hkind, hpure⟩ := Parser.bind_eq_ok.mp hreturn
  obtain ⟨he, hendmarker, rfl, -⟩ := Parser.kind_eq_ok.mp hkind
  cases hpure
  exact (size_of_endmarker he hendmarker).symm

/-- A program goes on after a line feed with another one, which begins `k` lines below it. -/
theorem exists_parse_append {l : ℕ} {text more : List Char} {ss : List Stmt} (hl : 1 ≤ l)
    (hmore : more ≠ []) (h : parse l text = .ok ss) :
    ∃ k, (ReturnsEndLines text → k = text.count '\n' + 1) ∧ ∀ ss', parse (l + k) more = .ok ss' →
      parse l (text ++ '\n' :: more) = .ok (ss ++ ss') := by
  have hfault := fault_eq_none_of_parse h
  obtain ⟨k, hk, hjoins⟩ := exists_joins hl hmore hfault
  refine ⟨k, hk, fun ss' h' => ?_⟩
  generalize l + k = l' at h' hjoins
  have hfault' := fault_eq_none_of_parse h'
  obtain ⟨t, ht, hbounds⟩ := exists_of_parse h'
  obtain ⟨as, as', hjoins⟩ := hjoins hfault' (by
    intro u hu hkind
    rw [List.head?_eq_getElem?, Array.getElem?_toList, ht] at hu
    rw [Option.some.inj hu, hkind] at hbounds
    cases hbounds)
  have hcomposes : Lexed.Composes _ _ _ as as' := ⟨hjoins, ended_lex l text, hfault, t, ht, hbounds⟩
  obtain ⟨d, legal, j, m, hd, rfl, hleft⟩ := exists_fileBody_of_parse h
  obtain ⟨d', legal', j', m', hd', rfl, hright⟩ := exists_fileBody_of_parse h'
  obtain rfl : j = as.length + 1 := (eq_size_of_fileBody hleft).trans hcomposes.size_left
  have hended := ended_lex l' more
  have hle := depthFor_mono (hcomposes.weight_left hended hfault')
  have hle' := depthFor_mono hcomposes.weight_right
  obtain ⟨depth, hdepth⟩ : ∃ depth, depthFor (lex l (text ++ '\n' :: more)).weight = depth + 1 :=
    ⟨depthFor (lex l (text ++ '\n' :: more)).weight - 1, by omega⟩
  rw [hd, hdepth] at hle
  rw [hd', hdepth] at hle'
  have : (Frame.opening hcomposes).lines.Rereads := Lines.rereads_eq
  have : (Frame.ending (hcomposes.continues hended)).lines.Rereads := Lines.rereads_eq
  obtain ⟨whole, k, m₁, hbody, hval⟩ := Frame.fileBody_append hended
    (engines_engine (Nat.le_of_succ_le_succ hle) (.opening hcomposes))
    (engines_engine (Nat.le_of_succ_le_succ hle') (.ending (hcomposes.continues hended)))
    hleft hright
  rw [parse, parseLegal, hdepth, run_of_call (n := .file) (Parser.rule_eq_ok.mpr hbody)]
  exact congrArg _ hval

theorem exists_parse_line {l : ℕ} {text : List Char} {ss : List Stmt} (h : parse l text = .ok ss)
    (l' : ℕ) : ∃ ss', parse l' text = .ok ss' := by
  obtain ⟨ss', h', -⟩ := parse_sameForm (sameKinds_lex l l' text) h
  exact ⟨ss', h'⟩

end NotebookSlice.Syntax
