import NotebookSlice.Proofs.Syntax.Frame

/-! # Parsers that agree on a frame

Run from corresponding positions, two parsers come to corresponding answers, or
the one on the left raises a fault. What they remember corresponds too.
-/

namespace NotebookSlice.Syntax

open List (Forall₂)

structure CallArguments.Alike (same : Nat → Nat → Prop) (a a' : CallArguments) : Prop where
  positional : Forall₂ (Expr.Alike same) a.positional a'.positional
  keywords : Forall₂ (Argument.Alike same) a.keywords a'.keywords

namespace Parser

variable {α β : Type} {p q : Parser α} {l : Lexed} {i : Nat} {m : Memory} {diagnosing : Bool}

theorem bind_apply {f : α → Parser β} {input : Input} :
    (p >>= f) input i m = Parser.bind p f input i m := rfl

theorem orElse_apply {input : Input} :
    (p <|> q) input i m = Parser.orElse p (fun _ => q) input i m := rfl

theorem startHere_of_getElem? {t : Token} (h : l.tokens[i]? = some t) :
    startHere ⟨l, diagnosing⟩ i m =
      if t.isLayout then .fail false (m.reach (i + 1))
      else .ok ⟨t.line, i⟩ i (m.reach (i + 1)) := by
  have hpeek : peek ⟨l, diagnosing⟩ i m = .ok t i (m.reach (i + 1)) := by
    simp only [peek, h]
  unfold startHere lineHere
  rw [bind_apply, Parser.bind, hpeek]
  simp only
  cases t.isLayout <;> rfl

end Parser

abbrev LegalStmt.Alike (same : Nat → Nat → Prop) (a b : LegalStmt) : Prop :=
  Stmt.Alike same a.val b.val

abbrev LegalStmts.Alike (same : Nat → Nat → Prop) (a b : LegalStmts) : Prop :=
  Forall₂ (Stmt.Alike same) a.val b.val

abbrev LegalHandler.Alike (same : Nat → Nat → Prop) (a b : LegalHandler) : Prop :=
  Handler.Alike same a.val b.val

abbrev LegalCase.Alike (same : Nat → Nat → Prop) (a b : LegalCase) : Prop :=
  Case.Alike same a.val b.val

abbrev Suite.Alike (same : Nat → Nat → Prop) (a b : Suite) : Prop :=
  Forall₂ (Stmt.Alike same) a.statements b.statements

theorem Suite.alike_ofStmts {same : Nat → Nat → Prop} {s s' : LegalStmt} {ss ss' : List LegalStmt}
    (hs : LegalStmt.Alike same s s') (hss : Forall₂ (LegalStmt.Alike same) ss ss') :
    Suite.Alike same (.ofStmts s ss) (.ofStmts s' ss') :=
  .cons hs (List.forall₂_map_left_iff.mpr (List.forall₂_map_right_iff.mpr hss))

theorem Suite.alike_flatten {same : Nat → Nat → Prop} {s s' : Suite} {ss ss' : List Suite}
    (hs : Suite.Alike same s s') (hss : Forall₂ (Suite.Alike same) ss ss') :
    Suite.Alike same (s.flatten ss) (s'.flatten ss') :=
  List.rel_append hs (List.rel_flatMap hss fun _ _ h => h)

theorem Suite.alike_optional {same : Nat → Nat → Prop} {s s' : Option Suite}
    (h : Option.Rel (Suite.Alike same) s s') :
    LegalStmts.Alike same (Suite.optional s) (Suite.optional s') := by
  cases h with
  | none => exact .nil
  | some h => exact h

namespace Nonterminal

def Alike (same : Nat → Nat → Prop) : (n : Nonterminal) → n.Out → n.Out → Prop
  | file => LegalStmts.Alike same
  | block | elifClause => Suite.Alike same
  | simpleStatement => LegalStmt.Alike same
  | arguments => CallArguments.Alike same
  | closedPattern | starPattern => Pattern.Alike same
  | dottedName => Eq
  | replacement | expression | starExpression | disjunction | conjunction | inversion
  | bitwiseOr | bitwiseXor | bitwiseAnd | shift | sum | term | factor | awaitPrimary | primary
  | strings | misplacedAssignment | targetPrimary | annotationTarget | attributePath =>
    Expr.Alike same
  | starTarget | unparenthesizedTarget | deleteTarget | singleTarget => Expr.AlikeTarget same

def exit : Nonterminal → Region
  | block | elifClause => .upTo
  | _ => .inside

end Nonterminal

namespace Memory

variable {m : Memory} {n n' : Nonterminal} {i j : Nat} {r : Option (n.Out × Nat)}

@[simp] theorem size_insert : (m.insert n i r).entries.size = m.entries.size :=
  Array.size_modify

theorem find?_empty (size : ℕ) : (empty size).find? n i = none := by
  rw [find?, empty, Array.getElem?_replicate]
  split <;> rfl

theorem find?_insert_self (h : i < m.entries.size) : (m.insert n i r).find? n i = some r := by
  have hentries : (m.insert n i r).entries[i]? = some (⟨n, r⟩ :: m.entries[i]) := by
    rw [insert, Array.getElem?_modify, if_pos rfl, Array.getElem?_eq_getElem h]
    rfl
  rw [find?, hentries, Option.getD_some, lookup, dif_pos rfl]

theorem find?_insert_of_ne (h : n ≠ n' ∨ i ≠ j) :
    (m.insert n i r).find? n' j = m.find? n' j := by
  have hentries : (m.insert n i r).entries[j]? =
      if i = j then (m.entries[j]?).map (⟨n, r⟩ :: ·) else m.entries[j]? :=
    Array.getElem?_modify ..
  rw [find?, hentries, find?]
  by_cases hij : i = j
  · rw [if_pos hij]
    cases m.entries[j]? with
    | none => rfl
    | some es =>
      have hn : n ≠ n' := h.resolve_right (not_not_intro hij)
      rw [Option.map_some, Option.getD_some, Option.getD_some, lookup, dif_neg hn]
  · rw [if_neg hij]

end Memory

namespace Frame

variable (F : Frame)

/-- Results from a position that correspond: the same failure, or trees that are alike. -/
def Entries (n : Nonterminal) (i : Nat) (r r' : Option (n.Out × Nat)) : Prop :=
  Option.Rel (fun x y => n.Alike F.lines.same x.1 y.1 ∧ y.2 = x.2 + F.shift ∧ F.At n.exit x.2 ∧
    i ≤ x.2 ∧ (¬ F.closed → F.level x.2 = F.level i)) r r'

/-- The same is remembered on the stretch; beyond an open boundary nothing is. -/
structure Memories (m m' : Memory) : Prop where
  size_left : F.stop < m.entries.size
  size_right : F.right.tokens.size + 1 < m'.entries.size
  related : ∀ n i, F.At .edge i →
    Option.Rel (F.Entries n i) (m.find? n i) (m'.find? n (i + F.shift))
  fresh : ¬ F.closed → ∀ n i, F.stop ≤ i → m'.find? n (i + F.shift) = none

variable {α β γ δ : Type}

/-- Answers that correspond, after a start at `i`. -/
inductive Replies (Q : Region) (R : α → β → Prop) (i : Nat) : Reply α → Reply β → Prop
  | ok {a : α} {b : β} {j : Nat} {m m' : Memory} : F.At Q j → i ≤ j →
      (¬ F.closed → F.level j = F.level i) → R a b → F.Memories m m' →
      Replies Q R i (.ok a j m) (.ok b (j + F.shift) m')
  | fail {final : Bool} {m m' : Memory} : F.Memories m m' →
      Replies Q R i (.fail final m) (.fail final m')
  | raised {fault : Fault} {r : Reply β} : Replies Q R i (.raised fault) r

/-- From corresponding positions of `P` the parsers come to answers that correspond, with the end
in `Q`. -/
structure Agrees (P Q : Region) (R : α → β → Prop) (p : Parser α) (p' : Parser β) : Prop where
  reply : ∀ i m m', F.At P i → F.Memories m m' →
    F.Replies Q R i (p ⟨F.left, false⟩ i m) (p' ⟨F.right, false⟩ (i + F.shift) m')

variable {F} {P Q S : Region} {R : α → β → Prop} {T : γ → δ → Prop} {p q : Parser α}
  {p' q' : Parser β}

namespace Memories

theorem reach {m m' : Memory} (h : F.Memories m m') (n n' : Nat) :
    F.Memories (m.reach n) (m'.reach n') := ⟨h.size_left, h.size_right, h.related, h.fresh⟩

theorem congr {m₁ m₂ m₁' m₂' : Memory} (h : F.Memories m₁ m₁') (hl : m₂.entries = m₁.entries)
    (hr : m₂'.entries = m₁'.entries) : F.Memories m₂ m₂' := by
  obtain ⟨reached, entries⟩ := m₂
  obtain ⟨reached', entries'⟩ := m₂'
  subst hl hr
  exact ⟨h.size_left, h.size_right, h.related, h.fresh⟩

theorem insert {m m' : Memory} {n : Nonterminal} (h : F.Memories m m') {i : Nat} (hi : F.At .edge i)
    {r r' : Option (n.Out × Nat)} (hr : F.Entries n i r r') :
    F.Memories (m.insert n i r) (m'.insert n (i + F.shift) r') where
  size_left := by rw [Memory.size_insert]; exact h.size_left
  size_right := by rw [Memory.size_insert]; exact h.size_right
  related := by
    intro n' j hj
    have hle : i ≤ F.stop := Region.Le.at_of_at (Q := .upTo) hi
    have hl := h.size_left
    have hr := h.size_right
    have hfits := F.fits_right
    by_cases hsame : n = n' ∧ i = j
    · obtain ⟨rfl, rfl⟩ := hsame
      rw [Memory.find?_insert_self (by omega), Memory.find?_insert_self (by omega)]
      exact .some ‹_›
    · have hne : n ≠ n' ∨ i ≠ j := not_and_or.mp hsame
      rw [Memory.find?_insert_of_ne hne,
        Memory.find?_insert_of_ne (hne.imp_right fun h => by omega)]
      exact h.related n' j hj
  fresh := by
    intro ho n' j hj
    have hlt : i < F.stop := hi.resolve_right fun hclosed => ho hclosed.1
    rw [Memory.find?_insert_of_ne (.inr (by omega))]
    exact h.fresh ho n' j hj

end Memories

namespace Replies

theorem mono {i : Nat} {r : Reply α} {r' : Reply β} [Q.Le S] (h : F.Replies Q R i r r') :
    F.Replies S R i r r' := by
  cases h with
  | ok hj hle hlevel hR hm => exact .ok (Region.Le.at_of_at hj) hle hlevel hR hm
  | fail hm => exact .fail hm
  | raised => exact .raised

end Replies

namespace Agrees

theorem widen [Q.Le S] (h : F.Agrees P Q R p p') : F.Agrees P S R p p' :=
  ⟨fun i m m' hi hm => (h.reply i m m' hi hm).mono⟩

theorem rel {S : α → β → Prop} (h : F.Agrees P Q R p p') (hS : ∀ a b, R a b → S a b) :
    F.Agrees P Q S p p' := by
  constructor
  intro i m m' hi hm
  have hreply := h.reply i m m' hi hm
  generalize p _ i m = r, p' _ _ m' = r' at hreply ⊢
  cases hreply with
  | ok hj hle hlevel hR hm => exact .ok hj hle hlevel (hS _ _ hR) hm
  | fail hm => exact .fail hm
  | raised => exact .raised

theorem pure {a : α} {b : β} (h : R a b) :
    F.Agrees P P R (Pure.pure a : Parser α) (Pure.pure b : Parser β) :=
  ⟨fun _ _ _ hi hm => .ok hi (Nat.le_refl _) (fun _ => rfl) h hm⟩

theorem bind {f : α → Parser γ} {f' : β → Parser δ} (h : F.Agrees P Q R p p')
    (hf : ∀ a b, R a b → F.Agrees Q S T (f a) (f' b)) : F.Agrees P S T (p >>= f) (p' >>= f') := by
  constructor
  intro i m m' hi hm
  have hfirst := h.reply i m m' hi hm
  change F.Replies S T i (Parser.bind p f _ _ _) (Parser.bind p' f' _ _ _)
  unfold Parser.bind
  generalize p _ i m = r, p' _ _ m' = r' at hfirst ⊢
  cases hfirst with
  | @ok a b j m m' hj hle hlevel hR hm =>
    have hnext := (hf a b hR).reply j m m' hj hm
    simp only
    generalize f a _ j m = r, f' b _ _ m' = r' at hnext ⊢
    cases hnext with
    | ok hk hle' hlevel' hT hm =>
      exact .ok hk (Nat.le_trans hle hle') (fun ho => (hlevel' ho).trans (hlevel ho)) hT hm
    | fail hm => exact .fail hm
    | raised => exact .raised
  | fail hm => exact .fail hm
  | raised => exact .raised

theorem fail : F.Agrees P Q R Parser.fail Parser.fail := ⟨fun _ _ _ _ hm => .fail hm⟩

theorem orElse (h : F.Agrees P Q R p p') (hq : F.Agrees P Q R q q') :
    F.Agrees P Q R (p <|> q) (p' <|> q') := by
  constructor
  intro i m m' hi hm
  have hfirst := h.reply i m m' hi hm
  change F.Replies Q R i (Parser.orElse p (fun _ => q) _ _ _)
    (Parser.orElse p' (fun _ => q') _ _ _)
  unfold Parser.orElse
  generalize p _ i m = r, p' _ _ m' = r' at hfirst ⊢
  cases hfirst with
  | ok hj hle hlevel hR hm => exact .ok hj hle hlevel hR hm
  | @fail final m m' hm =>
    cases final
    · exact hq.reply i m m' hi hm
    · exact .fail hm
  | raised => exact .raised

theorem rule (h : F.Agrees P Q R p p') : F.Agrees P Q R (Parser.rule p) (Parser.rule p') := by
  constructor
  intro i m m' hi hm
  have hfirst := h.reply i m m' hi hm
  unfold Parser.rule
  generalize p _ i m = r, p' _ _ m' = r' at hfirst ⊢
  cases hfirst with
  | ok hj hle hlevel hR hm => exact .ok hj hle hlevel hR hm
  | fail hm => exact .fail hm
  | raised => exact .raised

theorem commit (h : F.Agrees P Q R p p') :
    F.Agrees P Q R (Parser.commit p) (Parser.commit p') := by
  constructor
  intro i m m' hi hm
  have hfirst := h.reply i m m' hi hm
  unfold Parser.commit
  generalize p _ i m = r, p' _ _ m' = r' at hfirst ⊢
  cases hfirst with
  | ok hj hle hlevel hR hm => exact .ok hj hle hlevel hR hm
  | fail hm => exact .fail hm
  | raised => exact .raised

theorem diagnose : F.Agrees P Q R (Parser.diagnose p) (Parser.diagnose p') :=
  ⟨fun _ _ _ _ hm => .fail hm⟩

theorem raiseAt {line line' : Nat} : F.Agrees P Q R (Parser.raiseAt line) (Parser.raiseAt line') :=
  ⟨fun _ _ _ _ _ => .raised⟩

theorem exhausted : F.Agrees P Q R Parser.exhausted p' := ⟨fun _ _ _ _ _ => .raised⟩

theorem followedBy (h : F.Agrees P Q R p p') :
    F.Agrees P P (fun _ _ => True) (Parser.followedBy p) (Parser.followedBy p') := by
  constructor
  intro i m m' hi hm
  have hfirst := h.reply i m m' hi hm
  unfold Parser.followedBy
  generalize p _ i m = r, p' _ _ m' = r' at hfirst ⊢
  cases hfirst with
  | ok _ _ _ _ hm => exact .ok hi (Nat.le_refl _) (fun _ => rfl) trivial hm
  | fail hm => exact .fail hm
  | raised => exact .raised

theorem notFollowedBy (h : F.Agrees P Q R p p') :
    F.Agrees P P (fun _ _ => True) (Parser.notFollowedBy p) (Parser.notFollowedBy p') := by
  constructor
  intro i m m' hi hm
  have hfirst := h.reply i m m' hi hm
  unfold Parser.notFollowedBy
  generalize p _ i m = r, p' _ _ m' = r' at hfirst ⊢
  cases hfirst with
  | ok _ _ _ _ hm => exact .fail hm
  | fail hm => exact .ok hi (Nat.le_refl _) (fun _ => rfl) trivial hm
  | raised => exact .raised

theorem opt [Q.Le P] (h : F.Agrees P Q R p p') :
    F.Agrees P P (Option.Rel R) (Parser.opt p) (Parser.opt p') := by
  constructor
  intro i m m' hi hm
  have hfirst := h.reply i m m' hi hm
  unfold Parser.opt
  generalize p _ i m = r, p' _ _ m' = r' at hfirst ⊢
  cases hfirst with
  | ok hj hle hlevel hR hm => exact .ok (Region.Le.at_of_at hj) hle hlevel (.some hR) hm
  | fail hm => exact .ok hi (Nat.le_refl _) (fun _ => rfl) .none hm
  | raised => exact .raised

theorem optEdge [P.Le .edge] (h : F.Agrees P .inside R p p') :
    F.Agrees P .edge (Option.Rel R) (Parser.opt p) (Parser.opt p') := by
  constructor
  intro i m m' hi hm
  have hfirst := h.reply i m m' hi hm
  unfold Parser.opt
  generalize p _ i m = r, p' _ _ m' = r' at hfirst ⊢
  cases hfirst with
  | ok hj hle hlevel hR hm => exact .ok (.inl hj) hle hlevel (.some hR) hm
  | fail hm => exact .ok (Region.Le.at_of_at hi) (Nat.le_refl _) (fun _ => rfl) .none hm
  | raised => exact .raised

/-! ## Repetition -/

theorem manyLoop [Q.Le P] (h : F.Agrees P Q R p p') {n n' : Nat} (hn : n ≤ n')
    {as : List α} {bs : List β} (hacc : Forall₂ R as bs) :
    F.Agrees P P (Forall₂ R) (Parser.manyLoop p n as) (Parser.manyLoop p' n' bs) := by
  induction n generalizing n' as bs with
  | zero => exact exhausted
  | succ n ih =>
    obtain ⟨n', rfl⟩ : ∃ k, n' = k + 1 := ⟨n' - 1, by omega⟩
    constructor
    intro i m m' hi hm
    have hfirst := h.reply i m m' hi hm
    unfold Parser.manyLoop
    generalize p _ i m = r, p' _ _ m' = r' at hfirst ⊢
    cases hfirst with
    | @ok a b j m m' hj hle hlevel hR hm =>
      by_cases hlt : i < j
      · have hlt' : i + F.shift < j + F.shift := by omega
        simp only [hlt, hlt', if_true]
        have hrest := (ih (by omega : n ≤ n') (.cons hR hacc)).reply j m m'
          (Region.Le.at_of_at hj) hm
        generalize Parser.manyLoop p n _ _ j m = r, Parser.manyLoop p' n' _ _ _ m' = r'
          at hrest ⊢
        cases hrest with
        | ok hk hle' hlevel' hT hm =>
          exact .ok hk (Nat.le_trans hle hle') (fun ho => (hlevel' ho).trans (hlevel ho)) hT hm
        | fail hm => exact .fail hm
        | raised => exact .raised
      · simp only [hlt, if_false]
        exact .raised
    | fail hm =>
      exact .ok hi (Nat.le_refl _) (fun _ => rfl) (List.rel_reverse hacc) hm
    | raised => exact .raised

theorem many [Q.Le P] (h : F.Agrees P Q R p p') :
    F.Agrees P P (Forall₂ R) (Parser.many p) (Parser.many p') :=
  ⟨(h.manyLoop (Nat.succ_le_succ F.size_le) .nil).reply⟩

theorem growLoop [Q.Le P] {step : α → Parser α} {step' : β → Parser β}
    (h : ∀ a b, R a b → F.Agrees P Q R (step a) (step' b)) {n n' : Nat} (hn : n ≤ n')
    {a : α} {b : β} (hab : R a b) :
    F.Agrees P P R (Parser.growLoop step n a) (Parser.growLoop step' n' b) := by
  induction n generalizing n' a b with
  | zero => exact exhausted
  | succ n ih =>
    obtain ⟨n', rfl⟩ : ∃ k, n' = k + 1 := ⟨n' - 1, by omega⟩
    constructor
    intro i m m' hi hm
    have hfirst := (h a b hab).reply i m m' hi hm
    unfold Parser.growLoop
    generalize step a _ i m = r, step' b _ _ m' = r' at hfirst ⊢
    cases hfirst with
    | @ok a b j m m' hj hle hlevel hR hm =>
      have hrest := (ih (by omega : n ≤ n') hR).reply j m m' (Region.Le.at_of_at hj) hm
      simp only
      generalize Parser.growLoop step n a _ j m = r, Parser.growLoop step' n' b _ _ m' = r'
        at hrest ⊢
      cases hrest with
      | ok hk hle' hlevel' hT hm =>
        exact .ok hk (Nat.le_trans hle hle') (fun ho => (hlevel' ho).trans (hlevel ho)) hT hm
      | fail hm => exact .fail hm
      | raised => exact .raised
    | fail hm => exact .ok hi (Nat.le_refl _) (fun _ => rfl) hab hm
    | raised => exact .raised

theorem grow {step : α → Parser α} {step' : β → Parser β} (h : F.Agrees P .inside R p p')
    (hstep : ∀ a b, R a b → F.Agrees .inside .inside R (step a) (step' b)) :
    F.Agrees P .inside R (Parser.grow p step) (Parser.grow p' step') :=
  ⟨(h.bind fun _ _ hab => growLoop hstep (Nat.succ_le_succ F.size_le) hab).reply⟩

theorem many1 [P.Le .edge] (h : ∀ {P : Region} [P.Le .edge], F.Agrees P .inside R p p') :
    F.Agrees P .inside (Forall₂ R) (Parser.many1 p) (Parser.many1 p') :=
  .bind h fun _ _ ha => .bind (.many h) fun _ _ has => .pure (.cons ha has)

theorem sepBy1 [P.Le .edge] {sep : Parser γ} {sep' : Parser δ}
    (h : ∀ {P : Region} [P.Le .edge], F.Agrees P .inside R p p')
    (hsep : F.Agrees .inside .inside T sep sep') :
    F.Agrees P .inside (Forall₂ R) (Parser.sepBy1 p sep) (Parser.sepBy1 p' sep') :=
  .bind h fun _ _ ha => .bind (.many (.bind hsep fun _ _ _ => h)) fun _ _ has =>
    .pure (.cons ha has)

/-! ## Tokens -/

/-- A token before the boundary is taken on both sides or on neither. -/
theorem acceptAt {f f' : Token → Option α} {R : α → α → Prop} {i : Nat} {m m' : Memory}
    (hi : F.At .edge i) (hm : F.Memories m m')
    (hplain : ∀ t, F.left.tokens[i]? = some t → (f t).isSome = true →
      i < F.stop ∧ t.kind.isPlain = true)
    (hf : ∀ t t', Token.Alike F.lines.same t t' → Option.Rel R (f t) (f' t')) :
    F.Replies .inside R i (Parser.accept f ⟨F.left, false⟩ i m)
      (Parser.accept f' ⟨F.right, false⟩ (i + F.shift) m') := by
  have htokens := F.token i hi
  unfold Parser.accept Parser.peek
  simp only
  cases ht : F.left.tokens[i]? with
  | none =>
    obtain ⟨fault, hfault⟩ := Option.isSome_iff_exists.mp
      (F.broken i (Region.Le.at_of_at (Q := .upTo) hi) ht)
    simp only [hfault]
    exact .raised
  | some t =>
    rw [ht] at htokens
    obtain ⟨t', ht', halike⟩ : ∃ t', F.right.tokens[i + F.shift]? = some t' ∧
        Token.Alike F.lines.same t t' := by
      generalize F.right.tokens[i + F.shift]? = x at htokens
      cases htokens with
      | some h => exact ⟨_, rfl, h⟩
    have hrel := hf t t' halike
    have hsome := hplain t ht
    simp only [ht']
    generalize f t = x, f' t' = x' at hrel hsome ⊢
    cases hrel with
    | none => exact .fail (hm.reach _ _)
    | some hR =>
      obtain ⟨hlt, hkind⟩ := hsome rfl
      have hlayout : t.isLayout = false := by rw [Token.isLayout_eq, hkind, Bool.not_true]
      simp only [Nat.add_right_comm i F.shift 1]
      exact .ok (F.inner i t hlt ht hlayout) (Nat.le_succ i)
        (fun ho => F.level_of_plain ho hlt ht hlayout) hR (hm.reach _ _)

theorem accept [P.Le .edge] {f f' : Token → Option α} {R : α → α → Prop}
    (hopens : ∀ t, (f t).isSome = true → t.kind.opens = true)
    (hf : ∀ t t', Token.Alike F.lines.same t t' → Option.Rel R (f t) (f' t')) :
    F.Agrees P .inside R (Parser.accept f) (Parser.accept f') := by
  constructor
  intro i m m' hi hm
  have hedge : F.At .edge i := Region.Le.at_of_at hi
  refine acceptAt hedge hm (fun t ht hsome => ?_) hf
  refine ⟨hedge.resolve_right ?_, Token.Kind.isPlain_of_opens (hopens t hsome)⟩
  rintro ⟨hclosed, rfl⟩
  exact Bool.noConfusion ((hopens t hsome).symm.trans (F.barred hclosed t ht))

/-- What goes on with a statement may begin with any token that is no layout. -/
theorem acceptInside {f f' : Token → Option α} {R : α → α → Prop}
    (hplain : ∀ t, (f t).isSome = true → t.kind.isPlain = true)
    (hf : ∀ t t', Token.Alike F.lines.same t t' → Option.Rel R (f t) (f' t')) :
    F.Agrees .inside .inside R (Parser.accept f) (Parser.accept f') :=
  ⟨fun _ _ _ hi hm => acceptAt (.inl hi) hm (fun t _ hsome => ⟨hi, hplain t hsome⟩) hf⟩

def SameLine (same : Nat → Nat → Prop) (t t' : Token) : Prop := same t.line t'.line

theorem sym [P.Le .edge] {mark : Punct} (h : Token.Kind.opens (.punct mark) = true) :
    F.Agrees P .inside (SameLine F.lines.same) (Parser.sym mark) (Parser.sym mark) := by
  refine accept (fun t => ?_) fun t t' ht => ?_
  · cases hkind : t.kind <;> simp +contextual [h]
  · rw [ht.kind]
    cases hkind : t.kind with
    | punct mark' =>
      simp only
      split
      · exact .some (ht.line (by rw [Token.isLayout_eq, hkind]; rfl))
      · exact .none
    | _ => exact .none

theorem sameLine_of_kw {k : Keyword} {t t' : Token} (ht : Token.Alike F.lines.same t t') :
    Option.Rel (SameLine F.lines.same)
      (match t.kind with
        | .keyword k' => if k' = k then some t else none
        | _ => none)
      (match t'.kind with
        | .keyword k' => if k' = k then some t' else none
        | _ => none) := by
  rw [ht.kind]
  cases hkind : t.kind with
  | keyword k' =>
    simp only
    split
    · exact .some (ht.line (by rw [Token.isLayout_eq, hkind]; rfl))
    · exact .none
  | _ => exact .none

theorem kw [P.Le .edge] {k : Keyword} (h : Token.Kind.opens (.keyword k) = true) :
    F.Agrees P .inside (SameLine F.lines.same) (Parser.kw k) (Parser.kw k) := by
  refine accept (fun t => ?_) fun t t' ht => sameLine_of_kw ht
  cases hkind : t.kind <;> simp +contextual [h]

theorem kwInside {k : Keyword} :
    F.Agrees .inside .inside (SameLine F.lines.same) (Parser.kw k) (Parser.kw k) := by
  refine acceptInside (fun t => ?_) fun t t' ht => sameLine_of_kw ht
  cases hkind : t.kind <;> simp [Token.Kind.isPlain]

theorem soft [P.Le .edge] {s : SoftKeyword} :
    F.Agrees P .inside (SameLine F.lines.same) (Parser.soft s) (Parser.soft s) := by
  refine accept (fun t => ?_) fun t t' ht => ?_
  · cases hkind : t.kind <;> simp [Token.Kind.opens]
  · rw [ht.kind]
    cases hkind : t.kind with
    | name id s' =>
      cases s' with
      | none => exact .none
      | some s' =>
        simp only
        split
        · exact .some (ht.line (by rw [Token.isLayout_eq, hkind]; rfl))
        · exact .none
    | _ => exact .none

theorem name [P.Le .edge] :
    F.Agrees P .inside (SameText F.lines.same) Parser.name Parser.name := by
  refine accept (fun t => ?_) fun t t' ht => ?_
  · cases hkind : t.kind <;> simp [Token.Kind.opens]
  · rw [ht.kind]
    cases hkind : t.kind with
    | name id s => exact .some ⟨ht.line (by rw [Token.isLayout_eq, hkind]; rfl)⟩
    | _ => exact .none

theorem ident [P.Le .edge] : F.Agrees P .inside Eq Parser.ident Parser.ident :=
  .bind name fun _ _ ⟨_⟩ => .pure rfl

theorem nameExpr [P.Le .edge] :
    F.Agrees P .inside (Expr.Alike F.lines.same) (Parser.nameExpr .load)
      (Parser.nameExpr .load) :=
  .bind name fun _ _ ⟨hl⟩ => .pure (.name hl)

theorem nameTarget [P.Le .edge] {ctx : Context} (hctx : ctx ≠ .load) :
    F.Agrees P .inside (Expr.AlikeTarget F.lines.same) (Parser.nameExpr ctx)
      (Parser.nameExpr ctx) :=
  .bind name fun _ _ ⟨hl⟩ => .pure (.name hctx hl)

/-! ## Layout -/

/-- A layout token before the boundary is taken on both sides; a clean boundary is none. -/
theorem kindAt {k : Token.Kind} {i : Nat} {m m' : Memory} (hm : F.Memories m m')
    (hi : i < F.stop ∨ F.Clean ∧ i = F.stop ∧ k.bounds = false) :
    (∃ fault, Parser.kind k ⟨F.left, false⟩ i m = .raised fault) ∨
    (∃ m₁ m₁', F.Memories m₁ m₁' ∧ Parser.kind k ⟨F.left, false⟩ i m = .fail false m₁ ∧
      Parser.kind k ⟨F.right, false⟩ (i + F.shift) m' = .fail false m₁') ∨
    ∃ t t' m₁ m₁', F.Memories m₁ m₁' ∧ i < F.stop ∧ F.left.tokens[i]? = some t ∧ t.kind = k ∧
      Parser.kind k ⟨F.left, false⟩ i m = .ok t (i + 1) m₁ ∧
      Parser.kind k ⟨F.right, false⟩ (i + F.shift) m' = .ok t' (i + 1 + F.shift) m₁' := by
  unfold Parser.kind Parser.accept Parser.peek
  simp only
  cases ht : F.left.tokens[i]? with
  | none =>
    obtain ⟨fault, hfault⟩ := Option.isSome_iff_exists.mp (F.broken i (by omega) ht)
    simp only [hfault]
    exact .inl ⟨_, rfl⟩
  | some t =>
    obtain ⟨t', ht', hkind⟩ : ∃ t', F.right.tokens[i + F.shift]? = some t' ∧
        ((t.kind = k ↔ t'.kind = k) ∧ (t.kind = k → i < F.stop)) := by
      rcases hi with hlt | ⟨hclean, rfl, hk⟩
      · have htokens := F.token i (.inl hlt)
        rw [ht] at htokens
        generalize F.right.tokens[i + F.shift]? = x at htokens ⊢
        cases htokens with
        | some h => exact ⟨_, rfl, by rw [h.kind], fun _ => hlt⟩
      · obtain ⟨hbounds, t', ht', hbounds'⟩ := hclean.boundary t ht
        have hne : t.kind ≠ k := by rintro rfl; rw [hk] at hbounds; cases hbounds
        have hne' : t'.kind ≠ k := by rintro rfl; rw [hk] at hbounds'; cases hbounds'
        exact ⟨t', ht', ⟨fun h => absurd h hne, fun h => absurd h hne'⟩, fun h => absurd h hne⟩
    refine .inr ?_
    simp only [ht', ← hkind.1]
    by_cases h : t.kind = k
    · simp only [h, if_true]
      exact .inr ⟨t, t', _, _, hm.reach _ _, hkind.2 h, rfl, h, rfl,
        by rw [Nat.add_right_comm]⟩
    · simp only [h, if_false]
      exact .inl ⟨_, _, hm.reach _ _, rfl, rfl⟩

theorem newline : F.Agrees .inside .upTo (fun _ _ => True) Parser.newline Parser.newline := by
  constructor
  intro i m m' hi hm
  unfold Parser.newline
  rcases kindAt (k := .newline) hm (.inl hi) with ⟨fault, hl⟩ | ⟨m₁, m₁', hm₁, hl, hr⟩ |
    ⟨t, t', m₁, m₁', hm₁, hlt, ht, hkind, hl, hr⟩
  · rw [hl]
    exact .raised
  · rw [hl, hr]
    exact .fail hm₁
  · rw [hl, hr]
    refine .ok (Nat.succ_le_of_lt hlt) (Nat.le_succ i) (fun ho => ?_) trivial hm₁
    rw [F.level_succ ho i t hlt ht, hkind]
    exact Int.add_zero _

/-! ## Nonterminals -/

theorem remember {n : Nonterminal} {p p' : Parser n.Out} [P.Le .edge]
    (h : F.Agrees P n.exit (n.Alike F.lines.same) p p') :
    F.Agrees P n.exit (n.Alike F.lines.same) (Parser.remember n p) (Parser.remember n p') := by
  constructor
  intro i m m' hi hm
  have hedge : F.At .edge i := Region.Le.at_of_at hi
  unfold Parser.remember
  cases hremembered : n.isRemembered with
  | false => exact (rule h).reply i m m' hi hm
  | true =>
    have hfound := hm.related n i hedge
    simp only [if_true]
    generalize m.find? n i = x, m'.find? n (i + F.shift) = x' at hfound ⊢
    cases hfound with
    | some hentry =>
      cases hentry with
      | none => exact .fail hm
      | @some x y hxy =>
        obtain ⟨value, next⟩ := x
        obtain ⟨value', next'⟩ := y
        obtain ⟨hR, hnext, hj, hle, hlevel⟩ := hxy
        simp only at hnext
        subst hnext
        exact .ok hj hle hlevel hR hm
    | none =>
      have hreply := h.reply i m m' hi hm
      simp only
      generalize p _ i m = r, p' _ _ m' = r' at hreply ⊢
      cases hreply with
      | ok hj hle hlevel hR hm =>
        exact .ok hj hle hlevel hR (hm.insert hedge (.some ⟨hR, rfl, hj, hle, hlevel⟩))
      | fail hm => exact .fail (hm.insert hedge .none)
      | raised => exact .raised

/-! ## Lines -/

theorem lineHere [P.Le .edge] : F.Agrees P P F.lines.same Parser.lineHere Parser.lineHere := by
  constructor
  intro i m m' hi hm
  have hedge : F.At .edge i := Region.Le.at_of_at hi
  have htokens := F.token i hedge
  change F.Replies P _ i (Parser.bind Parser.peek _ _ _ _) (Parser.bind Parser.peek _ _ _ _)
  unfold Parser.bind Parser.peek
  simp only
  cases ht : F.left.tokens[i]? with
  | none =>
    obtain ⟨fault, hfault⟩ := Option.isSome_iff_exists.mp
      (F.broken i (Region.Le.at_of_at (Q := .upTo) hedge) ht)
    simp only [hfault]
    exact .raised
  | some t =>
    rw [ht] at htokens
    generalize F.right.tokens[i + F.shift]? = x at htokens ⊢
    cases htokens with
    | @some _ t' halike =>
      have hlayout : t'.isLayout = t.isLayout := by
        rw [Token.isLayout_eq, Token.isLayout_eq, halike.kind]
      simp only [hlayout]
      cases hplain : t.isLayout with
      | true => exact .fail (hm.reach _ _)
      | false =>
        exact .ok hi (Nat.le_refl _) (fun _ => rfl) (halike.line hplain) (hm.reach _ _)

/-- Corresponding starts. -/
structure SameMark (F : Frame) (s s' : Parser.Mark) : Prop where
  line : F.lines.same s.line s'.line
  pos : s'.pos = s.pos + F.shift

theorem startHere [P.Le .edge] :
    F.Agrees P P (SameMark F) Parser.startHere Parser.startHere := by
  constructor
  intro i m m' hi hm
  have hline := (lineHere (F := F) (P := P)).reply i m m' hi hm
  unfold Parser.startHere
  generalize Parser.lineHere _ i m = r, Parser.lineHere _ (i + F.shift) m' = r' at hline ⊢
  cases hline with
  | ok hj hle hlevel hR hm => exact .ok hj hle hlevel ⟨hR, rfl⟩ hm
  | fail hm => exact .fail hm
  | raised => exact .raised

theorem lastLineFrom {s s' : Parser.Mark} (h : SameMark F s s') {pos : Nat} (hpos : pos ≤ F.stop) :
    F.lines.same (Parser.lastLineFrom F.left.tokens s pos)
      (Parser.lastLineFrom F.right.tokens s' (pos + F.shift)) := by
  induction pos with
  | zero =>
    have hright : Parser.lastLineFrom F.right.tokens s' (0 + F.shift) = s'.line := by
      cases hshift : F.shift with
      | zero => rfl
      | succ k =>
        have hlt : 0 + k < s'.pos := by rw [h.pos, hshift]; omega
        exact if_pos hlt
    rw [hright]
    exact h.line
  | succ pos ih =>
    have htokens := F.token pos (.inl hpos)
    rw [Nat.add_right_comm, Parser.lastLineFrom, Parser.lastLineFrom, h.pos]
    by_cases hlt : pos < s.pos
    · rw [if_pos hlt, if_pos (by omega)]
      exact h.line
    · rw [if_neg hlt, if_neg (by omega)]
      generalize F.left.tokens[pos]? = x, F.right.tokens[pos + F.shift]? = x' at htokens
      cases htokens with
      | none => exact ih (Nat.le_of_succ_le hpos)
      | @some t t' halike =>
        have hlayout : t'.isLayout = t.isLayout := by
          rw [Token.isLayout_eq, Token.isLayout_eq, halike.kind]
        simp only [hlayout]
        cases hplain : t.isLayout with
        | true => exact ih (Nat.le_of_succ_le hpos)
        | false => exact halike.lastLine hplain

theorem spanFrom [P.Le .upTo] {s s' : Parser.Mark} (h : SameMark F s s') :
    F.Agrees P P (Span.Alike F.lines.same) (Parser.spanFrom s) (Parser.spanFrom s') :=
  ⟨fun _ _ _ hi hm => .ok hi (Nat.le_refl _) (fun _ => rfl)
    ⟨h.line, lastLineFrom h (Region.Le.at_of_at (Q := .upTo) hi)⟩ hm⟩

end Agrees

end Frame

namespace Nonterminal

/-- May code without faults hold the nonterminal inside its lines? -/
def isPlain : Nonterminal → Bool
  | file | block | elifClause | misplacedAssignment | annotationTarget => false
  | _ => true

end Nonterminal

/-- Engines whose parsers agree on a frame. -/
structure Frame.Engines (F : Frame) (g g' : Engine) : Prop where
  call (n : Nonterminal) (hn : n.isPlain = true) {P : Region} [P.Le .edge] :
    F.Agrees P .inside (n.Alike F.lines.same) (g.call n) (g'.call n)
  block [F.Clean] : F.Agrees .inside .upTo (Nonterminal.Alike F.lines.same .block) (g.call .block)
    (g'.call .block)
  elifClause [F.Clean] : F.Agrees .upTo .upTo (Nonterminal.Alike F.lines.same .elifClause)
    (g.call .elifClause) (g'.call .elifClause)
  embedded {l l' : Nat} {text : List Char} {e : Expr} : F.lines.same l l' →
    g.embedded l text = .ok e → ∃ e', g'.embedded l' text = .ok e' ∧ Expr.Alike F.lines.same e e'

end NotebookSlice.Syntax
