import Mathlib.Data.List.TakeWhile
import NotebookSlice.Proofs.Syntax.Lexing.Scanner

/-! # Steps of lexical analysis

A step takes something from a text that ends with a line feed: it leaves nothing
or a text that ends so too, and what may come after the text does not matter.
-/

namespace NotebookSlice.Syntax.Lexer

open Text

def Complete (cs : List Char) : Prop := cs.getLast? = some '\n'

theorem complete_newline : Complete ['\n'] := rfl

namespace Complete

variable {cs ds u : List Char} {c : Char}

theorem ne_nil (h : Complete cs) : cs ≠ [] := by
  rintro rfl
  cases h

theorem append (h : Complete cs) (u : List Char) : Complete (u ++ cs) := by
  unfold Complete at *
  rw [List.getLast?_append, h]
  rfl

theorem of_append (h : Complete (u ++ cs)) (hne : cs ≠ []) : Complete cs := by
  unfold Complete at *
  rw [List.getLast?_append_of_ne_nil _ hne] at h
  exact h

theorem of_cons (h : Complete (c :: cs)) (hc : c ≠ '\n') : Complete cs := by
  cases cs with
  | nil => exact absurd (Option.some.inj h) hc
  | cons d ds => exact of_append (u := [c]) h (List.cons_ne_nil d ds)

theorem eq_nil_or_complete (h : Complete (u ++ cs)) : cs = [] ∨ Complete cs :=
  (eq_or_ne cs []).imp_right h.of_append

theorem exists_line (h : Complete cs) :
    ∃ w m, cs = w ++ '\n' :: m ∧ '\n' ∉ w ∧ (m = [] ∨ Complete m) := by
  obtain ⟨w, m, rfl, hw⟩ := List.eq_append_cons_of_mem (List.mem_of_getLast? h)
  exact ⟨w, m, rfl, hw, eq_nil_or_complete (u := w ++ ['\n']) (by simpa using h)⟩

theorem scan {f : List Char → Option (List Char)} (hf : LineLocal f) (h : Complete cs)
    {r : List Char} (hr : f cs = some r) :
    r <:+ cs ∧ Complete r ∧ r.count '\n' = cs.count '\n' ∧ ∀ m, f (cs ++ m) = some (r ++ m) := by
  obtain ⟨w, m, rfl, hw, hm⟩ := h.exists_line
  obtain ⟨x?, hx?, hscan⟩ := hf w hw
  rw [hscan] at hr
  obtain ⟨x, rfl, rfl⟩ := Option.map_eq_some_iff.mp hr
  obtain ⟨u, rfl⟩ := hx? x rfl
  refine ⟨⟨u, by simp⟩, ?_, ?_, fun m' => ?_⟩
  · rw [List.append_assoc] at h
    exact h.of_append (by simp)
  · have hu : '\n' ∉ u := fun h => hw (List.mem_append_left _ h)
    simp [List.count_append, List.count_eq_zero.mpr hu]
  · rw [List.append_assoc, List.cons_append, hscan]
    simp

theorem scan_none {f : List Char → Option (List Char)} (hf : LineLocal f) (h : Complete cs)
    (hr : f cs = none) (m : List Char) : f (cs ++ m) = none := by
  obtain ⟨w, m₀, rfl, hw, hm⟩ := h.exists_line
  obtain ⟨x?, -, hscan⟩ := hf w hw
  rw [hscan, Option.map_eq_none_iff] at hr
  rw [List.append_assoc, List.cons_append, hscan, hr]
  rfl

section

variable {p : Char → Bool} (hp : p '\n' = false)
include hp

theorem exists_dropWhile (cs : List Char) : ∃ u, cs = u ++ cs.dropWhile p ∧ '\n' ∉ u := by
  refine ⟨cs.takeWhile p, (List.takeWhile_append_dropWhile).symm, fun hmem => ?_⟩
  have := List.mem_takeWhile_imp hmem
  rw [hp] at this
  cases this

theorem dropWhile (h : Complete cs) : Complete (cs.dropWhile p) := by
  obtain ⟨u, hu, hnot⟩ := exists_dropWhile hp cs
  rw [hu] at h
  refine h.of_append fun hnil => hnot ?_
  rw [hnil, List.append_nil] at h
  exact List.mem_of_getLast? h

theorem dropWhile_append (h : Complete cs) (m : List Char) :
    (cs ++ m).dropWhile p = cs.dropWhile p ++ m := by
  rw [List.dropWhile_append, if_neg]
  simpa using (h.dropWhile hp).ne_nil

theorem takeWhile_append (h : Complete cs) (m : List Char) :
    (cs ++ m).takeWhile p = cs.takeWhile p := by
  have hwhole := List.takeWhile_append_dropWhile (p := p) (l := cs ++ m)
  rw [h.dropWhile_append hp, ← List.append_assoc] at hwhole
  have hcs := List.append_cancel_right hwhole
  exact List.append_cancel_right (hcs.trans List.takeWhile_append_dropWhile.symm)

theorem count_dropWhile (cs : List Char) : (cs.dropWhile p).count '\n' = cs.count '\n' := by
  obtain ⟨u, hu, hnot⟩ := exists_dropWhile hp cs
  conv_rhs => rw [hu, List.count_append, List.count_eq_zero.mpr hnot, Nat.zero_add]

end

end Complete

/-- What a token scanner takes of whole lines; `answer` is its answer if more follows. -/
structure Consumes (answer : List Char → Step) (s : State) (cs : List Char) (ts : List Token)
    (s' : State) (rest : List Char) : Prop where
  complete : Complete rest
  smaller : rest.length < cs.length
  append : ∀ m, answer m = .ok (ts, s', rest ++ m)
  fresh : s'.fresh = s.fresh
  line : s'.line + rest.count '\n' = s.line + cs.count '\n'

variable {s s' : State} {c : Char} {cs rest : List Char} {ts : List Token}

theorem before_append {whole rest : List Char} (h : rest.length ≤ whole.length) (m : List Char) :
    before (whole ++ m) (rest ++ m) = before whole rest := by
  have hlen : (whole ++ m).length - (rest ++ m).length = whole.length - rest.length := by
    simp only [List.length_append]
    omega
  rw [before, before, hlen, List.take_append_of_le_length (by omega)]

theorem before_of_append (u rest : List Char) : before (u ++ rest) rest = u := by
  simp [before]

theorem consumes_stringToken {u : List Char} {q : Char} (hquote : isQuote q = true)
    (hcs : Complete (u ++ q :: cs))
    (h : stringToken s (u ++ q :: cs) (q :: cs) = .ok (ts, s', rest)) :
    Consumes (fun m => stringToken s (u ++ q :: cs ++ m) (q :: cs ++ m)) s (u ++ q :: cs) ts s'
      rest := by
  have hnewline : q ≠ '\n' := by rintro rfl; revert hquote; decide
  have hend : Complete cs := (hcs.of_append (List.cons_ne_nil q cs)).of_cons hnewline
  unfold stringToken at h
  cases hafter : afterString (q :: cs) with
  | none => rw [hafter] at h; cases h
  | some r =>
    rw [hafter] at h
    obtain ⟨v, rfl, hclose⟩ := closes_afterString hquote hend hafter
    have hr : Complete r := (hend.of_append (List.cons_ne_nil q r)).of_cons hnewline
    have hm (m : List Char) : afterString (q :: (v ++ q :: r) ++ m) = some (r ++ m) := by
      rw [List.cons_append, List.append_assoc, List.cons_append]
      exact hclose _ (List.head?_append_of_ne_nil _ hr.ne_nil)
    have hwhole : u ++ q :: (v ++ q :: r) = (u ++ q :: v ++ [q]) ++ r := by simp
    have hbefore : before (u ++ q :: (v ++ q :: r)) r = u ++ q :: v ++ [q] := by
      rw [hwhole, before_of_append]
    have hlen : r.length < (u ++ q :: (v ++ q :: r)).length := by
      simp only [List.length_append, List.length_cons]
      omega
    simp only [hbefore] at h
    cases h
    refine ⟨hr, hlen, fun m => ?_, rfl, ?_⟩
    · simp only [stringToken, hm]
      rw [before_append (Nat.le_of_lt hlen), hbefore]
    · rw [hwhole]
      simp only [List.count_append]
      omega

theorem consumes_nameToken (hword : Number.isWordChar c = true) (hcs : Complete (c :: cs))
    (h : nameToken s (c :: cs) = .ok (ts, s', rest)) :
    Consumes (fun m => nameToken s (c :: cs ++ m)) s (c :: cs) ts s' rest := by
  have hnewline : Number.isWordChar '\n' = false := by decide
  unfold nameToken at h
  split at h
  · rename_i kind hkind
    cases h
    refine ⟨hcs.dropWhile hnewline, ?_, fun m => ?_, rfl, by rw [Complete.count_dropWhile hnewline]⟩
    · rw [List.dropWhile_cons_of_pos hword]
      exact Nat.lt_succ_of_le (List.dropWhile_suffix _).length_le
    · simp only [nameToken, hcs.takeWhile_append hnewline, hcs.dropWhile_append hnewline, hkind]
  · cases h

theorem consumes_numberToken (hstart : isAsciiDigit c = true ∨ c = '.')
    (hcs : Complete (c :: cs)) (h : numberToken s (c :: cs) = .ok (ts, s', rest)) :
    Consumes (fun m => numberToken s (c :: cs ++ m)) s (c :: cs) ts s' rest := by
  have hnewline : c ≠ '\n' := by
    rintro rfl
    rcases hstart with h | h <;> revert h <;> decide
  have hend : Complete cs := hcs.of_cons hnewline
  obtain ⟨w, m, rfl, hw, hm⟩ := hend.exists_line
  obtain ⟨x?, hx?, hscan⟩ := Number.rest?_local hstart hw
  unfold numberToken at h
  rw [← List.cons_append, hscan] at h
  cases x? with
  | none => cases h
  | some x =>
    obtain ⟨u, rfl⟩ := hx? x rfl
    have hu : '\n' ∉ u := fun h => hw (List.mem_append_left _ h)
    have hlen : (x ++ '\n' :: m).length ≤ (c :: (u ++ x) ++ '\n' :: m).length := by
      simp only [List.length_append, List.length_cons]
      omega
    cases h
    refine ⟨?_, ?_, fun m' => ?_, rfl, ?_⟩
    · rw [List.append_assoc] at hend
      exact hend.of_append (by simp)
    · simp only [List.length_append, List.length_cons]
      omega
    · have hmore := hscan (m ++ m')
      have hwhole : c :: (u ++ x ++ '\n' :: m) ++ m' = c :: (u ++ x) ++ '\n' :: (m ++ m') := by simp
      rw [hwhole, numberToken, hmore]
      have := before_append hlen m'
      simp only [List.cons_append, List.append_assoc] at this ⊢
      simp [this]
    · simp [List.count_cons, List.count_append, List.count_eq_zero.mpr hu, beq_false_of_ne hnewline]

theorem ofPair?_newline (c : Char) : Punct.ofPair? c '\n' = none := by
  unfold Punct.ofPair?
  split <;> simp_all

theorem ofTriple?_newline (c d : Char) :
    Punct.ofTriple? c '\n' d = none ∧ Punct.ofTriple? c d '\n' = none := by
  unfold Punct.ofTriple?
  constructor <;> split <;> simp_all

theorem longMark_local {w : List Char} (hw : '\n' ∉ w) :
    ∃ r : Option (Punct × List Char), (∀ x ∈ r, x.2 <:+ w) ∧
      ∀ m, longMark c (w ++ '\n' :: m) = r.map fun x => (x.1, x.2 ++ '\n' :: m) := by
  match w with
  | [] =>
    refine ⟨none, by simp, fun m => ?_⟩
    cases m <;> simp [longMark, ofPair?_newline, ofTriple?_newline]
  | [d] =>
    refine ⟨(Punct.ofPair? c d).map (·, []), by simp, fun m => ?_⟩
    simp [longMark, ofTriple?_newline, Function.comp_def]
  | d :: e :: w =>
    refine ⟨(Punct.ofTriple? c d e).map (·, w) <|> (Punct.ofPair? c d).map (·, e :: w), ?_,
      fun m => ?_⟩
    · cases Punct.ofTriple? c d e with
      | some mark =>
        rintro _ ⟨⟩
        exact ⟨[d, e], rfl⟩
      | none =>
        cases Punct.ofPair? c d with
        | some mark =>
          rintro _ ⟨⟩
          exact ⟨[d], rfl⟩
        | none => simp
    · simp only [longMark, List.cons_append]
      cases Punct.ofTriple? c d e <;> cases Punct.ofPair? c d <;> rfl

theorem fresh_line_of_afterMark (h : afterMark s c = some s') :
    s'.fresh = s.fresh ∧ s'.line = s.line := by
  unfold afterMark afterBracket at h
  split at h
  · split at h
    · split at h
      · cases h
      · cases h
        exact ⟨rfl, rfl⟩
    · split at h
      · cases h
      · split at h
        · cases h
          exact ⟨rfl, rfl⟩
        · cases h
  · split at h
    · cases h
    · cases h
      exact ⟨rfl, rfl⟩

theorem consumes_punctToken (hc : c ≠ '\n') (hcs : Complete (c :: cs))
    (h : punctToken s c cs = .ok (ts, s', rest)) :
    Consumes (fun m => punctToken s c (cs ++ m)) s (c :: cs) ts s' rest := by
  have hend : Complete cs := hcs.of_cons hc
  obtain ⟨w, m, rfl, hw, hm⟩ := hend.exists_line
  obtain ⟨x?, hx?, hmark⟩ := longMark_local (c := c) hw
  have hmore (m' : List Char) : longMark c (w ++ '\n' :: m ++ m') =
      x?.map fun x => (x.1, x.2 ++ '\n' :: (m ++ m')) := by
    rw [List.append_assoc, List.cons_append, hmark]
  have hcount : (c :: (w ++ '\n' :: m)).count '\n' = (w ++ '\n' :: m).count '\n' := by
    rw [List.count_cons, beq_false_of_ne hc]
    rfl
  unfold punctToken at h
  rw [hmark] at h
  cases x? with
  | some x =>
    obtain ⟨mark, r⟩ := x
    obtain ⟨u, rfl⟩ := hx? (mark, r) rfl
    have hu : '\n' ∉ u := fun h => hw (List.mem_append_left _ h)
    cases h
    refine ⟨?_, ?_, fun m' => ?_, rfl, ?_⟩
    · rw [List.append_assoc] at hend
      exact hend.of_append (by simp)
    · simp only [List.length_append, List.length_cons]
      omega
    · simp only [punctToken, hmore, Option.map_some]
      simp
    · rw [hcount]
      simp [List.count_append, List.count_eq_zero.mpr hu]
  | none =>
    rw [Option.map_none] at h
    cases hafter : afterMark s c with
    | none => simp only [hafter] at h; cases h
    | some s₁ =>
      simp only [hafter] at h
      obtain ⟨hfresh, hline⟩ := fresh_line_of_afterMark hafter
      cases h
      refine ⟨hend, Nat.lt_succ_self _, fun m' => ?_, hfresh, by rw [hcount, hline]⟩
      simp only [punctToken, hmore, Option.map_none, hafter]

/-- What indentation takes: blanks, and ends of lines that are continued. -/
structure Measures (s : State) (n m k : Nat) (cs : List Char) (s' : State) (column : Nat × Nat)
    (rest : List Char) : Prop where
  complete : Complete rest
  smaller : rest.length ≤ cs.length
  append : ∀ more, measure s n m k (cs ++ more) = .ok (s', column, rest ++ more)
  state : ∃ j, s' = { s with line := s.line + j } ∧ j + rest.count '\n' = cs.count '\n'

theorem Measures.cons {n m n' m' k : Nat} {column : Nat × Nat} (hc : c ≠ '\n')
    (h : Measures s n' m' k cs s' column rest)
    (heq : ∀ more, measure s n m k (c :: (cs ++ more)) = measure s n' m' k (cs ++ more)) :
    Measures s n m k (c :: cs) s' column rest := by
  obtain ⟨hrest, hlen, happend, j, hs, hcount⟩ := h
  refine ⟨hrest, Nat.le_succ_of_le hlen, fun more => (heq more).trans (happend more), j, hs, ?_⟩
  rw [hcount, List.count_cons, beq_false_of_ne hc]
  rfl

theorem measures_of_measure {n m k : Nat} {column : Nat × Nat} (hcs : Complete cs)
    (h : measure s n m k cs = .ok (s', column, rest)) : Measures s n m k cs s' column rest := by
  fun_induction measure s n m k cs with
  | case1 => cases hcs
  | case2 s n m k cs ih =>
    exact (ih (hcs.of_cons (by decide)) h).cons (by decide) fun _ => rfl
  | case3 s n m k cs ih =>
    exact (ih (hcs.of_cons (by decide)) h).cons (by decide) fun _ => rfl
  | case4 s n m k cs ih =>
    exact (ih (hcs.of_cons (by decide)) h).cons (by decide) fun _ => rfl
  | case5 => cases h
  | case6 s n m k cs hempty ih =>
    have hne : cs ≠ [] := by simpa using hempty
    obtain ⟨hrest, hlen, happend, j, hs, hcount⟩ :=
      ih (Complete.of_append (u := ['\\', '\n']) hcs hne) h
    refine ⟨hrest, Nat.le_add_right_of_le (k := 2) hlen, fun more => ?_, j + 1, ?_, ?_⟩
    · rw [← happend more]
      simp [measure, hne]
    · rw [hs]
      simp only [State.mk.injEq, and_true]
      omega
    · have hlines : ('\\' :: '\n' :: cs).count '\n' = cs.count '\n' + 1 := by simp
      omega
  | case7 => cases h
  | case8 s n m k c cs hspace htab hfeed hcontinued hc =>
    cases h
    refine ⟨hcs, Nat.le_refl _, fun more => ?_, 0, rfl, Nat.zero_add _⟩
    have hbackslash : c ≠ '\\' := by simpa using hc
    rw [List.cons_append, measure]
    · rw [if_neg hc]
    all_goals simp_all

/-! ## Steps -/

def State.next (s : State) : Nat := if s.fresh then s.line + 1 else s.line

def State.size (s : State) (cs : List Char) : Nat := 2 * cs.length + if s.fresh then 1 else 0

/-- What a step takes of whole lines. -/
structure Takes (s : State) (cs : List Char) (ts : List Token) (s' : State) (rest : List Char) :
    Prop where
  smaller : s'.size rest < s.size cs
  append : ∀ m, step s (cs ++ m) = .ok (ts, s', rest ++ m)
  line : s'.next + rest.count '\n' = s.next + cs.count '\n'
  whole : rest = [] ∧ s'.fresh = true ∨ Complete rest

theorem exists_of_indentation {column : Nat × Nat} (h : indentation s column = .ok (s', ts)) :
    ∃ stack, s' = { s with indents := stack } := by
  unfold indentation at h
  split at h
  · cases h
  · split at h
    · split at h
      · cases h
        exact ⟨_, rfl⟩
      · cases h
    · split at h
      · split at h
        · cases h
        · cases h
          exact ⟨_, rfl⟩
      · simp only at h
        split at h
        · cases h
          exact ⟨_, rfl⟩
        · cases h

/-- A line of blanks, or of a comment, is left behind; other lines are left to the next steps. -/
structure Heads (s : State) (column : Nat × Nat) (cs : List Char) (ts : List Token) (s' : State)
    (rest : List Char) : Prop where
  append : ∀ m, lineHead s column (cs ++ m) = .ok (ts, s', rest ++ m)
  line : s'.next + rest.count '\n' = s.line + cs.count '\n'
  cases : (rest.length < cs.length ∧ s'.fresh = true ∧ (rest = [] ∨ Complete rest)) ∨
    rest = cs ∧ s'.fresh = false

theorem dropWhile_newline {w m : List Char} (hw : '\n' ∉ w) :
    (w ++ '\n' :: m).dropWhile (· != '\n') = '\n' :: m := by
  rw [List.dropWhile_append_of_pos, List.dropWhile_cons_of_neg (by simp)]
  intro c hc
  rw [bne_iff_ne]
  rintro rfl
  exact hw hc

theorem lineHead_cons {column : Nat × Nat} {c : Char} (hnewline : c ≠ '\n') (hcomment : c ≠ '#')
    (rest : List Char) :
    lineHead s column (c :: rest) =
      if s.brackets.isEmpty then
        match indentation s column with
        | .ok (s, tokens) => .ok (tokens, s, c :: rest)
        | .error fault => .error fault
      else .ok ([], s, c :: rest) :=
  lineHead.eq_3 _ _ _ (fun _ h => hnewline (List.cons.inj h).1)
    fun _ h => hcomment (List.cons.inj h).1

theorem lineHead_append {column : Nat × Nat} (hcs : cs ≠ [])
    (hnewline : ∀ more, cs ≠ '\n' :: more) (hcomment : ∀ more, cs ≠ '#' :: more) (m : List Char) :
    lineHead s column (cs ++ m) =
      if s.brackets.isEmpty then
        match indentation s column with
        | .ok (s, tokens) => .ok (tokens, s, cs ++ m)
        | .error fault => .error fault
      else .ok ([], s, cs ++ m) := by
  obtain ⟨c, cs, rfl⟩ := List.exists_cons_of_ne_nil hcs
  refine lineHead_cons ?_ ?_ (cs ++ m)
  · rintro rfl
    exact hnewline cs rfl
  · rintro rfl
    exact hcomment cs rfl

theorem heads_of_lineHead {column : Nat × Nat} (hfresh : s.fresh = false) (hcs : Complete cs)
    (h : lineHead s column cs = .ok (ts, s', rest)) : Heads s column cs ts s' rest := by
  by_cases hnewline : ∃ more, cs = '\n' :: more
  · obtain ⟨more, rfl⟩ := hnewline
    cases h
    refine ⟨fun m => rfl, ?_, .inl ⟨Nat.lt_succ_self _, rfl, ?_⟩⟩
    · simp [State.next]
      omega
    · exact Complete.eq_nil_or_complete (u := ['\n']) hcs
  by_cases hcomment : ∃ more, cs = '#' :: more
  · obtain ⟨more, rfl⟩ := hcomment
    obtain ⟨w, m₀, rfl, hw, hm₀⟩ := (hcs.of_cons (by decide)).exists_line
    simp only [lineHead, dropWhile_newline hw, List.drop_one, List.tail_cons] at h
    cases h
    refine ⟨fun m => ?_, ?_, .inl ⟨?_, rfl, hm₀⟩⟩
    · simp only [lineHead, List.cons_append, List.append_assoc, dropWhile_newline hw,
        List.drop_one, List.tail_cons]
    · simp [State.next, List.count_append, List.count_eq_zero.mpr hw]
      omega
    · simp only [List.length_cons, List.length_append]
      omega
  · have happend (m : List Char) : lineHead s column (cs ++ m) = _ :=
      lineHead_append hcs.ne_nil (not_exists.mp hnewline) (not_exists.mp hcomment) m
    have hself := happend []
    rw [List.append_nil, h] at hself
    suffices hall : (∀ m, lineHead s column (cs ++ m) = .ok (ts, s', rest ++ m)) ∧ rest = cs ∧
        s'.fresh = false ∧ s'.line = s.line by
      obtain ⟨hm, rfl, hfresh', hline⟩ := hall
      exact ⟨hm, by rw [State.next, hfresh', hline]; rfl, .inr ⟨rfl, hfresh'⟩⟩
    split at hself
    · rename_i hbrackets
      cases hindent : indentation s column with
      | error => rw [hindent] at hself; cases hself
      | ok x =>
        obtain ⟨s₁, ts₁⟩ := x
        obtain ⟨stack, rfl⟩ := exists_of_indentation hindent
        rw [hindent] at hself
        cases hself
        refine ⟨fun m => ?_, rfl, hfresh, rfl⟩
        rw [happend, if_pos hbrackets, hindent]
    · rename_i hbrackets
      cases hself
      refine ⟨fun m => ?_, rfl, hfresh, rfl⟩
      rw [happend, if_neg hbrackets]

theorem takes_of_lineStart (hfresh : s.fresh = true) (hcs : Complete cs)
    (h : lineStart s cs = .ok (ts, s', rest)) : Takes s cs ts s' rest := by
  unfold lineStart at h
  cases hmeasure : measure (s.enter cs) 0 0 0 cs with
  | error => rw [hmeasure] at h; cases h
  | ok x =>
    obtain ⟨s₁, column, cs₁⟩ := x
    rw [hmeasure] at h
    obtain ⟨hcs₁, hlen, happend, j, rfl, hcount⟩ := measures_of_measure hcs hmeasure
    obtain ⟨hhead, hline, hcases⟩ := heads_of_lineHead rfl hcs₁ h
    have henter (m : List Char) : s.enter (cs ++ m) = s.enter cs := by
      unfold State.enter
      simp [hcs.ne_nil]
    have hstart : (s.enter cs).line = s.line + 1 := by
      unfold State.enter
      simp [hcs.ne_nil]
    refine ⟨?_, fun m => ?_, ?_, ?_⟩
    · unfold State.size
      rw [if_pos hfresh]
      rcases hcases with ⟨hlt, -, -⟩ | ⟨rfl, hfresh'⟩
      · split <;> omega
      · simp only [hfresh', Bool.false_eq_true, if_false]
        omega
    · rw [step, if_pos hfresh, lineStart, henter, happend]
      exact hhead m
    · simp only [hstart] at hline
      rw [show s.next = s.line + 1 by rw [State.next, if_pos hfresh]]
      omega
    · rcases hcases with ⟨-, hfresh', hrest⟩ | ⟨rfl, -⟩
      · exact hrest.imp_left fun h => ⟨h, hfresh'⟩
      · exact .inr hcs₁

theorem consumes_codeToken (hc : c ≠ '\n') (hcs : Complete (c :: cs))
    (h : codeToken s c cs = .ok (ts, s', rest)) :
    Consumes (fun m => codeToken s c (cs ++ m)) s (c :: cs) ts s' rest := by
  have hhead (m : List Char) : (cs ++ m).head? = cs.head? :=
    List.head?_append_of_ne_nil _ (hcs.of_cons hc).ne_nil
  unfold codeToken at h ⊢
  simp only [hhead]
  split at h
  · rename_i hletter
    simp only [hletter, if_true]
    cases hletters : afterPrefix ⟨false, false, false, false⟩ (c :: cs) with
    | some quoted =>
      obtain ⟨-, -, -, happend⟩ := Complete.scan (afterPrefix_local _) hcs hletters
      obtain ⟨u, q, more, -, hsplit, rfl, hquote⟩ := exists_of_afterPrefix hletters
      simp only [hletters] at h
      simp only [← List.cons_append, happend]
      rw [hsplit] at h hcs ⊢
      exact consumes_stringToken hquote hcs h
    | none =>
      have happend := Complete.scan_none (afterPrefix_local _) hcs hletters
      simp only [hletters] at h
      simp only [← List.cons_append, happend]
      refine consumes_nameToken ?_ hcs h
      rw [Number.isWordChar]
      revert hletter
      cases isAsciiLetter c <;> simp +contextual
  · rename_i hletter
    simp only [hletter]
    split at h
    · rename_i hnumber
      simp only [hnumber, if_true]
      refine consumes_numberToken ?_ hcs h
      revert hnumber
      cases isAsciiDigit c <;> simp +contextual
    · rename_i hnumber
      simp only [hnumber]
      split at h
      · rename_i hquote
        simp only [hquote, if_true]
        exact consumes_stringToken (u := []) hquote hcs h
      · rename_i hquote
        simp only [hquote]
        exact consumes_punctToken hc hcs h

/-- Comments, ends of lines and continued lines are left behind, and so is a token. -/
theorem consumes_tokenStep (hfresh : s.fresh = false) (hcs : Complete cs)
    (h : tokenStep s cs = .ok (ts, s', rest)) :
    (∀ m, tokenStep s (cs ++ m) = .ok (ts, s', rest ++ m)) ∧
      s'.size rest < 2 * cs.length ∧ s'.next + rest.count '\n' = s.line + cs.count '\n' ∧
      (rest = [] ∧ s'.fresh = true ∨ Complete rest) := by
  unfold tokenStep at h
  split at h
  · cases h
  · rename_i more
    cases h
    have hmore := hcs.of_cons (by decide)
    refine ⟨fun m => ?_, ?_, ?_, .inr (hmore.dropWhile rfl)⟩
    · simp only [tokenStep, List.cons_append, hmore.dropWhile_append (p := (· != '\n')) rfl]
    · have := (List.dropWhile_suffix (· != '\n') (l := more)).length_le
      simp only [State.size, hfresh, Bool.false_eq_true, if_false, List.length_cons]
      omega
    · rw [State.next, hfresh, Complete.count_dropWhile rfl]
      simp
  · rename_i more
    cases h
    refine ⟨fun _ => rfl, ?_, ?_, ?_⟩
    · simp only [State.size, if_true, List.length_cons]
      omega
    · simp [State.next]
      omega
    · exact (Complete.eq_nil_or_complete (u := ['\n']) hcs).imp_left fun h => ⟨h, rfl⟩
  · rename_i more
    split at h
    · cases h
    · rename_i hempty
      cases h
      have hne : rest ≠ [] := by simpa using hempty
      refine ⟨fun m => ?_, ?_, ?_, .inr (Complete.of_append (u := ['\\', '\n']) hcs hne)⟩
      · simp [tokenStep, hne]
      · simp only [State.size, hfresh, Bool.false_eq_true, if_false, List.length_cons]
        omega
      · simp [State.next, hfresh]
        omega
  · cases h
  · rename_i c more hcomment hnewline hcontinued hbackslash
    have hc : c ≠ '\n' := hnewline
    obtain ⟨hrest, hlen, happend, hfresh', hline⟩ := consumes_codeToken hc hcs h
    refine ⟨fun m => ?_, ?_, ?_, .inr hrest⟩
    · rw [← happend m, List.cons_append, tokenStep]
      · exact hcomment
      · exact hnewline
      · exact fun more h _ => hbackslash h
      · exact hbackslash
    · simp only [State.size, hfresh', hfresh, Bool.false_eq_true, if_false,
        List.length_cons] at hlen ⊢
      omega
    · rw [State.next, hfresh', hfresh]
      exact hline

theorem takes_of_inLine (hfresh : s.fresh = false) (hcs : Complete cs)
    (h : inLine s cs = .ok (ts, s', rest)) : Takes s cs ts s' rest := by
  have hspace : isSpace '\n' = false := by decide
  obtain ⟨happend, hsize, hline, hwhole⟩ := consumes_tokenStep hfresh (hcs.dropWhile hspace) h
  have hlen := (List.dropWhile_suffix isSpace (l := cs)).length_le
  refine ⟨?_, fun m => ?_, ?_, hwhole⟩
  · rw [State.size.eq_def s, hfresh]
    simp only [Bool.false_eq_true, if_false]
    omega
  · rw [step, if_neg (by rw [hfresh]; exact Bool.false_ne_true), inLine, hcs.dropWhile_append hspace]
    exact happend m
  · rw [hline, Complete.count_dropWhile hspace, State.next.eq_def s, hfresh]
    rfl

theorem takes_of_step (hcs : Complete cs) (h : step s cs = .ok (ts, s', rest)) :
    Takes s cs ts s' rest := by
  unfold step at h
  cases hfresh : s.fresh with
  | true =>
    rw [hfresh, if_pos rfl] at h
    exact takes_of_lineStart hfresh hcs h
  | false =>
    rw [hfresh, if_neg Bool.false_ne_true] at h
    exact takes_of_inLine hfresh hcs h

end NotebookSlice.Syntax.Lexer
