import NotebookSlice.Proofs.Syntax.Lexing.Layout

/-! # What a step reads

A step reads a line without code, the blanks before code, a comment, the end of a
line, a backslash that joins two lines, or one token. Nothing after the line on
which it ends makes a difference to it.
-/

namespace NotebookSlice.Syntax

/-- How many brackets more are open after a token than before it. -/
def Token.Kind.turn : Token.Kind → Int
  | .punct .lpar | .punct .lsqb | .punct .lbrace => 1
  | .punct .rpar | .punct .rsqb | .punct .rbrace => -1
  | _ => 0

namespace Lexer

open Text

def Blanks (w : List Char) : Prop := ∀ c ∈ w, isSpace c = true

/-- A line without code: blanks, and a comment if there is one. -/
def Idle (w : List Char) : Prop :=
  '\n' ∉ w ∧ ∃ b v, w = b ++ v ∧ Blanks b ∧ (v = [] ∨ v.head? = some '#')

/-- What may stand before the code of a line: blanks, and lines of nothing but blanks that a
backslash joins to the next one. -/
inductive Lead : List Char → Prop
  | nil : Lead []
  | blank {c : Char} {u : List Char} : isSpace c = true → Lead u → Lead (c :: u)
  | join {u : List Char} : Lead u → Lead ('\\' :: '\n' :: u)

/-- What holds of each two lines that a backslash joins. The first line has the number `n`. -/
def OnJoins (P : Nat → Prop) (n : Nat) (cs : List Char) : Prop :=
  ∀ u v, cs = u ++ '\\' :: '\n' :: v → P (n + u.count '\n') ∧ P (n + u.count '\n' + 1)

/-- Texts that begin with the same line. -/
inductive SameLine : List Char → List Char → Prop
  | mk {w m m' : List Char} : '\n' ∉ w → SameLine (w ++ '\n' :: m) (w ++ '\n' :: m')

def startsCode (c : Char) : Bool := !isSpace c && c != '\n' && c != '#' && c != '\\'

/-- Is the token punctuation or a keyword? -/
def IsMark (t : Token) : Prop := (∃ m, t.kind = .punct m) ∨ ∃ k, t.kind = .keyword k

/-- A token that is no layout, with its text, and the state after it. -/
structure ReadsToken (s : State) (v : List Char) (t : Token) (s' : State) : Prop where
  line : t.line = s.line
  lastLine : t.lastLine = s.line + v.count '\n'
  plain : t.kind.isPlain = true
  first : ∃ c v', v = c :: v' ∧ startsCode c = true
  last : ∃ v' c, v = v' ++ [c] ∧ c ≠ '\n'
  keyword : ∀ k, t.kind = .keyword k → Keyword.ofSpelling? v = some k
  colon : t.kind = .punct .colon → v = [':']
  mark : IsMark t → t.lastLine = t.line
  depth : t.depth = s'.brackets.length
  turn : (s'.brackets.length : Int) = s.brackets.length + t.kind.turn
  state : ∃ brackets, s' = { s with line := t.lastLine, brackets := brackets }

/-- Layout before a line, the number of which is `n`, inside of `d` brackets. -/
structure IsMargin (n d : Nat) (t : Token) : Prop where
  isLayout : t.isLayout = true
  kind : t.kind ≠ .newline
  line : t.line = n
  lastLine : t.lastLine = n
  depth : t.depth = d

/-- The text `u` that a step reads, its tokens and the state after it. -/
inductive Reads (s : State) : (u : List Char) → List Token → State → List Char → Prop
  | idle {u v rest : List Char} : s.fresh = true → Lead u → '\n' ∉ v →
      (v = [] ∨ v.head? = some '#') →
      Reads s (u ++ v ++ ['\n']) [] { s with line := s.line + 1 + u.count '\n' } rest
  | head {u rest : List Char} {ts : List Token} {stack : List (Nat × Nat)} {c : Char} :
      s.fresh = true → Lead u → startsCode c = true →
      (∀ t ∈ ts, IsMargin (s.line + 1 + u.count '\n') s.brackets.length t) →
      Reads s u ts { s with line := s.line + 1 + u.count '\n', fresh := false, indents := stack }
        (c :: rest)
  | finish {ts : List Token} {stack : List (Nat × Nat)} : s.fresh = true →
      (∀ t ∈ ts, IsMargin s.line s.brackets.length t) →
      Reads s [] ts { s with fresh := false, indents := stack } []
  | comment {w v rest : List Char} : s.fresh = false → Blanks w → '\n' ∉ v →
      Reads s (w ++ '#' :: v) [] s ('\n' :: rest)
  | join {w rest : List Char} : s.fresh = false → Blanks w → Complete rest →
      Reads s (w ++ ['\\', '\n']) [] { s with line := s.line + 1 } rest
  | newline {w rest : List Char} : s.fresh = false → Blanks w →
      Reads s (w ++ ['\n']) (if s.brackets.isEmpty then [s.token .newline] else [])
        { s with fresh := true } rest
  | token {w v rest : List Char} {t : Token} {s' : State} : s.fresh = false → Blanks w →
      ReadsToken s v t s' → Complete rest → Reads s (w ++ v) [t] s' rest

variable {s s' : State} {c : Char} {cs rest : List Char} {ts : List Token}

theorem line_unique {v w m m' : List Char} (hv : '\n' ∉ v) (hw : '\n' ∉ w)
    (h : v ++ '\n' :: m = w ++ '\n' :: m') : v = w ∧ m = m' := by
  have hline {u n : List Char} (hu : '\n' ∉ u) : (u ++ '\n' :: n).takeWhile (· != '\n') = u := by
    rw [List.takeWhile_append_of_pos]
    · simp
    · intro c hc
      simpa using ne_of_mem_of_not_mem hc hu
  have heq := congrArg (List.takeWhile (· != '\n')) h
  rw [hline hv, hline hw] at heq
  subst heq
  exact ⟨rfl, (List.cons.inj (List.append_cancel_left h)).2⟩

namespace SameLine

variable {a b : List Char} (h : SameLine a b)
include h

theorem head?_eq : b.head? = a.head? := by
  cases h with
  | @mk w m m' hw => cases w <;> rfl

theorem append (u : List Char) : SameLine (u ++ a) (u ++ b) := by
  by_cases hu : '\n' ∈ u
  · obtain ⟨w, m, rfl, hw⟩ := List.eq_append_cons_of_mem hu
    simp only [List.append_assoc, List.cons_append]
    exact .mk hw
  · cases h with
    | @mk w m m' hw =>
      rw [← List.append_assoc, ← List.append_assoc]
      exact .mk (by simp [hu, hw])

theorem exists_of_append {w m : List Char} (hw : '\n' ∉ w) (heq : a = w ++ '\n' :: m) :
    ∃ m', b = w ++ '\n' :: m' := by
  cases h with
  | @mk v _ m' hv => exact ⟨m', by rw [(line_unique hv hw heq).1]⟩

end SameLine

theorem SameLine.of_append {a b u : List Char} (ha : Complete a) (hu : '\n' ∉ u)
    (h : SameLine (u ++ a) (u ++ b)) : SameLine a b := by
  obtain ⟨w, m, rfl, hw, -⟩ := ha.exists_line
  obtain ⟨m', hm'⟩ := h.exists_of_append (w := u ++ w) (by simp [hu, hw]) (List.append_assoc ..).symm
  rw [List.append_assoc] at hm'
  rw [List.append_cancel_left hm']
  exact .mk hw

namespace OnJoins

variable {P : Nat → Prop} {n : Nat} {u : List Char}

theorem of_append (h : OnJoins P n (u ++ cs)) : OnJoins P (n + u.count '\n') cs := by
  rintro v w rfl
  have hwhole := h (u ++ v) w (List.append_assoc ..).symm
  rwa [List.count_append, ← Nat.add_assoc] at hwhole

theorem of_append_right {v : List Char} (h : OnJoins P n (cs ++ v)) : OnJoins P n cs := by
  rintro u w rfl
  exact h u (w ++ v) (by simp)

theorem of_lead (h : OnJoins P n (u ++ cs)) (hu : Lead u) (hjoin : '\n' ∈ u) {k : Nat} (hn : n ≤ k)
    (hk : k ≤ n + u.count '\n') : P k := by
  induction hu generalizing n with
  | nil => cases hjoin
  | @blank c u hc _ ih =>
    have hne : c ≠ '\n' := by rintro rfl; cases hc
    rw [List.count_cons_of_ne hne] at hk
    refine ih ?_ ((List.mem_cons.mp hjoin).resolve_left hne.symm) hn hk
    simpa [hne] using h.of_append (u := [c])
  | @join u _ ih =>
    obtain ⟨hfirst, hsecond⟩ := h [] (u ++ cs) rfl
    rw [List.count_nil, Nat.add_zero] at hfirst hsecond
    rw [List.count_cons_of_ne (by decide), List.count_cons_self] at hk
    rcases Nat.eq_or_lt_of_le hn with rfl | hlt
    · exact hfirst
    · rcases Nat.eq_or_lt_of_le (Nat.succ_le_of_lt hlt) with rfl | hlt
      · exact hsecond
      · refine ih (n := n + 1) (h.of_append (u := ['\\', '\n'])) ?_ (by omega) (by omega)
        exact List.count_pos_iff.mp (by omega)

end OnJoins

theorem Lead.blanks {u : List Char} (h : Lead u) (hu : '\n' ∉ u) : Blanks u := by
  induction h with
  | nil => exact List.forall_mem_nil _
  | blank hc _ ih =>
    exact List.forall_mem_cons.mpr ⟨hc, ih fun h => hu (List.mem_cons_of_mem _ h)⟩
  | join => simp at hu

theorem Blanks.not_mem_newline {w : List Char} (h : Blanks w) : '\n' ∉ w := fun hmem =>
  absurd (h _ hmem) (by decide)

theorem blanks_takeWhile (cs : List Char) : Blanks (cs.takeWhile isSpace) :=
  fun _ hc => List.mem_takeWhile_imp hc

/-! ## Starts of lines -/

theorem measure_congr {n m k : Nat} {column : Nat × Nat} (hcs : Complete cs)
    (h : measure s n m k cs = .ok (s', column, rest)) :
    ∃ u, cs = u ++ rest ∧ Lead u ∧ s' = { s with line := s.line + u.count '\n' } ∧
      (∃ c, rest.head? = some c ∧ isSpace c = false ∧ c ≠ '\\') ∧
      ∀ rest', rest'.head? = rest.head? → measure s n m k (u ++ rest') =
        .ok (s', column, rest') := by
  fun_induction measure s n m k cs with
  | case1 => cases hcs
  | case2 s n m k cs ih | case3 s n m k cs ih | case4 s n m k cs ih =>
    obtain ⟨u, rfl, hu, rfl, hc, hmore⟩ := ih (hcs.of_cons (by decide)) h
    refine ⟨_ :: u, rfl, .blank (by decide) hu, ?_, hc, hmore⟩
    rw [List.count_cons_of_ne (by decide)]
  | case5 => cases h
  | case6 s n m k cs hempty ih =>
    have hne : cs ≠ [] := by simpa using hempty
    obtain ⟨u, rfl, hu, rfl, ⟨c, hc, hcode⟩, hmore⟩ :=
      ih (Complete.of_append (u := ['\\', '\n']) hcs hne) h
    refine ⟨'\\' :: '\n' :: u, rfl, .join hu, ?_, ⟨c, hc, hcode⟩, fun rest' hrest' => ?_⟩
    · rw [List.count_cons_of_ne (by decide), List.count_cons_self, Nat.add_assoc,
        Nat.add_comm 1]
    · have hne' : u ++ rest' ≠ [] := by
        obtain ⟨more, rfl⟩ := List.head?_eq_some_iff.mp (hrest'.trans hc)
        exact List.append_ne_nil_of_right_ne_nil u (List.cons_ne_nil c more)
      rw [List.cons_append, List.cons_append, measure, if_neg (by simpa using hne')]
      exact hmore rest' hrest'
  | case7 => cases h
  | case8 s n m k c cs hspace htab hfeed hcontinued hc =>
    cases h
    have hbackslash : c ≠ '\\' := by simpa using hc
    refine ⟨[], rfl, .nil, rfl, ⟨c, rfl, ?_, hbackslash⟩, fun rest' hrest' => ?_⟩
    · simp only [isSpace, Bool.or_eq_false_iff, beq_eq_false_iff_ne]
      exact ⟨⟨hspace, htab⟩, hfeed⟩
    · obtain ⟨rest', rfl⟩ := List.head?_eq_some_iff.mp hrest'
      rw [List.nil_append, measure]
      · rw [if_neg hc]
      all_goals simp_all

/-! ## Tokens -/

/-- What a scanner for lines leaves begins on the same line, whatever stands on later lines. -/
theorem LineLocal.scan {f : List Char → Option (List Char)} (hf : LineLocal f) (hcs : Complete cs)
    (h : f cs = some rest) : ∃ u, cs = u ++ rest ∧ '\n' ∉ u ∧ Complete rest ∧
      ∀ rest', SameLine rest rest' → f (u ++ rest') = some rest' := by
  obtain ⟨w, m, rfl, hw, -⟩ := hcs.exists_line
  obtain ⟨x?, hx?, hscan⟩ := hf w hw
  rw [hscan] at h
  obtain ⟨x, rfl, rfl⟩ := Option.map_eq_some_iff.mp h
  obtain ⟨u, rfl⟩ := hx? x rfl
  rw [List.append_assoc] at hcs
  have hx : '\n' ∉ x := fun hmem => hw (List.mem_append_right u hmem)
  refine ⟨u, List.append_assoc .., fun hmem => hw (List.mem_append_left x hmem),
    hcs.of_append (by simp), fun rest' hrest' => ?_⟩
  obtain ⟨m', rfl⟩ := hrest'.exists_of_append hx rfl
  rw [← List.append_assoc, hscan, Option.map_some]

theorem LineLocal.scan_none {f : List Char → Option (List Char)} (hf : LineLocal f)
    {cs' : List Char} (h : SameLine cs cs') (hnone : f cs = none) : f cs' = none := by
  obtain ⟨hw⟩ := h
  obtain ⟨x?, -, hscan⟩ := hf _ hw
  rw [hscan, Option.map_eq_none_iff] at hnone
  rw [hscan, hnone]
  rfl

/-- The scanner reads one token, which begins with `c`, whatever stands on later lines. -/
def Scans (scan : List Char → Step) (s : State) (c : Char) (cs : List Char) (ts : List Token)
    (s' : State) (rest : List Char) : Prop :=
  ∃ v t, cs = v ++ rest ∧ ts = [t] ∧ ReadsToken s (c :: v) t s' ∧ Complete rest ∧
    ∀ rest', SameLine rest rest' → scan (v ++ rest') = .ok (ts, s', rest')

theorem exists_last {v : List Char} (hc : c ≠ '\n') (hv : '\n' ∉ v) :
    ∃ v' d, c :: v = v' ++ [d] ∧ d ≠ '\n' := by
  obtain ⟨v', d, hlast⟩ := (List.eq_nil_or_concat' (c :: v)).resolve_left (List.cons_ne_nil c v)
  have hd : d ∈ c :: v := by simp [hlast]
  exact ⟨v', d, hlast, ne_of_mem_of_not_mem hd (by simp [Ne.symm hc, hv])⟩

theorem readsToken_of_word {v : List Char} {kind : Token.Kind} (hc : startsCode c = true)
    (hv : '\n' ∉ v) (hplain : kind.isPlain = true) (hmark : ∀ m, kind ≠ .punct m)
    (hkeyword : ∀ k, kind = .keyword k → Keyword.ofSpelling? (c :: v) = some k) :
    ReadsToken s (c :: v) (s.token kind) s := by
  have hne : c ≠ '\n' := by rintro rfl; revert hc; decide
  have hcount : (c :: v).count '\n' = 0 := List.count_eq_zero.mpr (by simp [Ne.symm hne, hv])
  refine ⟨rfl, by rw [hcount]; rfl, hplain, ⟨c, v, rfl, hc⟩, exists_last hne hv, hkeyword,
    fun h => absurd h (hmark _), fun _ => rfl, rfl, ?_, s.brackets, rfl⟩
  cases kind <;> simp_all [Token.Kind.turn, State.token]

theorem scans_nameToken (hc : startsCode c = true) (hword : Number.isWordChar c = true)
    (hcs : Complete cs) (h : nameToken s (c :: cs) = .ok (ts, s', rest)) :
    Scans (fun m => nameToken s (c :: m)) s c cs ts s' rest := by
  have hnewline : Number.isWordChar '\n' = false := by decide
  unfold nameToken at h
  rw [List.takeWhile_cons_of_pos hword, List.dropWhile_cons_of_pos hword] at h
  cases hkind : nameKind (c :: cs.takeWhile Number.isWordChar) with
  | none => rw [hkind] at h; cases h
  | some kind =>
    rw [hkind] at h
    cases h
    have hall : ∀ d ∈ cs.takeWhile Number.isWordChar, Number.isWordChar d = true :=
      fun d hd => List.mem_takeWhile_imp hd
    have hv : '\n' ∉ cs.takeWhile Number.isWordChar := fun hmem => by
      rw [hall _ hmem] at hnewline
      cases hnewline
    refine ⟨_, _, List.takeWhile_append_dropWhile.symm, rfl, readsToken_of_word hc hv ?_ ?_ ?_,
      hcs.dropWhile hnewline, fun rest' hrest' => ?_⟩
    · unfold nameKind at hkind
      split at hkind
      · split at hkind <;> cases hkind
        rfl
      · split at hkind <;> cases hkind <;> rfl
    · rintro m rfl
      unfold nameKind at hkind
      split at hkind
      · split at hkind <;> cases hkind
      · split at hkind <;> cases hkind
    · rintro k rfl
      unfold nameKind at hkind
      split at hkind
      · split at hkind <;> cases hkind
      · split at hkind <;> cases hkind
        assumption
    · have hstop : rest'.takeWhile Number.isWordChar = [] ∧
          rest'.dropWhile Number.isWordChar = rest' := by
        have hhead := hrest'.head?_eq
        cases rest' with
        | nil => exact ⟨rfl, rfl⟩
        | cons d ds =>
          have hd : Number.isWordChar d = false := by
            have := List.head?_dropWhile_not Number.isWordChar cs
            rw [← hhead] at this
            simpa using this
          simp [hd]
      simp only [nameToken]
      rw [List.takeWhile_cons_of_pos hword, List.dropWhile_cons_of_pos hword,
        List.takeWhile_append_of_pos hall, List.dropWhile_append_of_pos hall, hstop.1, hstop.2,
        List.append_nil, hkind]

theorem scans_numberToken (hc : startsCode c = true) (hstart : isAsciiDigit c = true ∨ c = '.')
    (hcs : Complete cs) (h : numberToken s (c :: cs) = .ok (ts, s', rest)) :
    Scans (fun m => numberToken s (c :: m)) s c cs ts s' rest := by
  have hlocal : LineLocal fun m => Number.rest? (c :: m) := fun _ hw =>
    Number.rest?_local hstart hw
  unfold numberToken at h
  cases hrest : Number.rest? (c :: cs) with
  | none => rw [hrest] at h; cases h
  | some r =>
    rw [hrest] at h
    cases h
    obtain ⟨v, rfl, hv, hcomplete, hscan⟩ := LineLocal.scan hlocal hcs hrest
    refine ⟨v, _, rfl, rfl, readsToken_of_word hc hv rfl (by simp) (by simp), hcomplete,
      fun rest' hrest' => ?_⟩
    simp only [numberToken, hscan rest' hrest']
    rw [← List.cons_append, ← List.cons_append, before_of_append, before_of_append]

theorem scans_stringToken {u : List Char} {q : Char} (hc : startsCode c = true)
    (hquote : isQuote q = true) (hcs : Complete (u ++ q :: cs)) {more : List Char}
    (hmore : c :: more = u ++ q :: cs)
    (h : stringToken s (u ++ q :: cs) (q :: cs) = .ok (ts, s', rest)) :
    ∃ v t, more = v ++ rest ∧ ts = [t] ∧ ReadsToken s (c :: v) t s' ∧ Complete rest ∧
      ∀ rest', SameLine rest rest' → ∃ cs', u ++ q :: cs' = c :: (v ++ rest') ∧
        stringToken s (u ++ q :: cs') (q :: cs') = .ok (ts, s', rest') := by
  have hnewline : q ≠ '\n' := by rintro rfl; revert hquote; decide
  have hend : Complete cs := (hcs.of_append (List.cons_ne_nil q cs)).of_cons hnewline
  unfold stringToken at h
  cases hafter : afterString (q :: cs) with
  | none => rw [hafter] at h; cases h
  | some r =>
    rw [hafter] at h
    obtain ⟨w, rfl, hclose⟩ := closes_afterString hquote hend hafter
    have hwhole (r' : List Char) : u ++ q :: (w ++ q :: r') = (u ++ q :: w ++ [q]) ++ r' := by simp
    have hbefore (r' : List Char) : before (u ++ q :: (w ++ q :: r')) r' = u ++ q :: w ++ [q] := by
      rw [hwhole, before_of_append]
    simp only [hbefore] at h
    cases h
    obtain ⟨v, hv⟩ : ∃ v, u ++ q :: w ++ [q] = c :: v := by
      cases u with
      | nil => exact ⟨w ++ [q], by rw [(List.cons.inj hmore).1]; rfl⟩
      | cons d u => exact ⟨u ++ q :: w ++ [q], by rw [(List.cons.inj hmore).1]; rfl⟩
    rw [hwhole, hv, List.cons_append] at hmore
    refine ⟨v, _, (List.cons.inj hmore).2, rfl, ⟨rfl, by rw [hv], rfl, ⟨c, v, rfl, hc⟩,
      ⟨u ++ q :: w, q, hv.symm, hnewline⟩, by simp, by simp, by simp [IsMark], rfl,
      by simp [Token.Kind.turn], s.brackets, rfl⟩,
      (hend.of_append (List.cons_ne_nil q rest)).of_cons hnewline,
      fun rest' hrest' => ⟨w ++ q :: rest', by rw [hwhole, hv]; rfl, ?_⟩⟩
    simp only [stringToken, hclose rest' hrest'.head?_eq, hbefore]

theorem ofChar_eq_colon (h : Punct.ofChar c = .colon) : c = ':' := by
  unfold Punct.ofChar at h
  split at h <;> first | rfl | cases h

theorem turn_of_ofPair? {d : Char} {mark : Punct} (h : Punct.ofPair? c d = some mark) :
    mark ≠ .colon ∧ (Token.Kind.punct mark).turn = 0 := by
  unfold Punct.ofPair? at h
  split at h <;> cases h <;> exact ⟨nofun, rfl⟩

theorem turn_of_ofTriple? {d e : Char} {mark : Punct} (h : Punct.ofTriple? c d e = some mark) :
    mark ≠ .colon ∧ (Token.Kind.punct mark).turn = 0 := by
  unfold Punct.ofTriple? at h
  split at h <;> cases h <;> exact ⟨nofun, rfl⟩

theorem turn_of_longMark {mark : Punct} (h : longMark c cs = some (mark, rest)) :
    mark ≠ .colon ∧ (Token.Kind.punct mark).turn = 0 := by
  have hpair {d : Char} {r : List Char}
      (h : (Punct.ofPair? c d).map (·, r) = some (mark, rest)) :
      mark ≠ .colon ∧ (Token.Kind.punct mark).turn = 0 := by
    obtain ⟨_, hmark, heq⟩ := Option.map_eq_some_iff.mp h
    cases heq
    exact turn_of_ofPair? hmark
  match cs with
  | [] => cases h
  | [d] => exact hpair h
  | d :: e :: r =>
    unfold longMark at h
    cases hmark : Punct.ofTriple? c d e with
    | none =>
      simp only [hmark] at h
      exact hpair h
    | some mark =>
      simp only [hmark] at h
      cases h
      exact turn_of_ofTriple? hmark

/-- A bracket opens or closes, and other marks leave the brackets alone. -/
theorem turn_of_afterMark (h : afterMark s c = some s') :
    ∃ brackets, s' = { s with brackets := brackets } ∧
      (brackets.length : Int) = s.brackets.length + (Token.Kind.punct (.ofChar c)).turn := by
  unfold afterMark afterBracket at h
  split at h
  · rename_i hbracket
    split at h
    · rename_i hopening
      split at h
      · cases h
      · cases h
        refine ⟨_, rfl, ?_⟩
        simp only [isOpening, Bool.or_eq_true, beq_iff_eq] at hopening
        rcases hopening with (rfl | rfl) | rfl <;> rfl
    · rename_i hopening
      have hclosing : isClosing c = true := by simpa [hopening] using hbracket
      split at h
      · cases h
      · rename_i hbrackets
        split at h
        · cases h
          refine ⟨_, rfl, ?_⟩
          simp only [isClosing, Bool.or_eq_true, beq_iff_eq] at hclosing
          rw [hbrackets, List.length_cons, Int.natCast_add]
          rcases hclosing with (rfl | rfl) | rfl <;> exact (Int.add_neg_cancel_right _ 1).symm
        · cases h
  · rename_i hbracket
    split at h
    · cases h
    · cases h
      refine ⟨_, rfl, ?_⟩
      simp only [isOpening, isClosing, Bool.or_eq_true, beq_iff_eq, not_or] at hbracket
      have hturn : (Token.Kind.punct (.ofChar c)).turn = 0 := by
        unfold Punct.ofChar
        split <;> first | rfl | simp_all
      rw [hturn, Int.add_zero]

theorem scans_punctToken (hc : startsCode c = true) (hcs : Complete cs)
    (h : punctToken s c cs = .ok (ts, s', rest)) :
    Scans (fun m => punctToken s c m) s c cs ts s' rest := by
  have hne : c ≠ '\n' := by rintro rfl; revert hc; decide
  obtain ⟨w, m, rfl, hw, -⟩ := hcs.exists_line
  obtain ⟨x?, hx?, hmark⟩ := longMark_local (c := c) hw
  unfold punctToken at h
  rw [hmark] at h
  cases x? with
  | some x =>
    obtain ⟨mark, r⟩ := x
    obtain ⟨v, rfl⟩ := hx? (mark, r) rfl
    obtain ⟨hcolon, hturn⟩ := turn_of_longMark (hmark m)
    have hv : '\n' ∉ v := fun hmem => hw (List.mem_append_left r hmem)
    have hr : '\n' ∉ r := fun hmem => hw (List.mem_append_right v hmem)
    cases h
    rw [List.append_assoc] at hcs
    refine ⟨v, _, List.append_assoc .., rfl, ?_, hcs.of_append (by simp), fun rest' hrest' => ?_⟩
    · have hcount : (c :: v).count '\n' = 0 :=
        List.count_eq_zero.mpr (by simp [Ne.symm hne, hv])
      refine ⟨rfl, by rw [hcount]; rfl, rfl, ⟨c, v, rfl, hc⟩, exists_last hne hv,
        by simp [State.token], fun h => ?_, fun _ => rfl, rfl, by simp [State.token, hturn],
        s.brackets, rfl⟩
      exact absurd (Token.Kind.punct.inj h) hcolon
    · obtain ⟨m', rfl⟩ := hrest'.exists_of_append hr rfl
      simp only [punctToken]
      rw [← List.append_assoc, hmark]
      rfl
  | none =>
    rw [Option.map_none] at h
    simp only at h
    cases hafter : afterMark s c with
    | none => rw [hafter] at h; cases h
    | some s₁ =>
      rw [hafter] at h
      cases h
      obtain ⟨brackets, rfl, hturn⟩ := turn_of_afterMark hafter
      refine ⟨[], _, rfl, rfl, ?_, hcs, fun rest' hrest' => ?_⟩
      · have hcount : [c].count '\n' = 0 := List.count_eq_zero.mpr (by simp [Ne.symm hne])
        refine ⟨rfl, by rw [hcount]; rfl, rfl, ⟨c, [], rfl, hc⟩,
          ⟨[], c, rfl, hne⟩, by simp [State.token], fun h => ?_, fun _ => rfl, rfl, hturn,
          brackets, rfl⟩
        rw [ofChar_eq_colon (Token.Kind.punct.inj h)]
      · obtain ⟨m', rfl⟩ := hrest'.exists_of_append hw rfl
        simp only [punctToken, List.nil_append, hmark, Option.map_none, hafter]

theorem scans_codeToken (hc : startsCode c = true) (hcs : Complete cs)
    (h : codeToken s c cs = .ok (ts, s', rest)) :
    Scans (fun m => codeToken s c m) s c cs ts s' rest := by
  have hcomplete : Complete (c :: cs) := hcs.append [c]
  unfold codeToken at h
  split at h
  · rename_i hletter
    have hword : Number.isWordChar c = true := by
      rw [Number.isWordChar]
      revert hletter
      cases isAsciiLetter c <;> simp +contextual
    cases hfound : afterPrefix ⟨false, false, false, false⟩ (c :: cs) with
    | some quoted =>
      obtain ⟨u, q, more, -, hsplit, rfl, hquote⟩ := exists_of_afterPrefix hfound
      simp only [hfound] at h
      obtain ⟨u', hu', hu, hquoted, hscan⟩ := LineLocal.scan (afterPrefix_local _) hcomplete hfound
      obtain rfl : u = u' := List.append_cancel_right (hsplit.symm.trans hu')
      rw [hsplit] at h
      obtain ⟨v, t, hv, hts, hreads, hrest, hmore⟩ :=
        scans_stringToken hc hquote (hsplit ▸ hcomplete) hsplit h
      refine ⟨v, t, hv, hts, hreads, hrest, fun rest' hrest' => ?_⟩
      obtain ⟨cs', hcs', hstring⟩ := hmore rest' hrest'
      have hline : SameLine (q :: more) (q :: cs') := by
        refine SameLine.of_append hquoted hu ?_
        rw [← hsplit, hcs', hv]
        exact hrest'.append (c :: v)
      have := hscan _ hline
      rw [hcs'] at this hstring
      simp only [codeToken, hletter, if_true, this, hstring]
    | none =>
      simp only [hfound] at h
      obtain ⟨v, t, rfl, hts, hreads, hrest, hmore⟩ := scans_nameToken hc hword hcs h
      refine ⟨v, t, rfl, hts, hreads, hrest, fun rest' hrest' => ?_⟩
      have hnone := LineLocal.scan_none (afterPrefix_local _) (hrest'.append (c :: v)) hfound
      simp only [List.cons_append] at hnone
      simp only [codeToken, hletter, if_true, hnone, hmore rest' hrest']
  · rename_i hletter
    have hhead {v rest' : List Char} (hv : cs = v ++ rest) (hrest' : SameLine rest rest') :
        (v ++ rest').head? = cs.head? := by
      rw [hv]
      exact (hrest'.append v).head?_eq
    split at h
    · rename_i hnumber
      have hstart : isAsciiDigit c = true ∨ c = '.' := by
        revert hnumber
        cases isAsciiDigit c <;> simp +contextual
      obtain ⟨v, t, hv, hts, hreads, hrest, hmore⟩ := scans_numberToken hc hstart hcs h
      refine ⟨v, t, hv, hts, hreads, hrest, fun rest' hrest' => ?_⟩
      simp only [codeToken, hletter, hhead hv hrest', hnumber, if_true]
      exact hmore rest' hrest'
    · rename_i hnumber
      split at h
      · rename_i hquote
        obtain ⟨v, t, hv, hts, hreads, hrest, hmore⟩ :=
          scans_stringToken (u := []) hc hquote hcomplete rfl h
        refine ⟨v, t, hv, hts, hreads, hrest, fun rest' hrest' => ?_⟩
        obtain ⟨cs', hcs', hstring⟩ := hmore rest' hrest'
        obtain rfl : cs' = v ++ rest' := (List.cons.inj hcs').2
        simp only [codeToken, hletter, hhead hv hrest', hnumber, hquote, if_true]
        exact hstring
      · rename_i hquote
        obtain ⟨v, t, hv, hts, hreads, hrest, hmore⟩ := scans_punctToken hc hcs h
        refine ⟨v, t, hv, hts, hreads, hrest, fun rest' hrest' => ?_⟩
        simp only [codeToken, hletter, hhead hv hrest', hnumber, hquote]
        exact hmore rest' hrest'

/-! ## Steps -/

/-- What a step reads of the text, whatever stands on later lines. -/
def Reading (s : State) (cs : List Char) (ts : List Token) (s' : State) (rest : List Char) : Prop :=
  ∃ u, cs = u ++ rest ∧ Reads s u ts s' rest ∧
    ∀ rest', s'.fresh = true ∨ SameLine rest rest' ∨ rest' = rest →
      step s (u ++ rest') = .ok (ts, s', rest')

theorem enter_of_ne_nil (hcs : cs ≠ []) :
    s.enter cs = { s with fresh := false, line := s.line + 1 } := by
  simp [State.enter, hcs]

theorem dropWhile_line {v m : List Char} (hv : '\n' ∉ v) :
    (v ++ '\n' :: m).dropWhile (· != '\n') = '\n' :: m := by
  rw [List.dropWhile_append_of_pos]
  · simp
  · intro c hc
    simpa using ne_of_mem_of_not_mem hc hv

theorem isMargin_of_indentation {column : Nat × Nat} (h : indentation s column = .ok (s', ts)) :
    ∀ t ∈ ts, IsMargin s.line s.brackets.length t := by
  unfold indentation at h
  split at h
  · cases h
  · split at h
    · split at h <;> cases h
      exact List.forall_mem_nil _
    · split at h
      · split at h <;> cases h
        exact fun t ht => List.mem_singleton.mp ht ▸ ⟨rfl, nofun, rfl, rfl, rfl⟩
      · simp only at h
        split at h <;> cases h
        exact fun t ht => List.eq_of_mem_replicate ht ▸ ⟨rfl, nofun, rfl, rfl, rfl⟩

theorem reading_of_lineStart (hfresh : s.fresh = true) (hcs : Complete cs)
    (h : lineStart s cs = .ok (ts, s', rest)) : Reading s cs ts s' rest := by
  unfold lineStart at h
  cases hmeasure : measure (s.enter cs) 0 0 0 cs with
  | error => rw [hmeasure] at h; cases h
  | ok x =>
    obtain ⟨s₁, column, code⟩ := x
    rw [hmeasure] at h
    obtain ⟨u, rfl, hu, rfl, ⟨c, hc, hspace, hbackslash⟩, hmore⟩ := measure_congr hcs hmeasure
    obtain ⟨code, rfl⟩ := List.head?_eq_some_iff.mp hc
    rw [enter_of_ne_nil hcs.ne_nil] at h hmore
    simp only at h hmore
    have hline (rest' : List Char) : step s (u ++ c :: rest') =
        lineHead { s with fresh := false, line := s.line + 1 + u.count '\n' } column
          (c :: rest') := by
      rw [step, if_pos hfresh, lineStart, enter_of_ne_nil
        (List.append_ne_nil_of_right_ne_nil u (List.cons_ne_nil c rest')), hmore (c :: rest') rfl]
    have hidle : { s with line := s.line + 1 + u.count '\n' } =
        { ({ s with fresh := false, line := s.line + 1 + u.count '\n' } : State) with
          fresh := true } := by
      rw [← hfresh]
    by_cases hnewline : c = '\n'
    · subst hnewline
      simp only [lineHead] at h
      cases h
      refine ⟨u ++ [] ++ ['\n'], by simp, hidle ▸ .idle hfresh hu List.not_mem_nil (.inl rfl),
        fun rest' _ => ?_⟩
      rw [List.append_nil, List.append_assoc]
      exact hline rest'
    by_cases hcomment : c = '#'
    · subst hcomment
      simp only [lineHead] at h
      obtain ⟨v, m, rfl, hv, -⟩ :=
        ((hcs.of_append (List.cons_ne_nil _ _)).of_cons (by decide)).exists_line
      rw [dropWhile_line hv, List.drop_one, List.tail_cons] at h
      cases h
      refine ⟨u ++ '#' :: v ++ ['\n'], by simp, hidle ▸ .idle hfresh hu (by simp [hv]) (.inr rfl),
        fun rest' _ => ?_⟩
      have := hline (v ++ '\n' :: rest')
      simp only [lineHead, dropWhile_line hv, List.drop_one, List.tail_cons] at this
      simpa using this
    · have hstarts : startsCode c = true := by
        simp [startsCode, hspace, hnewline, hcomment, hbackslash]
      have hhead (rest' : List Char) : lineHead
          { s with fresh := false, line := s.line + 1 + u.count '\n' } column (c :: rest') = _ :=
        lineHead_cons hnewline hcomment rest'
      rw [hhead] at h
      have hcons {rest' : List Char} (hrest' : SameLine (c :: code) rest' ∨ rest' = c :: code) :
          ∃ more, rest' = c :: more := by
        rcases hrest' with hsame | rfl
        · exact List.head?_eq_some_iff.mp hsame.head?_eq
        · exact ⟨code, rfl⟩
      split at h
      · rename_i hbrackets
        cases hindent : indentation
            { s with fresh := false, line := s.line + 1 + u.count '\n' } column with
        | error => rw [hindent] at h; cases h
        | ok x =>
          obtain ⟨s₂, ts₂⟩ := x
          rw [hindent] at h
          cases h
          obtain ⟨stack, rfl⟩ := exists_of_indentation hindent
          refine ⟨u, rfl, .head hfresh hu hstarts (isMargin_of_indentation hindent),
            fun rest' hrest' => ?_⟩
          obtain ⟨more, rfl⟩ := hcons (hrest'.resolve_left Bool.false_ne_true)
          rw [hline, hhead, if_pos hbrackets, hindent]
      · rename_i hbrackets
        cases h
        refine ⟨u, rfl, .head hfresh hu hstarts (List.forall_mem_nil _), fun rest' hrest' => ?_⟩
        obtain ⟨more, rfl⟩ := hcons (hrest'.resolve_left Bool.false_ne_true)
        rw [hline, hhead, if_neg hbrackets]

theorem reading_of_inLine (hfresh : s.fresh = false) (hcs : Complete cs)
    (h : inLine s cs = .ok (ts, s', rest)) : Reading s cs ts s' rest := by
  have hspace : isSpace '\n' = false := by decide
  have hall : ∀ c ∈ cs.takeWhile isSpace, isSpace c = true := blanks_takeWhile cs
  have hw := blanks_takeWhile cs
  have hcode := hcs.dropWhile hspace
  have hstart := List.head?_dropWhile_not isSpace cs
  unfold inLine at h
  rw [← List.takeWhile_append_dropWhile (p := isSpace) (l := cs)]
  generalize cs.takeWhile isSpace = w at *
  generalize cs.dropWhile isSpace = code at *
  have hstep {c : Char} (more : List Char) (hc : isSpace c = false) :
      step s (w ++ c :: more) = tokenStep s (c :: more) := by
    rw [step, if_neg (by simp [hfresh]), inLine, List.dropWhile_append_of_pos hall,
      List.dropWhile_cons_of_neg (by simp [hc])]
  cases code with
  | nil => cases hcode
  | cons c more =>
    have hblank : isSpace c = false := by simpa using hstart
    by_cases hcomment : c = '#'
    · subst hcomment
      obtain ⟨v, m, rfl, hv, -⟩ := (hcode.of_cons (by decide)).exists_line
      rw [tokenStep, dropWhile_line hv] at h
      cases h
      refine ⟨w ++ '#' :: v, by simp, .comment hfresh hw hv, fun rest' hrest' => ?_⟩
      obtain ⟨m', rfl⟩ : ∃ m', rest' = '\n' :: m' := by
        rcases hrest' with hfresh' | hsame | rfl
        · rw [hfresh] at hfresh'
          cases hfresh'
        · exact List.head?_eq_some_iff.mp hsame.head?_eq
        · exact ⟨_, rfl⟩
      rw [List.append_assoc, List.cons_append, hstep _ hblank, tokenStep, dropWhile_line hv]
    by_cases hnewline : c = '\n'
    · subst hnewline
      rw [tokenStep] at h
      cases h
      refine ⟨w ++ ['\n'], by simp, .newline hfresh hw, fun rest' _ => ?_⟩
      rw [List.append_assoc, List.singleton_append, hstep _ hblank, tokenStep]
    by_cases hbackslash : c = '\\'
    · subst hbackslash
      cases more with
      | nil => cases hcode
      | cons d more =>
        by_cases hd : d = '\n'
        · subst hd
          rw [tokenStep] at h
          split at h
          · cases h
          · rename_i hempty
            cases h
            have hne : rest ≠ [] := by simpa using hempty
            refine ⟨w ++ ['\\', '\n'], by simp, .join hfresh hw
              (Complete.of_append (u := ['\\', '\n']) hcode hne), fun rest' hrest' => ?_⟩
            have hne' : rest' ≠ [] := by
              rcases hrest' with hfresh' | hsame | rfl
              · rw [hfresh] at hfresh'
                cases hfresh'
              · obtain ⟨d, more, rfl⟩ := List.exists_cons_of_ne_nil hne
                have hhead := hsame.head?_eq
                rintro rfl
                cases hhead
              · exact hne
            rw [List.append_assoc, List.cons_append, List.singleton_append, hstep _ hblank,
              tokenStep, if_neg (by simpa using hne')]
        · rw [tokenStep] at h
          · cases h
          · simpa using hd
    · have hmatch (more : List Char) : tokenStep s (c :: more) = codeToken s c more := by
        rw [tokenStep]
        · exact hcomment
        · exact hnewline
        · exact fun _ h _ => hbackslash h
        · exact hbackslash
      rw [hmatch] at h
      have hstarts : startsCode c = true := by
        simp [startsCode, hblank, hnewline, hcomment, hbackslash]
      obtain ⟨v, t, rfl, rfl, hreads, hrest, hmore⟩ :=
        scans_codeToken hstarts (hcode.of_cons hnewline) h
      refine ⟨w ++ c :: v, by simp, .token hfresh hw hreads hrest, fun rest' hrest' => ?_⟩
      rw [List.append_assoc, List.cons_append, hstep _ hblank, hmatch]
      rcases hrest' with hfresh' | hsame | rfl
      · obtain ⟨brackets, rfl⟩ := hreads.state
        rw [hfresh] at hfresh'
        cases hfresh'
      · exact hmore rest' hsame
      · exact h

theorem reading_of_step (hcs : cs = [] ∨ Complete cs)
    (h : step s cs = .ok (ts, s', rest)) : Reading s cs ts s' rest := by
  rcases hcs with rfl | hcs
  · refine ⟨[], ?_⟩
    obtain ⟨hfresh, rfl, hfresh', -⟩ := of_step_nil h
    have hsame {rest' : List Char}
        (hrest' : s'.fresh = true ∨ SameLine [] rest' ∨ rest' = []) : rest' = [] := by
      rcases hrest' with h | h | h
      · rw [hfresh'] at h
        cases h
      · generalize hnil : ([] : List Char) = a at h
        cases h
        simp at hnil
      · exact h
    refine ⟨rfl, ?_, fun rest' hrest' => by rw [hsame hrest']; exact h⟩
    have henter : s.enter [] = { s with fresh := false } := rfl
    rw [step, if_pos hfresh, lineStart, henter] at h
    simp only [measure, if_true, lineHead] at h
    split at h
    · split at h
      · rename_i hindent
        obtain ⟨stack, rfl⟩ := exists_of_indentation hindent
        cases h
        exact .finish hfresh (isMargin_of_indentation (s := { s with fresh := false }) hindent)
      · cases h
    · cases h
      exact .finish hfresh (List.forall_mem_nil _)
  · cases hfresh : s.fresh with
    | true =>
      rw [step, if_pos hfresh] at h
      exact reading_of_lineStart hfresh hcs h
    | false =>
      rw [step, if_neg (by simp [hfresh])] at h
      exact reading_of_inLine hfresh hcs h

theorem next_of_step {u : List Char} (hcs : Complete (u ++ rest))
    (h : step s (u ++ rest) = .ok (ts, s', rest)) : s'.next = s.next + u.count '\n' := by
  have := (takes_of_step hcs h).line
  rw [List.count_append] at this
  omega

theorem OnJoins.of_step {P : Nat → Prop} {u : List Char} (hjoin : OnJoins P s.next (u ++ rest))
    (hcs : u ++ rest = [] ∨ Complete (u ++ rest)) (h : step s (u ++ rest) = .ok (ts, s', rest)) :
    OnJoins P s'.next rest := by
  rcases hcs with hnil | hcs
  · obtain rfl := (List.append_eq_nil_iff.mp hnil).2
    intro v w hv
    simp at hv
  · rw [next_of_step hcs h]
    exact hjoin.of_append

end Lexer

end NotebookSlice.Syntax
