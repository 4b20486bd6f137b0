import NotebookSlice.Proofs.Flow.LineOrder
import NotebookSlice.Proofs.Syntax.Extent.Laid

/-! # Statements on tokens

Statements that stand on a stretch of tokens, with no line of a token left out by
their units, up to lines that a backslash joins. Stretches are put together where a
line ends.
-/

namespace NotebookSlice.Flow

open Syntax
open Text (Joined)

/-- The lines of tokens up to the end of a line, the last of which is `last`. -/
structure Written (lines : List String) (l : Lexed) (i j last : ℕ) (shown : ℕ → Prop) : Prop where
  last : ∃ k t, i ≤ k ∧ k < j ∧ l.tokens[k]? = some t ∧ t.isLayout = false ∧ t.lastLine = last
  ends : ∃ q t, i ≤ q ∧ q < j ∧ l.tokens[q]? = some t ∧ t.kind = .newline ∧
    ∀ k u, q < k → k < j → l.tokens[k]? = some u → u.isLayout = true
  shown : ∀ k t n, i ≤ k → k < j → l.tokens[k]? = some t → t.isLayout = false → t.line ≤ n →
    n ≤ t.lastLine → ¬ Joined lines n → shown n

variable {l : Lexed} {lines : List String} {i j k p last last' : ℕ} {shown shown' : ℕ → Prop}
  {t : Token}

namespace Written

theorem mono (h : Written lines l i j last shown) (hshown : ∀ n, shown n → shown' n) :
    Written lines l i j last shown' :=
  ⟨h.last, h.ends, fun k t n hi hj ht hplain hfirst hlast hjoin =>
    hshown n (h.shown k t n hi hj ht hplain hfirst hlast hjoin)⟩

theorem lt (h : Written lines l i j last shown) : i < j := by
  obtain ⟨k, t, hi, hj, -⟩ := h.last
  omega

theorem trans (h : Written lines l i j last shown) (h' : Written lines l j k last' shown') :
    Written lines l i k last' fun n => shown n ∨ shown' n where
  last := by
    obtain ⟨m, t, hj, hk, hm⟩ := h'.last
    have := h.lt
    exact ⟨m, t, by omega, hk, hm⟩
  ends := by
    obtain ⟨q, t, hj, hk, hq⟩ := h'.ends
    have := h.lt
    exact ⟨q, t, by omega, hk, hq⟩
  shown m t n hi hk ht hplain hfirst hlast hjoin := by
    rcases Nat.lt_or_ge m j with hlt | hge
    · exact .inl (h.shown m t n hi hlt ht hplain hfirst hlast hjoin)
    · exact .inr (h'.shown m t n hge hk ht hplain hfirst hlast hjoin)

theorem layout (h : Written lines l i j last shown) (hle : j ≤ k)
    (hlayout : ∀ m u, j ≤ m → m < k → l.tokens[m]? = some u → u.isLayout = true) :
    Written lines l i k last shown where
  last := by
    obtain ⟨m, t, hi, hj, hm⟩ := h.last
    exact ⟨m, t, hi, by omega, hm⟩
  ends := by
    obtain ⟨q, t, hi, hj, ht, hkind, hq⟩ := h.ends
    refine ⟨q, t, hi, by omega, ht, hkind, fun m u hlt hk hu => ?_⟩
    rcases Nat.lt_or_ge m j with hmj | hmj
    · exact hq m u hlt hmj hu
    · exact hlayout m u hmj hk hu
  shown m t n hi hk ht hplain hfirst hlast hjoin := by
    rcases Nat.lt_or_ge m j with hlt | hge
    · exact h.shown m t n hi hlt ht hplain hfirst hlast hjoin
    · rw [hlayout m t hge hk ht] at hplain
      cases hplain

theorem lt_line (hl : Laid l lines) (h : Written lines l i j last shown) (ht : l.tokens[j]? = some t)
    (hplain : t.isLayout = false) : last < t.line := by
  obtain ⟨k, u, hik, hkj, hu, huplain, rfl⟩ := h.last
  obtain ⟨q, v, hiq, hqj, hv, hkind, hlayout⟩ := h.ends
  have hvlayout : v.isLayout = true := by rw [Token.isLayout_eq, hkind]; rfl
  have hkq : k < q := by
    rcases Nat.lt_trichotomy k q with hlt | rfl | hgt
    · exact hlt
    · rw [hu] at hv
      rw [Option.some.inj hv, hvlayout] at huplain
      cases huplain
    · rw [hlayout k u hgt hkj hu] at huplain
      cases huplain
  have hle := (hl.precedes hkq hu hv).le
  have hlt := (hl.precedes hqj hv ht).lt hkind hplain
  have := hl.le hv
  omega

theorem turns_eq (hl : Laid l lines) (h : Written lines l i j last shown) :
    Lexer.turns (l.tokens.toList.take j) = 0 := by
  obtain ⟨q, v, -, hqj, hv, hkind, hlayout⟩ := h.ends
  clear h
  induction j with
  | zero => omega
  | succ j ih =>
    cases ht : l.tokens[j]? with
    | none =>
      have hsize : l.tokens.toList.length ≤ j := by simpa using ht
      rcases Nat.eq_or_lt_of_le (Nat.le_of_lt_succ hqj) with rfl | hlt
      · rw [ht] at hv
        cases hv
      · rw [List.take_of_length_le (by omega), ← List.take_of_length_le hsize]
        exact ih hlt fun k u hqk hkj => hlayout k u hqk (by omega)
    | some t =>
      rcases Nat.eq_or_lt_of_le (Nat.le_of_lt_succ hqj) with rfl | hlt
      · rw [← hl.depth hv, hl.newline hv hkind]
        rfl
      · have hlist : l.tokens.toList[j]? = some t := by rw [Array.getElem?_toList]; exact ht
        rw [Lexer.turns_take_succ hlist, Lexer.turn_of_isLayout (hlayout j t hlt (by omega) ht),
          Int.add_zero]
        exact ih hlt fun k u hqk hkj => hlayout k u hqk (by omega)

theorem isLayout_pred (h : Written lines l i j last shown) (ht : l.tokens[j - 1]? = some t) :
    t.isLayout = true := by
  obtain ⟨q, v, hiq, hqj, hv, hkind, hlayout⟩ := h.ends
  rcases Nat.eq_or_lt_of_le (Nat.le_sub_one_of_lt hqj) with rfl | hlt
  · rw [hv] at ht
    rw [← Option.some.inj ht, Token.isLayout_eq, hkind]
    rfl
  · exact hlayout _ t hlt (by omega) ht

end Written

/-! ## Last lines -/

theorem exists_lastLineFrom (ht : l.tokens[i]? = some t) (hplain : t.isLayout = false) (hlt : i < j)
    (line : ℕ) : ∃ k u, i ≤ k ∧ k < j ∧ l.tokens[k]? = some u ∧ u.isLayout = false ∧
      u.lastLine = Parser.lastLineFrom l.tokens ⟨line, i⟩ j ∧
      ∀ m v, k < m → m < j → l.tokens[m]? = some v → v.isLayout = true := by
  induction j with
  | zero => omega
  | succ j ih =>
    have hskip (hlayout : ∀ v, l.tokens[j]? = some v → v.isLayout = true)
        (heq : Parser.lastLineFrom l.tokens ⟨line, i⟩ (j + 1) =
          Parser.lastLineFrom l.tokens ⟨line, i⟩ j) :
        ∃ k u, i ≤ k ∧ k < j + 1 ∧ l.tokens[k]? = some u ∧ u.isLayout = false ∧
          u.lastLine = Parser.lastLineFrom l.tokens ⟨line, i⟩ (j + 1) ∧
          ∀ m v, k < m → m < j + 1 → l.tokens[m]? = some v → v.isLayout = true := by
      rcases Nat.eq_or_lt_of_le (Nat.le_of_lt_succ hlt) with rfl | hlt
      · rw [hlayout t ht] at hplain
        cases hplain
      · obtain ⟨k, u, hik, hkj, hu, huplain, hlast, hmore⟩ := ih hlt
        refine ⟨k, u, hik, by omega, hu, huplain, hlast.trans heq.symm, fun m v hkm hmj hv => ?_⟩
        rcases Nat.eq_or_lt_of_le (Nat.le_of_lt_succ hmj) with rfl | hmj
        · exact hlayout v hv
        · exact hmore m v hkm hmj hv
    have hle : ¬ j < i := by omega
    cases hu : l.tokens[j]? with
    | none => exact hskip (by simp [hu]) (by simp [Parser.lastLineFrom, hle, hu])
    | some u =>
      cases hlayout : u.isLayout with
      | true => exact hskip (by simp [hu, hlayout]) (by simp [Parser.lastLineFrom, hle, hu, hlayout])
      | false =>
        refine ⟨j, u, by omega, Nat.lt_succ_self j, hu, hlayout, ?_, fun m v hjm hmj => by omega⟩
        simp [Parser.lastLineFrom, hle, hu, hlayout]

theorem le_lastLineFrom (hl : Laid l lines) (ht : l.tokens[i]? = some t)
    (hplain : t.isLayout = false) (line : ℕ) {u : Token} (hk : k < j)
    (hu : l.tokens[k]? = some u) (huplain : u.isLayout = false) (hij : i < j) :
    u.lastLine ≤ Parser.lastLineFrom l.tokens ⟨line, i⟩ j := by
  obtain ⟨m, v, him, hmj, hv, -, hlast, hmore⟩ := exists_lastLineFrom ht hplain hij line
  rw [← hlast]
  rcases Nat.lt_trichotomy k m with hlt | rfl | hgt
  · exact Nat.le_trans (hl.precedes hlt hu hv).le (hl.le hv)
  · rw [hu] at hv
    rw [Option.some.inj hv]
  · rw [hmore k u hgt hk hu] at huplain
    cases huplain

/-! ## Statements and blocks -/

/-- Statements on the tokens from `i` to `j`, with nested positions. They begin on the line of the
first token, and every line of a token is one of a unit or is joined to another line. -/
structure Lies (c : Configuration) (lines : List String) (l : Lexed) (i : ℕ) (ss : List Stmt)
    (j : ℕ) : Prop where
  first : ∃ t, l.tokens[i]? = some t ∧ t.isLayout = false ∧ blockFirst ss = t.line
  written : Written lines l i j (blockLast ss) (ShowsIn c lines ss)
  placed : ∀ s ∈ ss, Throughout Placed s
  follow : Follow ss

/-- Statements that begin somewhere after the place, with nothing but layout before them, and end
before the other one. -/
def BlockLies (c : Configuration) (lines : List String) (l : Lexed) (i : ℕ) (ss : List Stmt)
    (j : ℕ) : Prop :=
  ∃ b, i ≤ b ∧ (∀ m u, i ≤ m → m < b → l.tokens[m]? = some u → u.isLayout = true) ∧
    Lies c lines l b ss j

variable {c : Configuration} {s : Stmt} {ss ts body : List Stmt}

namespace Lies

theorem ne_nil (hl : Laid l lines) (h : Lies c lines l i ss j) : ss ≠ [] := by
  rintro rfl
  obtain ⟨t, ht, hplain, hfirst⟩ := h.first
  have hone := hl.one_le ht hplain
  rw [← hfirst] at hone
  exact absurd hone (Nat.not_succ_le_zero 0)

theorem append (hl : Laid l lines) (h : Lies c lines l i ss j) (h' : Lies c lines l j ts k) :
    Lies c lines l i (ss ++ ts) k where
  first := by
    obtain ⟨t, ht, hplain, hfirst⟩ := h.first
    obtain ⟨s, ss, rfl⟩ := List.exists_cons_of_ne_nil (h.ne_nil hl)
    exact ⟨t, ht, hplain, hfirst⟩
  written := by
    have hlast : blockLast (ss ++ ts) = blockLast ts := by
      rw [blockLast, List.getLast?_append_of_ne_nil _ (h'.ne_nil hl), blockLast]
    rw [hlast]
    refine (h.written.trans h'.written).mono fun n hn => ?_
    rcases hn with ⟨s, hs, hn⟩ | ⟨s, hs, hn⟩
    · exact ⟨s, List.mem_append_left ts hs, hn⟩
    · exact ⟨s, List.mem_append_right ss hs, hn⟩
  placed := List.forall_mem_append.mpr ⟨h.placed, h'.placed⟩
  follow := by
    obtain ⟨t, ht, hplain, hfirst⟩ := h'.first
    exact h.follow.append h'.follow (hfirst ▸ (h.written.lt_line hl ht hplain).le)

theorem layout (h : Lies c lines l i ss j) (hle : j ≤ k)
    (hlayout : ∀ m u, j ≤ m → m < k → l.tokens[m]? = some u → u.isLayout = true) :
    Lies c lines l i ss k := ⟨h.first, h.written.layout hle hlayout, h.placed, h.follow⟩

theorem of_written (ht : l.tokens[i]? = some t) (hplain : t.isLayout = false)
    (hfirst : firstLine s = t.line) {line : ℕ}
    (hlast : s.span.last = Parser.lastLineFrom l.tokens ⟨line, i⟩ j)
    (hplaced : Throughout Placed s) (h : Written lines l i j last shown)
    (hshown : ∀ n, shown n → Shows c lines s n) : Lies c lines l i [s] j where
  first := ⟨t, ht, hplain, hfirst⟩
  written := by
    obtain ⟨k, u, hik, hkj, hu, huplain, heq, -⟩ := exists_lastLineFrom ht hplain h.lt line
    exact ⟨⟨k, u, hik, hkj, hu, huplain, heq.trans hlast.symm⟩, h.ends,
      fun m v n him hmj hv hvplain hvfirst hvlast hjoin => ⟨s, List.mem_singleton_self s,
        hshown n (h.shown m v n him hmj hv hvplain hvfirst hvlast hjoin)⟩⟩
  placed := List.forall_mem_singleton.mpr hplaced
  follow := List.isChain_singleton s

theorem of_whole (hl : Laid l lines) (ht : l.tokens[i]? = some t) (hplain : t.isLayout = false)
    (hfirst : firstLine s = t.line) (hwhole : isWhole s = true) {u : Token}
    (hu : l.tokens[k]? = some u) (huplain : u.isLayout = false) (hik : i ≤ k)
    (hspan : s.span = ⟨u.line, Parser.lastLineFrom l.tokens ⟨u.line, k⟩ j⟩)
    (h : Written lines l k j last shown) : Lies c lines l i [s] j where
  first := ⟨t, ht, hplain, hfirst⟩
  written := by
    obtain ⟨m, v, hkm, hmj, hv, hvplain, heq, -⟩ := exists_lastLineFrom hu huplain h.lt u.line
    obtain ⟨q, w, hkq, hq⟩ := h.ends
    refine ⟨⟨m, v, by omega, hmj, hv, hvplain, heq.trans (congrArg Span.last hspan).symm⟩,
      ⟨q, w, by omega, hq⟩, fun a x n hia haj hx hxplain hxfirst hxlast _ =>
        ⟨s, List.mem_singleton_self s, shows_whole hwhole ?_ ?_⟩⟩
    · rw [hfirst]
      exact Nat.le_trans (hl.line_le hia ht hx) hxfirst
    · rw [hspan]
      exact Nat.le_trans hxlast (le_lastLineFrom hl hu huplain u.line haj hx hxplain h.lt)
  placed := by
    refine List.forall_mem_singleton.mpr (placed_of_isWhole hwhole ?_)
    rw [hspan]
    exact Nat.le_trans (hl.le hu) (le_lastLineFrom hl hu huplain u.line h.lt hu huplain h.lt)
  follow := List.isChain_singleton s

theorem block (h : Lies c lines l i ss j) : BlockLies c lines l i ss j :=
  ⟨i, Nat.le_refl i, fun _ _ hle hlt => absurd hle (Nat.not_le_of_lt hlt), h⟩

end Lies

theorem BlockLies.layout (h : BlockLies c lines l i ss j) (hle : j ≤ k)
    (hlayout : ∀ m u, j ≤ m → m < k → l.tokens[m]? = some u → u.isLayout = true) :
    BlockLies c lines l i ss k := by
  obtain ⟨b, hib, hbefore, h⟩ := h
  exact ⟨b, hib, hbefore, h.layout hle hlayout⟩

/-- What comes before a block belongs to its header, unless it stands on the line on which the
block begins. -/
theorem written_header (hl : Laid l lines) (ht : l.tokens[i]? = some t) (hik : i ≤ k)
    (h : BlockLies c lines l k body j) : Written lines l i j (blockLast body) fun n =>
      t.line ≤ n ∧ n < blockFirst body ∨ ShowsIn c lines body n := by
  obtain ⟨b, hkb, -, hbody⟩ := h
  obtain ⟨u, hu, huplain, hfirst⟩ := hbody.first
  obtain ⟨m, v, hbm, hm⟩ := hbody.written.last
  obtain ⟨q, w, hbq, hq⟩ := hbody.written.ends
  refine ⟨⟨m, v, by omega, hm⟩, ⟨q, w, by omega, hq⟩,
    fun a x n hia haj hx hxplain hxfirst hxlast hjoin => ?_⟩
  rcases Nat.lt_or_ge a b with hlt | hge
  · have hle := hl.line_le hia ht hx
    have hxu := (hl.precedes hlt hx hu).le
    rcases Nat.lt_or_ge n u.line with hlt | hge
    · exact .inl ⟨by omega, by omega⟩
    · exact .inr (hbody.written.shown b u n (Nat.le_refl b) hbody.written.lt hu huplain hge
        (Nat.le_trans (Nat.le_trans hxlast hxu) (hl.le hu)) hjoin)
  · exact .inr (hbody.written.shown a x n hge haj hx hxplain hxfirst hxlast hjoin)

/-- The block of a statement that begins with the token at `i`, if what comes before the block ends
with no earlier a line. -/
theorem BlockLies.inside {m first : ℕ} {u : Token} (hl : Laid l lines)
    (h : BlockLies c lines l k ss m) (ht : l.tokens[i]? = some t) (hplain : t.isLayout = false)
    (hip : i ≤ p) (hu : l.tokens[p]? = some u) (hpk : p ≤ k) (hfirst : first ≤ u.line)
    (hmj : m ≤ j) : Inside first (Parser.lastLineFrom l.tokens ⟨t.line, i⟩ j) ss := by
  obtain ⟨b, hkb, -, hbody⟩ := h
  have hlt := hbody.written.lt
  obtain ⟨v, hv, -, hblock⟩ := hbody.first
  obtain ⟨q, w, hbq, hqm, hw, hwplain, hlast⟩ := hbody.written.last
  refine ⟨hbody.placed, hbody.follow, fun _ => ?_, ?_⟩
  · rw [hblock]
    exact Nat.le_trans hfirst (hl.line_le (by omega) hu hv)
  · rw [← hlast]
    exact le_lastLineFrom hl ht hplain t.line (by omega) hw hwplain (by omega)

/-! ## Clauses -/

theorem isClauseLine_of_begins {line keyword : String} {k : Keyword}
    (h : Lexer.BeginsClause k line.toList) (hkeyword : keyword.toList = k.spelling) :
    isClauseLine keyword line = true := by
  obtain ⟨w, v, w', rest, hline, hw, hw', hv⟩ := h
  obtain rfl := Keyword.spelling_of_ofSpelling? hv
  have hblank {w : List Char} (hw : Lexer.Blanks w) : ∀ a ∈ w, Text.isBlank a = true := by
    intro a ha
    have hspace := hw a ha
    simp only [Lexer.isSpace, Bool.or_eq_true, beq_iff_eq] at hspace
    rcases hspace with (rfl | rfl) | rfl <;> rfl
  have hstart : Text.trimStart line.toList = k.spelling ++ (w' ++ ':' :: rest) := by
    rw [hline, Text.trimStart, List.append_assoc, List.append_assoc,
      List.dropWhile_append_of_pos (hblank hw)]
    cases k <;> rfl
  have hcolon : Text.trimStart (w' ++ ':' :: rest) = ':' :: rest := by
    rw [Text.trimStart, List.dropWhile_append_of_pos (hblank hw')]
    rfl
  have hlength : keyword.length = k.spelling.length := by
    rw [← hkeyword, String.length_toList]
  simp [isClauseLine, hstart, hkeyword, hlength, hcolon]

/-- If the word of a clause stands on a line that is joined to another one, so does all of it. -/
theorem written_joined (hl : Laid l lines) {w : Keyword} {u : Token} (ht : l.tokens[k]? = some t)
    (hkind : t.kind = .keyword w) (hdepth : t.depth = 0) (hu : l.tokens[k + 1]? = some u)
    (hcolon : u.kind = .punct .colon) (hjoined : Joined lines t.line)
    (hbody : BlockLies c lines l (k + 2) ss j) :
    Written lines l k j (blockLast ss) (ShowsIn c lines ss) := by
  obtain ⟨b, hkb, hlayout, hbody⟩ := hbody
  obtain ⟨m, v, hbm, hm⟩ := hbody.written.last
  obtain ⟨q, y, hbq, hq⟩ := hbody.written.ends
  have hplain : t.isLayout = false := by rw [Token.isLayout_eq, hkind]; rfl
  have huplain : u.isLayout = false := by rw [Token.isLayout_eq, hcolon]; rfl
  have hword := hl.mark ht (.inr ⟨w, hkind⟩)
  have hmark := hl.mark hu (.inl ⟨.colon, hcolon⟩)
  have hnext : Joined lines u.line := by
    rcases hl.adjoins ht hu hplain huplain hdepth with hline | hjoin
    · rwa [hline, hword]
    · exact hjoin
  refine ⟨⟨m, v, by omega, hm⟩, ⟨q, y, by omega, hq⟩,
    fun a x n hka haj hx hxplain hxfirst hxlast hjoin => ?_⟩
  have hout {y : Token} (hxy : x = y) (hline : Joined lines y.line) (hone : y.lastLine = y.line) :
      ShowsIn c lines ss n := by
    subst hxy
    exact absurd (show Joined lines n by rwa [show n = x.line by omega]) hjoin
  rcases Nat.lt_or_ge a b with hlt | hge
  · rcases Nat.lt_trichotomy a (k + 1) with hword' | rfl | hlay
    · obtain rfl : a = k := by omega
      exact hout (Option.some.inj (hx.symm.trans ht)) hjoined hword
    · exact hout (Option.some.inj (hx.symm.trans hu)) hnext hmark
    · rw [hlayout a x hlay hlt hx] at hxplain
      cases hxplain
  · exact hbody.written.shown a x n hge haj hx hxplain hxfirst hxlast hjoin

/-- A clause after what has been written: its word stands on a line of its own. -/
theorem written_clause (hl : Laid l lines) (h : Written lines l i k last shown) {w : Keyword}
    {keyword : String} {u : Token} (ht : l.tokens[k]? = some t) (hkind : t.kind = .keyword w)
    (hu : l.tokens[k + 1]? = some u) (hcolon : u.kind = .punct .colon)
    (hkeyword : keyword.toList = w.spelling) (hbody : BlockLies c lines l (k + 2) ss j) :
    Written lines l k j (blockLast ss) (PartShows c lines keyword last ss) := by
  have hplain : t.isLayout = false := by rw [Token.isLayout_eq, hkind]; rfl
  have hdepth : t.depth = 0 := by
    have hlist : l.tokens.toList[k]? = some t := by rw [Array.getElem?_toList]; exact ht
    have := hl.depth ht
    rw [Lexer.turns_take_succ hlist, h.turns_eq hl, hkind] at this
    simpa [Token.Kind.turn] using this
  rcases hl.clause ht hu hkind hcolon hdepth fun v hv _ => h.isLayout_pred hv with
    ⟨line, hline, hbegins⟩ | hjoined
  · have hclause : isClauseLine keyword ((lines[t.line - 1]?).getD "") = true := by
      rw [hline]
      exact isClauseLine_of_begins hbegins hkeyword
    refine (written_header hl ht (Nat.le_add_right k 2) hbody).mono fun n hn => ?_
    rcases hn with ⟨hfirst, hlast⟩ | hn
    · exact partShows_of_line hclause (h.lt_line hl ht hplain) hfirst hlast
    · exact hn.part
  · exact (written_joined hl ht hkind hdepth hu hcolon hjoined hbody).mono fun n hn => hn.part

/-- What may come after a block: nothing, statements at once, or statements after a word. -/
inductive Follows (c : Configuration) (lines : List String) (l : Lexed) (w : Keyword) (k : ℕ) :
    List Stmt → ℕ → Prop

  | nothing : Follows c lines l w k [] k

  | directly {ss : List Stmt} {j : ℕ} : Lies c lines l k ss j → Follows c lines l w k ss j

  | clause {t u : Token} {ss : List Stmt} {j : ℕ} : l.tokens[k]? = some t → t.kind = .keyword w →
      l.tokens[k + 1]? = some u → u.kind = .punct .colon → BlockLies c lines l (k + 2) ss j →
      Follows c lines l w k ss j

/-- The last line after a part that may be missing. -/
def lastOf (last : ℕ) (ss : List Stmt) : ℕ := if ss = [] then last else blockLast ss

theorem BlockLies.ne_nil (hl : Laid l lines) (h : BlockLies c lines l i ss j) : ss ≠ [] := by
  obtain ⟨b, -, -, h⟩ := h
  exact h.ne_nil hl

theorem Follows.le {w : Keyword} (h : Follows c lines l w k ss j) : k ≤ j := by
  cases h with
  | nothing => exact Nat.le_refl _
  | directly h => exact h.written.lt.le
  | clause _ _ _ _ h =>
    obtain ⟨b, hkb, -, h⟩ := h
    have := h.written.lt
    omega

/-- What comes after a block begins on a later line than the block ends. -/
theorem Follows.inside {m : ℕ} {w : Keyword} (hl : Laid l lines) (h : Written lines l i k last shown)
    (hfollows : Follows c lines l w k ss m) (ht : l.tokens[i]? = some t) (hplain : t.isLayout = false)
    (hmj : m ≤ j) : Inside (last + 1) (Parser.lastLineFrom l.tokens ⟨t.line, i⟩ j) ss := by
  cases hfollows with
  | nothing => exact .nil
  | directly hss =>
    obtain ⟨u, hu, huplain, -⟩ := hss.first
    exact hss.block.inside hl ht hplain h.lt.le hu (Nat.le_refl k) (h.lt_line hl hu huplain) hmj
  | clause hu hkind _ _ hbody =>
    exact hbody.inside hl ht hplain h.lt.le hu (Nat.le_add_right k 2)
      (h.lt_line hl hu (by rw [Token.isLayout_eq, hkind]; rfl)) hmj

theorem written_follows (hl : Laid l lines) (h : Written lines l i k last shown) {w : Keyword}
    {keyword : String} (hkeyword : keyword.toList = w.spelling)
    (hfollows : Follows c lines l w k ss j) : Written lines l i j (lastOf last ss) fun n =>
      shown n ∨ ss ≠ [] ∧ PartShows c lines keyword last ss n := by
  cases hfollows with
  | nothing => exact h.mono fun n hn => .inl hn
  | directly hss =>
    have hne := hss.ne_nil hl
    rw [lastOf, if_neg hne]
    exact (h.trans hss.written).mono fun n hn => hn.imp_right fun hn => ⟨hne, hn.part⟩
  | clause ht hkind hu hcolon hbody =>
    have hne := hbody.ne_nil hl
    rw [lastOf, if_neg hne]
    exact (h.trans (written_clause hl h ht hkind hu hcolon hkeyword hbody)).mono fun n hn =>
      hn.imp_right fun hn => ⟨hne, hn⟩

/-! ## Statements with blocks -/

theorem le_blockSpan (hl : Laid l lines) (ht : l.tokens[i]? = some t) (hplain : t.isLayout = false)
    (hij : i < j) : t.line ≤ Parser.lastLineFrom l.tokens ⟨t.line, i⟩ j :=
  Nat.le_trans (hl.le ht) (le_lastLineFrom hl ht hplain t.line hij ht hplain hij)

theorem Follows.lt {w : Keyword} {m : ℕ} (hik : i ≤ k) (h : BlockLies c lines l k body j)
    (hfollows : Follows c lines l w j ss m) : i < m := by
  have hle := hfollows.le
  obtain ⟨b, hkb, -, hbody⟩ := h
  have := hbody.written.lt
  omega

theorem isFilled_of_ne_nil {s : Stmt} (h : isFilled s = !(Node.stmt s).body.isEmpty)
    (hne : (Node.stmt s).body ≠ []) : isFilled s = true := by
  rw [h, List.isEmpty_eq_false_iff.mpr hne]
  rfl

/-- A statement with one block. -/
theorem Lies.of_block (hl : Laid l lines) (ht : l.tokens[i]? = some t)
    (hplain : t.isLayout = false) (hfirst : firstLine s = t.line)
    (hspan : s.span = ⟨t.line, Parser.lastLineFrom l.tokens ⟨t.line, i⟩ j⟩)
    (hfilled : isFilled s = !(Node.stmt s).body.isEmpty) (hhandlers : (Node.stmt s).handlers = [])
    (hbranches : (Node.stmt s).branches = []) (hik : i ≤ k)
    (hbody : BlockLies c lines l k (Node.stmt s).body j)
    (hshows : ∀ n, t.line ≤ n ∧ n < blockFirst (Node.stmt s).body ∨
      ShowsIn c lines (Node.stmt s).body n → Shows c lines s n) : Lies c lines l i [s] j := by
  have hwritten := written_header hl ht hik hbody
  refine .of_written ht hplain hfirst (congrArg Span.last hspan) ?_ hwritten hshows
  refine .placed (isFilled_of_ne_nil hfilled (hbody.ne_nil hl)) ?_ ?_ (by rw [hhandlers]; trivial)
    (by simp [hhandlers]) (by simp [hbranches])
  · rw [hspan]
    exact le_blockSpan hl ht hplain hwritten.lt
  · rw [hspan]
    exact hbody.inside hl ht hplain (Nat.le_refl i) ht hik (Nat.le_refl _) (Nat.le_refl j)

/-- A statement with a block, and an `else` part that may be missing. -/
theorem Lies.of_else {orelse : List Stmt} {m : ℕ} (hl : Laid l lines) (ht : l.tokens[i]? = some t)
    (hplain : t.isLayout = false) (hfirst : firstLine s = t.line)
    (hspan : s.span = ⟨t.line, Parser.lastLineFrom l.tokens ⟨t.line, i⟩ m⟩)
    (hfilled : isFilled s = !(Node.stmt s).body.isEmpty) (hhandlers : (Node.stmt s).handlers = [])
    (hbranches : (Node.stmt s).branches = [⟨"else", blockLast (Node.stmt s).body, orelse⟩])
    (hik : i ≤ k) (hbody : BlockLies c lines l k (Node.stmt s).body j)
    (horelse : Follows c lines l .else j orelse m)
    (hshows : ∀ n, (t.line ≤ n ∧ n < blockFirst (Node.stmt s).body ∨
        ShowsIn c lines (Node.stmt s).body n) ∨
      orelse ≠ [] ∧ PartShows c lines "else" (blockLast (Node.stmt s).body) orelse n →
        Shows c lines s n) : Lies c lines l i [s] m := by
  have hwritten := written_header hl ht hik hbody
  refine .of_written ht hplain hfirst (congrArg Span.last hspan) ?_
    (written_follows hl hwritten rfl horelse) hshows
  refine .placed (isFilled_of_ne_nil hfilled (hbody.ne_nil hl)) ?_ ?_ (by rw [hhandlers]; trivial)
    (by simp [hhandlers]) ?_
  · rw [hspan]
    exact le_blockSpan hl ht hplain (horelse.lt hik hbody)
  · rw [hspan]
    exact hbody.inside hl ht hplain (Nat.le_refl i) ht hik (Nat.le_refl _) horelse.le
  · rw [hspan, hbranches]
    exact List.forall_mem_singleton.mpr (horelse.inside hl hwritten ht hplain (Nat.le_refl _))

end NotebookSlice.Flow
