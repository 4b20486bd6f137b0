import Mathlib.Data.List.TakeWhile
import NotebookSlice.Proofs.Cell.Composition

/-! # Recovery from a faulty line

A faulty line at the end of a cell spoils its own chunk only, if it starts one. The code
above it is then what its chunks give: all of it, if each chunk is a program of its own,
and less if a line inside of a statement was taken for the start of another one.
-/

namespace NotebookSlice

open Text Syntax

theorem exists_of_toOption {ε α : Type} {r : Except ε α} (h : r.toOption.isSome = true) :
    ∃ a, r = .ok a := by
  cases r with
  | error e => cases h
  | ok a => exact ⟨a, rfl⟩

theorem exists_of_any {ε α : Type} {r : Except ε α} {p : α → Bool}
    (h : r.toOption.any p = true) : ∃ a, r = .ok a ∧ p a = true := by
  cases r with
  | error e => cases h
  | ok a => exact ⟨a, rfl, h⟩

theorem ne_ok_of_toOption {ε α : Type} {r : Except ε α} (h : r.toOption.isNone = true) (a : α) :
    r ≠ .ok a := by
  rintro rfl
  cases h

namespace Chunk

/-- The word that a line begins with, as far as it could be part of an identifier. -/
def openingWord (line : String) : List Char :=
  line.toList.takeWhile fun c => isIdentifierContinue c && !isBlank c

/-- The line begins with an identifier, and not with a word that continues a statement. -/
structure BeginsWithName (line : String) : Prop where
  start : ∃ c cs, line.toList = c :: cs ∧ isIdentifierStart c = true ∧ isBlank c = false
  word : String.ofList (openingWord line) ∉ continuationWords

/-- A word that continues a statement is the whole opening word, be it followed by a colon, by a
blank or by nothing. -/
theorem openingWord_eq {l : String} {word rest : List Char} (hl : l.toList = word ++ rest)
    (hword : String.ofList word ∈ continuationWords)
    (hrest : ∀ c ∈ rest.head?, c = ':' ∨ isBlank c = true) : openingWord l = word := by
  have hletters : ∀ s ∈ continuationWords,
      s.toList.all (fun c => isIdentifierContinue c && !isBlank c) = true := by decide
  have hall := hletters _ hword
  rw [String.toList_ofList, List.all_eq_true] at hall
  rw [openingWord, hl, List.takeWhile_append_of_pos hall]
  cases rest with
  | nil => simp
  | cons c cs =>
    have hc := hrest c rfl
    rw [List.takeWhile_cons_of_neg, List.append_nil]
    rcases hc with rfl | hc
    · decide
    · simp [hc]

/-- The first word of a line, without the colons at its end, is followed by a colon, by a blank or
by nothing. -/
theorem exists_eq_firstWord_append {c : Char} (cs : List Char) (hblank : isBlank c = false) :
    ∃ rest, c :: cs = ((firstWord (c :: cs)).reverse.dropWhile (· == ':')).reverse ++ rest ∧
      ∀ d ∈ rest.head?, d = ':' ∨ isBlank d = true := by
  have hword : firstWord (c :: cs) = (c :: cs).takeWhile fun d => !isBlank d := by
    rw [firstWord, trimStart, List.dropWhile_cons_of_neg (by simp [hblank])]
  have hline : c :: cs = firstWord (c :: cs) ++ (c :: cs).dropWhile fun d => !isBlank d := by
    rw [hword, List.takeWhile_append_dropWhile]
  have hcolons : firstWord (c :: cs) =
      ((firstWord (c :: cs)).reverse.dropWhile (· == ':')).reverse ++
        ((firstWord (c :: cs)).reverse.takeWhile (· == ':')).reverse := by
    rw [← List.reverse_append, List.takeWhile_append_dropWhile, List.reverse_reverse]
  refine ⟨((firstWord (c :: cs)).reverse.takeWhile (· == ':')).reverse ++
    (c :: cs).dropWhile fun d => !isBlank d, ?_, ?_⟩
  · rw [← List.append_assoc, ← hcolons, ← hline]
  · intro d hd
    rw [List.head?_append] at hd
    cases hcase : ((firstWord (c :: cs)).reverse.takeWhile (· == ':')).reverse.head? with
    | some e =>
      have he : e ∈ (firstWord (c :: cs)).reverse.takeWhile (· == ':') :=
        List.mem_reverse.mp (List.mem_of_mem_head? hcase)
      rw [hcase, Option.some_or, Option.mem_some_iff] at hd
      exact Or.inl (hd ▸ by simpa using List.mem_takeWhile_imp he)
    | none =>
      rw [hcase, Option.none_or] at hd
      have hnot := List.head?_dropWhile_not (fun d => !isBlank d) (c :: cs)
      rw [Option.mem_def.mp hd] at hnot
      exact Or.inr (by simpa using hnot)

theorem starts_of_beginsWithName {l : String} (h : BeginsWithName l) (previous : Option String) :
    starts l previous = match previous with
      | some p => !continues p.toList
      | none => true := by
  obtain ⟨c, cs, hl, hstart, hblank⟩ := h.start
  have hword : continuationWords.contains
      (String.ofList ((firstWord (c :: cs)).reverse.dropWhile (· == ':')).reverse) = false := by
    obtain ⟨rest, hline, hrest⟩ := exists_eq_firstWord_append cs hblank
    by_contra hmem
    rw [Bool.not_eq_false, List.contains_iff_mem] at hmem
    exact h.word (openingWord_eq (hl.trans hline) hmem hrest ▸ hmem)
  have hc (d : Char) (hd : isIdentifierStart d = false) : (c == d) = false := by
    rw [beq_eq_false_iff_ne]
    rintro rfl
    simp [hd] at hstart
  cases previous <;>
    simp only [starts, hl, allBlank, List.all_cons, hblank, Bool.false_and, hword,
      hc ' ' (by decide), hc '\t' (by decide), hc '#' (by decide), hc ')' (by decide),
      hc ']' (by decide), hc '}' (by decide), Bool.or_self, Bool.false_eq_true, if_false]

theorem isMagic_of_beginsWithName {l : String} (h : BeginsWithName l) : isMagic l = false := by
  obtain ⟨c, cs, hl, hstart, hblank⟩ := h.start
  rw [isMagic, hl, trimStart, List.dropWhile_cons_of_neg (by simp [hblank])]
  split
  all_goals simp_all [show isIdentifierStart '%' = false by decide,
    show isIdentifierStart '!' = false by decide, show isIdentifierStart '?' = false by decide]

end Chunk

namespace Code

variable {source line : String}

/-- The last line is faulty and starts a chunk of its own, so the chunks above it are parsed as
they would be without it. -/
theorem ofText_append_faulty (hmagic : ∀ l ∈ lines source, isMagic l = false)
    (hnull : '\x00' ∉ source.toList ∧ '\x00' ∉ line.toList) (hline : '\n' ∉ line.toList)
    (hname : Chunk.BeginsWithName line)
    (hcut : ∀ p, Chunk.lastCode none (lines source) = some p → Chunk.continues p.toList = false)
    (hfault : ∀ ss, parse 1 line.toList ≠ .ok ss)
    (hwhole : ∀ ss, parse 1 (source ++ "\n" ++ line).toList ≠ .ok ss) :
    ∃ n, ofText (source ++ "\n" ++ line) =
      .ok (append (ofChunks (Chunk.ofText source)) ⟨[], [⟨n, line⟩]⟩) := by
  have hplain : blankMagic (source ++ "\n" ++ line) = source ++ "\n" ++ line := by
    apply blankMagic_eq_self
    intro l hl
    rw [lines_append, lines_eq_singleton hline, List.mem_append, List.mem_singleton] at hl
    rcases hl with hl | rfl
    · exact hmagic l hl
    · exact Chunk.isMagic_of_beginsWithName hname
  have hstarts : Chunk.starts line (Chunk.lastCode none (lines source)) = true := by
    rw [Chunk.starts_of_beginsWithName hname]
    cases hlast : Chunk.lastCode none (lines source) with
    | none => rfl
    | some p => simp [hcut p hlast]
  have hnone : '\x00' ∉ (source ++ "\n" ++ line).toList := by
    simpa using hnull
  obtain ⟨k, hk⟩ : ∃ k, parse 1 (source ++ "\n" ++ line).toList = .error k := by
    cases hparse : parse 1 (source ++ "\n" ++ line).toList with
    | error k => exact ⟨k, rfl⟩
    | ok ss => exact absurd hparse (hwhole ss)
  obtain ⟨n, hn⟩ : ∃ n, parse ((lines source).length + 1) line.toList = .error n := by
    cases hparse : parse ((lines source).length + 1) line.toList with
    | error n => exact ⟨n, rfl⟩
    | ok ss =>
      obtain ⟨ts, hts⟩ := exists_parse_line hparse 1
      exact absurd hts (hfault ts)
  have hchunk : ofChunks [⟨(lines source).length + 1, [line]⟩] = ⟨[], [⟨n, line⟩]⟩ :=
    congrArg (append · ⟨[], []⟩) (ofChunk_of_error (by simpa [Chunk.text, unlines] using hn))
  refine ⟨n, ?_⟩
  rw [ofText_eq_ofPlain hnone, hplain, ofPlain_of_error hk,
    Chunk.ofText_append_start hline hstarts, ofChunks_append, hchunk]

/-- The code above a faulty line that starts a chunk is recovered if each chunk above it is a program
of its own, and only then. -/
theorem recovered_iff {ss : List Stmt} (hparse : parse 1 source.toList = .ok ss)
    (hmagic : ∀ l ∈ lines source, isMagic l = false)
    (hnull : '\x00' ∉ source.toList ∧ '\x00' ∉ line.toList)
    (hreturn : ReturnsEndLines source.toList) (hline : '\n' ∉ line.toList)
    (hname : Chunk.BeginsWithName line)
    (hcut : ∀ p, Chunk.lastCode none (lines source) = some p → Chunk.continues p.toList = false)
    (hfault : ∀ ss, parse 1 line.toList ≠ .ok ss)
    (hwhole : ∀ ss, parse 1 (source ++ "\n" ++ line).toList ≠ .ok ss) :
    (∃ n, ofText (source ++ "\n" ++ line) = .ok ⟨ss, [⟨n, line⟩]⟩) ↔
      ∀ c ∈ Chunk.ofText source, c.Parses := by
  obtain ⟨n, hn⟩ := ofText_append_faulty hmagic hnull hline hname hcut hfault hwhole
  rw [hn]
  constructor
  · rintro ⟨k, hk⟩
    have hdiagnostics : (ofChunks (Chunk.ofText source)).diagnostics ++ [⟨n, line⟩] = [⟨k, line⟩] :=
      congrArg diagnostics (Except.ok.inj hk)
    exact diagnostics_ofChunks.mp (List.append_inj_left' hdiagnostics rfl)
  · intro hall
    obtain ⟨ts, hts, heq⟩ := Chunk.exists_parse_ofText hall
    rw [hparse] at hts
    obtain rfl := Except.ok.inj hts
    refine ⟨n, congrArg Except.ok ?_⟩
    rw [append, diagnostics_ofChunks.mpr hall, ← heq hreturn]
    simp

/-- A call over two lines and a loop above a faulty line. -/
theorem recovered_iff_loop : ∃ ss, parse 1 "r = f(1,\n  2)\nfor i in r:\n    f(i)".toList = .ok ss ∧
    ∃ n, ofText ("r = f(1,\n  2)\nfor i in r:\n    f(i)" ++ "\n" ++ "foo bar") =
      .ok ⟨ss, [⟨n, "foo bar"⟩]⟩ := by
  obtain ⟨ss, hparse⟩ := exists_of_toOption
    (r := parse 1 "r = f(1,\n  2)\nfor i in r:\n    f(i)".toList) (by decide +kernel)
  have hiff := @recovered_iff _ "foo bar" ss hparse (by decide) (by decide) (by decide) (by decide)
    ⟨⟨'f', _, rfl, by decide, by decide⟩, by decide⟩ (by decide)
    (ne_ok_of_toOption (by decide +kernel)) (ne_ok_of_toOption (by decide +kernel))
  exact ⟨ss, hparse, hiff.mpr (by decide +kernel)⟩

end Code

/-- Recovery loses valid code: the lines of a text in quotes seem to start chunks. -/
theorem not_recovered : ¬ ∀ (source line : String) (ss : List Stmt),
    (∀ l ∈ lines source, isMagic l = false) → parse 1 source.toList = .ok ss →
    '\n' ∉ line.toList → Chunk.BeginsWithName line → (∀ ts, parse 1 line.toList ≠ .ok ts) →
    (∀ ts, parse 1 (source ++ "\n" ++ line).toList ≠ .ok ts) →
    ∃ code, Code.ofText (source ++ "\n" ++ line) = .ok code ∧ code.statements = ss := by
  intro hall
  obtain ⟨ss, hparse⟩ := exists_of_toOption
    (r := parse 1 "query = \"\"\"\nselect 1\n\"\"\"".toList) (by decide +kernel)
  obtain ⟨code, hcode, rfl⟩ := hall "query = \"\"\"\nselect 1\n\"\"\"" "foo bar" ss (by decide)
    hparse (by decide) ⟨⟨'f', _, rfl, by decide, by decide⟩, by decide⟩
    (ne_ok_of_toOption (by decide +kernel)) (ne_ok_of_toOption (by decide +kernel))
  have hsome : (parse 1 "query = \"\"\"\nselect 1\n\"\"\"".toList).toOption.any
      (fun ts => !ts.isEmpty) = true := by decide +kernel
  have hnone : (Code.ofText ("query = \"\"\"\nselect 1\n\"\"\"" ++ "\n" ++ "foo bar")).toOption.any
      (fun c => c.statements.isEmpty) = true := by decide +kernel
  rw [hparse] at hsome
  rw [hcode] at hnone
  exact Bool.noConfusion ((Bool.not_eq_true' _ ▸ hsome : _ = false).symm.trans hnone)

end NotebookSlice
