import NotebookSlice.Cell.Code
import NotebookSlice.Proofs.Text.Lines

/-! # Chunks of longer texts

Whether a line starts a chunk depends on the last line of code above it. So the
chunks of a text are also those of any longer one that goes on with the start of
a chunk.
-/

namespace NotebookSlice

open Text Syntax

theorem blankMagic_eq_self {source : String} (h : ∀ l ∈ lines source, isMagic l = false) :
    blankMagic source = source := by
  have hmap : (lines source).map (fun l => if isMagic l then "" else l) = lines source := by
    refine (List.map_congr_left fun l hl => ?_).trans (List.map_id _)
    simp [h l hl]
  rw [blankMagic, hmap, unlines_lines]

theorem null_not_mem_blankMagic {source : String} (h : '\x00' ∉ source.toList) :
    '\x00' ∉ (blankMagic source).toList := by
  refine not_mem_unlines (by decide) (List.forall_mem_map.mpr fun l hl => ?_)
  split
  · exact List.not_mem_nil
  · exact fun hnull => h (subset_of_mem_lines hl hnull)

theorem Code.ofText_eq_ofPlain {source : String} (h : '\x00' ∉ source.toList) :
    Code.ofText source = .ok (ofPlain (blankMagic source)) := by
  simp [Code.ofText, null_not_mem_blankMagic h]

namespace Chunk

/-- The last line of code among the given one and the lines after it. -/
def lastCode (previous : Option String) (ls : List String) : Option String :=
  ls.foldl (fun p l => if isCode l then some l else p) previous

@[simp] theorem lastCode_nil (previous : Option String) : lastCode previous [] = previous := rfl

@[simp] theorem lastCode_cons (previous : Option String) (l : String) (ls : List String) :
    lastCode previous (l :: ls) = lastCode (if isCode l then some l else previous) ls := rfl

variable {n : Nat} {previous : Option String} {l : String} {ls : List String}

theorem cut_append_start (h : starts l (lastCode previous ls) = true) :
    cut n previous (ls ++ [l]) =
      ((cut n previous ls).1, (cut n previous ls).2 ++ [⟨n + ls.length, [l]⟩]) := by
  induction ls generalizing n previous with
  | nil => simpa [cut] using h
  | cons x xs ih =>
    simp only [List.cons_append, cut, ih h, List.length_cons]
    have hline : n + 1 + xs.length = n + (xs.length + 1) := by omega
    split <;> simp [hline]

theorem ofText_append_start {source : String} (hline : '\n' ∉ l.toList)
    (h : starts l (lastCode none (Text.lines source)) = true) :
    ofText (source ++ "\n" ++ l) =
      ofText source ++ [⟨(Text.lines source).length + 1, [l]⟩] := by
  rw [ofText, ofText, lines_append, lines_eq_singleton hline]
  cases hlines : Text.lines source with
  | nil => exact absurd hlines (lines_ne_nil source)
  | cons x xs =>
    rw [hlines, lastCode_cons] at h
    simp only [List.cons_append, cut_append_start h, List.length_cons, Nat.add_comm 2]

end Chunk

namespace Code

def ofChunks (chunks : List Chunk) : Code := (chunks.map ofChunk).foldr append ⟨[], []⟩

theorem append_assoc (a b c : Code) : append (append a b) c = append a (append b c) := by
  simp [append]

theorem ofChunks_append (cs ds : List Chunk) :
    ofChunks (cs ++ ds) = append (ofChunks cs) (ofChunks ds) := by
  induction cs with
  | nil => rfl
  | cons c cs ih =>
    change append (ofChunk c) (ofChunks (cs ++ ds)) = append (append (ofChunk c) (ofChunks cs)) _
    rw [ih, append_assoc]

theorem ofChunk_of_ok {c : Chunk} {ss : List Stmt} (h : parse c.line c.text.toList = .ok ss) :
    ofChunk c = ⟨ss, []⟩ := by
  unfold ofChunk
  generalize parse c.line c.text.toList = answer at h ⊢
  subst h
  rfl

theorem ofChunk_of_error {c : Chunk} {n : Nat} (h : parse c.line c.text.toList = .error n) :
    ofChunk c = ⟨[], [⟨n, c.heading⟩]⟩ := by
  unfold ofChunk
  generalize parse c.line c.text.toList = answer at h ⊢
  subst h
  rfl

theorem ofPlain_of_ok {cleaned : String} {ss : List Stmt} (h : parse 1 cleaned.toList = .ok ss) :
    ofPlain cleaned = ⟨ss, []⟩ := by
  unfold ofPlain
  generalize parse 1 cleaned.toList = answer at h ⊢
  subst h
  rfl

theorem ofPlain_of_error {cleaned : String} {line : Nat} (h : parse 1 cleaned.toList = .error line) :
    ofPlain cleaned = ofChunks (Chunk.ofText cleaned) := by
  unfold ofPlain ofChunks
  generalize parse 1 cleaned.toList = answer at h ⊢
  subst h
  rfl

/-- Each statement of code is one of a parsed text: of the whole or of a chunk. -/
theorem forall_of_ofText {P : Stmt → Prop} {text : String} {code : Code}
    (hparse : ∀ {line : Nat} {chars : List Char} {ss : List Stmt}, parse line chars = .ok ss →
      ∀ s ∈ ss, P s) (h : ofText text = .ok code) : ∀ s ∈ code.statements, P s := by
  have hchunk (c : Chunk) : ∀ s ∈ (ofChunk c).statements, P s := by
    cases hanswer : parse c.line c.text.toList with
    | ok ss =>
      rw [ofChunk_of_ok hanswer]
      exact hparse hanswer
    | error n =>
      rw [ofChunk_of_error hanswer]
      exact List.forall_mem_nil _
  have hchunks (chunks : List Chunk) : ∀ s ∈ (ofChunks chunks).statements, P s := by
    induction chunks with
    | nil => exact List.forall_mem_nil _
    | cons chunk chunks ih => exact List.forall_mem_append.mpr ⟨hchunk chunk, ih⟩
  simp only [ofText, Option.all_none, if_true] at h
  split at h
  · cases h
  · obtain rfl := Except.ok.inj h
    cases hwhole : parse 1 (blankMagic text).toList with
    | ok ss =>
      rw [ofPlain_of_ok hwhole]
      exact hparse hwhole
    | error n =>
      rw [ofPlain_of_error hwhole]
      exact hchunks _

end Code

end NotebookSlice
