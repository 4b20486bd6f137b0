import NotebookSlice.Text.Identifier
import NotebookSlice.Text.Decomposition
import NotebookSlice.Text.Composition

/-! # Compatibility normal form

Identifiers that differ only in how their characters are encoded are the same.
The normal form decomposes all characters, sorts combining marks by class and
composes again.
-/

namespace NotebookSlice.Text

private def insertMark (m : Nat × Nat) : List (Nat × Nat) → List (Nat × Nat)
  | [] => [m]
  | x :: xs => if m.2 < x.2 then m :: x :: xs else x :: insertMark m xs

/-- Sorts each run of combining marks by class; marks of one class keep their order. -/
def sortMarks : (marks : List (Nat × Nat)) → List Nat → List (Nat × Nat)
  | marks, [] => marks
  | marks, n :: ns =>
    let c := markClass n
    if c = 0 then marks ++ (n, 0) :: sortMarks [] ns
    else sortMarks (insertMark (n, c) marks) ns

/-- Composes the marks after a starter with it where nothing of the same class or a higher one
lies between. `kept` holds the marks that stay, the last one first. -/
def composeFrom : (starter : Nat) → (kept : List (Nat × Nat)) → List (Nat × Nat) → List Nat
  | starter, kept, [] => starter :: (kept.reverse.map (·.1))
  | starter, kept, (n, c) :: rest =>
    let blocked := match kept with
      | [] => false
      | (_, last) :: _ => c ≤ last
    match if blocked then none else composePair? starter n with
    | some joined => composeFrom joined kept rest
    | none =>
      if c = 0 then starter :: (kept.reverse.map (·.1)) ++ composeFrom n [] rest
      else composeFrom starter ((n, c) :: kept) rest

private def composeAll : List (Nat × Nat) → List Nat
  | [] => []
  | (n, c) :: rest => if c = 0 then composeFrom n [] rest else n :: composeAll rest

/-- The compatibility normal form of an identifier. -/
def normalize (s : List Char) : List Char :=
  (composeAll (sortMarks [] (s.flatMap fun c => decompose c.toNat))).map Char.ofNat

end NotebookSlice.Text
