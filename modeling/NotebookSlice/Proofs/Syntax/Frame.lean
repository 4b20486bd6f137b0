import NotebookSlice.Proofs.Syntax.Alike

/-! # Frames

Two inputs that agree on a stretch of tokens, up to a boundary. The tokens of the
stretch have the same kinds, and their lines are related. The boundary is closed
if nothing begins there on either side.
-/

namespace NotebookSlice.Syntax

open List (Forall₂)

/-- How the lines of two inputs are compared. -/
structure Lines where
  same : Nat → Nat → Prop
  add : ∀ {m n : Nat}, same m n → ∀ k, same (m + k) (n + k)
  reread : ∀ {m n : Nat}, same m n → ∀ k, same (m - 1 + (k + 1)) (n - 1 + (k + 1))

/-- Tokens of the same kind; their lines are compared if they are not layout. -/
structure Token.Alike (same : Nat → Nat → Prop) (t t' : Token) : Prop where
  kind : t'.kind = t.kind
  line : t.isLayout = false → same t.line t'.line
  lastLine : t.isLayout = false → same t.lastLine t'.lastLine

namespace Token.Kind

/-- Neither layout between statements nor a word that continues a statement. -/
def bounds : Token.Kind → Bool
  | .newline | .indent | .dedent => false
  | .keyword .elif | .keyword .else | .keyword .except | .keyword .finally => false
  | _ => true

/-- Something in a line may begin with such a token, or go on with it. -/
def isPlain : Token.Kind → Bool
  | .newline | .indent | .dedent | .endmarker => false
  | _ => true

/-- Something in a line may begin with such a token. -/
def opens : Token.Kind → Bool
  | .newline | .indent | .dedent | .endmarker => false
  | .keyword .elif | .keyword .else | .keyword .except | .keyword .finally => false
  | .punct .percent | .punct .percentEq | .punct .notEq | .punct .stray => false
  | _ => true

theorem isPlain_of_opens {k : Token.Kind} (h : k.opens = true) : k.isPlain = true := by
  cases k <;> simp_all [opens, isPlain]

end Token.Kind

theorem Token.isLayout_eq (t : Token) : t.isLayout = !t.kind.isPlain := by
  unfold Token.isLayout Token.Kind.isPlain
  cases t.kind <;> rfl

/-- Parts of the stretch: before the boundary, also at it if it is closed, at places where a block
goes on, and up to the boundary in any case. -/
inductive Region | inside | edge | nested | upTo

/-- Two inputs with a common stretch, which ends before `stop` on the left. -/
structure Frame where
  lines : Lines
  left : Lexed
  right : Lexed
  /-- how far the stretch begins later on the right -/
  shift : Nat
  stop : Nat
  closed : Prop
  /-- how many blocks are open at a position -/
  level : Nat → Int
  size_le : left.tokens.size ≤ right.tokens.size
  fits_left : stop ≤ left.tokens.size + 1
  fits_right : stop + shift ≤ right.tokens.size + 1
  token : ∀ i, i < stop ∨ closed ∧ i = stop →
    Option.Rel (Token.Alike lines.same) left.tokens[i]? right.tokens[i + shift]?
  inner : ∀ i t, i < stop → left.tokens[i]? = some t → t.isLayout = false → i + 1 < stop
  broken : ∀ i, i ≤ stop → left.tokens[i]? = none → left.fault.isSome
  barred : closed → ∀ t, left.tokens[stop]? = some t → t.kind.opens = false
  level_nonneg : ¬ closed → ∀ i ≤ stop, 0 ≤ level i
  level_stop : ¬ closed → level stop = 0
  level_succ : ¬ closed → ∀ i t, i < stop → left.tokens[i]? = some t →
    level (i + 1) = level i +
      (match t.kind with
        | .indent => 1
        | .dedent => -1
        | _ => 0)

namespace Frame

variable (F : Frame)

/-- Nothing that has begun in the stretch goes on at the boundary. -/
class Clean : Prop where
  boundary : ∀ t, F.left.tokens[F.stop]? = some t → t.kind.bounds = true ∧
    ∃ t', F.right.tokens[F.stop + F.shift]? = some t' ∧ t'.kind.bounds = true

def At : Region → Nat → Prop
  | .inside, i => i < F.stop
  | .edge, i => i < F.stop ∨ F.closed ∧ i = F.stop
  | .nested, i => i ≤ F.stop ∧ (¬ F.closed → 1 ≤ F.level i)
  | .upTo, i => i ≤ F.stop

variable {F}

theorem level_of_plain (ho : ¬ F.closed) {i : Nat} {t : Token} (hi : i < F.stop)
    (ht : F.left.tokens[i]? = some t) (hplain : t.isLayout = false) :
    F.level (i + 1) = F.level i := by
  rw [F.level_succ ho i t hi ht]
  rw [Token.isLayout_eq] at hplain
  cases hkind : t.kind <;> simp_all [Token.Kind.isPlain]

end Frame

class Region.Le (P Q : Region) : Prop where
  at_of_at : ∀ {F : Frame} {i : Nat}, F.At P i → F.At Q i

namespace Region.Le

instance refl (P : Region) : Le P P := ⟨id⟩

instance edge_upTo : Le .edge .upTo where
  at_of_at := by
    rintro F i (h | ⟨-, h⟩)
    · exact Nat.le_of_lt h
    · exact Nat.le_of_eq h

instance inside_edge : Le .inside .edge := ⟨Or.inl⟩

instance inside_upTo : Le .inside .upTo := ⟨Nat.le_of_lt⟩

instance nested_edge : Le .nested .edge where
  at_of_at := by
    rintro F i ⟨hle, hlevel⟩
    by_cases hclosed : F.closed
    · exact (Nat.lt_or_eq_of_le hle).imp_right fun h => ⟨hclosed, h⟩
    · refine Or.inl (Nat.lt_of_le_of_ne hle ?_)
      rintro rfl
      have := hlevel hclosed
      have := F.level_stop hclosed
      omega

end Region.Le

end NotebookSlice.Syntax
