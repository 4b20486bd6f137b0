import NotebookSlice.Proofs.Flow.Visited

/-! # Scoping

Whether a name is one of the module, by the scoping rules of the language. Private
names are spelled out with the class around them first. Then the first region that
binds or declares the name decides, where bodies of classes do not count for the
code nested in them. A visit passes over none of the regions.
-/

namespace NotebookSlice.Flow

open Syntax

/-! ## Private names -/

/-- Two underscores begin the name, and it does not end in two. -/
def isPrivate (name : String) : Bool :=
  ['_', '_'].isPrefixOf name.toList && !(['_', '_'].isSuffixOf name.toList)

/-- What a name in a class stands for. A class whose name has only underscores keeps all names. -/
def mangle (cls name : String) : String :=
  let stem := cls.toList.dropWhile (· == '_')
  if isPrivate name && !stem.isEmpty then String.ofList ('_' :: stem ++ name.toList) else name

def RegionKind.className? : RegionKind → Option String
  | .classBody name => some name
  | _ => none

/-- What a name in the regions stands for, by the innermost class body. -/
def spelledOut (rs : List Region) (name : String) : String :=
  ((rs.findSome? (·.kind.className?)).map (mangle · name)).getD name

def firstNames (part : Region → List String) : List Region → List String
  | [] => []
  | r :: rs => (part r).map (spelledOut (r :: rs))

/-! ## Names of the module -/

/-- Whether a name is one of the module, as far as the innermost region settles it. A name that is
declared nonlocal is one of a function around the region. -/
def settled? (name : String) (rs : List Region) : Option Bool :=
  if name ∈ firstNames (·.globals) rs then some true
  else if name ∈ firstNames (·.bound) rs ∨ name ∈ firstNames (·.nonlocals) rs then some false
  else none

/-- Whether a name in nested code is one of the module. Methods have their class as `__class__`. -/
def leadsToModule (name : String) : List Region → Bool
  | [] => true
  | r :: rs =>
    if r.kind.className?.isSome then name != "__class__" && leadsToModule name rs
    else (settled? name (r :: rs)).getD (leadsToModule name rs)

/-- Does the code stand in a class body that binds the name? As long as it has not, it looks the
name up in the module. -/
def looksPast (name : String) : List Region → Bool
  | [] => false
  | r :: rs =>
    r.kind.className?.isSome && name ∈ firstNames (·.bound) (r :: rs) &&
      name ∉ firstNames (·.nonlocals) (r :: rs)

namespace Mention

def referent (m : Mention) : String := spelledOut m.regions m.name

def isGlobal (m : Mention) : Bool :=
  looksPast m.referent m.regions ||
    (settled? m.referent m.regions).getD (leadsToModule m.referent m.regions.tail)

/-- The scope of a region can hold the name after the earlier mentions, although the scoping rules
pass the region over. It is a class body; or it does not bind what the name stands for; or the code
stands in a class body that may not have bound the name yet; or the name is declared global there,
in the region or between the two. -/
def Shadowed (earlier : List Mention) (m : Mention) : Prop :=
  ∃ inner r outer, m.regions = inner ++ r :: outer ∧ Held earlier m.name r outer ∧
    (r.kind.className?.isSome ∨ m.referent ∉ firstNames (·.bound) (r :: outer) ∨
      looksPast m.referent m.regions ∨
      ∃ rs, r :: outer <:+ rs ∧ rs <:+ m.regions ∧ m.referent ∈ firstNames (·.globals) rs)

end Mention

section Settled

variable {name : String} {rs : List Region}

theorem mem_globals_of_settled (h : settled? name rs = some true) :
    name ∈ firstNames (·.globals) rs := by
  rw [settled?] at h
  split at h
  · assumption
  · split at h
    · cases h
    · cases h

theorem not_mem_bound_of_settled (h : settled? name rs = none) :
    name ∉ firstNames (·.bound) rs := by
  intro hbound
  rw [settled?] at h
  split at h
  · cases h
  · rw [if_pos (Or.inl hbound)] at h
    cases h

/-- Where the innermost region does not make it a name of the module, one further out does not
either, or the innermost one declares it global. -/
theorem declared_of_settled {last : Bool} (h : (settled? name rs).getD last = true) :
    name ∈ firstNames (·.globals) rs ∨ name ∉ firstNames (·.bound) rs ∧ last = true := by
  cases hsettled : settled? name rs with
  | none =>
    rw [hsettled] at h
    exact Or.inr ⟨not_mem_bound_of_settled hsettled, h⟩
  | some global =>
    rw [hsettled] at h
    obtain rfl : global = true := h
    exact Or.inl (mem_globals_of_settled hsettled)

/-- A region that binds a name of the module is a class body, or a declaration hides it. -/
theorem declared_of_leadsToModule {r : Region} {inner outer : List Region}
    (h : leadsToModule name (inner ++ r :: outer) = true)
    (hbound : name ∈ firstNames (·.bound) (r :: outer)) :
    r.kind.className?.isSome ∨ ∃ rs, r :: outer <:+ rs ∧ rs <:+ inner ++ r :: outer ∧
      name ∈ firstNames (·.globals) rs := by
  induction inner with
  | nil =>
    rw [List.nil_append, leadsToModule] at h
    split at h
    · exact Or.inl ‹_›
    · rcases declared_of_settled h with hdeclared | ⟨hnot, -⟩
      · exact Or.inr ⟨r :: outer, List.suffix_refl _, List.suffix_refl _, hdeclared⟩
      · exact absurd hbound hnot
  | cons r₁ inner ih =>
    have hrest (hinner : leadsToModule name (inner ++ r :: outer) = true) :
        r.kind.className?.isSome ∨ ∃ rs, r :: outer <:+ rs ∧ rs <:+ r₁ :: inner ++ r :: outer ∧
          name ∈ firstNames (·.globals) rs :=
      (ih hinner).imp_right fun ⟨rs, hout, hin, hdeclared⟩ =>
        ⟨rs, hout, hin.trans (List.suffix_cons ..), hdeclared⟩
    rw [List.cons_append, leadsToModule] at h
    split at h
    · rw [Bool.and_eq_true] at h
      exact hrest h.2
    · rcases declared_of_settled h with hdeclared | ⟨-, hinner⟩
      · exact Or.inr ⟨_, List.suffix_append .., List.suffix_refl _, hdeclared⟩
      · exact hrest hinner

end Settled

/-- A region that holds a name of the module is one that the scoping rules pass over. -/
theorem Mention.shadowed_of_isGlobal {m : Mention} {earlier : List Mention}
    (hglobal : m.isGlobal = true) {inner outer : List Region} {r : Region}
    (hregions : m.regions = inner ++ r :: outer) (hheld : Held earlier m.name r outer) :
    m.Shadowed earlier := by
  refine ⟨inner, r, outer, hregions, hheld, ?_⟩
  by_cases hbound : m.referent ∈ firstNames (·.bound) (r :: outer)
  swap
  · exact Or.inr (Or.inl hbound)
  rw [isGlobal, Bool.or_eq_true] at hglobal
  rcases hglobal with hpast | hglobal
  · exact Or.inr (Or.inr (Or.inl hpast))
  rw [hregions] at hglobal ⊢
  rcases declared_of_settled hglobal with hdeclared | ⟨hnot, hinner⟩
  · exact Or.inr (Or.inr (Or.inr ⟨_, List.suffix_append .., List.suffix_refl _, hdeclared⟩))
  · cases inner with
    | nil => exact absurd hbound hnot
    | cons r₁ inner =>
      rcases declared_of_leadsToModule hinner hbound with hbody | ⟨rs, hout, hin, hdeclared⟩
      · exact Or.inl hbody
      · exact Or.inr (Or.inr (Or.inr ⟨rs, hout, hin.trans (List.suffix_cons ..), hdeclared⟩))

theorem held_of_within {earlier : List Mention} {name : String} {r : Region} {outer : List Region}
    (h : Held (earlier.map (·.within [])) name r outer) : Held earlier name r outer where
  listed := h.listed
  rebound hdeclared := by
    obtain ⟨_, hmem, rfl, hrebinds⟩ := h.rebound hdeclared
    obtain ⟨m, hm, rfl⟩ := List.mem_map.mp hmem
    exact ⟨m, hm, rfl, by simpa [Mention.Rebinds, Mention.within] using hrebinds⟩

end NotebookSlice.Flow
