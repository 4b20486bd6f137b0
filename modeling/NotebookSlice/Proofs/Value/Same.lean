import Mathlib
import NotebookSlice.Proofs.Pairs
import NotebookSlice.Value.Basic

/-! # Equality of values

Equality of values is symmetric and transitive. It is not reflexive, as a floating
point number may differ from itself.
-/

namespace NotebookSlice.Value

def parts : Value → List Value
  | list vs | tuple vs | set vs => vs
  | map es => es.flatMap fun e => [e.1, e.2]
  | _ => []

mutual

/-- What holds of a value if it holds of all its parts holds of every value. -/
theorem induction_of_parts {P : Value → Prop} (step : ∀ v, (∀ p ∈ v.parts, P p) → P v) :
    ∀ v, P v
  | list vs => step _ (forall_mem_of_parts step vs)
  | tuple vs => step _ (forall_mem_of_parts step vs)
  | set vs => step _ (forall_mem_of_parts step vs)
  | map es => step _ fun p hp => by
    obtain ⟨e, he, hp⟩ := List.mem_flatMap.mp hp
    obtain ⟨hk, hv⟩ := forall_entry_of_parts step es e he
    simp only [List.mem_cons, List.not_mem_nil, or_false] at hp
    exact hp.elim (· ▸ hk) (· ▸ hv)
  | null => step _ fun _ hp => nomatch hp
  | bool _ => step _ fun _ hp => nomatch hp
  | int _ => step _ fun _ hp => nomatch hp
  | float _ => step _ fun _ hp => nomatch hp
  | text _ => step _ fun _ hp => nomatch hp
  | bytes _ => step _ fun _ hp => nomatch hp
  | timestamp _ => step _ fun _ hp => nomatch hp

theorem forall_mem_of_parts {P : Value → Prop} (step : ∀ v, (∀ p ∈ v.parts, P p) → P v) :
    ∀ vs : List Value, ∀ v ∈ vs, P v
  | [] => fun _ hv => nomatch hv
  | v :: vs =>
    List.forall_mem_cons.mpr ⟨induction_of_parts step v, forall_mem_of_parts step vs⟩

theorem forall_entry_of_parts {P : Value → Prop} (step : ∀ v, (∀ p ∈ v.parts, P p) → P v) :
    ∀ es : List (Value × Value), ∀ e ∈ es, P e.1 ∧ P e.2
  | [] => fun _ he => nomatch he
  | (k, v) :: es => List.forall_mem_cons.mpr
    ⟨⟨induction_of_parts step k, induction_of_parts step v⟩, forall_entry_of_parts step es⟩

end

/-! ## Numbers -/

/-- The two are equal numbers: the same integer, or equal without being integers. -/
inductive SameNumber : Value → Value → Prop
  | integral {a b : Value} {i : Int} :
      a.integral? = some i → b.integral? = some i → SameNumber a b
  | float {x y : Float} :
      floatInt? x = none → floatInt? y = none → (x == y) = true → SameNumber (float x) (float y)

theorem SameNumber.symm {a b : Value} (h : SameNumber a b) : SameNumber b a := by
  cases h with
  | integral ha hb => exact .integral hb ha
  | float hx hy h => exact .float hy hx (BEq.symm h)

theorem SameNumber.trans {a b c : Value} (h : SameNumber a b) (h' : SameNumber b c) :
    SameNumber a c := by
  cases h with
  | integral ha hb =>
    cases h' with
    | integral hb' hc => exact .integral ha (Option.some.inj (hb.symm.trans hb') ▸ hc)
    | float hx => simp [integral?, hx] at hb
  | float hx hy h =>
    cases h' with
    | integral hb => simp [integral?, hy] at hb
    | float _ hz h' => exact .float hx hz (BEq.trans h h')

def isNumber : Value → Bool
  | bool _ | int _ | float _ => true
  | _ => false

theorem SameNumber.isNumber {a b : Value} (h : SameNumber a b) : a.isNumber := by
  cases h with
  | integral ha _ => cases a with
    | bool _ | int _ | float _ => rfl
    | _ => cases ha
  | float => rfl

theorem same_of_isNumber {a b : Value} : a.isNumber →
    same a b = match integral? a, integral? b with
      | some i, some j => i == j
      | none, none =>
        match a, b with
        | .float x, .float y => x == y
        | _, _ => false
      | _, _ => false := by
  intro ha
  cases a with
  | bool _ | int _ | float _ =>
    unfold same
    cases b <;> rfl
  | _ => cases ha

theorem same_iff_of_isNumber {a b : Value} (ha : a.isNumber) :
    same a b = true ↔ SameNumber a b := by
  rw [same_of_isNumber ha]
  constructor
  · intro h
    split at h
    · rename_i i j hi hj
      exact .integral hi (beq_iff_eq.mp h ▸ hj)
    · rename_i hi hj
      split at h
      · exact .float hi hj h
      · cases h
    · cases h
  · rintro (⟨hi, hj⟩ | ⟨hx, hy, h⟩)
    · simp [hi, hj]
    · simpa [integral?, hx, hy] using h

def isAtom : Value → Bool
  | null | text _ | bytes _ | timestamp _ => true
  | _ => false

theorem same_iff_of_isAtom {a b : Value} (ha : a.isAtom) : same a b = true ↔ a = b := by
  cases a with
  | null | text _ | bytes _ | timestamp _ =>
    cases b with
    | float y => cases hy : floatInt? y <;> simp [same, integral?, hy]
    | _ => simp [same, integral?]
  | _ => cases ha

/-! ## Lists, sets and maps -/

theorem sameList_iff {as bs : List Value} :
    sameList as bs = true ↔ List.Forall₂ (fun a b => same a b = true) as bs := by
  induction as generalizing bs with
  | nil => cases bs <;> simp [sameList]
  | cons a as ih => cases bs <;> simp [sameList, ih]

theorem subset_iff {as bs : List Value} :
    subset as bs = true ↔ ∀ a ∈ as, ∃ b ∈ bs, same a b = true := by
  induction as with
  | nil => simp [subset]
  | cons a as ih => simp [subset, ih]

theorem hasSame_iff {as : List Value} {b : Value} :
    hasSame as b = true ↔ ∃ a ∈ as, same a b = true := by
  induction as with
  | nil => simp [hasSame]
  | cons a as ih => simp [hasSame, ih]

def SameEntry (a b : Value × Value) : Prop := same a.1 b.1 = true ∧ same a.2 b.2 = true

theorem subMap_iff {as bs : List (Value × Value)} :
    subMap as bs = true ↔ ∀ a ∈ as, ∃ b ∈ bs, SameEntry a b := by
  induction as with
  | nil => simp [subMap]
  | cons a as ih =>
    rw [subMap, Bool.and_eq_true, ih, List.forall_mem_cons]
    simp [SameEntry]

theorem hasEntry_iff {as : List (Value × Value)} {b : Value × Value} :
    hasEntry as b = true ↔ ∃ a ∈ as, SameEntry a b := by
  induction as with
  | nil => simp [hasEntry]
  | cons a as ih =>
    rw [hasEntry, Bool.or_eq_true, ih, List.exists_mem_cons_iff]
    simp [SameEntry]

theorem same_list_iff {as : List Value} {b : Value} : same (.list as) b = true ↔
    ∃ bs, b = .list bs ∧ List.Forall₂ (fun a b => same a b = true) as bs := by
  cases b with
  | float y => cases hy : floatInt? y <;> simp [same, integral?, hy]
  | _ => simp [same, integral?, sameList_iff]

theorem same_tuple_iff {as : List Value} {b : Value} : same (.tuple as) b = true ↔
    ∃ bs, b = .tuple bs ∧ List.Forall₂ (fun a b => same a b = true) as bs := by
  cases b with
  | float y => cases hy : floatInt? y <;> simp [same, integral?, hy]
  | _ => simp [same, integral?, sameList_iff]

theorem same_set_iff {as : List Value} {b : Value} : same (.set as) b = true ↔
    ∃ bs, b = .set bs ∧ Matched (fun a b => same a b = true) as bs := by
  cases b with
  | float y => cases hy : floatInt? y <;> simp [same, integral?, hy]
  | _ => simp [same, integral?, subset_iff, hasSame_iff, matched_iff, and_assoc]

theorem same_map_iff {as : List (Value × Value)} {b : Value} : same (.map as) b = true ↔
    ∃ bs, b = .map bs ∧ Matched SameEntry as bs := by
  cases b with
  | float y => cases hy : floatInt? y <;> simp [same, integral?, hy]
  | _ => simp [same, integral?, subMap_iff, hasEntry_iff, matched_iff, and_assoc]

/-! ## Symmetry and transitivity -/

theorem parts_of_mem_map {es : List (Value × Value)} {e : Value × Value} (he : e ∈ es) :
    e.1 ∈ (map es).parts ∧ e.2 ∈ (map es).parts :=
  ⟨List.mem_flatMap.mpr ⟨e, he, by simp⟩, List.mem_flatMap.mpr ⟨e, he, by simp⟩⟩

theorem same_symm {a b : Value} (h : same a b = true) : same b a = true := by
  induction a using induction_of_parts generalizing b with
  | step a ih =>
    cases a with
    | bool _ | int _ | float _ =>
      have hs := ((same_iff_of_isNumber rfl).mp h).symm
      exact (same_iff_of_isNumber hs.isNumber).mpr hs
    | null | text _ | bytes _ | timestamp _ => exact (same_iff_of_isAtom rfl).mp h ▸ h
    | list as =>
      obtain ⟨bs, rfl, hs⟩ := same_list_iff.mp h
      exact same_list_iff.mpr ⟨as, rfl, forall₂_symm (fun a ha b => ih a ha) hs⟩
    | tuple as =>
      obtain ⟨bs, rfl, hs⟩ := same_tuple_iff.mp h
      exact same_tuple_iff.mpr ⟨as, rfl, forall₂_symm (fun a ha b => ih a ha) hs⟩
    | set as =>
      obtain ⟨bs, rfl, hs⟩ := same_set_iff.mp h
      exact same_set_iff.mpr ⟨as, rfl, hs.symm fun a ha b => ih a ha⟩
    | map as =>
      obtain ⟨bs, rfl, hs⟩ := same_map_iff.mp h
      refine same_map_iff.mpr ⟨as, rfl, hs.symm fun e he e' heq => ?_⟩
      obtain ⟨hkey, hvalue⟩ := parts_of_mem_map he
      exact ⟨ih _ hkey heq.1, ih _ hvalue heq.2⟩

theorem same_trans {a b c : Value} (h : same a b = true) (h' : same b c = true) :
    same a c = true := by
  induction a using induction_of_parts generalizing b c with
  | step a ih =>
    cases a with
    | bool _ | int _ | float _ =>
      have hs := (same_iff_of_isNumber rfl).mp h
      have hs' := (same_iff_of_isNumber hs.symm.isNumber).mp h'
      exact (same_iff_of_isNumber rfl).mpr (hs.trans hs')
    | null | text _ | bytes _ | timestamp _ => exact (same_iff_of_isAtom rfl).mp h ▸ h'
    | list as =>
      obtain ⟨bs, rfl, hs⟩ := same_list_iff.mp h
      obtain ⟨cs, rfl, hs'⟩ := same_list_iff.mp h'
      exact same_list_iff.mpr ⟨cs, rfl, forall₂_trans (fun a ha _ _ => ih a ha) hs hs'⟩
    | tuple as =>
      obtain ⟨bs, rfl, hs⟩ := same_tuple_iff.mp h
      obtain ⟨cs, rfl, hs'⟩ := same_tuple_iff.mp h'
      exact same_tuple_iff.mpr ⟨cs, rfl, forall₂_trans (fun a ha _ _ => ih a ha) hs hs'⟩
    | set as =>
      obtain ⟨bs, rfl, hs⟩ := same_set_iff.mp h
      obtain ⟨cs, rfl, hs'⟩ := same_set_iff.mp h'
      exact same_set_iff.mpr ⟨cs, rfl, hs.trans hs' fun a ha b c => ih a ha⟩
    | map as =>
      obtain ⟨bs, rfl, hs⟩ := same_map_iff.mp h
      obtain ⟨cs, rfl, hs'⟩ := same_map_iff.mp h'
      refine same_map_iff.mpr ⟨cs, rfl, hs.trans hs' fun e he e' e'' heq heq' => ?_⟩
      obtain ⟨hkey, hvalue⟩ := parts_of_mem_map he
      exact ⟨ih _ hkey heq.1 heq'.1, ih _ hvalue heq.2 heq'.2⟩

end NotebookSlice.Value
