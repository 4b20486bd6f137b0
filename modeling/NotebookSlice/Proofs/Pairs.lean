import Mathlib.Data.List.Forall2

/-! # Lists of related elements

Two lists whose elements are related, in order or in any order. What one of them
has, the other has a counterpart of.
-/

namespace NotebookSlice

variable {α β γ : Type} {R : α → β → Prop} {as : List α} {bs : List β}

theorem exists_of_mem_right (h : List.Forall₂ R as bs) {b : β} (hb : b ∈ bs) :
    ∃ a ∈ as, R a b := by
  induction h with
  | nil => cases hb
  | cons hab _ ih =>
    rcases List.mem_cons.mp hb with rfl | hb
    · exact ⟨_, List.mem_cons_self, hab⟩
    · obtain ⟨a, ha, hr⟩ := ih hb
      exact ⟨a, List.mem_cons_of_mem _ ha, hr⟩

theorem exists_of_mem_left (h : List.Forall₂ R as bs) {a : α} (ha : a ∈ as) :
    ∃ b ∈ bs, R a b :=
  exists_of_mem_right h.flip ha

theorem forall₂_and_mem (h : List.Forall₂ R as bs) :
    List.Forall₂ (fun a b => R a b ∧ a ∈ as ∧ b ∈ bs) as bs :=
  List.forall₂_iff_get.mpr ⟨h.length_eq, fun _ hi hi' =>
    ⟨h.get hi hi', List.get_mem .., List.get_mem ..⟩⟩

theorem exists_getLast?_left (h : List.Forall₂ R as bs) {b : β} (hb : bs.getLast? = some b) :
    ∃ a, as.getLast? = some a ∧ R a b := by
  rw [← List.head?_reverse] at hb
  simp only [← List.head?_reverse]
  have hreverse := List.forall₂_reverse_iff.mpr h
  generalize as.reverse = as', bs.reverse = bs' at hb hreverse ⊢
  cases hreverse with
  | nil => cases hb
  | cons hab _ =>
    obtain rfl := Option.some.inj hb
    exact ⟨_, rfl, hab⟩

theorem forall₂_filterMap {F : α → Option β} (h : ∀ a ∈ as, ∃ b, F a = some b ∧ R a b) :
    List.Forall₂ R as (as.filterMap F) := by
  induction as with
  | nil => exact .nil
  | cons a as ih =>
    obtain ⟨⟨b, hb, hr⟩, has⟩ := List.forall_mem_cons.mp h
    rw [List.filterMap_cons, hb]
    exact .cons hr (ih has)

theorem filterMap_eq_of_forall₂ {F : α → Option γ} {G : β → Option γ}
    (h : List.Forall₂ (fun a b => F a = G b) as bs) : as.filterMap F = bs.filterMap G := by
  induction h with
  | nil => rfl
  | cons hab _ ih => rw [List.filterMap_cons, List.filterMap_cons, hab, ih]

/-- The relation need only be transitive at the elements of the first list. -/
theorem forall₂_trans {R : α → α → Prop} {as bs cs : List α}
    (h : ∀ a ∈ as, ∀ b c, R a b → R b c → R a c) (hab : List.Forall₂ R as bs)
    (hbc : List.Forall₂ R bs cs) : List.Forall₂ R as cs := by
  induction hab generalizing cs with
  | nil => exact hbc
  | cons hr _ ih =>
    obtain ⟨ha, has⟩ := List.forall_mem_cons.mp h
    obtain ⟨c, cs, hr', hrest, rfl⟩ := List.forall₂_cons_left_iff.mp hbc
    exact .cons (ha _ _ hr hr') (ih has hrest)

theorem forall₂_symm {R : α → α → Prop} {as bs : List α} (h : ∀ a ∈ as, ∀ b, R a b → R b a)
    (hab : List.Forall₂ R as bs) : List.Forall₂ R bs as := by
  induction hab with
  | nil => exact .nil
  | cons hr _ ih =>
    obtain ⟨ha, has⟩ := List.forall_mem_cons.mp h
    exact .cons (ha _ hr) (ih has)

/-- Lists of the same length, in which the elements of each have counterparts in the other. -/
@[mk_iff]
structure Matched (R : α → β → Prop) (as : List α) (bs : List β) : Prop where
  length_eq : as.length = bs.length
  exists_right : ∀ a ∈ as, ∃ b ∈ bs, R a b
  exists_left : ∀ b ∈ bs, ∃ a ∈ as, R a b

namespace Matched

variable {R : α → α → Prop} {as bs cs : List α}

theorem symm (hab : Matched R as bs) (h : ∀ a ∈ as, ∀ b, R a b → R b a) : Matched R bs as where
  length_eq := hab.length_eq.symm
  exists_right b hb := by
    obtain ⟨a, ha, hr⟩ := hab.exists_left b hb
    exact ⟨a, ha, h a ha b hr⟩
  exists_left a ha := by
    obtain ⟨b, hb, hr⟩ := hab.exists_right a ha
    exact ⟨b, hb, h a ha b hr⟩

theorem trans (hab : Matched R as bs) (hbc : Matched R bs cs)
    (h : ∀ a ∈ as, ∀ b c, R a b → R b c → R a c) : Matched R as cs where
  length_eq := hab.length_eq.trans hbc.length_eq
  exists_right a ha := by
    obtain ⟨b, hb, hr⟩ := hab.exists_right a ha
    obtain ⟨c, hc, hr'⟩ := hbc.exists_right b hb
    exact ⟨c, hc, h a ha b c hr hr'⟩
  exists_left c hc := by
    obtain ⟨b, hb, hr'⟩ := hbc.exists_left c hc
    obtain ⟨a, ha, hr⟩ := hab.exists_left b hb
    exact ⟨a, ha, h a ha b c hr hr'⟩

end Matched

end NotebookSlice
