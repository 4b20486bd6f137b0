import Mathlib.Data.List.Nodup
import Mathlib.Logic.Relation
import NotebookSlice.Proofs.Cell.Recovery
import NotebookSlice.Proofs.Flow.Nodes

/-! # Descent of units

Units are numbered in the order of a walk through a forest. A parent is a header or a
clause before its children, the units below a unit are the next ones after it, and
only the handlers and the `else` and `finally` parts of a header are children that are
not in its body.
-/

namespace NotebookSlice.Flow

open Syntax

/-! ## Parents in a forest -/

namespace Forest

variable {parent : Option ℕ} {next : ℕ} {roots : List ℕ} {units : List Statement}

theorem exists_root (h : Forest parent next roots units) :
    ∀ i ∈ roots, ∃ v ∈ units, v.index = i ∧ v.parent = parent := by
  induction h with
  | nil => simp
  | @cons parent next u parts roots block others siblings hindex hparent _ _ _ _ _ ihs =>
    refine List.forall_mem_cons.mpr ⟨⟨u, by simp, hindex, hparent⟩, fun i hi => ?_⟩
    obtain ⟨v, hv, hi⟩ := ihs i hi
    exact ⟨v, List.mem_append_right _ hv, hi⟩

theorem exists_child (h : Forest parent next roots units) :
    ∀ u ∈ units, ∀ i ∈ u.body, ∃ v ∈ units, v.index = i ∧ v.parent = some u.index := by
  induction h with
  | nil => simp
  | @cons parent next u parts roots block others siblings hindex _ hblock _ _ ihb iho ihs =>
    intro w hw i hi
    simp only [List.cons_append, List.append_assoc, List.mem_cons, List.mem_append] at hw
    rcases hw with rfl | hw | hw | hw
    · subst hindex
      exact (hblock.exists_root i hi).imp fun v hv => ⟨by simp [hv.1], hv.2⟩
    · exact (ihb w hw i hi).imp fun v hv => ⟨by simp [hv.1], hv.2⟩
    · exact (iho w hw i hi).imp fun v hv => ⟨by simp [hv.1], hv.2⟩
    · exact (ihs w hw i hi).imp fun v hv => ⟨by simp [hv.1], hv.2⟩

theorem exists_index (h : Forest parent next roots units) {i : ℕ} (hfirst : next ≤ i)
    (hlast : i < next + units.length) : ∃ v ∈ units, v.index = i := by
  have hi : i ∈ units.map Statement.index := by
    rw [h.map_index]
    exact List.mem_range'_1.mpr ⟨hfirst, hlast⟩
  simpa using hi

theorem pairwise_index (h : Forest parent next roots units) :
    units.Pairwise fun u v => u.index < v.index := by
  rw [← List.pairwise_map (R := (· < ·)), h.map_index]
  exact List.pairwise_lt_range'

/-- The parents of the units lie neither at `i` nor among the `n` indices after it. -/
def Apart (i n : ℕ) (units : List Statement) : Prop :=
  ∀ v ∈ units, ∀ p, v.parent = some p → p < i ∨ i + n < p

theorem apart (h : Forest parent next roots units) {i n : ℕ}
    (hparent : ∀ p, parent = some p → p < i) (hnext : i + n < next) : Apart i n units := by
  intro v hv p hp
  rcases h.parent_lt v hv with ⟨hroot, -⟩ | ⟨q, hq, hle, -⟩
  · exact .inl (hparent p (hroot ▸ hp))
  · obtain rfl := Option.some.inj (hq.symm.trans hp)
    exact .inr (by omega)

theorem Apart.append {i n : ℕ} {rest : List Statement} (h : Apart i n units)
    (h' : Apart i n rest) : Apart i n (units ++ rest) := List.forall_mem_append.mpr ⟨h, h'⟩

/-- A unit with all units below it, and the others before and after. No unit after them has its
parent there. -/
theorem exists_below (h : Forest parent next roots units)
    (hparent : ∀ p, parent = some p → p < next) : ∀ u ∈ units, ∃ before below after,
      units = before ++ u :: (below ++ after) ∧ u.index = next + before.length ∧
      (∃ rs, Forest (some u.index) (u.index + 1) rs below) ∧ Apart u.index below.length after := by
  induction h with
  | nil => simp
  | @cons parent next u parts roots block others siblings hindex _ hblock hothers hsiblings
      ihb iho ihs =>
    intro w hw
    simp only [List.cons_append, List.append_assoc, List.mem_cons, List.mem_append] at hw
    rcases hw with rfl | hw | hw | hw
    · subst hindex
      refine ⟨[], block ++ others, siblings, rfl, rfl, ⟨_, hblock.append hothers⟩,
        hsiblings.apart hparent ?_⟩
      rw [List.length_append]
      omega
    · obtain ⟨before, below, after, rfl, hplace, hbelow, hafter⟩ :=
        ihb (by rintro p ⟨⟩; exact Nat.lt_succ_self next) w hw
      simp only [List.length_append, List.length_cons] at hothers hsiblings
      refine ⟨u :: before, below, after ++ (others ++ siblings), by simp,
        by rw [hplace, List.length_cons]; omega, hbelow,
        hafter.append ((hothers.apart ?_ ?_).append (hsiblings.apart ?_ ?_))⟩
      · rintro p ⟨⟩
        omega
      · omega
      · exact fun p hp => Nat.lt_of_lt_of_le (hparent p hp) (by omega)
      · omega
    · obtain ⟨before, below, after, rfl, hplace, hbelow, hafter⟩ :=
        iho (by rintro p ⟨⟩; omega) w hw
      simp only [List.length_append, List.length_cons] at hsiblings
      refine ⟨u :: (block ++ before), below, after ++ siblings, by simp,
        by rw [hplace, List.length_cons, List.length_append]; omega, hbelow,
        hafter.append (hsiblings.apart ?_ ?_)⟩
      · exact fun p hp => Nat.lt_of_lt_of_le (hparent p hp) (by omega)
      · omega
    · obtain ⟨before, below, after, rfl, hplace, hbelow, hafter⟩ :=
        ihs (fun p hp => Nat.lt_of_lt_of_le (hparent p hp) (by omega)) w hw
      refine ⟨u :: (block ++ (others ++ before)), below, after, by simp, ?_, hbelow, hafter⟩
      rw [hplace, List.length_cons, List.length_append, List.length_append]
      omega

end Forest

/-! ## Descendants -/

/-- The unit numbered `j` stands below the one numbered `i`. -/
def Descends (units : List Statement) : ℕ → ℕ → Prop :=
  Relation.TransGen fun i j => ∃ v ∈ units, v.index = j ∧ v.parent = some i

namespace Forest

variable {next : ℕ} {roots : List ℕ} {units : List Statement} {i : ℕ}

theorem descends_of_below {below : List Statement} (h : Forest (some i) (i + 1) roots below)
    (hsub : below ⊆ units) : ∀ v ∈ below, Descends units i v.index := by
  intro v hv
  induction hj : v.index using Nat.strongRecOn generalizing v with
  | ind j ih =>
    subst hj
    rcases h.parent_lt v hv with ⟨hroot, -⟩ | ⟨p, hp, hle, hlt⟩
    · exact .single ⟨v, hsub hv, rfl, hroot⟩
    · have hlast := (h.index_mem hv).2
      obtain ⟨w, hw, rfl⟩ := h.exists_index (i := p) hle (by omega)
      exact .tail (ih _ hlt w hw rfl) ⟨v, hsub hv, rfl, hp⟩

theorem descends_iff (h : Forest none next roots units) {u : Statement} (hu : u ∈ units) :
    ∃ n, ∀ j, Descends units u.index j ↔ u.index < j ∧ j ≤ u.index + n := by
  obtain ⟨before, below, after, rfl, hplace, ⟨rs, hbelow⟩, hafter⟩ := h.exists_below (by simp) u hu
  have hclosed : ∀ v ∈ before ++ u :: (below ++ after), ∀ p, v.parent = some p → u.index ≤ p →
      p ≤ u.index + below.length → u.index < v.index ∧ v.index ≤ u.index + below.length := by
    intro v hv p hp hfirst hlast
    have hlt : p < v.index := by
      rcases h.parent_lt v hv with ⟨hroot, -⟩ | ⟨q, hq, -, hlt⟩
      · rw [hroot] at hp
        cases hp
      · exact Option.some.inj (hq.symm.trans hp) ▸ hlt
    rcases List.mem_append.mp hv with hv | hv
    · have := (List.pairwise_append.mp h.pairwise_index).2.2 v hv u List.mem_cons_self
      omega
    · rcases List.mem_cons.mp hv with rfl | hv
      · omega
      · rcases List.mem_append.mp hv with hv | hv
        · have := hbelow.index_mem hv
          omega
        · have := hafter v hv p hp
          omega
  refine ⟨below.length, fun j => ⟨fun hdesc => ?_, fun ⟨hfirst, hlast⟩ => ?_⟩⟩
  · induction hdesc with
    | single hv =>
      obtain ⟨v, hv, rfl, hp⟩ := hv
      exact hclosed v hv _ hp (Nat.le_refl _) (Nat.le_add_right ..)
    | tail _ hv ih =>
      obtain ⟨v, hv, rfl, hp⟩ := hv
      exact hclosed v hv _ hp (Nat.le_of_lt ih.1) ih.2
  · obtain ⟨v, hv, rfl⟩ := hbelow.exists_index (i := j) hfirst (by omega)
    exact hbelow.descends_of_below (fun v hv => by simp [hv]) v hv

end Forest

/-! ## Children of nodes -/

/-- The second node stands directly below the first one: in its block, or among the others. -/
structure IsChild (lines : Option (List String)) (x y : Node × Statement) : Prop where
  parent : y.2.parent = some x.2.index
  place : (∃ s ∈ x.1.body, y.1 = .stmt s) ∧ y.2.index ∈ x.2.body ∨ y.1 ∈ x.1.others lines

namespace Grows

variable {c : Configuration} {lines : Option (List String)} {parent : Option ℕ} {next : ℕ}
  {ns : List Node} {roots : List ℕ} {us : List (Node × Statement)}

theorem root_or_child (h : Grows c lines parent next ns roots us) : ∀ y ∈ us,
    y.1 ∈ ns ∧ y.2.parent = parent ∧ y.2.index ∈ roots ∨ ∃ x ∈ us, IsChild lines x y := by
  induction h with
  | nil => simp
  | @cons parent next n ns ids parts roots block others siblings _ _ _ ihb iho ihs =>
    intro y hy
    simp only [List.cons_append, List.append_assoc, List.mem_cons, List.mem_append] at hy
    rcases hy with rfl | hy | hy | hy
    · exact .inl ⟨List.mem_cons_self, rfl, List.mem_cons_self⟩
    · rcases ihb y hy with ⟨hnode, hparent, hindex⟩ | hx
      · obtain ⟨s, hs, hnode⟩ := List.mem_map.mp hnode
        exact .inr ⟨(n, _), List.mem_cons_self, hparent, .inl ⟨⟨s, hs, hnode.symm⟩, hindex⟩⟩
      · exact .inr (hx.imp fun x hx => ⟨by simp [hx.1], hx.2⟩)
    · rcases iho y hy with ⟨hnode, hparent, -⟩ | hx
      · exact .inr ⟨(n, _), List.mem_cons_self, hparent, .inr hnode⟩
      · exact .inr (hx.imp fun x hx => ⟨by simp [hx.1], hx.2⟩)
    · rcases ihs y hy with ⟨hnode, hparent, hindex⟩ | hx
      · exact .inl ⟨List.mem_cons_of_mem _ hnode, hparent, List.mem_cons_of_mem _ hindex⟩
      · exact .inr (hx.imp fun x hx => ⟨by simp [hx.1], hx.2⟩)

theorem length_roots (h : Grows c lines parent next ns roots us) : roots.length = ns.length := by
  induction h with
  | nil => rfl
  | cons _ _ _ _ _ ih => rw [List.length_cons, List.length_cons, ih]

/-- A unit has the kind of its node, and a body if the node has a block. -/
theorem kind_and_body (h : Grows c lines parent next ns roots us) :
    ∀ x ∈ us, x.2.kind = x.1.kind ∧ (x.2.body = [] ↔ x.1.body = []) := by
  induction h with
  | nil => simp
  | @cons parent next n ns ids parts roots block others siblings hblock _ _ ihb iho ihs =>
    refine List.forall_mem_cons.mpr ⟨⟨rfl, ?_⟩, List.forall_mem_append.mpr
      ⟨List.forall_mem_append.mpr ⟨ihb, iho⟩, ihs⟩⟩
    have hlength := hblock.length_roots
    rw [List.length_map] at hlength
    change ids = [] ↔ n.body = []
    rw [← List.length_eq_zero_iff, hlength, List.length_eq_zero_iff]

theorem map_index (h : Grows c lines parent next ns roots us) :
    us.map (·.2.index) = List.range' next us.length := by
  have hindex := h.forest.map_index
  rwa [List.map_map, List.length_map] at hindex

theorem isChild (h : Grows c lines none next ns roots us) {x y : Node × Statement} (hx : x ∈ us)
    (hy : y ∈ us) (hparent : y.2.parent = some x.2.index) : IsChild lines x y := by
  rcases h.root_or_child y hy with ⟨-, hnone, -⟩ | ⟨x', hx', hchild⟩
  · rw [hnone] at hparent
    cases hparent
  · have hindex : x'.2.index = x.2.index := Option.some.inj (hchild.parent.symm.trans hparent)
    rwa [← List.inj_on_of_nodup_map (h.map_index ▸ List.nodup_range') hx' hx hindex]

end Grows

/-! ## Forests of cells -/

def isFilled : Stmt → Bool
  | .if _ _ body _ | .while _ _ body _ | .for _ _ _ _ body _ | .with _ _ _ body => !body.isEmpty
  | .try _ _ body handlers _ _ => !body.isEmpty && handlers.all (!·.body.isEmpty)
  | _ => true

abbrev Filled (s : Stmt) : Prop := Throughout (fun r => isFilled r = true) s

theorem filled_of_legal {s : Stmt} (h : s.Legal) : Filled s := by
  intro r hr
  induction hr with
  | refl =>
    cases h
    case simple hs => cases r <;> simp_all [Stmt.isSimple, isFilled]
    case «try» hne _ hhne _ _ _ _ => simpa [isFilled, hne] using hhne
    all_goals simp_all [isFilled]
  | part _ hs ih => exact ih (legal_part h hs)

namespace Node

variable {lines : Option (List String)} {m n : Node} {s : Stmt}

def Filled : Node → Prop
  | .stmt s => Flow.Filled s
  | .handler h => h.body ≠ [] ∧ ∀ s ∈ h.body, Flow.Filled s
  | .clause _ block => block ≠ [] ∧ ∀ s ∈ block, Flow.Filled s

theorem Filled.stmt_of_body (h : n.Filled) (hs : s ∈ n.body) : (stmt s).Filled := by
  cases n with
  | stmt t => exact h.part (mem_parts_of_body hs)
  | handler g => exact h.2 s hs
  | clause line block => exact h.2 s hs

theorem Filled.of_others (h : n.Filled) (hm : m ∈ n.others lines) : m.Filled := by
  cases n with
  | handler g => cases hm
  | clause line block => cases hm
  | stmt t =>
    rcases mem_others.mp hm with ⟨g, hg, rfl⟩ | ⟨b, hb, hm⟩
    · refine ⟨?_, fun s hs => h.part (mem_parts_of_handler hg hs)⟩
      have hself : isFilled t = true := h.self
      cases t <;> simp only [handlers, List.not_mem_nil] at hg
      case «try» => simp_all [isFilled]
    · have hblock : ∀ s ∈ b.block, Flow.Filled s := fun s hs => h.part (mem_parts_of_branch hb hs)
      rcases Branch.mem_nodes hm with ⟨line, -, hne, rfl⟩ | ⟨-, s, hs, rfl⟩
      · exact ⟨hne, hblock⟩
      · exact hblock s hs

theorem Filled.body_eq_nil_iff (h : n.Filled) : n.body = [] ↔ n.kind = .statement := by
  cases n with
  | handler g => simpa [body, kind] using h.1
  | clause line block => simpa [body, kind] using h.1
  | stmt s =>
    have hself : isFilled s = true := h.self
    cases s <;> simp_all [body, kind, isWhole, isFilled]

theorem kind_of_body (h : s ∈ n.body) : n.kind ≠ .statement := by
  cases n with
  | stmt t => cases t <;> simp_all [body, kind, isWhole]
  | _ => simp [kind]

theorem kind_of_others (h : m ∈ n.others lines) : n.kind = .header := by
  cases n with
  | stmt t => cases t <;> first | rfl | cases h
  | _ => cases h

end Node

/-- Why a node below a header can be missing from its body: it is a handler, the clause of a part,
or a statement of a part that has no clause. -/
inductive OutsideBody (lines : Option (List String)) (n : Node) : Node → Prop

  | handler {h : Handler} : h ∈ n.handlers → OutsideBody lines n (.handler h)

  | clause {b : Branch} {line : ℕ} : b ∈ n.branches → b.line? lines = some line →
      OutsideBody lines n (.clause line b.block)

  | direct {b : Branch} {s : Stmt} : b ∈ n.branches → b.line? lines = none → s ∈ b.block →
      OutsideBody lines n (.stmt s)

theorem Node.outsideBody_of_others {lines : Option (List String)} {m n : Node}
    (h : m ∈ n.others lines) : OutsideBody lines n m := by
  rcases mem_others.mp h with ⟨g, hg, rfl⟩ | ⟨b, hb, hm⟩
  · exact .handler hg
  · rcases Branch.mem_nodes hm with ⟨line, hline, -, rfl⟩ | ⟨hline, s, hs, rfl⟩
    · exact .clause hb hline
    · exact .direct hb hline hs

/-- The units of nodes form a forest whose trees are numbered from the front. -/
structure IsForest (lines : Option (List String)) (us : List (Node × Statement)) : Prop where
  index : us.map (·.2.index) = List.range us.length
  kind : ∀ x ∈ us, x.2.kind = x.1.kind
  parent : ∀ y ∈ us, ∀ p, y.2.parent = some p → p < y.2.index ∧
    ∃ x ∈ us, x.2.index = p ∧ (x.2.kind = .header ∨ x.2.kind = .clause)
  body : ∀ x ∈ us, ∀ i ∈ x.2.body, x.2.index < i ∧
    ∃ y ∈ us, y.2.index = i ∧ y.2.parent = some x.2.index
  body_eq_nil_iff : ∀ x ∈ us, x.2.body = [] ↔ x.2.kind = .statement
  descendants : ∀ x ∈ us, ∃ n, ∀ j,
    Descends (us.map Prod.snd) x.2.index j ↔ x.2.index < j ∧ j ≤ x.2.index + n
  outside : ∀ x ∈ us, ∀ y ∈ us, y.2.parent = some x.2.index → y.2.index ∉ x.2.body →
    x.2.kind = .header ∧ OutsideBody lines x.1 y.1

theorem Grows.isForest {c : Configuration} {lines : Option (List String)} {ns : List Node}
    {roots : List ℕ} {us : List (Node × Statement)} (h : Grows c lines none 0 ns roots us)
    (hfilled : ∀ n ∈ ns, n.Filled) : IsForest lines us where
  index := by rw [h.map_index, List.range_eq_range']
  kind x hx := (h.kind_and_body x hx).1
  parent y hy p hp := by
    rcases h.root_or_child y hy with ⟨-, hnone, -⟩ | ⟨x, hx, hchild⟩
    · rw [hnone] at hp
      cases hp
    · obtain rfl := Option.some.inj (hchild.parent.symm.trans hp)
      refine ⟨?_, x, hx, rfl, ?_⟩
      · rcases h.forest.parent_lt y.2 (List.mem_map_of_mem hy) with ⟨hnone, -⟩ | ⟨q, hq, -, hlt⟩
        · rw [hnone] at hp
          cases hp
        · exact Option.some.inj (hq.symm.trans hp) ▸ hlt
      · rw [(h.kind_and_body x hx).1]
        rcases hchild.place with ⟨⟨s, hs, -⟩, -⟩ | hothers
        · have hkind := Node.kind_of_body hs
          cases hk : x.1.kind <;> simp_all
        · exact .inl (Node.kind_of_others hothers)
  body x hx i hi := by
    obtain ⟨v, hv, hindex, hparent⟩ := h.forest.exists_child x.2 (List.mem_map_of_mem hx) i hi
    obtain ⟨y, hy, rfl⟩ := List.mem_map.mp hv
    exact ⟨(h.forest.body_mem x.2 (List.mem_map_of_mem hx) i hi).1, y, hy, hindex, hparent⟩
  body_eq_nil_iff x hx := by
    have hx' := h.forall_nodes hfilled (fun n hn s hs => hn.stmt_of_body hs)
      (fun n hn m hm => hn.of_others hm) x hx
    rw [(h.kind_and_body x hx).2, (h.kind_and_body x hx).1, hx'.body_eq_nil_iff]
  descendants x hx := h.forest.descends_iff (List.mem_map_of_mem hx)
  outside x hx y hy hparent hbody := by
    rcases (h.isChild hx hy hparent).place with ⟨-, hmem⟩ | hothers
    · exact absurd hmem hbody
    · exact ⟨(h.kind_and_body x hx).1.trans (Node.kind_of_others hothers),
        Node.outsideBody_of_others hothers⟩

theorem Forest.filter_tree {next : ℕ} {units : List Statement}
    (h : Forest none next [next] units) :
    (units.filter (·.parent.isNone)).map some = [units.head?] := by
  cases h with
  | @cons _ _ u _ _ block others siblings hindex hparent hblock hothers hsiblings =>
    cases hsiblings
    have hbelow : ∀ v ∈ block ++ others, v.parent ≠ none := by
      intro v hv hnone
      rcases (hblock.append hothers).parent_lt v hv with ⟨hsome, -⟩ | ⟨p, hp, -⟩
      · rw [hnone] at hsome
        cases hsome
      · rw [hnone] at hp
        cases hp
    rw [List.append_nil, List.filter_cons_of_pos (by simp [hparent]),
      List.filter_eq_nil_iff.mpr (by simpa using hbelow)]
    rfl

variable (c : Configuration) (lines : Option (List String))

/-- The units without a parent are the first ones of the statements, in their order. -/
theorem filter_walkAll (ss : List Stmt) (next : ℕ) :
    ((walkAll c lines ss next).filter (·.parent.isNone)).map some =
      (unitsOfEach c lines ss next).map List.head? := by
  induction ss generalizing next with
  | nil => rfl
  | cons s ss ih =>
    rw [walkAll, List.filter_append, List.map_append, unitsOfEach, List.map_cons, ih,
      (forest_walk lines c s none next).filter_tree, List.singleton_append]

/-- Whatever text is given, the units of code without empty blocks form a forest, in which a
unit without a parent is the first one of a statement. -/
theorem exists_isForest {ss : List Stmt} (hfilled : ∀ s ∈ ss, Filled s) (source : Option String) :
    ∃ roots us, Grows c (source.map Text.lines) none 0 (ss.map .stmt) roots us ∧
      us.map Prod.snd = analyze c ss source ∧ IsForest (source.map Text.lines) us ∧
      (unitsOfEach c (source.map Text.lines) ss 0).flatten = analyze c ss source ∧
      ((analyze c ss source).filter (·.parent.isNone)).map some =
        (unitsOfEach c (source.map Text.lines) ss 0).map List.head? := by
  obtain ⟨roots, us, hgrows, hunits⟩ := yields_walkAll c (source.map Text.lines) ss 0
  have hnodes : ∀ n ∈ ss.map Node.stmt, n.Filled := by
    intro n hn
    obtain ⟨s, hs, rfl⟩ := List.mem_map.mp hn
    exact hfilled s hs
  exact ⟨roots, us, hgrows, hunits, hgrows.isForest hnodes, flatten_unitsOfEach _ _ ss 0,
    filter_walkAll c _ ss 0⟩

/-- Code with parts of all kinds. The `elif` has no clause of its own. -/
def branchingText : String :=
  "try:\n    if a: b\n    elif c: d\n    else: e\nexcept E: f\nelse: g\nfinally: h"

def branchingShape : List (Option ℕ × List ℕ) :=
  [(none, [1]), (some 0, [2]), (some 1, []), (some 1, [4]), (some 3, []), (some 3, [6]),
    (some 5, []), (some 0, [8]), (some 7, []), (some 0, [10]), (some 9, []), (some 0, [12]),
    (some 11, [])]

theorem exists_isForest_branchingText :
    ∃ ss, parse 1 branchingText.toList = .ok ss ∧
      (analyze .empty ss (some branchingText)).map (fun u => (u.parent, u.body)) =
        branchingShape ∧
      (∀ s ∈ ss, Filled s) ∧
      ∃ roots us,
        Grows .empty ((some branchingText).map Text.lines) none 0 (ss.map .stmt) roots us ∧
        us.map Prod.snd = analyze .empty ss (some branchingText) ∧
        IsForest ((some branchingText).map Text.lines) us ∧
        (unitsOfEach .empty ((some branchingText).map Text.lines) ss 0).flatten =
          analyze .empty ss (some branchingText) ∧
        ((analyze .empty ss (some branchingText)).filter (·.parent.isNone)).map some =
          (unitsOfEach .empty ((some branchingText).map Text.lines) ss 0).map List.head? := by
  obtain ⟨ss, hparse, hunits⟩ := exists_of_any (r := parse 1 branchingText.toList)
    (p := fun ss => (analyze .empty ss (some branchingText)).map (fun u => (u.parent, u.body)) =
      branchingShape) (by decide +kernel)
  have hfilled : ∀ s ∈ ss, Filled s := fun s hs => filled_of_legal (legal_of_parse hparse s hs)
  exact ⟨ss, hparse, of_decide_eq_true hunits, hfilled, exists_isForest .empty hfilled _⟩

end NotebookSlice.Flow
