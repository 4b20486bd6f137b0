import NotebookSlice.Proofs.Flow.Override

/-! # Free names of expressions

The names that an expression loads and that no lambda parameter and no target of a
comprehension around them binds. A visit finds exactly these as long as comprehensions
use the names of their targets only once they are bound.
-/

namespace NotebookSlice.Flow

open Syntax

/-! ## Free names -/

/-- The names that the targets of a comprehension bind. -/
def targetNames : List Generator → List String
  | [] => []
  | .mk _ target _ _ :: gs => boundIn target ++ targetNames gs

/-- Those of the names that are not bound by the given ones. -/
def outside (bound names : List String) : List String := names.filter (· ∉ bound)

mutual

/-- The names that an expression loads and that no lambda and no comprehension in it binds where
they stand. -/
def freeNames : Expr → List String
  | .name _ ctx id => if ctx = .load then [id] else []
  | .literal .. => []
  | .template _ parts => freeAll parts
  | .field _ value _ spec => freeNames value ++ freeOption spec
  | .unary _ _ e => freeNames e
  | .binary _ l _ r => freeNames l ++ freeNames r
  | .bool _ _ es => freeAll es
  | .compare _ l _ es => freeNames l ++ freeAll es
  | .conditional _ t b o => freeNames t ++ freeNames b ++ freeNames o
  | .lambda _ ps body => freeParams ps ++ outside (paramNames ps) (freeNames body)
  | .walrus _ _ value => freeNames value
  | .attribute _ _ e _ => freeNames e
  | .subscript _ _ e i => freeNames e ++ freeNames i
  | .slice _ l u t => freeOption l ++ freeOption u ++ freeOption t
  | .call _ f args ks => freeNames f ++ freeAll args ++ freeArguments ks
  | .list _ es => freeAll es
  | .tuple _ es => freeAll es
  | .set _ es => freeAll es
  | .dict _ es => freeKeys es ++ freeValues es
  | .listComp _ e gs | .setComp _ e gs | .genExp _ e gs =>
    freeFirst gs ++ outside (targetNames gs) (freeGenerators gs ++ freeNames e)
  | .dictComp _ k v gs =>
    freeFirst gs ++ outside (targetNames gs) (freeGenerators gs ++ freeNames k ++ freeNames v)
  | .starred _ e => freeNames e
  | .await _ e => freeNames e
  | .yield _ e => freeOption e
  | .yieldFrom _ e => freeNames e

def freeAll : List Expr → List String
  | [] => []
  | e :: es => freeNames e ++ freeAll es

def freeOption : Option Expr → List String
  | none => []
  | some e => freeNames e

def freeArguments : List Argument → List String
  | [] => []
  | .mk _ e :: ks => freeNames e ++ freeArguments ks

def freeKeys : List Syntax.Entry → List String
  | [] => []
  | .pair k _ :: es => freeNames k ++ freeKeys es
  | .unpack _ :: es => freeKeys es

def freeValues : List Syntax.Entry → List String
  | [] => []
  | .pair _ v :: es => freeNames v ++ freeValues es
  | .unpack v :: es => freeNames v ++ freeValues es

/-- The first iterable of a comprehension belongs to the scope around it. -/
def freeFirst : List Generator → List String
  | [] => []
  | .mk _ _ iter _ :: _ => freeNames iter

/-- The loops of a comprehension without the first iterable. -/
def freeGenerators : List Generator → List String
  | [] => []
  | .mk _ target _ conditions :: gs => freeNames target ++ freeAll conditions ++ freeInner gs

def freeInner : List Generator → List String
  | [] => []
  | .mk _ target iter conditions :: gs =>
    freeNames iter ++ freeNames target ++ freeAll conditions ++ freeInner gs

/-- Defaults and annotations; both belong to the scope around the function. -/
def freeParams : Params → List String
  | .mk positionalOnly positional rest keywordOnly keywords =>
    freeDefaults positionalOnly ++ freeDefaults positional ++ freeDefaults keywordOnly ++
      freeHints positionalOnly ++ freeHints positional ++ freeHints keywordOnly ++
      freeHint rest ++ freeHint keywords

def freeDefaults : List Param → List String
  | [] => []
  | .mk _ _ d :: ps => freeOption d ++ freeDefaults ps

def freeHints : List Param → List String
  | [] => []
  | .mk _ a _ :: ps => freeOption a ++ freeHints ps

def freeHint : Option Param → List String
  | none => []
  | some (.mk _ a _) => freeOption a

end

/-! ## Orderly expressions -/

mutual

def IsTarget : Expr → Prop
  | .name _ ctx _ => ctx ≠ .load
  | .list _ es | .tuple _ es => AreTargets es
  | .starred _ e => IsTarget e
  | _ => False

def AreTargets : List Expr → Prop
  | [] => True
  | e :: es => IsTarget e ∧ AreTargets es

end

/-- Of the names, none is only bound later. This holds above all if none is bound later at all. -/
def BoundInTime (bound later names : List String) : Prop := ∀ x ∈ names, x ∈ later → x ∈ bound

mutual

/-- An expression without `:=`, the comprehensions of which have targets built from names and use
them only once they are bound. Outside targets, names are loaded. -/
def Orderly : Expr → Prop
  | .name _ ctx _ => ctx = .load
  | .literal .. => True
  | .template _ parts => OrderlyAll parts
  | .field _ value _ spec => Orderly value ∧ OrderlyOption spec
  | .unary _ _ e => Orderly e
  | .binary _ l _ r => Orderly l ∧ Orderly r
  | .bool _ _ es => OrderlyAll es
  | .compare _ l _ es => Orderly l ∧ OrderlyAll es
  | .conditional _ t b o => Orderly t ∧ Orderly b ∧ Orderly o
  | .lambda _ ps body => OrderlyParams ps ∧ Orderly body
  | .walrus .. => False
  | .attribute _ _ e _ => Orderly e
  | .subscript _ _ e i => Orderly e ∧ Orderly i
  | .slice _ l u t => OrderlyOption l ∧ OrderlyOption u ∧ OrderlyOption t
  | .call _ f args ks => Orderly f ∧ OrderlyAll args ∧ OrderlyArguments ks
  | .list _ es | .tuple _ es | .set _ es => OrderlyAll es
  | .dict _ es => OrderlyEntries es
  | .listComp _ e gs | .setComp _ e gs | .genExp _ e gs => OrderlyGenerators gs ∧ Orderly e
  | .dictComp _ k v gs => OrderlyGenerators gs ∧ Orderly k ∧ Orderly v
  | .starred _ e => Orderly e
  | .await _ e => Orderly e
  | .yield _ e => OrderlyOption e
  | .yieldFrom _ e => Orderly e

def OrderlyAll : List Expr → Prop
  | [] => True
  | e :: es => Orderly e ∧ OrderlyAll es

def OrderlyOption : Option Expr → Prop
  | none => True
  | some e => Orderly e

def OrderlyArguments : List Argument → Prop
  | [] => True
  | .mk _ e :: ks => Orderly e ∧ OrderlyArguments ks

def OrderlyEntries : List Syntax.Entry → Prop
  | [] => True
  | .pair k v :: es => Orderly k ∧ Orderly v ∧ OrderlyEntries es
  | .unpack v :: es => Orderly v ∧ OrderlyEntries es

/-- The loops of a comprehension. The first iterable may use all names of the scope around it. -/
def OrderlyGenerators : List Generator → Prop
  | [] => True
  | .mk _ target iter conditions :: gs =>
    Orderly iter ∧ IsTarget target ∧ OrderlyAll conditions ∧
      BoundInTime (boundIn target) (targetNames gs) (freeAll conditions) ∧
      OrderlyInner gs (boundIn target)

/-- Further loops, after those with the given targets. -/
def OrderlyInner : List Generator → (bound : List String) → Prop
  | [], _ => True
  | .mk _ target iter conditions :: gs, bound =>
    Orderly iter ∧ BoundInTime bound (boundIn target ++ targetNames gs) (freeNames iter) ∧
      IsTarget target ∧ OrderlyAll conditions ∧
      BoundInTime (bound ++ boundIn target) (targetNames gs) (freeAll conditions) ∧
      OrderlyInner gs (bound ++ boundIn target)

def OrderlyParams : Params → Prop
  | .mk positionalOnly positional rest keywordOnly keywords =>
    OrderlyEach positionalOnly ∧ OrderlyEach positional ∧ OrderlyEach keywordOnly ∧
      OrderlyRest rest ∧ OrderlyRest keywords

def OrderlyEach : List Param → Prop
  | [] => True
  | .mk _ a d :: ps => OrderlyOption a ∧ OrderlyOption d ∧ OrderlyEach ps

def OrderlyRest : Option Param → Prop
  | none => True
  | some (.mk _ a _) => OrderlyOption a

end

/-! ## What a step finds -/

section Steps

variable {bound later names free : List String} {s t u : Names}

@[simp] theorem mem_outside {x : String} : x ∈ outside bound names ↔ x ∈ names ∧ x ∉ bound := by
  simp [outside]

theorem outside_append (bound xs ys : List String) :
    outside bound (xs ++ ys) = outside bound xs ++ outside bound ys := List.filter_append ..

theorem BoundInTime.outside_eq (h : BoundInTime bound later names) :
    outside bound names = outside (bound ++ later) names := by
  refine List.filter_congr fun x hx => decide_eq_decide.mpr ?_
  rw [List.mem_append, not_or]
  exact ⟨fun hbound => ⟨hbound, fun hlater => hbound (h x hx hlater)⟩, And.left⟩

/-- A step from `s` to `t` with the given free names: they are read unless a scope binds them, and
the scopes are as before. -/
structure Finds (s : Names) (free : List String) (t : Names) : Prop where
  scopes : t.scopes = s.scopes
  reads : ∀ x, x ∈ t.reads ↔ x ∈ s.reads ∨ x ∈ free ∧ s.isBound x = false

/-- A step from `s` into a scope with the given names. -/
structure Enters (s : Names) (bound free : List String) (t : Names) : Prop where
  scopes : ∃ scope, t.scopes = scope :: s.scopes ∧ ∀ x, x ∈ scope.names ↔ x ∈ bound
  reads : ∀ x, x ∈ t.reads ↔ x ∈ s.reads ∨ x ∈ free ∧ s.isBound x = false

namespace Finds

theorem isBound_eq (h : Finds s free t) (x : String) : t.isBound x = s.isBound x := by
  rw [Names.isBound, h.scopes, Names.isBound]

theorem refl (s : Names) : Finds s [] s := ⟨rfl, by simp⟩

theorem trans {free' : List String} (h : Finds s free t) (h' : Finds t free' u) :
    Finds s (free ++ free') u where
  scopes := h'.scopes.trans h.scopes
  reads x := by
    rw [h'.reads, h.reads, h.isBound_eq, List.mem_append]
    tauto

theorem read (s : Names) (id : String) : Finds s [id] (s.read id) := by
  rw [Names.read]
  split
  · rename_i hbound
    refine ⟨rfl, fun x => ⟨Or.inl, ?_⟩⟩
    rintro (hx | ⟨hx, hfree⟩)
    · exact hx
    · rw [List.mem_singleton.mp hx, hbound] at hfree
      cases hfree
  · rename_i hbound
    refine ⟨rfl, fun x => ?_⟩
    rw [List.mem_insert_iff, List.mem_singleton, or_comm]
    refine or_congr_right ⟨?_, And.left⟩
    rintro rfl
    exact ⟨rfl, Bool.eq_false_iff.mpr hbound⟩

theorem modifyAll (ids : List (Option String)) (s : Names) :
    Finds s [] (ids.foldl Names.modify s) :=
  ⟨Names.scopes_modifyAll ids s, by simp [Names.reads_modifyAll]⟩

theorem enter (h : Finds s free t) (kind : ScopeKind) (names : List String) :
    Enters s names free (t.enter kind names) :=
  ⟨⟨⟨kind, names⟩, by rw [Names.enter, h.scopes], fun _ => Iff.rfl⟩, h.reads⟩

end Finds

namespace Enters

theorem isBound_eq_false (h : Enters s bound free t) (x : String) :
    t.isBound x = false ↔ x ∉ bound ∧ s.isBound x = false := by
  obtain ⟨scope, hscopes, hnames⟩ := h.scopes
  rw [Names.isBound, hscopes, List.any_cons, Bool.or_eq_false_iff, ← hnames]
  simp [Names.isBound]

theorem find (h : Enters s bound free t) (h' : Finds t names u) :
    Enters s bound (free ++ outside bound names) u where
  scopes := by rw [h'.scopes]; exact h.scopes
  reads x := by
    rw [h'.reads, h.reads, h.isBound_eq_false, List.mem_append, mem_outside]
    tauto

theorem bind (h : Enters s bound free t) (id : String) :
    Enters s (bound ++ [id]) free (t.bind id) := by
  obtain ⟨scope, hscopes, hnames⟩ := h.scopes
  rw [Names.bind, hscopes]
  refine ⟨⟨_, rfl, fun x => ?_⟩, h.reads⟩
  rw [List.mem_insert_iff, hnames, List.mem_append, List.mem_singleton]
  exact Or.comm

theorem bindAll (h : Enters s bound free t) (ids : List String) :
    Enters s (bound ++ ids) free (t.bindAll ids) := by
  induction ids generalizing bound t with
  | nil => rwa [List.append_nil]
  | cons id ids ih =>
    rw [List.append_cons]
    exact ih (h.bind id)

theorem leave (h : Enters s bound free t) : Finds s free t.leave := by
  obtain ⟨scope, hscopes, -⟩ := h.scopes
  exact ⟨by rw [Names.leave, hscopes, List.tail_cons], h.reads⟩

end Enters

end Steps

/-! ## The visit -/

mutual

theorem visit_target (c : Configuration) : ∀ (e : Expr) (s : Names), IsTarget e →
    visit c e s = s.bindAll (boundIn e) ∧ freeNames e = []
  | .name _ ctx id, s, h => by
    rw [visit, boundIn, freeNames, if_neg h, if_neg h, if_neg h]
    exact ⟨rfl, rfl⟩
  | .list _ es, s, h | .tuple _ es, s, h => visit_targets c es s h
  | .starred _ e, s, h => visit_target c e s h

theorem visit_targets (c : Configuration) : ∀ (es : List Expr) (s : Names), AreTargets es →
    visitAll c es s = s.bindAll (boundInAll es) ∧ freeAll es = []
  | [], s, _ => ⟨rfl, rfl⟩
  | e :: es, s, ⟨he, hes⟩ => by
    obtain ⟨hvisit, hfree⟩ := visit_target c e s he
    obtain ⟨hvisit', hfree'⟩ := visit_targets c es (s.bindAll (boundIn e)) hes
    rw [visitAll, hvisit, hvisit', boundInAll, freeAll, hfree, hfree', Names.bindAll,
      Names.bindAll, Names.bindAll, List.foldl_append]
    exact ⟨rfl, rfl⟩

end

theorem Enters.target {s t : Names} {bound free : List String} (h : Enters s bound free t)
    (c : Configuration) {target : Expr} (htarget : IsTarget target) :
    Enters s (bound ++ boundIn target) free (visit c target t) := by
  rw [(visit_target c target t htarget).1]
  exact h.bindAll _

open Finds in
mutual

theorem finds_visit (c : Configuration) :
    ∀ (e : Expr) (s : Names), Orderly e → Finds s (freeNames e) (visit c e s)
  | .name _ ctx id, s, h => by
    obtain rfl : ctx = .load := h
    exact .read s id
  | .literal .., s, _ => .refl s
  | .template _ parts, s, h => finds_visitAll c parts s h
  | .field _ value _ spec, s, h =>
    (finds_visit c value s h.1).trans (finds_visitOption c spec _ h.2)
  | .unary _ _ e, s, h => finds_visit c e s h
  | .binary _ l _ r, s, h => (finds_visit c l s h.1).trans (finds_visit c r _ h.2)
  | .bool _ _ es, s, h => finds_visitAll c es s h
  | .compare _ l _ es, s, h => (finds_visit c l s h.1).trans (finds_visitAll c es _ h.2)
  | .conditional _ t b o, s, h =>
    ((finds_visit c t s h.1).trans (finds_visit c b _ h.2.1)).trans (finds_visit c o _ h.2.2)
  | .lambda _ ps body, s, h =>
    (((finds_visitParams c ps s h.1).enter .function (paramNames ps)).find
      (finds_visit c body _ h.2)).leave
  | .walrus _ target value, s, h => h.elim
  | .attribute _ ctx e _, s, h => by
    rw [visit]
    split
    · exact finds_visit c e s h
    · exact (Finds.modifyAll [baseName e] s).trans (finds_visit c e _ h)
  | .subscript _ ctx e i, s, h => by
    rw [visit]
    split
    · exact (finds_visit c e s h.1).trans (finds_visit c i _ h.2)
    · exact (Finds.modifyAll [baseName e] s).trans
        ((finds_visit c e _ h.1).trans (finds_visit c i _ h.2))
  | .slice _ l u t, s, h =>
    ((finds_visitOption c l s h.1).trans (finds_visitOption c u _ h.2.1)).trans
      (finds_visitOption c t _ h.2.2)
  | .call _ f args ks, s, h => by
    rw [visit, modifyByCall_eq, freeNames, ← List.append_nil (_ ++ _ ++ _)]
    exact (((finds_visit c f s h.1).trans (finds_visitAll c args _ h.2.1)).trans
      (finds_visitArguments c ks _ h.2.2)).trans (.modifyAll _ _)
  | .list _ es, s, h | .tuple _ es, s, h | .set _ es, s, h => finds_visitAll c es s h
  | .dict _ es, s, h => (finds_visitKeys c es s h).trans (finds_visitValues c es _ h)
  | .listComp _ e gs, s, h | .setComp _ e gs, s, h | .genExp _ e gs, s, h => by
    rw [visit, freeNames, outside_append, ← List.append_assoc]
    exact ((enters_visitGenerators c gs s h.1).find (finds_visit c e _ h.2)).leave
  | .dictComp _ k v gs, s, h => by
    rw [visit, freeNames, outside_append, outside_append, ← List.append_assoc, ← List.append_assoc]
    exact (((enters_visitGenerators c gs s h.1).find (finds_visit c k _ h.2.1)).find
      (finds_visit c v _ h.2.2)).leave
  | .starred _ e, s, h => finds_visit c e s h
  | .await _ e, s, h => finds_visit c e s h
  | .yield _ e, s, h => finds_visitOption c e s h
  | .yieldFrom _ e, s, h => finds_visit c e s h

theorem finds_visitAll (c : Configuration) :
    ∀ (es : List Expr) (s : Names), OrderlyAll es → Finds s (freeAll es) (visitAll c es s)
  | [], s, _ => .refl s
  | e :: es, s, h => (finds_visit c e s h.1).trans (finds_visitAll c es _ h.2)

theorem finds_visitOption (c : Configuration) : ∀ (e : Option Expr) (s : Names),
    OrderlyOption e → Finds s (freeOption e) (visitOption c e s)
  | none, s, _ => .refl s
  | some e, s, h => finds_visit c e s h

theorem finds_visitArguments (c : Configuration) : ∀ (ks : List Argument) (s : Names),
    OrderlyArguments ks → Finds s (freeArguments ks) (visitArguments c ks s)
  | [], s, _ => .refl s
  | .mk _ e :: ks, s, h => (finds_visit c e s h.1).trans (finds_visitArguments c ks _ h.2)

theorem finds_visitKeys (c : Configuration) : ∀ (es : List Syntax.Entry) (s : Names),
    OrderlyEntries es → Finds s (freeKeys es) (visitKeys c es s)
  | [], s, _ => .refl s
  | .pair k _ :: es, s, h => (finds_visit c k s h.1).trans (finds_visitKeys c es _ h.2.2)
  | .unpack _ :: es, s, h => finds_visitKeys c es s h.2

theorem finds_visitValues (c : Configuration) : ∀ (es : List Syntax.Entry) (s : Names),
    OrderlyEntries es → Finds s (freeValues es) (visitValues c es s)
  | [], s, _ => .refl s
  | .pair _ v :: es, s, h => (finds_visit c v s h.2.1).trans (finds_visitValues c es _ h.2.2)
  | .unpack v :: es, s, h => (finds_visit c v s h.1).trans (finds_visitValues c es _ h.2)

/-- The scope of the comprehension stays open, with the names of all targets. -/
theorem enters_visitGenerators (c : Configuration) : ∀ (gs : List Generator) (s : Names),
    OrderlyGenerators gs → Enters s (targetNames gs)
      (freeFirst gs ++ outside (targetNames gs) (freeGenerators gs)) (visitGenerators c gs s)
  | [], s, _ => (Finds.refl s).enter .comprehension []
  | .mk _ target iter conditions :: gs, s, ⟨hiter, htarget, hconditions, hin, hgs⟩ => by
    have hfirst := ((finds_visit c iter s hiter).enter .comprehension []).target c htarget
    have hrest := enters_visitInnerGenerators c gs s _ _ _ hgs
      (hfirst.find (finds_visitAll c conditions _ hconditions))
    rw [List.nil_append, hin.outside_eq, List.append_assoc, ← outside_append] at hrest
    rw [freeGenerators, (visit_target c target s htarget).2]
    exact hrest

/-- What is used in time is not affected by later targets, so the names of all targets can be left
out everywhere. -/
theorem enters_visitInnerGenerators (c : Configuration) :
    ∀ (gs : List Generator) (s : Names) (bound free : List String) (t : Names),
    OrderlyInner gs bound → Enters s bound free t → Enters s (bound ++ targetNames gs)
      (free ++ outside (bound ++ targetNames gs) (freeInner gs)) (visitInnerGenerators c gs t)
  | [], s, bound, free, t, _, h => by
    simpa [targetNames, freeInner, outside, visitInnerGenerators] using h
  | .mk _ target iter conditions :: gs, s, bound, free, t,
      ⟨hiter, hin, htarget, hconditions, hin', hgs⟩, h => by
    have hfirst := (h.find (finds_visit c iter t hiter)).target c htarget
    have hrest := enters_visitInnerGenerators c gs s _ _ _ hgs
      (hfirst.find (finds_visitAll c conditions _ hconditions))
    rw [hin.outside_eq, hin'.outside_eq, List.append_assoc bound, List.append_assoc (free ++ _),
      ← outside_append, List.append_assoc free, ← outside_append] at hrest
    rw [freeInner, (visit_target c target t htarget).2, List.append_nil, List.append_assoc]
    exact hrest

theorem finds_visitParams (c : Configuration) : ∀ (ps : Params) (s : Names),
    OrderlyParams ps → Finds s (freeParams ps) (visitParams c ps s)
  | .mk positionalOnly positional rest keywordOnly keywords, s,
      ⟨hpositionalOnly, hpositional, hkeywordOnly, hrest, hkeywords⟩ =>
    (((((((finds_visitDefaults c positionalOnly s hpositionalOnly).trans
      (finds_visitDefaults c positional _ hpositional)).trans
      (finds_visitDefaults c keywordOnly _ hkeywordOnly)).trans
      (finds_visitHints c positionalOnly _ hpositionalOnly)).trans
      (finds_visitHints c positional _ hpositional)).trans
      (finds_visitHints c keywordOnly _ hkeywordOnly)).trans
      (finds_visitHint c rest _ hrest)).trans (finds_visitHint c keywords _ hkeywords)

theorem finds_visitDefaults (c : Configuration) : ∀ (ps : List Param) (s : Names),
    OrderlyEach ps → Finds s (freeDefaults ps) (visitDefaults c ps s)
  | [], s, _ => .refl s
  | .mk _ _ d :: ps, s, h =>
    (finds_visitOption c d s h.2.1).trans (finds_visitDefaults c ps _ h.2.2)

theorem finds_visitHints (c : Configuration) : ∀ (ps : List Param) (s : Names),
    OrderlyEach ps → Finds s (freeHints ps) (visitHints c ps s)
  | [], s, _ => .refl s
  | .mk _ a _ :: ps, s, h => (finds_visitOption c a s h.1).trans (finds_visitHints c ps _ h.2.2)

theorem finds_visitHint (c : Configuration) : ∀ (p : Option Param) (s : Names),
    OrderlyRest p → Finds s (freeHint p) (visitHint c p s)
  | none, s, _ => .refl s
  | some (.mk _ a _), s, h => finds_visitOption c a s h

end

/-- Whatever rules there are for calls, the names read in an orderly expression are its free
names. -/
theorem mem_reads_iff_mem_freeNames (c : Configuration) {e : Expr} (h : Orderly e) (x : String) :
    x ∈ (visit c e .empty).reads ↔ x ∈ freeNames e := by
  rw [(finds_visit c e .empty h).reads]
  simp [Names.empty, Names.isBound]

/-- `lambda a, b=c: [x + z for x in xs for y in f(x) if y < a]` -/
def nestedScopes : Expr :=
  .lambda 1 (.mk [] [.mk "a" none none, .mk "b" none (some (.name 1 .load "c"))] none [] none)
    (.listComp 1 (.binary 1 (.name 1 .load "x") .add (.name 1 .load "z"))
      [.mk false (.name 1 .store "x") (.name 1 .load "xs") [],
        .mk false (.name 1 .store "y") (.call 1 (.name 1 .load "f") [.name 1 .load "x"] [])
          [.compare 1 (.name 1 .load "y") [.less] [.name 1 .load "a"]]])

theorem mem_reads_iff_nestedScopes :
    Orderly nestedScopes ∧ freeNames nestedScopes = ["c", "xs", "f", "z"] ∧
      ∀ x, x ∈ (visit .empty nestedScopes .empty).reads ↔ x ∈ freeNames nestedScopes := by
  have horderly : Orderly nestedScopes := by
    simp [nestedScopes, Orderly, OrderlyParams, OrderlyEach, OrderlyOption, OrderlyRest,
      OrderlyGenerators, OrderlyInner, OrderlyAll, OrderlyArguments, IsTarget, BoundInTime,
      targetNames, boundIn, freeNames, freeAll, freeArguments]
  exact ⟨horderly, by decide +kernel, mem_reads_iff_mem_freeNames .empty horderly⟩

end NotebookSlice.Flow
