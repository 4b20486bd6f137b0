import NotebookSlice.Proofs.Flow.VisitInduction
import NotebookSlice.Proofs.Pairs

/-! # Names only grow

Visiting an expression takes no name away and leaves the same scopes open. So a
name that was visited stays known: it was read or written, or a scope binds it.
-/

namespace NotebookSlice.Flow

open Syntax

abbrev ScopesBelow : List Scope → List Scope → Prop :=
  List.Forall₂ fun a b => a.names ⊆ b.names

namespace ScopesBelow

theorem refl (ss : List Scope) : ScopesBelow ss ss :=
  List.forall₂_same.mpr fun _ _ => List.Subset.refl _

theorem trans {as bs cs : List Scope} (h : ScopesBelow as bs) (h' : ScopesBelow bs cs) :
    ScopesBelow as cs :=
  forall₂_trans (fun _ _ _ _ => List.Subset.trans) h h'

theorem bindFunction {id : String} {ss ts : List Scope}
    (h : Names.bindFunction id ss = some ts) : ScopesBelow ss ts := by
  induction ss generalizing ts with
  | nil => cases h
  | cons scope rest ih =>
    rw [Names.bindFunction] at h
    split at h
    · obtain rfl := Option.some.inj h
      exact .cons (fun _ hid => List.mem_insert_of_mem hid) (refl rest)
    · obtain ⟨rest', hrest, rfl⟩ := Option.map_eq_some_iff.mp h
      exact .cons (List.Subset.refl _) (ih hrest)

end ScopesBelow

namespace Names

/-- Nothing of `s` is missing in `t`. -/
structure Below (s t : Names) : Prop where
  reads : s.reads ⊆ t.reads
  writes : s.writes ⊆ t.writes
  scopes : ScopesBelow s.scopes t.scopes

/-- The name was read or written, or is bound in an open scope. -/
def Knows (s : Names) (id : String) : Prop := id ∈ s.reads ∨ id ∈ s.writes ∨ s.isBound id = true

variable {s t u : Names} {id : String}

theorem isBound_iff : s.isBound id = true ↔ ∃ scope ∈ s.scopes, id ∈ scope.names := by
  simp [isBound]

namespace Below

theorem refl (s : Names) : s.Below s :=
  ⟨List.Subset.refl _, List.Subset.refl _, .refl _⟩

theorem trans (h : s.Below t) (h' : t.Below u) : s.Below u :=
  ⟨List.Subset.trans h.reads h'.reads, List.Subset.trans h.writes h'.writes,
    h.scopes.trans h'.scopes⟩

theorem knows (h : s.Below t) (hid : s.Knows id) : t.Knows id := by
  refine hid.imp (h.reads ·) (Or.imp (h.writes ·) fun hbound => ?_)
  obtain ⟨scope, hmem, hid⟩ := isBound_iff.mp hbound
  obtain ⟨k, hk⟩ := List.mem_iff_get.mp hmem
  have hlen := h.scopes.length_eq
  have hsub := h.scopes.get k.isLt (hlen ▸ k.isLt)
  exact isBound_iff.mpr ⟨_, List.get_mem .., hsub (hk ▸ hid)⟩

theorem addWrite (s : Names) (id : String) : s.Below (s.addWrite id) :=
  ⟨List.Subset.refl _, fun _ h => List.mem_insert_of_mem h, .refl _⟩

theorem bind (s : Names) (id : String) : s.Below (s.bind id) := by
  rw [Names.bind]
  split
  · exact addWrite s id
  · rename_i scope rest heq
    refine ⟨List.Subset.refl _, List.Subset.refl _, heq ▸ ?_⟩
    exact .cons (fun _ h => List.mem_insert_of_mem h) (ScopesBelow.refl rest)

theorem read (s : Names) (id : String) : s.Below (s.read id) := by
  rw [Names.read]
  split
  · exact refl s
  · exact ⟨fun _ h => List.mem_insert_of_mem h, List.Subset.refl _, .refl _⟩

theorem modify (s : Names) (id? : Option String) : s.Below (s.modify id?) := by
  cases id? with
  | none => exact refl s
  | some id =>
    rw [Names.modify]
    split
    · exact refl s
    · exact addWrite s id

theorem modifyAll (ids : List (Option String)) (s : Names) :
    s.Below (ids.foldl Names.modify s) := by
  induction ids generalizing s with
  | nil => exact refl s
  | cons id? ids ih => exact (modify s id?).trans (ih _)

theorem bindWalrus (s : Names) (id : String) : s.Below (s.bindWalrus id) := by
  rw [Names.bindWalrus]
  split
  · rename_i heq
    exact ⟨List.Subset.refl _, List.Subset.refl _, .bindFunction heq⟩
  · exact addWrite s id

theorem leave {kind : ScopeKind} {names : List String} (h : (s.enter kind names).Below t) :
    s.Below t.leave := by
  refine ⟨h.reads, h.writes, ?_⟩
  obtain ⟨scope, rest, -, hrest, heq⟩ := List.forall₂_cons_left_iff.mp h.scopes
  rw [Names.leave, heq]
  exact hrest

end Below

theorem knows_bind (s : Names) (id : String) : (s.bind id).Knows id := by
  rw [bind]
  split
  · exact Or.inr (Or.inl (List.mem_insert_self ..))
  · exact Or.inr (Or.inr (isBound_iff.mpr ⟨_, List.mem_cons_self, List.mem_insert_self ..⟩))

theorem knows_read (s : Names) (id : String) : (s.read id).Knows id := by
  rw [read]
  split
  · rename_i hbound
    exact Or.inr (Or.inr hbound)
  · exact Or.inl (List.mem_insert_self ..)

end Names

/-! ## Calls -/

/-- The names that a call is assumed to modify if the given rule speaks of it. -/
def modifiedUnder (rule : Option OverrideRule) (receiver : Option String) (function : String)
    (isMethod : Bool) (args : List Expr) : List (Option String) :=
  (if isMethod && !(rule.map (·.sparesObject)).getD false then [receiver] else []) ++
    if (rule.map (·.sparesArguments)).getD false || (!isMethod && isBuiltin function) then []
    else args.map argumentName

def modifiedByCall (c : Configuration) (func : Expr) (args : List Expr)
    (keywords : List Argument) : List (Option String) :=
  match callee func with
  | none => []
  | some (receiver, function, isMethod) =>
    modifiedUnder (c.find? ((receiver.map Value.text).getD .null) (.text function)) receiver
      function isMethod (args ++ keywords.map Argument.value)

theorem modifyByCall_eq (c : Configuration) (func : Expr) (args : List Expr)
    (keywords : List Argument) (s : Names) :
    modifyByCall c func args keywords s =
      (modifiedByCall c func args keywords).foldl Names.modify s := by
  unfold modifyByCall modifiedByCall
  cases callee func with
  | none => rfl
  | some called =>
    obtain ⟨receiver, function, isMethod⟩ := called
    simp only [modifiedUnder, List.foldl_append]
    split <;> split <;> simp [List.foldl_map]

/-! ## The visit -/

theorem below_visitRelation (c : Configuration) : VisitRelation c fun _ _ _ s t => s.Below t where
  refl _ s := .refl s
  trans h h' := h.trans h'
  silent _ _ h := h
  matched h := h
  read id h := h.trans (.read _ id)
  bind id h := h.trans (.bind _ id)
  bindWalrus id h := h.trans (.bindWalrus _ id)
  target _ _ h := (Names.Below.modify _ _).trans h
  call f args ks h := by
    rw [modifyByCall_eq]
    exact h.trans (.modifyAll _ _)
  function _ _ h h' := h.trans h'.leave
  comprehension h := h.leave

theorem below_visit (c : Configuration) (e : Expr) (s : Names) : s.Below (visit c e s) :=
  (below_visitRelation c).of_visit [] e s

theorem below_visitAll (c : Configuration) (es : List Expr) (s : Names) :
    s.Below (visitAll c es s) :=
  (below_visitRelation c).of_visitAll [] es s

theorem below_visitArguments (c : Configuration) (ks : List Argument) (s : Names) :
    s.Below (visitArguments c ks s) :=
  (below_visitRelation c).of_visitArguments [] ks s

/-! ## Known names -/

variable (c : Configuration) {id : String}

theorem knows_visit_name (line : ℕ) (ctx : Context) (s : Names) :
    (visit c (.name line ctx id) s).Knows id := by
  rw [visit]
  split
  · exact s.knows_read id
  · exact s.knows_bind id

/-- The name at the root of attributes and elements is visited with them. -/
theorem knows_of_baseName {e : Expr} (h : baseName e = some id) (s : Names) :
    (visit c e s).Knows id := by
  fun_induction baseName e generalizing s with
  | case1 line ctx e attr ih => exact ih h _
  | case2 line ctx e index ih => exact (below_visit c index _).knows (ih h _)
  | case3 line ctx id =>
    obtain rfl := Option.some.inj h
    exact knows_visit_name c line ctx s
  | case4 => cases h

theorem knows_of_argumentName {e : Expr} (h : argumentName e = some id) (s : Names) :
    (visit c e s).Knows id := by
  revert h
  fun_cases argumentName e with
  | case1 line ctx id' | case2 _ line ctx id' =>
    rintro ⟨⟩
    exact knows_visit_name c line ctx s
  | case3 => nofun

theorem knows_of_mem_args {e : Expr} (h : argumentName e = some id) {args : List Expr}
    (he : e ∈ args) (s : Names) : (visitAll c args s).Knows id := by
  induction args generalizing s with
  | nil => cases he
  | cons e' args ih =>
    rcases List.mem_cons.mp he with rfl | he
    · exact (below_visitAll c args _).knows (knows_of_argumentName c h s)
    · exact ih he _

theorem knows_of_mem_keywords {k : Argument} (h : argumentName k.value = some id)
    {keywords : List Argument} (hk : k ∈ keywords) (s : Names) :
    (visitArguments c keywords s).Knows id := by
  induction keywords generalizing s with
  | nil => cases hk
  | cons k' keywords ih =>
    obtain ⟨name, e⟩ := k'
    rcases List.mem_cons.mp hk with rfl | hk
    · exact (below_visitArguments c keywords _).knows (knows_of_argumentName c h s)
    · exact ih hk _

theorem baseName_of_callee {func : Expr} {receiver : Option String} {function : String}
    (h : callee func = some (receiver, function, true)) : baseName func = receiver := by
  cases func <;> simp only [callee, reduceCtorEq, Option.some.injEq, Prod.mk.injEq] at h
  · simp at h
  · exact h.1

/-- A name that a call is assumed to modify was read before, or written. -/
theorem knows_of_mem_modifiedByCall {func : Expr} {args : List Expr} {keywords : List Argument}
    (h : some id ∈ modifiedByCall c func args keywords) (s : Names) :
    (visitArguments c keywords (visitAll c args (visit c func s))).Knows id := by
  unfold modifiedByCall at h
  cases hcallee : callee func with
  | none => simp [hcallee] at h
  | some called =>
    obtain ⟨receiver, function, isMethod⟩ := called
    simp only [hcallee, modifiedUnder, List.mem_append] at h
    rcases h with h | h
    · split at h
      · rename_i hmethod
        obtain rfl : isMethod = true := (Bool.and_eq_true_iff.mp hmethod).1
        have hbase := (baseName_of_callee hcallee).trans (List.mem_singleton.mp h).symm
        exact (below_visitArguments c keywords _).knows
          ((below_visitAll c args _).knows (knows_of_baseName c hbase s))
      · cases h
    · split at h
      · cases h
      · obtain ⟨e, he, hname⟩ := List.mem_map.mp h
        rcases List.mem_append.mp he with he | he
        · exact (below_visitArguments c keywords _).knows (knows_of_mem_args c hname he _)
        · obtain ⟨k, hk, rfl⟩ := List.mem_map.mp he
          exact knows_of_mem_keywords c hname hk _

end NotebookSlice.Flow
