import NotebookSlice.Proofs.Flow.Growth

/-! # More rules, fewer writes

Rules after those of a configuration can only spare what a call would modify. The
code is visited in the same way, and each name that is no longer written is read
by the same code, because calls modify only what they mention.
-/

namespace NotebookSlice.Flow

open Syntax

namespace Names

/-- The same names are read in the same scopes. What only `s` writes is at least read. -/
structure Overridden (s t : Names) : Prop where
  reads : t.reads = s.reads
  scopes : t.scopes = s.scopes
  writes : t.writes ⊆ s.writes
  dropped : ∀ id ∈ s.writes, id ∈ t.writes ∨ id ∈ s.reads

variable {s t : Names}

/-! ## Modifications -/

@[simp] theorem reads_modify (s : Names) (id? : Option String) :
    (s.modify id?).reads = s.reads := by
  cases id? with
  | none => rfl
  | some id => rw [modify]; split <;> rfl

@[simp] theorem scopes_modify (s : Names) (id? : Option String) :
    (s.modify id?).scopes = s.scopes := by
  cases id? with
  | none => rfl
  | some id => rw [modify]; split <;> rfl

theorem mem_writes_modify {id : String} {id? : Option String} : id ∈ (s.modify id?).writes ↔
    id ∈ s.writes ∨ id? = some id ∧ s.isDeferred = false ∧ s.isBound id = false := by
  cases id? with
  | none => simp [modify]
  | some id' =>
    rw [modify]
    split
    · rename_i hskip
      rw [Bool.or_eq_true] at hskip
      refine ⟨Or.inl, fun h => h.resolve_right ?_⟩
      rintro ⟨⟨⟩, hd, hb⟩
      simp [hd, hb] at hskip
    · rename_i hnow
      simp only [Bool.or_eq_true, not_or, Bool.not_eq_true] at hnow
      simp only [addWrite, List.mem_insert_iff, Option.some.injEq]
      constructor
      · rintro (rfl | h)
        · exact Or.inr ⟨rfl, hnow⟩
        · exact Or.inl h
      · rintro (h | ⟨rfl, -⟩)
        · exact Or.inr h
        · exact Or.inl rfl

theorem reads_modifyAll (ids : List (Option String)) (s : Names) :
    (ids.foldl modify s).reads = s.reads := by
  induction ids generalizing s with
  | nil => rfl
  | cons id? ids ih => rw [List.foldl_cons, ih, reads_modify]

theorem scopes_modifyAll (ids : List (Option String)) (s : Names) :
    (ids.foldl modify s).scopes = s.scopes := by
  induction ids generalizing s with
  | nil => rfl
  | cons id? ids ih => rw [List.foldl_cons, ih, scopes_modify]

theorem mem_writes_modifyAll {ids : List (Option String)} {id : String} :
    id ∈ (ids.foldl modify s).writes ↔
      id ∈ s.writes ∨ some id ∈ ids ∧ s.isDeferred = false ∧ s.isBound id = false := by
  induction ids generalizing s with
  | nil => simp
  | cons id? ids ih =>
    rw [List.foldl_cons, ih, mem_writes_modify]
    simp only [isDeferred, isBound, scopes_modify, List.mem_cons, eq_comm (a := id?), or_assoc,
      or_and_right]

/-! ## The same step on both sides -/

namespace Overridden

theorem refl (s : Names) : s.Overridden s :=
  ⟨rfl, rfl, List.Subset.refl _, fun _ hid => Or.inl hid⟩

theorem isBound_eq (h : s.Overridden t) (id : String) : t.isBound id = s.isBound id := by
  rw [isBound, isBound, h.scopes]

theorem isDeferred_eq (h : s.Overridden t) : t.isDeferred = s.isDeferred := by
  rw [isDeferred, isDeferred, h.scopes]

theorem addWrite (h : s.Overridden t) (id : String) :
    (s.addWrite id).Overridden (t.addWrite id) where
  reads := h.reads
  scopes := h.scopes
  writes x hx := List.mem_insert_iff.mpr ((List.mem_insert_iff.mp hx).imp_right (h.writes ·))
  dropped x hx := by
    rcases List.mem_insert_iff.mp hx with rfl | hx
    · exact Or.inl (List.mem_insert_self ..)
    · exact (h.dropped x hx).imp_left (List.mem_insert_of_mem ·)

theorem bind (h : s.Overridden t) (id : String) : (s.bind id).Overridden (t.bind id) := by
  rw [Names.bind, Names.bind, h.scopes]
  split
  · exact h.addWrite id
  · exact ⟨h.reads, rfl, h.writes, h.dropped⟩

theorem bindAll (h : s.Overridden t) (ids : List String) :
    (s.bindAll ids).Overridden (t.bindAll ids) := by
  induction ids generalizing s t with
  | nil => exact h
  | cons id ids ih => exact ih (h.bind id)

theorem read (h : s.Overridden t) (id : String) : (s.read id).Overridden (t.read id) := by
  rw [Names.read, Names.read, h.isBound_eq]
  split
  · exact h
  · exact ⟨congrArg (·.insert id) h.reads, h.scopes, h.writes,
      fun x hx => (h.dropped x hx).imp_right (List.mem_insert_of_mem ·)⟩

theorem modify (h : s.Overridden t) (id? : Option String) :
    (s.modify id?).Overridden (t.modify id?) := by
  cases id? with
  | none => exact h
  | some id =>
    rw [Names.modify, Names.modify, h.isBound_eq, h.isDeferred_eq]
    split
    · exact h
    · exact h.addWrite id

theorem enter (h : s.Overridden t) (kind : ScopeKind) (names : List String) :
    (s.enter kind names).Overridden (t.enter kind names) :=
  ⟨h.reads, congrArg (_ :: ·) h.scopes, h.writes, h.dropped⟩

theorem leave (h : s.Overridden t) : s.leave.Overridden t.leave :=
  ⟨h.reads, congrArg List.tail h.scopes, h.writes, h.dropped⟩

theorem bindWalrus (h : s.Overridden t) (id : String) :
    (s.bindWalrus id).Overridden (t.bindWalrus id) := by
  rw [Names.bindWalrus, Names.bindWalrus, h.scopes]
  split
  · exact ⟨h.reads, rfl, h.writes, h.dropped⟩
  · exact h.addWrite id

/-- Fewer modifications, all of them of known names. A known name that is not bound was read, or
written before. -/
theorem modifyAll (h : s.Overridden t) {ids ids' : List (Option String)} (hsub : ids' ⊆ ids)
    (hknown : ∀ id, some id ∈ ids → s.Knows id) :
    (ids.foldl Names.modify s).Overridden (ids'.foldl Names.modify t) where
  reads := by rw [reads_modifyAll, reads_modifyAll, h.reads]
  scopes := by rw [scopes_modifyAll, scopes_modifyAll, h.scopes]
  writes x hx := by
    rw [mem_writes_modifyAll, h.isBound_eq, h.isDeferred_eq] at hx
    exact mem_writes_modifyAll.mpr (hx.imp (h.writes ·) (And.imp_left (hsub ·)))
  dropped x hx := by
    rw [reads_modifyAll]
    have hold (hwritten : x ∈ s.writes) :
        x ∈ (ids'.foldl Names.modify t).writes ∨ x ∈ s.reads :=
      (h.dropped x hwritten).imp_left fun hx => mem_writes_modifyAll.mpr (Or.inl hx)
    rcases mem_writes_modifyAll.mp hx with hwritten | ⟨hid, -, hfree⟩
    · exact hold hwritten
    · rcases hknown x hid with hread | hwritten | hbound
      · exact Or.inr hread
      · exact hold hwritten
      · rw [hfree] at hbound
        cases hbound

end Overridden

end Names

/-! ## Calls -/

theorem find?_extended (c : Configuration) (rules : List OverrideRule) (object function : Value) :
    (c.extended rules).find? object function =
      (c.find? object function).or (rules.find? (·.fits object function)) :=
  List.find?_append

theorem modifiedUnder_subset (rule : Option OverrideRule) (receiver : Option String)
    (function : String) (isMethod : Bool) (args : List Expr) :
    modifiedUnder rule receiver function isMethod args ⊆
      modifiedUnder none receiver function isMethod args := by
  refine List.append_subset.mpr ⟨?_, ?_⟩
  · refine List.subset_append_of_subset_left _ fun id? h => ?_
    rw [List.mem_ite_nil_right, Bool.and_eq_true] at h
    exact List.mem_ite_nil_right.mpr ⟨by simp [h.1.1], h.2⟩
  · refine List.subset_append_of_subset_right _ fun id? h => ?_
    rw [List.mem_ite_nil_left, Bool.or_eq_true, not_or] at h
    exact List.mem_ite_nil_left.mpr ⟨by simpa using h.1.2, h.2⟩

theorem modifiedByCall_extended (c : Configuration) (rules : List OverrideRule) (func : Expr)
    (args : List Expr) (keywords : List Argument) :
    modifiedByCall (c.extended rules) func args keywords ⊆ modifiedByCall c func args keywords := by
  unfold modifiedByCall
  cases callee func with
  | none => exact List.Subset.refl _
  | some called =>
    obtain ⟨receiver, function, isMethod⟩ := called
    simp only [find?_extended]
    cases c.find? ((receiver.map Value.text).getD .null) (.text function) with
    | some rule => exact List.Subset.refl _
    | none => exact modifiedUnder_subset ..

theorem Names.Overridden.call {s t : Names} (h : s.Overridden t) {c : Configuration}
    {func : Expr} {args : List Expr} {keywords : List Argument} {before : Names}
    (hbefore : s = visitArguments c keywords (visitAll c args (visit c func before)))
    (rules : List OverrideRule) :
    (modifyByCall c func args keywords s).Overridden
      (modifyByCall (c.extended rules) func args keywords t) := by
  rw [modifyByCall_eq, modifyByCall_eq]
  exact h.modifyAll (modifiedByCall_extended ..) fun id hid =>
    hbefore ▸ knows_of_mem_modifiedByCall c hid before

/-! ## The visit -/

section Visit

variable (c : Configuration) (rules : List OverrideRule)

mutual

theorem overridden_visit : ∀ (e : Expr) {s t : Names}, s.Overridden t →
    (visit c e s).Overridden (visit (c.extended rules) e t)
  | .name _ ctx id, _, _, h => by
    rw [visit, visit]
    split
    · exact h.read id
    · exact h.bind id
  | .literal .., _, _, h => h
  | .template _ parts, _, _, h => overridden_visitAll parts h
  | .field _ value _ spec, _, _, h => overridden_visitOption spec (overridden_visit value h)
  | .unary _ _ e, _, _, h => overridden_visit e h
  | .binary _ l _ r, _, _, h => overridden_visit r (overridden_visit l h)
  | .bool _ _ es, _, _, h => overridden_visitAll es h
  | .compare _ l _ es, _, _, h => overridden_visitAll es (overridden_visit l h)
  | .conditional _ i b o, _, _, h => overridden_visit o (overridden_visit b (overridden_visit i h))
  | .lambda _ ps body, _, _, h =>
    (overridden_visit body ((overridden_visitParams ps h).enter .function (paramNames ps))).leave
  | .walrus _ target value, _, _, h => (overridden_visit value h).bindWalrus target
  | .attribute _ ctx e _, _, _, h => by
    rw [visit, visit]
    split
    · exact overridden_visit e h
    · exact overridden_visit e (h.modify (baseName e))
  | .subscript _ ctx e i, _, _, h => by
    rw [visit, visit]
    split
    · exact overridden_visit i (overridden_visit e h)
    · exact overridden_visit i (overridden_visit e (h.modify (baseName e)))
  | .slice _ l u k, _, _, h =>
    overridden_visitOption k (overridden_visitOption u (overridden_visitOption l h))
  | .call _ f args ks, _, _, h => by
    rw [visit, visit]
    exact (overridden_visitArguments ks (overridden_visitAll args (overridden_visit f h))).call
      rfl rules
  | .list _ es, _, _, h => overridden_visitAll es h
  | .tuple _ es, _, _, h => overridden_visitAll es h
  | .set _ es, _, _, h => overridden_visitAll es h
  | .dict _ es, _, _, h => overridden_visitValues es (overridden_visitKeys es h)
  | .listComp _ e gs, _, _, h => (overridden_visit e (overridden_visitGenerators gs h)).leave
  | .setComp _ e gs, _, _, h => (overridden_visit e (overridden_visitGenerators gs h)).leave
  | .genExp _ e gs, _, _, h => (overridden_visit e (overridden_visitGenerators gs h)).leave
  | .dictComp _ k v gs, _, _, h =>
    (overridden_visit v (overridden_visit k (overridden_visitGenerators gs h))).leave
  | .starred _ e, _, _, h => overridden_visit e h
  | .await _ e, _, _, h => overridden_visit e h
  | .yield _ e, _, _, h => overridden_visitOption e h
  | .yieldFrom _ e, _, _, h => overridden_visit e h

theorem overridden_visitAll : ∀ (es : List Expr) {s t : Names}, s.Overridden t →
    (visitAll c es s).Overridden (visitAll (c.extended rules) es t)
  | [], _, _, h => h
  | e :: es, _, _, h => overridden_visitAll es (overridden_visit e h)

theorem overridden_visitOption : ∀ (e : Option Expr) {s t : Names}, s.Overridden t →
    (visitOption c e s).Overridden (visitOption (c.extended rules) e t)
  | none, _, _, h => h
  | some e, _, _, h => overridden_visit e h

theorem overridden_visitArguments : ∀ (ks : List Argument) {s t : Names}, s.Overridden t →
    (visitArguments c ks s).Overridden (visitArguments (c.extended rules) ks t)
  | [], _, _, h => h
  | .mk _ e :: ks, _, _, h => overridden_visitArguments ks (overridden_visit e h)

theorem overridden_visitKeys : ∀ (es : List Syntax.Entry) {s t : Names}, s.Overridden t →
    (visitKeys c es s).Overridden (visitKeys (c.extended rules) es t)
  | [], _, _, h => h
  | .pair k _ :: es, _, _, h => overridden_visitKeys es (overridden_visit k h)
  | .unpack _ :: es, _, _, h => overridden_visitKeys es h

theorem overridden_visitValues : ∀ (es : List Syntax.Entry) {s t : Names}, s.Overridden t →
    (visitValues c es s).Overridden (visitValues (c.extended rules) es t)
  | [], _, _, h => h
  | .pair _ v :: es, _, _, h => overridden_visitValues es (overridden_visit v h)
  | .unpack v :: es, _, _, h => overridden_visitValues es (overridden_visit v h)

theorem overridden_visitGenerators : ∀ (gs : List Generator) {s t : Names}, s.Overridden t →
    (visitGenerators c gs s).Overridden (visitGenerators (c.extended rules) gs t)
  | [], _, _, h => h.enter .comprehension []
  | .mk _ target iter conditions :: gs, _, _, h =>
    overridden_visitInnerGenerators gs (overridden_visitAll conditions
      (overridden_visit target ((overridden_visit iter h).enter .comprehension [])))

theorem overridden_visitInnerGenerators : ∀ (gs : List Generator) {s t : Names}, s.Overridden t →
    (visitInnerGenerators c gs s).Overridden (visitInnerGenerators (c.extended rules) gs t)
  | [], _, _, h => h
  | .mk _ target iter conditions :: gs, _, _, h =>
    overridden_visitInnerGenerators gs (overridden_visitAll conditions
      (overridden_visit target (overridden_visit iter h)))

theorem overridden_visitParams : ∀ (ps : Params) {s t : Names}, s.Overridden t →
    (visitParams c ps s).Overridden (visitParams (c.extended rules) ps t)
  | .mk positionalOnly positional rest keywordOnly keywords, _, _, h =>
    have hdefaults := overridden_visitDefaults keywordOnly
      (overridden_visitDefaults positional (overridden_visitDefaults positionalOnly h))
    have hhints := overridden_visitHints keywordOnly
      (overridden_visitHints positional (overridden_visitHints positionalOnly hdefaults))
    overridden_visitHint keywords (overridden_visitHint rest hhints)

theorem overridden_visitDefaults : ∀ (ps : List Param) {s t : Names}, s.Overridden t →
    (visitDefaults c ps s).Overridden (visitDefaults (c.extended rules) ps t)
  | [], _, _, h => h
  | .mk _ _ d :: ps, _, _, h => overridden_visitDefaults ps (overridden_visitOption d h)

theorem overridden_visitHints : ∀ (ps : List Param) {s t : Names}, s.Overridden t →
    (visitHints c ps s).Overridden (visitHints (c.extended rules) ps t)
  | [], _, _, h => h
  | .mk _ a _ :: ps, _, _, h => overridden_visitHints ps (overridden_visitOption a h)

theorem overridden_visitHint : ∀ (p : Option Param) {s t : Names}, s.Overridden t →
    (visitHint c p s).Overridden (visitHint (c.extended rules) p t)
  | none, _, _, h => h
  | some (.mk _ a _), _, _, h => overridden_visitOption a h

end

mutual

theorem overridden_visitPattern : ∀ (p : Pattern) {s t : Names}, s.Overridden t →
    (visitPattern c p s).Overridden (visitPattern (c.extended rules) p t)
  | .value e, _, _, h => overridden_visit c rules e h
  | .singleton _, _, _, h => h
  | .sequence ps, _, _, h => overridden_visitPatterns ps h
  | .mapping keys ps rest, _, _, h =>
    (overridden_visitPatterns ps (overridden_visitAll c rules keys h)).bindAll rest.toList
  | .classOf cls ps _ qs, _, _, h =>
    overridden_visitPatterns qs (overridden_visitPatterns ps (overridden_visit c rules cls h))
  | .star id, _, _, h => h.bindAll id.toList
  | .as none id, _, _, h => h.bindAll id.toList
  | .as (some p) id, _, _, h => (overridden_visitPattern p h).bindAll id.toList
  | .or ps, _, _, h => overridden_visitPatterns ps h

theorem overridden_visitPatterns : ∀ (ps : List Pattern) {s t : Names}, s.Overridden t →
    (visitPatterns c ps s).Overridden (visitPatterns (c.extended rules) ps t)
  | [], _, _, h => h
  | p :: ps, _, _, h => overridden_visitPatterns ps (overridden_visitPattern p h)

end

theorem overridden_visitItems (items : List WithItem) {s t : Names} (h : s.Overridden t) :
    (visitItems c items s).Overridden (visitItems (c.extended rules) items t) := by
  induction items generalizing s t with
  | nil => exact h
  | cons item items ih =>
    exact ih (overridden_visitOption c rules item.target
      (overridden_visit c rules item.context h))

mutual

-- one case for each kind of statement, which goes through the parts in the order of the visit
theorem overridden_visitStmt : ∀ (r : Stmt) {s t : Names}, s.Overridden t →
    (visitStmt c r s).Overridden (visitStmt (c.extended rules) r t)
  | .expr _ e, _, _, h => overridden_visit c rules e h
  | .assign _ ts e, _, _, h => overridden_visit c rules e (overridden_visitAll c rules ts h)
  | .augAssign _ target _ e, _, _, h => by
    cases target
    case name line ctx id =>
      exact overridden_visit c rules (.name line ctx id) (overridden_visit c rules e (h.read id))
    all_goals exact overridden_visit c rules _ (overridden_visit c rules e h)
  | .annAssign _ target a none _, _, _, h => overridden_visit c rules a h
  | .annAssign _ target a (some e) _, _, _, h =>
    overridden_visit c rules target (overridden_visit c rules e (overridden_visit c rules a h))
  | .functionDef _ _ id ps body decorators returns, _, _, h =>
    have houter := overridden_visitOption c rules returns
      (overridden_visitParams c rules ps (overridden_visitAll c rules decorators h))
    (overridden_visitStmts body
      ((houter.bind id).enter .function (paramNames ps ++ localNames body))).leave
  | .classDef _ id bases ks body decorators, _, _, h =>
    have houter := overridden_visitArguments c rules ks
      (overridden_visitAll c rules bases (overridden_visitAll c rules decorators h))
    (overridden_visitStmts body ((houter.bind id).enter .function (localNames body))).leave
  | .return _ e, _, _, h => overridden_visitOption c rules e h
  | .delete _ ts, _, _, h => overridden_visitAll c rules ts h
  | .for _ _ target iter body orelse, _, _, h =>
    overridden_visitStmts orelse (overridden_visitStmts body
      (overridden_visit c rules iter (overridden_visit c rules target h)))
  | .while _ test body orelse, _, _, h =>
    overridden_visitStmts orelse (overridden_visitStmts body (overridden_visit c rules test h))
  | .if _ test body orelse, _, _, h =>
    overridden_visitStmts orelse (overridden_visitStmts body (overridden_visit c rules test h))
  | .with _ _ items body, _, _, h =>
    overridden_visitStmts body (overridden_visitItems c rules items h)
  | .match _ e cases, _, _, h => overridden_visitCases cases (overridden_visit c rules e h)
  | .raise _ e cause, _, _, h =>
    overridden_visitOption c rules cause (overridden_visitOption c rules e h)
  | .try _ _ body handlers orelse final, _, _, h =>
    overridden_visitStmts final (overridden_visitStmts orelse
      (overridden_visitHandlers handlers (overridden_visitStmts body h)))
  | .assert _ test m, _, _, h =>
    overridden_visitOption c rules m (overridden_visit c rules test h)
  | .import _ names, _, _, h => h.bindAll (aliasNames names)
  | .importFrom _ _ names _, _, _, h => h.bindAll (aliasNames names)
  | .global .., _, _, h => h
  | .nonlocal .., _, _, h => h
  | .pass _, _, _, h => h
  | .break _, _, _, h => h
  | .continue _, _, _, h => h

theorem overridden_visitStmts : ∀ (rs : List Stmt) {s t : Names}, s.Overridden t →
    (visitStmts c rs s).Overridden (visitStmts (c.extended rules) rs t)
  | [], _, _, h => h
  | r :: rs, _, _, h => overridden_visitStmts rs (overridden_visitStmt r h)

theorem overridden_visitHandlers : ∀ (hs : List Handler) {s t : Names}, s.Overridden t →
    (visitHandlers c hs s).Overridden (visitHandlers (c.extended rules) hs t)
  | [], _, _, h => h
  | .mk _ type _ body :: hs, _, _, h =>
    overridden_visitHandlers hs
      (overridden_visitStmts body (overridden_visitOption c rules type h))

theorem overridden_visitCases : ∀ (cs : List Case) {s t : Names}, s.Overridden t →
    (visitCases c cs s).Overridden (visitCases (c.extended rules) cs t)
  | [], _, _, h => h
  | .mk p guard body :: cs, _, _, h =>
    overridden_visitCases cs (overridden_visitStmts body
      (overridden_visitOption c rules guard (overridden_visitPattern c rules p h)))

end

end Visit

end NotebookSlice.Flow
