import NotebookSlice.Proofs.Flow.Mentions
import Mathlib.Data.List.Basic

/-! # Names collected in advance

The names of a function or class body are collected before the body is visited. All
of them are own names of the body, as its mentions have it. The converse fails: a
name that `:=` binds in a comprehension is missed, and declared names are left out.
-/

namespace NotebookSlice.Flow

open Syntax

theorem mem_ownNames {ms : List Mention} {id : String} :
    id ∈ ownNames ms ↔ ∃ m ∈ ms, m.isLocal = true ∧ m.name = id := by
  simp [ownNames, and_assoc]

theorem mem_namesUsed {use : Use} {ms : List Mention} {id : String} :
    id ∈ namesUsed use ms ↔ ∃ m ∈ ms, m.use = use ∧ m.regions = [] ∧ m.name = id := by
  simp [namesUsed, and_assoc]

/-- Is the name collected for the body? That is an own name, or one in a parenthesised annotation. -/
def Mention.isListed (m : Mention) : Bool :=
  m.isLocal || (m.use == .touch && m.regions.isEmpty)

def listedNames (ms : List Mention) : List String := (ms.filter (·.isListed)).map (·.name)

theorem mem_listedNames {ms : List Mention} {id : String} :
    id ∈ listedNames ms ↔ id ∈ ownNames ms ∨ id ∈ namesUsed .touch ms := by
  simp only [listedNames, ownNames, namesUsed, List.mem_map, List.mem_filter, Mention.isListed,
    Bool.or_eq_true]
  grind

@[simp] theorem listedNames_append (ms ms' : List Mention) :
    listedNames (ms ++ ms') = listedNames ms ++ listedNames ms' := by
  simp [listedNames]

@[simp] theorem listedNames_bindings (names : List String) :
    listedNames (bindings names) = names := by
  induction names with
  | nil => rfl
  | cons name names ih => exact congrArg (name :: ·) ih

theorem listedNames_handler (names : List String) :
    listedNames (names.map (.of .handler)) = names := by
  induction names with
  | nil => rfl
  | cons name names ih => exact congrArg (name :: ·) ih

theorem listedNames_map (f : Mention → Mention) (hlisted : ∀ m, (f m).isListed = m.isListed)
    (hname : ∀ m, (f m).name = m.name) (ms : List Mention) :
    listedNames (ms.map f) = listedNames ms := by
  simp [listedNames, List.filter_map, Function.comp_def, hlisted, hname]

@[simp] theorem listedNames_bare (ms : List Mention) : listedNames (ms.map .bare) = listedNames ms :=
  listedNames_map .bare (fun _ => rfl) (fun _ => rfl) ms

@[simp] theorem listedNames_matched (ms : List Mention) :
    listedNames (ms.map .matched) = listedNames ms :=
  listedNames_map .matched (fun _ => rfl) (fun _ => rfl) ms

theorem owned_append {names names' : List String} {ms ms' : List Mention}
    (h : names ⊆ listedNames ms) (h' : names' ⊆ listedNames ms') :
    names ++ names' ⊆ listedNames (ms ++ ms') := by
  rw [listedNames_append]
  exact List.append_subset.mpr ⟨List.subset_append_of_subset_left _ h,
    List.subset_append_of_subset_right _ h'⟩

mutual

theorem owned_boundIn : ∀ e : Expr, boundIn e ⊆ listedNames (mentions e)
  | .name _ ctx id => by
    rw [boundIn, mentions]
    cases ctx with
    | load => simp
    | store | delete => exact List.Subset.refl _
  | .literal .. => List.nil_subset _
  | .template _ parts => owned_boundInAll parts
  | .field _ value _ spec => owned_append (owned_boundIn value) (owned_boundInOption spec)
  | .unary _ _ e => owned_boundIn e
  | .binary _ l _ r => owned_append (owned_boundIn l) (owned_boundIn r)
  | .bool _ _ es => owned_boundInAll es
  | .compare _ l _ es => owned_append (owned_boundIn l) (owned_boundInAll es)
  | .conditional _ t b o =>
    owned_append (owned_append (owned_boundIn t) (owned_boundIn b)) (owned_boundIn o)
  | .lambda .. => List.nil_subset _
  | .walrus _ target value => by
    rw [boundIn, mentions, listedNames_append]
    refine List.cons_subset.mpr ⟨List.mem_append_right _ List.mem_cons_self, ?_⟩
    exact List.subset_append_of_subset_left _ (owned_boundIn value)
  | .attribute _ _ e _ => owned_boundIn e
  | .subscript _ _ e i => owned_append (owned_boundIn e) (owned_boundIn i)
  | .slice _ l u t =>
    owned_append (owned_append (owned_boundInOption l) (owned_boundInOption u))
      (owned_boundInOption t)
  | .call _ f args ks =>
    owned_append (owned_append (owned_boundIn f) (owned_boundInAll args))
      (owned_boundInArguments ks)
  | .list _ es => owned_boundInAll es
  | .tuple _ es => owned_boundInAll es
  | .set _ es => owned_boundInAll es
  | .dict _ es => owned_boundInEntries es
  | .listComp .. => List.nil_subset _
  | .setComp .. => List.nil_subset _
  | .genExp .. => List.nil_subset _
  | .dictComp .. => List.nil_subset _
  | .starred _ e => owned_boundIn e
  | .await _ e => owned_boundIn e
  | .yield _ e => owned_boundInOption e
  | .yieldFrom _ e => owned_boundIn e

theorem owned_boundInAll : ∀ es : List Expr, boundInAll es ⊆ listedNames (mentionsAll es)
  | [] => List.nil_subset _
  | e :: es => owned_append (owned_boundIn e) (owned_boundInAll es)

theorem owned_boundInOption : ∀ e : Option Expr, boundInOption e ⊆ listedNames (mentionsOption e)
  | none => List.nil_subset _
  | some e => owned_boundIn e

theorem owned_boundInArguments :
    ∀ ks : List Argument, boundInArguments ks ⊆ listedNames (mentionsArguments ks)
  | [] => List.nil_subset _
  | .mk _ e :: ks => owned_append (owned_boundIn e) (owned_boundInArguments ks)

/-- Keys and values are collected in turn, but visited one after the other. -/
theorem owned_boundInEntries :
    ∀ es : List Entry, boundInEntries es ⊆ listedNames (mentionsKeys es ++ mentionsValues es)
  | [] => List.nil_subset _
  | .pair k v :: es => by
    have hk := owned_boundIn k
    have hv := owned_boundIn v
    have hes := owned_boundInEntries es
    intro x hx
    simp only [boundInEntries, mentionsKeys, mentionsValues, listedNames_append,
      List.mem_append] at hx ⊢
    rcases hx with (hx | hx) | hx
    · exact Or.inl (Or.inl (hk hx))
    · exact Or.inr (Or.inl (hv hx))
    · rcases List.mem_append.mp (listedNames_append .. ▸ hes hx) with hx | hx
      · exact Or.inl (Or.inr hx)
      · exact Or.inr (Or.inr hx)
  | .unpack v :: es => by
    have hv := owned_boundIn v
    have hes := owned_boundInEntries es
    intro x hx
    simp only [boundInEntries, mentionsKeys, mentionsValues, listedNames_append,
      List.mem_append] at hx ⊢
    rcases hx with hx | hx
    · exact Or.inr (Or.inl (hv hx))
    · rcases List.mem_append.mp (listedNames_append .. ▸ hes hx) with hx | hx
      · exact Or.inl hx
      · exact Or.inr (Or.inr hx)

end

mutual

theorem owned_boundInPattern : ∀ p : Pattern, boundInPattern p ⊆ listedNames (mentionsPattern p)
  | .value e => owned_boundIn e
  | .singleton _ => List.nil_subset _
  | .sequence ps => owned_boundInPatterns ps
  | .mapping keys ps rest => by
    have h := owned_append (owned_boundInAll keys) (owned_boundInPatterns ps)
    rw [boundInPattern, mentionsPattern, listedNames_append, listedNames_bindings, List.append_assoc]
    exact List.append_subset.mpr ⟨List.subset_append_right ..,
      List.subset_append_of_subset_left _ h⟩
  | .classOf cls ps _ qs =>
    owned_append (owned_append (owned_boundIn cls) (owned_boundInPatterns ps))
      (owned_boundInPatterns qs)
  | .star id | .as none id => by
    rw [boundInPattern, mentionsPattern, listedNames_bindings]
    exact List.Subset.refl _
  | .as (some p) id => by
    rw [boundInPattern, mentionsPattern, listedNames_append, listedNames_bindings]
    exact List.append_subset.mpr ⟨List.subset_append_right ..,
      List.subset_append_of_subset_left _ (owned_boundInPattern p)⟩
  | .or ps => owned_boundInPatterns ps

theorem owned_boundInPatterns :
    ∀ ps : List Pattern, boundInPatterns ps ⊆ listedNames (mentionsPatterns ps)
  | [] => List.nil_subset _
  | p :: ps => owned_append (owned_boundInPattern p) (owned_boundInPatterns ps)

end

theorem owned_boundInItems (is : List WithItem) :
    boundInItems is ⊆ listedNames (mentionsItems is) := by
  induction is with
  | nil => exact List.nil_subset _
  | cons i is ih =>
    exact owned_append (owned_append (owned_boundIn i.context) (owned_boundInOption i.target)) ih

theorem owned_mentionsAnnotated (simple : Bool) (t : Expr) :
    boundIn t ⊆ listedNames (mentionsAnnotated simple t) := by
  fun_cases mentionsAnnotated simple t with
  | case1 line ctx id =>
    rw [boundIn]
    split
    · exact List.nil_subset _
    · cases simple <;> exact List.Subset.refl _
  | case2 =>
    rw [listedNames_bare]
    exact owned_boundIn t

mutual

theorem owned_boundByStmt : ∀ s : Stmt, boundByStmt s ⊆ listedNames (mentionsStmt s)
  | .expr _ e => owned_boundIn e
  | .assign _ ts e => owned_append (owned_boundInAll ts) (owned_boundIn e)
  | .augAssign _ t _ e => by
    rw [boundByStmt, mentionsStmt, List.append_assoc, listedNames_append, listedNames_append]
    exact List.subset_append_of_subset_right _ (List.append_subset.mpr
      ⟨List.subset_append_of_subset_right _ (owned_boundIn t),
        List.subset_append_of_subset_left _ (owned_boundIn e)⟩)
  | .annAssign _ t a none simple => by
    rw [boundByStmt, mentionsStmt, boundInOption, List.append_nil, listedNames_append]
    exact List.append_subset.mpr
      ⟨List.subset_append_of_subset_right _ (owned_mentionsAnnotated simple t),
        List.subset_append_of_subset_left _ (owned_boundIn a)⟩
  | .annAssign _ t a (some e) _ => by
    rw [boundByStmt, mentionsStmt, boundInOption, List.append_assoc, listedNames_append]
    exact List.append_subset.mpr
      ⟨List.subset_append_of_subset_right _ (owned_boundIn t),
        List.subset_append_of_subset_left _ (owned_append (owned_boundIn a) (owned_boundIn e))⟩
  | .functionDef _ _ id .. | .classDef _ id .. => by
    rw [boundByStmt, mentionsStmt, listedNames_append, listedNames_append, listedNames_bindings]
    exact List.subset_append_of_subset_left _ (List.subset_append_right ..)
  | .return _ e => owned_boundInOption e
  | .delete _ ts => owned_boundInAll ts
  | .for _ _ t i body orelse =>
    owned_append (owned_append (owned_append (owned_boundIn t) (owned_boundIn i))
      (owned_boundByStmts body)) (owned_boundByStmts orelse)
  | .while _ t body orelse | .if _ t body orelse =>
    owned_append (owned_append (owned_boundIn t) (owned_boundByStmts body))
      (owned_boundByStmts orelse)
  | .with _ _ items body => owned_append (owned_boundInItems items) (owned_boundByStmts body)
  | .match _ e cases => by
    rw [boundByStmt, mentionsStmt]
    refine owned_append (owned_boundIn e) ?_
    rw [listedNames_matched]
    exact owned_boundByCases cases
  | .raise _ e cause => owned_append (owned_boundInOption e) (owned_boundInOption cause)
  | .try _ _ body handlers orelse final =>
    owned_append (owned_append (owned_append (owned_boundByStmts body)
      (owned_boundByHandlers handlers)) (owned_boundByStmts orelse)) (owned_boundByStmts final)
  | .assert _ t m => owned_append (owned_boundIn t) (owned_boundInOption m)
  | .import _ names | .importFrom _ _ names _ => by
    rw [boundByStmt, mentionsStmt, listedNames_bindings]
    exact List.Subset.refl _
  | .global .. | .nonlocal .. | .pass _ | .break _ | .continue _ => List.nil_subset _

theorem owned_boundByStmts : ∀ ss : List Stmt, boundByStmts ss ⊆ listedNames (mentionsStmts ss)
  | [] => List.nil_subset _
  | s :: ss => owned_append (owned_boundByStmt s) (owned_boundByStmts ss)

theorem owned_boundByHandlers :
    ∀ hs : List Handler, boundByHandlers hs ⊆ listedNames (mentionsHandlers hs)
  | [] => List.nil_subset _
  | .mk _ type id body :: hs => by
    rw [boundByHandlers, mentionsHandlers]
    refine owned_append (owned_append ?_ (owned_boundByStmts body)) (owned_boundByHandlers hs)
    rw [listedNames_append, listedNames_handler]
    exact List.append_subset.mpr ⟨List.subset_append_right ..,
      List.subset_append_of_subset_left _ (owned_boundInOption type)⟩

theorem owned_boundByCases :
    ∀ cs : List Case, boundByCases cs ⊆ listedNames (mentionsCases cs)
  | [] => List.nil_subset _
  | .mk p guard body :: cs =>
    owned_append (owned_append (owned_append (owned_boundInPattern p) (owned_boundInOption guard))
      (owned_boundByStmts body)) (owned_boundByCases cs)

end

/-! ## Expressions -/

/-- Neither names of handlers nor global declarations are among the mentions. -/
def Plain (ms : List Mention) : Prop := ∀ m ∈ ms, m.use ≠ .handler ∧ m.use ≠ .global

@[simp] theorem plain_nil : Plain [] := by simp [Plain]

@[simp] theorem plain_append {ms ms' : List Mention} :
    Plain (ms ++ ms') ↔ Plain ms ∧ Plain ms' :=
  List.forall_mem_append

@[simp] theorem plain_singleton {use : Use} {id : String} :
    Plain [.of use id] ↔ use ≠ .handler ∧ use ≠ .global := by
  simp [Plain, Mention.of]

@[simp] theorem plain_enclosed {kind : RegionKind} {params : List String}
    {ms : List Mention} : Plain (enclosed kind params ms) ↔ Plain ms := by
  simp [Plain, enclosed, Mention.under]

theorem plain_mentions_all :
    (∀ e, Plain (mentions e)) ∧ (∀ gs, Plain (mentionsGenerators gs)) ∧
    (∀ gs, Plain (mentionsInnerGenerators gs)) ∧ (∀ es, Plain (mentionsAll es)) ∧
    (∀ gs, Plain (mentionsFirst gs)) ∧ (∀ es, Plain (mentionsValues es)) ∧
    (∀ es, Plain (mentionsKeys es)) ∧ (∀ ks, Plain (mentionsArguments ks)) ∧
    (∀ ps, Plain (mentionsParams ps)) ∧ (∀ p, Plain (mentionsHint p)) ∧
    (∀ e, Plain (mentionsOption e)) ∧ (∀ ps, Plain (mentionsHints ps)) ∧
    (∀ ps, Plain (mentionsDefaults ps)) := by
  apply mentions.mutual_induct
  case case1 =>
    intro line ctx id
    rw [mentions, plain_singleton]
    cases ctx <;> simp
  all_goals
    intros
    simp_all [mentions, mentionsGenerators, mentionsInnerGenerators, mentionsAll, mentionsFirst,
      mentionsValues, mentionsKeys, mentionsArguments, mentionsParams, mentionsHint,
      mentionsOption, mentionsHints, mentionsDefaults]

@[simp] theorem plain_mentions (e : Expr) : Plain (mentions e) :=
  plain_mentions_all.1 e

@[simp] theorem plain_mentionsAll (es : List Expr) : Plain (mentionsAll es) :=
  plain_mentions_all.2.2.2.1 es

@[simp] theorem plain_mentionsArguments (ks : List Argument) :
    Plain (mentionsArguments ks) :=
  plain_mentions_all.2.2.2.2.2.2.2.1 ks

@[simp] theorem plain_mentionsParams (ps : Params) : Plain (mentionsParams ps) :=
  plain_mentions_all.2.2.2.2.2.2.2.2.1 ps

@[simp] theorem plain_mentionsOption (e : Option Expr) : Plain (mentionsOption e) :=
  plain_mentions_all.2.2.2.2.2.2.2.2.2.2.1 e

@[simp] theorem plain_bindings (names : List String) : Plain (bindings names) := by
  simp [Plain, bindings, Mention.of]

@[simp] theorem plain_mentionsItems (is : List WithItem) : Plain (mentionsItems is) := by
  induction is with
  | nil => exact plain_nil
  | cons i is ih => simp [mentionsItems, ih]

@[simp] theorem plain_mentionsUpdated (t : Expr) : Plain (mentionsUpdated t) := by
  fun_cases mentionsUpdated t <;> simp

@[simp] theorem plain_mentionsAnnotated (simple : Bool) (t : Expr) :
    Plain (mentionsAnnotated simple t) := by
  fun_cases mentionsAnnotated simple t with
  | case1 => cases simple <;> simp
  | case2 => simpa [Plain, Mention.bare] using plain_mentions t

/-! ## Declarations -/

@[simp] theorem namesUsed_append (use : Use) (ms ms' : List Mention) :
    namesUsed use (ms ++ ms') = namesUsed use ms ++ namesUsed use ms' := by
  simp [namesUsed]

@[simp] theorem namesUsed_enclosed (use : Use) (kind : RegionKind) (params : List String)
    (ms : List Mention) : namesUsed use (enclosed kind params ms) = [] := by
  simp [namesUsed, enclosed, List.filter_map, Function.comp_def, Mention.under]

@[simp] theorem namesUsed_matched (use : Use) (ms : List Mention) :
    namesUsed use (ms.map .matched) = namesUsed use ms := by
  simp [namesUsed, List.filter_map, Function.comp_def, Mention.matched]

theorem Plain.namesUsed_global {ms : List Mention} (h : Plain ms) :
    namesUsed .global ms = [] := by
  rw [List.eq_nil_iff_forall_not_mem]
  intro name hname
  obtain ⟨m, hm, huse, -⟩ := mem_namesUsed.mp hname
  exact (h m hm).2 huse

theorem namesUsed_of (use use' : Use) (names : List String) :
    namesUsed use (names.map (.of use')) = if use' = use then names else [] := by
  induction names with
  | nil => simp [namesUsed]
  | cons name names ih =>
    rw [List.map_cons, ← List.singleton_append, namesUsed_append, ih]
    split
    · rename_i heq
      simp [namesUsed, Mention.of, heq]
    · rename_i hne
      simp [namesUsed, Mention.of, hne]

theorem declared_of_plain {ms : List Mention} (h : Plain ms) (names : List String) :
    namesUsed .global ms ⊆ names := by
  rw [h.namesUsed_global]
  exact List.nil_subset _

theorem declared_append {names names' : List String} {ms ms' : List Mention}
    (h : namesUsed .global ms ⊆ names) (h' : namesUsed .global ms' ⊆ names') :
    namesUsed .global (ms ++ ms') ⊆ names ++ names' := by
  rw [namesUsed_append]
  exact List.append_subset.mpr ⟨List.subset_append_of_subset_left _ h,
    List.subset_append_of_subset_right _ h'⟩

theorem declared_append_plain {names : List String} {ms ms' : List Mention} (h : Plain ms)
    (h' : namesUsed .global ms' ⊆ names) : namesUsed .global (ms ++ ms') ⊆ names := by
  rwa [namesUsed_append, h.namesUsed_global, List.nil_append]

theorem plain_mentionsPattern_all :
    (∀ p, Plain (mentionsPattern p)) ∧ (∀ ps, Plain (mentionsPatterns ps)) := by
  apply mentionsPattern.mutual_induct
  all_goals
    intros
    simp_all [mentionsPattern, mentionsPatterns]

mutual

theorem declaredByStmt_subset : ∀ s : Stmt, namesUsed .global (mentionsStmt s) ⊆ declaredByStmt s
  | .for _ _ t i body orelse =>
    declared_append (declared_append_plain (by simp) (declaredByStmts_subset body))
      (declaredByStmts_subset orelse)
  | .while _ t body orelse | .if _ t body orelse =>
    declared_append (declared_append_plain (by simp) (declaredByStmts_subset body))
      (declaredByStmts_subset orelse)
  | .with _ _ items body => declared_append_plain (by simp) (declaredByStmts_subset body)
  | .match _ e cases => by
    rw [mentionsStmt, declaredByStmt]
    refine declared_append_plain (by simp) ?_
    rw [namesUsed_matched]
    exact declaredByCases_subset cases
  | .try _ _ body handlers orelse final =>
    declared_append (declared_append (declared_append (declaredByStmts_subset body)
      (declaredByHandlers_subset handlers)) (declaredByStmts_subset orelse))
      (declaredByStmts_subset final)
  | .functionDef .. | .classDef .. => by
    rw [mentionsStmt]
    refine declared_append_plain (by simp) ?_
    rw [namesUsed_enclosed]
    exact List.nil_subset _
  | .global _ names => by
    rw [mentionsStmt, declaredByStmt, namesUsed_of, if_pos rfl]
    exact List.Subset.refl _
  | .nonlocal _ names => by
    rw [mentionsStmt, namesUsed_of, if_neg (by decide)]
    exact List.nil_subset _
  | .annAssign _ _ _ none _ | .annAssign _ _ _ (some _) _ =>
    declared_of_plain (by simp [mentionsStmt]) _
  | .expr .. | .assign .. | .augAssign .. | .return .. | .delete .. | .raise .. | .assert ..
  | .import .. | .importFrom .. | .pass _ | .break _ | .continue _ =>
    declared_of_plain (by simp [mentionsStmt]) _

theorem declaredByStmts_subset :
    ∀ ss : List Stmt, namesUsed .global (mentionsStmts ss) ⊆ declaredByStmts ss
  | [] => List.nil_subset _
  | s :: ss => declared_append (declaredByStmt_subset s) (declaredByStmts_subset ss)

theorem declaredByHandlers_subset :
    ∀ hs : List Handler, namesUsed .global (mentionsHandlers hs) ⊆ declaredByHandlers hs
  | [] => List.nil_subset _
  | .mk _ type id body :: hs => by
    have htype : namesUsed .global (mentionsOption type) = [] :=
      Plain.namesUsed_global (by simp)
    rw [mentionsHandlers, List.append_assoc (mentionsOption type)]
    refine declared_append ?_ (declaredByHandlers_subset hs)
    rw [namesUsed_append, namesUsed_append, htype, namesUsed_of, if_neg (by decide)]
    exact declaredByStmts_subset body

theorem declaredByCases_subset :
    ∀ cs : List Case, namesUsed .global (mentionsCases cs) ⊆ declaredByCases cs
  | [] => List.nil_subset _
  | .mk p guard body :: cs =>
    declared_append (declared_append_plain (by simp [plain_mentionsPattern_all.1])
      (declaredByStmts_subset body)) (declaredByCases_subset cs)

end

/-- The names that the analysis can hold for a region. -/
def Region.listed (r : Region) : List String := r.bound ++ r.touched

theorem listed_of_mem_params {kind : RegionKind} {params : List String} {ms : List Mention}
    {name : String} (hkind : kind ≠ .comprehension) (h : name ∈ params) :
    name ∈ (Region.of kind params ms).listed ∧ name ∉ (Region.of kind params ms).globals := by
  constructor
  · rw [Region.listed, Region.of, if_neg hkind]
    exact List.mem_append_left _ (List.mem_append_left _ h)
  · simp [Region.of, h]

/-- The names that are collected for a body are not declared global. -/
theorem listed_of_mem_localNames {name : String} {body : List Stmt} {kind : RegionKind}
    {params : List String} (hkind : kind ≠ .comprehension) (h : name ∈ localNames body) :
    name ∈ (Region.of kind params (mentionsStmts body)).listed ∧
      name ∉ (Region.of kind params (mentionsStmts body)).globals := by
  obtain ⟨hbound, hdeclared⟩ := List.mem_filter.mp h
  constructor
  · rw [Region.listed, Region.of, if_neg hkind]
    refine List.mem_append.mpr ((mem_listedNames.mp (owned_boundByStmts body hbound)).imp_left ?_)
    exact List.mem_append_right _
  · intro hglobal
    have hname := declaredByStmts_subset body (List.mem_filter.mp hglobal).1
    simp [hname] at hdeclared

end NotebookSlice.Flow
