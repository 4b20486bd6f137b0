import NotebookSlice.Proofs.Flow.Forest

/-! # The kept part of code

What remains of a program when only some of its units are kept. A header keeps
what is kept of its blocks, and parts of which nothing is kept disappear. The
remainder is legal unless a `try` has lost its handlers.
-/

namespace NotebookSlice.Flow

open Syntax

/-! ## Handled statements -/

/-- The statements of the blocks of a statement that units are made of. -/
def parts : Stmt → List Stmt
  | .if _ _ body orelse | .while _ _ body orelse | .for _ _ _ _ body orelse => body ++ orelse
  | .with _ _ _ body => body
  | .try _ _ body handlers orelse final => body ++ handlers.flatMap Handler.body ++ orelse ++ final
  | _ => []

/-- The first statement is the second one, or stands in one of its blocks. -/
inductive Within : Stmt → Stmt → Prop

  | refl (s : Stmt) : Within s s

  | part {r s t : Stmt} : Within r s → s ∈ parts t → Within r t

/-- Has a `try` handlers, or else a `finally` part and no `else` part? -/
def isHandled : Stmt → Bool
  | .try _ _ _ handlers orelse final => !handlers.isEmpty || (orelse.isEmpty && !final.isEmpty)
  | _ => true

@[simp] theorem isHandled_try {span : Span} {group : Bool} {body orelse final : List Stmt}
    {handlers : List Handler} : isHandled (.try span group body handlers orelse final) = true ↔
      handlers ≠ [] ∨ orelse = [] ∧ final ≠ [] := by
  simp [isHandled]

/-- No `try` within the statement lacks its handlers. -/
def Handled (t : Stmt) : Prop := ∀ r, Within r t → isHandled r

theorem Handled.part {s t : Stmt} (h : Handled t) (hs : s ∈ parts t) : Handled s :=
  fun _ hr => h _ (hr.part hs)

theorem legal_part {s t : Stmt} (h : t.Legal) (hs : s ∈ parts t) : s.Legal := by
  cases h <;> simp only [parts, List.mem_append, List.mem_flatMap, List.not_mem_nil] at hs
  case simple h => cases t <;> simp_all [Stmt.isSimple]
  case «for» hb ho | «while» hb ho | «if» hb ho => exact hs.elim (hb s) (ho s)
  case «with» hb => exact hb s hs
  case «try» hb _ hhs ho hf _ =>
    rcases hs with ((hs | ⟨h, hh, hs⟩) | hs) | hs
    · exact hb s hs
    · exact hhs h hh s hs
    · exact ho s hs
    · exact hf s hs

theorem handled_of_legal {t : Stmt} (h : t.Legal) : Handled t := by
  intro r hr
  induction hr with
  | refl =>
    cases h
    case simple hs => cases r <;> simp_all [Stmt.isSimple, isHandled]
    case «try» hhandled => exact isHandled_try.mpr hhandled
    all_goals rfl
  | part _ hs ih => exact ih (legal_part h hs)

/-! ## The kept part -/

section Definition

variable (lines : Option (List String)) (keep : ℕ → Bool)

/-- What is kept of an `else` or `finally` part, and the index after it. A part without a line of
its own has no unit that could be dropped. -/
def keptClause (keyword : String) (after first : ℕ) (block : ℕ → List Stmt × ℕ) (next : ℕ) :
    List Stmt × ℕ :=
  match clauseLine lines keyword after first with
  | none => block next
  | some _ =>
    let (ss, stop) := block (next + 1)
    (if keep next then ss else [], stop)

def keptOptional (keyword : String) (after : ℕ) (ss : List Stmt) (block : ℕ → List Stmt × ℕ)
    (next : ℕ) : List Stmt × ℕ :=
  if ss.isEmpty then ([], next) else keptClause lines keep keyword after (blockFirst ss) block next

mutual

/-- What is kept of a statement, and the index after its units, the first of which has the index
`next`. -/
def kept : Stmt → (next : ℕ) → List Stmt × ℕ
  | .if span test body orelse, next =>
    let (body', stop) := keptBlock body (next + 1)
    let (orelse', stop) := keptElse body orelse stop
    (if keep next then [.if span test body' orelse'] else [], stop)
  | .while span test body orelse, next =>
    let (body', stop) := keptBlock body (next + 1)
    let (orelse', stop) := keptElse body orelse stop
    (if keep next then [.while span test body' orelse'] else [], stop)
  | .for span async target iter body orelse, next =>
    let (body', stop) := keptBlock body (next + 1)
    let (orelse', stop) := keptElse body orelse stop
    (if keep next then [.for span async target iter body' orelse'] else [], stop)
  | .with span async items body, next =>
    let (body', stop) := keptBlock body (next + 1)
    (if keep next then [.with span async items body'] else [], stop)
  | .try span group body handlers orelse final, next =>
    let (body', stop) := keptBlock body (next + 1)
    let (handlers', stop) := keptHandlers handlers stop
    let afterHandlers := handlers.foldl (fun _ h => blockLast h.body) (blockLast body)
    let (orelse', stop) :=
      keptOptional lines keep "else" afterHandlers orelse (fun next => keptBlock orelse next) stop
    let afterElse := if orelse.isEmpty then afterHandlers else blockLast orelse
    let (final', stop) :=
      keptOptional lines keep "finally" afterElse final (fun next => keptBlock final next) stop
    (if keep next then [.try span group body' handlers' orelse' final'] else [], stop)
  | s, next => (if keep next then [s] else [], next + 1)

def keptElse (body : List Stmt) : List Stmt → (next : ℕ) → List Stmt × ℕ
  | [], next => ([], next)
  | s :: ss, next =>
    keptClause lines keep "else" (blockLast body) (firstLine s)
      (fun next =>
        let (first, stop) := kept s next
        let (rest, stop) := keptBlock ss stop
        (first ++ rest, stop)) next

def keptBlock : List Stmt → (next : ℕ) → List Stmt × ℕ
  | [], next => ([], next)
  | s :: ss, next =>
    let (first, stop) := kept s next
    let (rest, stop) := keptBlock ss stop
    (first ++ rest, stop)

def keptHandlers : List Handler → (next : ℕ) → List Handler × ℕ
  | [], next => ([], next)
  | .mk span type id body :: hs, next =>
    let (body', stop) := keptBlock body (next + 1)
    let (rest, stop) := keptHandlers hs stop
    (if keep next then .mk span type id body' :: rest else rest, stop)

end

end Definition

/-! ## Legality -/

variable {lines : Option (List String)} {keep : ℕ → Bool} {c : Configuration}

/-- A kept unit with a block keeps a unit of the block. -/
def Complete (keep : ℕ → Bool) (units : List Statement) : Prop :=
  ∀ u ∈ units, keep u.index → u.body ≠ [] → ∃ i ∈ u.body, keep i

theorem Complete.of_subset {units all : List Statement} (h : Complete keep all)
    (hsub : units ⊆ all) : Complete keep units :=
  fun u hu => h u (hsub hu)

/-- What is kept of the given units: it is legal as far as it is handled. -/
structure KeptOf (keep : ℕ → Bool) (units : List Statement) (next : ℕ) (r : List Stmt × ℕ) :
    Prop where
  stop : r.2 = next + units.length
  legal : Complete keep units → ∀ t ∈ r.1, Handled t → t.Legal

/-- What is kept of a block: something, if one of its own units is kept. -/
structure KeptOfBlock (keep : ℕ → Bool) (block : Block) (next : ℕ) (r : List Stmt × ℕ) :
    Prop extends KeptOf keep block.2 next r where
  nonempty : Complete keep block.2 → (∃ i ∈ block.1, keep i) → r.1 ≠ []

theorem KeptOfBlock.ne_nil {block : Block} {next : ℕ} {r : List Stmt × ℕ}
    (h : KeptOfBlock keep block next r) {u : Statement} {rest : List Statement}
    (hbody : u.body = block.1) (hne : block.1 ≠ []) (hsub : block.2 ⊆ rest)
    (hcomplete : Complete keep (u :: rest)) (hkeep : keep u.index) : r.1 ≠ [] := by
  refine h.nonempty (hcomplete.of_subset (List.subset_cons_of_subset _ hsub)) ?_
  rw [← hbody]
  exact hcomplete u List.mem_cons_self hkeep (hbody ▸ hne)

theorem KeptOf.nil (next : ℕ) : KeptOf keep [] next ([], next) where
  stop := rfl
  legal _ _ ht := absurd ht List.not_mem_nil

theorem keptOf_append {units rest : List Statement} {next : ℕ} {first more : List Stmt × ℕ}
    (hfirst : KeptOf keep units next first) (hmore : KeptOf keep rest (next + units.length) more) :
    KeptOf keep (units ++ rest) next (first.1 ++ more.1, more.2) where
  stop := by rw [hmore.stop, List.length_append, Nat.add_assoc]
  legal := by
    intro hcomplete t ht hhandled
    rcases List.mem_append.mp ht with ht | ht
    · exact hfirst.legal (hcomplete.of_subset (List.subset_append_left ..)) t ht hhandled
    · exact hmore.legal (hcomplete.of_subset (List.subset_append_right ..)) t ht hhandled

theorem keptOf_clause {keyword : String} {after first owner next : ℕ}
    {block : (owner next : ℕ) → Block} {part : ℕ → List Stmt × ℕ}
    (h : ∀ owner next, KeptOf keep (block owner next).2 next (part next)) :
    KeptOf keep (clauseUnits lines keyword after first block owner next) next
      (keptClause lines keep keyword after first part next) := by
  unfold clauseUnits keptClause
  cases clauseLine lines keyword after first with
  | none => exact h owner next
  | some line =>
    have hblock := h next (next + 1)
    constructor
    · simp only [hblock.stop, List.length_cons]
      omega
    · intro hcomplete t ht
      simp only at ht
      split at ht
      · exact hblock.legal (hcomplete.of_subset (List.subset_cons_self _ _)) t ht
      · cases ht

theorem keptOf_optional {keyword : String} {after owner next : ℕ} {ss : List Stmt}
    {block : (owner next : ℕ) → Block} {part : ℕ → List Stmt × ℕ}
    (h : ∀ owner next, KeptOf keep (block owner next).2 next (part next)) :
    KeptOf keep
      (if ss.isEmpty then [] else clauseUnits lines keyword after (blockFirst ss) block owner next)
      next (keptOptional lines keep keyword after ss part next) := by
  unfold keptOptional
  split
  · exact .nil next
  · exact keptOf_clause h

theorem keptOf_header {u : Statement} {rest : List Statement} {next stop : ℕ} {t : Stmt}
    (hstop : stop = next + 1 + rest.length)
    (hlegal : Complete keep (u :: rest) → keep next → Handled t → t.Legal) :
    KeptOf keep (u :: rest) next (if keep next then [t] else [], stop) ∧
      (Complete keep (u :: rest) → keep next → (if keep next then [t] else []) ≠ []) := by
  refine ⟨⟨by simp only [hstop, List.length_cons]; omega, ?_⟩, ?_⟩
  · intro hcomplete t' ht hhandled
    simp only at ht
    split at ht
    · rename_i hkeep
      rw [List.mem_singleton] at ht
      subst ht
      exact hlegal hcomplete hkeep hhandled
    · cases ht
  · intro _ hkeep
    rw [if_pos hkeep]
    exact List.cons_ne_nil _ _

theorem keptOf_branches {u : Statement} {block : Block} {others : List Statement}
    {body orelse : List Stmt × ℕ} {next : ℕ} {t : Stmt} (hindex : u.index = next)
    (hbody : u.body = block.1) (hids : block.1 ≠ [])
    (hblock : KeptOfBlock keep block (next + 1) body)
    (helse : KeptOf keep others (next + 1 + block.2.length) orelse)
    (hparts : parts t = body.1 ++ orelse.1)
    (hlegal : body.1 ≠ [] → (∀ s ∈ body.1, s.Legal) → (∀ s ∈ orelse.1, s.Legal) → t.Legal) :
    KeptOf keep (u :: (block.2 ++ others)) next (if keep next then [t] else [], orelse.2) ∧
      (Complete keep (u :: (block.2 ++ others)) → keep next →
        (if keep next then [t] else []) ≠ []) := by
  refine keptOf_header ?_ fun hcomplete hkeep hhandled => hlegal ?_ ?_ ?_
  · rw [helse.stop, List.length_append]
    omega
  · exact hblock.ne_nil hbody hids (List.subset_append_left ..) hcomplete (hindex ▸ hkeep)
  · intro s hs
    refine hblock.legal (hcomplete.of_subset ?_) s hs
      (hhandled.part (hparts ▸ List.mem_append_left _ hs))
    exact List.subset_cons_of_subset _ (List.subset_append_left ..)
  · intro s hs
    refine helse.legal (hcomplete.of_subset ?_) s hs
      (hhandled.part (hparts ▸ List.mem_append_right _ hs))
    exact List.subset_cons_of_subset _ (List.subset_append_right ..)

theorem keptOf_try {u : Statement} {block : Block} {clauses elses finals : List Statement}
    {span : Span} {group : Bool} {handlers : List Handler} {next : ℕ}
    {body orelse final : List Stmt × ℕ} (hindex : u.index = next) (hbody : u.body = block.1)
    (hids : block.1 ≠ []) (hblock : KeptOfBlock keep block (next + 1) body)
    (hclauses : Complete keep clauses →
      ∀ h ∈ handlers, h.body ≠ [] ∧ ∀ s ∈ h.body, Handled s → s.Legal)
    (helse : KeptOf keep elses (next + 1 + block.2.length + clauses.length) orelse)
    (hfinal : KeptOf keep finals orelse.2 final) :
    KeptOf keep (u :: (block.2 ++ clauses ++ elses ++ finals)) next
        (if keep next then [.try span group body.1 handlers orelse.1 final.1] else [], final.2) ∧
      (Complete keep (u :: (block.2 ++ clauses ++ elses ++ finals)) → keep next →
        (if keep next then [Stmt.try span group body.1 handlers orelse.1 final.1] else []) ≠
          []) := by
  refine keptOf_header ?_ fun hcomplete hkeep hhandled => ?_
  · rw [hfinal.stop, helse.stop]
    simp only [List.length_append]
    omega
  have hsub {units : List Statement} (h : ∀ v ∈ units, v ∈ block.2 ++ clauses ++ elses ++ finals) :
      Complete keep units := hcomplete.of_subset (List.subset_cons_of_subset _ h)
  have hparts : ∀ s, s ∈ body.1 ∨ (∃ h ∈ handlers, s ∈ h.body) ∨ s ∈ orelse.1 ∨ s ∈ final.1 →
      Handled s := by
    intro s hs
    refine hhandled.part ?_
    simpa only [parts, List.mem_append, List.mem_flatMap, or_assoc] using hs
  refine .try ?_ ?_ ?_ ?_ ?_ ?_ (isHandled_try.mp (hhandled _ (.refl _)))
  · exact hblock.ne_nil hbody hids (fun v hv => by simp [hv]) hcomplete (hindex ▸ hkeep)
  · exact fun s hs => hblock.legal (hsub fun v hv => by simp [hv]) s hs (hparts s (Or.inl hs))
  · exact fun h hh => (hclauses (hsub fun v hv => by simp [hv]) h hh).1
  · exact fun h hh s hs => (hclauses (hsub fun v hv => by simp [hv]) h hh).2 s hs
      (hparts s (Or.inr (Or.inl ⟨h, hh, hs⟩)))
  · exact fun s hs => helse.legal (hsub fun v hv => by simp [hv]) s hs
      (hparts s (Or.inr (Or.inr (Or.inl hs))))
  · exact fun s hs => hfinal.legal (hsub fun v hv => by simp [hv]) s hs
      (hparts s (Or.inr (Or.inr (Or.inr hs))))

variable (lines keep c)

theorem keptOf_walk_all :
    (∀ s parent next, s.Legal →
      KeptOf keep (walk c lines s parent next) next (kept lines keep s next) ∧
      (Complete keep (walk c lines s parent next) → keep next → (kept lines keep s next).1 ≠ [])) ∧
    (∀ hs owner next, (∀ h ∈ hs, h.body ≠ []) → (∀ h ∈ hs, ∀ s ∈ h.body, s.Legal) →
      (keptHandlers lines keep hs next).2 = next + (walkHandlers c lines hs owner next).length ∧
      (Complete keep (walkHandlers c lines hs owner next) →
        ∀ h ∈ (keptHandlers lines keep hs next).1, h.body ≠ [] ∧
          ∀ s ∈ h.body, Handled s → s.Legal)) ∧
    (∀ ss owner next, (∀ s ∈ ss, s.Legal) →
      KeptOfBlock keep (walkBlock c lines ss owner next) next (keptBlock lines keep ss next) ∧
      (ss ≠ [] → (walkBlock c lines ss owner next).1 ≠ [])) ∧
    (∀ body ss owner next, (∀ s ∈ ss, s.Legal) →
      KeptOf keep (walkElse c lines body ss owner next) next
        (keptElse lines keep body ss next)) := by
  apply walk.mutual_induct
  case case1 =>
    intro span test body orelse parent next ids units heq hblock helse hlegal
    cases hlegal
    case simple hs => cases hs
    case «if» hne hb ho =>
      obtain ⟨hblock, hids⟩ := hblock hb
      rw [heq] at hblock hids
      simp only [walk, kept, heq, hblock.stop]
      exact keptOf_branches rfl rfl (hids hne) hblock (helse ho) rfl .if
  case case2 =>
    intro span test body orelse parent next ids units heq hblock helse hlegal
    cases hlegal
    case simple hs => cases hs
    case «while» hne hb ho =>
      obtain ⟨hblock, hids⟩ := hblock hb
      rw [heq] at hblock hids
      simp only [walk, kept, heq, hblock.stop]
      exact keptOf_branches rfl rfl (hids hne) hblock (helse ho) rfl .while
  case case3 =>
    intro span async target iter body orelse parent next ids units heq hblock helse hlegal
    cases hlegal
    case simple hs => cases hs
    case «for» hne hb ho =>
      obtain ⟨hblock, hids⟩ := hblock hb
      rw [heq] at hblock hids
      simp only [walk, kept, heq, hblock.stop]
      exact keptOf_branches rfl rfl (hids hne) hblock (helse ho) rfl .for
  case case4 =>
    intro span async items body parent next ids units heq hblock hlegal
    cases hlegal
    case simple hs => cases hs
    case «with» hne hb =>
      obtain ⟨hblock, hids⟩ := hblock hb
      rw [heq] at hblock hids
      simp only [walk, kept, heq, hblock.stop]
      refine keptOf_header rfl fun hcomplete hkeep hhandled => .with ?_ ?_
      · exact hblock.ne_nil rfl (hids hne) (fun _ h => h) hcomplete hkeep
      · intro s hs
        exact hblock.legal (hcomplete.of_subset (List.subset_cons_self ..)) s hs (hhandled.part hs)
  case case6 =>
    intro s parent next h1 h2 h3 h4 h5 hlegal
    rw [walk.eq_6 _ _ _ _ _ h1 h2 h3 h4 h5, kept.eq_6 _ _ _ _ h1 h2 h3 h4 h5]
    exact keptOf_header rfl fun _ _ _ => hlegal
  case case7 =>
    intro owner next _
    rw [walkBlock, keptBlock]
    refine ⟨⟨.nil next, ?_⟩, fun h => absurd rfl h⟩
    rintro - ⟨i, hi, -⟩
    exact absurd hi List.not_mem_nil
  case case8 =>
    intro s ss owner next walked ids units heq hs hss hlegal
    obtain ⟨hs, hsome⟩ := hs (hlegal s List.mem_cons_self)
    obtain ⟨hss, -⟩ := hss fun t ht => hlegal t (List.mem_cons_of_mem _ ht)
    rw [heq] at hss
    simp only [walkBlock, keptBlock, hs.stop]
    rw [heq]
    refine ⟨⟨keptOf_append hs hss.toKeptOf, ?_⟩, fun _ => List.cons_ne_nil _ _⟩
    rintro hcomplete ⟨i, hi, hkeep⟩
    rcases List.mem_cons.mp hi with rfl | hi
    · exact List.append_ne_nil_of_left_ne_nil
        (hsome (hcomplete.of_subset (List.subset_append_left ..)) hkeep) _
    · exact List.append_ne_nil_of_right_ne_nil _
        (hss.nonempty (hcomplete.of_subset (List.subset_append_right ..)) ⟨i, hi, hkeep⟩)
  case case9 =>
    intro body owner next _
    rw [walkElse, keptElse]
    exact .nil next
  case case10 =>
    intro body s ss owner next hs hss hlegal
    simp only [walkElse, keptElse]
    refine keptOf_clause fun owner next => ?_
    obtain ⟨hs, -⟩ := hs owner next (hlegal s List.mem_cons_self)
    obtain ⟨hss, -⟩ := hss owner next fun t ht => hlegal t (List.mem_cons_of_mem _ ht)
    simp only [hs.stop]
    exact keptOf_append hs hss.toKeptOf
  case case11 =>
    intro owner next _ _
    rw [walkHandlers, keptHandlers]
    exact ⟨rfl, fun _ _ hh => absurd hh List.not_mem_nil⟩
  case case12 =>
    intro span type id body hs owner next ids units heq hblock hhandlers hne hlegal
    obtain ⟨hblock, hids⟩ := hblock (hlegal _ List.mem_cons_self)
    have hids := hids (hne _ List.mem_cons_self)
    obtain ⟨hstop, hkept⟩ := hhandlers (fun h hh => hne h (List.mem_cons_of_mem _ hh))
      fun h hh => hlegal h (List.mem_cons_of_mem _ hh)
    rw [heq] at hblock hids
    simp only [walkHandlers, keptHandlers, heq, hblock.stop]
    constructor
    · rw [hstop, List.length_cons, List.length_append]
      omega
    · intro hcomplete h hh
      have hrests := hkept (hcomplete.of_subset
        (List.subset_cons_of_subset _ (List.subset_append_right ..))) h
      split at hh
      · rename_i hkeep
        rcases List.mem_cons.mp hh with rfl | hh
        · refine ⟨hblock.ne_nil rfl hids (List.subset_append_left ..) hcomplete hkeep, ?_⟩
          exact hblock.legal (hcomplete.of_subset
            (List.subset_cons_of_subset _ (List.subset_append_left ..)))
        · exact hrests hh
      · exact hrests hh
  case case5 =>
    intro span group body handlers orelse final parent next ids units heq hblock hhandlers
      helse hfinal hlegal
    cases hlegal
    case simple hs => cases hs
    case «try» hne hb hhne hhb ho hf _ =>
      obtain ⟨hblock, hids⟩ := hblock hb
      obtain ⟨hstop, hkept⟩ := hhandlers hhne hhb
      rw [heq] at hblock hids
      simp only [walk, kept, heq, hblock.stop, hstop, List.length_append, ← Nat.add_assoc]
      refine keptOf_try rfl rfl (hids hne) hblock hkept ?_ ?_
      · exact keptOf_optional fun owner next => (helse owner next ho).1.toKeptOf
      · rw [← (keptOf_optional fun owner next => (helse owner next ho).1.toKeptOf).stop]
        exact keptOf_optional fun owner next => (hfinal owner next hf).1.toKeptOf

def keptProgram (source : Option String) (ss : List Stmt) : List Stmt :=
  (keptBlock (source.map Text.lines) keep ss 0).1

variable {lines keep c}

theorem keptOf_walkAll {ss : List Stmt} (hlegal : ∀ s ∈ ss, s.Legal) (next : ℕ) :
    KeptOf keep (walkAll c lines ss next) next (keptBlock lines keep ss next) := by
  induction ss generalizing next with
  | nil => exact .nil next
  | cons s ss ih =>
    obtain ⟨hs, -⟩ := (keptOf_walk_all lines keep c).1 s none next (hlegal s List.mem_cons_self)
    simp only [walkAll, keptBlock, hs.stop]
    exact keptOf_append hs (ih (fun t ht => hlegal t (List.mem_cons_of_mem _ ht)) _)

/-- The kept part of a legal program is legal exactly if it is handled. -/
theorem legal_keptProgram_iff {source : Option String} {ss : List Stmt}
    (hlegal : ∀ s ∈ ss, s.Legal) (hcomplete : Complete keep (analyze c ss source)) :
    (∀ t ∈ keptProgram keep source ss, t.Legal) ↔
      ∀ t ∈ keptProgram keep source ss, Handled t :=
  ⟨fun h t ht => handled_of_legal (h t ht),
    fun h t ht => (keptOf_walkAll hlegal 0).legal hcomplete t ht (h t ht)⟩

end NotebookSlice.Flow
