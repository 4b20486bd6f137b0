import NotebookSlice.Notebook.History
import NotebookSlice.Proofs.Value.Same

/-! # Notebooks in format 4

What a notebook in format 4 has, as far as it is read. All its cells can be read
then. Reading joins the lines of sources and gives ids, and leaves the rest of
what the history of a notebook is made of.
-/

namespace NotebookSlice

/-! ## Results in order -/

theorem exists_mapM {ε α β : Type} {f : α → Except ε β} {Q : β → Prop} {as : List α}
    (h : ∀ a ∈ as, ∃ b, f a = .ok b ∧ Q b) : ∃ bs, as.mapM f = .ok bs ∧ ∀ b ∈ bs, Q b := by
  induction as with
  | nil => exact ⟨[], rfl, List.forall_mem_nil _⟩
  | cons a as ih =>
    obtain ⟨⟨b, hb, hQ⟩, has⟩ := List.forall_mem_cons.mp h
    obtain ⟨bs, hbs, hall⟩ := ih has
    refine ⟨b :: bs, ?_, List.forall_mem_cons.mpr ⟨hQ, hall⟩⟩
    rw [List.mapM_cons, hb, hbs]
    rfl

theorem forIn_ok {ε α : Type} {f : α → Except ε Unit} {as : List α} (h : ∀ a ∈ as, f a = .ok ()) :
    (forIn as () fun a _ => do f a; pure (.yield ())) = (.ok () : Except ε Unit) := by
  induction as with
  | nil => rfl
  | cons a as ih =>
    obtain ⟨ha, has⟩ := List.forall_mem_cons.mp h
    rw [List.forIn_cons, ha]
    exact ih has

/-! ## Keys of maps -/

namespace Value

theorem same_text_iff {v : Value} {s : String} : v.same (.text s) = true ↔ v = .text s := by
  constructor
  · intro h
    exact ((same_iff_of_isAtom rfl).mp (same_symm h)).symm
  · rintro rfl
    exact (same_iff_of_isAtom rfl).mpr rfl

theorem lookup_insertEntry (key other : String) (v : Value) (entries : List (Value × Value)) :
    lookup other (insertEntry (.text key) v entries) =
      if key = other then some v else lookup other entries := by
  induction entries with
  | nil => simp [insertEntry, lookup]
  | cons e entries ih =>
    obtain ⟨k, w⟩ := e
    by_cases hsame : k.same (.text key) = true
    · obtain rfl := same_text_iff.mp hsame
      rw [insertEntry, if_pos hsame, lookup, lookup]
      split <;> rfl
    · rw [insertEntry, if_neg hsame]
      cases k with
      | text s =>
        have hne : s ≠ key := fun h => hsame (same_text_iff.mpr (congrArg _ h))
        rw [lookup, lookup, ih]
        by_cases hs : s = other
        · rw [if_pos hs, if_pos hs, if_neg fun h => hne (hs.trans h.symm)]
        · rw [if_neg hs, if_neg hs]
      | _ => simpa only [lookup] using ih

end Value

/-! ## Kinds of values -/

namespace Value

def isNull : Value → Bool
  | null => true
  | _ => false

def isInt : Value → Bool
  | int _ => true
  | _ => false

def isText : Value → Bool
  | text _ => true
  | _ => false

def isMap : Value → Bool
  | map _ => true
  | _ => false

def items? : Value → Option (List Value)
  | list vs => some vs
  | _ => none

def entries? : Value → Option (List (Value × Value))
  | map es => some es
  | _ => none

variable {v : Value}

theorem isNull_iff : v.isNull = true ↔ v = .null := by
  cases v <;> simp [isNull]

theorem isInt_iff : v.isInt = true ↔ ∃ n, v = .int n := by
  cases v <;> simp [isInt]

theorem isText_iff : v.isText = true ↔ ∃ s, v = .text s := by
  cases v <;> simp [isText]

theorem isMap_iff : v.isMap = true ↔ ∃ es, v = .map es := by
  cases v <;> simp [isMap]

theorem items?_eq_some_iff {vs : List Value} : v.items? = some vs ↔ v = .list vs := by
  cases v <;> simp [items?]

theorem entries?_eq_some_iff {es : List (Value × Value)} : v.entries? = some es ↔ v = .map es := by
  cases v <;> simp [entries?]

end Value

namespace Notebook

/-! ## What is stored -/

/-- Is it a text or a list of texts, each of them with a property? -/
def isLines (p : String → Bool) : Value → Bool
  | .text s => p s
  | .list vs => vs.all fun
    | .text s => p s
    | _ => false
  | _ => false

/-- An output of a code cell. -/
@[mk_iff]
structure IsOutput (output : Value) : Prop where
  entries : output.isMap = true
  type : ∃ v ∈ output.get? "output_type", v.isText = true
  data : ∀ v ∈ output.get? "data", v.isMap = true
  text : ∀ v ∈ output.get? "text", isLines (fun _ => true) v = true

instance : DecidablePred IsOutput := fun output => decidable_of_iff' _ (isOutput_iff output)

/-- A cell. If it is one of code, its execution count is an integer or missing, and its source
holds no null character. -/
@[mk_iff]
structure IsCell (cell : Value) : Prop where
  entries : cell.isMap = true
  type : ∃ v ∈ cell.get? "cell_type", v.isText = true
  metadata : ∃ v ∈ cell.get? "metadata", v.isMap = true
  source : ∃ v ∈ cell.get? "source",
    isLines (fun s => !(isCode cell && s.toList.contains '\x00')) v = true
  attachments : ∀ v ∈ cell.get? "attachments", ∃ es ∈ v.entries?, es.all (·.2.isMap) = true
  count : isCode cell = true → ∀ v ∈ cell.get? "execution_count", v.isNull = true ∨ v.isInt = true
  outputs : isCode cell = true →
    ∃ vs ∈ (cell.get? "outputs").bind Value.items?, ∀ v ∈ vs, IsOutput v

instance : DecidablePred IsCell := fun cell => decidable_of_iff' _ (isCell_iff cell)

/-- A notebook in format 4. -/
@[mk_iff]
structure IsFormat4 (notebook : Value) : Prop where
  entries : notebook.isMap = true
  version : ∃ v ∈ notebook.get? "nbformat", v.same (.int 4) = true
  minor : ∃ v ∈ notebook.get? "nbformat_minor", v.isInt = true
  metadata : ∃ v ∈ notebook.get? "metadata", v.isMap = true
  cells : ∃ vs ∈ (notebook.get? "cells").bind Value.items?, ∀ v ∈ vs, IsCell v

instance : DecidablePred IsFormat4 := fun notebook => decidable_of_iff' _ (isFormat4_iff notebook)

/-- What the history needs of a cell that was read. -/
structure IsRead (cell : Value) : Prop where
  entries : ∃ es, cell = .map es
  type : (cell.get? "cell_type").isSome = true
  metadata : ∃ es, cell.get? "metadata" = some (.map es)
  source : ∃ s, cell.get? "source" = some (.text s) ∧ (isCode cell = true → '\x00' ∉ s.toList)
  count : isCode cell = true →
    cell.getD "execution_count" = .null ∨ ∃ n, cell.getD "execution_count" = .int n

theorem cases_of_isLines {p : String → Bool} {v : Value} (h : isLines p v = true) :
    (∃ s, v = .text s ∧ p s = true) ∨
      ∃ ss : List String, v = .list (ss.map .text) ∧ ∀ s ∈ ss, p s = true := by
  cases v with
  | text s => exact Or.inl ⟨s, rfl, h⟩
  | list vs =>
    refine Or.inr ?_
    induction vs with
    | nil => exact ⟨[], rfl, List.forall_mem_nil _⟩
    | cons v vs ih =>
      rw [isLines, List.all_cons, Bool.and_eq_true] at h
      obtain ⟨ss, hss, hall⟩ := ih h.2
      obtain ⟨s, rfl, hs⟩ : ∃ s, v = .text s ∧ p s = true := by
        cases v with
        | text s => exact ⟨s, rfl, h.1⟩
        | _ => exact absurd h.1 Bool.false_ne_true
      exact ⟨s :: ss, by rw [Value.list.inj hss, List.map_cons],
        List.forall_mem_cons.mpr ⟨hs, hall⟩⟩
  | _ => exact absurd h Bool.false_ne_true

/-! ## Joining -/

theorem joinTexts_ok (ss : List String) : ∃ s, joinTexts (ss.map .text) = .ok s ∧
    ∀ c ∈ s.toList, ∃ t ∈ ss, c ∈ t.toList := by
  induction ss with
  | nil => exact ⟨"", rfl, by simp⟩
  | cons t ss ih =>
    obtain ⟨s, hs, hchars⟩ := ih
    refine ⟨t ++ s, ?_, fun c hc => ?_⟩
    · rw [List.map_cons, joinTexts, hs]
      rfl
    · rw [String.toList_append, List.mem_append] at hc
      rcases hc with hc | hc
      · exact ⟨t, List.mem_cons_self, hc⟩
      · obtain ⟨u, hu, hc⟩ := hchars c hc
        exact ⟨u, List.mem_cons_of_mem _ hu, hc⟩

theorem joinKey_ok {key : String} {es : List (Value × Value)} {p : String → Bool}
    (hjoin : ∀ (s : String) (ss : List String), joinTexts (ss.map .text) = .ok s →
      (∀ t ∈ ss, p t = true) → p s = true)
    (h : ∀ v, Value.lookup key es = some v → isLines p v = true) :
    ∃ es', joinKey key (.map es) = .ok (.map es') ∧
      (∀ other, other ≠ key → Value.lookup other es' = Value.lookup other es) ∧
      ∀ v, Value.lookup key es = some v →
        ∃ s, Value.lookup key es' = some (.text s) ∧ p s = true := by
  have hget : (Value.map es).get? key = Value.lookup key es := rfl
  unfold joinKey
  rw [hget]
  cases hv : Value.lookup key es with
  | none => exact ⟨es, rfl, fun _ _ => rfl, by simp⟩
  | some v =>
    rcases cases_of_isLines (h v hv) with ⟨s, rfl, hs⟩ | ⟨ss, rfl, hss⟩
    · exact ⟨es, rfl, fun _ _ => rfl, fun _ _ => ⟨s, hv, hs⟩⟩
    · obtain ⟨s, hs, -⟩ := joinTexts_ok ss
      simp only [hs]
      refine ⟨_, rfl, fun other hne => ?_, fun _ _ => ⟨s, ?_, hjoin s ss hs hss⟩⟩
      · rw [Value.lookup_insertEntry, if_neg hne.symm]
      · rw [Value.lookup_insertEntry, if_pos rfl]

theorem joinBundle_ok {v : Value} (h : ∃ es, v = .map es) :
    ∃ w, joinBundle v = .ok w := by
  obtain ⟨es, rfl⟩ := h
  exact ⟨_, rfl⟩

theorem joinOutput_ok {output : Value} (h : IsOutput output) : ∃ v, joinOutput output = .ok v := by
  obtain ⟨es, rfl⟩ := Value.isMap_iff.mp h.entries
  obtain ⟨v, hv, hisText⟩ := h.type
  obtain ⟨t, rfl⟩ := Value.isText_iff.mp hisText
  have htype : (Value.map es).getD "output_type" = .text t := by rw [Value.getD, hv]; rfl
  rw [joinOutput]
  simp only [htype, Value.isKey, Bool.not_true, Bool.false_eq_true, if_false]
  split
  · cases hdata : (Value.map es).get? "data" with
    | none => exact ⟨_, rfl⟩
    | some data =>
      obtain ⟨w, hw⟩ := joinBundle_ok (Value.isMap_iff.mp (h.data data hdata))
      simp only [hw]
      exact ⟨_, rfl⟩
  · split
    · obtain ⟨es', hes', -⟩ := joinKey_ok (fun _ _ _ _ => rfl) h.text
      exact ⟨_, hes'⟩
    · exact ⟨_, rfl⟩

theorem joinOutputs_ok {vs : List Value} (h : ∀ v ∈ vs, IsOutput v) :
    ∃ w, joinOutputs (.list vs) = .ok w := by
  obtain ⟨ws, hws, -⟩ := exists_mapM (f := joinOutput) (Q := fun _ => True)
    fun v hv => (joinOutput_ok (h v hv)).imp fun _ hw => ⟨hw, trivial⟩
  rw [joinOutputs]
  simp only [hws]
  exact ⟨_, rfl⟩

theorem joinAttachments_ok {es : List (Value × Value)} (h : es.all (·.2.isMap) = true) :
    ∃ ws, es.mapM (fun e => joinBundle e.2) = .ok ws := by
  obtain ⟨ws, hws, -⟩ := exists_mapM (f := fun e : Value × Value => joinBundle e.2)
    (Q := fun _ => True) fun e he =>
      have hmap := Value.isMap_iff.mp (List.all_eq_true.mp h e he)
      (joinBundle_ok hmap).imp fun _ hw => ⟨hw, trivial⟩
  exact ⟨ws, hws⟩

/-- The keys of which the history is made are left when others are set. -/
theorem IsRead.of_lookup {cell : Value} (h : IsRead cell) {es : List (Value × Value)}
    (hkeys : ∀ key ∈ ["cell_type", "metadata", "source", "execution_count"],
      Value.lookup key es = cell.get? key) : IsRead (.map es) := by
  simp only [List.forall_mem_cons, List.not_mem_nil, false_implies, implies_true, and_true]
    at hkeys
  obtain ⟨htype, hmetadata, hsource, hcount⟩ := hkeys
  have hcode : isCode (.map es) = isCode cell := by
    rw [isCode, isCode, Value.getD, Value.getD, Value.get?, htype]
  refine ⟨⟨es, rfl⟩, ?_, ?_, ?_, ?_⟩
  · rw [Value.get?, htype]
    exact h.type
  · rw [Value.get?, hmetadata]
    exact h.metadata
  · rw [Value.get?, hsource, hcode]
    exact h.source
  · rw [Value.getD, Value.get?, hcount, hcode]
    exact h.count

/-- Without its outputs a cell has the source as one text, and all else as it was. -/
theorem exists_joined {cell : Value} (h : IsCell cell) :
    ∃ es, joinKey "source" cell = .ok (.map es) ∧ IsRead (.map es) := by
  obtain ⟨es, rfl⟩ := Value.isMap_iff.mp h.entries
  obtain ⟨v, hv, hlines⟩ := h.source
  have hconcat (s : String) (ss : List String) (hs : joinTexts (ss.map .text) = .ok s)
      (hss : ∀ t ∈ ss, (!(isCode (.map es) && t.toList.contains '\x00')) = true) :
      (!(isCode (.map es) && s.toList.contains '\x00')) = true := by
    obtain ⟨s', hs', hchars⟩ := joinTexts_ok ss
    obtain rfl := Except.ok.inj (hs.symm.trans hs')
    simp only [Bool.not_eq_true', Bool.and_eq_false_imp, List.contains_eq_mem,
      decide_eq_false_iff_not] at hss ⊢
    intro hcode hnull
    obtain ⟨t, ht, hc⟩ := hchars _ hnull
    exact hss t ht hcode hc
  obtain ⟨es', hjoin, hother, hsource⟩ := joinKey_ok hconcat
    fun w hw => Option.some.inj (hv.symm.trans hw) ▸ hlines
  have hget (key : String) (hne : key ≠ "source") :
      (Value.map es').get? key = (Value.map es).get? key := hother key hne
  have hcode : isCode (.map es') = isCode (.map es) := by
    rw [isCode, isCode, Value.getD, Value.getD, hget _ (by decide)]
  refine ⟨es', hjoin, ⟨es', rfl⟩, ?_, ?_, ?_, ?_⟩
  · obtain ⟨t, ht, -⟩ := h.type
    rw [hget _ (by decide), ht]
    rfl
  · obtain ⟨m, hm, hmap⟩ := h.metadata
    obtain ⟨ms, rfl⟩ := Value.isMap_iff.mp hmap
    exact ⟨ms, by rw [hget _ (by decide), hm]⟩
  · obtain ⟨s, hs, hnull⟩ := hsource v hv
    refine ⟨s, hs, fun hcode' => ?_⟩
    simpa [← hcode, hcode'] using hnull
  · rw [Value.getD, hget _ (by decide), hcode]
    intro hcode
    cases hcount : (Value.map es).get? "execution_count" with
    | none => exact Or.inl rfl
    | some n =>
      exact (h.count hcode n hcount).imp Value.isNull_iff.mp Value.isInt_iff.mp

theorem joinCell_ok {cell : Value} (h : IsCell cell) :
    ∃ v, joinCell cell = .ok v ∧ IsRead v := by
  obtain ⟨es', hjoin, hread⟩ := exists_joined h
  obtain ⟨es, rfl⟩ := Value.isMap_iff.mp h.entries
  rw [joinCell]
  simp only [hjoin, bind, Except.bind]
  cases hcode : isCode (.map es) with
  | false =>
    cases hattachments : (Value.map es).get? "attachments" with
    | none => exact ⟨_, rfl, hread⟩
    | some v =>
      obtain ⟨as, has, hmaps⟩ := h.attachments v hattachments
      obtain rfl := Value.entries?_eq_some_iff.mp has
      obtain ⟨ws, hws⟩ := joinAttachments_ok hmaps
      simp only [hws]
      exact ⟨_, rfl, hread⟩
  | true =>
    obtain ⟨vs, hbind, hvs⟩ := h.outputs hcode
    obtain ⟨v, houtputs, hitems⟩ := Option.bind_eq_some_iff.mp hbind
    obtain rfl := Value.items?_eq_some_iff.mp hitems
    obtain ⟨w, hw⟩ := joinOutputs_ok hvs
    have hset : IsRead (.map (Value.insertEntry (.text "outputs") w es')) := by
      refine hread.of_lookup fun key hkey => ?_
      rw [Value.lookup_insertEntry, if_neg]
      · rfl
      · rintro rfl
        revert hkey
        decide
    cases hattachments : (Value.map es).get? "attachments" with
    | none =>
      simp only [houtputs, hw]
      exact ⟨_, rfl, hset⟩
    | some v =>
      obtain ⟨as, has, hmaps⟩ := h.attachments v hattachments
      obtain rfl := Value.entries?_eq_some_iff.mp has
      obtain ⟨ws, hws⟩ := joinAttachments_ok hmaps
      simp only [hws, houtputs, hw]
      exact ⟨_, rfl, hset⟩

/-! ## Ids -/

theorem isRead_of_mem_giveIds {index : ℕ} {seen cells : List Value} (h : ∀ c ∈ cells, IsRead c) :
    ∀ c ∈ giveIds index seen cells, IsRead c := by
  induction cells generalizing index seen with
  | nil => exact List.forall_mem_nil _
  | cons cell cells ih =>
    obtain ⟨hcell, hcells⟩ := List.forall_mem_cons.mp h
    obtain ⟨es, rfl⟩ := hcell.entries
    have hset : IsRead (.map (Value.insertEntry (.text "id") (freshId index) es)) := by
      refine hcell.of_lookup fun key hkey => ?_
      rw [Value.lookup_insertEntry, if_neg]
      · rfl
      · rintro rfl
        revert hkey
        decide
    rw [giveIds]
    cases (Value.map es).get? "id" with
    | none => exact List.forall_mem_cons.mpr ⟨hset, ih hcells⟩
    | some id =>
      simp only
      split
      · exact List.forall_mem_cons.mpr ⟨hset, ih hcells⟩
      · exact List.forall_mem_cons.mpr ⟨hcell, ih hcells⟩

/-! ## Reading -/

theorem IsRead.checkMetadata_ok {cell : Value} (h : IsRead cell) : checkMetadata cell = .ok () := by
  obtain ⟨es, hes⟩ := h.metadata
  rw [checkMetadata, hes]

theorem hasIds_ok {notebook : Value} (h : IsFormat4 notebook) : ∃ b, hasIds notebook = .ok b := by
  obtain ⟨v, hv, hint⟩ := h.minor
  obtain ⟨n, rfl⟩ := Value.isInt_iff.mp hint
  rw [hasIds, hv]
  exact ⟨_, rfl⟩

theorem exists_cells {notebook : Value} (h : IsFormat4 notebook) :
    ∃ cells, Notebook.cells notebook = .ok cells ∧ ∀ c ∈ cells, IsRead c := by
  obtain ⟨vs, hbind, hcells⟩ := h.cells
  obtain ⟨v, hvs, hitems⟩ := Option.bind_eq_some_iff.mp hbind
  obtain rfl := Value.items?_eq_some_iff.mp hitems
  obtain ⟨cells, hjoined, hread⟩ := exists_mapM fun v hv => joinCell_ok (hcells v hv)
  obtain ⟨m, hmetadata, hmap⟩ := h.metadata
  obtain ⟨es, rfl⟩ := Value.isMap_iff.mp hmap
  have hcheck : checkMetadata notebook = .ok () := by rw [checkMetadata, hmetadata]
  have hall := forIn_ok fun c hc => (hread c hc).checkMetadata_ok
  obtain ⟨ids, hids⟩ := hasIds_ok h
  have hversion : ((notebook.get? "nbformat").getD (.int 1)).same (.int 4) = true := by
    obtain ⟨version, hsome, hsame⟩ := h.version
    rw [hsome]
    exact hsame
  refine ⟨if ids then giveIds 0 [] cells else cells, ?_, ?_⟩
  · obtain ⟨entries, rfl⟩ := Value.isMap_iff.mp h.entries
    rw [Notebook.cells]
    simp only [hversion, hvs, hjoined, hcheck, hids, Bool.not_true, Bool.false_eq_true, if_false,
      bind, Except.bind, pure, Except.pure]
    exact congrArg (Except.bind · fun _ => .ok (if ids then giveIds 0 [] cells else cells)) hall
  · split
    · exact isRead_of_mem_giveIds hread
    · exact hread

end Notebook

end NotebookSlice
