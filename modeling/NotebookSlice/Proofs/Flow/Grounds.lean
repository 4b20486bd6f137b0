import NotebookSlice.Proofs.Flow.Override

/-! # Every write has a ground

A name is written because the code binds or deletes it, or because the code modifies its
object. In the second case the object is evaluated by the same code, under the same
scopes, so the name is read as well: what was written to it before is not cut off.
-/

namespace NotebookSlice.Flow

open Syntax

/-- The name of a mention is bound in the module, if the code stands in the open scopes. -/
def Mention.Writes (m : Mention) (scopes : List Scope) : Prop :=
  m.isBinding = true ∧ (scopes = [] ∨ m.use = .walrus)

/-- From `s` to `t` no read is lost and the same scopes stay open. What is written on the way is
read too, unless it is bound in the module by a mention, or stray. -/
structure Grounded (ms : List Mention) (stray : List String) (s t : Names) : Prop where
  reads : s.reads ⊆ t.reads
  kinds : t.scopes.map Scope.kind = s.scopes.map Scope.kind
  writes : ∀ x ∈ t.writes, x ∈ s.writes ∨ x ∈ t.reads ∨
    s.isDeferred = false ∧ (x ∈ stray ∨ ∃ m ∈ ms, m.name = x ∧ m.Writes s.scopes)

namespace Names

variable {s t : Names}

theorem isDeferred_congr (h : t.scopes.map Scope.kind = s.scopes.map Scope.kind) :
    t.isDeferred = s.isDeferred := by
  have hany (u : Names) : u.isDeferred = (u.scopes.map Scope.kind).any (· == .function) := by
    rw [isDeferred, List.any_map]
    rfl
  rw [hany, hany, h]

theorem scopes_eq_nil_congr (h : t.scopes.map Scope.kind = s.scopes.map Scope.kind) :
    t.scopes = [] ↔ s.scopes = [] := by
  rw [← List.map_eq_nil_iff (f := Scope.kind), h, List.map_eq_nil_iff]

theorem kinds_bindFunction {id : String} {scopes scopes' : List Scope}
    (h : bindFunction id scopes = some scopes') :
    scopes'.map Scope.kind = scopes.map Scope.kind := by
  induction scopes generalizing scopes' with
  | nil => cases h
  | cons scope rest ih =>
    rw [bindFunction] at h
    split at h
    · obtain rfl := Option.some.inj h
      rfl
    · obtain ⟨rest', hrest, rfl⟩ := Option.map_eq_some_iff.mp h
      rw [List.map_cons, List.map_cons, ih hrest]

theorem isBound_modify (s : Names) (id? : Option String) (id : String) :
    (s.modify id?).isBound id = s.isBound id := by
  rw [isBound, isBound, scopes_modify]

theorem isDeferred_of_bindFunction {id : String} (h : bindFunction id s.scopes = none) :
    s.isDeferred = false := by
  rw [isDeferred]
  generalize s.scopes = scopes at h ⊢
  induction scopes with
  | nil => rfl
  | cons scope rest ih =>
    rw [bindFunction] at h
    split at h
    · cases h
    · rename_i hkind
      rw [List.any_cons, ih (Option.map_eq_none_iff.mp h), Bool.or_false]
      simpa using hkind

end Names

namespace Grounded

variable {ms ms' : List Mention} {stray stray' : List String} {s t u : Names}

theorem refl (s : Names) : Grounded [] [] s s :=
  ⟨List.Subset.refl _, rfl, fun _ hx => Or.inl hx⟩

theorem trans (h : Grounded ms stray s t) (h' : Grounded ms' stray' t u) :
    Grounded (ms ++ ms') (stray ++ stray') s u where
  reads := List.Subset.trans h.reads h'.reads
  kinds := h'.kinds.trans h.kinds
  writes x hx := by
    rcases h'.writes x hx with hx | hx | ⟨hnow, hx⟩
    · rcases h.writes x hx with hx | hx | ⟨hnow, hx⟩
      · exact Or.inl hx
      · exact Or.inr (Or.inl (h'.reads hx))
      · refine Or.inr (Or.inr ⟨hnow, hx.imp (List.mem_append_left _ ·) ?_⟩)
        rintro ⟨m, hm, hwrites⟩
        exact ⟨m, List.mem_append_left _ hm, hwrites⟩
    · exact Or.inr (Or.inl hx)
    · rw [Names.isDeferred_congr h.kinds] at hnow
      refine Or.inr (Or.inr ⟨hnow, hx.imp (List.mem_append_right _ ·) ?_⟩)
      rintro ⟨m, hm, hname, hbinds, hscopes⟩
      exact ⟨m, List.mem_append_right _ hm, hname, hbinds,
        hscopes.imp_left (Names.scopes_eq_nil_congr h.kinds).mp⟩

theorem more (h : Grounded ms stray s t) (ms' : List Mention) :
    Grounded (ms ++ ms') stray s t := by
  have hsame : Grounded ms' [] t t := ⟨List.Subset.refl _, rfl, fun _ hx => Or.inl hx⟩
  have hmore := h.trans hsame
  rwa [List.append_nil] at hmore

/-! ## Single steps -/

theorem read (h : Grounded ms stray s t) (id : String) : Grounded ms stray s (t.read id) := by
  rw [Names.read]
  split
  · exact h
  · refine ⟨fun x hx => List.mem_insert_of_mem (h.reads hx), h.kinds, fun x hx => ?_⟩
    exact (h.writes x hx).imp_right (Or.imp_left (List.mem_insert_of_mem ·))

theorem addWrite (h : Grounded ms stray s t) {m : Mention} (hnow : s.isDeferred = false)
    (hwrites : m.Writes s.scopes) : Grounded (ms ++ [m]) stray s (t.addWrite m.name) where
  reads := h.reads
  kinds := h.kinds
  writes x hx := by
    rcases List.mem_insert_iff.mp hx with rfl | hx
    · exact Or.inr (Or.inr ⟨hnow, Or.inr ⟨m, by simp, rfl, hwrites⟩⟩)
    · exact (h.more [m]).writes x hx

theorem bind (h : Grounded ms stray s t) (id : String) :
    Grounded (ms ++ [.of .bind id]) stray s (t.bind id) := by
  rw [Names.bind]
  split
  · rename_i hnil
    have hscopes := (Names.scopes_eq_nil_congr h.kinds).mp hnil
    exact h.addWrite (m := .of .bind id) (by rw [Names.isDeferred, hscopes]; rfl)
      ⟨rfl, Or.inl hscopes⟩
  · rename_i scope rest heq
    have hmore := h.more [.of .bind id]
    refine ⟨hmore.reads, ?_, hmore.writes⟩
    rw [← hmore.kinds, heq]
    rfl

theorem bindWalrus (h : Grounded ms stray s t) (id : String) :
    Grounded (ms ++ [.of .walrus id]) stray s (t.bindWalrus id) := by
  rw [Names.bindWalrus]
  split
  · rename_i scopes heq
    have hmore := h.more [.of .walrus id]
    exact ⟨hmore.reads, (Names.kinds_bindFunction heq).trans hmore.kinds, hmore.writes⟩
  · rename_i hnone
    refine h.addWrite (m := .of .walrus id) ?_ ⟨rfl, Or.inr rfl⟩
    rw [← Names.isDeferred_congr h.kinds]
    exact Names.isDeferred_of_bindFunction hnone

/-- Of the known names that are modified, none is new among the writes without being read. -/
theorem modifyAll (h : Grounded ms stray s t) {ids : List (Option String)}
    (hknown : ∀ id, some id ∈ ids → t.Knows id) :
    Grounded ms stray s (ids.foldl Names.modify t) where
  reads := by rw [Names.reads_modifyAll]; exact h.reads
  kinds := by rw [Names.scopes_modifyAll]; exact h.kinds
  writes x hx := by
    rw [Names.reads_modifyAll]
    rcases Names.mem_writes_modifyAll.mp hx with hx | ⟨hid, -, hfree⟩
    · exact h.writes x hx
    · rcases hknown x hid with hread | hwritten | hbound
      · exact Or.inr (Or.inl hread)
      · exact h.writes x hwritten
      · rw [hfree] at hbound
        cases hbound

theorem matched (h : Grounded ms stray s t) : Grounded (ms.map .matched) stray s t where
  reads := h.reads
  kinds := h.kinds
  writes x hx := by
    refine (h.writes x hx).imp_right (Or.imp_right (And.imp_right (Or.imp_right ?_)))
    rintro ⟨m, hm, hwrites⟩
    exact ⟨m.matched, List.mem_map_of_mem hm, hwrites⟩

/-! ## Scopes -/

/-- In a comprehension only `:=` binds a name of the code around it. -/
theorem comprehension (h : Grounded ms stray (s.enter .comprehension []) t) :
    Grounded (enclosed .comprehension [] ms) stray s t.leave where
  reads := h.reads
  kinds := by rw [Names.leave, List.map_tail, h.kinds]; rfl
  writes x hx := by
    refine (h.writes x hx).imp_right (Or.imp_right (And.imp_right (Or.imp_right ?_)))
    rintro ⟨m, hm, hname, hbinds, hnil | hwalrus⟩
    · cases hnil
    · refine ⟨_, List.mem_map_of_mem hm, hname, ?_, Or.inr hwalrus⟩
      simp only [Mention.isBinding, Mention.isLocal, hwalrus, Mention.under, List.all_append,
        Bool.and_eq_true] at hbinds ⊢
      exact ⟨⟨hbinds.1, rfl⟩, hbinds.2⟩

/-- The code of a function runs later, so it writes nothing but what it reads. -/
theorem function (h : Grounded ms stray s t) {names : List String}
    (hbody : Grounded ms' stray' (t.enter .function names) u) (hidden : List Mention) :
    Grounded (ms ++ hidden) stray s u.leave where
  reads := List.Subset.trans h.reads hbody.reads
  kinds := by
    rw [Names.leave, List.map_tail, hbody.kinds]
    exact h.kinds
  writes x hx := by
    rcases hbody.writes x hx with hx | hx | ⟨hnow, -⟩
    · exact (((h.more hidden).writes x hx).imp_right (Or.imp_left (hbody.reads ·)))
    · exact Or.inr (Or.inl hx)
    · simp [Names.isDeferred, Names.enter] at hnow

/-! ## Targets -/

/-- The object of an attribute or an element is read where no scope binds it, unless it is marked
as a target. -/
theorem read_or_baseTarget (c : Configuration) {e : Expr} {id : String}
    (hbase : baseName e = some id) (hfree : s.isBound id = false) :
    id ∈ (visit c e s).reads ∨ baseTarget e = some id := by
  fun_induction baseName e generalizing s with
  | case1 line ctx e attr ih =>
    rw [visit, baseTarget]
    refine ih hbase ?_
    split
    · exact hfree
    · rwa [Names.isBound_modify]
  | case2 line ctx e index ih =>
    rw [visit, baseTarget]
    refine Or.imp_left ((below_visit c index _).reads ·) (ih hbase ?_)
    split
    · exact hfree
    · rwa [Names.isBound_modify]
  | case3 line ctx id =>
    obtain rfl := Option.some.inj hbase
    rw [visit, baseTarget]
    split
    · rw [Names.read, hfree]
      exact Or.inl (List.mem_insert_self ..)
    · exact Or.inr rfl
  | case4 => cases hbase

/-- An attribute or an element that is bound or deleted modifies the object, which is evaluated
after that. -/
theorem target (c : Configuration) {ctx : Context} (hctx : ctx ≠ .load) {e : Expr}
    (h : Grounded ms stray (s.modify (baseName e)) (visit c e (s.modify (baseName e)))) :
    Grounded ms (strayBase ctx e ++ stray) s (visit c e (s.modify (baseName e))) where
  reads := by simpa using h.reads
  kinds := by simpa using h.kinds
  writes x hx := by
    rcases h.writes x hx with hx | hx | ⟨hnow, hx⟩
    · rcases Names.mem_writes_modify.mp hx with hx | ⟨hbase, hnow, hfree⟩
      · exact Or.inl hx
      · have hfree' : (s.modify (baseName e)).isBound x = false := by rwa [Names.isBound_modify]
        refine Or.inr ((read_or_baseTarget c hbase hfree').imp_right fun htarget => ⟨hnow, ?_⟩)
        refine Or.inl (List.mem_append_left _ ?_)
        rw [strayBase, if_neg hctx, htarget]
        exact List.mem_singleton_self x
    · exact Or.inr (Or.inl hx)
    · rw [Names.isDeferred, Names.scopes_modify, ← Names.isDeferred] at hnow
      rw [Names.scopes_modify] at hx
      exact Or.inr (Or.inr ⟨hnow, hx.imp_left (List.mem_append_right _ ·)⟩)

end Grounded

theorem grounded_visitRelation (c : Configuration) :
    VisitRelation c fun _ ms stray s t => Grounded ms stray s t where
  refl _ s := .refl s
  trans := .trans
  silent ms' _ h := h.more ms'
  matched := .matched
  read id h := (h.read id).more [.of .load id]
  bind id h := h.bind id
  bindWalrus id h := h.bindWalrus id
  target hctx _ h := h.target c hctx
  call f args ks h := by
    rw [modifyByCall_eq]
    exact h.modifyAll fun _ hid => knows_of_mem_modifiedByCall c hid _
  function _ _ h h' := h.function h' _
  comprehension h := h.comprehension

end NotebookSlice.Flow
