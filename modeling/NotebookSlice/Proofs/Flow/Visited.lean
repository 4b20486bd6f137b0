import NotebookSlice.Proofs.Flow.OwnNames
import NotebookSlice.Proofs.Flow.Override

/-! # Visited mentions

A visit keeps a list of names for each open scope. It holds no name that the region
of the scope does not bind, and a name that the region declares global only once it
was bound there. So a load is read unless a region holds its name by then, and what
is bound in the module is written.
-/

namespace NotebookSlice.Flow

open Syntax

namespace Region

variable {kind : RegionKind} {params : List String} {ms : List Mention} {m : Mention}

@[simp] theorem kind_of : (Region.of kind params ms).kind = kind := rfl

theorem mem_bound_of_bind (hm : m ∈ ms) (huse : m.use = .bind) (hnil : m.regions = []) :
    m.name ∈ (Region.of kind params ms).bound := by
  rw [Region.of]
  split
  · exact mem_namesUsed.mpr ⟨m, hm, huse, hnil, rfl⟩
  · refine List.mem_append_right _ (mem_ownNames.mpr ⟨m, hm, ?_, rfl⟩)
    simp [Mention.isLocal, huse, hnil]

theorem mem_bound_of_walrus (hm : m ∈ ms) (huse : m.use = .walrus)
    (hall : ∀ r ∈ m.regions, r.kind = .comprehension) (hkind : kind ≠ .comprehension) :
    m.name ∈ (Region.of kind params ms).bound := by
  rw [Region.of, if_neg hkind]
  refine List.mem_append_right _ (mem_ownNames.mpr ⟨m, hm, ?_, rfl⟩)
  simpa [Mention.isLocal, huse] using hall

end Region

namespace Mention

/-- In code in the given regions, the region that the mention binds its name in has it as a name,
unless that is the module. -/
structure BoundIn (rs : List Region) (m : Mention) : Prop where
  bind : m.use = .bind → m.regions = [] → ∀ r ∈ rs.head?, m.name ∈ r.bound
  walrus : m.use = .walrus → (∀ r ∈ m.regions, r.kind = .comprehension) →
    ∀ r ∈ rs.find? (·.kind ≠ .comprehension), m.name ∈ r.bound

/-- In code in the given regions the mention binds a name of the module. -/
def BindsModule (rs : List Region) (m : Mention) : Prop :=
  m.use = .bind ∧ m.regions ++ rs = [] ∨
    m.use = .walrus ∧ ∀ r ∈ m.regions ++ rs, r.kind = .comprehension

/-- The mention binds its name in the first of the regions; the others are those around it. -/
def Rebinds (rs : List Region) (m : Mention) : Prop :=
  m.use = .bind ∧ m.regions = rs ∨
    m.use = .walrus ∧ ∃ inner, m.regions = inner ++ rs ∧ ∀ r ∈ inner, r.kind = .comprehension

end Mention

/-! ## Scopes and regions -/

/-- After the mentions the scope of a region can hold the name: it is a name of the region that is
not declared global, or it was bound there nevertheless. -/
structure Held (earlier : List Mention) (name : String) (r : Region) (outer : List Region) :
    Prop where
  listed : name ∈ r.listed
  rebound : name ∈ r.globals → ∃ m ∈ earlier, m.name = name ∧ m.Rebinds (r :: outer)

/-- After the mentions no scope of the regions holds the name. -/
def Free (earlier : List Mention) (name : String) (rs : List Region) : Prop :=
  ∀ inner r outer, rs = inner ++ r :: outer → ¬ Held earlier name r outer

/-- After the mentions the open scopes stand for the regions. -/
inductive ScopesFit (earlier : List Mention) : List Scope → List Region → Prop
  | nil : ScopesFit earlier [] []
  | cons {s : Scope} {r : Region} {ss : List Scope} {rs : List Region}
      (kind : s.kind = .comprehension ↔ r.kind = .comprehension)
      (names : ∀ name ∈ s.names, Held earlier name r rs) (rest : ScopesFit earlier ss rs) :
      ScopesFit earlier (s :: ss) (r :: rs)

section Scopes

variable {earlier later : List Mention} {name : String} {r : Region} {rs : List Region}
variable {scopes scopes' : List Scope} {m : Mention}

theorem Held.mono (h : Held earlier name r rs) (hsub : earlier ⊆ later) : Held later name r rs where
  listed := h.listed
  rebound hdeclared := by
    obtain ⟨m, hm, hname, hbinds⟩ := h.rebound hdeclared
    exact ⟨m, hsub hm, hname, hbinds⟩

namespace ScopesFit

theorem mono (h : ScopesFit earlier scopes rs) (hsub : earlier ⊆ later) :
    ScopesFit later scopes rs := by
  induction h with
  | nil => exact .nil
  | cons kind names _ ih => exact .cons kind (fun name hname => (names name hname).mono hsub) ih

theorem tail (h : ScopesFit earlier scopes (r :: rs)) : ScopesFit earlier scopes.tail rs := by
  cases h with
  | cons _ _ rest => exact rest

theorem exists_held (h : ScopesFit earlier scopes rs) {scope : Scope} (hscope : scope ∈ scopes)
    (hname : name ∈ scope.names) :
    ∃ inner r outer, rs = inner ++ r :: outer ∧ Held earlier name r outer := by
  induction h with
  | nil => cases hscope
  | @cons s r ss rs kind names _ ih =>
    rcases List.mem_cons.mp hscope with rfl | hscope
    · exact ⟨[], r, rs, rfl, names name hname⟩
    · obtain ⟨inner, r', outer, rfl, hheld⟩ := ih hscope
      exact ⟨r :: inner, r', outer, rfl, hheld⟩

theorem bindFunction (h : ScopesFit earlier scopes rs) (hm : m ∈ earlier) (huse : m.use = .walrus)
    (inner : List Region) (hregions : m.regions = inner ++ rs)
    (hinner : ∀ r ∈ inner, r.kind = .comprehension)
    (hbound : ∀ r ∈ rs.find? (·.kind ≠ .comprehension), m.name ∈ r.bound)
    (hbind : Names.bindFunction m.name scopes = some scopes') : ScopesFit earlier scopes' rs := by
  induction h generalizing scopes' inner with
  | nil => cases hbind
  | @cons s r ss rs kind names rest ih =>
    rw [Names.bindFunction] at hbind
    split at hbind
    · rename_i hfunction
      obtain rfl := Option.some.inj hbind
      have hr : r.kind ≠ .comprehension := by
        intro hr
        rw [kind.mpr hr] at hfunction
        cases hfunction
      refine .cons kind ?_ rest
      intro name hname
      rcases List.mem_insert_iff.mp hname with rfl | hname
      · exact ⟨List.mem_append_left _ (hbound r (by simp [hr])), fun _ =>
          ⟨m, hm, rfl, Or.inr ⟨huse, inner, hregions, hinner⟩⟩⟩
      · exact names name hname
    · rename_i hfunction
      obtain ⟨ss', hss', rfl⟩ := Option.map_eq_some_iff.mp hbind
      have hr : r.kind = .comprehension := by
        rw [← kind]
        cases hs : s.kind with
        | function => exact absurd hs hfunction
        | comprehension => rfl
      have hrest := ih (inner ++ [r]) (by simpa using hregions) ?_ ?_ hss'
      · exact .cons kind names hrest
      · intro r' hr'
        rcases List.mem_append.mp hr' with hr' | hr'
        · exact hinner r' hr'
        · rw [List.mem_singleton.mp hr', hr]
      · intro r' hr'
        exact hbound r' (by simpa [hr] using hr')

theorem bindFunction_eq_none (h : ScopesFit earlier scopes rs)
    (hrs : ∀ r ∈ rs, r.kind = .comprehension) : Names.bindFunction name scopes = none := by
  induction h with
  | nil => rfl
  | @cons s r ss rs kind names rest ih =>
    have hkind := kind.mpr (hrs r List.mem_cons_self)
    rw [Names.bindFunction, if_neg (by simp [hkind]),
      ih fun r hr => hrs r (List.mem_cons_of_mem _ hr)]
    rfl

end ScopesFit

namespace Names

variable {s : Names}

theorem not_isBound (h : ScopesFit earlier s.scopes rs) (hfree : Free earlier name rs) :
    s.isBound name = false := by
  rw [Bool.eq_false_iff]
  intro hbound
  obtain ⟨scope, hscope, hname⟩ := isBound_iff.mp hbound
  obtain ⟨inner, r, outer, heq, hheld⟩ := h.exists_held hscope hname
  exact hfree inner r outer heq hheld

theorem fits_bind (h : ScopesFit earlier s.scopes rs) (hm : m ∈ earlier) (huse : m.use = .bind)
    (hregions : m.regions = rs) (hbound : ∀ r ∈ rs.head?, m.name ∈ r.bound) :
    ScopesFit earlier (s.bind m.name).scopes rs := by
  rw [bind]
  cases hscopes : s.scopes with
  | nil => simpa [addWrite, hscopes] using h
  | cons scope scopes =>
    rw [hscopes] at h
    cases h with
    | cons kind names rest =>
      refine .cons kind ?_ rest
      intro name hname
      rcases List.mem_insert_iff.mp hname with rfl | hname
      · exact ⟨List.mem_append_left _ (hbound _ rfl), fun _ => ⟨m, hm, rfl, Or.inl ⟨huse, hregions⟩⟩⟩
      · exact names name hname

theorem fits_bindWalrus (h : ScopesFit earlier s.scopes rs) (hm : m ∈ earlier)
    (huse : m.use = .walrus) (hregions : m.regions = rs)
    (hbound : ∀ r ∈ rs.find? (·.kind ≠ .comprehension), m.name ∈ r.bound) :
    ScopesFit earlier (s.bindWalrus m.name).scopes rs := by
  rw [bindWalrus]
  split
  · rename_i heq
    exact h.bindFunction hm huse [] hregions (by simp) hbound heq
  · exact h

end Names

end Scopes

/-! ## Visited mentions -/

/-- In code in the given regions, after others, the mentions were visited. -/
structure Visited (rs : List Region) (earlier ms : List Mention) (s : Names) : Prop where
  fits : ScopesFit (earlier ++ ms.map (·.within rs)) s.scopes rs
  reads : ∀ before m after, ms = before ++ m :: after → m.use = .load → m.inBareTarget = false →
    Free (earlier ++ before.map (·.within rs)) m.name (m.regions ++ rs) → m.name ∈ s.reads
  writes : ∀ m ∈ ms, m.inBareTarget = false → m.BindsModule rs → m.name ∈ s.writes

/-- A step from `s` to `t` visits the mentions. -/
structure Covers (rs : List Region) (ms : List Mention) (s t : Names) : Prop where
  reads : s.reads ⊆ t.reads
  writes : s.writes ⊆ t.writes
  visited : ∀ earlier, ScopesFit earlier s.scopes rs → (∀ m ∈ ms, m.BoundIn rs) →
    Visited rs earlier ms t

namespace Covers

variable {rs : List Region} {ms ms' : List Mention} {s t u : Names} {id : String}

theorem refl (rs : List Region) (s : Names) : Covers rs [] s s where
  reads := List.Subset.refl _
  writes := List.Subset.refl _
  visited earlier hfits _ := ⟨by simpa using hfits, by simp, by simp⟩

theorem trans (h : Covers rs ms s t) (h' : Covers rs ms' t u) : Covers rs (ms ++ ms') s u where
  reads := List.Subset.trans h.reads h'.reads
  writes := List.Subset.trans h.writes h'.writes
  visited earlier hfits hbound := by
    have ht := h.visited earlier hfits fun m hm => hbound m (List.mem_append_left _ hm)
    have hu := h'.visited _ ht.fits fun m hm => hbound m (List.mem_append_right _ hm)
    refine ⟨by simpa using hu.fits, fun before m after heq hload hbare hfree => ?_,
      fun m hm hbare hbinds => ?_⟩
    · rcases List.append_eq_append_iff.mp heq with ⟨between, rfl, hms'⟩ | ⟨between, rfl, hafter⟩
      · exact hu.reads between m after hms' hload hbare (by simpa using hfree)
      · cases between with
        | nil =>
          rw [List.append_nil] at hu
          exact hu.reads [] m after hafter.symm hload hbare (by simpa using hfree)
        | cons m' between =>
          obtain ⟨rfl, -⟩ := List.cons.inj hafter
          exact h'.reads (ht.reads before m between rfl hload hbare hfree)
    · rcases List.mem_append.mp hm with hm | hm
      · exact h'.writes (ht.writes m hm hbare hbinds)
      · exact hu.writes m hm hbare hbinds

/-- Mentions that neither load a name nor bind it where the code runs. -/
theorem of_silent (hloads : ∀ m ∈ ms, m.use ≠ .load ∨ m.inBareTarget = true)
    (hbinds : ∀ m ∈ ms, m.use ≠ .bind ∧ m.use ≠ .walrus ∨ m.inBareTarget = true) (s : Names) :
    Covers rs ms s s where
  reads := List.Subset.refl _
  writes := List.Subset.refl _
  visited earlier hfits _ := by
    refine ⟨hfits.mono (List.subset_append_left ..), ?_, fun m hm hbare hbinds' => ?_⟩
    · rintro before m after rfl hload hbare -
      rcases hloads m (by simp) with h | h
      · exact absurd hload h
      · simp [hbare] at h
    · rcases hbinds m hm with h | h
      · rcases hbinds' with ⟨huse, -⟩ | ⟨huse, -⟩
        · exact absurd huse h.1
        · exact absurd huse h.2
      · simp [hbare] at h

theorem read (s : Names) (id : String) : Covers rs [.of .load id] s (s.read id) where
  reads := (Names.Below.read s id).reads
  writes := (Names.Below.read s id).writes
  visited earlier hfits _ := by
    refine ⟨?_, ?_, ?_⟩
    · have hlater := hfits.mono (List.subset_append_left earlier [.within rs (.of .load id)])
      rw [Names.read]
      split
      · exact hlater
      · exact hlater
    · intro before m after heq _ _ hfree
      obtain ⟨rfl, rfl, rfl⟩ : before = [] ∧ Mention.of .load id = m ∧ after = [] := by
        cases before <;> simp_all
      simp only [List.map_nil, List.append_nil, Mention.of, List.nil_append] at hfree ⊢
      rw [Names.read, Names.not_isBound hfits hfree, if_neg Bool.false_ne_true]
      exact List.mem_insert_self ..
    · simp [Mention.of, Mention.BindsModule]

theorem bind (s : Names) (id : String) : Covers rs [.of .bind id] s (s.bind id) where
  reads := (Names.Below.bind s id).reads
  writes := (Names.Below.bind s id).writes
  visited earlier hfits hbound := by
    have hlater := hfits.mono (List.subset_append_left earlier [.within rs (.of .bind id)])
    have hhead := (hbound _ List.mem_cons_self).bind rfl rfl
    refine ⟨Names.fits_bind hlater (List.mem_append_right _ List.mem_cons_self) rfl rfl hhead,
      ?_, ?_⟩
    · rintro (_ | ⟨m', before⟩) m after heq hload
      · obtain ⟨rfl, -⟩ := List.cons.inj heq
        cases hload
      · simp at heq
    · simp only [List.mem_singleton, Mention.of, forall_eq, Mention.BindsModule, List.nil_append,
        reduceCtorEq, false_and, or_false, true_and]
      rintro - rfl
      cases hscopes : s.scopes with
      | nil => simp [Names.bind, hscopes, Names.addWrite]
      | cons => rw [hscopes] at hfits; cases hfits

theorem bindWalrus (s : Names) (id : String) :
    Covers rs [.of .walrus id] s (s.bindWalrus id) where
  reads := (Names.Below.bindWalrus s id).reads
  writes := (Names.Below.bindWalrus s id).writes
  visited earlier hfits hbound := by
    have hlater := hfits.mono (List.subset_append_left earlier [.within rs (.of .walrus id)])
    have hfind := (hbound _ List.mem_cons_self).walrus rfl (by simp [Mention.of])
    refine ⟨Names.fits_bindWalrus hlater (List.mem_append_right _ List.mem_cons_self) rfl rfl hfind,
      ?_, ?_⟩
    · rintro (_ | ⟨m', before⟩) m after heq hload
      · obtain ⟨rfl, -⟩ := List.cons.inj heq
        cases hload
      · simp at heq
    · simp only [List.mem_singleton, Mention.of, forall_eq, Mention.BindsModule, List.nil_append,
        reduceCtorEq, false_and, false_or, true_and]
      intro _ hrs
      rw [Names.bindWalrus, hfits.bindFunction_eq_none hrs]
      exact List.mem_insert_self ..

theorem modifyAll (ids : List (Option String)) (s : Names) :
    Covers rs [] s (ids.foldl Names.modify s) where
  reads := (Names.Below.modifyAll ids s).reads
  writes := (Names.Below.modifyAll ids s).writes
  visited earlier hfits _ := ⟨by simpa [Names.scopes_modifyAll] using hfits, by simp, by simp⟩

theorem modify (id? : Option String) (s : Names) : Covers rs [] s (s.modify id?) :=
  modifyAll [id?] s

theorem matched (h : Covers rs ms s t) : Covers rs (ms.map .matched) s t where
  reads := h.reads
  writes := h.writes
  visited earlier hfits hbound := by
    have ht := h.visited earlier hfits fun m hm =>
      ⟨(hbound _ (List.mem_map_of_mem hm)).bind, (hbound _ (List.mem_map_of_mem hm)).walrus⟩
    have hwithin (ms : List Mention) :
        (ms.map Mention.matched).map (·.within rs) = ms.map (·.within rs) := by
      rw [List.map_map]
      rfl
    refine ⟨hwithin ms ▸ ht.fits, ?_, ?_⟩
    · intro before m after heq hload hbare hfree
      obtain ⟨before, rest, rfl, rfl, hrest⟩ := List.map_eq_append_iff.mp heq
      obtain ⟨m, after, rfl, rfl, rfl⟩ := List.map_eq_cons_iff.mp hrest
      exact ht.reads before m after rfl hload hbare (hwithin before ▸ hfree)
    · rintro _ hmem
      obtain ⟨m, hm, rfl⟩ := List.mem_map.mp hmem
      exact ht.writes m hm

/-- Code in a scope of its own. The region binds what the code mentions, except for what a
comprehension leaves to the regions around it. -/
theorem enclosed {kind : ScopeKind} {names params : List String} {region : RegionKind}
    (h : Covers (.of region params ms :: rs) ms (s.enter kind names) t)
    (hkind : kind = .comprehension ↔ region = .comprehension)
    (hnames : ∀ name ∈ names, name ∈ (Region.of region params ms).listed ∧
      name ∉ (Region.of region params ms).globals) :
    Covers rs (enclosed region params ms) s t.leave where
  reads := h.reads
  writes := h.writes
  visited earlier hfits hbound := by
    have hentered : ScopesFit earlier (s.enter kind names).scopes (.of region params ms :: rs) :=
      .cons hkind (fun name hname => ⟨(hnames name hname).1, fun hdeclared =>
        absurd hdeclared (hnames name hname).2⟩) hfits
    have hwithin (ms' : List Mention) :
        (ms'.map (·.under (.of region params ms))).map (·.within rs) =
          ms'.map (·.within (.of region params ms :: rs)) := by
      simp [Mention.under, Mention.within]
    have ht := h.visited earlier hentered fun m hm => ?_
    · refine ⟨?_, ?_, ?_⟩
      · rw [Flow.enclosed, hwithin]
        exact ht.fits.tail
      · intro before m after heq hload hbare hfree
        obtain ⟨before, rest, rfl, rfl, hrest⟩ := List.map_eq_append_iff.mp heq
        obtain ⟨m, after, rfl, rfl, rfl⟩ := List.map_eq_cons_iff.mp hrest
        refine ht.reads before m after rfl hload hbare ?_
        rw [hwithin] at hfree
        simpa [Mention.under] using hfree
      · rintro _ hmem hbare hbinds
        obtain ⟨m, hm, rfl⟩ := List.mem_map.mp hmem
        refine ht.writes m hm hbare (hbinds.imp ?_ ?_)
        · rintro ⟨-, hnil⟩
          simp [Mention.under] at hnil
        · rintro ⟨huse, hall⟩
          refine ⟨huse, fun r hr => hall r ?_⟩
          simpa [Mention.under] using hr
    · have hunder := hbound _ (List.mem_map_of_mem hm)
      refine ⟨fun huse hnil r hr => ?_, fun huse hall r hr => ?_⟩
      · obtain rfl : Region.of region params ms = r := by simpa using hr
        exact Region.mem_bound_of_bind hm huse hnil
      · by_cases hregion : region = .comprehension
        · refine hunder.walrus huse (fun r' hr' => ?_) r (by simpa [hregion] using hr)
          rcases List.mem_append.mp hr' with hr' | hr'
          · exact hall r' hr'
          · rw [List.mem_singleton.mp hr', Region.kind_of, hregion]
        · obtain rfl : Region.of region params ms = r := by simpa [hregion] using hr
          exact Region.mem_bound_of_walrus hm huse hall hregion

end Covers

theorem covers_visitRelation (c : Configuration) :
    VisitRelation c fun rs ms _ s t => Covers rs ms s t where
  refl := .refl
  trans := .trans
  silent ms' hsilent h := by
    refine h.trans (.of_silent (fun m hm => ?_) (fun m hm => ?_) _)
    · rcases hsilent m hm with hbare | ⟨hload, -⟩
      · exact Or.inr hbare
      · exact Or.inl hload
    · rcases hsilent m hm with hbare | ⟨-, hbind⟩
      · exact Or.inr hbare
      · exact Or.inl hbind
  matched := .matched
  read id h := h.trans (.read _ id)
  bind id h := h.trans (.bind _ id)
  bindWalrus id h := h.trans (.bindWalrus _ id)
  target _ _ h := (Covers.modify _ _).trans h
  call f args ks h := by
    rw [modifyByCall_eq]
    have hcall := h.trans (.modifyAll (modifiedByCall c f args ks) _)
    rwa [List.append_nil] at hcall
  function hkind hnames h h' := h.trans (h'.enclosed (by simp [hkind]) hnames)
  comprehension h := h.enclosed (by decide) (by simp)

end NotebookSlice.Flow
