import NotebookSlice.Proofs.Flow.OwnNames
import NotebookSlice.Proofs.Flow.StrayTargets

/-! # Induction over visits

A visit goes through the code and takes a step for each name, each scope, each target
and each call. A relation between the names before and after that all these steps keep
is one of whole visits, whatever is visited: expressions, patterns, and statements with
the bodies of functions and classes.
-/

namespace NotebookSlice.Flow

open Syntax

/-- Nothing is done for the mention: it neither loads a name nor binds it where the code runs. -/
def Mention.IsSilent (m : Mention) : Prop :=
  m.inBareTarget = true ∨ m.use ≠ .load ∧ m.use ≠ .bind ∧ m.use ≠ .walrus

/-- The steps of visits keep the relation. It is given the regions that the code stands in, the
mentions and the stray names in the code, and the names before and after the visit. -/
structure VisitRelation (c : Configuration)
    (R : List Region → List Mention → List String → Names → Names → Prop) : Prop where
  refl (rs : List Region) (s : Names) : R rs [] [] s s
  trans {rs : List Region} {ms ms' : List Mention} {stray stray' : List String} {s t u : Names} :
    R rs ms stray s t → R rs ms' stray' t u → R rs (ms ++ ms') (stray ++ stray') s u
  silent {rs : List Region} {ms : List Mention} {stray : List String} {s t : Names}
    (ms' : List Mention) (hsilent : ∀ m ∈ ms', m.IsSilent) :
    R rs ms stray s t → R rs (ms ++ ms') stray s t
  matched {rs : List Region} {ms : List Mention} {stray : List String} {s t : Names} :
    R rs ms stray s t → R rs (ms.map .matched) stray s t
  read {rs : List Region} {ms : List Mention} {stray : List String} {s t : Names} (id : String) :
    R rs ms stray s t → R rs (ms ++ [.of .load id]) stray s (t.read id)
  bind {rs : List Region} {ms : List Mention} {stray : List String} {s t : Names} (id : String) :
    R rs ms stray s t → R rs (ms ++ [.of .bind id]) stray s (t.bind id)
  bindWalrus {rs : List Region} {ms : List Mention} {stray : List String} {s t : Names}
    (id : String) :
    R rs ms stray s t → R rs (ms ++ [.of .walrus id]) stray s (t.bindWalrus id)
  target {rs : List Region} {ms : List Mention} {stray : List String} {s : Names} {ctx : Context}
    (hctx : ctx ≠ .load) (e : Expr) :
    R rs ms stray (s.modify (baseName e)) (visit c e (s.modify (baseName e))) →
    R rs ms (strayBase ctx e ++ stray) s (visit c e (s.modify (baseName e)))
  call {rs : List Region} {ms : List Mention} {stray : List String} {s : Names} (f : Expr)
    (args : List Expr) (ks : List Argument) :
    R rs ms stray s (visitArguments c ks (visitAll c args (visit c f s))) →
    R rs ms stray s
      (modifyByCall c f args ks (visitArguments c ks (visitAll c args (visit c f s))))
  function {rs : List Region} {ms ms' : List Mention} {stray stray' : List String}
    {s t u : Names} {kind : RegionKind} {params names : List String}
    (hkind : kind ≠ .comprehension)
    (hnames : ∀ name ∈ names, name ∈ (Region.of kind params ms').listed ∧
      name ∉ (Region.of kind params ms').globals) :
    R rs ms stray s t → R (.of kind params ms' :: rs) ms' stray' (t.enter .function names) u →
    R rs (ms ++ enclosed kind params ms') stray s u.leave
  comprehension {rs : List Region} {ms : List Mention} {stray : List String} {s t : Names} :
    R (.of .comprehension [] ms :: rs) ms stray (s.enter .comprehension []) t →
    R rs (enclosed .comprehension [] ms) stray s t.leave

namespace VisitRelation

variable {c : Configuration} {R : List Region → List Mention → List String → Names → Names → Prop}
variable (h : VisitRelation c R)
include h

theorem bindAll {rs : List Region} {ms : List Mention} {stray : List String} {s t : Names}
    (ids : List String) (hst : R rs ms stray s t) :
    R rs (ms ++ bindings ids) stray s (t.bindAll ids) := by
  induction ids generalizing ms t with
  | nil => rwa [bindings, List.map_nil, List.append_nil]
  | cons id ids ih =>
    have hrest := ih (h.bind id hst)
    rwa [List.append_assoc] at hrest

/-! ## Expressions -/

mutual

theorem of_visit : ∀ (rs : List Region) (e : Expr) (s : Names),
    R rs (mentions e) (strays e) s (visit c e s)
  | rs, .name _ ctx id, s => by
    rw [visit, mentions]
    split
    · exact h.read id (h.refl rs s)
    · exact h.bind id (h.refl rs s)
  | rs, .literal .., s => h.refl rs s
  | rs, .template _ parts, s => of_visitAll rs parts s
  | rs, .field _ value _ spec, s => h.trans (of_visit rs value s) (of_visitOption rs spec _)
  | rs, .unary _ _ e, s => of_visit rs e s
  | rs, .binary _ l _ r, s => h.trans (of_visit rs l s) (of_visit rs r _)
  | rs, .bool _ _ es, s => of_visitAll rs es s
  | rs, .compare _ l _ es, s => h.trans (of_visit rs l s) (of_visitAll rs es _)
  | rs, .conditional _ t b o, s =>
    h.trans (h.trans (of_visit rs t s) (of_visit rs b _)) (of_visit rs o _)
  | rs, .lambda _ ps body, s =>
    h.function (by decide) (fun _ => listed_of_mem_params (by decide)) (of_visitParams rs ps s)
      (of_visit _ body _)
  | rs, .walrus _ target value, s => h.bindWalrus target (of_visit rs value s)
  | rs, .attribute _ ctx e _, s => by
    rw [visit, strays]
    split
    · rename_i hload
      rw [strayBase, if_pos hload]
      exact of_visit rs e s
    · rename_i hctx
      exact h.target hctx e (of_visit rs e _)
  | rs, .subscript _ ctx e i, s => by
    rw [visit, strays]
    refine h.trans ?_ (of_visit rs i _)
    split
    · rename_i hload
      rw [strayBase, if_pos hload]
      exact of_visit rs e s
    · rename_i hctx
      exact h.target hctx e (of_visit rs e _)
  | rs, .slice _ l u t, s =>
    h.trans (h.trans (of_visitOption rs l s) (of_visitOption rs u _)) (of_visitOption rs t _)
  | rs, .call _ f args ks, s =>
    h.call f args ks
      (h.trans (h.trans (of_visit rs f s) (of_visitAll rs args _)) (of_visitArguments rs ks _))
  | rs, .list _ es, s => of_visitAll rs es s
  | rs, .tuple _ es, s => of_visitAll rs es s
  | rs, .set _ es, s => of_visitAll rs es s
  | rs, .dict _ es, s => h.trans (of_visitKeys rs es s) (of_visitValues rs es _)
  | rs, .listComp _ e gs, s | rs, .setComp _ e gs, s | rs, .genExp _ e gs, s => by
    obtain ⟨t, hfirst, hgs⟩ := of_visitGenerators rs gs s
    exact h.trans hfirst (h.comprehension (h.trans (hgs _) (of_visit _ e _)))
  | rs, .dictComp _ k v gs, s => by
    obtain ⟨t, hfirst, hgs⟩ := of_visitGenerators rs gs s
    exact h.trans hfirst
      (h.comprehension (h.trans (h.trans (hgs _) (of_visit _ k _)) (of_visit _ v _)))
  | rs, .starred _ e, s => of_visit rs e s
  | rs, .await _ e, s => of_visit rs e s
  | rs, .yield _ e, s => of_visitOption rs e s
  | rs, .yieldFrom _ e, s => of_visit rs e s

theorem of_visitAll : ∀ (rs : List Region) (es : List Expr) (s : Names),
    R rs (mentionsAll es) (straysAll es) s (visitAll c es s)
  | rs, [], s => h.refl rs s
  | rs, e :: es, s => h.trans (of_visit rs e s) (of_visitAll rs es _)

theorem of_visitOption : ∀ (rs : List Region) (e : Option Expr) (s : Names),
    R rs (mentionsOption e) (straysOption e) s (visitOption c e s)
  | rs, none, s => h.refl rs s
  | rs, some e, s => of_visit rs e s

theorem of_visitArguments : ∀ (rs : List Region) (ks : List Argument) (s : Names),
    R rs (mentionsArguments ks) (straysArguments ks) s (visitArguments c ks s)
  | rs, [], s => h.refl rs s
  | rs, .mk _ e :: ks, s => h.trans (of_visit rs e s) (of_visitArguments rs ks _)

theorem of_visitKeys : ∀ (rs : List Region) (es : List Syntax.Entry) (s : Names),
    R rs (mentionsKeys es) (straysKeys es) s (visitKeys c es s)
  | rs, [], s => h.refl rs s
  | rs, .pair k _ :: es, s => h.trans (of_visit rs k s) (of_visitKeys rs es _)
  | rs, .unpack _ :: es, s => of_visitKeys rs es s

theorem of_visitValues : ∀ (rs : List Region) (es : List Syntax.Entry) (s : Names),
    R rs (mentionsValues es) (straysValues es) s (visitValues c es s)
  | rs, [], s => h.refl rs s
  | rs, .pair _ v :: es, s | rs, .unpack v :: es, s =>
    h.trans (of_visit rs v s) (of_visitValues rs es _)

/-- The first iterable is visited before the scope of the comprehension is entered, which then
stays open. -/
theorem of_visitGenerators : ∀ (rs : List Region) (gs : List Generator) (s : Names),
    ∃ t, R rs (mentionsFirst gs) (straysFirst gs) s t ∧
      ∀ r, R (r :: rs) (mentionsGenerators gs) (straysGenerators gs) (t.enter .comprehension [])
        (visitGenerators c gs s)
  | rs, [], s => ⟨s, h.refl rs s, fun r => h.refl (r :: rs) _⟩
  | rs, .mk _ target iter conditions :: gs, s =>
    ⟨visit c iter s, of_visit rs iter s, fun r =>
      h.trans (h.trans (of_visit (r :: rs) target _) (of_visitAll (r :: rs) conditions _))
        (of_visitInnerGenerators (r :: rs) gs _)⟩

theorem of_visitInnerGenerators : ∀ (rs : List Region) (gs : List Generator) (s : Names),
    R rs (mentionsInnerGenerators gs) (straysInnerGenerators gs) s (visitInnerGenerators c gs s)
  | rs, [], s => h.refl rs s
  | rs, .mk _ target iter conditions :: gs, s =>
    h.trans (h.trans (h.trans (of_visit rs iter s) (of_visit rs target _))
      (of_visitAll rs conditions _)) (of_visitInnerGenerators rs gs _)

theorem of_visitParams : ∀ (rs : List Region) (ps : Params) (s : Names),
    R rs (mentionsParams ps) (straysParams ps) s (visitParams c ps s)
  | rs, .mk positionalOnly positional rest keywordOnly keywords, s =>
    have hdefaults := h.trans (h.trans (of_visitDefaults rs positionalOnly s)
      (of_visitDefaults rs positional _)) (of_visitDefaults rs keywordOnly _)
    have hhints := h.trans (h.trans (h.trans hdefaults (of_visitHints rs positionalOnly _))
      (of_visitHints rs positional _)) (of_visitHints rs keywordOnly _)
    h.trans (h.trans hhints (of_visitHint rs rest _)) (of_visitHint rs keywords _)

theorem of_visitDefaults : ∀ (rs : List Region) (ps : List Param) (s : Names),
    R rs (mentionsDefaults ps) (straysDefaults ps) s (visitDefaults c ps s)
  | rs, [], s => h.refl rs s
  | rs, .mk _ _ d :: ps, s => h.trans (of_visitOption rs d s) (of_visitDefaults rs ps _)

theorem of_visitHints : ∀ (rs : List Region) (ps : List Param) (s : Names),
    R rs (mentionsHints ps) (straysHints ps) s (visitHints c ps s)
  | rs, [], s => h.refl rs s
  | rs, .mk _ a _ :: ps, s => h.trans (of_visitOption rs a s) (of_visitHints rs ps _)

theorem of_visitHint : ∀ (rs : List Region) (p : Option Param) (s : Names),
    R rs (mentionsHint p) (straysHint p) s (visitHint c p s)
  | rs, none, s => h.refl rs s
  | rs, some (.mk _ a _), s => of_visitOption rs a s

end

/-! ## Patterns -/

mutual

theorem of_visitPattern : ∀ (rs : List Region) (p : Pattern) (s : Names),
    R rs (mentionsPattern p) (straysPattern p) s (visitPattern c p s)
  | rs, .value e, s => h.of_visit rs e s
  | rs, .singleton _, s => h.refl rs s
  | rs, .sequence ps, s => of_visitPatterns rs ps s
  | rs, .mapping keys ps rest, s =>
    h.bindAll rest.toList (h.trans (h.of_visitAll rs keys s) (of_visitPatterns rs ps _))
  | rs, .classOf cls ps _ qs, s =>
    h.trans (h.trans (h.of_visit rs cls s) (of_visitPatterns rs ps _)) (of_visitPatterns rs qs _)
  | rs, .star id, s => h.bindAll id.toList (h.refl rs s)
  | rs, .as none id, s => h.bindAll id.toList (h.refl rs s)
  | rs, .as (some p) id, s => h.bindAll id.toList (of_visitPattern rs p s)
  | rs, .or ps, s => of_visitPatterns rs ps s

theorem of_visitPatterns : ∀ (rs : List Region) (ps : List Pattern) (s : Names),
    R rs (mentionsPatterns ps) (straysPatterns ps) s (visitPatterns c ps s)
  | rs, [], s => h.refl rs s
  | rs, p :: ps, s => h.trans (of_visitPattern rs p s) (of_visitPatterns rs ps _)

end

/-! ## Statements -/

theorem of_visitItems (rs : List Region) (is : List WithItem) (s : Names) :
    R rs (mentionsItems is) (straysItems is) s (visitItems c is s) := by
  induction is generalizing s with
  | nil => exact h.refl rs s
  | cons i is ih =>
    exact h.trans (h.trans (h.of_visit rs i.context s) (h.of_visitOption rs i.target _)) (ih _)

/-- Declarations, and names of handlers, which only the units of the handlers bind. -/
theorem declared {rs : List Region} {ms : List Mention} {stray : List String} {s t : Names}
    (use : Use) (huse : use ≠ .load ∧ use ≠ .bind ∧ use ≠ .walrus) (names : List String)
    (hst : R rs ms stray s t) : R rs (ms ++ names.map (.of use)) stray s t :=
  h.silent _ (List.forall_mem_map.mpr fun _ _ => Or.inr huse) hst

theorem annotated {rs : List Region} {ms : List Mention} {stray : List String} {s t : Names}
    (simple : Bool) (target : Expr) (hst : R rs ms stray s t) :
    R rs (ms ++ mentionsAnnotated simple target) stray s t := by
  refine h.silent _ ?_ hst
  fun_cases mentionsAnnotated simple target with
  | case1 line ctx id => cases simple <;> simp [Mention.IsSilent, Mention.of]
  | case2 => simp [Mention.IsSilent, Mention.bare]

mutual

theorem of_visitStmt : ∀ (rs : List Region) (t : Stmt) (s : Names),
    R rs (mentionsStmt t) (straysStmt t) s (visitStmt c t s)
  | rs, .expr _ e, s => h.of_visit rs e s
  | rs, .assign _ ts e, s => h.trans (h.of_visitAll rs ts s) (h.of_visit rs e _)
  | rs, .augAssign _ t _ e, s => by
    cases t with
    | name line ctx id =>
      exact h.trans (h.trans (h.read id (h.refl rs s)) (h.of_visit rs e _))
        (h.of_visit rs (.name line ctx id) _)
    | _ => exact h.trans (h.of_visit rs e s) (h.of_visit rs _ _)
  | rs, .annAssign _ t a none simple, s => h.annotated simple t (h.of_visit rs a s)
  | rs, .annAssign _ t a (some e) _, s =>
    h.trans (h.trans (h.of_visit rs a s) (h.of_visit rs e _)) (h.of_visit rs t _)
  | rs, .functionDef _ _ id ps body decorators returns, s => by
    have hhead := h.trans (h.trans (h.of_visitAll rs decorators s) (h.of_visitParams rs ps _))
      (h.of_visitOption rs returns _)
    refine h.function (by decide) (fun name hname => ?_) (h.bind id hhead)
      (of_visitStmts _ body _)
    rcases List.mem_append.mp hname with hname | hname
    · exact listed_of_mem_params (by decide) hname
    · exact listed_of_mem_localNames (by decide) hname
  | rs, .classDef _ id bases ks body decorators, s =>
    have hhead := h.trans (h.trans (h.of_visitAll rs decorators s) (h.of_visitAll rs bases _))
      (h.of_visitArguments rs ks _)
    h.function (by simp) (fun _ => listed_of_mem_localNames (by simp)) (h.bind id hhead)
      (of_visitStmts _ body _)
  | rs, .return _ e, s => h.of_visitOption rs e s
  | rs, .delete _ ts, s => h.of_visitAll rs ts s
  | rs, .for _ _ t i body orelse, s =>
    h.trans (h.trans (h.trans (h.of_visit rs t s) (h.of_visit rs i _)) (of_visitStmts rs body _))
      (of_visitStmts rs orelse _)
  | rs, .while _ t body orelse, s | rs, .if _ t body orelse, s =>
    h.trans (h.trans (h.of_visit rs t s) (of_visitStmts rs body _)) (of_visitStmts rs orelse _)
  | rs, .with _ _ items body, s => h.trans (h.of_visitItems rs items s) (of_visitStmts rs body _)
  | rs, .match _ e cases, s => h.trans (h.of_visit rs e s) (h.matched (of_visitCases rs cases _))
  | rs, .raise _ e cause, s => h.trans (h.of_visitOption rs e s) (h.of_visitOption rs cause _)
  | rs, .try _ _ body handlers orelse final, s =>
    h.trans (h.trans (h.trans (of_visitStmts rs body s) (of_visitHandlers rs handlers _))
      (of_visitStmts rs orelse _)) (of_visitStmts rs final _)
  | rs, .assert _ t m, s => h.trans (h.of_visit rs t s) (h.of_visitOption rs m _)
  | rs, .import _ names, s | rs, .importFrom _ _ names _, s =>
    h.bindAll (aliasNames names) (h.refl rs s)
  | rs, .global _ names, s => h.declared .global (by decide) names (h.refl rs s)
  | rs, .nonlocal _ names, s => h.declared .nonlocal (by decide) names (h.refl rs s)
  | rs, .pass _, s | rs, .break _, s | rs, .continue _, s => h.refl rs s

theorem of_visitStmts : ∀ (rs : List Region) (ts : List Stmt) (s : Names),
    R rs (mentionsStmts ts) (straysStmts ts) s (visitStmts c ts s)
  | rs, [], s => h.refl rs s
  | rs, t :: ts, s => h.trans (of_visitStmt rs t s) (of_visitStmts rs ts _)

theorem of_visitHandlers : ∀ (rs : List Region) (hs : List Handler) (s : Names),
    R rs (mentionsHandlers hs) (straysHandlers hs) s (visitHandlers c hs s)
  | rs, [], s => h.refl rs s
  | rs, .mk _ type id body :: hs, s =>
    have htype := h.declared .handler (by decide) id.toList (h.of_visitOption rs type s)
    h.trans (h.trans htype (of_visitStmts rs body _)) (of_visitHandlers rs hs _)

theorem of_visitCases : ∀ (rs : List Region) (cs : List Case) (s : Names),
    R rs (mentionsCases cs) (straysCases cs) s (visitCases c cs s)
  | rs, [], s => h.refl rs s
  | rs, .mk p guard body :: cs, s =>
    h.trans (h.trans (h.trans (h.of_visitPattern rs p s) (h.of_visitOption rs guard _))
      (of_visitStmts rs body _)) (of_visitCases rs cs _)

end

end VisitRelation

end NotebookSlice.Flow
