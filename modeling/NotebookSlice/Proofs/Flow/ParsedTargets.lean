import NotebookSlice.Proofs.Cell.Chunks
import NotebookSlice.Proofs.Flow.Assumed
import NotebookSlice.Proofs.Syntax.Program

/-! # The targets of parsed code

Code that is parsed has no stray targets: whatever a target names or takes an element
of is read. So a unit of a cell writes without reading only what its own code binds or
deletes.
-/

namespace NotebookSlice.Flow

open Syntax
open List (Forall₂)

variable {same : ℕ → ℕ → Prop}

theorem baseTarget_of_alike : (e : Expr) → {e' : Expr} → Expr.Alike same e e' →
    baseTarget e = none
  | .attribute _ _ e _, _, .attribute _ he => baseTarget_of_alike e he
  | .subscript _ _ e _, _, .subscript _ he _ => baseTarget_of_alike e he
  | .name .., _, .name _ => rfl
  | .literal .., _, _ | .template .., _, _ | .field .., _, _ | .unary .., _, _
  | .binary .., _, _ | .bool .., _, _ | .compare .., _, _ | .conditional .., _, _
  | .lambda .., _, _ | .walrus .., _, _ | .slice .., _, _ | .call .., _, _ | .list .., _, _
  | .tuple .., _, _ | .set .., _, _ | .dict .., _, _ | .listComp .., _, _ | .setComp .., _, _
  | .genExp .., _, _ | .dictComp .., _, _ | .starred .., _, _ | .await .., _, _
  | .yield .., _, _ | .yieldFrom .., _, _ => rfl
termination_by structural x => x

theorem strayBase_of_alike {e e' : Expr} (ctx : Context) (h : Expr.Alike same e e') :
    strayBase ctx e = [] := by
  rw [strayBase, baseTarget_of_alike e h]
  exact ite_self _

mutual

theorem strays_of_alike : (e : Expr) → {e' : Expr} → Expr.Alike same e e' → strays e = []
  | .name .., _, _ => rfl
  | .literal .., _, _ => rfl
  | .template _ ps, _, .template _ hp => straysAll_of_alike ps hp
  | .field _ v _ s, _, .field _ hv hs =>
    List.append_eq_nil_iff.mpr ⟨strays_of_alike v hv, straysOption_of_alike s hs⟩
  | .unary _ _ e, _, .unary _ he => strays_of_alike e he
  | .binary _ a _ b, _, .binary _ ha hb =>
    List.append_eq_nil_iff.mpr ⟨strays_of_alike a ha, strays_of_alike b hb⟩
  | .bool _ _ vs, _, .bool _ hv => straysAll_of_alike vs hv
  | .compare _ a _ bs, _, .compare _ ha hb =>
    List.append_eq_nil_iff.mpr ⟨strays_of_alike a ha, straysAll_of_alike bs hb⟩
  | .conditional _ t a b, _, .conditional _ ht ha hb => by
    rw [strays, strays_of_alike t ht, strays_of_alike a ha, strays_of_alike b hb]
    rfl
  | .lambda _ ps _, _, .lambda _ hp _ => straysParams_of_alike ps hp
  | .walrus _ _ v, _, .walrus _ hv => strays_of_alike v hv
  | .attribute _ _ v _, _, .attribute _ hv => strays_of_alike v hv
  | .subscript _ _ v i, _, .subscript _ hv hi =>
    List.append_eq_nil_iff.mpr ⟨strays_of_alike v hv, strays_of_alike i hi⟩
  | .slice _ a b s, _, .slice _ ha hb hs => by
    rw [strays, straysOption_of_alike a ha, straysOption_of_alike b hb, straysOption_of_alike s hs]
    rfl
  | .call _ f as ks, _, .call _ hf ha hk => by
    rw [strays, strays_of_alike f hf, straysAll_of_alike as ha, straysArguments_of_alike ks hk]
    rfl
  | .list _ es, _, .list _ he => straysAll_of_alike es he
  | .tuple _ es, _, .tuple _ he => straysAll_of_alike es he
  | .set _ es, _, .set _ he => straysAll_of_alike es he
  | .dict _ es, _, .dict _ he =>
    List.append_eq_nil_iff.mpr ⟨straysKeys_of_alike es he, straysValues_of_alike es he⟩
  | .listComp _ e gs, _, .listComp _ he hg => by
    rw [strays, strays_of_alike e he, straysFirst_of_alike gs hg, straysGenerators_of_alike gs hg]
    rfl
  | .setComp _ e gs, _, .setComp _ he hg => by
    rw [strays, strays_of_alike e he, straysFirst_of_alike gs hg, straysGenerators_of_alike gs hg]
    rfl
  | .genExp _ e gs, _, .genExp _ he hg => by
    rw [strays, strays_of_alike e he, straysFirst_of_alike gs hg, straysGenerators_of_alike gs hg]
    rfl
  | .dictComp _ k v gs, _, .dictComp _ hk hv hg => by
    rw [strays, strays_of_alike k hk, strays_of_alike v hv, straysFirst_of_alike gs hg,
      straysGenerators_of_alike gs hg]
    rfl
  | .starred _ v, _, .starred _ hv => strays_of_alike v hv
  | .await _ v, _, .await _ hv => strays_of_alike v hv
  | .yield _ v, _, .yield _ hv => straysOption_of_alike v hv
  | .yieldFrom _ v, _, .yieldFrom _ hv => strays_of_alike v hv
termination_by structural x => x

theorem strays_of_alikeTarget : (t : Expr) → {t' : Expr} → Expr.AlikeTarget same t t' →
    strays t = []
  | .name .., _, _ => rfl
  | .attribute _ ctx v _, _, .attribute _ _ hv =>
    List.append_eq_nil_iff.mpr ⟨strayBase_of_alike ctx hv, strays_of_alike v hv⟩
  | .subscript _ ctx v i, _, .subscript _ _ hv hi => by
    rw [strays, strayBase_of_alike ctx hv, strays_of_alike v hv, strays_of_alike i hi]
    rfl
  | .list _ ts, _, .list _ ht => straysAll_of_alikeTargets ts ht
  | .tuple _ ts, _, .tuple _ ht => straysAll_of_alikeTargets ts ht
  | .starred _ t, _, .starred _ ht => strays_of_alikeTarget t ht
termination_by structural x => x

theorem straysAll_of_alikeTargets : (ts : List Expr) → {ts' : List Expr} →
    Forall₂ (Expr.AlikeTarget same) ts ts' → straysAll ts = []
  | [], _, _ => rfl
  | t :: ts, _, .cons h hs =>
    List.append_eq_nil_iff.mpr ⟨strays_of_alikeTarget t h, straysAll_of_alikeTargets ts hs⟩
termination_by structural x => x

theorem straysAll_of_alike : (es : List Expr) → {es' : List Expr} →
    Forall₂ (Expr.Alike same) es es' → straysAll es = []
  | [], _, _ => rfl
  | e :: es, _, .cons h hs =>
    List.append_eq_nil_iff.mpr ⟨strays_of_alike e h, straysAll_of_alike es hs⟩
termination_by structural x => x

theorem straysOption_of_alike : (e : Option Expr) → {e' : Option Expr} →
    Option.Rel (Expr.Alike same) e e' → straysOption e = []
  | none, _, _ => rfl
  | some e, _, .some h => strays_of_alike e h
termination_by structural x => x

theorem straysArguments_of_alike : (ks : List Argument) → {ks' : List Argument} →
    Forall₂ (Argument.Alike same) ks ks' → straysArguments ks = []
  | [], _, _ => rfl
  | .mk _ v :: ks, _, .cons (.mk hv) hs =>
    List.append_eq_nil_iff.mpr ⟨strays_of_alike v hv, straysArguments_of_alike ks hs⟩
termination_by structural x => x

theorem straysKeys_of_alike : (es : List Syntax.Entry) → {es' : List Syntax.Entry} →
    Forall₂ (Entry.Alike same) es es' → straysKeys es = []
  | [], _, _ => rfl
  | .pair k _ :: es, _, .cons (.pair hk _) hs =>
    List.append_eq_nil_iff.mpr ⟨strays_of_alike k hk, straysKeys_of_alike es hs⟩
  | .unpack _ :: es, _, .cons _ hs => straysKeys_of_alike es hs
termination_by structural x => x

theorem straysValues_of_alike : (es : List Syntax.Entry) → {es' : List Syntax.Entry} →
    Forall₂ (Entry.Alike same) es es' → straysValues es = []
  | [], _, _ => rfl
  | .pair _ v :: es, _, .cons (.pair _ hv) hs =>
    List.append_eq_nil_iff.mpr ⟨strays_of_alike v hv, straysValues_of_alike es hs⟩
  | .unpack v :: es, _, .cons (.unpack hv) hs =>
    List.append_eq_nil_iff.mpr ⟨strays_of_alike v hv, straysValues_of_alike es hs⟩
termination_by structural x => x

theorem straysFirst_of_alike : (gs : List Generator) → {gs' : List Generator} →
    Forall₂ (Generator.Alike same) gs gs' → straysFirst gs = []
  | [], _, _ => rfl
  | .mk _ _ i _ :: _, _, .cons (.mk _ hi _) _ => strays_of_alike i hi
termination_by structural x => x

theorem straysGenerators_of_alike : (gs : List Generator) → {gs' : List Generator} →
    Forall₂ (Generator.Alike same) gs gs' → straysGenerators gs = []
  | [], _, _ => rfl
  | .mk _ t _ cs :: gs, _, .cons (.mk ht _ hc) hs => by
    rw [straysGenerators, strays_of_alikeTarget t ht, straysAll_of_alike cs hc,
      straysInnerGenerators_of_alike gs hs]
    rfl
termination_by structural x => x

theorem straysInnerGenerators_of_alike : (gs : List Generator) → {gs' : List Generator} →
    Forall₂ (Generator.Alike same) gs gs' → straysInnerGenerators gs = []
  | [], _, _ => rfl
  | .mk _ t i cs :: gs, _, .cons (.mk ht hi hc) hs => by
    rw [straysInnerGenerators, strays_of_alike i hi, strays_of_alikeTarget t ht,
      straysAll_of_alike cs hc, straysInnerGenerators_of_alike gs hs]
    rfl
termination_by structural x => x

theorem straysParams_of_alike : (ps : Params) → {ps' : Params} → Params.Alike same ps ps' →
    straysParams ps = []
  | .mk ps qs r ks k, _, .mk hps hqs hr hks hk => by
    rw [straysParams, straysDefaults_of_alike ps hps, straysDefaults_of_alike qs hqs,
      straysDefaults_of_alike ks hks, straysHints_of_alike ps hps, straysHints_of_alike qs hqs,
      straysHints_of_alike ks hks, straysHint_of_alike r hr, straysHint_of_alike k hk]
    rfl
termination_by structural x => x

theorem straysDefaults_of_alike : (ps : List Param) → {ps' : List Param} →
    Forall₂ (Param.Alike same) ps ps' → straysDefaults ps = []
  | [], _, _ => rfl
  | .mk _ _ d :: ps, _, .cons (.mk _ hd) hs =>
    List.append_eq_nil_iff.mpr ⟨straysOption_of_alike d hd, straysDefaults_of_alike ps hs⟩
termination_by structural x => x

theorem straysHints_of_alike : (ps : List Param) → {ps' : List Param} →
    Forall₂ (Param.Alike same) ps ps' → straysHints ps = []
  | [], _, _ => rfl
  | .mk _ h _ :: ps, _, .cons (.mk hh _) hs =>
    List.append_eq_nil_iff.mpr ⟨straysOption_of_alike h hh, straysHints_of_alike ps hs⟩
termination_by structural x => x

theorem straysHint_of_alike : (p : Option Param) → {p' : Option Param} →
    Option.Rel (Param.Alike same) p p' → straysHint p = []
  | none, _, _ => rfl
  | some (.mk _ h _), _, .some (.mk hh _) => straysOption_of_alike h hh
termination_by structural x => x

end

mutual

theorem straysPattern_of_alike : (p : Pattern) → {p' : Pattern} → Pattern.Alike same p p' →
    straysPattern p = []
  | .value e, _, .value he => strays_of_alike e he
  | .singleton _, _, _ => rfl
  | .sequence ps, _, .sequence hp => straysPatterns_of_alike ps hp
  | .mapping ks ps _, _, .mapping hk hp =>
    List.append_eq_nil_iff.mpr ⟨straysAll_of_alike ks hk, straysPatterns_of_alike ps hp⟩
  | .classOf c ps _ qs, _, .classOf hc hp hq => by
    rw [straysPattern, strays_of_alike c hc, straysPatterns_of_alike ps hp,
      straysPatterns_of_alike qs hq]
    rfl
  | .star _, _, _ => rfl
  | .as none _, _, _ => rfl
  | .as (some p) _, _, .as (.some hp) => straysPattern_of_alike p hp
  | .or ps, _, .or hp => straysPatterns_of_alike ps hp
termination_by structural x => x

theorem straysPatterns_of_alike : (ps : List Pattern) → {ps' : List Pattern} →
    Forall₂ (Pattern.Alike same) ps ps' → straysPatterns ps = []
  | [], _, _ => rfl
  | p :: ps, _, .cons hp hs =>
    List.append_eq_nil_iff.mpr ⟨straysPattern_of_alike p hp, straysPatterns_of_alike ps hs⟩
termination_by structural x => x

end

theorem straysItems_of_alike {is is' : List WithItem}
    (h : Forall₂ (WithItem.Alike same) is is') : straysItems is = [] := by
  induction h with
  | nil => rfl
  | @cons i i' is is' hi _ ih =>
    obtain ⟨context, target⟩ := i
    obtain ⟨context', target'⟩ := i'
    obtain ⟨hcontext, htarget⟩ := hi
    rw [straysItems, strays_of_alike context hcontext, ih]
    cases htarget with
    | none => rfl
    | some ht => simp [straysOption, strays_of_alikeTarget _ ht]

mutual

theorem straysStmt_of_alike : (s : Stmt) → {s' : Stmt} → Stmt.Alike same s s' → straysStmt s = []
  | .expr _ v, _, .expr _ hv => strays_of_alike v hv
  | .assign _ ts v, _, .assign _ ht hv =>
    List.append_eq_nil_iff.mpr ⟨straysAll_of_alikeTargets ts ht, strays_of_alike v hv⟩
  | .augAssign _ t _ v, _, .augAssign _ ht hv =>
    List.append_eq_nil_iff.mpr ⟨strays_of_alike v hv, strays_of_alikeTarget t ht⟩
  | .annAssign _ _ a none _, _, .annAssign _ _ ha _ => strays_of_alike a ha
  | .annAssign _ t a (some v) _, _, .annAssign _ ht ha (.some hv) => by
    rw [straysStmt, strays_of_alike a ha, strays_of_alike v hv, strays_of_alikeTarget t ht]
    rfl
  | .functionDef _ _ _ ps _ ds r, _, .functionDef _ hp _ hd hr => by
    rw [straysStmt, straysAll_of_alike ds hd, straysParams_of_alike ps hp,
      straysOption_of_alike r hr]
    rfl
  | .classDef _ _ as ks _ ds, _, .classDef _ ha hk _ hd => by
    rw [straysStmt, straysAll_of_alike ds hd, straysAll_of_alike as ha,
      straysArguments_of_alike ks hk]
    rfl
  | .return _ v, _, .return _ hv => straysOption_of_alike v hv
  | .delete _ ts, _, .delete _ ht => straysAll_of_alikeTargets ts ht
  | .for _ _ t i b e, _, .for _ ht hi hb he => by
    rw [straysStmt, strays_of_alikeTarget t ht, strays_of_alike i hi, straysStmts_of_alike b hb,
      straysStmts_of_alike e he]
    rfl
  | .while _ t b e, _, .while _ ht hb he => by
    rw [straysStmt, strays_of_alike t ht, straysStmts_of_alike b hb, straysStmts_of_alike e he]
    rfl
  | .if _ t b e, _, .if _ ht hb he => by
    rw [straysStmt, strays_of_alike t ht, straysStmts_of_alike b hb, straysStmts_of_alike e he]
    rfl
  | .with _ _ _ b, _, .with _ hi hb =>
    List.append_eq_nil_iff.mpr ⟨straysItems_of_alike hi, straysStmts_of_alike b hb⟩
  | .match _ v cs, _, .match _ hv hc =>
    List.append_eq_nil_iff.mpr ⟨strays_of_alike v hv, straysCases_of_alike cs hc⟩
  | .raise _ e c, _, .raise _ he hc =>
    List.append_eq_nil_iff.mpr ⟨straysOption_of_alike e he, straysOption_of_alike c hc⟩
  | .try _ _ b hs e f, _, .try _ hb hh he hf => by
    rw [straysStmt, straysStmts_of_alike b hb, straysHandlers_of_alike hs hh,
      straysStmts_of_alike e he, straysStmts_of_alike f hf]
    rfl
  | .assert _ t m, _, .assert _ ht hm =>
    List.append_eq_nil_iff.mpr ⟨strays_of_alike t ht, straysOption_of_alike m hm⟩
  | .import .., _, _ | .importFrom .., _, _ | .global .., _, _ | .nonlocal .., _, _
  | .pass _, _, _ | .break _, _, _ | .continue _, _, _ => rfl
termination_by structural x => x

theorem straysStmts_of_alike : (ss : List Stmt) → {ss' : List Stmt} →
    Forall₂ (Stmt.Alike same) ss ss' → straysStmts ss = []
  | [], _, _ => rfl
  | s :: ss, _, .cons h hs =>
    List.append_eq_nil_iff.mpr ⟨straysStmt_of_alike s h, straysStmts_of_alike ss hs⟩
termination_by structural x => x

theorem straysHandlers_of_alike : (hs : List Handler) → {hs' : List Handler} →
    Forall₂ (Handler.Alike same) hs hs' → straysHandlers hs = []
  | [], _, _ => rfl
  | .mk _ t _ b :: hs, _, .cons (.mk _ ht hb) hrest => by
    rw [straysHandlers, straysOption_of_alike t ht, straysStmts_of_alike b hb,
      straysHandlers_of_alike hs hrest]
    rfl
termination_by structural x => x

theorem straysCases_of_alike : (cs : List Case) → {cs' : List Case} →
    Forall₂ (Case.Alike same) cs cs' → straysCases cs = []
  | [], _, _ => rfl
  | .mk p g b :: cs, _, .cons (.mk hp hg hb) hrest => by
    rw [straysCases, straysPattern_of_alike p hp, straysOption_of_alike g hg,
      straysStmts_of_alike b hb, straysCases_of_alike cs hrest]
    rfl
termination_by structural x => x

end

/-! ## The units of a cell -/

theorem straysStmts_of_parse {line : ℕ} {text : List Char} {ss : List Stmt}
    (h : parse line text = .ok ss) : straysStmts ss = [] := by
  obtain ⟨ss', -, hsame⟩ := parse_sameForm (sameKinds_lex line line text) h
  exact straysStmts_of_alike ss hsame

theorem straysStmts_eq_nil_iff {ss : List Stmt} :
    straysStmts ss = [] ↔ ∀ s ∈ ss, straysStmt s = [] := by
  induction ss with
  | nil => simp [straysStmts]
  | cons s ss ih => rw [straysStmts, List.append_eq_nil_iff, ih, List.forall_mem_cons]

theorem straysHandlers_eq_nil_iff {hs : List Handler} :
    straysHandlers hs = [] ↔ ∀ h ∈ hs, straysHandlers [h] = [] := by
  induction hs with
  | nil => simp [straysHandlers]
  | cons h hs ih =>
    obtain ⟨span, type, name, body⟩ := h
    rw [List.forall_mem_cons, ← ih]
    simp [straysHandlers, and_assoc]

namespace Node

/-- The stray names in all the code that a node stands for. -/
def allStrays : Node → List String
  | .stmt s => straysStmt s
  | .handler h => straysHandlers [h]
  | .clause _ block => straysStmts block

variable {n m : Node} {lines : Option (List String)}

theorem strays_eq_nil (h : n.allStrays = []) : n.strays = [] := by
  cases n with
  | stmt s =>
    cases s with
    | «if» | «while» =>
      simp only [allStrays, straysStmt, List.append_eq_nil_iff] at h
      exact h.1.1
    | «for» =>
      simp only [allStrays, straysStmt, List.append_eq_nil_iff] at h
      exact List.append_eq_nil_iff.mpr ⟨h.1.1.2, h.1.1.1⟩
    | «with» =>
      simp only [allStrays, straysStmt, List.append_eq_nil_iff] at h
      exact h.1
    | «try» => rfl
    | _ => exact h
  | handler g =>
    obtain ⟨span, type, name, body⟩ := g
    simp only [allStrays, straysHandlers, List.append_eq_nil_iff] at h
    exact h.1.1
  | clause => rfl

theorem straysStmts_body (h : n.allStrays = []) : straysStmts n.body = [] := by
  cases n with
  | stmt s =>
    cases s with
    | «if» | «while» | «for» =>
      simp only [allStrays, straysStmt, List.append_eq_nil_iff] at h
      exact h.1.2
    | «with» =>
      simp only [allStrays, straysStmt, List.append_eq_nil_iff] at h
      exact h.2
    | «try» =>
      simp only [allStrays, straysStmt, List.append_eq_nil_iff] at h
      exact h.1.1.1
    | _ => rfl
  | handler g =>
    obtain ⟨span, type, name, body⟩ := g
    simp only [allStrays, straysHandlers, List.append_eq_nil_iff] at h
    exact h.1.2
  | clause => exact h

theorem straysHandlers_handlers (h : n.allStrays = []) : straysHandlers n.handlers = [] := by
  cases n with
  | stmt s =>
    cases s with
    | «try» =>
      simp only [allStrays, straysStmt, List.append_eq_nil_iff] at h
      exact h.1.1.2
    | _ => rfl
  | handler | clause => rfl

theorem straysStmts_branch (h : n.allStrays = []) {b : Branch} (hb : b ∈ n.branches) :
    straysStmts b.block = [] := by
  cases n with
  | stmt s =>
    cases s with
    | «if» | «while» | «for» =>
      simp only [allStrays, straysStmt, List.append_eq_nil_iff] at h
      obtain rfl := List.mem_singleton.mp hb
      exact h.2
    | «try» =>
      simp only [allStrays, straysStmt, List.append_eq_nil_iff] at h
      simp only [branches, List.mem_cons, List.not_mem_nil, or_false] at hb
      rcases hb with rfl | rfl
      · exact h.1.2
      · exact h.2
    | _ => exact absurd hb List.not_mem_nil
  | handler | clause => exact absurd hb List.not_mem_nil

theorem allStrays_of_mem_others (h : n.allStrays = []) (hm : m ∈ n.others lines) :
    m.allStrays = [] := by
  obtain ⟨g, hg, rfl⟩ | ⟨b, hb, hm⟩ := mem_others.mp hm
  · exact straysHandlers_eq_nil_iff.mp (straysHandlers_handlers h) g hg
  · have hblock := straysStmts_branch h hb
    obtain ⟨line, -, -, rfl⟩ | ⟨-, s, hs, rfl⟩ := Branch.mem_nodes hm
    · exact hblock
    · exact straysStmts_eq_nil_iff.mp hblock s hs

end Node

variable {c : Configuration} {lines : Option (List String)} {parent : Option ℕ} {next : ℕ}
  {ns : List Node} {roots : List ℕ} {us : List (Node × Statement)}

theorem Grows.strays_eq_nil (h : Grows c lines parent next ns roots us)
    (hns : ∀ n ∈ ns, n.allStrays = []) : ∀ p ∈ us, p.1.strays = [] := by
  induction h with
  | nil => exact List.forall_mem_nil _
  | cons _ _ _ ihb iho ihs =>
    obtain ⟨hn, hns⟩ := List.forall_mem_cons.mp hns
    have hbody := straysStmts_eq_nil_iff.mp (Node.straysStmts_body hn)
    refine List.forall_mem_cons.mpr ⟨Node.strays_eq_nil hn, List.forall_mem_append.mpr
      ⟨List.forall_mem_append.mpr ⟨ihb (List.forall_mem_map.mpr hbody), iho ?_⟩, ihs hns⟩⟩
    exact fun m hm => Node.allStrays_of_mem_others hn hm

/-- Whatever a cell holds: a name that a unit writes is read by it, or bound or deleted where its
own code mentions it. -/
theorem exists_binding_of_writes {text : String} {a : Analysis}
    (h : analyzeCell c text = .ok a) :
    ∃ code roots us, Code.ofText text = .ok code ∧
      Grows c (some (Text.lines text)) none 0 (code.statements.map .stmt) roots us ∧
      us.map Prod.snd = a.statements ∧
      ∀ p ∈ us, ∀ x ∈ p.2.writes, x ∈ p.2.reads ∨
        ∃ m ∈ p.1.mentions, m.isBinding = true ∧ m.name = x := by
  obtain ⟨code, hcode, rfl⟩ := analyzeCell_eq_ok.mp h
  obtain ⟨roots, us, hgrows, hunits⟩ :=
    yields_walkAll c (some (Text.lines text)) code.statements 0
  refine ⟨code, roots, us, hcode, hgrows, hunits, fun p hp x hx => ?_⟩
  have hclean : ∀ s ∈ code.statements, straysStmt s = [] :=
    Code.forall_of_ofText (fun hparse => straysStmts_eq_nil_iff.mp (straysStmts_of_parse hparse))
      hcode
  have hstrays := hgrows.strays_eq_nil (List.forall_mem_map.mpr hclean) p hp
  have hbound := hgrows.forall_units
    (P := fun n reads writes => ∀ x ∈ writes, x ∈ reads ∨ x ∈ n.bound)
    (fun n _ => Node.read_or_bound) p hp x hx
  rw [Node.bound, hstrays, List.append_nil, List.mem_map] at hbound
  refine hbound.imp_right ?_
  rintro ⟨m, hm, hname⟩
  exact ⟨m, (List.mem_filter.mp hm).1, (List.mem_filter.mp hm).2, hname⟩

end NotebookSlice.Flow
