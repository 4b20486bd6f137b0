import Mathlib.Data.List.Forall2
import NotebookSlice.Syntax.Legal
import NotebookSlice.Syntax.Parser

/-! # Trees that differ in lines only

Two trees are alike if they have the same form and their lines are related one by
one. Under equality only equal trees are alike; under the relation that always
holds, trees are alike that differ in their lines and in nothing else. All is read
in them but for targets, as the grammar has it.
-/

namespace NotebookSlice.Syntax

open List (Forall₂)

/-- The same text on related lines. -/
inductive SameText {α : Type} (same : Nat → Nat → Prop) : Nat × α → Nat × α → Prop
  | mk {l l' : Nat} {a : α} : same l l' → SameText same (l, a) (l', a)

variable (same : Nat → Nat → Prop)

mutual

inductive Expr.Alike : Expr → Expr → Prop
  | name : same l l' → Expr.Alike (.name l .load n) (.name l' .load n)
  | literal : same l l' → Expr.Alike (.literal l t) (.literal l' t)
  | template : same l l' → Forall₂ Expr.Alike ps ps' →
      Expr.Alike (.template l ps) (.template l' ps')
  | field : same l l' → Expr.Alike v v' → Option.Rel Expr.Alike s s' →
      Expr.Alike (.field l v c s) (.field l' v' c s')
  | unary : same l l' → Expr.Alike e e' → Expr.Alike (.unary l op e) (.unary l' op e')
  | binary : same l l' → Expr.Alike a a' → Expr.Alike b b' →
      Expr.Alike (.binary l a op b) (.binary l' a' op b')
  | bool : same l l' → Forall₂ Expr.Alike vs vs' →
      Expr.Alike (.bool l op vs) (.bool l' op vs')
  | compare : same l l' → Expr.Alike a a' → Forall₂ Expr.Alike bs bs' →
      Expr.Alike (.compare l a ops bs) (.compare l' a' ops bs')
  | conditional : same l l' → Expr.Alike t t' → Expr.Alike a a' → Expr.Alike b b' →
      Expr.Alike (.conditional l t a b) (.conditional l' t' a' b')
  | lambda : same l l' → Params.Alike ps ps' → Expr.Alike b b' →
      Expr.Alike (.lambda l ps b) (.lambda l' ps' b')
  | walrus : same l l' → Expr.Alike v v' → Expr.Alike (.walrus l n v) (.walrus l' n v')
  | attribute : same l l' → Expr.Alike v v' →
      Expr.Alike (.attribute l .load v n) (.attribute l' .load v' n)
  | subscript : same l l' → Expr.Alike v v' → Expr.Alike i i' →
      Expr.Alike (.subscript l .load v i) (.subscript l' .load v' i')
  | slice : same l l' → Option.Rel Expr.Alike a a' → Option.Rel Expr.Alike b b' →
      Option.Rel Expr.Alike s s' → Expr.Alike (.slice l a b s) (.slice l' a' b' s')
  | call : same l l' → Expr.Alike f f' → Forall₂ Expr.Alike as as' →
      Forall₂ Argument.Alike ks ks' → Expr.Alike (.call l f as ks) (.call l' f' as' ks')
  | list : same l l' → Forall₂ Expr.Alike es es' → Expr.Alike (.list l es) (.list l' es')
  | tuple : same l l' → Forall₂ Expr.Alike es es' → Expr.Alike (.tuple l es) (.tuple l' es')
  | set : same l l' → Forall₂ Expr.Alike es es' → Expr.Alike (.set l es) (.set l' es')
  | dict : same l l' → Forall₂ Entry.Alike es es' → Expr.Alike (.dict l es) (.dict l' es')
  | listComp : same l l' → Expr.Alike e e' → Forall₂ Generator.Alike gs gs' →
      Expr.Alike (.listComp l e gs) (.listComp l' e' gs')
  | setComp : same l l' → Expr.Alike e e' → Forall₂ Generator.Alike gs gs' →
      Expr.Alike (.setComp l e gs) (.setComp l' e' gs')
  | genExp : same l l' → Expr.Alike e e' → Forall₂ Generator.Alike gs gs' →
      Expr.Alike (.genExp l e gs) (.genExp l' e' gs')
  | dictComp : same l l' → Expr.Alike k k' → Expr.Alike v v' → Forall₂ Generator.Alike gs gs' →
      Expr.Alike (.dictComp l k v gs) (.dictComp l' k' v' gs')
  | starred : same l l' → Expr.Alike v v' → Expr.Alike (.starred l v) (.starred l' v')
  | await : same l l' → Expr.Alike v v' → Expr.Alike (.await l v) (.await l' v')
  | yield : same l l' → Option.Rel Expr.Alike v v' → Expr.Alike (.yield l v) (.yield l' v')
  | yieldFrom : same l l' → Expr.Alike v v' → Expr.Alike (.yieldFrom l v) (.yieldFrom l' v')

/-- What is bound or deleted. The object of an attribute or an element is read. -/
inductive Expr.AlikeTarget : Expr → Expr → Prop
  | name : c ≠ .load → same l l' → Expr.AlikeTarget (.name l c n) (.name l' c n)
  | attribute : c ≠ .load → same l l' → Expr.Alike v v' →
      Expr.AlikeTarget (.attribute l c v n) (.attribute l' c v' n)
  | subscript : c ≠ .load → same l l' → Expr.Alike v v' → Expr.Alike i i' →
      Expr.AlikeTarget (.subscript l c v i) (.subscript l' c v' i')
  | list : same l l' → Forall₂ Expr.AlikeTarget ts ts' →
      Expr.AlikeTarget (.list l ts) (.list l' ts')
  | tuple : same l l' → Forall₂ Expr.AlikeTarget ts ts' →
      Expr.AlikeTarget (.tuple l ts) (.tuple l' ts')
  | starred : same l l' → Expr.AlikeTarget t t' → Expr.AlikeTarget (.starred l t) (.starred l' t')

inductive Argument.Alike : Argument → Argument → Prop
  | mk : Expr.Alike v v' → Argument.Alike (.mk n v) (.mk n v')

inductive Entry.Alike : Entry → Entry → Prop
  | pair : Expr.Alike k k' → Expr.Alike v v' → Entry.Alike (.pair k v) (.pair k' v')
  | unpack : Expr.Alike v v' → Entry.Alike (.unpack v) (.unpack v')

inductive Generator.Alike : Generator → Generator → Prop
  | mk : Expr.AlikeTarget t t' → Expr.Alike i i' → Forall₂ Expr.Alike cs cs' →
      Generator.Alike (.mk async t i cs) (.mk async t' i' cs')

inductive Param.Alike : Param → Param → Prop
  | mk : Option.Rel Expr.Alike h h' → Option.Rel Expr.Alike d d' →
      Param.Alike (.mk n h d) (.mk n h' d')

inductive Params.Alike : Params → Params → Prop
  | mk : Forall₂ Param.Alike ps ps' → Forall₂ Param.Alike qs qs' → Option.Rel Param.Alike r r' →
      Forall₂ Param.Alike ks ks' → Option.Rel Param.Alike k k' →
      Params.Alike (.mk ps qs r ks k) (.mk ps' qs' r' ks' k')

end

inductive Pattern.Alike : Pattern → Pattern → Prop
  | value : Expr.Alike same e e' → Pattern.Alike (.value e) (.value e')
  | singleton : Pattern.Alike (.singleton t) (.singleton t)
  | sequence : Forall₂ Pattern.Alike ps ps' → Pattern.Alike (.sequence ps) (.sequence ps')
  | mapping : Forall₂ (Expr.Alike same) ks ks' → Forall₂ Pattern.Alike ps ps' →
      Pattern.Alike (.mapping ks ps r) (.mapping ks' ps' r)
  | classOf : Expr.Alike same c c' → Forall₂ Pattern.Alike ps ps' → Forall₂ Pattern.Alike qs qs' →
      Pattern.Alike (.classOf c ps ns qs) (.classOf c' ps' ns qs')
  | star : Pattern.Alike (.star n) (.star n)
  | as : Option.Rel Pattern.Alike p p' → Pattern.Alike (.as p n) (.as p' n)
  | or : Forall₂ Pattern.Alike ps ps' → Pattern.Alike (.or ps) (.or ps')

structure Span.Alike (s s' : Span) : Prop where
  first : same s.first s'.first
  last : same s.last s'.last

structure WithItem.Alike (i i' : WithItem) : Prop where
  context : Expr.Alike same i.context i'.context
  target : Option.Rel (Expr.AlikeTarget same) i.target i'.target

mutual

inductive Stmt.Alike : Stmt → Stmt → Prop
  | expr : Span.Alike same s s' → Expr.Alike same v v' → Stmt.Alike (.expr s v) (.expr s' v')
  | assign : Span.Alike same s s' → Forall₂ (Expr.AlikeTarget same) ts ts' → Expr.Alike same v v' →
      Stmt.Alike (.assign s ts v) (.assign s' ts' v')
  | augAssign : Span.Alike same s s' → Expr.AlikeTarget same t t' → Expr.Alike same v v' →
      Stmt.Alike (.augAssign s t op v) (.augAssign s' t' op v')
  | annAssign : Span.Alike same s s' → Expr.AlikeTarget same t t' → Expr.Alike same h h' →
      Option.Rel (Expr.Alike same) v v' →
      Stmt.Alike (.annAssign s t h v simple) (.annAssign s' t' h' v' simple)
  | functionDef : Span.Alike same s s' → Params.Alike same ps ps' → Forall₂ Stmt.Alike b b' →
      Forall₂ (Expr.Alike same) ds ds' → Option.Rel (Expr.Alike same) r r' →
      Stmt.Alike (.functionDef s async n ps b ds r) (.functionDef s' async n ps' b' ds' r')
  | classDef : Span.Alike same s s' → Forall₂ (Expr.Alike same) as as' →
      Forall₂ (Argument.Alike same) ks ks' → Forall₂ Stmt.Alike b b' →
      Forall₂ (Expr.Alike same) ds ds' →
      Stmt.Alike (.classDef s n as ks b ds) (.classDef s' n as' ks' b' ds')
  | return : Span.Alike same s s' → Option.Rel (Expr.Alike same) v v' →
      Stmt.Alike (.return s v) (.return s' v')
  | delete : Span.Alike same s s' → Forall₂ (Expr.AlikeTarget same) ts ts' →
      Stmt.Alike (.delete s ts) (.delete s' ts')
  | for : Span.Alike same s s' → Expr.AlikeTarget same t t' → Expr.Alike same i i' →
      Forall₂ Stmt.Alike b b' → Forall₂ Stmt.Alike e e' →
      Stmt.Alike (.for s async t i b e) (.for s' async t' i' b' e')
  | while : Span.Alike same s s' → Expr.Alike same t t' → Forall₂ Stmt.Alike b b' →
      Forall₂ Stmt.Alike e e' → Stmt.Alike (.while s t b e) (.while s' t' b' e')
  | if : Span.Alike same s s' → Expr.Alike same t t' → Forall₂ Stmt.Alike b b' →
      Forall₂ Stmt.Alike e e' → Stmt.Alike (.if s t b e) (.if s' t' b' e')
  | with : Span.Alike same s s' → Forall₂ (WithItem.Alike same) is is' →
      Forall₂ Stmt.Alike b b' → Stmt.Alike (.with s async is b) (.with s' async is' b')
  | match : Span.Alike same s s' → Expr.Alike same v v' → Forall₂ Case.Alike cs cs' →
      Stmt.Alike (.match s v cs) (.match s' v' cs')
  | raise : Span.Alike same s s' → Option.Rel (Expr.Alike same) e e' →
      Option.Rel (Expr.Alike same) c c' → Stmt.Alike (.raise s e c) (.raise s' e' c')
  | try : Span.Alike same s s' → Forall₂ Stmt.Alike b b' → Forall₂ Handler.Alike hs hs' →
      Forall₂ Stmt.Alike e e' → Forall₂ Stmt.Alike f f' →
      Stmt.Alike (.try s group b hs e f) (.try s' group b' hs' e' f')
  | assert : Span.Alike same s s' → Expr.Alike same t t' → Option.Rel (Expr.Alike same) m m' →
      Stmt.Alike (.assert s t m) (.assert s' t' m')
  | import : Span.Alike same s s' → Stmt.Alike (.import s ns) (.import s' ns)
  | importFrom : Span.Alike same s s' →
      Stmt.Alike (.importFrom s m ns level) (.importFrom s' m ns level)
  | global : Span.Alike same s s' → Stmt.Alike (.global s ns) (.global s' ns)
  | nonlocal : Span.Alike same s s' → Stmt.Alike (.nonlocal s ns) (.nonlocal s' ns)
  | pass : Span.Alike same s s' → Stmt.Alike (.pass s) (.pass s')
  | break : Span.Alike same s s' → Stmt.Alike (.break s) (.break s')
  | continue : Span.Alike same s s' → Stmt.Alike (.continue s) (.continue s')

inductive Handler.Alike : Handler → Handler → Prop
  | mk : Span.Alike same s s' → Option.Rel (Expr.Alike same) t t' → Forall₂ Stmt.Alike b b' →
      Handler.Alike (.mk s t n b) (.mk s' t' n b')

inductive Case.Alike : Case → Case → Prop
  | mk : Pattern.Alike same p p' → Option.Rel (Expr.Alike same) g g' → Forall₂ Stmt.Alike b b' →
      Case.Alike (.mk p g b) (.mk p' g' b')

end

/-! ## Trees with the same lines -/

mutual

theorem Expr.eq_of_alike : (e : Expr) → {e' : Expr} → Expr.Alike Eq e e' → e = e'
  | .name .., _, .name hl => by rw [hl]
  | .literal .., _, .literal hl => by rw [hl]
  | .template _ ps, _, .template hl hp => by rw [hl, Expr.eq_of_alikeAll ps hp]
  | .field _ v _ s, _, .field hl hv hs => by
    rw [hl, Expr.eq_of_alike v hv, Expr.eq_of_alikeOption s hs]
  | .unary _ _ e, _, .unary hl he => by rw [hl, Expr.eq_of_alike e he]
  | .binary _ a _ b, _, .binary hl ha hb => by
    rw [hl, Expr.eq_of_alike a ha, Expr.eq_of_alike b hb]
  | .bool _ _ vs, _, .bool hl hv => by rw [hl, Expr.eq_of_alikeAll vs hv]
  | .compare _ a _ bs, _, .compare hl ha hb => by
    rw [hl, Expr.eq_of_alike a ha, Expr.eq_of_alikeAll bs hb]
  | .conditional _ t a b, _, .conditional hl ht ha hb => by
    rw [hl, Expr.eq_of_alike t ht, Expr.eq_of_alike a ha, Expr.eq_of_alike b hb]
  | .lambda _ ps b, _, .lambda hl hp hb => by
    rw [hl, Params.eq_of_alike ps hp, Expr.eq_of_alike b hb]
  | .walrus _ _ v, _, .walrus hl hv => by rw [hl, Expr.eq_of_alike v hv]
  | .attribute _ _ v _, _, .attribute hl hv => by rw [hl, Expr.eq_of_alike v hv]
  | .subscript _ _ v i, _, .subscript hl hv hi => by
    rw [hl, Expr.eq_of_alike v hv, Expr.eq_of_alike i hi]
  | .slice _ a b s, _, .slice hl ha hb hs => by
    rw [hl, Expr.eq_of_alikeOption a ha, Expr.eq_of_alikeOption b hb, Expr.eq_of_alikeOption s hs]
  | .call _ f as ks, _, .call hl hf ha hk => by
    rw [hl, Expr.eq_of_alike f hf, Expr.eq_of_alikeAll as ha, Argument.eq_of_alikeAll ks hk]
  | .list _ es, _, .list hl he => by rw [hl, Expr.eq_of_alikeAll es he]
  | .tuple _ es, _, .tuple hl he => by rw [hl, Expr.eq_of_alikeAll es he]
  | .set _ es, _, .set hl he => by rw [hl, Expr.eq_of_alikeAll es he]
  | .dict _ es, _, .dict hl he => by rw [hl, Entry.eq_of_alikeAll es he]
  | .listComp _ e gs, _, .listComp hl he hg => by
    rw [hl, Expr.eq_of_alike e he, Generator.eq_of_alikeAll gs hg]
  | .setComp _ e gs, _, .setComp hl he hg => by
    rw [hl, Expr.eq_of_alike e he, Generator.eq_of_alikeAll gs hg]
  | .genExp _ e gs, _, .genExp hl he hg => by
    rw [hl, Expr.eq_of_alike e he, Generator.eq_of_alikeAll gs hg]
  | .dictComp _ k v gs, _, .dictComp hl hk hv hg => by
    rw [hl, Expr.eq_of_alike k hk, Expr.eq_of_alike v hv, Generator.eq_of_alikeAll gs hg]
  | .starred _ v, _, .starred hl hv => by rw [hl, Expr.eq_of_alike v hv]
  | .await _ v, _, .await hl hv => by rw [hl, Expr.eq_of_alike v hv]
  | .yield _ v, _, .yield hl hv => by rw [hl, Expr.eq_of_alikeOption v hv]
  | .yieldFrom _ v, _, .yieldFrom hl hv => by rw [hl, Expr.eq_of_alike v hv]
termination_by structural x => x

theorem Expr.eq_of_alikeTarget : (t : Expr) → {t' : Expr} → Expr.AlikeTarget Eq t t' → t = t'
  | .name .., _, .name _ hl => by rw [hl]
  | .attribute _ _ v _, _, .attribute _ hl hv => by rw [hl, Expr.eq_of_alike v hv]
  | .subscript _ _ v i, _, .subscript _ hl hv hi => by
    rw [hl, Expr.eq_of_alike v hv, Expr.eq_of_alike i hi]
  | .list _ ts, _, .list hl ht => by rw [hl, Expr.eq_of_alikeTargets ts ht]
  | .tuple _ ts, _, .tuple hl ht => by rw [hl, Expr.eq_of_alikeTargets ts ht]
  | .starred _ t, _, .starred hl ht => by rw [hl, Expr.eq_of_alikeTarget t ht]
termination_by structural x => x

theorem Expr.eq_of_alikeTargets : (ts : List Expr) → {ts' : List Expr} →
    Forall₂ (Expr.AlikeTarget Eq) ts ts' → ts = ts'
  | [], _, .nil => rfl
  | t :: ts, _, .cons h hs => by rw [Expr.eq_of_alikeTarget t h, Expr.eq_of_alikeTargets ts hs]
termination_by structural x => x

theorem Expr.eq_of_alikeAll : (es : List Expr) → {es' : List Expr} →
    Forall₂ (Expr.Alike Eq) es es' → es = es'
  | [], _, .nil => rfl
  | e :: es, _, .cons h hs => by rw [Expr.eq_of_alike e h, Expr.eq_of_alikeAll es hs]
termination_by structural x => x

theorem Expr.eq_of_alikeOption : (e : Option Expr) → {e' : Option Expr} →
    Option.Rel (Expr.Alike Eq) e e' → e = e'
  | none, _, .none => rfl
  | some e, _, .some h => by rw [Expr.eq_of_alike e h]
termination_by structural x => x

theorem Argument.eq_of_alikeAll : (ks : List Argument) → {ks' : List Argument} →
    Forall₂ (Argument.Alike Eq) ks ks' → ks = ks'
  | [], _, .nil => rfl
  | .mk _ v :: ks, _, .cons (.mk hv) hs => by
    rw [Expr.eq_of_alike v hv, Argument.eq_of_alikeAll ks hs]
termination_by structural x => x

theorem Entry.eq_of_alikeAll : (es : List Entry) → {es' : List Entry} →
    Forall₂ (Entry.Alike Eq) es es' → es = es'
  | [], _, .nil => rfl
  | .pair k v :: es, _, .cons (.pair hk hv) hs => by
    rw [Expr.eq_of_alike k hk, Expr.eq_of_alike v hv, Entry.eq_of_alikeAll es hs]
  | .unpack v :: es, _, .cons (.unpack hv) hs => by
    rw [Expr.eq_of_alike v hv, Entry.eq_of_alikeAll es hs]
termination_by structural x => x

theorem Generator.eq_of_alikeAll : (gs : List Generator) → {gs' : List Generator} →
    Forall₂ (Generator.Alike Eq) gs gs' → gs = gs'
  | [], _, .nil => rfl
  | .mk _ t i cs :: gs, _, .cons (.mk ht hi hc) hs => by
    rw [Expr.eq_of_alikeTarget t ht, Expr.eq_of_alike i hi, Expr.eq_of_alikeAll cs hc,
      Generator.eq_of_alikeAll gs hs]
termination_by structural x => x

theorem Param.eq_of_alike : (p : Param) → {p' : Param} → Param.Alike Eq p p' → p = p'
  | .mk _ h d, _, .mk hh hd => by
    rw [Expr.eq_of_alikeOption h hh, Expr.eq_of_alikeOption d hd]
termination_by structural x => x

theorem Param.eq_of_alikeAll : (ps : List Param) → {ps' : List Param} →
    Forall₂ (Param.Alike Eq) ps ps' → ps = ps'
  | [], _, .nil => rfl
  | p :: ps, _, .cons hp hs => by rw [Param.eq_of_alike p hp, Param.eq_of_alikeAll ps hs]
termination_by structural x => x

theorem Param.eq_of_alikeOption : (p : Option Param) → {p' : Option Param} →
    Option.Rel (Param.Alike Eq) p p' → p = p'
  | none, _, .none => rfl
  | some p, _, .some hp => by rw [Param.eq_of_alike p hp]
termination_by structural x => x

theorem Params.eq_of_alike : (ps : Params) → {ps' : Params} → Params.Alike Eq ps ps' → ps = ps'
  | .mk ps qs r ks k, _, .mk hps hqs hr hks hk => by
    rw [Param.eq_of_alikeAll ps hps, Param.eq_of_alikeAll qs hqs, Param.eq_of_alikeOption r hr,
      Param.eq_of_alikeAll ks hks, Param.eq_of_alikeOption k hk]
termination_by structural x => x

end

mutual

theorem Pattern.eq_of_alike : (p : Pattern) → {p' : Pattern} → Pattern.Alike Eq p p' → p = p'
  | .value e, _, .value he => by rw [Expr.eq_of_alike e he]
  | .singleton _, _, .singleton => rfl
  | .sequence ps, _, .sequence hp => by rw [Pattern.eq_of_alikeAll ps hp]
  | .mapping ks ps _, _, .mapping hk hp => by
    rw [Expr.eq_of_alikeAll ks hk, Pattern.eq_of_alikeAll ps hp]
  | .classOf c ps _ qs, _, .classOf hc hp hq => by
    rw [Expr.eq_of_alike c hc, Pattern.eq_of_alikeAll ps hp, Pattern.eq_of_alikeAll qs hq]
  | .star _, _, .star => rfl
  | .as p _, _, .as hp => by rw [Pattern.eq_of_alikeOption p hp]
  | .or ps, _, .or hp => by rw [Pattern.eq_of_alikeAll ps hp]
termination_by structural x => x

theorem Pattern.eq_of_alikeAll : (ps : List Pattern) → {ps' : List Pattern} →
    Forall₂ (Pattern.Alike Eq) ps ps' → ps = ps'
  | [], _, .nil => rfl
  | p :: ps, _, .cons hp hs => by rw [Pattern.eq_of_alike p hp, Pattern.eq_of_alikeAll ps hs]
termination_by structural x => x

theorem Pattern.eq_of_alikeOption : (p : Option Pattern) → {p' : Option Pattern} →
    Option.Rel (Pattern.Alike Eq) p p' → p = p'
  | none, _, .none => rfl
  | some p, _, .some hp => by rw [Pattern.eq_of_alike p hp]
termination_by structural x => x

end

theorem Span.eq_of_alike {s s' : Span} (h : Span.Alike Eq s s') : s = s' := by
  cases s
  cases s'
  cases h.first
  cases h.last
  rfl

theorem WithItem.eq_of_alikeAll {is is' : List WithItem} (h : Forall₂ (WithItem.Alike Eq) is is') :
    is = is' := by
  induction h with
  | nil => rfl
  | @cons i i' is is' hi _ ih =>
    have hitem : i = i' := by
      obtain ⟨context, target⟩ := i
      obtain ⟨context', target'⟩ := i'
      obtain ⟨hcontext, htarget⟩ := hi
      cases Expr.eq_of_alike _ hcontext
      cases htarget with
      | none => rfl
      | some ht => cases Expr.eq_of_alikeTarget _ ht; rfl
    rw [hitem, ih]

mutual

theorem Stmt.eq_of_alike : (s : Stmt) → {s' : Stmt} → Stmt.Alike Eq s s' → s = s'
  | .expr _ v, _, .expr hs hv => by rw [Span.eq_of_alike hs, Expr.eq_of_alike v hv]
  | .assign _ ts v, _, .assign hs ht hv => by
    rw [Span.eq_of_alike hs, Expr.eq_of_alikeTargets ts ht, Expr.eq_of_alike v hv]
  | .augAssign _ t _ v, _, .augAssign hs ht hv => by
    rw [Span.eq_of_alike hs, Expr.eq_of_alikeTarget t ht, Expr.eq_of_alike v hv]
  | .annAssign _ t h v _, _, .annAssign hs ht hh hv => by
    rw [Span.eq_of_alike hs, Expr.eq_of_alikeTarget t ht, Expr.eq_of_alike h hh,
      Expr.eq_of_alikeOption v hv]
  | .functionDef _ _ _ ps b ds r, _, .functionDef hs hp hb hd hr => by
    rw [Span.eq_of_alike hs, Params.eq_of_alike ps hp, Stmt.eq_of_alikeAll b hb,
      Expr.eq_of_alikeAll ds hd, Expr.eq_of_alikeOption r hr]
  | .classDef _ _ as ks b ds, _, .classDef hs ha hk hb hd => by
    rw [Span.eq_of_alike hs, Expr.eq_of_alikeAll as ha, Argument.eq_of_alikeAll ks hk,
      Stmt.eq_of_alikeAll b hb, Expr.eq_of_alikeAll ds hd]
  | .return _ v, _, .return hs hv => by rw [Span.eq_of_alike hs, Expr.eq_of_alikeOption v hv]
  | .delete _ ts, _, .delete hs ht => by rw [Span.eq_of_alike hs, Expr.eq_of_alikeTargets ts ht]
  | .for _ _ t i b e, _, .for hs ht hi hb he => by
    rw [Span.eq_of_alike hs, Expr.eq_of_alikeTarget t ht, Expr.eq_of_alike i hi,
      Stmt.eq_of_alikeAll b hb,
      Stmt.eq_of_alikeAll e he]
  | .while _ t b e, _, .while hs ht hb he => by
    rw [Span.eq_of_alike hs, Expr.eq_of_alike t ht, Stmt.eq_of_alikeAll b hb,
      Stmt.eq_of_alikeAll e he]
  | .if _ t b e, _, .if hs ht hb he => by
    rw [Span.eq_of_alike hs, Expr.eq_of_alike t ht, Stmt.eq_of_alikeAll b hb,
      Stmt.eq_of_alikeAll e he]
  | .with _ _ _ b, _, .with hs hi hb => by
    rw [Span.eq_of_alike hs, WithItem.eq_of_alikeAll hi, Stmt.eq_of_alikeAll b hb]
  | .match _ v cs, _, .match hs hv hc => by
    rw [Span.eq_of_alike hs, Expr.eq_of_alike v hv, Case.eq_of_alikeAll cs hc]
  | .raise _ e c, _, .raise hs he hc => by
    rw [Span.eq_of_alike hs, Expr.eq_of_alikeOption e he, Expr.eq_of_alikeOption c hc]
  | .try _ _ b hs e f, _, .try hsp hb hh he hf => by
    rw [Span.eq_of_alike hsp, Stmt.eq_of_alikeAll b hb, Handler.eq_of_alikeAll hs hh,
      Stmt.eq_of_alikeAll e he, Stmt.eq_of_alikeAll f hf]
  | .assert _ t m, _, .assert hs ht hm => by
    rw [Span.eq_of_alike hs, Expr.eq_of_alike t ht, Expr.eq_of_alikeOption m hm]
  | .import .., _, .import hs => by rw [Span.eq_of_alike hs]
  | .importFrom .., _, .importFrom hs => by rw [Span.eq_of_alike hs]
  | .global .., _, .global hs => by rw [Span.eq_of_alike hs]
  | .nonlocal .., _, .nonlocal hs => by rw [Span.eq_of_alike hs]
  | .pass _, _, .pass hs => by rw [Span.eq_of_alike hs]
  | .break _, _, .break hs => by rw [Span.eq_of_alike hs]
  | .continue _, _, .continue hs => by rw [Span.eq_of_alike hs]
termination_by structural x => x

theorem Stmt.eq_of_alikeAll : (ss : List Stmt) → {ss' : List Stmt} →
    Forall₂ (Stmt.Alike Eq) ss ss' → ss = ss'
  | [], _, .nil => rfl
  | s :: ss, _, .cons h hs => by rw [Stmt.eq_of_alike s h, Stmt.eq_of_alikeAll ss hs]
termination_by structural x => x

theorem Handler.eq_of_alikeAll : (hs : List Handler) → {hs' : List Handler} →
    Forall₂ (Handler.Alike Eq) hs hs' → hs = hs'
  | [], _, .nil => rfl
  | .mk _ t _ b :: hs, _, .cons (.mk h ht hb) hrest => by
    rw [Span.eq_of_alike h, Expr.eq_of_alikeOption t ht, Stmt.eq_of_alikeAll b hb,
      Handler.eq_of_alikeAll hs hrest]
termination_by structural x => x

theorem Case.eq_of_alikeAll : (cs : List Case) → {cs' : List Case} →
    Forall₂ (Case.Alike Eq) cs cs' → cs = cs'
  | [], _, .nil => rfl
  | .mk p g b :: cs, _, .cons (.mk hp hg hb) hrest => by
    rw [Pattern.eq_of_alike p hp, Expr.eq_of_alikeOption g hg, Stmt.eq_of_alikeAll b hb,
      Case.eq_of_alikeAll cs hrest]
termination_by structural x => x

end

end NotebookSlice.Syntax
