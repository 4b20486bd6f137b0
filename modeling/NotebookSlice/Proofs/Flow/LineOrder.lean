import NotebookSlice.Proofs.Flow.Descent

/-! # The order of lines

Units stand in the order of the text: a unit begins no earlier than the units before it
end, and within the lines of its statement. All that is used of the code is that its
positions are nested; a clause that the text puts anywhere between two blocks is in
order too.
-/

namespace NotebookSlice.Flow

open Syntax

/-! ## Nested positions -/

/-- The statements of a block follow one another; two of them may share a line. -/
def Follow (ss : List Stmt) : Prop := ss.IsChain fun s t => s.span.last ≤ firstLine t

theorem Follow.append {ss ts : List Stmt} (h : Follow ss) (h' : Follow ts)
    (hle : blockLast ss ≤ blockFirst ts) : Follow (ss ++ ts) := by
  refine List.isChain_append.mpr ⟨h, h', fun s hs t ht => ?_⟩
  have hlast : blockLast ss = s.span.last := by rw [blockLast, Option.mem_def.mp hs]; rfl
  cases ts with
  | nil => cases ht
  | cons t' ts =>
    obtain rfl : t' = t := Option.some.inj ht
    exact hlast ▸ hle

/-- The handlers follow a block that ends on the line `after`, and one another. -/
def HandlersFollow : (after : ℕ) → List Handler → Prop
  | _, [] => True
  | after, h :: hs => after < h.span.first ∧ h.span.first ≤ blockFirst h.body ∧ Follow h.body ∧
    HandlersFollow (blockLast h.body) hs

/-- The positions of the parts of a statement are nested in its own. Its decorators may stand
anywhere, as it begins with the first of them. -/
structure Placed (s : Stmt) : Prop where
  filled : isFilled s = true
  span : s.span.first ≤ s.span.last
  body : (Node.stmt s).body ≠ [] → s.span.first ≤ blockFirst (Node.stmt s).body ∧
    Follow (Node.stmt s).body ∧ blockLast (Node.stmt s).body ≤ s.span.last
  handlers : HandlersFollow (blockLast (Node.stmt s).body) (Node.stmt s).handlers
  handlers_last : ∀ h ∈ (Node.stmt s).handlers, blockLast h.body ≤ s.span.last
  branches : ∀ b ∈ (Node.stmt s).branches, b.block ≠ [] → b.after < blockFirst b.block ∧
    Follow b.block ∧ blockLast b.block ≤ s.span.last

/-- Statements with nested positions between two lines. -/
structure Inside (first last : ℕ) (ss : List Stmt) : Prop where
  placed : ∀ s ∈ ss, Throughout Placed s
  follow : Follow ss
  first_le : ss ≠ [] → first ≤ blockFirst ss
  le_last : blockLast ss ≤ last

theorem Inside.nil {first last : ℕ} : Inside first last [] :=
  ⟨List.forall_mem_nil _, .nil, fun h => absurd rfl h, Nat.zero_le last⟩

theorem HandlersFollow.snoc {hs : List Handler} {g : Handler} {after : ℕ}
    (h : HandlersFollow after hs) (hlt : hs.foldl (fun _ h => blockLast h.body) after < g.span.first)
    (hle : g.span.first ≤ blockFirst g.body) (hfollow : Follow g.body) :
    HandlersFollow after (hs ++ [g]) := by
  induction hs generalizing after with
  | nil => exact ⟨hlt, hle, hfollow, trivial⟩
  | cons _ hs ih => exact ⟨h.1, h.2.1, h.2.2.1, ih h.2.2.2 hlt⟩

/-- A statement is nested in all of its parts if each of its blocks stands inside of it. -/
theorem Throughout.placed {s : Stmt} (hfilled : isFilled s = true)
    (hspan : s.span.first ≤ s.span.last)
    (hbody : Inside s.span.first s.span.last (Node.stmt s).body)
    (hfollow : HandlersFollow (blockLast (Node.stmt s).body) (Node.stmt s).handlers)
    (hhandlers : ∀ h ∈ (Node.stmt s).handlers, Inside h.span.first s.span.last h.body)
    (hbranches : ∀ b ∈ (Node.stmt s).branches, Inside (b.after + 1) s.span.last b.block) :
    Throughout Placed s := by
  refine .intro ⟨hfilled, hspan, fun hne => ⟨hbody.first_le hne, hbody.follow, hbody.le_last⟩,
    hfollow, fun h hh => (hhandlers h hh).le_last, fun b hb hne =>
      ⟨(hbranches b hb).first_le hne, (hbranches b hb).follow, (hbranches b hb).le_last⟩⟩ ?_
  intro t ht
  rcases Node.exists_of_mem_parts ht with ht | ⟨h, hh, ht⟩ | ⟨b, hb, ht⟩
  · exact hbody.placed t ht
  · exact (hhandlers h hh).placed t ht
  · exact (hbranches b hb).placed t ht

namespace Node

def Placed : Node → Prop
  | .stmt s => Throughout Flow.Placed s
  | n => n.body ≠ [] ∧ n.first ≤ blockFirst n.body ∧ Follow n.body ∧
    ∀ s ∈ n.body, Throughout Flow.Placed s

def stop : Node → ℕ
  | .stmt s => s.span.last
  | n => blockLast n.body

end Node

/-- The nodes follow one another between the two lines. -/
def Stacked : (first : ℕ) → List Node → (last : ℕ) → Prop
  | first, [], last => first ≤ last
  | first, n :: ns, last => first ≤ n.first ∧ n.Placed ∧ Stacked n.stop ns last

namespace Stacked

variable {ns ns' : List Node} {ss : List Stmt} {hs : List Handler} {first middle last last' : ℕ}

theorem lower (hle : first ≤ middle) (h : Stacked middle ns last) : Stacked first ns last := by
  cases ns with
  | nil => exact Nat.le_trans hle h
  | cons n ns => exact ⟨Nat.le_trans hle h.1, h.2⟩

theorem raise (h : Stacked first ns last) (hle : last ≤ last') : Stacked first ns last' := by
  induction ns generalizing first with
  | nil => exact Nat.le_trans h hle
  | cons n ns ih => exact ⟨h.1, h.2.1, ih h.2.2⟩

theorem append (h : Stacked first ns middle) (h' : Stacked middle ns' last) :
    Stacked first (ns ++ ns') last := by
  induction ns generalizing first with
  | nil => exact h'.lower h
  | cons n ns ih => exact ⟨h.1, h.2.1, ih h.2.2⟩

theorem block (hne : ss ≠ []) (hfirst : first ≤ blockFirst ss) (hfollow : Follow ss)
    (hplaced : ∀ s ∈ ss, Throughout Placed s) :
    Stacked first (ss.map .stmt) (blockLast ss) := by
  induction ss generalizing first with
  | nil => exact absurd rfl hne
  | cons s ss ih =>
    obtain ⟨hs, hss⟩ := List.forall_mem_cons.mp hplaced
    refine ⟨hfirst, hs, ?_⟩
    cases ss with
    | nil => exact Nat.le_refl s.span.last
    | cons t ss =>
      obtain ⟨hst, hfollow⟩ := List.isChain_cons_cons.mp hfollow
      exact ih (List.cons_ne_nil t ss) hst hfollow hss

theorem handlers (h : HandlersFollow first hs)
    (hplaced : ∀ g ∈ hs, g.body ≠ [] ∧ ∀ s ∈ g.body, Throughout Placed s) :
    Stacked first (hs.map .handler) (hs.foldl (fun _ g => blockLast g.body) first) := by
  induction hs generalizing first with
  | nil => exact Nat.le_refl first
  | cons g hs ih =>
    obtain ⟨⟨hne, hg⟩, hhs⟩ := List.forall_mem_cons.mp hplaced
    obtain ⟨hafter, hfirst, hfollow, hrest⟩ := h
    exact ⟨Nat.le_of_lt hafter, ⟨hne, hfirst, hfollow, hg⟩, ih hrest hhs⟩

end Stacked

/-! ## Clauses -/

theorem le_of_findLine {test : ℕ → Bool} {first count line : ℕ}
    (h : findLine test first count = some line) : first ≤ line := by
  induction count generalizing first with
  | zero => cases h
  | succ count ih =>
    unfold findLine at h
    split at h
    · exact Nat.le_of_eq (Option.some.inj h)
    · exact Nat.le_of_succ_le (ih h)

theorem lt_of_findLine {test : ℕ → Bool} {first count line : ℕ}
    (h : findLine test first count = some line) : line < first + count := by
  induction count generalizing first with
  | zero => cases h
  | succ count ih =>
    unfold findLine at h
    split at h
    · obtain rfl := Option.some.inj h
      omega
    · have := ih h
      omega

/-- Wherever the line of a part is found, it lies after the block before it, and not after the
line on which its own block begins. -/
theorem Branch.line_bounds {lines : Option (List String)} {b : Branch} {line : ℕ}
    (h : b.line? lines = some line) : b.after < line ∧ line ≤ blockFirst b.block := by
  unfold line? clauseLine at h
  split at h
  · have hle := le_of_findLine h
    have hlt := lt_of_findLine h
    omega
  · split at h
    · obtain rfl := Option.some.inj h
      omega
    · cases h

/-- The last line after a part that may be missing. -/
def Branch.stop (b : Branch) : ℕ := if b.block.isEmpty then b.after else blockLast b.block

theorem Stacked.branch {lines : Option (List String)} {b : Branch}
    (hplaced : b.block ≠ [] → b.after < blockFirst b.block ∧ Follow b.block)
    (hblock : ∀ s ∈ b.block, Throughout Placed s) :
    Stacked b.after (b.nodes lines) b.stop := by
  unfold Branch.nodes Branch.stop
  split
  · exact Nat.le_refl b.after
  · rename_i hsome
    have hne : b.block ≠ [] := by simpa using hsome
    obtain ⟨hafter, hfollow⟩ := hplaced hne
    split
    · exact .block hne (Nat.le_of_lt hafter) hfollow hblock
    · rename_i line hline
      obtain ⟨hlt, hle⟩ := Branch.line_bounds hline
      exact ⟨Nat.le_of_lt hlt, ⟨hne, hle, hfollow, hblock⟩, Nat.le_refl _⟩

theorem Branch.stop_le {b : Branch} {last : ℕ} (hafter : b.after ≤ last)
    (hblock : b.block ≠ [] → blockLast b.block ≤ last) : b.stop ≤ last := by
  unfold stop
  split
  · exact hafter
  · rename_i hsome
    exact hblock (by simpa using hsome)

theorem foldl_blockLast_le {hs : List Handler} {after last : ℕ} (hafter : after ≤ last)
    (hhs : ∀ h ∈ hs, blockLast h.body ≤ last) :
    hs.foldl (fun _ h => blockLast h.body) after ≤ last := by
  induction hs generalizing after with
  | nil => exact hafter
  | cons h hs ih =>
    obtain ⟨hh, hhs⟩ := List.forall_mem_cons.mp hhs
    exact ih hh hhs

theorem firstLine_le (s : Stmt) : firstLine s ≤ s.span.first := by
  have hfold (ds : List Expr) (n : ℕ) : ds.foldl (fun n d => min n d.line) n ≤ n := by
    induction ds generalizing n with
    | nil => exact Nat.le_refl n
    | cons d ds ih => exact Nat.le_trans (ih _) (Nat.min_le_left n d.line)
  exact hfold s.decorators s.span.first

/-! ## Nodes -/

section

variable {lines : Option (List String)} {s : Stmt} {n : Node}

/-- The block of a header begins after all lines of the header but its last one. -/
theorem stacked_body (h : Throughout Placed s) (hhead : (Node.stmt s).kind = .header) :
    Stacked (max (Node.stmt s).first (Node.stmt s).last) ((Node.stmt s).body.map .stmt)
      (blockLast (Node.stmt s).body) := by
  have hne : (Node.stmt s).body ≠ [] := by
    have hfilled := h.self.filled
    cases s <;> simp_all [Node.body, Node.kind, isWhole, isFilled]
  obtain ⟨hfirst, hfollow, -⟩ := h.self.body hne
  have hle := firstLine_le s
  refine .block hne ?_ hfollow fun t ht => h.part (Node.mem_parts_of_body ht)
  cases hwhole : isWhole s with
  | true => simp [Node.kind, hwhole] at hhead
  | false =>
    simp only [Node.first, Node.last, hwhole, Bool.false_eq_true, if_false]
    omega

theorem stacked_of_branch (h : Throughout Placed s) {b : Branch} (hb : b ∈ (Node.stmt s).branches) :
    Stacked b.after (b.nodes lines) b.stop :=
  .branch (fun hne => ⟨(h.self.branches b hb hne).1, (h.self.branches b hb hne).2.1⟩)
    fun _ ht => h.part (Node.mem_parts_of_branch hb ht)

theorem stop_le_of_branch (h : Placed s) {b : Branch} (hb : b ∈ (Node.stmt s).branches)
    (hafter : b.after ≤ s.span.last) : b.stop ≤ s.span.last :=
  Branch.stop_le hafter fun hne => (h.branches b hb hne).2.2

/-- The handlers and the parts after them follow the block of a header. -/
theorem stacked_others (h : Throughout Placed s) (hhead : (Node.stmt s).kind = .header) :
    Stacked (blockLast (Node.stmt s).body) ((Node.stmt s).others lines) s.span.last := by
  have hlast : blockLast (Node.stmt s).body ≤ s.span.last := by
    by_cases hne : (Node.stmt s).body = []
    · rw [hne]
      exact Nat.zero_le _
    · exact (h.self.body hne).2.2
  have hsingle {b : Branch} (hb : (Node.stmt s).branches = [b])
      (hhandlers : (Node.stmt s).handlers = []) (hafter : b.after = blockLast (Node.stmt s).body) :
      Stacked (blockLast (Node.stmt s).body) ((Node.stmt s).others lines) s.span.last := by
    have hmem : b ∈ (Node.stmt s).branches := hb ▸ List.mem_singleton_self b
    rw [Node.others, hhandlers, hb, List.map_nil, List.nil_append, List.flatMap_singleton, ← hafter]
    exact (stacked_of_branch h hmem).raise (stop_le_of_branch h.self hmem (hafter ▸ hlast))
  cases s with
  | «if» | «while» | «for» => exact hsingle rfl rfl rfl
  | «with» => exact hlast
  | «try» span group body handlers orelse final =>
    have hfilled : ∀ g ∈ handlers, g.body ≠ [] := by
      have hself := h.self.filled
      simp only [isFilled, Bool.and_eq_true, List.all_eq_true] at hself
      intro g hg
      simpa using hself.2 g hg
    have hhandlers := Stacked.handlers h.self.handlers fun g hg =>
      ⟨hfilled g hg, fun t ht => h.part (Node.mem_parts_of_handler hg ht)⟩
    have hle := stop_le_of_branch h.self List.mem_cons_self
      (foldl_blockLast_le hlast h.self.handlers_last)
    have helse := @stacked_of_branch lines _ h _ List.mem_cons_self
    have hfinal := @stacked_of_branch lines _ h _ (List.mem_cons_of_mem _ List.mem_cons_self)
    have hle' := stop_le_of_branch h.self (List.mem_cons_of_mem _ List.mem_cons_self) hle
    simp only [Node.others, Node.handlers, Node.branches, List.flatMap_cons, List.flatMap_nil,
      List.append_nil]
    exact hhandlers.append (helse.append (hfinal.raise hle'))
  | _ => cases hhead

/-- What stands below a node lies between the last line of its own unit and its own last line. -/
theorem Node.Placed.stacked (h : n.Placed) :
    ∃ middle, Stacked (max n.first n.last) (n.body.map .stmt) middle ∧
      Stacked middle (n.others lines) n.stop := by
  have hblock (hne : n.body ≠ []) (hfirst : n.first ≤ blockFirst n.body)
      (hlast : n.last = blockFirst n.body - 1) (hfollow : Follow n.body)
      (hbody : ∀ s ∈ n.body, Throughout Flow.Placed s) :
      Stacked (max n.first n.last) (n.body.map .stmt) (blockLast n.body) :=
    .block hne (by omega) hfollow hbody
  cases n with
  | handler g =>
    obtain ⟨hne, hfirst, hfollow, hbody⟩ := h
    exact ⟨_, hblock hne hfirst rfl hfollow hbody, Nat.le_refl _⟩
  | clause line block =>
    obtain ⟨hne, hfirst, hfollow, hbody⟩ := h
    exact ⟨_, hblock hne hfirst rfl hfollow hbody, Nat.le_refl _⟩
  | stmt s =>
    cases hkind : (Node.stmt s).kind with
    | header => exact ⟨_, stacked_body h hkind, stacked_others h hkind⟩
    | clause => cases s <;> cases hkind
    | statement =>
      have hle := firstLine_le s
      have hspan := h.self.span
      have hlast : max (firstLine s) s.span.last ≤ s.span.last := by omega
      cases s <;> first | exact ⟨_, hlast, Nat.le_refl _⟩ | cases hkind

end

/-! ## Units -/

def Statement.HasLine (u : Statement) (n : ℕ) : Prop := u.first ≤ n ∧ n ≤ u.last

/-- The units lie between the two lines, each beginning where those before it have ended. -/
structure Ordered (first last : ℕ) (units : List Statement) : Prop where
  le : first ≤ last
  within : ∀ u ∈ units, first ≤ u.first ∧ u.first ≤ u.last ∧ u.last ≤ last
  pairwise : units.Pairwise fun u v => u.last ≤ v.first

namespace Ordered

variable {first middle last : ℕ} {units rest : List Statement} {u : Statement}

theorem append (h : Ordered first middle units) (h' : Ordered middle last rest) :
    Ordered first last (units ++ rest) where
  le := Nat.le_trans h.le h'.le
  within := by
    refine List.forall_mem_append.mpr ⟨fun u hu => ?_, fun u hu => ?_⟩
    · obtain ⟨hfirst, hle, hlast⟩ := h.within u hu
      exact ⟨hfirst, hle, Nat.le_trans hlast h'.le⟩
    · obtain ⟨hfirst, hle, hlast⟩ := h'.within u hu
      exact ⟨Nat.le_trans h.le hfirst, hle, hlast⟩
  pairwise := List.pairwise_append.mpr ⟨h.pairwise, h'.pairwise, fun u hu v hv =>
    Nat.le_trans (h.within u hu).2.2 (h'.within v hv).1⟩

theorem cons (hfirst : first ≤ u.first) (hle : u.first ≤ u.last)
    (h : Ordered u.last last units) : Ordered first last (u :: units) :=
  append ⟨Nat.le_trans hfirst hle,
    List.forall_mem_singleton.mpr ⟨hfirst, hle, Nat.le_refl u.last⟩, List.pairwise_singleton _ u⟩ h

end Ordered

theorem Grows.ordered {c : Configuration} {lines : Option (List String)} {parent : Option ℕ}
    {next first last : ℕ} {ns : List Node} {roots : List ℕ} {us : List (Node × Statement)}
    (h : Grows c lines parent next ns roots us) (hns : Stacked first ns last) :
    Ordered first last (us.map Prod.snd) := by
  induction h generalizing first last with
  | nil => exact ⟨hns, by simp, .nil⟩
  | @cons parent next n ns ids parts roots block others siblings _ _ _ ihb iho ihs =>
    obtain ⟨hfirst, hn, hns⟩ := hns
    obtain ⟨middle, hblock, hothers⟩ : ∃ middle,
        Stacked (max n.first n.last) (n.body.map .stmt) middle ∧
        Stacked middle (n.others lines) n.stop := hn.stacked
    simp only [List.map_append, List.map_cons]
    exact .append (.cons hfirst (Nat.le_max_left ..) ((ihb hblock).append (iho hothers))) (ihs hns)

variable (c : Configuration) (lines : Option (List String))

theorem ordered_walk {s : Stmt} (h : Throughout Placed s) (parent : Option ℕ) (next : ℕ) :
    Ordered (firstLine s) s.span.last (walk c lines s parent next) := by
  obtain ⟨us, hus, heq⟩ := (yields_walk_all c lines).1 s parent next
  exact heq ▸ hus.ordered ⟨Nat.le_refl _, h, Nat.le_refl _⟩

theorem forall₂_unitsOfEach {ss : List Stmt} (h : ∀ s ∈ ss, Throughout Placed s) (next : ℕ) :
    List.Forall₂ (fun s units => ∀ u ∈ units,
        firstLine s ≤ u.first ∧ u.first ≤ u.last ∧ u.last ≤ s.span.last)
      ss (unitsOfEach c lines ss next) := by
  induction ss generalizing next with
  | nil => exact .nil
  | cons s ss ih =>
    obtain ⟨hs, hss⟩ := List.forall_mem_cons.mp h
    exact .cons (ordered_walk c lines hs none next).within (ih hss _)

theorem ordered_walkAll {ss : List Stmt} (hne : ss ≠ []) (h : ∀ s ∈ ss, Throughout Placed s)
    (hfollow : Follow ss) (next : ℕ) :
    Ordered (blockFirst ss) (blockLast ss) (walkAll c lines ss next) := by
  obtain ⟨roots, us, hus, heq⟩ := yields_walkAll c lines ss next
  exact heq ▸ hus.ordered (.block hne (Nat.le_refl _) hfollow h)

theorem pairwise_walkAll {ss : List Stmt} (h : ∀ s ∈ ss, Throughout Placed s)
    (hfollow : Follow ss) (next : ℕ) :
    (walkAll c lines ss next).Pairwise fun u v => u.last ≤ v.first := by
  cases ss with
  | nil => exact .nil
  | cons s ss => exact (ordered_walkAll c lines (List.cons_ne_nil s ss) h hfollow next).pairwise

/-- Whatever text is given, the units of code with nested positions stand in the order of the text:
each lies within the lines of its statement and begins no earlier than those before it end, so that
two of them share one line at most. -/
theorem analyze_inLineOrder {ss : List Stmt} (h : ∀ s ∈ ss, Throughout Placed s)
    (hfollow : Follow ss) (source : Option String) :
    (unitsOfEach c (source.map Text.lines) ss 0).flatten = analyze c ss source ∧
      List.Forall₂ (fun s units => ∀ u ∈ units,
          firstLine s ≤ u.first ∧ u.first ≤ u.last ∧ u.last ≤ s.span.last)
        ss (unitsOfEach c (source.map Text.lines) ss 0) ∧
      (analyze c ss source).Pairwise fun u v => u.last ≤ v.first ∧
        ∀ m n, u.HasLine m → v.HasLine m → u.HasLine n → v.HasLine n → m = n := by
  refine ⟨flatten_unitsOfEach _ _ ss 0, forall₂_unitsOfEach c _ h 0,
    (pairwise_walkAll c _ h hfollow 0).imp fun hle => ⟨hle, ?_⟩⟩
  rintro m n ⟨-, hm⟩ ⟨hm', -⟩ ⟨-, hn⟩ ⟨hn', -⟩
  omega

theorem placed_of_isWhole {s : Stmt} (h : isWhole s = true) (hspan : s.span.first ≤ s.span.last) :
    Throughout Placed s := by
  have hself : Placed s := by
    cases s <;> first
      | exact ⟨rfl, hspan, fun hne => absurd rfl hne, trivial, by simp [Node.handlers],
          by simp [Node.branches]⟩
      | cases h
  have hparts : parts s = [] := by
    cases s <;> first | rfl | cases h
  exact .intro hself (by simp [hparts])

/-- Code with a decorated function, a block on the line of its header, a handler, and parts after
blocks. -/
def laidOutCode : List Stmt :=
  [.functionDef ⟨2, 2⟩ false "f" .empty [.pass ⟨2, 2⟩] [.name 1 .load "d"] none,
    .while ⟨3, 6⟩ (.name 3 .load "a") [.pass ⟨3, 3⟩, .break ⟨3, 3⟩] [.pass ⟨6, 6⟩],
    .try ⟨7, 12⟩ false [.pass ⟨8, 8⟩] [.mk ⟨9, 9⟩ (some (.name 9 .load "E")) none [.pass ⟨9, 9⟩]] []
      [.pass ⟨12, 12⟩]]

theorem placed_laidOutCode : ∀ s ∈ laidOutCode, Throughout Placed s := by
  have hpass (n : ℕ) : Throughout Placed (.pass ⟨n, n⟩) := placed_of_isWhole rfl (Nat.le_refl n)
  have hbreak (n : ℕ) : Throughout Placed (.break ⟨n, n⟩) := placed_of_isWhole rfl (Nat.le_refl n)
  simp only [laidOutCode, List.forall_mem_cons, List.not_mem_nil, false_imp_iff, implies_true,
    and_true]
  refine ⟨placed_of_isWhole rfl (by decide), .intro ?_ ?_, .intro ?_ ?_⟩
  · constructor <;> simp [isFilled, Stmt.span, Node.body, Node.handlers, Node.branches,
      HandlersFollow, Follow, blockFirst, blockLast, firstLine, Stmt.decorators]
  · simp [parts, hpass, hbreak]
  · constructor <;> simp [isFilled, Stmt.span, Node.body, Node.handlers, Node.branches,
      HandlersFollow, Follow, blockFirst, blockLast, firstLine, Stmt.decorators, Handler.span,
      Handler.body, afterHandlers]
  · simp [parts, hpass, Handler.body]

/-- A text that is not that of the code: its only clause is on the line of a block. -/
def unrelatedText : String := "\n\n\n\n\nelse:"

theorem analyze_inLineOrder_unrelatedText :
    (∀ s ∈ laidOutCode, Throughout Placed s) ∧ Follow laidOutCode ∧
      (analyze .empty laidOutCode (some unrelatedText)).map (fun u => (u.first, u.last)) =
        [(1, 2), (3, 3), (3, 3), (3, 3), (6, 6), (6, 6), (7, 7), (8, 8), (9, 9), (9, 9), (12, 12)] ∧
      (unitsOfEach .empty ((some unrelatedText).map Text.lines) laidOutCode 0).flatten =
        analyze .empty laidOutCode (some unrelatedText) ∧
      List.Forall₂ (fun s units => ∀ u ∈ units,
          firstLine s ≤ u.first ∧ u.first ≤ u.last ∧ u.last ≤ s.span.last)
        laidOutCode (unitsOfEach .empty ((some unrelatedText).map Text.lines) laidOutCode 0) ∧
      (analyze .empty laidOutCode (some unrelatedText)).Pairwise fun u v => u.last ≤ v.first ∧
        ∀ m n, u.HasLine m → v.HasLine m → u.HasLine n → v.HasLine n → m = n := by
  have hfollow : Follow laidOutCode := by
    simp [Follow, laidOutCode, firstLine, Stmt.span, Stmt.decorators]
  exact ⟨placed_laidOutCode, hfollow, by decide +kernel,
    analyze_inLineOrder .empty placed_laidOutCode hfollow _⟩

end NotebookSlice.Flow
