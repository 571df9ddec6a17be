import OptionTypes.Proofs.Grammar.Statement
import OptionTypes.Script

/-!
# Every script has a complete tree

The rules of the grammar are tied together by a bound on the depth, so what holds of each rule holds
of every goal by induction on the depth. Comments come last: each is put between nodes, so that the
nodes keep what they had, and none gets into another comment, since they lie one before the other.

* `plain_readGoal`: the grammar without types gives what it should, at any depth.
* `wellFormed_parse`: each node of the tree of a source has all that it is evaluated by, and each
  comment in it is a leaf that plays no part.
-/

namespace OptionTypes.Syntax

open Evaluation (isComplete isOperand partsOf holdsOperand)

/-! ## The rules tied together -/

section Rules

variable {G : Grammar} (hG : G.Plain)
include hG

/-- Each item of a sequence is intact, for the sequences that are read without types. -/
theorem yields_itemOf {sequence : Items} (h : sequence.isTyped = false) :
    Yields Intact (item G sequence) := by
  cases sequence with
  | elements => exact yields_item hG
  | arguments => exact yields_item hG
  | members => exact yields_objectMember hG
  | patternElements => exact yields_patternElement hG
  | patternMembers => exact yields_patternMember hG
  | parameters => exact yields_parameter hG
  | importSpecifiers => exact yields_specifier hG rfl
  | exportSpecifiers => exact yields_specifier hG rfl
  | typeParameters => cases h
  | typeArguments => cases h
  | enumMembers => cases h

omit hG in
/-- What each tree of a goal is like is enough, but for expressions. -/
theorem yields_post {g : Goal} {r : Reader (List Tree)} (hne : ∀ x, g ≠ .expressions x)
    (h : Yields (fun ts => ∀ t ∈ ts, g.PostTree t) r) : Yields g.Post r :=
  h.mono fun _ hts => ⟨hts, fun x hx => absurd hx (hne x)⟩

/-- **Each rule gives what it should if the goals below it do.** One case for each goal. -/
theorem yields_produce (g : Goal) (hg : g.Pre) : Yields g.Post (produce G g) := by
  -- the goals that are read with types only have a precondition that never holds
  cases g with
  | statement => exact yields_post nofun (yields_statement_ hG).single
  | statements ending => exact yields_post nofun (yields_statements hG ending)
  | declarators x => exact yields_post nofun (yields_declarators hG x)
  | cases => exact yields_post nofun (yields_cases hG)
  | classMembers => exact yields_post nofun (yields_classMembers hG)
  | expressions x => exact yields_expressions hG x
  | commas x => exact yields_post nofun (yields_commas hG x)
  | expression x => exact yields_post nofun (hG.operands (.climb x 1) trivial fun _ h => h)
  | climb x level => exact yields_post nofun (yields_climb hG x level)
  | climbOn x level left => exact yields_post nofun (yields_climbOn hG x level hg)
  | operand x =>
    have hone := (yields_operand hG x).bind fun _ ht => yields_pure (allOperands_singleton ht)
    exact yields_post nofun hone
  | constructed x => exact yields_post nofun (yields_constructed hG x)
  | suffixes x calls base => exact yields_post nofun (yields_suffixes hG x calls hg)
  | items sequence => exact yields_post nofun (yields_itemsOf hG hg (yields_itemOf hG hg))
  | target => exact yields_post nofun (yields_target hG).single
  | block operator => exact yields_post nofun (yields_block hG operator).single
  | stringParts quote => exact yields_post nofun (yields_stringParts hG quote)
  | templateParts => exact yields_post nofun (yields_templateParts hG)
  | decorators => exact yields_post nofun (yields_decorators hG)
  | modifiers words => exact yields_post nofun (yields_modifiers hG words)
  | element =>
    have hone := (yields_element hG).bind fun _ ht => yields_pure (allOperands_singleton ht)
    exact yields_post nofun hone
  | elementParts => exact yields_post nofun (yields_elementParts hG)
  | attributes => exact yields_post nofun (yields_attributes hG)
  | dotted base => exact yields_post nofun (yields_dotted hG hg)
  | type ends => cases hg
  | typeOn ends left => cases hg
  | typeSuffixes ends base => cases hg
  | typeList ends => cases hg
  | heritage => cases hg
  | balanced => cases hg

end Rules

/-- **The grammar without types gives what it should.** Induction on the depth: a rule pursues goals
one level below its own. -/
theorem plain_readGoal (lenient : Bool) (depth : Nat) :
    Grammar.Plain ⟨false, lenient, readGoal false lenient depth⟩ := by
  induction depth with
  | zero =>
    -- at no depth nothing is read
    exact ⟨rfl, fun _ _ => yields_fail⟩
  | succ depth ih => exact ⟨rfl, fun g hg => yields_produce ih g hg⟩

/-- The trees of a goal that gives intact ones, at any depth. -/
theorem yields_readGoal (lenient : Bool) (depth : Nat) (g : Goal) (hg : g.Pre)
    (h : ∀ t, g.PostTree t → Intact t) : Yields AllIntact (readGoal false lenient depth g) :=
  (plain_readGoal lenient depth).all g hg h

/-! ## Comments between the nodes

Once the statements are read, the comments are put in one after the other, in the order of the
source. `Commented n` says that this is done up to the offset `n`. A node stays complete when a
comment comes in, since it is evaluated by the labels and marks of its parts, which all stay. -/

/-- A tree each node of which has all that it is evaluated by, with comments up to an offset. -/
def Commented (n : Nat) (t : Tree) : Prop :=
  ∀ u ∈ t.nodes, isComplete u = true ∧ (u.isComment = true → u.isRemark = true ∧ u.stop ≤ n)

/-- A tree each node of which has all that it is evaluated by, and each comment of which is a leaf
that plays no part. -/
def WellFormed (t : Tree) : Prop :=
  ∀ u ∈ t.nodes, isComplete u = true ∧ (u.isComment = true → u.isRemark = true)

theorem Commented.wellFormed {n : Nat} {t : Tree} (h : Commented n t) : WellFormed t :=
  fun u hu => ⟨(h u hu).1, fun hcomment => ((h u hu).2 hcomment).1⟩

/-- An intact tree has no comments yet. -/
theorem Intact.commented {t : Tree} (h : Intact t) (n : Nat) : Commented n t := by
  intro u hu
  obtain ⟨hcomplete, hcomment⟩ := h u hu
  refine ⟨hcomplete, fun htrue => ?_⟩
  rw [hcomment] at htrue
  cases htrue

/-- What is done up to an offset is done up to any later one. -/
theorem Commented.mono {m n : Nat} {t : Tree} (h : Commented m t) (hle : m ≤ n) :
    Commented n t := by
  intro u hu
  obtain ⟨hcomplete, hcomment⟩ := h u hu
  exact ⟨hcomplete, fun htrue => ⟨(hcomment htrue).1, Nat.le_trans (hcomment htrue).2 hle⟩⟩

/-- A comment has no parts to ask for. -/
theorem isComplete_of_isRemark {c : Tree} (h : c.isRemark = true) : isComplete c = true := by
  rw [isComplete, Tree.label_of_isRemark h]
  rfl

/-- A comment by itself is done up to its end. -/
theorem commented_of_isRemark {c : Tree} (h : c.isRemark = true) : Commented c.stop c := by
  refine Tree.forall_mem_nodes_iff.mpr ⟨?_, ?_⟩
  · exact ⟨isComplete_of_isRemark h, fun _ => ⟨h, Nat.le_refl _⟩⟩
  · rw [Tree.children_of_isRemark h]
    exact nofun

/-- Whether some node plays the part of another. -/
def HasLike (us : List Tree) (t : Tree) : Prop := ∃ u ∈ us, u.label = t.label ∧ u.field = t.field

theorem HasLike.cons {us : List Tree} {u t : Tree} (h : HasLike us t) : HasLike (u :: us) t := by
  obtain ⟨v, hv, hlike⟩ := h
  exact ⟨v, List.mem_cons_of_mem _ hv, hlike⟩

theorem hasLike_of_mem {us : List Tree} {t : Tree} (h : t ∈ us) : HasLike us t := ⟨t, h, rfl, rfl⟩

/-- A node is evaluated by parts, whatever these are like further below. -/
theorem isComplete_of_like {label : Label} {field : Option Field} {start stop : Nat}
    {missing : Bool} {ts us : List Tree} (hlike : ∀ t ∈ ts, HasLike us t)
    (h : isComplete (.node label field start stop missing ts) = true) :
    isComplete (.node label field start stop missing us) = true := by
  cases label with
  | kind k =>
    simp only [isComplete, Tree.label, Tree.children, Bool.and_eq_true, List.all_eq_true,
      List.any_eq_true, Bool.or_eq_true, decide_eq_true_eq] at h ⊢
    obtain ⟨hparts, hop⟩ := h
    refine ⟨?_, hop.imp_right ?_⟩
    · -- each part is played by a node that has a like one
      intro f hf
      obtain ⟨t, ht, hfield⟩ := hparts f hf
      obtain ⟨u, hu, -, hsame⟩ := hlike t ht
      exact ⟨u, hu, hsame.trans hfield⟩
    · rintro ⟨t, ht, hoperand⟩
      obtain ⟨u, hu, hsame, -⟩ := hlike t ht
      refine ⟨u, hu, ?_⟩
      simpa only [isOperand, Tree.isNamed, Tree.isComment, Tree.is, hsame] using hoperand
  | token text => rfl
  | fault => rfl

/-- Among siblings with a comment put in there is one like each sibling from before: the comment
comes between two of them or goes into one. -/
theorem hasLike_insertAmong (c : Tree) (ts : List Tree) :
    ∀ t ∈ ts, HasLike (insertAmong c ts) t := by
  induction ts with
  | nil => exact nofun
  | cons u us ih =>
    have hrest : ∀ v, ∀ t ∈ us, HasLike (v :: us) t :=
      fun v t ht => hasLike_of_mem (List.mem_cons_of_mem v ht)
    rw [insertAmong]
    split
    · exact fun t ht => hasLike_of_mem (List.mem_cons_of_mem c ht)
    · split
      · refine List.forall_mem_cons.mpr ⟨⟨insertComment c u, List.mem_cons_self .., ?_⟩, hrest _⟩
        cases u
        exact ⟨rfl, rfl⟩
      · refine List.forall_mem_cons.mpr ⟨hasLike_of_mem (List.mem_cons_self ..), ?_⟩
        exact fun t ht => (ih t ht).cons

mutual

/-- **A comment leaves a tree well-formed.** It comes after the comments that are there already, so
it does not get into one of them. -/
theorem Commented.insertComment {c : Tree} (hremark : c.isRemark = true)
    (hspan : c.start < c.stop) :
    ∀ t : Tree, t.isComment = false → Commented c.start t → Commented c.stop (insertComment c t)
  | .node label field start stop missing children, hcomment, h => by
    obtain ⟨⟨hcomplete, -⟩, hbelow⟩ := Tree.forall_mem_nodes_iff.mp h
    rw [Syntax.insertComment]
    refine Tree.forall_mem_nodes_iff.mpr ⟨⟨?_, fun htrue => ?_⟩, ?_⟩
    · exact isComplete_of_like (hasLike_insertAmong c children) hcomplete
    · -- the node itself is no comment
      have hsame : label = .kind .comment := of_decide_eq_true htrue
      rw [hsame] at hcomment
      cases hcomment
    · exact Commented.insertAmong hremark hspan children hbelow

/-- Siblings with a comment put in are done up to its end. The cases are those of `insertAmong`,
which finds the first sibling that the comment does not come after. -/
theorem Commented.insertAmong {c : Tree} (hremark : c.isRemark = true)
    (hspan : c.start < c.stop) :
    ∀ ts : List Tree, (∀ t ∈ ts, Commented c.start t) →
      ∀ t ∈ insertAmong c ts, Commented c.stop t
  | [], _ => List.forall_mem_singleton.mpr (commented_of_isRemark hremark)
  | t :: ts, h => by
    obtain ⟨ht, hts⟩ := List.forall_mem_cons.mp h
    have hle := Nat.le_of_lt hspan
    have hkept : ∀ u ∈ ts, Commented c.stop u := fun u hu => (hts u hu).mono hle
    rw [Syntax.insertAmong]
    -- before the node, inside it, or somewhere behind it
    split
    · have hall := List.forall_mem_cons.mpr ⟨ht.mono hle, hkept⟩
      exact List.forall_mem_cons.mpr ⟨commented_of_isRemark hremark, hall⟩
    · split
      next hinside =>
        have hcomment : t.isComment = false := by
          -- a comment that is there already ends before the new one starts
          by_contra htrue
          have hbefore := ((ht t t.self_mem_nodes).2 (eq_true_of_ne_false htrue)).2
          simp only [Bool.and_eq_true, decide_eq_true_eq] at hinside
          omega
        have hnew := Commented.insertComment hremark hspan t hcomment ht
        exact List.forall_mem_cons.mpr ⟨hnew, hkept⟩
      next =>
        have hrest := Commented.insertAmong hremark hspan ts hts
        exact List.forall_mem_cons.mpr ⟨ht.mono hle, hrest⟩

end

theorem isComment_insertComment (c t : Tree) : (insertComment c t).isComment = t.isComment := by
  cases t
  rfl

/-- Comments in the order of the source, put in one after the other. -/
theorem wellFormed_foldl {comments : List Tree} {n : Nat} {t : Tree}
    (hremarks : ∀ c ∈ comments, c.isRemark = true)
    (hspans : ∀ c ∈ comments, n ≤ c.start ∧ c.start < c.stop)
    (horder : comments.Pairwise fun earlier later => earlier.stop ≤ later.start)
    (hcomment : t.isComment = false) (h : Commented n t) :
    WellFormed (comments.foldl (fun t c => insertComment c t) t) := by
  induction comments generalizing n t with
  | nil => exact h.wellFormed
  | cons c cs ih =>
    obtain ⟨hremark, hremarks⟩ := List.forall_mem_cons.mp hremarks
    obtain ⟨⟨hle, hlt⟩, hspans⟩ := List.forall_mem_cons.mp hspans
    obtain ⟨hnext, horder⟩ := List.pairwise_cons.mp horder
    have hspans' : ∀ d ∈ cs, c.stop ≤ d.start ∧ d.start < d.stop :=
      fun d hd => ⟨hnext d hd, (hspans d hd).2⟩
    have hnew := Commented.insertComment hremark hlt t hcomment (h.mono hle)
    rw [List.foldl_cons]
    exact ih hremarks hspans' horder (by rw [isComment_insertComment, hcomment]) hnew

/-- **A program with its comments is well-formed.** -/
theorem wellFormed_programOf {children : List Tree} {c : Cursor} (length : Nat)
    (h : AllIntact children) (hc : c.Tidy) :
    WellFormed (programOf length children c.comments.reverse) := by
  have hroot : ∀ start stop, Intact (.ofKind .program start stop children) :=
    fun start stop => intact_of_isFreeLabel rfl h
  refine wellFormed_foldl ?_ (n := 0) ?_ ?_ rfl ?_
  · exact fun d hd => hc.remarks d (List.mem_reverse.mp hd)
  · exact fun d hd => ⟨Nat.zero_le _, (hc.spans d (List.mem_reverse.mp hd)).1⟩
  · exact List.pairwise_reverse.mpr hc.order
  · exact (hroot _ _).commented 0

/-! ## All sources -/

/-- A line that names an interpreter is a leaf. -/
theorem yields_hashBang : Yields AllIntact hashBang := by
  unfold hashBang
  refine .next fun cs => ?_
  split
  · exact (yields_leafHere rfl _).single
  · exact yields_pure allIntact_nil

/-- The statements of a source that fits the grammar. -/
theorem yields_readStatements {lenient : Bool} {cs : List Char} {ts : List Tree} {d : Cursor}
    (h : readStatements false lenient cs = .ok (ts, d)) : AllIntact ts ∧ d.Tidy := by
  have hall : Yields AllIntact (do
      let first ← hashBang
      let rest ← readGoal false lenient (depthFor cs.length) (.statements .source)
      return first ++ rest) := by
    refine yields_hashBang.bind fun first hfirst => ?_
    refine (yields_readGoal lenient _ (.statements .source) trivial fun _ h => h).bind ?_
    exact fun rest hrest => yields_pure (allIntact_append.mpr ⟨hfirst, hrest⟩)
  obtain ⟨hts, htidy⟩ := hall _ _ _ h
  exact ⟨hts, htidy (Cursor.tidy_atStart cs)⟩

/-- A source that fits the grammar has a well-formed tree. -/
theorem wellFormed_read {lenient : Bool} {cs : List Char} {t : Tree}
    (h : read false lenient cs = .ok t) : WellFormed t := by
  unfold read at h
  obtain ⟨⟨ts, d⟩, hread, ht⟩ := Outcome.bind_eq_ok_iff.mp h
  obtain ⟨hts, htidy⟩ := yields_readStatements hread
  cases ht
  exact wellFormed_programOf _ hts htidy.skip

/-- The statements before the first one that does not fit. Induction on their number. -/
theorem intact_leading (depth fuel : Nat) (c : Cursor) (hc : c.Tidy) :
    AllIntact (leading false depth fuel c).1 ∧ (leading false depth fuel c).2.Tidy := by
  induction fuel generalizing c with
  | zero => exact ⟨allIntact_nil, hc⟩
  | succ fuel ih =>
    rw [leading]
    split
    · exact ⟨allIntact_nil, hc⟩
    · split
      next => exact ⟨allIntact_nil, hc⟩
      next ts d hread =>
        have hall := yields_readGoal false depth .statement trivial fun _ h => h
        obtain ⟨hts, hd⟩ := hall c ts d hread
        obtain ⟨hmore, he⟩ := ih d (hd hc)
        exact ⟨allIntact_append.mpr ⟨hts, hmore⟩, he⟩

/-- What stands for the rest of a source that does not fit is a fault over leaves and statements. -/
theorem intact_faultAt (cs : List Char) (unfinished : Cursor) (stuck : Stuck) :
    Intact (faultAt false cs unfinished stuck) := by
  unfold faultAt
  extract_lets length bad
  split
  · split
    · exact intact_of_isFreeLabel rfl allIntact_nil
    · exact intact_of_isFreeLabel rfl allIntact_nil
  · exact intact_of_isFreeLabel rfl allIntact_nil

/-- A source that does not fit has a well-formed tree as well: the statements before the fault, the
fault and the comments. -/
theorem wellFormed_broken (cs : List Char) (stuck : Stuck) :
    WellFormed (broken false cs stuck) := by
  unfold broken
  extract_lets start
  have hstart : start.Tidy := by
    have hfirst := Cursor.tidy_atStart cs
    unfold start
    split
    next c hread => exact (yields_hashBang _ _ _ hread).2 hfirst
    next => exact hfirst
  obtain ⟨hstatements, htidy⟩ := intact_leading (depthFor cs.length) (cs.length + 1) start hstart
  refine wellFormed_programOf _ (allIntact_append.mpr ⟨hstatements, ?_⟩) htidy
  exact allIntact_cons.mpr ⟨intact_faultAt cs _ stuck, allIntact_nil⟩

/-- **The tree of any source is well-formed**, whether the source fits the grammar or not. -/
theorem wellFormed_parse (cs : List Char) : WellFormed (Dialect.javascript.parse cs) := by
  show WellFormed (parse false cs)
  unfold parse
  split
  next t h => exact wellFormed_read h
  next stuck _ =>
    -- a source with a mistake is read once more with repairs
    split
    next t h => exact wellFormed_read h
    next => exact wellFormed_broken cs stuck

end OptionTypes.Syntax
