import OptionTypes.Proofs.Grammar.LocalRules
import OptionTypes.Proofs.Grammar.OpeningRules
import OptionTypes.Proofs.Grammar.Program
import OptionTypes.Proofs.Preorder

/-!
# One statement after the other

The statements of a script are read one after the other, each from where the one before it ends.
A statement begins at the first token that is left, and how far it reaches depends on the text from
there on alone. So where statements begin can be told by reading each of them on its own.

* `Tree.statements` are the statements of a program, and `Tree.starts` is where they begin.
* `tokenAfter?` is where the token after a statement is if that statement is read on its own.
* `StatementsAt` says where statements begin that follow one another.
* `starts_eq_iff`: when the statements of a script begin at given offsets.
-/

namespace OptionTypes.Syntax

open Reader

/-! ## The statements of a program -/

/-- The statements of a program: its children without comments and without the line that says which
program runs it. -/
def Tree.statements (root : Tree) : List Tree :=
  root.children.filter fun t => !t.isComment && isProper t.label

/-- Where the statements of a program begin. -/
def Tree.starts (root : Tree) : List Nat := root.statements.map Tree.start

/-- What a node is whatever stands below it: its label, where it begins, and whether it is missing
in the source. -/
def Tree.face (t : Tree) : Label × Nat × Bool := (t.label, t.start, t.missing)

/-- A comment that is put in below a node leaves its face alone. -/
theorem face_insertComment (c t : Tree) : (insertComment c t).face = t.face := by
  cases t
  rfl

/-- Comments among the siblings do not matter to what is asked of the others by their faces. -/
theorem filter_face_insertAmong {c : Tree} {q : Label × Nat × Bool → Bool} (hq : q c.face = false)
    (ts : List Tree) :
    ((insertAmong c ts).map Tree.face).filter q = (ts.map Tree.face).filter q := by
  -- the comment itself is what `q` leaves out
  have hnew : ∀ us : List Tree,
      ((c :: us).map Tree.face).filter q = (us.map Tree.face).filter q := by
    intro us
    rw [List.map_cons, List.filter_cons_of_neg (by simp [hq])]
  induction ts with
  | nil =>
    rw [insertAmong]
    exact hnew []
  | cons t ts ih =>
    rw [insertAmong]
    split
    · exact hnew (t :: ts)
    · -- inside the node, which keeps its face, or behind it
      split
      · rw [List.map_cons, List.map_cons, face_insertComment]
      · rw [List.map_cons, List.map_cons, List.filter_cons, List.filter_cons, ih]

/-- Comments do not change which nodes there are besides. -/
theorem filter_face_programOf {length : Nat} {children comments : List Tree}
    {q : Label × Nat × Bool → Bool} (hq : ∀ c ∈ comments, q c.face = false) :
    ((programOf length children comments).children.map Tree.face).filter q
      = (children.map Tree.face).filter q := by
  have hfold : ∀ root : Tree,
      ((comments.foldl (fun t c => insertComment c t) root).children.map Tree.face).filter q
        = (root.children.map Tree.face).filter q := by
    induction comments with
    | nil => exact fun _ => rfl
    | cons c cs ih =>
      obtain ⟨hc, hcs⟩ := List.forall_mem_cons.mp hq
      intro root
      rw [List.foldl_cons, ih hcs]
      cases root with
      | node label field start stop missing children =>
        rw [insertComment]
        exact filter_face_insertAmong hc children
  exact hfold _

/-- Where the statements begin can be told from the faces of the children. -/
theorem starts_eq (root : Tree) :
    root.starts = ((root.children.map Tree.face).filter fun f =>
      !decide (f.1 = .kind .comment) && isProper f.1).map fun f => f.2.1 := by
  rw [List.filter_map, List.map_map]
  rfl

/-- The statements of a program begin where its children do. -/
theorem starts_programOf {length : Nat} {children comments : List Tree}
    (hcomments : ∀ c ∈ comments, c.isRemark = true) :
    (programOf length children comments).starts
      = (Tree.ofKind .program 0 length children).starts := by
  rw [starts_eq, starts_eq, filter_face_programOf]
  · rfl
  · intro c hc
    have hlabel := Tree.label_of_isRemark (hcomments c hc)
    simp [Tree.face, hlabel]

/-! ## Scripts in which nothing is at fault -/

/-- In a script without faults no child of the root is at fault, since the search passes all
nodes. -/
theorem isFaulty_eq_false_of_mem_children {root t : Tree} (h : firstFault? root = none)
    (ht : t ∈ root.children) : t.isFaulty = false := by
  -- a child of the root is one of the nodes that are walked through
  have hvisit : (⟨t, some root⟩ : Visit) ∈ walk false root := by
    obtain ⟨j, hj⟩ := List.mem_iff_getElem?.mp ht
    have hwalked : (root.children.filter (Tree.isWalked false))[j]? = some t := by
      rw [← Tree.walked_eq]
      exact hj
    rw [walk_eq, visits_eq, List.map_cons]
    refine List.mem_cons_of_mem _ (List.mem_map.mpr ⟨under (0 + j) ([], ⟨t, some root⟩), ?_, rfl⟩)
    refine mem_visitsAll_iff.mpr ⟨j, t, hwalked, ([], ⟨t, some root⟩), ?_, rfl⟩
    rw [visits_eq]
    exact List.mem_cons_self ..
  rw [firstFault?, Option.map_eq_none_iff] at h
  exact eq_false_of_ne_true (List.find?_eq_none.mp h _ hvisit)

/-- What stands for a fault is at fault, and is no comment. -/
theorem faultAt_faulty (cs : List Char) (unfinished : Cursor) (stuck : Stuck) :
    (faultAt false cs unfinished stuck).isFaulty = true
      ∧ (faultAt false cs unfinished stuck).label ≠ .kind .comment := by
  unfold faultAt
  extract_lets length bad
  split
  · split
    · exact ⟨rfl, nofun⟩
    · exact ⟨rfl, nofun⟩
  · exact ⟨rfl, nofun⟩

/-! ## Where the statements of a source begin -/

/-- The cursor where the statements of a source begin: behind the line that says which program runs
it, if there is one. -/
def afterHashBang (source : List Char) : Cursor :=
  (hashBang (Cursor.atStart source)).toOption.elim (Cursor.atStart source) Prod.snd

instance : Local hashBang := by
  unfold hashBang
  refine .next fun cs => ?_
  split
  · infer_instance
  · infer_instance

/-- That line is no statement. -/
theorem gives_hashBang : Gives (fun ts => ∀ t ∈ ts, isProper t.label = false) hashBang := by
  unfold hashBang
  refine .next fun cs => ?_
  split
  · intro c ts d h
    cases h
    exact List.forall_mem_singleton.mpr rfl
  · exact gives_pure nofun

/-- The first line is passed whole. -/
theorem within_afterHashBang (source : List Char) :
    Within source (afterHashBang source).rest (afterHashBang source).position := by
  have hstart : (Cursor.atStart source).SamePlace source (Cursor.atStart source) :=
    .of_within (.start source) _ _
  have hfirst := Local.same (r := hashBang) hstart
  unfold afterHashBang
  generalize hashBang (Cursor.atStart source) = out at hfirst ⊢
  cases hfirst with
  | ok _ hplace => exact hplace.within
  | error _ => exact hstart.within

/-- No comment is known behind the first line. -/
theorem tidy_afterHashBang (source : List Char) : (afterHashBang source).Tidy := by
  have hfirst := Cursor.tidy_atStart source
  unfold afterHashBang
  cases hread : hashBang (Cursor.atStart source) with
  | ok p => exact (yields_hashBang _ p.1 p.2 hread).2 hfirst
  | error stuck => exact hfirst

/-- The statements of a source before the first one that does not fit, and the cursor after
them. -/
def fitting (source : List Char) : List Tree × Cursor :=
  leading false (depthFor source.length) (source.length + 1) (afterHashBang source)

/-- The tree of a source that does not fit: the statements before the fault, the fault and the
comments. -/
theorem broken_eq (source : List Char) (stuck : Stuck) :
    broken false source stuck = programOf (byteLength source)
      ((fitting source).1 ++ [faultAt false source (fitting source).2 stuck])
      (fitting source).2.comments.reverse := by
  unfold broken fitting afterHashBang
  cases hashBang (Cursor.atStart source) with
  | ok p => rfl
  | error stuck => rfl

/-- The fault in a tree that stands for a source which does not fit is found. -/
theorem firstFault?_broken (source : List Char) (stuck : Stuck) :
    firstFault? (broken false source stuck) ≠ none := by
  intro h
  let fault := faultAt false source (fitting source).2 stuck
  let q : Label × Nat × Bool → Bool := fun f =>
    (decide (f.1 = .fault) || f.2.2) && !decide (f.1 = .kind .comment)
  obtain ⟨hfaulty, hlabel⟩ := faultAt_faulty source (fitting source).2 stuck
  have htidy : (fitting source).2.Tidy := (intact_leading _ _ _ (tidy_afterHashBang source)).2
  have hcomments : ∀ c ∈ (fitting source).2.comments.reverse, q c.face = false := by
    intro c hc
    have hcomment := Tree.label_of_isRemark (htidy.remarks c (List.mem_reverse.mp hc))
    simp [q, Tree.face, hcomment]
  have hfault : fault.face ∈ ((broken false source stuck).children.map Tree.face).filter q := by
    rw [broken_eq, filter_face_programOf hcomments]
    refine List.mem_filter.mpr ⟨List.mem_map_of_mem (by simp [fault]), ?_⟩
    have hq : q fault.face = (fault.isFaulty && !decide (fault.label = .kind .comment)) := rfl
    rw [hq, hfaulty, decide_eq_false hlabel]
    rfl
  -- some child has the face of the fault
  obtain ⟨t, ht, hface⟩ := List.mem_map.mp (List.mem_filter.mp hfault).1
  have hsame : t.isFaulty = fault.isFaulty :=
    congrArg (fun f : Label × Nat × Bool => decide (f.1 = .fault) || f.2.2) hface
  have hnone := isFaulty_eq_false_of_mem_children h ht
  rw [hsame, hfaulty] at hnone
  cases hnone

/-- Whether a script is read with repairs. -/
def isRepaired (cs : List Char) : Bool := (read false false cs).toOption.isNone

/-- A script in which nothing is at fault has been read to its end. -/
theorem read_eq_of_firstFault? {cs : List Char} (h : firstFault? (parse false cs) = none) :
    read false (isRepaired cs) cs = .ok (parse false cs) := by
  unfold parse at h ⊢
  unfold isRepaired
  cases hstrict : read false false cs with
  | ok t => exact hstrict
  | error stuck =>
    rw [hstrict] at h
    cases hlenient : read false true cs with
    | ok t => exact hlenient
    | error stuck' =>
      rw [hlenient] at h
      exact absurd h (firstFault?_broken cs stuck)

/-! ## A statement on its own -/

/-- The cursor at an offset into a source. -/
def cursorAt (source : List Char) (n : Nat) : Cursor := ⟨faultAt.charsFrom n source, n, []⟩

/-- The offset of the token after the statement at an offset, if there is a statement. -/
def tokenAfter? (lenient : Bool) (source : List Char) (depth n : Nat) : Option Nat :=
  if (cursorAt source n).atEnd then none
  else
    (readGoal false lenient depth .statement (cursorAt source n)).toOption.map fun p =>
      p.2.skip.position

/-- A cursor on a source is where one is that is set there by its offset, with other comments
known. -/
theorem samePlace_cursorAt {source : List Char} {c : Cursor}
    (h : Within source c.rest c.position) : c.SamePlace source (cursorAt source c.position) :=
  ⟨h.charsFrom_eq, rfl, h⟩

/-- At the end of a source there is no token left. -/
theorem tokenAfter?_end (lenient : Bool) (source : List Char) (depth : Nat) :
    tokenAfter? lenient source depth (byteLength source) = none := by
  have hend : Within source [] (byteLength source) :=
    ⟨source, (List.append_nil source).symm, byteLength_eq source⟩
  have hcursor : cursorAt source (byteLength source) = ⟨[], byteLength source, []⟩ := by
    rw [cursorAt, hend.charsFrom_eq]
  rw [tokenAfter?, hcursor]
  rfl

/-- A statement begins with the token that the cursor skips to. -/
theorem opens_readGoal_statement (lenient : Bool) (depth : Nat) :
    Opens OneAt (readGoal false lenient depth .statement) :=
  (leading_readGoal lenient depth).leading .statement rfl

/-- **A statement is read as it would be on its own**, from its first token. -/
theorem tokenAfter?_of_read {lenient : Bool} {source : List Char} {depth : Nat} {c d : Cursor}
    {ts : List Tree} (hc : Within source c.rest c.position) (hend : c.atEnd = false)
    (h : readGoal false lenient depth .statement c = .ok (ts, d)) :
    tokenAfter? lenient source depth c.skip.position = some d.skip.position
      ∧ Within source d.rest d.position := by
  -- the cursor that starts at the token is where skipping to it ends
  have hplace : c.skip.SamePlace source (cursorAt source c.skip.position) :=
    samePlace_cursorAt (Cursor.within_skip hc)
  have hskip : readGoal false lenient depth .statement c.skip = .ok (ts, d) := by
    have hskips := (opens_readGoal_statement lenient depth).skips c
    rw [h] at hskips
    exact Outcome.toOption_eq_some_iff.mp hskips.symm
  have hread := (local_readGoal false lenient depth .statement).same hplace
  have hmore : (cursorAt source c.skip.position).atEnd = false := by
    rw [Cursor.atEnd, hplace.skip.rest, Cursor.skip_skip]
    exact hend
  rw [hskip] at hread
  rw [tokenAfter?, hmore]
  generalize readGoal false lenient depth .statement (cursorAt source c.skip.position) = out
    at hread ⊢
  cases hread with
  | ok _ hafter => exact ⟨congrArg some hafter.skip.position, hafter.within⟩

/-! ## Statements that follow one another -/

/-- The statements of a source from the token at an offset on, one after the other up to the end,
begin at given offsets. -/
inductive StatementsAt (lenient : Bool) (source : List Char) : Nat → Nat → List Nat → Prop where
  | done (depth : Nat) : StatementsAt lenient source (depth + 1) (byteLength source) []
  | next {depth n m : Nat} {ns : List Nat} (hread : tokenAfter? lenient source depth n = some m)
      (hrest : StatementsAt lenient source depth m ns) :
      StatementsAt lenient source (depth + 1) n (n :: ns)

/-- They begin nowhere else. -/
theorem StatementsAt.unique {lenient : Bool} {source : List Char} {depth n : Nat}
    {ns ms : List Nat} (h : StatementsAt lenient source depth n ns)
    (h' : StatementsAt lenient source depth n ms) : ns = ms := by
  induction h generalizing ms with
  | done depth =>
    cases h' with
    | done => rfl
    | next hread =>
      rw [tokenAfter?_end] at hread
      cases hread
  | next hread _ ih =>
    cases h' with
    | done =>
      rw [tokenAfter?_end] at hread
      cases hread
    | next hread' hrest =>
      cases hread.symm.trans hread'
      rw [ih hrest]

/-- One step of reading the statements of a source. -/
theorem statements_cases {lenient : Bool} {depth : Nat} {c d : Cursor} {ts : List Tree}
    (h : readGoal false lenient (depth + 1) (.statements .source) c = .ok (ts, d)) :
    (c.skip.rest = [] ∧ ts = [])
      ∨ (c.atEnd = false ∧ ∃ t rest e, readGoal false lenient depth .statement c = .ok ([t], e)
        ∧ Opening c.skip.position t
        ∧ readGoal false lenient depth (.statements .source) e = .ok (rest, d)
        ∧ ts = t :: rest) := by
  have hrun : (if c.skip.rest.isEmpty = true then (pure [] : Reader (List Tree))
      else do
        let first ← Grammar.one ⟨false, lenient, readGoal false lenient depth⟩ .statement
        return first :: (← readGoal false lenient depth (.statements .source))) c
        = .ok (ts, d) := h
  split at hrun
  next hnone =>
    cases hrun
    exact .inl ⟨List.isEmpty_iff.mp hnone, rfl⟩
  next hsome =>
    obtain ⟨t, e, hfirst, hrun⟩ := bind_eq_ok hrun
    obtain ⟨rest, d', hrest, hrun⟩ := bind_eq_ok hrun
    cases hrun
    obtain ⟨us, e', hus, hone⟩ := bind_eq_ok hfirst
    obtain ⟨u, rfl, hu⟩ := (opens_readGoal_statement lenient depth).gives c us e' hus
    cases hone
    exact .inr ⟨eq_false_of_ne_true hsome, t, rest, e, hus, hu, hrest, rfl⟩

/-- **The statements of a source follow one another.** Induction on the depth, one statement for
each step. -/
theorem statementsAt_of_read {lenient : Bool} {source : List Char} {depth : Nat} {c d : Cursor}
    {ts : List Tree} (hc : Within source c.rest c.position)
    (h : readGoal false lenient depth (.statements .source) c = .ok (ts, d)) :
    StatementsAt lenient source depth c.skip.position (ts.map Tree.start) := by
  induction depth generalizing c ts with
  | zero => cases h
  | succ depth ih =>
    rcases statements_cases h with ⟨hrest, rfl⟩ | ⟨hend, t, rest, e, hread, ht, hrest, rfl⟩
    · -- nothing is left at the token, so it is the end of the source
      have hskip := Cursor.within_skip hc
      rw [hskip.eq_nil_iff.mp hrest]
      exact .done depth
    · obtain ⟨hafter, he⟩ := tokenAfter?_of_read hc hend hread
      rw [List.map_cons, ht.start]
      exact .next hafter (ih he hrest)

/-- Whether a source has a token at an offset, or more of a comment that is not closed. -/
def TokenAt (source : List Char) (n : Nat) : Prop :=
  ∃ a rest, Within source (a :: rest) n ∧ isBlank a = false

/-- A statement that is read as one of several. -/
structure StatementIn (source : List Char) (t : Tree) : Prop where
  token : TokenAt source t.start
  proper : isProper t.label = true

/-- Each statement begins at a token. Induction on the depth again. -/
theorem statementIn_of_read {lenient : Bool} {source : List Char} {depth : Nat} {c d : Cursor}
    {ts : List Tree} (hc : Within source c.rest c.position)
    (h : readGoal false lenient depth (.statements .source) c = .ok (ts, d)) :
    ∀ t ∈ ts, StatementIn source t := by
  induction depth generalizing c ts with
  | zero => cases h
  | succ depth ih =>
    rcases statements_cases h with ⟨-, rfl⟩ | ⟨hend, t, rest, e, hread, ht, hrest, rfl⟩
    · exact List.forall_mem_nil _
    · have he := (tokenAfter?_of_read hc hend hread).2
      refine List.forall_mem_cons.mpr ⟨⟨?_, ht.proper⟩, ih he hrest⟩
      -- the statement starts where the blanks and comments end, at the next character of the source
      have hskip := Cursor.within_skip hc
      have htoken := (Cursor.settled_skip c).token
      rw [ht.start]
      cases hleft : c.skip.rest with
      | nil =>
        rw [Cursor.atEnd, hleft] at hend
        cases hend
      | cons a more =>
        rw [hleft] at hskip
        exact ⟨a, more, hskip, htoken a more hleft⟩

/-! ## The statements of a script -/

/-- The statements of a program are those of its children that are read as statements. -/
theorem starts_append {length : Nat} {first ts comments : List Tree}
    (hfirst : ∀ t ∈ first, isProper t.label = false)
    (hts : ∀ t ∈ ts, t.isComment = false ∧ isProper t.label = true)
    (hcomments : ∀ c ∈ comments, c.isRemark = true) :
    (programOf length (first ++ ts) comments).starts = ts.map Tree.start := by
  have hnone : first.filter (fun t => !t.isComment && isProper t.label) = [] := by
    refine List.filter_eq_nil_iff.mpr fun t ht => ?_
    rw [hfirst t ht, Bool.and_false]
    exact Bool.false_ne_true
  have hall : ts.filter (fun t => !t.isComment && isProper t.label) = ts := by
    refine List.filter_eq_self.mpr fun t ht => ?_
    rw [(hts t ht).1, (hts t ht).2]
    rfl
  rw [starts_programOf hcomments]
  show ((first ++ ts).filter fun t => !t.isComment && isProper t.label).map Tree.start = _
  rw [List.filter_append, hnone, hall, List.nil_append]

/-- The statements of a source that has been read to its end. -/
theorem starts_of_read {lenient : Bool} {source : List Char} {root : Tree}
    (h : read false lenient source = .ok root) :
    StatementsAt lenient source (depthFor source.length) (afterHashBang source).skip.position
        root.starts
      ∧ ∀ n ∈ root.starts, TokenAt source n := by
  unfold read at h
  obtain ⟨⟨children, d⟩, hread, hroot⟩ := Outcome.bind_eq_ok_iff.mp h
  cases hroot
  have htidy := (yields_readStatements hread).2.skip
  obtain ⟨first, c, hfirst, hread⟩ := bind_eq_ok hread
  obtain ⟨ts, d', hts, hread⟩ := bind_eq_ok hread
  cases hread
  obtain rfl : c = afterHashBang source := by
    rw [afterHashBang, hfirst]
    rfl
  -- every tree after the first line is a statement, and the comments put in are none
  have hplace := within_afterHashBang source
  have hstatements := statementIn_of_read hplace hts
  have hintact : AllIntact ts :=
    (yields_readGoal lenient (depthFor source.length) (.statements .source) trivial
      (fun _ h => h) _ ts d hts).1
  rw [starts_append (gives_hashBang _ _ _ hfirst)
    (fun t ht => ⟨(hintact t ht t t.self_mem_nodes).2, (hstatements t ht).proper⟩)
    (fun c hc => htidy.remarks c (List.mem_reverse.mp hc))]
  exact ⟨statementsAt_of_read hplace hts,
    List.forall_mem_map.mpr fun t ht => (hstatements t ht).token⟩

/-- **When the statements of a script begin at given offsets.** Exactly when the first token is the
first offset, and each statement, read on its own, ends before the next offset. -/
theorem starts_eq_iff {source : List Char} (h : firstFault? (parse false source) = none)
    (ns : List Nat) :
    (parse false source).starts = ns
      ↔ StatementsAt (isRepaired source) source (depthFor source.length)
        (afterHashBang source).skip.position ns := by
  have hstarts := (starts_of_read (read_eq_of_firstFault? h)).1
  constructor
  · rintro rfl
    exact hstarts
  · exact hstarts.unique

end OptionTypes.Syntax
