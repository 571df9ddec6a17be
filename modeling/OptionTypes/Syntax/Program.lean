import OptionTypes.Syntax.Grammar.Statement

/-!
# Programs

A whole source is read by tying the rules of the grammar together. The depth of goals is bounded by
a fuel that grows with the length of the source; every token takes a fixed number of goals, so the
bound is never met.

Comments are collected while reading and put into the tree afterwards: each becomes a child of the
innermost node that encloses it.

A source that does not fit the grammar still has a tree. First a value or a name that is missing is
marked as such and all else is read as usual. Where that is not enough, the statements before the
first one that does not fit are kept, and a fault stands for what follows.
-/

namespace OptionTypes.Syntax

open Reader

/-- A goal that gives one tree as one that gives a list. -/
def single (r : Reader Tree) : Reader (List Tree) := do return [← r]

/-- An item of a sequence. -/
def item (G : Grammar) : Items → Reader Tree
  | .elements | .arguments => Expression.element G
  | .members => Callable.objectMember G
  | .patternElements => Pattern.element G
  | .patternMembers => Pattern.member G
  | .parameters => Pattern.parameter G
  | .importSpecifiers => Module.specifier G .importSpecifier
  | .exportSpecifiers => Module.specifier G .exportSpecifier
  | .typeParameters => TypeGrammar.parameter G
  | .typeArguments => G.one (.type false)
  | .enumMembers => Statement.enumMember G

/-- How each goal is read, given how the goals below it are. -/
def produce (G : Grammar) : Goal → Reader (List Tree)
  | .statement => single (Statement.statement_ G)
  | .statements ending => Statement.statements G ending
  | .declarators x => Statement.declarators G x
  | .cases => Statement.cases G
  | .classMembers => Callable.classMembers G
  | .expressions x => Expression.expressions G x
  | .commas x => Expression.commas G x
  | .expression x => G.sub (.climb x 1)
  | .climb x level => Expression.climb G x level
  | .climbOn x level left => Expression.climbOn G x level left
  | .operand x => single (Expression.operand G x)
  | .constructed x => Expression.constructed G x
  | .suffixes x calls base => Expression.suffixes G x calls base
  | .items sequence => itemsOf G sequence (item G sequence)
  | .target => single (Pattern.target G)
  | .block operator => single (Callable.block G operator)
  | .stringParts quote => Literal.stringParts G quote
  | .templateParts => Literal.templateParts G
  | .decorators => Callable.decorators G
  | .modifiers words => Pattern.modifiers G words
  | .element => single (Element.element G)
  | .elementParts => Element.parts G
  | .attributes => Element.attributes G
  | .type ends => TypeGrammar.type G ends
  | .typeOn ends left => TypeGrammar.typeOn G ends left
  | .typeSuffixes ends base => TypeGrammar.suffixes G ends base
  | .typeList ends => TypeGrammar.typeList G ends
  | .heritage => Callable.heritage G
  | .balanced => TypeGrammar.balanced G
  | .dotted base => TypeGrammar.dotted G base

/-- A goal read to a bounded depth. -/
def readGoal (typed lenient : Bool) : Nat → Goal → Reader (List Tree)
  | 0, _ => fail
  | fuel + 1, goal => produce ⟨typed, lenient, readGoal typed lenient fuel⟩ goal

/-- A depth that no source of a length exceeds. -/
def depthFor (length : Nat) : Nat := 16 * (length + 4)

/-- The first line of a source if it says which program runs it. -/
def hashBang : Reader (List Tree) := do
  match ← behind with
  | '#' :: '!' :: rest =>
    return [← leafHere (.kind .hashBangLine) (2 + (rest.takeWhile (· != '\n')).length)]
  | _ => return []

/-! ## Comments in the tree -/

mutual

/-- The tree with a comment in the innermost node that encloses it. -/
def insertComment (c : Tree) : Tree → Tree
  | .node label field start stop missing children =>
    .node label field start stop missing (insertAmong c children)

/-- The siblings with a comment in the one that encloses it, or between them. -/
def insertAmong (c : Tree) : List Tree → List Tree
  | [] => [c]
  | t :: ts =>
    if c.stop ≤ t.start then c :: t :: ts
    else if t.start ≤ c.start && c.stop ≤ t.stop then insertComment c t :: ts
    else t :: insertAmong c ts

end

/-- The tree of a whole source: its statements, with the comments put in. -/
def programOf (length : Nat) (children comments : List Tree) : Tree :=
  let starts := (children ++ comments).map Tree.start
  let first := starts.foldl min length
  comments.foldl (fun t c => insertComment c t) (.ofKind .program first length children)

/-- The number of bytes of a source. -/
def byteLength (cs : List Char) : Nat := cs.foldl (fun n c => n + Cursor.width c) 0

/-- All statements of a source and the cursor after them, or where reading is stuck. -/
def readStatements (typed lenient : Bool) (cs : List Char) : Except Stuck (List Tree × Cursor) :=
  let all : Reader (List Tree) := do
    let first ← hashBang
    let rest ← readGoal typed lenient (depthFor cs.length) (.statements .source)
    return first ++ rest
  all (Cursor.atStart cs)

/-- The tree of a source that fits the grammar. -/
def read (typed lenient : Bool) (cs : List Char) : Except Stuck Tree := do
  let (children, c) ← readStatements typed lenient cs
  return programOf (byteLength cs) children c.skip.comments.reverse

/-! ## Sources that do not fit -/

/-- The statements before the first one that does not fit, and the cursor after them. -/
def leading (typed : Bool) (depth : Nat) : Nat → Cursor → List Tree × Cursor
  | 0, c => ([], c)
  | fuel + 1, c =>
    if c.atEnd then ([], c)
    else
      match readGoal typed false depth .statement c with
      | .error _ => ([], c)
      | .ok (ts, d) =>
        let (more, e) := leading typed depth fuel d
        (ts ++ more, e)

/-- The number of bytes of the token at the start of characters. -/
def tokenLength (cs : List Char) : Nat :=
  let n := max (Lexeme.word cs) (max (Lexeme.number cs) (Lexeme.punctuation cs))
  byteLength (cs.take n)

/-- What stands in a tree for the part of a source that does not fit. A source that ends too early
lacks a brace, or is a fault from the statement on that is not finished; otherwise the token that
does not fit is one. -/
def faultAt (typed : Bool) (cs : List Char) (unfinished : Cursor) (stuck : Stuck) : Tree :=
  let length := byteLength cs
  if length ≤ stuck.offset then
    match readStatements typed false (cs ++ ['\x7d']) with
    | .ok _ => .node (.token "\x7d") none stuck.behind stuck.behind true []
    | .error _ => .node .fault none unfinished.skip.position stuck.behind false []
  else
    let bad := charsFrom stuck.offset cs
    .node .fault none stuck.offset (stuck.offset + tokenLength bad) false []
where
  /-- The characters from an offset on. -/
  charsFrom : Nat → List Char → List Char
    | 0, cs => cs
    | _, [] => []
    | n + 1, c :: rest => charsFrom (n + 1 - Cursor.width c) rest

/-- The tree of a source that is stuck at a token even where mistakes are repaired. -/
def broken (typed : Bool) (cs : List Char) (stuck : Stuck) : Tree :=
  let start : Cursor :=
    match hashBang (Cursor.atStart cs) with
    | .ok (_, c) => c
    | .error _ => Cursor.atStart cs
  let (statements, unfinished) := leading typed (depthFor cs.length) (cs.length + 1) start
  programOf (byteLength cs) (statements ++ [faultAt typed cs unfinished stuck])
    unfinished.comments.reverse

/-- The tree of any source. -/
def parse (typed : Bool) (cs : List Char) : Tree :=
  match read typed false cs with
  | .ok t => t
  | .error stuck =>
    match read typed true cs with
    | .ok t => t
    | .error _ => broken typed cs stuck

end OptionTypes.Syntax
