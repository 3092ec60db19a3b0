import Marginalia.Repair.Definitions
import Marginalia.Repair.Draft

/-!
# Indentation

Where the indentation of a text fits no nesting of blocks it is rebuilt from the statements alone: a
line that ends in a colon opens a level, a statement that leaves its block closes one, and so does a
line that can only follow a closed block. Lines inside a statement move along with it.
-/

namespace Marginalia.Repair

open Text

/-- The columns of one level. -/
def levelWidth : Nat := 4

/-- The columns of an indentation, a tab counting as a level. -/
def columns (line : Text) : Nat :=
  line.indentation.foldl (fun n c => n + if c == '\t' then levelWidth else 1) 0

/-- Whether the code of a line ends in a colon outside literals and brackets. -/
def opensBlock (line : Text) : Bool :=
  let code := codeOfLine line
  code.endsWith ":" && (codeChars code).getLast?.any fun c => c.char == ':' && c.depth == 0

/-- The columns of the blocks that are open, innermost first, and whether a block is to follow. -/
structure Nesting where
  open_ : List Nat
  expected : Bool
deriving Repr, DecidableEq

namespace Nesting

/-- Before the first statement. -/
def start : Nesting := ⟨[], false⟩

/-- The open blocks with a statement at a column, if it fits one. -/
def enter? (n : Nesting) (column : Nat) : Option (List Nat) :=
  match n.open_ with
  | [] => some [column]
  | top :: rest =>
    if n.expected then if column ≤ top then none else some (column :: top :: rest)
    else if column > top then none
    else
      let kept := (top :: rest).dropWhile (· > column)
      if kept.head? == some column then some kept else none

/-- Reads a line; nothing when its column fits no block. -/
def step? (n : Nesting) (info : LineInfo) (line : Text) : Option Nesting :=
  match info.role with
  | .statement =>
    (n.enter? (columns line)).map fun blocks =>
      ⟨blocks, info.endsStatement && opensBlock line⟩
  | _ => some (if info.endsStatement then { n with expected := opensBlock line } else n)

/-- Whether some line fits no block. -/
def isBroken (n : Nesting) : List (LineInfo × Text) → Bool
  | [] => false
  | (info, line) :: rest =>
    match n.step? info line with
    | some n' => isBroken n' rest
    | none => true

end Nesting

/-- Whether the indentation of a text fits no nesting of blocks. -/
def indentationBroken (lines : List Text) : Bool :=
  Nesting.start.isBroken ((layout lines).zip lines)

/-- The words of statements that can only follow a closed block. -/
def clauseWords : List Text := ["else", "elif", "except", "finally"]

/-- The words of statements that leave their block. -/
def exitWords : List Text := ["return", "break", "continue", "pass", "raise"]

/-- Where the rebuilding of indentation stands. -/
structure Level where
  /-- The number of open levels. -/
  level : Nat
  /-- The columns by which the statement under way was moved. -/
  shift : Int
  /-- Whether the statement under way leaves its block. -/
  exits : Bool
  /-- Whether the last statement left its block. -/
  exited : Bool
deriving Repr, DecidableEq

namespace Level

/-- Before the first line. -/
def start : Level := ⟨0, 0, false, false⟩

/-- A line moved by some columns, but not past the first. -/
def shifted (line : Text) (shift : Int) : Text :=
  if 0 ≤ shift then List.replicate shift.toNat ' ' ++ line
  else List.replicate (line.indentation.length - (-shift).toNat) ' ' ++ line.trimStart

/-- Starts a statement: says where the line belongs. -/
def startStatement (l : Level) (line : Text) : Level × Text :=
  let stripped := line.trimStart
  let level :=
    if startsWithOneOf clauseWords stripped && !l.exited then l.level - 1 else l.level
  let margin := levelWidth * level
  ({ l with
      level := level
      shift := (margin : Int) - (line.indentation.length : Int)
      exits := startsWithOneOf exitWords stripped },
    List.replicate margin ' ' ++ stripped)

/-- Ends a statement with a line. -/
def endStatement (l : Level) (line : Text) : Level :=
  if (codeOfLine line).endsWith ":" then
    { l with level := l.level + 1, exits := false, exited := false }
  else if l.exits then { l with level := l.level - 1, exits := false, exited := true }
  else { l with exits := false, exited := false }

/-- The line as it belongs, and where the rebuilding stands after it. -/
def step (l : Level) (s : Site) : Level × Revised :=
  let (l, line) :=
    match s.info.role with
    | .statement => l.startStatement s.line
    | .continuation => (l, shifted s.line l.shift)
    | _ => (l, s.line)
  (if s.info.endsStatement then l.endStatement line else l,
    ⟨s.number, line, if line = s.line then [] else [.fixed .indentation]⟩)

end Level

/-- Rebuilds the indentation of a text, if it is broken. -/
def reindent (text : Text) : Outcome :=
  if indentationBroken text.lines then
    Revised.outcome (visit Level.step .start (Site.ofLines text.lines))
  else ⟨text, []⟩

end Marginalia.Repair
