import Marginalia.Text.Code

/-!
# The layout of lines

Each line of a possibly faulty source has a role. Open brackets, a backslash at the end of a line
and string literals with triple quotes are followed from line to line, so that neither the middle of
a statement nor the inside of a literal passes for a statement.
-/

namespace Marginalia.Repair

open Text

/-- What a line is. -/
inductive Role where
  | blank
  | comment
  /-- Inside a literal with triple quotes that an earlier line opened. -/
  | stringBody
  /-- Inside brackets, or after a backslash. -/
  | continuation
  | statement
deriving Repr, DecidableEq

/-- What is known about a line: its role, and whether a statement is complete at its end. -/
structure LineInfo where
  role : Role
  endsStatement : Bool
deriving Repr, DecidableEq

/-- The code of a line, and the blanks and the comment behind it. -/
def splitComment (line : Text) : Text × Text :=
  let code := codePart "#" line
  (code, line.drop code.length)

/-- The code of a line. -/
def codeOfLine (line : Text) : Text := (splitComment line).1

/-- The number of triples of a quote, counted from the left. -/
def countTriples (q : Char) : Text → Nat
  | a :: b :: c :: rest =>
    if a = q ∧ b = q ∧ c = q then 1 + countTriples q rest else countTriples q (b :: c :: rest)
  | _ => 0

/-- Whether triples of a quote leave a literal open. -/
def leavesOpen (q : Char) (t : Text) : Bool := countTriples q t % 2 == 1

/-- The quote whose triples leave a literal open at the end of code. -/
def openedTriple? (code : Text) : Option Char := ['"', '\''].find? fun q => leavesOpen q code

/-- How many of the code characters of a text are in a class. -/
def countCode (p : Char → Bool) (code : Text) : Nat := (codeChars code).countP fun c => p c.char

/-- What is carried from line to line. -/
structure LayoutState where
  /-- The brackets that are open. -/
  depth : Nat
  /-- Whether the last line of code ends in a backslash. -/
  backslash : Bool
  /-- The quote of the literal with triple quotes that is open. -/
  triple : Option Char
deriving Repr, DecidableEq

namespace LayoutState

/-- Before the first line. -/
def start : LayoutState := ⟨0, false, none⟩

/-- Whether a statement is complete here. -/
def isComplete (s : LayoutState) : Bool := s.triple.isNone && s.depth == 0 && !s.backslash

/-- After a line of code. -/
def afterCode (s : LayoutState) (code : Text) : LayoutState :=
  ⟨s.depth + countCode isOpener code - countCode isCloser code, code.endsWith "\\",
    openedTriple? code⟩

/-- The role of a line outside literals. -/
def roleOf (s : LayoutState) (line : Text) : Role :=
  let trimmed := line.trim
  if trimmed.isEmpty then .blank
  else if s.depth > 0 || s.backslash then .continuation
  else if trimmed.startsWith "#" then .comment
  else .statement

/-- Reads a line. -/
def step (s : LayoutState) (line : Text) : LayoutState × LineInfo :=
  match s.triple with
  | some q =>
    let s' := if leavesOpen q line then { s with triple := none } else s
    (s', ⟨.stringBody, s'.isComplete⟩)
  | none =>
    match s.roleOf line with
    | .blank => (s, ⟨.blank, false⟩)
    | .comment => (s, ⟨.comment, false⟩)
    | role =>
      let s' := s.afterCode (codeOfLine line)
      (s', ⟨role, s'.isComplete⟩)

/-- What is known about lines that are read from a state. -/
def layout (s : LayoutState) : List Text → List LineInfo
  | [] => []
  | line :: rest => (s.step line).2 :: layout (s.step line).1 rest

end LayoutState

/-- What is known about the lines of a source. -/
def layout (lines : List Text) : List LineInfo := LayoutState.start.layout lines

end Marginalia.Repair
