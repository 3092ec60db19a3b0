import Marginalia.Language

/-!
# Placing comments

Each comment stands directly above the line it is about, indented like it. Blank lines and lines
that are comments already get none, and neither does a line that is less than two lines below the
last one that got a comment.
-/

namespace Marginalia.Commentary

/-- Whether a line may have a comment above it. -/
def takesComment (l : Language) (line : Text) : Bool := !line.isAllBlank && !l.isComment line

/-- A line and the comment above it. -/
structure Placed where
  comment : Option Text
  line : Text
deriving Repr, DecidableEq

namespace Placed

/-- The line of a comment above another line. -/
def commentLine (l : Language) (line comment : Text) : Text :=
  line.indentation ++ l.commentMarker ++ " " ++ comment

/-- The line of the comment, if there is one, and the line itself. -/
def lines (l : Language) (p : Placed) : List Text :=
  (p.comment.map (commentLine l p.line)).toList ++ [p.line]

end Placed

/-- Whether a line is at least two lines below the last one that got a comment. -/
def isSpaced (last : Option Nat) (index : Nat) : Bool := last.all fun last => 2 ≤ index - last

/-- The comment for the line numbered `index`, the line `last` being the last one that got one. -/
def chosen (l : Language) (comment : Nat → Option Text) (last : Option Nat) (index : Nat)
    (line : Text) : Option Text :=
  match comment index with
  | some text => if takesComment l line && isSpaced last index then some text else none
  | none => none

/-- The last line that got a comment, once the line numbered `index` was dealt with. A line that
gets none leaves it as it is. -/
def lastChosen (last : Option Nat) (index : Nat) (text : Option Text) : Option Nat :=
  if text.isSome then some index else last

/-- Chooses comments for lines that are numbered from `index`, the line `last` above them being the
last one that got one. -/
def placeFrom (l : Language) (comment : Nat → Option Text) (last : Option Nat) (index : Nat) :
    List Text → List Placed
  | [] => []
  | line :: rest =>
    let text := chosen l comment last index line
    ⟨text, line⟩ :: placeFrom l comment (lastChosen last index text) (index + 1) rest

/-- The lines with comments above them, where `comment` says what there is to say about a line. -/
def place (l : Language) (comment : Nat → Option Text) (lines : List Text) : List Placed :=
  placeFrom l comment none 0 lines

/-- The text of lines with comments above them. -/
def written (l : Language) (placed : List Placed) : Text :=
  Text.unlines (placed.flatMap (Placed.lines l))

end Marginalia.Commentary
