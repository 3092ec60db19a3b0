import Marginalia.Text.Words

/-!
# Heads of statements

The parts of a line of code that repair looks at: the head of a function or class, a keyword, and
the target of an assignment.
-/

namespace Marginalia.Repair

open Text

/-- What follows `async` and blanks, or the text itself. -/
def afterAsync (t : Text) : Text := ((after? "async" t).bind afterGap?).getD t

/-- For a definition of a function: its name, and what follows the name. -/
def functionName? (t : Text) : Option (Text × Text) := do
  let rest ← after? "def" (afterAsync t.trimStart)
  let rest ← afterGap? rest
  word? rest

/-- For a definition of a class: its name. -/
def className? (t : Text) : Option Text := do
  let rest ← afterBlanksAnd? "class" t
  let rest ← afterGap? rest
  let (name, _) ← name? rest
  return name

/-- Whether a line starts a class, whatever its name. -/
def isClassLine (t : Text) : Bool :=
  (((afterBlanksAnd? "class" t).bind afterGap?).map continuesWord).getD false

/-- The part of a text before one of its ends. -/
def before (t rest : Text) : Text := t.take (t.length - rest.length)

/-- Whether a text starts with one of some words as a whole. -/
def startsWithOneOf (words : List Text) (t : Text) : Bool := words.contains t.firstWord

/-- For an assignment to a name: the name, and what follows the sign. -/
def assigned? (t : Text) : Option (Text × Text) := do
  let (name, rest) ← name? t.trimStart
  let value ← afterBlanksAnd? "=" rest
  return (name, value)

/-- For an assignment to a path: the path, and what follows the sign. -/
def assignedPath? (sign t : Text) : Option (Text × Text) := do
  let (path, rest) ← path? t.trimStart
  let value ← afterBlanksAnd? sign rest
  return (path, value)

end Marginalia.Repair
