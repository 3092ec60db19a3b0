import Marginalia.Repair.Definitions
import Marginalia.Repair.Draft

/-!
# Logic

Assignments where a comparison was meant, methods without the object they belong to, and equality
with `None`. Defaults that are shared between calls, texts that grow in a loop and files that are
left open are only pointed out.
-/

namespace Marginalia.Repair

open Text

/-- How far back the line of its class may be for a method. -/
def classLookback : Nat := 10

/-- How far back the header of its loop may be for a statement. -/
def loopLookback : Nat := 5

/-- The words before a condition. -/
def conditionWords : List Text := ["if", "elif", "while"]

/-- For code with a condition: the text after the keyword and its blanks. -/
def afterConditionWord? (code : Text) : Option Text :=
  conditionWords.findSome? fun word => (afterBlanksAnd? word code).bind afterGap?

/-- The condition that a text starts with, and what follows it. -/
def splitCondition (t : Text) : Text × Text :=
  match splitTopLevel? ':' t with
  | some (condition, tail) =>
    if Text.startsWith (tail.drop 1) "=" then (t, []) else (condition, tail)
  | none => (t, [])

/-- Characters after which an equality sign is part of another sign. -/
def joinsEquality (c : Char) : Bool := ['=', '!', '<', '>', ':'].contains c

/-- Doubles the lone equality signs outside literals and brackets. -/
def doubleEquality (s : CodeState) (prev : Option Char) : Text → Text
  | [] => []
  | c :: rest =>
    let rest' := doubleEquality (s.step c).1 (some c) rest
    if c == '=' && (s.step c).2 == some 0 && !prev.any joinsEquality && rest.head? != some '=' then
      '=' :: '=' :: rest'
    else c :: rest'

/-- Makes the assignments in a condition comparisons. -/
def compareInCondition? (code : Text) : Option Text := do
  let rest ← afterConditionWord? code
  let (condition, tail) := splitCondition rest
  changed? code (before code rest ++ doubleEquality .start none condition ++ tail)

/-- For a function without parameters: the text before its parameter list, and behind it. -/
def emptyParameters? (code : Text) : Option (Text × Text) := do
  let (_, rest) ← functionName? code
  let inside ← afterBlanksAnd? "(" rest
  let after ← afterBlanksAnd? ")" inside
  return (before code rest.trimStart, after)

/-- The receiver that decorators ask for, nearest first; none for a static method. -/
def decoratedReceiver? (decorators : List Text) : Option Receiver :=
  match decorators.find? fun (d : Text) => d == "@staticmethod" || d == "@classmethod" with
  | some d => if d == "@staticmethod" then none else some .cls
  | none => some .self

/-- The receiver that a function lacks. `above` are the lines above it, nearest first. -/
def missingReceiver? (above : List Text) (code : Text) : Option Receiver := do
  let _ ← emptyParameters? code
  let receiver ← decoratedReceiver? ((above.map trim).takeWhile fun l => l.startsWith "@")
  guard ((above.take classLookback).any fun l => isClassLine l && l.column < code.column)
  return receiver

/-- Gives a function without parameters a receiver. -/
def addReceiver? (receiver : Receiver) (code : Text) : Option Text :=
  (emptyParameters? code).map fun (head, after) => head ++ "(" ++ receiver.name ++ ")" ++ after

/-- Replaces a comparison with `None` outside literals. -/
def noneRule (sign new : Text) : Rule := fun b t => do
  guard !b.quoted
  let rest ← afterBlanksAnd? sign t
  let rest ← afterBlanksAnd? "None" rest
  guard !continuesWord rest
  return (t.length - rest.length, new)

/-- Whether a text is a new list, mapping or set. -/
def isMutable (t : Text) : Bool :=
  (t.length ≥ 2 && t.startsWith "[" && t.endsWith "]")
    || (t.length ≥ 2 && t.startsWith "\x7b" && t.endsWith "\x7d")
    || (["list()", "dict()", "set()"] : List Text).contains t

/-- Whether a function has a default that is shared between its calls. -/
def hasMutableDefault (code : Text) : Bool :=
  let isFunction := ((functionName? code).bind fun (_, rest) => afterBlanksAnd? "(" rest).isSome
  isFunction && ((firstGroup? code).map (splitTopLevel ',')).any fun params =>
    params.any fun param =>
      (splitTopLevel? '=' param).any fun (_, tail) => isMutable (Text.trim (tail.drop 1))

/-- Whether a line is the header of a loop. -/
def isLoopLine (line : Text) : Bool :=
  (["for", "while"] : List Text).any fun word =>
    ((afterBlanksAnd? word line).bind afterGap?).isSome

/-- Whether code adds a text to a variable inside a loop. -/
def appendsInLoop (above : List Text) (code : Text) : Bool :=
  match assignedPath? "+=" code with
  | some (_, value) =>
    isStringLiteral ((splitTopLevel '+' value).headD [])
      && ((above.filter fun l => !l.isAllBlank).take loopLookback).any fun l =>
        isLoopLine l && l.column < code.column
  | none => false

/-- Whether code keeps an open file in a variable. -/
def keepsFile (code : Text) : Bool :=
  (assignedPath? "=" code).any fun (_, value) => value.trimStart.startsWith "open("

/-- Gives a function the receiver it lacks. -/
def mendReceiver (above : List Text) (d : Draft) : Draft :=
  match missingReceiver? above d.code with
  | some receiver => d.mend (.receiver receiver) (addReceiver? receiver)
  | none => d

/-- Mends code below some lines, nearest first. -/
def logicDraft (above : List Text) (code : Text) : Draft :=
  mendReceiver above ((Draft.ofCode code).mend .conditionAssignment compareInCondition?)
    |>.mend .isNone (substitute? (noneRule "==" " is None"))
    |>.mend .isNotNone (substitute? (noneRule "!=" " is not None"))
    |>.advise .mutableDefault hasMutableDefault
    |>.advise .concatenation (appendsInLoop above)
    |>.advise .openFile keepsFile

/-- Mends a line. The state holds the lines above as they were left, nearest first. -/
def logicStep (above : List Text) (s : Site) : List Text × Revised :=
  let r := if s.isStatement then .ofDraft s (logicDraft above s.code) else .same s
  (r.line :: above, r)

/-- Mends the logic of a text. -/
def logic (text : Text) : Outcome :=
  Revised.outcome (visit logicStep [] (Site.ofLines text.lines))

end Marginalia.Repair
