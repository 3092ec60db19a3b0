import Marginalia.Text.Basic

/-!
# Changes

What repair reports: the faults that were mended, each with its line, and advice about faults that
are left to the author.
-/

namespace Marginalia.Repair

/-- The parameter that stands for the object or the class of a method. -/
inductive Receiver where
  | self
  | cls
deriving Repr, DecidableEq

def Receiver.name : Receiver → Text
  | self => "self"
  | cls => "cls"

/-- A fault of one line that was mended. -/
inductive Fix where
  /-- An attribute assigned to the parameter it was meant to be set from. -/
  | assignmentOrder
  /-- A name that no longer exists. -/
  | replaced (old new : Text)
  | parentheses
  | colon
  | printCall
  | indentation
  | clock
  | textConversion
  | numberConversion
  | rangeEnd
  | keyRead
  | increment
  | arguments (name : Text) (missing : Nat)
  | conditionAssignment
  | receiver (receiver : Receiver)
  | isNone
  | isNotNone
deriving Repr, DecidableEq

def Fix.message : Fix → Text
  | assignmentOrder => "Fixed variable assignment order"
  | replaced old new => "Replaced " ++ old ++ " with " ++ new
  | parentheses => "Added parentheses"
  | colon => "Added missing colon"
  | printCall => "Converted print statement to print() call"
  | indentation => "Fixed indentation"
  | clock => "Replaced deprecated time.clock() with time.time()"
  | textConversion => "Added str() conversion"
  | numberConversion => "Wrapped input() in int()"
  | rangeEnd => "Fixed off-by-one range"
  | keyRead => "Used .get() for dictionary lookup"
  | increment => "Fixed string increment"
  | arguments name missing =>
    if missing = 1 then "Added missing argument to " ++ name ++ "()"
    else "Added " ++ Text.ofNat missing ++ " missing arguments to " ++ name ++ "()"
  | conditionAssignment => "Fixed assignment in condition"
  | receiver r => "Added missing " ++ r.name ++ " parameter"
  | isNone => "Changed == None to is None"
  | isNotNone => "Changed != None to is not None"

/-- A fault of one line that is only pointed out. -/
inductive Advice where
  | mutableDefault
  | concatenation
  | openFile
deriving Repr, DecidableEq

/-- What comes before and after the number of the line. -/
def Advice.message : Advice → Text × Text
  | mutableDefault =>
    ("Warning: mutable default argument",
      " - default to None and create the value inside the function")
  | concatenation =>
    ("Warning: string concatenation in loop",
      " - consider collecting parts in a list and joining them")
  | openFile => ("Suggestion: use 'with open(...)'", " so the file is always closed")

/-- What is reported about a line. -/
inductive Finding where
  | fixed (fix : Fix)
  | advised (advice : Advice)
deriving Repr, DecidableEq

/-- An entry of the report. -/
inductive Change where
  /-- Entities were decoded somewhere in the text. -/
  | entities
  /-- A misspelt word was corrected wherever it stood. -/
  | typo (wrong right : Text)
  /-- Something about a line, counted from one. -/
  | atLine (finding : Finding) (line : Nat)
deriving Repr, DecidableEq

namespace Change

def message : Change → Text
  | entities => "Decoded HTML entities"
  | typo wrong right => "Fixed typo: " ++ wrong ++ " → " ++ right
  | atLine (.fixed fix) line => fix.message ++ " at line " ++ Text.ofNat line
  | atLine (.advised advice) line =>
    advice.message.1 ++ " at line " ++ Text.ofNat line ++ advice.message.2

/-- Whether the entry only gives advice. -/
def isAdvice : Change → Bool
  | atLine (.advised _) _ => true
  | _ => false

end Change

/-- A text and what was done to arrive at it. -/
structure Outcome where
  text : Text
  changes : List Change
deriving Repr, DecidableEq

end Marginalia.Repair
