import Marginalia.Repair.Definitions
import Marginalia.Repair.Draft

/-!
# References

Inside an initializer, an attribute that is read into the parameter of its name was meant to be set
from it. Functions, methods and attributes that no longer exist are replaced by what took their
place.
-/

namespace Marginalia.Repair

open Text

/-- Pieces of code that no longer work and what they are replaced by. -/
def callFixes : List (Text × Text) :=
  [("raw_input(", "input("), ("xrange(", "range("), ("unichr(", "chr("),
   (".iteritems()", ".items()"), (".iterkeys()", ".keys()"), (".itervalues()", ".values()"),
   ("os.getcwdu()", "os.getcwd()"), ("sys.maxint", "sys.maxsize"),
   ("string.letters", "string.ascii_letters")]

/-- Replaces a piece of code; one that starts with a letter only at the start of a word. -/
def callRule (old new : Text) : Rule :=
  if old.head?.any isAlphanumeric then .freshLiteral old new else .literal old new

/-- Turns the assignment of an attribute to its own name around. -/
def turnAssignment? (code : Text) : Option Text := do
  let (name, value) ← assigned? code
  let field ← afterBlanksAnd? "self." value
  let (field, rest) ← name? field
  if rest.isEmpty && name == field then
    return code.indentation ++ "self." ++ field ++ " = " ++ name
  else none

/-- Mends the references in code. `inInitializer` says whether it belongs to an initializer. -/
def referenceDraft (inInitializer : Bool) (code : Text) : Draft :=
  let turned :=
    if inInitializer then (Draft.ofCode code).mend .assignmentOrder turnAssignment?
    else .ofCode code
  callFixes.foldl (fun d (old, new) => d.mend (.replaced old new) (substitute? (callRule old new)))
    turned

/-- Mends a line. The state tells whether the function defined last is an initializer. -/
def referenceStep (inInitializer : Bool) (s : Site) : Bool × Revised :=
  if s.isStatement then
    let inInitializer :=
      match functionName? s.line with
      | some (name, _) => name == "__init__"
      | none => inInitializer
    (inInitializer, .ofDraft s (referenceDraft inInitializer s.code))
  else (inInitializer, .same s)

/-- Mends the references of a text. -/
def references (text : Text) : Outcome :=
  Revised.outcome (visit referenceStep false (Site.ofLines text.lines))

end Marginalia.Repair
