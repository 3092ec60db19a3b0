import Marginalia.Repair.Definitions
import Marginalia.Repair.Draft

/-!
# Headers of blocks

A header of a block that is complete on its line gets the colon it lacks, and the definition of a
function that has no parameter list gets an empty one.
-/

namespace Marginalia.Repair

open Text

/-- The words that open a block. -/
def blockWords : List Text :=
  ["if", "elif", "else", "for", "while", "def", "class", "try", "except", "finally", "with"]

/-- The words that open a block after `async`. -/
def asyncBlockWords : List Text := ["def", "for", "with"]

/-- Whether code is the header of a block. -/
def isHeader (code : Text) : Bool :=
  let code := code.trimStart
  startsWithOneOf blockWords code
    || (((after? "async" code).bind afterGap?).map (startsWithOneOf asyncBlockWords)).getD false

/-- Whether the first colon outside literals and brackets ends a header; one that is part of an
assignment does not. -/
def hasHeaderColon (code : Text) : Bool :=
  match splitTopLevel? ':' code with
  | some (_, tail) => !Text.startsWith (tail.drop 1) "="
  | none => false

/-- Gives a function without parameter list an empty one. -/
def addParentheses? (code : Text) : Option Text := do
  let (_, rest) ← functionName? code
  let colon := rest.trimStart
  if colon.isEmpty || colon == ":" then return before code rest ++ "()" ++ colon else none

/-- Gives a header its colon. -/
def addColon? (code : Text) : Option Text :=
  if hasHeaderColon code then none else some (code ++ ":")

/-- Completes code if it is the header of a block. -/
def headerDraft (code : Text) : Draft :=
  if isHeader code then
    (Draft.ofCode code).mend .parentheses addParentheses? |>.mend .colon addColon?
  else .ofCode code

/-- Completes the headers of a text. -/
def headers (text : Text) : Outcome := reviseSites Site.isWholeStatement headerDraft text

end Marginalia.Repair
