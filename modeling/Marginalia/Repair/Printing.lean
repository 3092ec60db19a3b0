import Marginalia.Repair.Draft

/-!
# Print statements

A print statement becomes a call. A comma at its end, which kept the line open, becomes an
argument that does so.
-/

namespace Marginalia.Repair

open Text

/-- Whether what follows the word makes it something else than a print statement with operands: a
call, an assignment or a redirection. -/
def isNoOperands (args : Text) : Bool :=
  args.isEmpty || args.startsWith "(" || args.startsWith ">>"
    || (args.startsWith "=" && !args.startsWith "==")

/-- The arguments of the call that replaces a print statement with operands. -/
def callArguments (args : Text) : Text :=
  if args.endsWith "," then trimEnd args.dropLast ++ ", end=\" \"" else args

/-- The call that replaces a print statement. -/
def printCall? (code : Text) : Option Text := do
  let rest ← afterBlanksAnd? "print" code
  match rest with
  | [] => return code.indentation ++ "print()"
  | c :: _ =>
    let args := rest.trim
    if isBlank c && !isNoOperands args then
      return code.indentation ++ "print(" ++ callArguments args ++ ")"
    else none

def printDraft (code : Text) : Draft := (Draft.ofCode code).mend .printCall printCall?

/-- Turns the print statements of a text into calls. -/
def printing (text : Text) : Outcome := reviseSites Site.isWholeStatement printDraft text

end Marginalia.Repair
