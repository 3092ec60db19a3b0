import Marginalia.Repair.Arguments
import Marginalia.Repair.Draft
import Marginalia.Repair.Inputs
import Marginalia.Repair.KeyReads
import Marginalia.Repair.Operands

/-!
# Pitfalls

Faults of code that can be parsed but fails, or does something else than was meant, when it is run.
-/

namespace Marginalia.Repair

open Text

/-- Replaces a clock that no longer exists. -/
def clockRule : Rule := .freshLiteral "time.clock()" "time.time()"

/-- Takes back the step by which a range leaves a collection. -/
def rangeRule : Rule := fun b t => do
  guard b.fresh
  let rest ← after? "range(" t
  let rest ← afterBlanksAnd? "len(" rest
  let isPlain (c : Char) : Bool := c != '(' && c != ')'
  let rest' ← after? ")" (rest.dropWhile isPlain)
  let rest' ← afterBlanksAnd? "+" rest'
  let rest' ← afterBlanksAnd? "1" rest'
  let rest' ← afterBlanksAnd? ")" rest'
  return (t.length - rest'.length, "range(len(" ++ rest.takeWhile isPlain ++ "))")

/-- The number inside quotes that makes up the rest of a text. -/
def quotedNumber? (t : Text) : Option Text :=
  match t with
  | [] => none
  | q :: rest =>
    if (q == '"' || q == '\'') && rest.getLast? == some q then
      let digits := rest.dropLast
      if !digits.isEmpty && digits.all isDecimalDigit then some digits else none
    else none

/-- What follows the last dot. -/
def lastSegment (path : Text) : Text := (path.reverse.takeWhile (· != '.')).reverse

/-- Makes the text that a counter is increased by a number. -/
def incrementByNumber? (code : Text) : Option Text := do
  let (path, value) ← assignedPath? "+=" code
  let digits ← quotedNumber? value.trimStart
  guard (Naming.isCounterName (lastSegment path))
  return code.indentation ++ path ++ " += " ++ digits

/-- Whether code starts a definition. -/
def isDefinition (code : Text) : Bool :=
  let code := code.trimStart
  ((after? "class" code).bind afterGap?).isSome
    || ((after? "def" (afterAsync code)).bind afterGap?).isSome

/-- Completes the calls in code that is no definition. Nothing if there is no end of it. -/
def completeArguments? (arities : Arities) (d : Draft) : Option Draft :=
  if isDefinition d.code then some d
  else (completeCalls? arities d.code).map fun (added, code) =>
    ⟨code, d.findings ++ added.map fun (name, missing) => .fixed (.arguments name missing)⟩

/-- Mends the code of a statement where `texts` hold input and `later` lines follow. -/
def pitfallDraft? (arities : Arities) (texts : List Text) (later : List (LineInfo × Text))
    (code : Text) : Option Draft :=
  completeArguments? arities
    ((Draft.ofCode code).mend .clock (substitute? clockRule)
      |>.mend .textConversion (convertPrinted? texts)
      |>.mend .numberConversion (convertInput? later)
      |>.mend .rangeEnd (substitute? rangeRule)
      |>.mend .keyRead guardKeys?
      |>.mend .increment incrementByNumber?)

/-- Mends a line. The state holds the variables that hold input. -/
def pitfallStep (arities : Arities) (texts : List Text) (s : Site) :
    List Text × Option Revised :=
  if s.isStatement then
    match pitfallDraft? arities texts s.later s.code with
    | some d => (textsAfter texts d.code, some (.ofDraft s d))
    | none => (texts, none)
  else (texts, some (.same s))

/-- Mends the pitfalls of a text. Nothing if the completion of calls has no end on some line. -/
def pitfalls? (text : Text) : Option Outcome :=
  let lines := text.lines
  ((visit (pitfallStep (aritiesOf lines)) [] (Site.ofLines lines)).mapM id).map Revised.outcome

end Marginalia.Repair
