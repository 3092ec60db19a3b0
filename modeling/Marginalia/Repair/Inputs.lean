import Marginalia.Repair.Definitions
import Marginalia.Repair.Draft
import Marginalia.Naming.Known

/-!
# Numbers that are read as text

A variable that is set from the user's input and used as a number soon after gets its input
converted. Uses are looked for in the next few lines of code: arithmetic, comparisons with numbers,
ranges, and calls of functions whose names tell that they calculate.
-/

namespace Marginalia.Repair

open Text

/-- How many lines of code are searched for uses. -/
def inputLookahead : Nat := 5

/-- For an assignment from the user's input: the variable, the text before the call, and the text
from its parenthesis on. -/
def inputAssignment? (code : Text) : Option (Text × Text × Text) := do
  let (name, value) ← assigned? code
  let call := value.trimStart
  let rest ← after? "input" call
  if rest.startsWith "(" then return (name, before code call, rest) else none

/-- The signs that combine a variable with a value when it is assigned. -/
def assignmentSigns : List Text :=
  ["**", "//", "-", "+", "*", "/", "%", "@", "&", "|", "^", ""]

/-- The variable that code assigns to, in whatever way. -/
def assignmentTarget? (code : Text) : Option Text := do
  let (name, rest) ← name? code.trimStart
  let value ← assignmentSigns.findSome? fun sign => (afterBlanksAnd? sign rest).bind (after? "=")
  if value.head? == some '=' then none else return name

/-- The signs of arithmetic that make an operand a number, addition apart. -/
def isArithmeticSign (c : Char) : Bool := c == '-' || c == '*' || c == '/' || c == '%'

/-- Characters after which a plus sign makes what follows a number. -/
def isNumberEnd (c : Char) : Bool := !isBlank c && c != '"' && c != '\'' && c != '+'

/-- Characters with which something that is added may be text. -/
def isTextStart (c : Char) : Bool :=
  isBlank c || c == '"' || c == '\'' || isLiteralMark c

/-- What follows an order sign, with or without equality. -/
def afterOrder? : Text → Option Text
  | '<' :: '=' :: rest => some rest
  | '>' :: '=' :: rest => some rest
  | '<' :: rest => some rest
  | '>' :: rest => some rest
  | _ => none

/-- Whether a text, blanks aside, starts with a word. -/
def leadsTo (word t : Text) : Bool :=
  ((afterBlanksAnd? word t).map fun rest => !continuesWord rest).getD false

/-- Whether what follows a variable makes it a number. -/
def numberBefore (after : Text) : Bool :=
  match after.trimStart with
  | '+' :: '=' :: _ => true
  | '+' :: rest => (trimStart rest).head?.any fun c => !isTextStart c
  | c :: rest =>
    isArithmeticSign c
      || ((afterOrder? (c :: rest)).map fun t => (trimStart t).head?.any isDecimalDigit).getD false
  | [] => false

/-- Whether a place starts something that makes the variable after it a number. -/
def numberAfter (var : Text) : Text → Bool
  | [] => false
  | c :: rest =>
    (isArithmeticSign c && leadsTo var rest)
      || (isNumberEnd c && ((afterBlanksAnd? "+" rest).map (leadsTo var)).getD false)
      || (isDecimalDigit c && ((afterOrder? (trimStart rest)).map (leadsTo var)).getD false)

/-- Whether a place starts a range that a variable bounds. -/
def rangeOver (var t : Text) : Bool :=
  ((after? "range(" t).map fun rest => hasWord var (rest.takeWhile (· != ')'))).getD false

/-- Whether a place starts a call of an arithmetic function with a variable in its arguments. -/
def calculates (var t : Text) : Bool :=
  match name? t with
  | some (name, rest) =>
    rest.startsWith "(" && Naming.isArithmeticName name
      && hasWord var ((firstGroup? t).getD [])
  | none => false

/-- Whether a place starts a conversion of a variable to a number. -/
def convertsNumber (var t : Text) : Bool :=
  (((after? "int(" t).or (after? "float(" t)).bind (afterBlanksAnd? var)).any fun rest =>
    (trimStart rest).startsWith ")"

/-- Whether a line uses a variable as a number. -/
def usesNumber (var line : Text) : Bool :=
  anyPlace (fun prev t =>
    numberAfter var t
      || (isFresh prev
        && (((after? var t).any numberBefore) || rangeOver var t
          || calculates var t))) none line

/-- Whether some lines use a variable as a number that none of them converts. -/
def usedAsNumber (var : Text) (lines : List Text) : Bool :=
  !lines.any (anyPlace (fun prev t => isFresh prev && convertsNumber var t) none)
    && lines.any (usesNumber var)

/-- The next lines of code. -/
def lookahead (later : List (LineInfo × Text)) : List Text :=
  ((later.filter fun (info, _) => info.role == .statement || info.role == .continuation).take
    inputLookahead).map fun (_, line) => codeOfLine line

/-- Converts the input that a variable is set from, if the variable is used as a number. -/
def convertInput? (later : List (LineInfo × Text)) (code : Text) : Option Text := do
  let (name, head, call) ← inputAssignment? code
  let (inside, after) ← bracketed? call
  if after.isAllBlank && usedAsNumber name (lookahead later) then
    return head ++ "int(input(" ++ inside ++ "))"
  else none

/-- The variables that hold input, after code was run: the one that code sets from input is added,
any other that it sets is removed. -/
def textsAfter (texts : List Text) (code : Text) : List Text :=
  match inputAssignment? code with
  | some (name, _) => if texts.contains name then texts else name :: texts
  | none =>
    match assignmentTarget? code with
    | some name => texts.filter (· != name)
    | none => texts

end Marginalia.Repair
