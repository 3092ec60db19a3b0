import Marginalia.Repair.Definitions
import Marginalia.Text.Substitution

/-!
# Operands of printed sums

In an argument of `print` that joins a literal to other operands by plus signs, names and numbers
are converted to text. Names that are known to hold text are left alone.
-/

namespace Marginalia.Repair

open Text

/-- Whether a text is a whole number, or one with a fraction. -/
def isNumber (t : Text) : Bool :=
  match t.span isDecimalDigit with
  | ([], _) => false
  | (_, []) => true
  | (_, '.' :: fraction) => !fraction.isEmpty && fraction.all isDecimalDigit
  | _ => false

/-- Whether a text is a path. -/
def isPath (t : Text) : Bool :=
  match path? t with
  | some (_, rest) => rest.isEmpty
  | none => false

/-- Whether an operand has to be converted. -/
def isBareOperand (texts : List Text) (operand : Text) : Bool :=
  (isPath operand || isNumber operand) && !texts.contains operand

/-- An operand, with the blanks around it, converted to text. -/
def convertOperand (texts : List Text) (piece : Text) : Text :=
  let operand := piece.trim
  if isBareOperand texts operand then
    piece.indentation ++ "str(" ++ operand ++ ")" ++ piece.drop (piece.trimEnd).length
  else piece

/-- An argument with its operands converted, if it joins them to a literal. -/
def convertArgument (texts : List Text) (argument : Text) : Text :=
  let operands := rawPieces '+' argument
  if operands.length ≥ 2 && operands.any fun o => isStringLiteral o.trim then
    join "+" (operands.map (convertOperand texts))
  else argument

/-- The arguments of a call with their operands converted. -/
def convertArguments (texts : List Text) (arguments : Text) : Text :=
  join "," ((rawPieces ',' arguments).map (convertArgument texts))

/-- Code with the operands of its first print call converted, if there are any to convert. -/
def convertPrinted? (texts : List Text) (code : Text) : Option Text := do
  let (head, call) ← splitAtPlace? (fun prev t => isFresh prev && t.startsWith "print(") none code
  let (inside, after) ← bracketed? (call.drop 5)
  changed? code (head ++ "print(" ++ convertArguments texts inside ++ ")" ++ after)

end Marginalia.Repair
