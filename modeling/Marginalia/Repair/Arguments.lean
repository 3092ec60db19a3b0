import Marginalia.Repair.Definitions
import Marginalia.Repair.Layout

/-!
# Arguments of constructors

A call of a class of the source that has fewer arguments than the initializer of the class requires
is completed, one call after the other from the left. A call whose arguments leave a bracket open
stays short however often it is completed; code with such a call is never finished.
-/

namespace Marginalia.Repair

open Text

/-- The numbers of arguments that initializers require, by class. -/
abbrev Arities := List (Text × Nat)

/-- The number of arguments that a parameter list, the object apart, requires by position; nothing
if it has starred parameters. -/
def requiredOf? (params : Text) : Option Nat :=
  let params := ((splitTopLevel ',' params).drop 1).filter fun (p : Text) => !p.isEmpty && p != "/"
  if params.any fun p => p.startsWith "*" then none
  else some (params.countP fun p => (splitTopLevel? '=' p).isNone)

/-- Whether code starts the definition of an initializer. -/
def isInitializer (code : Text) : Bool :=
  (((afterBlanksAnd? "def" code).bind afterGap?).bind (after? "__init__")).any fun rest =>
    rest.trimStart.startsWith "("

/-- The class that a line belongs to, and its column. -/
abbrev Enclosing := Option (Text × Nat)

/-- Reads the code of a statement: the class that following statements belong to, and the arities
that are known. -/
def arityStep (enclosing : Enclosing) (arities : Arities) (code : Text) : Enclosing × Arities :=
  match className? code with
  | some name => (some (name, code.column), arities)
  | none =>
    match enclosing with
    | none => (none, arities)
    | some (name, column) =>
      if code.column ≤ column then (none, arities)
      else if isInitializer code then
        match (firstGroup? code).bind requiredOf? with
        | some required => (enclosing, (name, required) :: arities)
        | none => (enclosing, arities)
      else (enclosing, arities)

/-- The arities of the classes of a source. What a later initializer requires counts. -/
def aritiesOf (lines : List Text) : Arities :=
  let statements := ((layout lines).zip lines).filter fun (info, _) => info.role == .statement
  (statements.foldl (fun (enclosing, arities) (_, line) =>
    arityStep enclosing arities (codeOfLine line)) (none, [])).2

/-- Whether an argument is given by name. -/
def isKeywordArgument (argument : Text) : Bool :=
  match splitTopLevel? '=' argument with
  | some (_, tail) => !Text.startsWith (tail.drop 1) "="
  | none => false

/-- A call that lacks arguments: its name, the text up to its parenthesis, the arguments it has,
the text from its closing parenthesis on, and the number of arguments it lacks. -/
structure ShortCall where
  name : Text
  head : Text
  arguments : List Text
  tail : Text
  missing : Nat
deriving Repr, DecidableEq

/-- The call at a place, if it is one of a known class that lacks arguments. Methods are not looked
at, nor calls with starred or named arguments. -/
def shortCallAt? (arities : Arities) (prev : Option Char) (t : Text) : Option ShortCall := do
  guard (isFresh prev && prev != some '.')
  let (name, rest) ← name? t
  guard (rest.startsWith "(")
  let required ← arities.lookup name
  let (inside, after) ← bracketed? rest
  let arguments := (splitTopLevel ',' inside).filter fun a => !a.isEmpty
  guard !(arguments.any fun a => a.startsWith "*" || isKeywordArgument a)
  guard (arguments.length < required)
  return ⟨name, name ++ "(", arguments, ')' :: after, required - arguments.length⟩

/-- The first call that lacks arguments. -/
def shortCall? (arities : Arities) (prev : Option Char) : Text → Option ShortCall
  | [] => none
  | c :: rest =>
    match shortCallAt? arities prev (c :: rest) with
    | some call => some call
    | none =>
      (shortCall? arities (some c) rest).map fun call => { call with head := c :: call.head }

namespace ShortCall

/-- The code with the call completed. -/
def completed (call : ShortCall) : Text :=
  call.head
    ++ join ", " (call.arguments ++ List.replicate call.missing ("None" : Text)) ++ call.tail

end ShortCall

/-- Completes calls until none lacks arguments, at most `fuel` of them. Says of each call its name
and how many arguments were added. Nothing if calls are left. -/
def completeCallsWithin (arities : Arities) : Nat → Text → Option (List (Text × Nat) × Text)
  | fuel, code =>
    match shortCall? arities none code with
    | none => some ([], code)
    | some call =>
      match fuel with
      | 0 => none
      | fuel + 1 =>
        (completeCallsWithin arities fuel call.completed).map fun (added, code) =>
          ((call.name, call.missing) :: added, code)

/-- Completes calls until none lacks arguments. Every call that can be completed is completed once,
so the number of parentheses is enough. -/
def completeCalls? (arities : Arities) (code : Text) : Option (List (Text × Nat) × Text) :=
  completeCallsWithin arities (code.count '(') code

end Marginalia.Repair
