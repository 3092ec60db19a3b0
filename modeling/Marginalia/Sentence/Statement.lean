import Marginalia.Naming.Known
import Marginalia.Outline
import Marginalia.Sentence.Loop

/-!
# Sentences about statements

Managed resources, errors, returns and assignments.
-/

namespace Marginalia.Sentence

/-- A sentence with a small first letter. -/
def lowerFirst : Text → Text
  | [] => []
  | c :: rest => lowerChar c ++ rest

/-- What is done with the resources of a block. -/
def resources (items : List Text) : Text :=
  if items.any fun item => item.hasPart "open(" then
    "Open the file and close it automatically when done"
  else if items.any fun item => Text.hasPart item.lower "lock" then
    "Hold the lock while this block runs"
  else "Use " ++ quoted (items.headD []) ++ " as a managed resource, released on exit"

/-- A block that holds resources. -/
def withBlock (items : List Text) (isAsync : Bool) : Text :=
  if isAsync then "Asynchronously: " ++ lowerFirst (resources items) else resources items

/-- What a try block does about errors. -/
def handling (handlers : List Text) (catchesAll : Bool) : Text :=
  if catchesAll then "Try to run code and catch all errors"
  else match handlers with
    | [] => "Try to run code and catch any errors"
    | [only] => "Try to run code and catch " ++ only ++ " errors if they occur"
    | _ => "Try to run code and handle any errors that might happen"

def tryBlock (handlers : List Text) (catchesAll hasFinally : Bool) : Text :=
  if hasFinally then handling handlers catchesAll ++ ", always running the cleanup step"
  else handling handlers catchesAll

def catchClause (error : Option Text) : Text :=
  match error with
  | none | some [] => "Handle errors raised in the try block"
  | some error => "Handle " ++ error ++ " raised in the try block"

def finallyClause : Text := "Clean up regardless of whether an error occurred"

def raises (exception : Option Text) : Text :=
  match exception with
  | some exception => "Raise exception: " ++ quoted exception
  | none => "Re-raise current exception"

def asserts (test : Text) (message : Option Text) : Text :=
  "Make sure " ++ quoted test ++ " holds"
    ++ (match message with
      | some message => ", failing with " ++ quoted message
      | none => [])

/-- A return of a value, or of none, from the function that is given. -/
def returns (value function : Option Text) : Text :=
  let value := (value.map Text.trim).getD "None"
  if (["None", "null", "undefined", ""] : List Text).contains value then "Return without value"
  else if (["True", "False", "true", "false"] : List Text).contains value then
    "Return boolean: " ++ value
  else if (["self", "this", "*this"] : List Text).contains value then
    "Return instance for method chaining"
  else if value.startsWith "\x7b" || value.startsWith "[" then "Return collection/data structure"
  else match function with
    | some function => "Return the result of " ++ function
    | none => "Return computed value"

/-- An assignment of a plain value. -/
def plainAssignment (target value : Text) : Text :=
  if (["None", "null", "NULL"] : List Text).contains value then
    "Set " ++ target ++ " to null/none"
  else if (["True", "False", "true", "false"] : List Text).contains value then
    "Set " ++ target ++ " to boolean value"
  else if !value.isEmpty && value.all isAsciiDigit then
    "Initialize " ++ target ++ " with numeric value"
  else "Assign value to " ++ target

def assignment (targets : List Text) (value : Text) (shape : ValueShape) : Text :=
  let target := Text.join ", " targets
  let value := value.trim
  match shape with
  | .call => "Store result of function call in " ++ target
  | .list =>
    if value == "[]" then "Initialize empty list " ++ target
    else "Initialize " ++ target ++ " as list"
  | .dict =>
    if value == "\x7b\x7d" then "Initialize empty dictionary " ++ target
    else "Initialize " ++ target ++ " as dictionary"
  | .lambda => "Define inline function " ++ target
  | .comprehension => "Build " ++ target ++ " using comprehension"
  | .other => plainAssignment target value

/-- The verb for an assignment that combines the old value with another. -/
def updateVerb (operator : Text) : Text :=
  if operator == "+=" then "Increase"
  else if operator == "-=" then "Decrease"
  else if operator == "*=" then "Multiply"
  else if operator == "/=" || operator == "//=" then "Divide"
  else "Update"

def augmentedAssignment (target operator value : Text) : Text :=
  updateVerb operator ++ " " ++ target ++ " by " ++ quoted value

def libraryCall (function : Text) (argument : Option Text) : Text :=
  (Naming.libraryCall? function argument).getD ("Call " ++ function)

end Marginalia.Sentence
