import Marginalia.Naming.Intent
import Marginalia.Naming.Known
import Marginalia.Outline
import Marginalia.Text.Blank

/-!
# Sentences about definitions

Functions, classes, types, macros and the declarations around them, and what a module takes from
and gives to others.
-/

namespace Marginalia.Sentence

/-- A function or method that does the work its name tells. -/
def plainCallable (name : Text) (l : Language) : Text :=
  match Naming.specialName? l name with
  | some known => known
  | none =>
    match Naming.classify? name with
    | some found => found.description
    | none => "Execute the " ++ name ++ " operation"

/-- A function, method or the like. -/
def callable (c : Callable) (l : Language) : Text :=
  let owner := c.owner.getD "the object"
  match c.flavor with
  | .constructor => (Naming.specialName? l c.name).getD ("Construct a new " ++ owner ++ " instance")
  | .destructor => "Release resources held by " ++ owner
  | .prototype => "Declare the " ++ c.name ++ " function signature"
  | _ => plainCallable c.name l

/-- A class, by the role its name tells or the first class it extends. -/
def classDef (name : Text) (bases : List Text) : Text :=
  match Naming.classRole? name with
  | some role => "Define " ++ role ++ " class for " ++ name
  | none =>
    match bases with
    | base :: _ => "Create " ++ name ++ " class that extends " ++ base
    | [] => "Define the " ++ name ++ " class structure and behavior"

def interface (name : Text) (bases : Option Text) : Text :=
  match bases with
  | some parent => "Describe the " ++ name ++ " interface, extending " ++ parent.trim
  | none => "Describe the shape of " ++ name ++ " objects"

def typeAlias (name definition : Text) : Text :=
  "Define " ++ name ++ " as an alias for " ++ definition

def enumeration (name : Text) : Text := "List the allowed values of " ++ name

/-- What follows the last space. -/
def lastPart (t : Text) : Text := (t.reverse.takeWhile (· != ' ')).reverse

/-- A structure or union. -/
def record (keyword name : Text) : Text :=
  if name.isEmpty then "Define an anonymous " ++ lastPart keyword ++ " type"
  else "Define the " ++ name ++ " " ++ lastPart keyword ++ " layout"

/-- What is taken from another module. -/
def imports (module : Text) (names : List Text) (selective : Bool) : Text :=
  if selective then
    match names with
    | [only] => "Bring in " ++ only ++ " functionality from " ++ module
    | _ => "Load multiple tools from the " ++ module ++ " library"
  else "Load the " ++ module ++ " library for use in this code"

/-- What is given to other modules. -/
def exports (item : Text) (isDefault : Bool) : Text :=
  if isDefault then "Export " ++ item.truncate 50 ++ " as the module default"
  else "Export " ++ item.truncate 50 ++ " from this module"

def includes (header : Text) (isSystem : Bool) : Text :=
  "Include the " ++ (if isSystem then "system" else "local" : Text) ++ " header " ++ header

def macroDef (name : Text) (params value : Option Text) : Text :=
  match params, value with
  | some params, _ => "Define macro function " ++ name ++ "(" ++ params ++ ")"
  | none, some value => "Define macro " ++ name ++ " as " ++ value
  | none, none => "Define macro " ++ name

/-- A directive other than an inclusion or a macro. -/
def preprocessor (directive argument : Text) : Text :=
  if directive == "ifdef" then
    "Compile the following only if " ++ argument ++ " is defined"
  else if directive == "ifndef" then
    "Compile the following only if " ++ argument ++ " is not defined"
  else if directive == "if" then "Compile the following only if " ++ argument
  else if directive == "elif" then "Otherwise compile the following if " ++ argument
  else if directive == "else" then "Otherwise compile the following"
  else if directive == "endif" then "End of conditional compilation"
  else if directive == "pragma" then "Compiler directive: pragma " ++ argument
  else Text.trimEnd ("Preprocessor directive: #" ++ directive ++ " " ++ argument)

def namespaceDef (name : Text) (isUse : Bool) : Text :=
  if isUse then "Use names from the " ++ name ++ " namespace"
  else "Group the following declarations in the " ++ name ++ " namespace"

def template (params : Text) : Text := "Generic definition over " ++ params

def globalVariable (declaration name : Text) (value : Option Text) : Text :=
  match value with
  | some value => "Global " ++ declaration ++ " " ++ name ++ " initialised to " ++ value
  | none => "Declare global " ++ declaration ++ " " ++ name

end Marginalia.Sentence
