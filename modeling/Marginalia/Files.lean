import Marginalia.Text.Basic

/-!
# Files

What reading a file by its path gives, the extension of a path, and a directory that is known to
hold just some files.
-/

namespace Marginalia

/-- Why a file cannot be read. -/
inductive FileFault where
  | missing
  | isDirectory
  | notDirectory
  | notText
deriving Repr, DecidableEq

def FileFault.message : FileFault → Text
  | missing => "No such file or directory (os error 2)"
  | isDirectory => "Is a directory (os error 21)"
  | notDirectory => "Not a directory (os error 20)"
  | notText => "stream did not contain valid UTF-8"

/-- What reading the file at a path gives. -/
abbrev Files := Text → Except FileFault Text

namespace Files

/-- The names a path consists of; those that stay where they are do not count. -/
def components (path : Text) : List Text :=
  (Text.splitOn '/' path).filter fun name => !name.isEmpty && name != ['.']

/-- The extension of a path: what follows the last dot of the last name, unless the name starts with
that dot. -/
def extension? (path : Text) : Option Text :=
  match (components path).getLast? with
  | none => none
  | some name =>
    if name == ['.', '.'] then none
    else
      match name.reverse.span (· != '.') with
      | (_, []) => none
      | (_, [_]) => none
      | (ending, _ :: _ :: _) => some ending.reverse

/-- Whether names start with some others. -/
def isWithin (outer inner : List Text) : Bool := outer.isPrefixOf inner

/-- The files of a directory that is known to hold just these. -/
def ofList (entries : List (Text × Text)) : Files := fun path =>
  let names := components path
  match entries.find? fun (name, _) => components name == names with
  | some (_, content) =>
    if path.head? == some '/' then .error .missing
    else if path.getLast? == some '/' then .error .notDirectory
    else .ok content
  | none =>
    if path.isEmpty || path.head? == some '/' then .error .missing
    else if names.isEmpty || entries.any fun (name, _) => isWithin names (components name) then
      .error .isDirectory
    else if entries.any fun (name, _) => isWithin (components name) names then
      .error .notDirectory
    else .error .missing

/-- The files after one was written. A path may name it in several ways. -/
def written (files : Files) (path content : Text) : Files := fun other =>
  match ofList [(path, content)] other with
  | .error .missing => files other
  | found => found

end Files
end Marginalia
