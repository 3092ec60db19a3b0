import Marginalia.Text.Blank
import Marginalia.Text.Letters

/-!
# Languages

The languages whose source can be annotated, the names and file extensions they go by, and how
they write comments.
-/

namespace Marginalia

/-- A supported language. -/
inductive Language where
  | python
  | javascript
  | c
deriving Repr, DecidableEq

namespace Language

/-- What a language is called and how it looks. -/
structure Profile where
  name : Text
  aliases : List Text
  extensions : List Text
  commentMarker : Text
  /-- A line that starts with one of these is a comment already. -/
  commentHeads : List Text
  /-- Whether sources are parsed, rather than read line by line. -/
  hasGrammar : Bool

def profile : Language → Profile
  | python =>
    { name := "python"
      aliases := ["py", "python3"]
      extensions := ["py", "pyw"]
      commentMarker := "#"
      commentHeads := ["#"]
      hasGrammar := true }
  | javascript =>
    { name := "javascript"
      aliases := ["js", "jsx", "typescript", "ts", "tsx", "node"]
      extensions := ["js", "jsx", "mjs", "cjs", "ts", "tsx"]
      commentMarker := "//"
      commentHeads := ["//", "/*", "*"]
      hasGrammar := false }
  | c =>
    { name := "c"
      aliases := ["cpp", "c++", "cc", "cxx", "h", "hpp"]
      extensions := ["c", "h", "cc", "cpp", "cxx", "hpp", "hh"]
      commentMarker := "//"
      commentHeads := ["//", "/*", "*"]
      hasGrammar := false }

/-- All languages, in the order in which names are looked up. -/
def all : List Language := [python, javascript, c]

def name (l : Language) : Text := l.profile.name

def commentMarker (l : Language) : Text := l.profile.commentMarker

/-- Whether a line is a comment already. -/
def isComment (l : Language) (line : Text) : Bool :=
  l.profile.commentHeads.any fun head => (Text.trim line).startsWith head

/-- The language of a name or alias; margins and ASCII case do not matter. -/
def ofName? (name : Text) : Option Language :=
  let name := (Text.trim name).lowerAsciiText
  all.find? fun l => l.profile.name == name || l.profile.aliases.contains name

/-- The language of a file extension; ASCII case does not matter. -/
def ofExtension? (extension : Text) : Option Language :=
  let extension := extension.lowerAsciiText
  all.find? fun l => l.profile.extensions.contains extension

end Language

/-- The name of no supported language, as it was given. -/
structure UnsupportedLanguage where
  name : Text
deriving Repr, DecidableEq

def UnsupportedLanguage.message (e : UnsupportedLanguage) : Text :=
  "Unsupported language: " ++ e.name

/-- The language of a name, or the complaint about it. -/
def Language.ofName (name : Text) : Except UnsupportedLanguage Language :=
  match ofName? name with
  | some l => .ok l
  | none => .error ⟨name⟩

end Marginalia
