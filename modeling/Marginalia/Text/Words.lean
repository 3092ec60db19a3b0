import Marginalia.Text.Blank
import Marginalia.Text.Letters

/-!
# Words in code

The words of code are its longest runs of word characters. A name is a word that starts with an
ASCII letter or an underscore, a path a chain of names with dots.
-/

namespace Marginalia

/-- Whether a word that starts after a character starts there as a whole. -/
def isFresh (prev : Option Char) : Bool := !prev.any isWordChar

namespace Text

/-- Whether a text goes on with a word character. -/
def continuesWord (t : Text) : Bool := t.head?.any isWordChar

/-- The word a text starts with, possibly empty. -/
def firstWord (t : Text) : Text := t.takeWhile isWordChar

/-- Whether a text has a word. -/
def hasWord (word t : Text) : Bool := (fields (fun c => !isWordChar c) t).contains word

/-- The word a text starts with, and what follows it. -/
def word? : Text → Option (Text × Text)
  | [] => none
  | c :: rest =>
    if isWordChar c then some (c :: rest.takeWhile isWordChar, rest.dropWhile isWordChar) else none

/-- The name a text starts with, and what follows it. -/
def name? : Text → Option (Text × Text)
  | [] => none
  | c :: rest =>
    if isNameStart c then some (c :: rest.takeWhile isWordChar, rest.dropWhile isWordChar) else none

/-- A character of a path. -/
def isPathChar (c : Char) : Bool := isWordChar c || c == '.'

/-- The path a text starts with, and what follows it. -/
def path? : Text → Option (Text × Text)
  | [] => none
  | c :: rest =>
    if isNameStart c then some (c :: rest.takeWhile isPathChar, rest.dropWhile isPathChar) else none

/-- What follows the blanks that a text starts with, of which there has to be one. -/
def afterGap? : Text → Option Text
  | [] => none
  | c :: rest => if isBlank c then some (trimStart rest) else none

/-- What follows the blanks and the mark that a text starts with. -/
def afterBlanksAnd? (mark t : Text) : Option Text := after? mark (trimStart t)

/-- The number of bytes of a text's indentation. -/
def column (t : Text) : Nat := byteLength (indentation t)

/-- Whether some place in a text satisfies a condition on the character before it and the text it
starts. -/
def anyPlace (p : Option Char → Text → Bool) (prev : Option Char) : Text → Bool
  | [] => false
  | c :: rest => p prev (c :: rest) || anyPlace p (some c) rest

/-- Splits a text before the first place that satisfies such a condition. -/
def splitAtPlace? (p : Option Char → Text → Bool) (prev : Option Char) : Text → Option (Text × Text)
  | [] => none
  | c :: rest =>
    if p prev (c :: rest) then some ([], c :: rest)
    else (splitAtPlace? p (some c) rest).map fun (head, tail) => (c :: head, tail)

end Text
end Marginalia
