import Marginalia.Text.Blank
import Marginalia.Text.Letters

/-!
# The words of an identifier

An identifier is a sequence of words, whatever the style it is written in. Characters that are
neither letters nor digits separate words; so does the step from a small letter or digit to a
capital, and the last capital of a run belongs to the small letters after it.
-/

namespace Marginalia.Naming

/-- Whether a new word starts at `c`, between `prev` and `next` in a run of letters and digits. -/
def startsWord (prev c : Char) (next : Option Char) : Bool :=
  isUpper c && (isLower prev || isAsciiDigit prev || (next.any isLower && isUpper prev))

/-- Cuts the rest of a run, the character before it being `prev`, into the end of the word that is
under way and the words after it. -/
def humpsAfter (prev : Char) : Text → Text × List Text
  | [] => ([], [])
  | c :: rest =>
    let (word, words) := humpsAfter c rest
    if startsWord prev c rest.head? then ([], (c :: word) :: words) else (c :: word, words)

/-- The words of a run of letters and digits. -/
def humps : Text → List Text
  | [] => []
  | c :: rest =>
    let (word, words) := humpsAfter c rest
    (c :: word) :: words

/-- The words of an identifier, in lower case. -/
def splitIdentifier (name : Text) : List Text :=
  ((Text.fields (fun c => !isAlphanumeric c) name).flatMap humps).map Text.lower

/-- Whether one of the words of an identifier is among `hints`. -/
def mentions (hints : List Text) (name : Text) : Bool :=
  (splitIdentifier name).any hints.contains

end Marginalia.Naming
