import Marginalia.Text.Slice

/-!
# Located pieces

The separators of a text cut it into segments. A reader goes through the code characters of the text
and cuts a segment out at each separator. A segment is a byte range, so a piece that is cut out of it
has a place in the text.
-/

namespace Marginalia.Text

/-- Whether a character of code separates pieces: it is the separator, outside brackets. -/
def isSeparator (sep : Char) (c : CodeChar) : Bool := c.char == sep && c.depth == 0

/-- What stands between the separators of a text, from an offset on, each with the offset it starts
at. The characters of code from there on are left to be looked at. Nothing when a segment cannot be
cut out. -/
def cutSegments? (sep : Char) (t : Text) (start : Nat) : List CodeChar → Option (List (Nat × Text))
  | [] => (slice? t start (byteLength t)).map fun raw => [(start, raw)]
  | c :: rest =>
    if isSeparator sep c then do
      let raw ← slice? t start c.index
      let more ← cutSegments? sep t (c.index + sep.utf8Size) rest
      return (start, raw) :: more
    else cutSegments? sep t start rest

/-- A segment without blank margins, and where it starts then. -/
def locate (segment : Nat × Text) : Nat × Text :=
  (segment.1 + (byteLength segment.2 - byteLength segment.2.trimStart), segment.2.trim)

/-- The trimmed pieces of a text between its separators, with their offsets. -/
def locatedPieces? (sep : Char) (t : Text) : Option (List (Nat × Text)) :=
  (cutSegments? sep t 0 (codeChars t)).map (·.map locate)

end Marginalia.Text
