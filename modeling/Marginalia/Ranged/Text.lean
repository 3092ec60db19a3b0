import Marginalia.Text.Located

/-!
# Reading code by ranges

The functions that cut code cut byte ranges out of it. Here they are written with the ranges that
they cut. Each of them gives nothing when a range cannot be cut out, or when the partner is asked
for of something that is no opening bracket.
-/

namespace Marginalia.Ranged

open Text

/-- The text from a byte offset on. -/
def from? (t : Text) (start : Nat) : Option Text := slice? t start (byteLength t)

/-- Whether an opening bracket stands at a byte offset. -/
def opensAt (t : Text) (start : Nat) : Bool :=
  ((fromByte? t start).bind List.head?).any isOpener

/-- The byte offset of the partner of an opening bracket. -/
def partner? (t : Text) (start : Nat) : Option (Option Nat) :=
  if opensAt t start then matchingClose? t start else none

/-- The blanks a text starts with. -/
def indentation? (t : Text) : Option Text :=
  slice? t 0 (byteLength t - byteLength (trimStart t))

/-- The part of a line before the first of some code characters at which a marker stands, without
trailing blanks. -/
def beforeMarker? (marker line : Text) : List CodeChar → Option Text
  | [] => some (trimEnd line)
  | c :: rest =>
    if marker.head? == some c.char then do
      let here ← from? line c.index
      if here.startsWith marker then (slice? line 0 c.index).map trimEnd
      else beforeMarker? marker line rest
    else beforeMarker? marker line rest

/-- The part of a line before its comment, without trailing blanks. -/
def codePart? (marker line : Text) : Option Text :=
  if marker.isEmpty then some (trimEnd line) else beforeMarker? marker line (codeChars line)

/-- What follows the first `target` outside literals and brackets. -/
def behindTopLevel? (target : Char) (t : Text) : Option (Option Text) :=
  match findTopLevel? target t with
  | none => some none
  | some place => (from? t (place + target.utf8Size)).map some

/-- What stands inside the first pair of parentheses. -/
def firstGroup? (t : Text) : Option (Option Text) :=
  match splitAtChar? '(' t with
  | none => some none
  | some (head, _) => do
    match ← partner? t (byteLength head) with
    | none => return none
    | some close => (slice? t (byteLength head + 1) close).map some

/-- The trimmed pieces between the occurrences of `sep` outside literals and brackets; a blank text
has none. -/
def splitTopLevel? (sep : Char) (t : Text) : Option (List Text) :=
  if t.trim.isEmpty then some []
  else (cutSegments? sep t 0 (codeChars t)).map (·.map fun segment => segment.2.trim)

end Marginalia.Ranged
