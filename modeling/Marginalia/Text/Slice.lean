import Marginalia.Text.Code

/-!
# Byte ranges

A range of a text is given by two byte offsets. It can be cut out if it lies inside the text, its
ends are in order, and both of them stand between characters.
-/

namespace Marginalia.Text

/-- The part of a text before a byte offset; nothing when the offset lies inside a character or past
the end. -/
def upToByte? : Text → Nat → Option Text
  | _, 0 => some []
  | [], _ => none
  | c :: rest, n =>
    if c.utf8Size ≤ n then (upToByte? rest (n - c.utf8Size)).map (c :: ·) else none

/-- The part of a text between two byte offsets; nothing when they are out of order, or one of them
lies inside a character or past the end. -/
def slice? (t : Text) (start stop : Nat) : Option Text :=
  if start ≤ stop then (fromByte? t start).bind fun rest => upToByte? rest (stop - start) else none

/-- Whether a byte offset stands between characters of a text, or at one of its ends. -/
def isBoundary (t : Text) (n : Nat) : Bool := (fromByte? t n).isSome

end Marginalia.Text
