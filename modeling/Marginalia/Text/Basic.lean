/-!
# Texts

A text is a list of characters. Lines, joins and cuts are functions on lists, so that a
statement about a text is a statement about a list.
-/

namespace Marginalia

/-- A text, character by character. -/
abbrev Text := List Char

/-- A literal may stand where a text is expected. -/
instance : Coe String Text := ⟨String.toList⟩

namespace Text

/-- The pieces between the occurrences of `sep`; always one more than there are occurrences. -/
def splitOn (sep : Char) : Text → List Text
  | [] => [[]]
  | c :: rest =>
    if c = sep then [] :: splitOn sep rest
    else match splitOn sep rest with
      | [] => [[c]]
      | piece :: pieces => (c :: piece) :: pieces

/-- The lines of a text; a final newline opens one more, empty line. -/
def lines (t : Text) : List Text := splitOn '\n' t

/-- The pieces with `sep` between neighbours. -/
def join (sep : Text) : List Text → Text
  | [] => []
  | [piece] => piece
  | piece :: pieces => piece ++ sep ++ join sep pieces

/-- The text whose lines are given. -/
def unlines (ls : List Text) : Text := join ['\n'] ls

/-- The text above a line, where lines are counted from zero. -/
def above (t : Text) (n : Nat) : Text := (t.lines.take n).flatMap (· ++ ['\n'])

/-- What follows `head` in a text that starts with it. -/
def after? : Text → Text → Option Text
  | [], t => some t
  | _ :: _, [] => none
  | h :: head, c :: t => if h = c then after? head t else none

/-- Whether a text starts with `head`. -/
def startsWith (t head : Text) : Bool := (after? head t).isSome

/-- Whether a text ends with `tail`. -/
def endsWith (t tail : Text) : Bool := startsWith t.reverse tail.reverse

/-- The parts before and after the first occurrence of `mark`. -/
def cut? (mark : Text) : Text → Option (Text × Text)
  | [] => if mark.isEmpty then some ([], []) else none
  | c :: rest =>
    match after? mark (c :: rest) with
    | some tail => some ([], tail)
    | none => (cut? mark rest).map fun (head, tail) => (c :: head, tail)

/-- Whether `mark` occurs in a text. -/
def hasPart (t mark : Text) : Bool := (cut? mark t).isSome

/-- The length of a text in UTF-8 bytes. -/
def byteLength : Text → Nat
  | [] => 0
  | c :: rest => c.utf8Size + byteLength rest

/-- The part of a text from a byte offset on; nothing when the offset lies inside a character or
past the end. -/
def fromByte? : Text → Nat → Option Text
  | t, 0 => some t
  | [], _ => none
  | c :: rest, n => if c.utf8Size ≤ n then fromByte? rest (n - c.utf8Size) else none

/-- The first `max` characters, followed by an ellipsis when that leaves some out. -/
def truncate (max : Nat) (t : Text) : Text :=
  if t.length ≤ max then t else t.take max ++ "..."

/-- The decimal digits of a number. -/
def ofNat (n : Nat) : Text := Nat.toDigits 10 n

end Text
end Marginalia
