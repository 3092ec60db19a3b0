import Marginalia.Text.Basic
import Marginalia.Text.CharTable

/-!
# Letters, digits and words

The character classes of Unicode that identifiers and patterns are made of, and the lower-case
form of a text. ASCII is decided by rule, everything else by table.
-/

namespace Marginalia

/-- Whether one of the ranges holds the code point. -/
def CharTable.holds (ranges : List (Nat × Nat)) (n : Nat) : Bool :=
  ranges.any fun (first, last) => first ≤ n && n ≤ last

/-- Whether one of the stepped ranges holds the code point. -/
def CharTable.holdsStep (ranges : List (Nat × Nat × Nat)) (n : Nat) : Bool :=
  ranges.any fun (first, last, step) => first ≤ n && n ≤ last && (n - first) % step == 0

/-- An ASCII letter. -/
def isAsciiLetter (c : Char) : Bool :=
  ('a' ≤ c && c ≤ 'z') || ('A' ≤ c && c ≤ 'Z')

/-- An ASCII digit. -/
def isAsciiDigit (c : Char) : Bool := '0' ≤ c && c ≤ '9'

/-- A character of a word: alphabetic, a mark, a decimal digit, a connector or a joiner. -/
def isWordChar (c : Char) : Bool :=
  if c.toNat < 128 then isAsciiLetter c || isAsciiDigit c || c == '_'
  else CharTable.holds CharTable.word c.toNat

/-- A decimal digit of any script. -/
def isDecimalDigit (c : Char) : Bool :=
  if c.toNat < 128 then isAsciiDigit c else CharTable.holds CharTable.decimalDigit c.toNat

/-- An alphabetic character or a number of any kind. -/
def isAlphanumeric (c : Char) : Bool :=
  if c.toNat < 128 then isAsciiLetter c || isAsciiDigit c
  else (CharTable.holds CharTable.word c.toNat && !CharTable.holds CharTable.wordSign c.toNat)
    || CharTable.holds CharTable.otherNumber c.toNat

/-- An upper-case character. -/
def isUpper (c : Char) : Bool :=
  if c.toNat < 128 then 'A' ≤ c && c ≤ 'Z' else CharTable.holdsStep CharTable.upper c.toNat

/-- A lower-case character. -/
def isLower (c : Char) : Bool :=
  if c.toNat < 128 then 'a' ≤ c && c ≤ 'z' else CharTable.holdsStep CharTable.lower c.toNat

/-- A character that may start an identifier. -/
def startsIdentifier (c : Char) : Bool :=
  if c.toNat < 128 then isAsciiLetter c || c == '_'
  else (CharTable.holds CharTable.word c.toNat && !CharTable.holds CharTable.wordNotStart c.toNat)
    || c.toNat == 0x2118 || c.toNat == 0x212E

/-- A character that may follow in an identifier. -/
def continuesIdentifier (c : Char) : Bool :=
  if c.toNat < 128 then isAsciiLetter c || isAsciiDigit c || c == '_'
  else
    (CharTable.holds CharTable.word c.toNat && !CharTable.holds CharTable.wordNotContinue c.toNat)
    || CharTable.holds CharTable.identifierSign c.toNat

/-- An ASCII letter or underscore, with which a plain name starts. -/
def isNameStart (c : Char) : Bool := isAsciiLetter c || c == '_'

/-- The lower-case form of one ASCII letter; any other character stays. -/
def lowerAscii (c : Char) : Char :=
  if 'A' ≤ c && c ≤ 'Z' then Char.ofNat (c.toNat + 32) else c

/-- The lower-case form of one character out of context, capital sigma and dotted capital I
included. -/
def lowerChar (c : Char) : Text :=
  if c.toNat < 128 then [lowerAscii c]
  else if c.toNat == 0x130 then ['i', Char.ofNat 0x307]
  else
    match CharTable.toLower.find? fun (first, last, step, _) =>
        first ≤ c.toNat && c.toNat ≤ last && (c.toNat - first) % step == 0 with
    | some (first, _, _, image) => [Char.ofNat (image + (c.toNat - first))]
    | none => [c]

/-- Characters that the search for a neighbouring cased character passes over. -/
def isCaseless (c : Char) : Bool :=
  if c.toNat < 128 then c == '\'' || c == '.' || c == ':' || c == '^' || c.toNat == 96
  else CharTable.holds CharTable.caseless c.toNat

/-- Upper-case, lower-case and title-case characters. -/
def isCased (c : Char) : Bool :=
  isUpper c || isLower c || [453, 456, 459, 498].contains c.toNat
    || (8072 ≤ c.toNat && c.toNat ≤ 8079) || (8088 ≤ c.toNat && c.toNat ≤ 8095)
    || (8104 ≤ c.toNat && c.toNat ≤ 8111) || [8124, 8140, 8188].contains c.toNat

namespace Text

/-- Whether the next character that is not passed over is cased. -/
def nextIsCased (t : Text) : Bool :=
  match t.dropWhile isCaseless with
  | [] => false
  | c :: _ => isCased c

/-- Lower case in context: a capital sigma that ends a word takes its final form. The text already
passed is given in reverse. -/
def lowerAfter (passed : Text) : Text → Text
  | [] => []
  | c :: rest =>
    (if c.toNat == 0x3A3 then
      [if nextIsCased passed && !nextIsCased rest then Char.ofNat 0x3C2 else Char.ofNat 0x3C3]
    else lowerChar c) ++ lowerAfter (c :: passed) rest

/-- The lower-case form of a text. -/
def lower (t : Text) : Text := lowerAfter [] t

/-- The lower-case form as far as ASCII letters go. -/
def lowerAsciiText (t : Text) : Text := t.map lowerAscii

end Text
end Marginalia
