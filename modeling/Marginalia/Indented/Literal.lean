import Marginalia.Text.Letters

/-!
# Literals of indented sources

Numbers, strings, and strings with replacement fields. Each function takes what it reads from the
front of a text and gives it together with what follows.
-/

namespace Marginalia.Indented

/-! ## Numbers -/

/-- Digits of a class with single underscores between them, and what follows. -/
def digitRun (isDigit : Char → Bool) : Text → Text × Text
  | [] => ([], [])
  | c :: rest =>
    if isDigit c then
      let (digits, rest) := digitRun isDigit rest
      (c :: digits, rest)
    else if c == '_' && rest.head?.any isDigit then
      let (digits, rest) := digitRun isDigit rest
      (c :: digits, rest)
    else ([], c :: rest)

/-- A fraction, if one follows. -/
def fraction : Text → Text × Text
  | '.' :: rest =>
    match rest with
    | '_' :: _ => (['.'], rest)
    | _ =>
      let (digits, rest) := digitRun isAsciiDigit rest
      ('.' :: digits, rest)
  | t => ([], t)

/-- An exponent, if a complete one follows. -/
def exponent : Text → Text × Text
  | e :: sign :: rest =>
    if e == 'e' || e == 'E' then
      if sign == '+' || sign == '-' then
        if rest.head?.any isAsciiDigit then
          let (digits, rest) := digitRun isAsciiDigit rest
          (e :: sign :: digits, rest)
        else ([], e :: sign :: rest)
      else if isAsciiDigit sign then
        let (digits, rest) := digitRun isAsciiDigit (sign :: rest)
        (e :: digits, rest)
      else ([], e :: sign :: rest)
    else ([], e :: sign :: rest)
  | t => ([], t)

def isHexDigit (c : Char) : Bool :=
  isAsciiDigit c || ('a' ≤ c && c ≤ 'f') || ('A' ≤ c && c ≤ 'F')

/-- The digits that a base letter allows. -/
def baseDigit? (c : Char) : Option (Char → Bool) :=
  if c == 'x' || c == 'X' then some isHexDigit
  else if c == 'o' || c == 'O' then some fun c => '0' ≤ c && c ≤ '7'
  else if c == 'b' || c == 'B' then some fun c => c == '0' || c == '1'
  else none

/-- A number with base ten, whole or not, and what follows. Whole numbers have no leading zeros. -/
def decimal (t : Text) : Option (Text × Text) :=
  let (whole, rest) := digitRun isAsciiDigit t
  let (part, rest) := fraction rest
  let (power, rest) := exponent rest
  let (unit, rest) := match rest with
    | 'j' :: rest => (['j'], rest)
    | 'J' :: rest => (['J'], rest)
    | rest => ([], rest)
  let isWhole := part.isEmpty && power.isEmpty && unit.isEmpty
  if isWhole && whole.head? == some '0' && whole.any (fun c => c != '0' && c != '_') then none
  else some (whole ++ part ++ power ++ unit, rest)

/-- The words that may follow a number without a blank. -/
def numberFollowers : List Text := ["and", "else", "for", "if", "in", "is", "not", "or"]

/-- A number, and what follows it; nothing when letters stick to it. -/
def number? (t : Text) : Option (Text × Text) :=
  let read : Option (Text × Text) :=
    match t with
    | '0' :: c :: rest =>
      match baseDigit? c with
      | some isDigit =>
        let (digits, rest') := digitRun isDigit rest
        if digits.isEmpty then none else some ('0' :: c :: digits, rest')
      | none => decimal t
    | _ => decimal t
  read.bind fun (literal, rest) =>
    let word := rest.takeWhile continuesIdentifier
    if word.isEmpty || numberFollowers.contains word then some (literal, rest) else none

/-! ## Strings -/

/-- The body of a literal up to its closing quote, the quote included, and what follows. Where
`isLong`, it takes three quotes to close it and it may run over several lines. -/
def literalBody? (q : Char) (isLong : Bool) : Text → Option (Text × Text)
  | [] => none
  | '\\' :: '\r' :: '\n' :: rest =>
    (literalBody? q isLong rest).map fun (b, r) => ('\\' :: '\r' :: '\n' :: b, r)
  | '\\' :: c :: rest => (literalBody? q isLong rest).map fun (b, r) => ('\\' :: c :: b, r)
  | c :: rest =>
    if isLong then
      match rest with
      | d :: e :: rest' =>
        if c == q && d == q && e == q then some ([q, q, q], rest')
        else (literalBody? q isLong rest).map fun (b, r) => (c :: b, r)
      | _ => none
    else if c == q then some ([q], rest)
    else if c == '\n' then none
    else (literalBody? q isLong rest).map fun (b, r) => (c :: b, r)

/-- A literal from its opening quote on. -/
def quoted? : Text → Option (Text × Text)
  | a :: b :: c :: rest =>
    if a == b && b == c then (literalBody? a true rest).map fun (t, r) => (a :: b :: c :: t, r)
    else (literalBody? a false (b :: c :: rest)).map fun (t, r) => (a :: t, r)
  | a :: rest => (literalBody? a false rest).map fun (t, r) => (a :: t, r)
  | [] => none

/-- The marks that may stand before a quote, in lower case. -/
def literalMarks : List Text := ["r", "b", "u", "f", "br", "rb", "fr", "rf"]

/-! ## Replacement fields -/

/-- The quotes that close a literal. -/
def closingQuotes (q : Char) (isLong : Bool) : Text := if isLong then [q, q, q] else [q]

/-- The number of characters of an escape after its backslash. Where `isRaw`, no characters have
names. -/
def escapeLength (isRaw : Bool) : Text → Nat
  | 'N' :: '{' :: rest =>
    let name := rest.takeWhile (· != '}')
    if isRaw || name.isEmpty || name.length == rest.length then 1 else name.length + 3
  | '\r' :: '\n' :: _ => 2
  | c :: _ => if c == '{' || c == '}' then 0 else 1
  | [] => 0

/-- The number of characters that stand for themselves together at the start of a text inside a
literal with replacement fields; zero before a brace that is not doubled, the closing quotes, and a
line end that the literal cannot hold. -/
def plainLength (q : Char) (isLong isRaw : Bool) : Text → Nat
  | [] => 0
  | c :: rest =>
    if Text.startsWith (c :: rest) (closingQuotes q isLong) then 0
    else if c == '\n' && !isLong then 0
    else if c == '\\' then 1 + escapeLength isRaw rest
    else if c == '{' || c == '}' then if rest.head? == some c then 2 else 0
    else 1

/-- The characters that stand for themselves, and what follows them; the first `taken` do in any
case. -/
def plainStretch (q : Char) (isLong isRaw : Bool) (taken : Nat) : Text → Text × Text
  | [] => ([], [])
  | c :: rest =>
    match if taken = 0 then plainLength q isLong isRaw (c :: rest) else taken with
    | 0 => ([], c :: rest)
    | n + 1 =>
      let (stretch, rest) := plainStretch q isLong isRaw n rest
      (c :: stretch, rest)

/-- The conversion at the end of a replacement field: a small letter behind its sign. -/
def conversion? : Text → Option (Text × Text)
  | '!' :: c :: rest => if 'a' ≤ c && c ≤ 'z' then some (['!', c], rest) else none
  | _ => none

end Marginalia.Indented
