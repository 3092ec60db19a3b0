import Marginalia.Json.Value

/-!
# Reading JSON

Reading never fails: it returns what the text says up to the point where it ceases to be JSON, and
the rest of the text if that point was not met.
-/

namespace Marginalia.Json

/-- The four blanks of JSON. -/
def isJsonBlank (c : Char) : Bool := c == ' ' || c == '\n' || c == '\t' || c == '\r'

def skipBlanks (t : Text) : Text := t.dropWhile isJsonBlank

/-- The value of a hexadecimal digit. -/
def hexValue? (c : Char) : Option Nat :=
  if isAsciiDigit c then some (c.toNat - 48)
  else if 'a' ≤ c && c ≤ 'f' then some (c.toNat - 87)
  else if 'A' ≤ c && c ≤ 'F' then some (c.toNat - 55)
  else none

/-- The 16-bit unit that four hexadecimal digits spell. -/
def unit? (a b c d : Char) : Option Nat := do
  let a ← hexValue? a
  let b ← hexValue? b
  let c ← hexValue? c
  let d ← hexValue? d
  return ((a * 16 + b) * 16 + c) * 16 + d

/-- The character of a one-letter escape. -/
def escaped? (c : Char) : Option Char :=
  if c == '"' || c == '\\' || c == '/' then some c
  else if c == 'b' then some (Char.ofNat 8)
  else if c == 'f' then some (Char.ofNat 12)
  else if c == 'n' then some '\n'
  else if c == 'r' then some '\r'
  else if c == 't' then some '\t'
  else none

/-- The code points of a string up to its closing quote, and what follows the quote. -/
def readCodes : Text → Option (List Nat × Text)
  | [] => none
  | '"' :: rest => some ([], rest)
  | '\\' :: 'u' :: a :: b :: c :: d :: rest => do
    let unit ← unit? a b c d
    let (codes, rest) ← readCodes rest
    return (unit :: codes, rest)
  | '\\' :: c :: rest => do
    let e ← escaped? c
    let (codes, rest) ← readCodes rest
    return (e.toNat :: codes, rest)
  | c :: rest =>
    if c.toNat < 32 || c == '\\' then none
    else do
      let (codes, rest) ← readCodes rest
      return (c.toNat :: codes, rest)

/-- The first half of a pair that stands for one character. -/
def isHighHalf (code : Nat) : Bool := 0xD800 ≤ code && code ≤ 0xDBFF

/-- The second half of a pair that stands for one character. -/
def isLowHalf (code : Nat) : Bool := 0xDC00 ≤ code && code ≤ 0xDFFF

/-- The text that code points spell. A half without its other half spells nothing. -/
def spelt? : List Nat → Option Text
  | [] => some []
  | [code] => if isHighHalf code || isLowHalf code then none else some [Char.ofNat code]
  | high :: low :: codes =>
    if isHighHalf high then
      if isLowHalf low then
        (spelt? codes).map (Char.ofNat (0x10000 + (high - 0xD800) * 0x400 + (low - 0xDC00)) :: ·)
      else none
    else if isLowHalf high then none
    else (spelt? (low :: codes)).map (Char.ofNat high :: ·)

/-- The text of a string up to its closing quote, and what follows the quote. A string with half of
a pair stands for no text. -/
def readString (t : Text) : Option (Option Text × Text) :=
  (readCodes t).map fun (codes, rest) => (spelt? codes, rest)

/-- A string. -/
def ofSpelling : Option Text → Json
  | some s => string s
  | none => halved

/-- A member of an object. -/
def memberOf (name : Option Text) (value : Json) : Text × Json :=
  match name with
  | some key => (key, value)
  | none => ([], misnamed value)

/-- The digits a text starts with, at least one, and what follows them. -/
def readDigits (t : Text) : Option (Text × Text) :=
  match t.span isAsciiDigit with
  | ([], _) => none
  | (digits, rest) => some (digits, rest)

/-- The fraction of a number, if one follows. -/
def readFraction : Text → Option (Text × Text)
  | '.' :: rest => (readDigits rest).map fun (digits, rest) => ('.' :: digits, rest)
  | rest => some ([], rest)

/-- The exponent of a number, if one follows. -/
def readExponent : Text → Option (Text × Text)
  | e :: rest =>
    if e == 'e' || e == 'E' then
      match rest with
      | sign :: rest' =>
        if sign == '+' || sign == '-' then
          (readDigits rest').map fun (digits, rest) => (e :: sign :: digits, rest)
        else (readDigits rest).map fun (digits, rest) => (e :: digits, rest)
      | [] => none
    else some ([], e :: rest)
  | [] => some ([], [])

/-- A number without its sign. -/
def readMagnitude (t : Text) : Option (Text × Text) := do
  let (whole, rest) ← readDigits t
  if whole.length > 1 && whole.head? == some '0' then none
  else
    let (fraction, rest) ← readFraction rest
    let (exponent, rest) ← readExponent rest
    return (whole ++ fraction ++ exponent, rest)

/-- The spelling of a number, and what follows it. -/
def readNumber : Text → Option (Text × Text)
  | '-' :: rest => (readMagnitude rest).map fun (literal, rest) => ('-' :: literal, rest)
  | t => readMagnitude t

/-- A value that is not a container, or nothing readable. -/
def readScalar (t : Text) : Json × Option Text :=
  match Text.after? "null" t with
  | some rest => (null, some rest)
  | none =>
    match Text.after? "true" t with
    | some rest => (bool true, some rest)
    | none =>
      match Text.after? "false" t with
      | some rest => (bool false, some rest)
      | none =>
        match readNumber t with
        | some (literal, rest) => (number literal, some rest)
        | none => (broken, none)

mutual

/-- One value. `fuel` bounds the values that are still to come. -/
def readValue : Nat → Text → Json × Option Text
  | 0, _ => (broken, none)
  | fuel + 1, t =>
    match skipBlanks t with
    | '"' :: rest =>
      match readString rest with
      | some (s, rest) => (ofSpelling s, some rest)
      | none => (broken, none)
    | '[' :: rest =>
      match skipBlanks rest with
      | ']' :: rest => (array [], some rest)
      | rest =>
        let (items, rest) := readItems fuel rest
        (array items, rest)
    | '{' :: rest =>
      match skipBlanks rest with
      | '}' :: rest => (object [], some rest)
      | rest =>
        let (members, rest) := readMembers fuel rest
        (object members, rest)
    | t => readScalar t

/-- The items of an array up to its end. -/
def readItems : Nat → Text → List Json × Option Text
  | 0, _ => ([broken], none)
  | fuel + 1, t =>
    match readValue fuel t with
    | (value, none) => ([value], none)
    | (value, some rest) =>
      match skipBlanks rest with
      | ']' :: rest => ([value], some rest)
      | ',' :: rest =>
        let (values, rest) := readItems fuel rest
        (value :: values, rest)
      | _ => ([value, broken], none)

/-- The members of an object up to its end. -/
def readMembers : Nat → Text → List (Text × Json) × Option Text
  | 0, _ => ([([], broken)], none)
  | fuel + 1, t =>
    match skipBlanks t with
    | '"' :: rest =>
      match readString rest with
      | none => ([([], broken)], none)
      | some (key, rest) =>
        match skipBlanks rest with
        | ':' :: rest =>
          match readValue fuel rest with
          | (value, none) => ([memberOf key value], none)
          | (value, some rest) =>
            match skipBlanks rest with
            | '}' :: rest => ([memberOf key value], some rest)
            | ',' :: rest =>
              let (members, rest) := readMembers fuel rest
              (memberOf key value :: members, rest)
            | _ => ([memberOf key value, ([], broken)], none)
        | _ => ([memberOf key broken], none)
    | _ => ([([], broken)], none)

end

/-- The value a text starts with, as far as it is one, and the rest of the text if it is. Every
value takes at least one character, which bounds their number. -/
def read (t : Text) : Json × Option Text := readValue (2 * t.length + 2) t

/-- The value of a text that is JSON from its start to its end. -/
def document? (t : Text) : Option Json :=
  match read t with
  | (value, some rest) => if (skipBlanks rest).isEmpty then some value else none
  | (_, none) => none

/-- How deep containers may be nested in a text that is read without knowing what to expect. -/
def depthLimit : Nat := 127

/-- The value of a text of which all is of interest. -/
def ofText (t : Text) : Option Json :=
  (document? t).filter fun j => j.isSpelt && j.depth ≤ depthLimit

end Marginalia.Json
