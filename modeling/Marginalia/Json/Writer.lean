import Marginalia.Json.Value

/-!
# Writing JSON

A value is written on one line, or one item a line with two spaces for each level of nesting.
-/

namespace Marginalia.Json

def hexDigit (n : Nat) : Char := Char.ofNat (if n < 10 then 48 + n else 87 + n)

/-- A character as it stands between the quotes of a string. -/
def escapeChar (c : Char) : Text :=
  if c == '"' then ['\\', '"']
  else if c == '\\' then ['\\', '\\']
  else if c == '\n' then ['\\', 'n']
  else if c == '\r' then ['\\', 'r']
  else if c == '\t' then ['\\', 't']
  else if c.toNat == 8 then ['\\', 'b']
  else if c.toNat == 12 then ['\\', 'f']
  else if c.toNat < 32 then
    ['\\', 'u', '0', '0', hexDigit (c.toNat / 16), hexDigit (c.toNat % 16)]
  else [c]

def quoted (t : Text) : Text := '"' :: (t.flatMap escapeChar ++ ['"'])

mutual

/-- The value on one line, without blanks. -/
def compact : Json → Text
  | null => "null"
  | bool true => "true"
  | bool false => "false"
  | number literal => literal
  | string t => quoted t
  | array items => "[" ++ compactItems items ++ "]"
  | object members => "\x7b" ++ compactMembers members ++ "\x7d"
  | halved | misnamed _ | broken => []

def compactItems : List Json → Text
  | [] => []
  | [item] => compact item
  | item :: items => compact item ++ "," ++ compactItems items

def compactMembers : List (Text × Json) → Text
  | [] => []
  | [(key, value)] => quoted key ++ ":" ++ compact value
  | (key, value) :: members => quoted key ++ ":" ++ compact value ++ "," ++ compactMembers members

end

/-- A new line at a level of nesting. -/
def newline (level : Nat) : Text := '\n' :: List.replicate (2 * level) ' '

mutual

/-- The value with one item or member a line. -/
def pretty (level : Nat) : Json → Text
  | null => "null"
  | bool true => "true"
  | bool false => "false"
  | number literal => literal
  | string t => quoted t
  | array [] => "[]"
  | array (item :: items) =>
    "[" ++ newline (level + 1) ++ pretty (level + 1) item ++ prettyItems level items ++ "]"
  | object [] => "\x7b\x7d"
  | object ((key, value) :: members) =>
    "\x7b" ++ newline (level + 1) ++ quoted key ++ ": " ++ pretty (level + 1) value
      ++ prettyMembers level members ++ "\x7d"
  | halved | misnamed _ | broken => []

/-- The items after the first, and the line end before the bracket. -/
def prettyItems (level : Nat) : List Json → Text
  | [] => newline level
  | item :: items =>
    "," ++ newline (level + 1) ++ pretty (level + 1) item ++ prettyItems level items

/-- The members after the first, and the line end before the brace. -/
def prettyMembers (level : Nat) : List (Text × Json) → Text
  | [] => newline level
  | (key, value) :: members =>
    "," ++ newline (level + 1) ++ quoted key ++ ": " ++ pretty (level + 1) value
      ++ prettyMembers level members

end

/-- The text of a document with one item or member a line. -/
def document (j : Json) : Text := pretty 0 j

end Marginalia.Json
