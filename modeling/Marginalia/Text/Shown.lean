import Marginalia.Text.Letters

/-!
# Shown texts

A text as messages show it, between quotes, with the characters that cannot be seen escaped.
-/

namespace Marginalia.Text

/-- A number in hexadecimal digits. -/
def ofHex (n : Nat) : Text := Nat.toDigits 16 n

/-- A character as it is shown between quotes. -/
def shownChar (c : Char) : Text :=
  if c == '"' then ['\\', '"']
  else if c == '\\' then ['\\', '\\']
  else if c == '\n' then ['\\', 'n']
  else if c == '\r' then ['\\', 'r']
  else if c == '\t' then ['\\', 't']
  else if c.toNat == 0 then ['\\', '0']
  else if c.toNat < 32 || c.toNat == 127
      || (c.toNat ≥ 128 && CharTable.holds CharTable.escaped c.toNat) then
    "\\u\x7b" ++ ofHex c.toNat ++ "\x7d"
  else [c]

/-- A text between quotes. -/
def shown (t : Text) : Text := '"' :: (t.flatMap shownChar ++ ['"'])

end Marginalia.Text
