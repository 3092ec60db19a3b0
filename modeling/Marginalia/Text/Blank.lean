import Marginalia.Text.Basic

/-!
# Blanks

A character is blank when it has the property White_Space. The blank margins of a text are its
indentation and its trailing blanks; its words are the runs between blanks.
-/

namespace Marginalia

/-- The characters with the property White_Space. -/
def isBlank (c : Char) : Bool :=
  let n := c.toNat
  (9 ≤ n && n ≤ 13) || n == 32 || n == 0x85 || n == 0xA0 || n == 0x1680
    || (0x2000 ≤ n && n ≤ 0x200A) || n == 0x2028 || n == 0x2029 || n == 0x202F
    || n == 0x205F || n == 0x3000

namespace Text

/-- The blanks a text starts with. -/
def indentation (t : Text) : Text := t.takeWhile isBlank

/-- A text without the blanks it starts with. -/
def trimStart (t : Text) : Text := t.dropWhile isBlank

/-- A text without the trailing characters of a class. -/
def dropEnd (p : Char → Bool) : Text → Text
  | [] => []
  | c :: rest =>
    match dropEnd p rest with
    | [] => if p c then [] else [c]
    | kept => c :: kept

/-- A text without the blanks it ends with. -/
def trimEnd (t : Text) : Text := dropEnd isBlank t

/-- A text without its blank margins. -/
def trim (t : Text) : Text := trimEnd (trimStart t)

/-- Whether a text holds nothing but blanks. -/
def isAllBlank (t : Text) : Bool := t.all isBlank

/-- The runs of characters outside a class of separators. -/
def fields (isSeparator : Char → Bool) : Text → List Text
  | [] => []
  | c :: rest =>
    if isSeparator c then fields isSeparator rest
    else match rest with
      | [] => [[c]]
      | next :: _ =>
        if isSeparator next then [c] :: fields isSeparator rest
        else match fields isSeparator rest with
          | [] => [[c]]
          | field :: more => (c :: field) :: more

/-- The words of a text. -/
def words (t : Text) : List Text := fields isBlank t

/-- The words of a text with one space between neighbours. -/
def squash (t : Text) : Text := join [' '] (words t)

end Text
end Marginalia
