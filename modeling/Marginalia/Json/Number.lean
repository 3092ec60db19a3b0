import Marginalia.Json.Value

/-!
# The range of numbers

A number may be spelt with any number of digits, but only so large that a double can hold it. It is
valued from its first digits that fit in 64 bits and a power of ten, each taken as a double.
-/

namespace Marginalia.Json

/-- The first digits of a number, as long as they fit in 64 bits, and the number of digits left
out. -/
def leadingDigits (n : Nat) : Text → Nat × Nat
  | [] => (n, 0)
  | c :: rest =>
    let n' := 10 * n + (c.toNat - '0'.toNat)
    if n' < 1 <<< 64 then leadingDigits n' rest else (n, rest.length + 1)

/-- The significand of a number without sign and its exponent, from its digits before and after the
point. -/
def significand (whole fraction : Text) : Nat × Int :=
  let (n, left) := leadingDigits 0 whole
  let (n, unused) := leadingDigits n fraction
  (n, (left : Int) - (fraction.length - unused))

/-- The double next to a number, to even ones in a tie. -/
def nearestDouble (n : Nat) : Nat :=
  let shift := n.log2 - 52
  let unit := 1 <<< shift
  let (q, r) := (n / unit, n % unit)
  (if 2 * r > unit || (2 * r == unit && q % 2 == 1) then q + 1 else q) * unit

/-- The least number that no double is next to. -/
def doubleLimit : Nat := 1 <<< 1024 - 1 <<< 970

/-- The exponent that a number is spelt with. -/
def spelledExponent : Text → Int
  | '-' :: digits => -(natOfDigits digits : Int)
  | '+' :: digits => natOfDigits digits
  | digits => natOfDigits digits

/-- Whether a number is too large for a double. -/
def isBeyondDoubles (literal : Text) : Bool :=
  let isExponentMark (c : Char) := c == 'e' || c == 'E'
  let digits := (literal.dropWhile (· == '-')).takeWhile fun c => !isExponentMark c
  let (n, e) := significand (digits.takeWhile (· != '.')) ((digits.dropWhile (· != '.')).drop 1)
  let e := e + spelledExponent ((literal.dropWhile fun c => !isExponentMark c).drop 1)
  n != 0 && (e > 308 || (e ≥ 0 && nearestDouble n * nearestDouble (Nat.pow 10 e.toNat) ≥ doubleLimit))

end Marginalia.Json
