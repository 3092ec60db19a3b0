import Marginalia.Text.Letters

/-!
# JSON values

A value keeps the spelling of its numbers and all members of its objects in order, so that nothing
a reader could object to is lost. Three values are made by reading alone. `broken` stands where a
text ceases to be JSON; it is always the last thing that was read. A string that spells half of a
character stands for no text; it is `halved`, and a member with such a name is `misnamed`.
-/

namespace Marginalia

/-- A JSON value, as far as it could be read. -/
inductive Json where
  | null
  | bool (value : Bool)
  | number (literal : Text)
  | string (text : Text)
  | array (items : List Json)
  | object (members : List (Text × Json))
  | halved
  | misnamed (value : Json)
  | broken

namespace Json

mutual

/-- Whether a property holds of a value and of all values in it. -/
def everywhere (p : Json → Bool) : Json → Bool
  | array items => p (array items) && everywhereIn p items
  | object members => p (object members) && everywhereUnder p members
  | misnamed value => p (misnamed value) && everywhere p value
  | j => p j

def everywhereIn (p : Json → Bool) : List Json → Bool
  | [] => true
  | item :: items => everywhere p item && everywhereIn p items

def everywhereUnder (p : Json → Bool) : List (Text × Json) → Bool
  | [] => true
  | (_, value) :: members => everywhere p value && everywhereUnder p members

end

/-- Whether a value was read to its end. -/
def isWhole : Json → Bool := everywhere fun
  | broken => false
  | _ => true

/-- Whether all strings of a value stand for texts. -/
def isSpelt : Json → Bool := everywhere fun
  | halved | misnamed _ => false
  | _ => true

mutual

/-- How deep containers are nested in a value. -/
def depth : Json → Nat
  | array items => 1 + depthIn items
  | object members => 1 + depthUnder members
  | misnamed value => depth value
  | _ => 0

def depthIn : List Json → Nat
  | [] => 0
  | item :: items => max (depth item) (depthIn items)

def depthUnder : List (Text × Json) → Nat
  | [] => 0
  | (_, value) :: members => max (depth value) (depthUnder members)

end

/-- The value of the last member with a name. -/
def lastMember? (name : Text) : List (Text × Json) → Option Json
  | [] => none
  | (key, value) :: rest =>
    match lastMember? name rest with
    | some later => some later
    | none => if key = name then some value else none

/-- The value of an object's member. -/
def member? (j : Json) (name : Text) : Option Json :=
  match j with
  | object members => lastMember? name members
  | _ => none

def text? : Json → Option Text
  | string t => some t
  | _ => none

def bool? : Json → Option Bool
  | bool b => some b
  | _ => none

/-- The number that a run of digits spells. -/
def natOfDigits (digits : Text) : Nat :=
  digits.foldl (fun n c => 10 * n + (c.toNat - '0'.toNat)) 0

/-- A number written without sign, fraction and exponent that fits in 64 bits. -/
def word64? : Json → Option Nat
  | number literal =>
    if literal.all isAsciiDigit && !literal.isEmpty && natOfDigits literal < 1 <<< 64 then
      some (natOfDigits literal)
    else none
  | _ => none

def items? : Json → Option (List Json)
  | array items => some items
  | _ => none

def members? : Json → Option (List (Text × Json))
  | object members => some members
  | _ => none

/-- A number. -/
def ofNat (n : Nat) : Json := number (Text.ofNat n)

/-- A text, or null. -/
def ofText? : Option Text → Json
  | some t => string t
  | none => null

def ofTexts (ts : List Text) : Json := array (ts.map string)

end Json
end Marginalia
