import Marginalia.Json.Number
import Marginalia.Json.Reader

/-!
# Decoding records

A record is written as an object with its fields in any order, or as an array of its fields in their
order. Fields may be left out, and members that name no field are passed over. Values are looked at
in the order of the text, so that the first fault in the text is the one that is reported. Where
something else than a number is expected, a number still has to be one that a double can hold.
-/

namespace Marginalia.Json

/-- Why a value does not decode. -/
inductive DecodeError where
  /-- It is not JSON, or an array with more items than fields. -/
  | malformed
  /-- It is JSON of another shape. -/
  | mismatch
deriving Repr, DecidableEq

/-- The error for a value that is not what was expected. -/
def unexpected {α : Type} : Json → Except DecodeError α
  | broken | halved => .error .malformed
  | number literal => .error (if isBeyondDoubles literal then .malformed else .mismatch)
  | _ => .error .mismatch

def asText : Json → Except DecodeError Text
  | string t => .ok t
  | j => unexpected j

/-- A truth value, or null for none. -/
def asFlag? : Json → Except DecodeError (Option Bool)
  | null => .ok none
  | bool b => .ok (some b)
  | j => unexpected j

/-- A text, or null for none. -/
def asText? : Json → Except DecodeError (Option Text)
  | null => .ok none
  | string t => .ok (some t)
  | j => unexpected j

/-- A number of 64 bits. -/
def asWord (j : Json) : Except DecodeError UInt64 :=
  match j.word64? with
  | some n => .ok (.ofNat n)
  | none => unexpected j

/-- An array of texts. -/
def asTexts : Json → Except DecodeError (List Text)
  | array items => items.mapM asText
  | j => unexpected j

/-- How a record with some fields is decoded: the names of the fields in order, and how a value is
put into a field. -/
structure Fields (α : Type) where
  names : List Text
  put : α → Text → Json → Except DecodeError α

/-- Puts the members of an object into fields. No field may be put twice. -/
def decodeMembers {α : Type} (fields : Fields α) (seen : List Text) (a : α) :
    List (Text × Json) → Except DecodeError α
  | [] => .ok a
  | (_, misnamed _) :: _ => .error .malformed
  | (key, value) :: members =>
    if fields.names.contains key then
      if seen.contains key then .error .mismatch
      else
        match fields.put a key value with
        | .ok a => decodeMembers fields (key :: seen) a members
        | .error e => .error e
    else if value.isWhole then decodeMembers fields seen a members
    else .error .malformed

/-- Puts the items of an array into the fields of the given names. -/
def decodeItems {α : Type} (fields : Fields α) (a : α) :
    List Text → List Json → Except DecodeError α
  | _, [] => .ok a
  | [], _ :: _ => .error .malformed
  | name :: names, item :: items =>
    match fields.put a name item with
    | .ok a => decodeItems fields a names items
    | .error e => .error e

/-- Decodes a record. Fields that are left out stay as they are given. -/
def decode {α : Type} (fields : Fields α) (initial : α) : Json → Except DecodeError α
  | object members => decodeMembers fields [] initial members
  | array items => decodeItems fields initial fields.names items
  | j => unexpected j

mutual

/-- A value in which members of the same name count once, with the value of the last. -/
def merged : Json → Json
  | array items => array (mergedItems items)
  | object members => object (mergedMembers members)
  | j => j

def mergedItems : List Json → List Json
  | [] => []
  | item :: items => merged item :: mergedItems items

def mergedMembers : List (Text × Json) → List (Text × Json)
  | [] => []
  | (key, value) :: members =>
    let rest := mergedMembers members
    if rest.any fun (other, _) => other = key then rest else (key, merged value) :: rest

end

end Marginalia.Json
