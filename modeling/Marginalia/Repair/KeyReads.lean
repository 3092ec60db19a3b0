import Marginalia.Naming.Known
import Marginalia.Text.Substitution

/-!
# Reads of keys

A variable whose name tells that it holds a mapping is not read by a key that may be missing, but
asked for the value of the key. Places that are assigned to are left alone.
-/

namespace Marginalia.Repair

open Text

/-- The literal without escapes that a text starts with, and what follows it. -/
def plainLiteral? : Text → Option (Text × Text)
  | [] => none
  | q :: rest =>
    if q == '"' || q == '\'' then
      match rest.span fun c => c != q && c != '\\' with
      | (inside, c :: after) => if c == q then some (q :: (inside ++ [q]), after) else none
      | (_, []) => none
    else none

/-- For a text that starts with a name that is read by a literal key: the name, the key, and what
follows the bracket. -/
def keyRead? (t : Text) : Option (Text × Text × Text) := do
  let (name, rest) ← name? t
  let key ← after? "[" rest
  let (key, rest) ← plainLiteral? key.trimStart
  let after ← afterBlanksAnd? "]" rest
  return (name, key, after)

/-- The signs that may stand between a place and the equality sign that assigns to it. -/
def storeSigns : List Text :=
  ["", "+", "-", "*", "/", "//", "%", "**", "&", "|", "^", "<<", ">>", "@"]

/-- Whether what follows a place makes it the target of an assignment. -/
def isStoreTarget (after : Text) : Bool :=
  match splitAtChar? '=' after.trimStart with
  | some (sign, value) => !Text.startsWith (value.drop 1) "=" && storeSigns.contains sign
  | none => false

/-- Asks for the value of a key; anything else that looks like a read of one is passed over. -/
def keyRule : Rule := fun b t => do
  guard b.fresh
  let (name, key, after) ← keyRead? t
  let length := t.length - after.length
  if Naming.isMappingName name && !b.quoted && !isStoreTarget after then
    return (length, name ++ ".get(" ++ key ++ ")")
  else return (length, t.take length)

/-- Code with its reads of keys guarded, if there are any. -/
def guardKeys? (code : Text) : Option Text :=
  if code.trimStart.startsWith "del " then none else code.substitute? keyRule

end Marginalia.Repair
