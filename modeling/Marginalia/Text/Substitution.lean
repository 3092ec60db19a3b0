import Marginalia.Text.Code
import Marginalia.Text.Words

/-!
# Substitution

A text is gone through from the left: at each place a rule may take some characters and put others
in their stead, and the search goes on behind what was taken. A rule sees what the place starts, the
character before it, and whether it is inside a string literal.
-/

namespace Marginalia

/-- What a rule knows about the text before a place. -/
structure Before where
  prev : Option Char
  code : CodeState
deriving Repr, DecidableEq

namespace Before

/-- Before the first character. -/
def start : Before := ⟨none, .start⟩

/-- One character later. -/
def step (b : Before) (c : Char) : Before := ⟨some c, (b.code.step c).1⟩

/-- Whether a word that starts here starts as a whole. -/
def fresh (b : Before) : Bool := isFresh b.prev

/-- Whether the place is inside a string literal. -/
def quoted (b : Before) : Bool := b.code.quote.isSome

end Before

/-- The number of characters that are taken at a place and what is put in their stead. -/
abbrev Rule := Before → Text → Option (Nat × Text)

namespace Rule

/-- Replaces a piece of text wherever it stands. -/
def literal (old new : Text) : Rule := fun _ t =>
  if t.startsWith old then some (old.length, new) else none

/-- Replaces a piece of text that starts with a fresh word. -/
def freshLiteral (old new : Text) : Rule := fun b t =>
  if b.fresh && t.startsWith old then some (old.length, new) else none

/-- Replaces a word. -/
def word (old new : Text) : Rule := fun b t =>
  if b.fresh && t.startsWith old && !Text.continuesWord (t.drop old.length) then
    some (old.length, new)
  else none

end Rule

namespace Text

/-- Substitutes in a text of which the first `skip` characters have been taken. -/
def substituteFrom (rule : Rule) (b : Before) : Nat → Text → Text
  | _, [] => []
  | skip + 1, c :: rest => substituteFrom rule (b.step c) skip rest
  | 0, c :: rest =>
    match rule b (c :: rest) with
    | some (length, new) => new ++ substituteFrom rule (b.step c) (length - 1) rest
    | none => c :: substituteFrom rule (b.step c) 0 rest

/-- Substitutes in a text wherever the rule applies. -/
def substitute (rule : Rule) (t : Text) : Text := substituteFrom rule .start 0 t

/-- A text that took the place of another one, unless they are the same. -/
def changed? (old new : Text) : Option Text := if new = old then none else some new

/-- Substitutes in a text if that changes it. -/
def substitute? (rule : Rule) (t : Text) : Option Text := changed? t (substitute rule t)

end Text
end Marginalia
