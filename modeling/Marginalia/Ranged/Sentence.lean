import Marginalia.Sentence.Condition
import Marginalia.Text.Slice

/-!
# Comparisons by ranges

A comparison in a condition is found at a byte offset. What stands to its left and to its right are
the ranges in front of it and behind it.
-/

namespace Marginalia.Ranged

open Text Sentence

/-- A comparison at a byte offset, with the length of its sign. -/
structure ComparisonAt where
  comparison : Comparison
  start : Nat
  length : Nat
deriving Repr, DecidableEq

/-- The comparisons of a text that starts at an offset. -/
def comparisonsFrom (start : Nat) : Text → List ComparisonAt
  | [] => []
  | '=' :: '=' :: '=' :: rest => ⟨.equal, start, 3⟩ :: comparisonsFrom (start + 3) rest
  | '!' :: '=' :: '=' :: rest => ⟨.unequal, start, 3⟩ :: comparisonsFrom (start + 3) rest
  | '=' :: '=' :: rest => ⟨.equal, start, 2⟩ :: comparisonsFrom (start + 2) rest
  | '!' :: '=' :: rest => ⟨.unequal, start, 2⟩ :: comparisonsFrom (start + 2) rest
  | '>' :: '=' :: rest => ⟨.atLeast, start, 2⟩ :: comparisonsFrom (start + 2) rest
  | '<' :: '=' :: rest => ⟨.atMost, start, 2⟩ :: comparisonsFrom (start + 2) rest
  | '>' :: rest => ⟨.greater, start, 1⟩ :: comparisonsFrom (start + 1) rest
  | '<' :: rest => ⟨.less, start, 1⟩ :: comparisonsFrom (start + 1) rest
  | c :: rest => comparisonsFrom (start + c.utf8Size) rest

/-- The sides of a comparison that is made once. -/
def sides? (c : Condition) (comparison : Comparison) : Option (Option (Text × Text)) :=
  match (comparisonsFrom 0 c.plain).filter (·.comparison == comparison) with
  | [found] => do
    let left ← slice? c.plain 0 found.start
    let right ← slice? c.plain (found.start + found.length) (byteLength c.plain)
    let isMark (ch : Char) : Bool := ch == '"' || ch == '\''
    return some (quoted left.trim, quoted (dropEnd isMark (right.trim.dropWhile isMark)))
  | _ => some none

end Marginalia.Ranged
