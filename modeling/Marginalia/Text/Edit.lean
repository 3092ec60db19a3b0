import Marginalia.Text.Slice

/-!
# Edits

An edit puts a text in the stead of a byte range. Edits are made from the left to the right: what
stands between two of them is cut out and kept.
-/

namespace Marginalia.Text

/-- A byte range and the text that takes its place. -/
structure Edit where
  start : Nat
  stop : Nat
  new : Text
deriving Repr, DecidableEq

/-- A text from an offset on, with edits made one after the other. Nothing when what is to be kept
cannot be cut out. -/
def replaceRanges? (t : Text) (start : Nat) : List Edit → Option Text
  | [] => slice? t start (byteLength t)
  | edit :: edits => do
    let kept ← slice? t start edit.start
    let rest ← replaceRanges? t edit.stop edits
    return kept ++ (edit.new ++ rest)

/-- Edits without those that start before the end of an earlier one. -/
def dropOverlaps (start : Nat) : List Edit → List Edit
  | [] => []
  | edit :: edits =>
    if edit.start < start then dropOverlaps start edits
    else edit :: dropOverlaps edit.stop edits

/-- A text with edits made in the order in which they start. -/
def applyEdits? (t : Text) (edits : List Edit) : Option Text :=
  replaceRanges? t 0 (dropOverlaps 0 (edits.mergeSort fun a b => a.start ≤ b.start))

end Marginalia.Text
