import Marginalia.Proofs.Cuts
import Marginalia.Proofs.LocatedPieces
import Marginalia.Proofs.Weight
import Marginalia.Text.Edit
import Mathlib.Data.List.Sort

/-!
# Replaced ranges

Pieces of a text that stand behind one another are exchanged, and what lies between them is kept. The
edits that do this never overlap, and every range that they need can be cut out.
-/

namespace Marginalia.Text

/-- A piece of text at an offset, and what takes its place. -/
structure Swap where
  start : Nat
  old : Text
  new : Text

/-- The range of a piece with what takes its place. -/
def Swap.edit (swap : Swap) : Edit := ⟨swap.start, swap.start + byteLength swap.old, swap.new⟩

/-- A text that starts at an offset, the pieces of it that are exchanged, from the left to the right,
and what comes of it. What stands in front of a piece, behind it or between two of them is kept. -/
inductive Replaced : Nat → List Swap → Text → Text → Prop
  | nil (start : Nat) (t : Text) : Replaced start [] t t
  | cons {start : Nat} {swaps : List Swap} {t out : Text} (gap old new : Text)
    (h : Replaced (start + byteLength gap + byteLength old) swaps t out) :
    Replaced start (⟨start + byteLength gap, old, new⟩ :: swaps) (gap ++ (old ++ t))
      (gap ++ (new ++ out))

namespace Replaced

open Repair

variable {start : Nat} {swaps swaps' : List Swap} {t t' out out' : Text}

/-- What stands in front is kept. -/
lemma behind (front : Text) (h : Replaced (start + byteLength front) swaps t out) :
    Replaced start swaps (front ++ t) (front ++ out) := by
  generalize hfrom : start + byteLength front = start' at h
  cases h with
  | nil => exact .nil start (front ++ t)
  | @cons _ swaps t out gap old new h =>
    subst hfrom
    have hmore : Replaced (start + byteLength (front ++ gap) + byteLength old) swaps t out := by
      rwa [byteLength_append, ← Nat.add_assoc]
    have hcons := Replaced.cons (front ++ gap) old new hmore
    rwa [List.append_assoc, List.append_assoc, byteLength_append, ← Nat.add_assoc] at hcons

lemma append (h : Replaced start swaps t out)
    (h' : Replaced (start + byteLength t) swaps' t' out') :
    Replaced start (swaps ++ swaps') (t ++ t') (out ++ out') := by
  induction h with
  | nil start t => exact h'.behind t
  | cons gap old new _ ih =>
    rw [List.append_assoc, List.append_assoc, List.append_assoc, List.append_assoc]
    refine .cons gap old new (ih ?_)
    rwa [byteLength_append, byteLength_append, ← Nat.add_assoc, ← Nat.add_assoc] at h'

/-- A single piece that is exchanged. -/
lemma one (start : Nat) (front old new back : Text) :
    Replaced start [⟨start + byteLength front, old, new⟩] (front ++ (old ++ back))
      (front ++ (new ++ back)) :=
  .cons front old new (.nil _ back)

/-- Pieces in which something is exchanged, joined by a separator. -/
lemma join (sep : Char) {f : Text → Text} (swapsOf : Nat × Text → List Swap)
    (h : ∀ start piece, Replaced start (swapsOf (start, piece)) piece (f piece))
    (start : Nat) (pieces : List Text) :
    Replaced start ((withStarts sep start pieces).flatMap swapsOf) (Text.join [sep] pieces)
      (Text.join [sep] (pieces.map f)) := by
  induction pieces generalizing start with
  | nil => exact .nil start []
  | cons piece pieces ih =>
    cases pieces with
    | nil =>
      rw [withStarts, withStarts, List.flatMap_singleton]
      exact h start piece
    | cons next pieces =>
      have hrest := ih (start + byteLength piece + sep.utf8Size)
      rw [withStarts, List.flatMap_cons, List.map_cons, List.map_cons,
        Text.join_cons_cons, Text.join_cons_cons, List.append_assoc, List.append_assoc]
      exact (h start piece).append (hrest.behind [sep])

/-- Pieces that are exchanged for heavier ones make a text heavier. -/
lemma add_length_le (h : Replaced start swaps t out)
    (hgain : ∀ swap ∈ swaps, weight swap.old < weight swap.new) :
    weight t + swaps.length ≤ weight out := by
  induction h with
  | nil => exact Int.le_of_eq (Int.add_zero _)
  | cons gap old new _ ih =>
    rw [List.forall_mem_cons] at hgain
    have hle := ih hgain.2
    have hlt : weight old < weight new := hgain.1
    simp only [weight_append, List.length_cons]
    omega

/-- A text is left as it is exactly if nothing in it is exchanged. -/
lemma eq_iff (h : Replaced start swaps t out)
    (hgain : ∀ swap ∈ swaps, weight swap.old < weight swap.new) : out = t ↔ swaps = [] := by
  constructor
  · rintro rfl
    have hle := h.add_length_le hgain
    exact List.length_eq_zero_iff.mp (by omega)
  · rintro rfl
    cases h
    rfl

/-! ## Ranges -/

lemma start_le (h : Replaced start swaps t out) : ∀ swap ∈ swaps, start ≤ swap.start := by
  induction h with
  | nil => exact fun swap hswap => absurd hswap List.not_mem_nil
  | cons gap old new _ ih =>
    refine List.forall_mem_cons.mpr ⟨Nat.le_add_right _ _, fun swap hswap => ?_⟩
    have hle := ih swap hswap
    omega

/-- A piece starts where the one before it has ended, or later. -/
lemma pairwise (h : Replaced start swaps t out) :
    swaps.Pairwise fun a b => a.start + byteLength a.old ≤ b.start := by
  induction h with
  | nil => exact .nil
  | cons gap old new hrest ih => exact .cons hrest.start_le ih

/-- The pieces stand where they are said to stand. -/
lemma slice?_old (head : Text) (h : Replaced (byteLength head) swaps t out) :
    ∀ swap ∈ swaps,
      slice? (head ++ t) swap.start (swap.start + byteLength swap.old) = some swap.old := by
  generalize hstart : byteLength head = start at h
  induction h generalizing head with
  | nil => exact fun swap hswap => absurd hswap List.not_mem_nil
  | @cons start swaps t out gap old new hrest ih =>
    have hnext := ih (head ++ (gap ++ old)) (by simp [hstart, Nat.add_assoc])
    rw [List.append_assoc, List.append_assoc] at hnext
    refine List.forall_mem_cons.mpr ⟨?_, hnext⟩
    exact slice?_eq_some_iff.mpr ⟨head ++ gap, t, by simp, by simp [hstart], rfl⟩

/-- The edits can be made one after the other. -/
lemma replaceRanges? (head : Text) (h : Replaced (byteLength head) swaps t out) :
    Text.replaceRanges? (head ++ t) (byteLength head) (swaps.map Swap.edit) = some out := by
  generalize hstart : byteLength head = start at h
  induction h generalizing head with
  | nil start t =>
    rw [List.map_nil, Text.replaceRanges?, ← hstart]
    exact slice?_tail head t
  | @cons start swaps t out gap old new hrest ih =>
    have hnext := ih (head ++ (gap ++ old)) (by simp [hstart, Nat.add_assoc])
    rw [List.append_assoc, List.append_assoc] at hnext
    have hgap : slice? (head ++ (gap ++ (old ++ t))) start (start + byteLength gap) = some gap := by
      rw [← hstart]
      exact slice?_append head gap (old ++ t)
    rw [List.map_cons, Swap.edit, Text.replaceRanges?, hgap, hnext]
    rfl

lemma dropOverlaps_edits (h : Replaced start swaps t out) :
    dropOverlaps start (swaps.map Swap.edit) = swaps.map Swap.edit := by
  induction h with
  | nil => rfl
  | cons gap old new _ ih =>
    rw [List.map_cons, Swap.edit, dropOverlaps, if_neg (Nat.not_lt.mpr (Nat.le_add_right _ _)), ih]

/-- What is exchanged determines what comes of a text. -/
lemma unique (h : Replaced 0 swaps t out) (h' : Replaced 0 swaps t out') : out = out' :=
  Option.some.inj ((h.replaceRanges? []).symm.trans (h'.replaceRanges? []))

/-- The edits are in order, and none of them is dropped. -/
lemma applyEdits? (h : Replaced 0 swaps t out) :
    Text.applyEdits? t (swaps.map Swap.edit) = some out := by
  have hsorted : (swaps.map Swap.edit).Pairwise fun a b => decide (a.start ≤ b.start) = true := by
    refine List.pairwise_map.mpr (h.pairwise.imp fun {a b} hab => ?_)
    exact decide_eq_true (Nat.le_trans (Nat.le_add_right _ _) hab)
  rw [Text.applyEdits?, List.mergeSort_of_pairwise hsorted, h.dropOverlaps_edits]
  exact h.replaceRanges? []

end Replaced

end Marginalia.Text
