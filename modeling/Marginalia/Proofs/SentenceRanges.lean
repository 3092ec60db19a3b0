import Marginalia.Proofs.ByteOffsets
import Marginalia.Ranged.Sentence
import Mathlib.Data.List.Forall2

/-!
# Ranges of comparisons

The sides of a comparison are what stands in front of its sign and behind it.
-/

namespace Marginalia.Ranged

open Text Sentence

/-- A comparison that is found at an offset of a text, and its sides. -/
structure FoundAt (whole : Text) (place : ComparisonAt) (found : Comparing) : Prop where
  comparison : place.comparison = found.comparison
  left : slice? whole 0 place.start = some found.left
  right : slice? whole (place.start + place.length) (byteLength whole) = some found.right

/-- A sign behind the part of a text that has been passed, and the comparisons behind the sign. -/
lemma foundAt_cons {passed rest : Text} {comparisons : List Comparing} (sign : Text)
    (comparison : Comparison)
    (hmore : List.Forall₂ (FoundAt (passed.reverse ++ (sign ++ rest)))
      (comparisonsFrom (byteLength passed.reverse + byteLength sign) rest) comparisons) :
    List.Forall₂ (FoundAt (passed.reverse ++ (sign ++ rest)))
      (⟨comparison, byteLength passed.reverse, byteLength sign⟩ ::
        comparisonsFrom (byteLength passed.reverse + byteLength sign) rest)
      (⟨comparison, passed.reverse, rest⟩ :: comparisons) := by
  have hright := slice?_tail (passed.reverse ++ sign) rest
  rw [List.append_assoc, byteLength_append] at hright
  exact .cons ⟨rfl, slice?_head passed.reverse _, hright⟩ hmore

/-- The comparisons behind the part of a text that has been passed. -/
lemma foundAt_comparisonsFrom {start : Nat} {whole : Text} (passed t : Text)
    (hwhole : whole = passed.reverse ++ t) (hstart : start = byteLength passed.reverse) :
    List.Forall₂ (FoundAt whole) (comparisonsFrom start t) (comparingsAfter passed t) := by
  fun_induction comparisonsFrom start t generalizing passed with
  | case1 => exact .nil
  | case10 start c rest _ _ _ _ _ _ _ _ ih =>
    rw [comparingsAfter]
    · exact ih (c :: passed) (by simp [hwhole]) (by simp [hstart])
    all_goals assumption
  | case2 start rest ih =>
    subst hwhole hstart
    exact foundAt_cons "===" .equal (ih _ (by simp) (by simp; rfl))
  | case3 start rest ih =>
    subst hwhole hstart
    exact foundAt_cons "!==" .unequal (ih _ (by simp) (by simp; rfl))
  | case4 start rest _ ih =>
    subst hwhole hstart
    rw [comparingsAfter]
    · exact foundAt_cons "==" .equal (ih _ (by simp) (by simp; rfl))
    · assumption
  | case5 start rest _ ih =>
    subst hwhole hstart
    rw [comparingsAfter]
    · exact foundAt_cons "!=" .unequal (ih _ (by simp) (by simp; rfl))
    · assumption
  | case6 start rest ih =>
    subst hwhole hstart
    exact foundAt_cons ">=" .atLeast (ih _ (by simp) (by simp; rfl))
  | case7 start rest ih =>
    subst hwhole hstart
    exact foundAt_cons "<=" .atMost (ih _ (by simp) (by simp; rfl))
  | case8 start rest _ ih =>
    subst hwhole hstart
    rw [comparingsAfter]
    · exact foundAt_cons ">" .greater (ih _ (by simp) (by simp; rfl))
    · assumption
  | case9 start rest _ ih =>
    subst hwhole hstart
    rw [comparingsAfter]
    · exact foundAt_cons "<" .less (ih _ (by simp) (by simp; rfl))
    · assumption

lemma sides?_eq (raw : Text) (comparison : Comparison) :
    sides? (.ofText raw) comparison = some ((Condition.ofText raw).sides? comparison) := by
  have hsame : List.Forall₂ (FoundAt (Condition.ofText raw).plain)
      ((comparisonsFrom 0 (Condition.ofText raw).plain).filter (·.comparison == comparison))
      ((Condition.ofText raw).comparings.filter (·.comparison == comparison)) :=
    List.rel_filter (fun place found h => by simp [h.comparison])
      (foundAt_comparisonsFrom [] (Condition.ofText raw).plain rfl rfl)
  rw [sides?, Condition.sides?]
  generalize (comparisonsFrom 0 _).filter _ = places at hsame ⊢
  generalize (Condition.ofText raw).comparings.filter _ = founds at hsame ⊢
  cases hsame with
  | nil => rfl
  | cons hfound hmore =>
    cases hmore with
    | nil =>
      dsimp only
      rw [hfound.left, hfound.right]
      rfl
    | cons => rfl

end Marginalia.Ranged
