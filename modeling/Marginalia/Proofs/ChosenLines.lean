import Mathlib.Data.Finset.Filter
import Mathlib.Data.Finset.Range
import Marginalia.Proofs.Spacing

/-!
# Which lines get comments

Comments are placed greedily: a line gets one if there is something to say about it, if it is
neither blank nor a comment, and if the line above it got none. There is exactly one set of lines
chosen like this, and the output is the source with comments above the lines of this set.
-/

namespace Marginalia.Commentary

/-- Whether a line may have a comment: it is not blank, and no mark of comments begins it. -/
def IsEligible (l : Language) (line : Text) : Prop :=
  line.isAllBlank = false ∧
    ∀ head ∈ l.profile.commentHeads, (Text.trim line).startsWith head = false

/-- Lines are chosen greedily if a line with a comment is among them exactly when it is eligible and
the line above it is not among them. -/
def IsGreedy (l : Language) (comment : Nat → Option Text) (lines : List Text)
    (chosen : Set Nat) : Prop :=
  ∀ i, i ∈ chosen ↔ (comment i).isSome = true ∧
    (∃ line, lines[i]? = some line ∧ IsEligible l line) ∧ ∀ j, j + 1 = i → j ∉ chosen

/-- The lines of a source with comments directly above the chosen ones. -/
def withComments (l : Language) (comment : Nat → Option Text) (lines : List Text)
    (chosen : Finset Nat) : List Text :=
  lines.zipIdx.flatMap fun (line, i) =>
    if i ∈ chosen then
      (comment i).toList.map (fun text => line.indentation ++ l.commentMarker ++ " " ++ text) ++
        [line]
    else [line]

variable {l : Language} {comment : Nat → Option Text} {lines : List Text}

lemma takesComment_iff (l : Language) (line : Text) :
    takesComment l line = true ↔ IsEligible l line := by
  simp [takesComment, IsEligible, Language.isComment]

lemma IsGreedy.unique {chosen chosen' : Set Nat} (h : IsGreedy l comment lines chosen)
    (h' : IsGreedy l comment lines chosen') : chosen = chosen' := by
  ext i
  induction i using Nat.strong_induction_on with
  | _ i ih =>
    rw [h i, h' i]
    apply and_congr_right
    intro _
    apply and_congr_right
    intro _
    apply forall₂_congr
    intro j hj
    exact not_congr (ih j (by omega))

/-- What is said about lines that are not eligible or are right below a chosen one does not matter. -/
lemma IsGreedy.congr {chosen : Set Nat} (h : IsGreedy l comment lines chosen)
    {comment' : Nat → Option Text}
    (hsame : ∀ i line, lines[i]? = some line → IsEligible l line → (∀ j, j + 1 = i → j ∉ chosen) →
      comment' i = comment i) : IsGreedy l comment' lines chosen := by
  intro i
  rw [h i]
  apply and_congr_left
  rintro ⟨⟨line, hline, heligible⟩, habove⟩
  rw [hsame i line hline heligible habove]

/-- The numbers of the lines that got a comment. -/
def commentedLines (placed : List Placed) : Finset Nat :=
  (Finset.range placed.length).filter (Commented placed)

@[simp] lemma mem_commentedLines {placed : List Placed} {n : Nat} :
    n ∈ commentedLines placed ↔ Commented placed n := by
  rw [commentedLines, Finset.mem_filter, Finset.mem_range, and_iff_right_iff_imp]
  intro h
  by_contra hlong
  rw [Commented, List.getElem?_eq_none (by omega)] at h
  cases h

lemma isGreedy_commentedLines (l : Language) (comment : Nat → Option Text) (lines : List Text) :
    IsGreedy l comment lines ↑(commentedLines (place l comment lines)) := by
  intro i
  simp only [Finset.mem_coe, mem_commentedLines]
  rw [commented_place, Deserves, and_comm (b := (comment i).isSome = true), and_assoc]
  simp only [takesComment_iff, Option.mem_def]

lemma IsGreedy.eq_commentedLines {chosen : Finset Nat}
    (h : IsGreedy l comment lines ↑chosen) : chosen = commentedLines (place l comment lines) := by
  apply Finset.coe_injective
  exact h.unique (isGreedy_commentedLines l comment lines)

lemma getElem?_place (l : Language) (comment : Nat → Option Text) (lines : List Text) (n : Nat) :
    (place l comment lines)[n]? = lines[n]?.map fun line =>
      ⟨if n ∈ commentedLines (place l comment lines) then comment n else none, line⟩ := by
  have hlines := congrArg (·[n]?) (place_lines l comment lines)
  simp only [List.getElem?_map] at hlines
  rw [← hlines, Option.map_map]
  cases hp : (place l comment lines)[n]? with
  | none => rfl
  | some p =>
    obtain ⟨above, line⟩ := p
    have hcommented : n ∈ commentedLines (place l comment lines) ↔ above.isSome = true := by
      rw [mem_commentedLines, Commented, hp, Option.bind_some]
    cases above with
    | none => simp [hcommented]
    | some text => simp [hcommented, (chosen_of_place hp rfl).2]

/-- What is placed is read off the set of the lines with a comment. -/
lemma place_eq_map (l : Language) (comment : Nat → Option Text) (lines : List Text) :
    place l comment lines = lines.zipIdx.map fun (line, i) =>
      ⟨if i ∈ commentedLines (place l comment lines) then comment i else none, line⟩ := by
  apply List.ext_getElem?
  intro n
  rw [getElem?_place, List.getElem?_map, List.getElem?_zipIdx, Option.map_map, Nat.zero_add]
  rfl

lemma written_place (l : Language) (comment : Nat → Option Text) (lines : List Text) :
    written l (place l comment lines) = Text.unlines
      (withComments l comment lines (commentedLines (place l comment lines))) := by
  conv_lhs => rw [place_eq_map]
  rw [written, List.flatMap_map, withComments]
  congr 2
  funext numbered
  obtain ⟨line, i⟩ := numbered
  dsimp only [Placed.lines]
  split_ifs with hi
  · rw [Option.toList_map]
    rfl
  · rfl

lemma IsGreedy.place_congr {chosen : Finset Nat} (h : IsGreedy l comment lines ↑chosen)
    {comment' : Nat → Option Text} (h' : IsGreedy l comment' lines ↑chosen)
    (hsame : ∀ i ∈ chosen, comment' i = comment i) :
    place l comment' lines = place l comment lines := by
  rw [place_eq_map l comment' lines, place_eq_map l comment lines, ← h.eq_commentedLines,
    ← h'.eq_commentedLines]
  congr 1
  funext numbered
  obtain ⟨line, i⟩ := numbered
  dsimp only
  split_ifs with hi
  · rw [hsame i hi]
  · rfl

/-- Placing comments is choosing lines greedily. -/
theorem written_greedily (l : Language) (comment : Nat → Option Text) (lines : List Text) :
    ∃ chosen : Finset Nat,
      (∀ others : Set Nat, IsGreedy l comment lines others ↔ others = chosen) ∧
        written l (place l comment lines) =
          Text.unlines (withComments l comment lines chosen) ∧
        ∀ comment' : Nat → Option Text,
          (∀ i line, lines[i]? = some line → IsEligible l line → (∀ j, j + 1 = i → j ∉ chosen) →
            comment' i = comment i) →
          IsGreedy l comment' lines chosen ∧
            written l (place l comment' lines) = written l (place l comment lines) := by
  have hgreedy := isGreedy_commentedLines l comment lines
  refine ⟨commentedLines (place l comment lines), ?_, written_place l comment lines, ?_⟩
  · intro others
    constructor
    · intro h
      exact h.unique hgreedy
    · rintro rfl
      exact hgreedy
  · intro comment' hsame
    have hgreedy' := hgreedy.congr hsame
    refine ⟨hgreedy', ?_⟩
    rw [hgreedy.place_congr hgreedy']
    intro i hi
    obtain ⟨-, ⟨line, hline, heligible⟩, habove⟩ := (hgreedy i).mp hi
    exact hsame i line hline heligible habove

example : written .python (place .python (fun _ => some "note") ["a = 1", "b = 2", "c = 3"]) =
    "# note\na = 1\nb = 2\n# note\nc = 3" := by decide

end Marginalia.Commentary
