import Marginalia.Proofs.HonestReport
import Marginalia.Proofs.LeftSigns

/-!
# Mending logic again

The logic of a text is mended for good, but for assignments in conditions. They are mended before
the tests for `None` are exchanged, and an exchange may leave a lone equality sign in a condition.
Then the next run doubles that; otherwise it has nothing but advice.
-/

namespace Marginalia.Repair

open Text

/-! ## Lines -/

/-- The code of a line with the assignments in its condition made comparisons. -/
def comparedCode (line : Text) : Text :=
  (compareInCondition? (codeOfLine line)).getD (codeOfLine line)

/-- A line, read from a state, with its logic mended if it is a statement. `above` are the lines
above, nearest first, as they were left. -/
def logicLine (above : List Text) (s : LayoutState) (line : Text) : Text :=
  if (s.step line).2.role = .statement then revisedLine (logicDraft above) line else line

/-- Lines, read from a state, with their logic mended. -/
def logicLines (above : List Text) (s : LayoutState) : List Text → List Text
  | [] => []
  | line :: rest => logicLine above s line ::
      logicLines (logicLine above s line :: above) (s.step line).1 rest

lemma visit_logicStep (above : List Text) (s : LayoutState) (n : Nat) (lines : List Text) :
    (visit logicStep above (Site.numbered n ((s.layout lines).zip lines))).map (·.line) =
      logicLines above s lines := by
  induction lines generalizing above s n with
  | nil => rfl
  | cons line rest ih =>
    have hline : (logicStep above ⟨n, (s.step line).2, line,
        ((s.step line).1.layout rest).zip rest⟩).2.line = logicLine above s line := by
      unfold logicStep logicLine
      simp only [Site.isStatement, beq_iff_eq]
      split <;> rfl
    rw [LayoutState.layout, List.zip_cons_cons, Site.numbered, visit, List.map_cons, hline,
      logicLines]
    congr 1
    rw [← hline]
    exact ih _ _ _

lemma step_logicLine (above : List Text) (s : LayoutState) (line : Text) :
    s.step (logicLine above s line) = s.step line := by
  rw [logicLine]
  split
  · next hrole =>
    obtain rfl := LayoutState.eq_start_of_statement hrole
    exact (sameLayout_logicDraft above (codeOfLine line)).step
  · rfl

/-- A statement whose logic is mended is mended further exactly if the exchanges left a sign. -/
lemma logicLine_twice_iff (above : List Text) (s : LayoutState) (line : Text) :
    logicLine above s (logicLine above s line) = logicLine above s line ↔
      ((s.step line).2.role = .statement → ¬LeavesSign (comparedCode line)) := by
  by_cases hrole : (s.step line).2.role = .statement
  · have hrecodes := (sameLayout_logicDraft above (codeOfLine line)).recodes
    have hline : logicLine above s line = revisedLine (logicDraft above) line := if_pos hrole
    have hagain : logicLine above s (logicLine above s line) =
        revisedLine (logicDraft above) (logicLine above s line) := by
      refine if_pos ?_
      rw [step_logicLine]
      exact hrole
    rw [hagain, hline, hrecodes.revisedLine_twice_iff, logicDraft_twice_iff,
      compareInCondition?_eq_none_iff, ← not_exists, exists_compared_logicDraft_iff]
    exact ⟨fun h _ => h, fun h => h hrole⟩
  · have hline : ∀ line', s.step line' = s.step line → logicLine above s line' = line' :=
      fun line' hstep => if_neg (by rw [hstep]; exact hrole)
    rw [hline _ (step_logicLine above s line)]
    exact ⟨fun _ h => absurd h hrole, fun _ => rfl⟩

/-- A line of a text, counted from zero, that starts a statement. -/
def StatementAt (s : LayoutState) (lines : List Text) (k : Nat) (line : Text) : Prop :=
  lines[k]? = some line ∧ (s.layout lines)[k]?.map (·.role) = some .statement

lemma statementAt_zero {s : LayoutState} {line line' : Text} {rest : List Text} :
    StatementAt s (line :: rest) 0 line' ↔ line = line' ∧ (s.step line).2.role = .statement := by
  simp [StatementAt, LayoutState.layout]

lemma statementAt_succ {s : LayoutState} {line line' : Text} {rest : List Text} {k : Nat} :
    StatementAt s (line :: rest) (k + 1) line' ↔ StatementAt (s.step line).1 rest k line' := by
  simp [StatementAt, LayoutState.layout]

lemma logicLines_twice_iff (above : List Text) (s : LayoutState) (lines : List Text) :
    logicLines above s (logicLines above s lines) = logicLines above s lines ↔
      ∀ k line, StatementAt s lines k line → ¬LeavesSign (comparedCode line) := by
  induction lines generalizing above s with
  | nil => exact ⟨fun _ k line h => absurd h.1 (by simp), fun _ => rfl⟩
  | cons line rest ih =>
    have hsplit : logicLines above s (logicLines above s (line :: rest)) =
        logicLines above s (line :: rest) ↔
        logicLine above s (logicLine above s line) = logicLine above s line ∧
          logicLines (logicLine above s line :: above) (s.step line).1
            (logicLines (logicLine above s line :: above) (s.step line).1 rest) =
          logicLines (logicLine above s line :: above) (s.step line).1 rest := by
      rw [logicLines, logicLines, step_logicLine, List.cons.injEq]
      refine and_congr_right fun hline => ?_
      rw [hline]
    rw [hsplit, logicLine_twice_iff, ih]
    constructor
    · rintro ⟨hfirst, hrest⟩ k line' hline
      cases k with
      | zero =>
        obtain ⟨rfl, hrole⟩ := statementAt_zero.mp hline
        exact hfirst hrole
      | succ k => exact hrest k line' (statementAt_succ.mp hline)
    · intro h
      exact ⟨fun hrole => h 0 line (statementAt_zero.mpr ⟨rfl, hrole⟩),
        fun k line' hline => h (k + 1) line' (statementAt_succ.mpr hline)⟩

/-! ## Texts -/

lemma visit_logicStep_revisedTo (text : Text) : List.Forall₂ Site.RevisedTo
    (Site.ofLines text.lines) (visit logicStep [] (Site.ofLines text.lines)) :=
  visit_forall₂ (fun above s hs =>
    (logicStep_mendedTo above (s := s) (Site.oneLine_of_mem hs)).toRevisedTo) []

lemma lines_logic (text : Text) : (logic text).text.lines = logicLines [] .start text.lines :=
  (lines_outcome (visit_logicStep_revisedTo text)).trans (visit_logicStep [] .start 1 text.lines)

/-- Where the text stays what it was, there is nothing but advice. -/
lemma LineByLine.advice {text : Text} {o : Outcome} (h : LineByLine Site.RevisedTo text o)
    (hsame : o.text = text) : ∀ c ∈ o.changes, c.isAdvice = true := by
  obtain ⟨revised, hrevised, rfl⟩ := h
  have hlines := lines_outcome hrevised
  rw [hsame, ← Site.ofLines_lines text.lines] at hlines
  intro c hc
  simp only [Revised.outcome, List.mem_flatMap, List.mem_map] at hc
  obtain ⟨r, hr, finding, hfinding, rfl⟩ := hc
  cases finding with
  | advised advice => rfl
  | fixed fix =>
    obtain ⟨k, hk⟩ := List.getElem?_of_mem hr
    rcases getElem?_of_forall₂ hrevised k with ⟨-, hnone⟩ | ⟨s, r', hs, hr', htold⟩
    · rw [hk] at hnone
      cases hnone
    · obtain rfl : r = r' := Option.some.inj (hk.symm.trans hr')
      have hline := congrArg (·[k]?) hlines
      simp only [List.getElem?_map, hs, hk, Option.map_some, Option.some.injEq] at hline
      exact absurd hline.symm (htold.told.mpr ⟨fix, hfinding⟩)

/-- A second run leaves a text alone exactly if no statement of the first one hid a condition, or a
lone equality sign in it, behind comparisons with `None`. Then it has nothing but advice. -/
theorem logic_twice_iff (text : Text) :
    ((logic (logic text).text).text = (logic text).text ↔
      ∀ k line, StatementAt .start text.lines k line → ¬LeavesSign (comparedCode line)) ∧
    ((logic (logic text).text).text = (logic text).text →
      ∀ c ∈ (logic (logic text).text).changes, c.isAdvice = true) := by
  constructor
  · have htext : (logic (logic text).text).text = (logic text).text ↔
        (logic (logic text).text).text.lines = (logic text).text.lines := by
      refine ⟨congrArg lines, fun h => ?_⟩
      rw [← unlines_lines (logic (logic text).text).text, h, unlines_lines]
    rw [htext, lines_logic (logic text).text, lines_logic text, logicLines_twice_iff]
  · intro hsame
    exact LineByLine.advice ⟨_, visit_logicStep_revisedTo _, rfl⟩ hsame

/-- An exchange that leaves a lone equality sign, which the next run doubles. -/
theorem logic_again_behind_equality :
    (logic "if x === None:\n    pass").text = "if x = is None:\n    pass" ∧
    (logic (logic "if x === None:\n    pass").text).text = "if x == is None:\n    pass" ∧
    (logic (logic "if== None = 3:\n    pass").text).text ≠
      (logic "if== None = 3:\n    pass").text := by
  decide +kernel

end Marginalia.Repair
