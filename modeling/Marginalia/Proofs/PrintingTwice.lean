import Marginalia.Proofs.PrintedCalls

/-!
# Printing again

The call that takes the place of a print statement may leave a parenthesis open, where a literal that
is open swallows the closing one. Then a second run reads the lines below with more open brackets,
and statements and comments among them go on with the call. But no line becomes a statement that was
none, so there is nothing left for the second run to do.
-/

namespace Marginalia.Repair

open Text

/-- A line that keeps its role, or goes on with what stands above it. It completes a statement only if
it did so before. -/
structure RunsOn (info info' : LineInfo) : Prop where
  role : info'.role = info.role ∨
    (info.role = .statement ∨ info.role = .comment) ∧ info'.role = .continuation
  ends : info'.endsStatement = true → info.endsStatement = true

namespace LayoutState

/-- A state with the same literals and joined lines and at least as many open brackets. -/
structure Deeper (s s' : LayoutState) : Prop where
  depth : s.depth ≤ s'.depth
  backslash : s'.backslash = s.backslash
  triple : s'.triple = s.triple

variable {s s' : LayoutState}

lemma Deeper.refl (s : LayoutState) : s.Deeper s := ⟨Nat.le_refl _, rfl, rfl⟩

lemma Deeper.eq_start (h : s.Deeper .start) : s = .start := by
  obtain ⟨depth, backslash, triple⟩ := s
  obtain rfl : depth = 0 := Nat.le_zero.mp h.depth
  obtain rfl : false = backslash := h.backslash
  obtain rfl : none = triple := h.triple
  rfl

lemma Deeper.isComplete (h : s.Deeper s') (hs' : s'.isComplete = true) : s.isComplete = true := by
  obtain rfl := eq_start_of_isComplete hs'
  rw [h.eq_start]
  exact hs'

/-- Where the next line of code starts a statement, it does so with fewer open brackets too. -/
lemma Deeper.ended (h : s.Deeper s') (hs' : s'.depth = 0 ∧ s'.backslash = false) :
    s.depth = 0 ∧ s.backslash = false := by
  have hdepth := h.depth
  have hended := hs'.1
  exact ⟨by omega, h.backslash.symm.trans hs'.2⟩

lemma Deeper.afterCode (h : s.Deeper s') (code : Text) :
    (s.afterCode code).Deeper (s'.afterCode code) := by
  have hdepth := h.depth
  refine ⟨?_, rfl, rfl⟩
  show s.depth + _ - _ ≤ s'.depth + _ - _
  omega

/-- With more open brackets a line is read alike or goes on with what stands above it. -/
lemma Deeper.step (h : s.Deeper s') (line : Text) :
    (s.step line).1.Deeper (s'.step line).1 ∧ RunsOn (s.step line).2 (s'.step line).2 := by
  cases hs : s.triple with
  | some q =>
    have hs' : s'.triple = some q := h.triple.trans hs
    by_cases hcloses : leavesOpen q line = true
    · have hdeeper : Deeper { s with triple := none } { s' with triple := none } :=
        ⟨h.depth, h.backslash, rfl⟩
      simp only [LayoutState.step, hs, hs', hcloses, if_true]
      exact ⟨hdeeper, .inl rfl, hdeeper.isComplete⟩
    · simp only [LayoutState.step, hs, hs', hcloses]
      exact ⟨h, .inl rfl, h.isComplete⟩
  | none =>
    have hs' : s'.triple = none := h.triple.trans hs
    by_cases hline : line.isAllBlank = true
    · rw [step_blank hs hline, step_blank hs' hline]
      exact ⟨h, .inl rfl, id⟩
    rw [Bool.not_eq_true] at hline
    by_cases hcomment : (trim line).startsWith "#" = true
    · rw [step_comment hs hline hcomment, step_comment hs' hline hcomment]
      by_cases hended' : s'.depth = 0 ∧ s'.backslash = false
      · rw [if_pos (h.ended hended'), if_pos hended']
        exact ⟨h, .inl rfl, id⟩
      rw [if_neg hended']
      by_cases hended : s.depth = 0 ∧ s.backslash = false
      · -- The comment goes on with what stands above it, and has no code to end that.
        rw [if_pos hended]
        have hdeeper : s.Deeper (s'.afterCode []) := ⟨h.depth, hended.2.symm, hs.symm⟩
        have hopen : (s'.afterCode []).isComplete = false := by
          refine Bool.eq_false_iff.mpr fun hcomplete => hended' ⟨?_, h.backslash.trans hended.2⟩
          exact congrArg LayoutState.depth (eq_start_of_isComplete hcomplete)
        rw [hopen]
        exact ⟨hdeeper, .inr ⟨.inr rfl, rfl⟩, id⟩
      · rw [if_neg hended]
        exact ⟨h.afterCode [], .inl rfl, (h.afterCode []).isComplete⟩
    · rw [Bool.not_eq_true] at hcomment
      rw [step_code hs hline hcomment, step_code hs' hline hcomment]
      refine ⟨h.afterCode _, ?_, (h.afterCode _).isComplete⟩
      by_cases hended' : s'.depth = 0 ∧ s'.backslash = false
      · exact .inl (by simp only [if_pos hended', if_pos (h.ended hended')])
      by_cases hended : s.depth = 0 ∧ s.backslash = false
      · exact .inr ⟨.inl (if_pos hended), if_neg hended'⟩
      · exact .inl (by simp only [if_neg hended', if_neg hended])

end LayoutState

/-! ## Lines -/

/-- A line that is printed is left as it is, or has a call for its code. -/
lemma printed_cases (line : Text) :
    printCall? (codeOfLine line) = none ∧ revisedLine printDraft line = line ∨
    ∃ margin gap operands, Prints (codeOfLine line) margin gap operands ∧
      codeOfLine (revisedLine printDraft line) = callOf margin operands := by
  cases hprint : printCall? (codeOfLine line) with
  | none => exact .inl ⟨rfl, revisedLine_of_no_print hprint⟩
  | some code' =>
    obtain ⟨margin, gap, operands, hprints, rfl⟩ :=
      prints_of_printCall? hprint (trimEnd_codeOfLine line)
    refine .inr ⟨margin, gap, operands, hprints, ?_⟩
    rw [revisedLine_of_prints hprints]
    exact (hprints.recodes (noComment_codeOfLine line)).code_eq

lemma printCall?_revisedLine (line : Text) :
    printCall? (codeOfLine (revisedLine printDraft line)) = none := by
  rcases printed_cases line with ⟨hnone, hsame⟩ | ⟨margin, gap, operands, hprints, hcode⟩
  · rwa [hsame]
  · have hcall := printCall?_callOf hprints.margin_blank operands []
    rw [List.append_nil] at hcall
    rw [hcode, hcall]

section

variable {s s' : LayoutState}

/-- A printed line, read with more open brackets. -/
lemma LayoutState.Deeper.step_printed (h : s.Deeper s') {line : Text}
    (hwhole : (s.step line).2 = ⟨.statement, true⟩) :
    (s.step line).1.Deeper (s'.step (revisedLine printDraft line)).1 ∧
      RunsOn (s.step line).2 (s'.step (revisedLine printDraft line)).2 := by
  rcases printed_cases line with ⟨-, hsame⟩ | ⟨margin, gap, operands, hprints, hcode⟩
  · rw [hsame]
    exact h.step line
  · have hrole : (s.step line).2.role = .statement := by rw [hwhole]
    have hends : (s.step line).1 = .start := LayoutState.step_of_ends (by rw [hwhole])
    obtain rfl := LayoutState.eq_start_of_statement hrole
    have hafter := LayoutState.step_of_statement hrole
    rw [hends] at hafter
    obtain ⟨hback, htriple⟩ := hprints.afterCode s'
    have hne : codeOfLine (revisedLine printDraft line) ≠ [] := by
      rw [hcode]
      simp [callOf]
    have hblank : (revisedLine printDraft line).isAllBlank = false :=
      Bool.eq_false_iff.mpr fun hb => hne (codeOfLine_of_blank hb)
    have hcomment : (trim (revisedLine printDraft line)).startsWith "#" = false :=
      Bool.eq_false_iff.mpr fun hc => hne (codeOfLine_of_comment hc)
    rw [LayoutState.step_code h.triple hblank hcomment, hcode, hends, hwhole]
    refine ⟨⟨Nat.zero_le _, hback, htriple.trans ?_⟩, ?_, fun _ => rfl⟩
    · exact (congrArg LayoutState.triple hafter).symm
    · show (if _ then Role.statement else .continuation) = _ ∨ _
      split
      · exact .inl rfl
      · exact .inr ⟨.inl rfl, rfl⟩

/-- Printed lines, read with more open brackets, are left as they are. -/
lemma revisedLines_printDraft_twice (h : s.Deeper s') (lines : List Text) :
    revisedLines printDraft s' (revisedLines printDraft s lines) = revisedLines printDraft s lines ∧
      List.Forall₂ RunsOn (s.layout lines) (s'.layout (revisedLines printDraft s lines)) := by
  induction lines generalizing s s' with
  | nil => exact ⟨rfl, .nil⟩
  | cons line rest ih =>
    rw [revisedLines]
    by_cases hwhole : (s.step line).2 = ⟨.statement, true⟩
    · obtain ⟨hdeeper, hruns⟩ := h.step_printed hwhole
      obtain ⟨hrest, hlayout⟩ := ih hdeeper
      rw [if_pos hwhole]
      refine ⟨?_, .cons hruns hlayout⟩
      rw [revisedLines, hrest, revisedLine_of_no_print (printCall?_revisedLine line), ite_self]
    · obtain ⟨hdeeper, hruns⟩ := h.step line
      obtain ⟨hrest, hlayout⟩ := ih hdeeper
      rw [if_neg hwhole]
      refine ⟨?_, .cons hruns hlayout⟩
      -- A statement of the second run was one in the first.
      have hwhole' : (s'.step line).2 ≠ ⟨.statement, true⟩ := by
        intro heq
        have hs' : s' = .start := LayoutState.eq_start_of_statement (by rw [heq])
        subst hs'
        rw [h.eq_start] at hwhole
        exact hwhole heq
      rw [revisedLines, hrest, if_neg hwhole']

end

lemma silent_printDraft : Silent printDraft := by
  intro code hsame
  rw [code_printDraft] at hsame
  have hnone : printCall? code = none := by
    cases hprint : printCall? code with
    | none => rfl
    | some code' =>
      rw [hprint, Option.getD_some] at hsame
      have hweight := enriches_printCall? code code' hprint
      rw [hsame] at hweight
      exact absurd hweight (lt_irrefl _)
  simp only [printDraft, Draft.mend, Draft.ofCode, hnone]

/-- Print statements become calls at once: a second run does nothing, whatever is open in the text.
In between no line becomes a statement. -/
theorem printing_twice (text : Text) :
    printing (printing text).text = ⟨(printing text).text, []⟩ ∧
      List.Forall₂ RunsOn (layout text.lines) (layout (printing text).text.lines) ∧
      ∀ (k : Nat) (line margin gap operands : Text), text.lines[k]? = some line →
        (layout text.lines)[k]? = some ⟨.statement, true⟩ →
        Prints (codeOfLine line) margin gap operands →
        (printing text).text.lines[k]? =
          some (callOf margin operands ++ (splitComment line).2) := by
  have hone : ∀ code, OneLine code → OneLine (printDraft code).code :=
    fun code h => (printDraft_tells h).oneLine
  obtain ⟨htwice, hlayout⟩ := revisedLines_printDraft_twice (.refl .start) text.lines
  refine ⟨?_, ?_, ?_⟩
  · apply (reviseSites_eq_self_iff hone silent_printDraft _).mpr
    rw [lines_printing]
    exact htwice
  · rw [lines_printing]
    exact hlayout
  · intro k line margin gap operands hline hwhole hprints
    rw [getElem?_printing hline hwhole, revisedLine_of_prints hprints]

/-- A literal that is open swallows the parenthesis of its call, so the line below goes on with it. -/
example : (printing "print 'a\nprint b").text = "print('a)\nprint(b)" ∧
    (layout (Text.lines "print 'a\nprint b")).map (·.role) = [.statement, .statement] ∧
    (layout (Text.lines "print('a)\nprint(b)")).map (·.role) = [.statement, .continuation] := by
  decide

end Marginalia.Repair
