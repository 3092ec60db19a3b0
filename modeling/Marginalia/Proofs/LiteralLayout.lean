import Marginalia.Proofs.ImprovedLines

/-!
# Lines behind a literal

Of a line that closes a literal with triple quotes only the quotes are read. So behind it the layout
of lines is where it was behind the line that opened the literal: a bracket that was open then still
is, whatever the closing line closes, and so is a backslash that belonged to the literal.
-/

namespace Marginalia.Repair

open Text

namespace LayoutState

/-- The state after some lines. -/
def after (s : LayoutState) (lines : List Text) : LayoutState :=
  lines.foldl (fun s line => (s.step line).1) s

lemma after_cons (s : LayoutState) (line : Text) (rest : List Text) :
    s.after (line :: rest) = (s.step line).1.after rest := rfl

lemma after_append (s : LayoutState) (above below : List Text) :
    s.after (above ++ below) = (s.after above).after below :=
  List.foldl_append

lemma layout_append (s : LayoutState) (above below : List Text) :
    s.layout (above ++ below) = s.layout above ++ (s.after above).layout below := by
  induction above generalizing s with
  | nil => rfl
  | cons line rest ih =>
    rw [List.cons_append, layout, ih, layout, List.cons_append]
    rfl

/-- What is known about a line depends on the lines above it alone. -/
lemma getElem?_layout (s : LayoutState) (above : List Text) (line : Text) (below : List Text) :
    (s.layout (above ++ line :: below))[above.length]? = some ((s.after above).step line).2 := by
  have hlength := length_layout s above
  rw [layout_append, List.getElem?_append_right (Nat.le_of_eq hlength), hlength, Nat.sub_self,
    layout, List.getElem?_cons_zero]

/-! The lines of a literal. -/

lemma after_body {s : LayoutState} {q : Char} (hs : s.triple = some q) {body : List Text}
    (hbody : ∀ line ∈ body, leavesOpen q line = false) : s.after body = s := by
  induction body with
  | nil => rfl
  | cons line rest ih =>
    have hline : leavesOpen q line = false := hbody line List.mem_cons_self
    have hstep : (s.step line).1 = s := by simp [step, hs, hline]
    rw [after_cons, hstep]
    exact ih fun line hmem => hbody line (List.mem_cons_of_mem _ hmem)

lemma step_closing {s : LayoutState} {q : Char} (hs : s.triple = some q) {closing : Text}
    (hclosing : leavesOpen q closing = true) :
    s.step closing = ({ s with triple := none }, ⟨.stringBody, s.depth == 0 && !s.backslash⟩) := by
  simp [step, hs, hclosing, isComplete]

/-! Lines outside literals. -/

lemma isEmpty_trim (line : Text) : (trim line).isEmpty = line.isAllBlank := by
  rw [Bool.eq_iff_iff, List.isEmpty_iff, trim_eq_nil_iff]

/-- Outside literals the role of a line depends on its start and on what is open before it. -/
lemma roleOf_eq (s : LayoutState) (line : Text) : s.roleOf line =
    if line.isAllBlank = true then .blank
    else if s.depth = 0 ∧ s.backslash = false then
      if (trim line).startsWith "#" = true then .comment else .statement
    else .continuation := by
  rw [roleOf, isEmpty_trim]
  by_cases hline : line.isAllBlank = true
  · rw [if_pos hline, if_pos hline]
  rw [if_neg hline, if_neg hline]
  by_cases hended : s.depth = 0 ∧ s.backslash = false
  · rw [if_pos hended, hended.1, hended.2]
    rfl
  · rw [if_neg hended, if_pos]
    rw [Bool.or_eq_true, decide_eq_true_iff, gt_iff_lt, Nat.pos_iff_ne_zero]
    by_contra hnot
    rw [not_or, not_not, Bool.not_eq_true] at hnot
    exact hended hnot

lemma step_blank {s : LayoutState} (hs : s.triple = none) {line : Text}
    (hline : line.isAllBlank = true) : s.step line = (s, ⟨.blank, false⟩) := by
  have hrole : s.roleOf line = .blank := by rw [roleOf_eq, if_pos hline]
  simp only [step, hs, hrole]

/-- A line that is neither blank nor a comment is a statement where the last one is complete, and
else goes on with it. -/
lemma step_code {s : LayoutState} (hs : s.triple = none) {line : Text}
    (hline : line.isAllBlank = false) (hcode : (trim line).startsWith "#" = false) :
    s.step line = (s.afterCode (codeOfLine line),
      ⟨if s.depth = 0 ∧ s.backslash = false then .statement else .continuation,
        (s.afterCode (codeOfLine line)).isComplete⟩) := by
  have hrole := s.roleOf_eq line
  rw [hline, hcode, if_neg Bool.false_ne_true, if_neg Bool.false_ne_true] at hrole
  by_cases hended : s.depth = 0 ∧ s.backslash = false
  · rw [if_pos hended] at hrole ⊢
    simp only [step, hs, hrole]
  · rw [if_neg hended] at hrole ⊢
    simp only [step, hs, hrole]

/-- A line that looks like a comment is none where a statement goes on, and adds no code to it. -/
lemma step_comment {s : LayoutState} (hs : s.triple = none) {line : Text}
    (hline : line.isAllBlank = false) (hcomment : (trim line).startsWith "#" = true) :
    s.step line = if s.depth = 0 ∧ s.backslash = false then (s, ⟨.comment, false⟩)
      else (s.afterCode [], ⟨.continuation, (s.afterCode []).isComplete⟩) := by
  have hrole := s.roleOf_eq line
  rw [hline, hcomment, if_neg Bool.false_ne_true, if_pos rfl] at hrole
  by_cases hended : s.depth = 0 ∧ s.backslash = false
  · rw [if_pos hended] at hrole ⊢
    simp only [step, hs, hrole]
  · rw [if_neg hended] at hrole ⊢
    simp only [step, hs, hrole, codeOfLine_of_comment hcomment]

/-- A line that is blank or looks like a comment. -/
def IsSilent (line : Text) : Prop := line.isAllBlank = true ∨ (trim line).startsWith "#" = true

instance (line : Text) : Decidable (IsSilent line) := inferInstanceAs (Decidable (_ ∨ _))

/-- Silent lines close no bracket, but one that is not blank is what a backslash joins. -/
lemma after_silent {s : LayoutState} (hs : s.triple = none) {gap : List Text}
    (hgap : ∀ line ∈ gap, IsSilent line) :
    s.after gap = { s with backslash := s.backslash && gap.all Text.isAllBlank } := by
  induction gap generalizing s with
  | nil => simp [after]
  | cons line rest ih =>
    have hrest : ∀ line ∈ rest, IsSilent line := fun line hmem =>
      hgap line (List.mem_cons_of_mem _ hmem)
    rw [after_cons, List.all_cons]
    cases hline : line.isAllBlank with
    | true =>
      rw [step_blank hs hline, ih hs hrest]
      rfl
    | false =>
      have hcomment : (trim line).startsWith "#" = true := by
        rcases hgap line List.mem_cons_self with hblank | hcomment
        · rw [hblank] at hline
          cases hline
        · exact hcomment
      have hjoined : (s.step line).1 = { s with backslash := false } := by
        rw [step_comment hs hline hcomment]
        split
        · next hended => rw [← hended.2]
        · rw [afterCode, hs]
          rfl
      rw [hjoined, @ih { s with backslash := false } hs hrest, Bool.false_and, Bool.and_false]

lemma roleOf_of_statement {s : LayoutState} {line : Text}
    (h : (s.step line).2.role = .statement) : s.triple = none ∧ s.roleOf line = .statement := by
  cases hs : s.triple with
  | some q => exact absurd h (by simp [step, hs])
  | none =>
    refine ⟨rfl, ?_⟩
    simp only [step, hs] at h
    cases hr : s.roleOf line <;> simp only [hr] at h <;> first | rfl | cases h

/-- A statement starts where nothing is open. -/
lemma eq_start_of_statement {s : LayoutState} {line : Text}
    (h : (s.step line).2.role = .statement) : s = start := by
  obtain ⟨htriple, hrole⟩ := roleOf_of_statement h
  by_cases hended : s.depth = 0 ∧ s.backslash = false
  · obtain ⟨depth, backslash, triple⟩ := s
    obtain ⟨rfl, rfl⟩ : depth = 0 ∧ backslash = false := hended
    obtain rfl : triple = none := htriple
    rfl
  · rw [roleOf_eq, if_neg hended] at hrole
    split at hrole <;> cases hrole

lemma step_of_statement {s : LayoutState} {line : Text} (h : (s.step line).2.role = .statement) :
    (s.step line).1 = s.afterCode (codeOfLine line) := by
  obtain ⟨htriple, hrole⟩ := roleOf_of_statement h
  simp only [step, htriple, hrole]

/-- Where a statement is complete the next line starts one, or is blank or a comment. -/
lemma step_start_cases (line : Text) : (start.step line).2.role = .statement ∨
    start.step line = (start, ⟨.blank, false⟩) ∨ start.step line = (start, ⟨.comment, false⟩) := by
  by_cases hline : line.isAllBlank = true
  · exact .inr (.inl (step_blank rfl hline))
  · have hblank : line.isAllBlank = false := Bool.eq_false_iff.mpr hline
    by_cases hcode : (trim line).startsWith "#" = true
    · rw [step_comment rfl hblank hcode]
      exact .inr (.inr rfl)
    · rw [step_code rfl hblank (Bool.eq_false_iff.mpr hcode)]
      exact .inl rfl

lemma eq_start_of_isComplete {s : LayoutState} (h : s.isComplete = true) :
    s = .start := by
  obtain ⟨depth, backslash, triple⟩ := s
  simp only [isComplete, Bool.and_eq_true, Option.isNone_iff_eq_none, beq_iff_eq,
    Bool.not_eq_true'] at h
  obtain ⟨⟨rfl, rfl⟩, rfl⟩ := h
  rfl

/-- Where a statement is complete nothing is carried to the next line. -/
lemma step_of_ends {s : LayoutState} {line : Text}
    (h : (s.step line).2.endsStatement = true) : (s.step line).1 = .start := by
  refine eq_start_of_isComplete ?_
  simp only [step] at h ⊢
  cases ht : s.triple with
  | some q => simpa only [ht] using h
  | none =>
    cases hr : s.roleOf line <;> simp_all

/-- Inside a literal that a statement opens everything is as the first line of the statement left it. -/
lemma after_opened {above body : List Text} {opening : Text} {q : Char}
    (hrole : ((start.after above).step opening).2.role = .statement)
    (hopened : openedTriple? (codeOfLine opening) = some q)
    (hbody : ∀ line ∈ body, leavesOpen q line = false) :
    start.after (above ++ opening :: body) = start.afterCode (codeOfLine opening) := by
  have hstep := step_of_statement hrole
  rw [eq_start_of_statement hrole] at hstep
  rw [after_append, eq_start_of_statement hrole, after_cons, hstep]
  exact after_body hopened hbody

lemma depth_afterCode_start (code : Text) : (start.afterCode code).depth = 0 ↔
    countCode isOpener code ≤ countCode isCloser code := by
  rw [afterCode, start, Nat.zero_add, Nat.sub_eq_zero_iff_le]

end LayoutState

/-- Code that closes as many brackets as it opens and does not go on behind a backslash. -/
def ClosesItself (code : Text) : Prop :=
  countCode isOpener code ≤ countCode isCloser code ∧ code.endsWith "\\" = false

/-- A statement whose last line closes a literal is taken to end there exactly if the line that opened
the literal closes itself, whatever the closing line holds. The next line of code is taken for
a statement under the same condition, or if the opening line closes its brackets and a comment
stands between, which is what its backslash then joins. -/
theorem closed_literal_ends_iff {lines above body below : List Text} {opening closing : Text}
    {q : Char} (hlines : lines = above ++ opening :: (body ++ closing :: below))
    (hopening : (layout lines)[above.length]?.map (·.role) = some .statement)
    (hopened : openedTriple? (codeOfLine opening) = some q)
    (hbody : ∀ line ∈ body, leavesOpen q line = false) (hclosing : leavesOpen q closing = true) :
    (∃ closes, (layout lines)[(above ++ opening :: body).length]? = some closes ∧
      closes.role = .stringBody ∧
      (closes.endsStatement = true ↔ ClosesItself (codeOfLine opening))) ∧
    ∀ gap next rest, below = gap ++ next :: rest →
      (∀ line ∈ gap, LayoutState.IsSilent line) → ¬LayoutState.IsSilent next →
      ∃ follows, (layout lines)[(above ++ opening :: (body ++ closing :: gap)).length]? =
        some follows ∧
        (follows.role = .statement ↔ ClosesItself (codeOfLine opening) ∨
          countCode isOpener (codeOfLine opening) ≤ countCode isCloser (codeOfLine opening) ∧
          ∃ line ∈ gap, line.isAllBlank = false) := by
  have hstart : layout lines = LayoutState.start.layout lines := rfl
  have hrole : ((LayoutState.start.after above).step opening).2.role = .statement := by
    rw [hstart, hlines, LayoutState.getElem?_layout] at hopening
    exact Option.some.inj hopening
  have hbefore := LayoutState.after_opened hrole hopened hbody
  have hclosed := LayoutState.depth_afterCode_start (codeOfLine opening)
  have htriple : (LayoutState.start.afterCode (codeOfLine opening)).triple = some q := hopened
  have hended : (LayoutState.start.afterCode (codeOfLine opening)).depth = 0 ∧
      (LayoutState.start.afterCode (codeOfLine opening)).backslash = false ↔
        ClosesItself (codeOfLine opening) := and_congr_left fun _ => hclosed
  generalize LayoutState.start.afterCode (codeOfLine opening) = inside at *
  have hcloses := LayoutState.step_closing htriple hclosing
  refine ⟨⟨⟨.stringBody, inside.depth == 0 && !inside.backslash⟩, ?_, rfl, ?_⟩, ?_⟩
  · have hsplit : lines = (above ++ opening :: body) ++ closing :: below := by
      rw [hlines]
      simp
    rw [hstart, hsplit, LayoutState.getElem?_layout, hbefore, hcloses]
  · rw [← hended]
    simp
  · intro gap next rest hbelow hgap hnext
    obtain ⟨hnotblank, hnotcomment⟩ := not_or.mp hnext
    have hbehind : LayoutState.start.after (above ++ opening :: (body ++ closing :: gap)) =
        { inside with triple := none, backslash := inside.backslash && gap.all Text.isAllBlank } := by
      have hsplit : above ++ opening :: (body ++ closing :: gap) =
          (above ++ opening :: body) ++ closing :: gap := by simp
      rw [hsplit, LayoutState.after_append, hbefore, LayoutState.after_cons, hcloses]
      exact LayoutState.after_silent rfl hgap
    have hsplit : lines = (above ++ opening :: (body ++ closing :: gap)) ++ next :: rest := by
      rw [hlines, hbelow]
      simp
    refine ⟨_, by rw [hstart, hsplit, LayoutState.getElem?_layout, hbehind], ?_⟩
    have hjoins : (inside.backslash && gap.all Text.isAllBlank) = false ↔
        inside.backslash = false ∨ ∃ line ∈ gap, line.isAllBlank = false := by
      rw [Bool.and_eq_false_iff, List.all_eq_false]
      simp only [Bool.not_eq_true]
    rw [LayoutState.step_code rfl (Bool.eq_false_iff.mpr hnotblank)
      (Bool.eq_false_iff.mpr hnotcomment), ← hended, ← hclosed, ← and_or_left, ← hjoins]
    split
    · next h => exact ⟨fun _ => h, fun _ => rfl⟩
    · next h => exact ⟨nofun, fun hstarts => absurd hstarts h⟩

/-- The first statement behind a documentation text is taken for one. -/
theorem closed_literal_ends_of_documentation :
    ∃ closes follows,
      (layout (["'''Doc", "  text", "'''", "", "# Note", "pass"] : List Text))[2]? = some closes ∧
      (layout (["'''Doc", "  text", "'''", "", "# Note", "pass"] : List Text))[5]? = some follows ∧
      closes.endsStatement = true ∧ follows.role = .statement := by
  have hitself : ClosesItself (codeOfLine "'''Doc") := ⟨by decide, by decide⟩
  obtain ⟨⟨closes, hcloses, -, hends⟩, hbelow⟩ :=
    @closed_literal_ends_iff (["'''Doc", "  text", "'''", "", "# Note", "pass"] : List Text) []
      (["  text"] : List Text) (["", "# Note", "pass"] : List Text) "'''Doc" "'''" '\'' rfl
      (by decide) (by decide) (by decide) (by decide)
  obtain ⟨follows, hfollows, hrole⟩ := hbelow (["", "# Note"] : List Text) "pass" [] rfl
    (by decide) (by decide)
  exact ⟨closes, follows, hcloses, hfollows, hends.mpr hitself, hrole.mpr (.inl hitself)⟩

/-- A parenthesis that is closed behind a literal counts as open, so the next statement passes for
the middle of one. -/
theorem literal_keeps_bracket_open :
    layout (["x = f('''a", "b''')", "y = 1"] : List Text) =
      [⟨.statement, false⟩, ⟨.stringBody, false⟩, ⟨.continuation, false⟩] := by
  decide

end Marginalia.Repair
