import Marginalia.Proofs.LiteralLayout
import Marginalia.Proofs.Literals
import Marginalia.Proofs.Margins
import Marginalia.Proofs.RevisedLines

/-!
# Lines with other code

A pass that mends the code of whole statements leaves the blanks and the comment behind the code.
The line that comes out has the new code for its code, as long as that holds no comment and leaves
no literal open that the old code did not. Lines that are mended so keep their roles, and whether a
second run of the pass changes anything can be told from each line alone.
-/

namespace Marginalia

namespace Repair

open Text

/-! ## The code of a line -/

lemma noComment_codeOfLine (line : Text) :
    splitAtCode? startsComment .start (codeOfLine line) = none := by
  have hpart : ∀ t margin : Text, splitAtCode? startsComment .start (t ++ margin) = none →
      splitAtCode? startsComment .start t = none := by
    intro t margin h
    rw [splitAtCode?_append_eq_none_iff oneChar_startsComment] at h
    exact h.1
  rw [codeOfLine_eq]
  cases hsplit : splitAtCode? startsComment .start line with
  | none =>
    obtain ⟨margin, hmargin, -⟩ := trimEnd_append line
    rw [hmargin] at hsplit
    exact hpart _ margin hsplit
  | some pair =>
    obtain ⟨hhead, -⟩ := of_splitAtCode? oneChar_startsComment hsplit
    obtain ⟨margin, hmargin, -⟩ := trimEnd_append pair.1
    rw [hmargin] at hhead
    exact hpart _ margin hhead

/-- What is behind the code of a line: blanks, or blanks and a comment. -/
lemma tail_cases (line : Text) :
    (splitComment line).2.isAllBlank = true ∨
    (CodeState.start.run (codeOfLine line)).quote = none ∧
      ∃ gap rest : Text, (splitComment line).2 = gap ++ '#' :: rest ∧ gap.isAllBlank = true := by
  have hcode := codeOfLine_eq line
  have happ : codeOfLine line ++ (splitComment line).2 = line := splitComment_append line
  cases hsplit : splitAtCode? startsComment .start line with
  | none =>
    rw [hsplit] at hcode
    obtain ⟨margin, hmargin, hblank⟩ := trimEnd_append line
    have hline : line = codeOfLine line ++ margin := by
      rw [hcode]
      exact hmargin
    rw [List.append_cancel_left (happ.trans hline)]
    exact .inl hblank
  | some pair =>
    obtain ⟨head, tail⟩ := pair
    obtain ⟨-, c, rest, depth, rfl, hstep, hstop⟩ := of_splitAtCode? oneChar_startsComment hsplit
    rw [hsplit] at hcode
    obtain ⟨gap, hgap, hblank⟩ := trimEnd_append head
    rw [startsComment_cons, beq_iff_eq] at hstop
    subst hstop
    have hquote : (CodeState.start.run head).quote = none :=
      CodeState.quote_of_isSome_step (by rw [hstep]; rfl)
    have hhead : head = codeOfLine line ++ gap := by
      rw [hcode]
      exact hgap
    have hline : line = codeOfLine line ++ (gap ++ '#' :: rest) := by
      rw [← List.append_assoc, ← hhead]
      exact eq_of_splitAtCode? hsplit
    rw [hhead, CodeState.run_append,
      (CodeState.sound_start.run (codeOfLine line)).quote_run_inert
        (all_isInert_of_isAllBlank hblank)] at hquote
    exact .inr ⟨hquote, gap, rest, List.append_cancel_left (happ.trans hline), hblank⟩

/-- Code that may stand in the place of other code: it holds no comment, ends in no blank, and leaves
no literal open that the other code does not. -/
structure Recodes (code code' : Text) : Prop where
  noComment : splitAtCode? startsComment .start code' = none
  trimmed : trimEnd code' = code'
  closed : (CodeState.start.run code).quote = none → (CodeState.start.run code').quote = none

lemma Recodes.code_eq {line code' : Text} (h : Recodes (codeOfLine line) code') :
    codeOfLine (code' ++ (splitComment line).2) = code' := by
  obtain hblank | ⟨hquote, gap, rest, htail, hgap⟩ := tail_cases line
  · rw [codeOfLine_margin hblank, codeOfLine_eq, h.noComment]
    exact h.trimmed
  · rw [codeOfLine_eq, htail, splitAtCode?_append oneChar_startsComment, h.noComment,
      splitAtCode?_comment (h.closed hquote) hgap]
    exact (trimEnd_margin hgap code').trans h.trimmed

/-! ## Whole statements -/

lemma trimEnd_codeOfLine (line : Text) : trimEnd (codeOfLine line) = codeOfLine line := by
  rw [codeOfLine_eq]
  exact dropEnd_dropEnd isBlank _

namespace LayoutState

/-- A line with code is a statement, complete if its brackets and literals are closed. -/
lemma step_of_code {line : Text} (h : codeOfLine line ≠ []) :
    start.step line = (start.afterCode (codeOfLine line),
      ⟨.statement, (start.afterCode (codeOfLine line)).isComplete⟩) := by
  have hblank : line.isAllBlank = false := Bool.eq_false_iff.mpr fun hb => h (codeOfLine_of_blank hb)
  have hcomment : (trim line).startsWith "#" = false :=
    Bool.eq_false_iff.mpr fun hc => h (codeOfLine_of_comment hc)
  exact step_code rfl hblank hcomment

end LayoutState

/-! ## Lines that are revised one by one -/

/-- A line with a draft in the place of its code. -/
def revisedLine (draft : Text → Draft) (line : Text) : Text :=
  (draft (codeOfLine line)).code ++ (splitComment line).2

lemma Recodes.revisedLine_twice_iff {draft : Text → Draft} {line : Text}
    (h : Recodes (codeOfLine line) (draft (codeOfLine line)).code) :
    revisedLine draft (revisedLine draft line) = revisedLine draft line ↔
      (draft (draft (codeOfLine line)).code).code = (draft (codeOfLine line)).code := by
  have hsplit : splitComment (revisedLine draft line) =
      ((draft (codeOfLine line)).code, (splitComment line).2) :=
    splitComment_of_append h.code_eq
  have hcode : codeOfLine (revisedLine draft line) = (draft (codeOfLine line)).code :=
    h.code_eq
  have htwice : revisedLine draft (revisedLine draft line) =
      (draft (draft (codeOfLine line)).code).code ++ (splitComment line).2 := by
    rw [revisedLine, hcode, hsplit]
  rw [htwice]
  exact List.append_left_inj _

/-- Lines, read from a state, of which the whole statements are revised. -/
def revisedLines (draft : Text → Draft) (s : LayoutState) : List Text → List Text
  | [] => []
  | line :: rest =>
    (if (s.step line).2 = ⟨.statement, true⟩ then revisedLine draft line else line) ::
      revisedLines draft (s.step line).1 rest

variable {draft : Text → Draft}

lemma getElem?_revisedLines (s : LayoutState) (lines : List Text) (k : Nat) :
    (revisedLines draft s lines)[k]? = lines[k]?.map fun line =>
      if (s.layout lines)[k]? = some ⟨.statement, true⟩ then revisedLine draft line else line := by
  induction lines generalizing s k with
  | nil => rfl
  | cons line rest ih =>
    cases k with
    | zero => simp [revisedLines, LayoutState.layout]
    | succ k => exact ih (s.step line).1 k

/-- Drafts after which a whole statement is one still. -/
def KeepsWhole (draft : Text → Draft) : Prop :=
  ∀ line, LayoutState.start.step line = (.start, ⟨.statement, true⟩) →
    LayoutState.start.step (revisedLine draft line) = (.start, ⟨.statement, true⟩)

lemma KeepsWhole.step (h : KeepsWhole draft) {s : LayoutState} {line : Text}
    (hline : (s.step line).2 = ⟨.statement, true⟩) :
    s.step (revisedLine draft line) = s.step line := by
  have hrole : (s.step line).2.role = .statement := by rw [hline]
  have hs : s = .start := LayoutState.eq_start_of_statement hrole
  subst hs
  have hwhole : LayoutState.start.step line = (.start, ⟨.statement, true⟩) :=
    Prod.ext (LayoutState.step_of_ends (by rw [hline])) hline
  rw [h line hwhole, hwhole]

lemma KeepsWhole.layout (h : KeepsWhole draft) (s : LayoutState) (lines : List Text) :
    s.layout (revisedLines draft s lines) = s.layout lines := by
  induction lines generalizing s with
  | nil => rfl
  | cons line rest ih =>
    have hstep : s.step (if (s.step line).2 = ⟨.statement, true⟩ then revisedLine draft line
        else line) = s.step line := by
      split
      · next hline => exact h.step hline
      · rfl
    rw [revisedLines, LayoutState.layout, LayoutState.layout, hstep, ih]

lemma revisedLines_eq_self_iff (s : LayoutState) (lines : List Text) :
    revisedLines draft s lines = lines ↔ ∀ (k : Nat) line, lines[k]? = some line →
      (s.layout lines)[k]? = some ⟨.statement, true⟩ → revisedLine draft line = line := by
  constructor
  · intro h k line hline hinfo
    have hk := @getElem?_revisedLines draft s lines k
    rw [h, hline, Option.map_some, if_pos hinfo] at hk
    exact (Option.some.inj hk).symm
  · intro h
    refine List.ext_getElem? fun k => ?_
    rw [getElem?_revisedLines]
    cases hline : lines[k]? with
    | none => rfl
    | some line =>
      rw [Option.map_some]
      split
      · next hinfo => rw [h k line hline hinfo]
      · rfl

/-! ## Texts -/

lemma Site.isWholeStatement_iff (s : Site) :
    s.isWholeStatement = true ↔ s.info = ⟨.statement, true⟩ := by
  obtain ⟨number, ⟨role, endsStatement⟩, line, later⟩ := s
  simp [Site.isWholeStatement, Site.isStatement]

/-- The revision of a whole statement, and a line of another kind as it is. -/
def Site.revised (draft : Text → Draft) (s : Site) : Revised :=
  if s.isWholeStatement then .ofDraft s (draft s.code) else .same s

lemma Site.revised_line (draft : Text → Draft) (s : Site) : (s.revised draft).line =
    if s.info = ⟨.statement, true⟩ then revisedLine draft s.line else s.line := by
  unfold Site.revised
  simp only [s.isWholeStatement_iff]
  split <;> rfl

lemma map_revised_line (s : LayoutState) (n : Nat) (lines : List Text) :
    ((Site.numbered n ((s.layout lines).zip lines)).map (Site.revised draft)).map (·.line) =
      revisedLines draft s lines := by
  induction lines generalizing s n with
  | nil => rfl
  | cons line rest ih =>
    rw [LayoutState.layout, List.zip_cons_cons, Site.numbered, List.map_cons, List.map_cons, ih,
      Site.revised_line]
    rfl

lemma text_reviseSites (text : Text) :
    (reviseSites Site.isWholeStatement draft text).text =
      unlines (revisedLines draft .start text.lines) :=
  congrArg unlines (map_revised_line .start 1 text.lines)

lemma oneLine_revisedLines (hone : ∀ code, OneLine code → OneLine (draft code).code)
    (s : LayoutState) {lines : List Text} (h : ∀ line ∈ lines, OneLine line) :
    ∀ line ∈ revisedLines draft s lines, OneLine line := by
  induction lines generalizing s with
  | nil => exact h
  | cons line rest ih =>
    obtain ⟨hline, hrest⟩ := List.forall_mem_cons.mp h
    refine List.forall_mem_cons.mpr ⟨?_, ih _ hrest⟩
    split
    · have happ : codeOfLine line ++ (splitComment line).2 = line := splitComment_append line
      rw [← happ, oneLine_append] at hline
      exact oneLine_append.mpr ⟨hone _ hline.1, hline.2⟩
    · exact hline

lemma lines_reviseSites (hone : ∀ code, OneLine code → OneLine (draft code).code) (text : Text) :
    (reviseSites Site.isWholeStatement draft text).text.lines =
      revisedLines draft .start text.lines := by
  have hne : revisedLines draft .start text.lines ≠ [] := by
    obtain ⟨line, rest, hlines⟩ := List.exists_cons_of_ne_nil (lines_ne_nil text)
    rw [hlines]
    exact List.cons_ne_nil _ _
  rw [text_reviseSites]
  exact lines_unlines_of_oneLine hne
    (oneLine_revisedLines hone .start fun _ hline => oneLine_of_mem_lines hline)

/-- A draft that leaves code as it is has nothing to say about it. -/
def Silent (draft : Text → Draft) : Prop :=
  ∀ code, (draft code).code = code → (draft code).findings = []

lemma Silent.changes (hsilent : Silent draft) {s : LayoutState} {n : Nat} {lines : List Text}
    (h : revisedLines draft s lines = lines) :
    ((Site.numbered n ((s.layout lines).zip lines)).map (Site.revised draft)).flatMap (fun r =>
      r.findings.map fun f => Change.atLine f r.number) = [] := by
  induction lines generalizing s n with
  | nil => rfl
  | cons line rest ih =>
    obtain ⟨hline, hrest⟩ := List.cons.inj h
    have hfindings : (Site.revised draft ⟨n, (s.step line).2, line,
        ((s.step line).1.layout rest).zip rest⟩).findings = [] := by
      unfold Site.revised
      split
      · next hwhole =>
        rw [if_pos ((Site.isWholeStatement_iff _).mp hwhole)] at hline
        have happ : codeOfLine line ++ (splitComment line).2 = line := splitComment_append line
        conv_rhs at hline => rw [← happ]
        exact hsilent _ (List.append_cancel_right hline)
      · rfl
    rw [LayoutState.layout, List.zip_cons_cons, Site.numbered, List.map_cons, List.flatMap_cons,
      hfindings, ih hrest]
    rfl

/-- A text of which no line is revised is left alone, without a word about it. -/
lemma reviseSites_eq_self_iff (hone : ∀ code, OneLine code → OneLine (draft code).code)
    (hsilent : Silent draft) (text : Text) :
    reviseSites Site.isWholeStatement draft text = ⟨text, []⟩ ↔
      revisedLines draft .start text.lines = text.lines := by
  constructor
  · intro h
    rw [← lines_reviseSites hone, h]
  · intro h
    have htext : (reviseSites Site.isWholeStatement draft text).text = text := by
      rw [text_reviseSites, h, unlines_lines]
    have hchanges : (reviseSites Site.isWholeStatement draft text).changes = [] :=
      hsilent.changes h
    generalize reviseSites Site.isWholeStatement draft text = o at htext hchanges
    obtain ⟨_, _⟩ := o
    rw [← htext, ← hchanges]

/-- A second run leaves the text alone if it would leave each line alone. -/
theorem reviseSites_twice_iff (hone : ∀ code, OneLine code → OneLine (draft code).code)
    (hsilent : Silent draft) (hkeeps : KeepsWhole draft) (text : Text) :
    reviseSites Site.isWholeStatement draft (reviseSites Site.isWholeStatement draft text).text =
        ⟨(reviseSites Site.isWholeStatement draft text).text, []⟩ ↔
      ∀ (k : Nat) line, text.lines[k]? = some line →
        (layout text.lines)[k]? = some ⟨.statement, true⟩ →
        revisedLine draft (revisedLine draft line) = revisedLine draft line := by
  rw [reviseSites_eq_self_iff hone hsilent, lines_reviseSites hone, revisedLines_eq_self_iff,
    hkeeps.layout]
  constructor
  · intro h k line hline hinfo
    refine h k _ ?_ hinfo
    rw [getElem?_revisedLines, hline, Option.map_some]
    exact congrArg some (if_pos hinfo)
  · intro h k line hline hinfo
    rw [getElem?_revisedLines] at hline
    obtain ⟨before, hbefore, rfl⟩ := Option.map_eq_some_iff.mp hline
    rw [if_pos (show (LayoutState.start.layout text.lines)[k]? = _ from hinfo)]
    exact h k before hbefore hinfo

end Repair
end Marginalia
