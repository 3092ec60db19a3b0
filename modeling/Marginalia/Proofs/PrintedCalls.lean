import Marginalia.Proofs.SameLayout

/-!
# Print statements as calls

A print statement is its word, blanks and the operands, which go on to the end of the code. In the
call that takes its place a comma behind the operands is exchanged for an argument. The call holds no
comment, leaves no literal open that the statement did not, and has the same triples of quotes. It
may leave a parenthesis open, since a literal that is open swallows the closing one.
-/

namespace Marginalia

namespace Text

lemma trim_blanks {gap : Text} (hgap : gap.isAllBlank = true) (t : Text) :
    trim (gap ++ t) = trim t := by
  rw [trim, trimStart_blanks hgap, trim]

/-- What a text without blanks at its end ends with has none there either. -/
lemma trimEnd_of_append {t t' : Text} (h : trimEnd (t ++ t') = t ++ t') : trimEnd t' = t' := by
  apply dropEnd_eq_self
  intro c hc
  apply getLast?_dropEnd (p := isBlank) (t := t ++ t')
  rw [show dropEnd isBlank (t ++ t') = t ++ t' from h, List.getLast?_append, hc]
  rfl

end Text

namespace Repair

open Text

/-- Whether a comment starts is read alike in states that differ in their depth. -/
lemma noComment_congr {s s' : CodeState} (h : s.Agree s') (t : Text) :
    splitAtCode? startsComment s t = none ↔ splitAtCode? startsComment s' t = none := by
  induction t generalizing s s' with
  | nil => exact Iff.rfl
  | cons c rest ih =>
    have hcode := (CodeState.step_congr h.quote h.escaped c).2.2
    have hrest := ih (h.step c)
    rw [splitAtCode?, splitAtCode?]
    cases hs : (s.step c).2 with
    | none =>
      have hs' : (s'.step c).2 = none := by
        rw [hs] at hcode
        exact Option.not_isSome_iff_eq_none.mp (by rw [← hcode]; exact Bool.false_ne_true)
      simpa [hs'] using hrest
    | some depth =>
      rw [hs] at hcode
      obtain ⟨depth', hs'⟩ := Option.isSome_iff_exists.mp hcode.symm
      simp only [hs', startsComment_cons]
      split
      · simp
      · simpa using hrest

/-- A print statement, taken apart: the margin, the blanks behind the word and the operands, if
there are any. -/
structure Prints (code margin gap operands : Text) : Prop where
  code_eq : code = margin ++ ("print" ++ (gap ++ operands))
  margin_blank : margin.isAllBlank = true
  gap_blank : gap.isAllBlank = true
  stated : gap = [] ∧ operands = [] ∨
    gap ≠ [] ∧ trim operands = operands ∧ isNoOperands operands = false

/-- The call that takes the place of a print statement. -/
def callOf (margin operands : Text) : Text :=
  margin ++ ("print(" ++ (callArguments operands ++ ")"))

/-- A comma behind the operands, and blanks before it, make room for an argument. -/
lemma callArguments_cases (operands : Text) : callArguments operands = operands ∨
    ∃ kept gap : Text, gap.isAllBlank = true ∧ operands = kept ++ (gap ++ ",") ∧
      callArguments operands = kept ++ ", end=\" \"" := by
  rw [callArguments]
  split
  · next hcomma =>
    obtain ⟨gap, hkept, hgap⟩ := trimEnd_append operands.dropLast
    refine .inr ⟨trimEnd operands.dropLast, gap, hgap, ?_, rfl⟩
    conv_lhs => rw [eq_of_endsWith_comma hcomma, hkept, List.append_assoc]
    rfl
  · exact .inl rfl

section

variable {code margin gap operands : Text}

lemma Prints.printCall? (h : Prints code margin gap operands) :
    printCall? code = some (callOf margin operands) := by
  have hafter : afterBlanksAnd? "print" code = some (gap ++ operands) :=
    (afterBlanksAnd?_cons_iff (c := 'p') (by decide) ['r', 'i', 'n', 't']).mpr
      ⟨margin, h.margin_blank, h.code_eq⟩
  have hindent : code.indentation = margin := by
    have hword : indentation ("print" ++ (gap ++ operands)) = [] :=
      indentation_word (c := 'p') (by decide) _
    rw [h.code_eq, indentation_blanks h.margin_blank, hword, List.append_nil]
  rw [Repair.printCall?, hafter]
  simp only [Option.bind_eq_bind, Option.bind_some]
  rcases h.stated with ⟨rfl, rfl⟩ | ⟨hne, htrim, hoperands⟩
  · rw [hindent]
    rfl
  · obtain ⟨c, gap, rfl⟩ := List.exists_cons_of_ne_nil hne
    have hargs : trim (c :: (gap ++ operands)) = operands :=
      (trim_blanks h.gap_blank operands).trans htrim
    have hblank := h.gap_blank
    rw [isAllBlank, List.all_cons, Bool.and_eq_true] at hblank
    rw [List.cons_append]
    simp only [hargs, hblank.1, hoperands, hindent]
    simp [callOf]

lemma prints_of_printCall? {code' : Text} (h : printCall? code = some code')
    (hcode : trimEnd code = code) :
    ∃ margin gap operands, Prints code margin gap operands ∧ code' = callOf margin operands := by
  simp only [printCall?, Option.bind_eq_bind, Option.bind_eq_some_iff] at h
  obtain ⟨rest, hrest, h⟩ := h
  have heq := eq_of_afterBlanksAnd? hrest
  cases rest with
  | nil =>
    refine ⟨code.indentation, [], [], ⟨heq, isAllBlank_indentation code, rfl, .inl ⟨rfl, rfl⟩⟩, ?_⟩
    rw [← Option.some.inj h]
    rfl
  | cons c rest =>
    simp only at h
    split at h
    · next hoperands =>
      rw [Bool.and_eq_true, Bool.not_eq_true'] at hoperands
      have hend : trimEnd (c :: rest) = c :: rest := by
        rw [heq, ← List.append_assoc] at hcode
        exact trimEnd_of_append hcode
      have hparts := trimStart_append (c :: rest)
      have htrim : trim (c :: rest) = trimStart (c :: rest) := by
        rw [hparts] at hend
        exact trimEnd_of_append hend
      refine ⟨code.indentation, indentation (c :: rest), trim (c :: rest),
        ⟨?_, isAllBlank_indentation code, isAllBlank_indentation _, .inr ⟨?_, ?_, hoperands.2⟩⟩, ?_⟩
      · rw [htrim, ← hparts]
        exact heq
      · rw [Text.indentation, List.takeWhile_cons, hoperands.1]
        exact List.cons_ne_nil _ _
      · rw [htrim, trim, trimStart_trimStart]
        exact htrim
      · rw [← Option.some.inj h]
        simp [callOf]
    · cases h

/-- A call is no print statement. -/
lemma printCall?_callOf (hmargin : margin.isAllBlank = true) (operands more : Text) :
    printCall? (callOf margin operands ++ more) = none := by
  have hafter : afterBlanksAnd? "print" (callOf margin operands ++ more) =
      some ('(' :: (callArguments operands ++ (")" ++ more))) :=
    (afterBlanksAnd?_cons_iff (c := 'p') (by decide) ['r', 'i', 'n', 't']).mpr
      ⟨margin, hmargin, by simp [callOf]⟩
  rw [printCall?, hafter]
  rfl

namespace Prints

lemma isBare_lead (h : Prints code margin gap operands) : IsBare (margin ++ ("print" ++ gap)) :=
  isBare_append.mpr ⟨isBare_of_isAllBlank h.margin_blank,
    isBare_append.mpr ⟨isBare_of_word (by decide), isBare_of_isAllBlank h.gap_blank⟩⟩

lemma code_eq_lead (h : Prints code margin gap operands) :
    code = (margin ++ ("print" ++ gap)) ++ operands := by
  rw [h.code_eq]
  simp only [List.append_assoc]

lemma run_code (h : Prints code margin gap operands) :
    CodeState.start.run code = CodeState.start.run operands := by
  rw [h.code_eq_lead, CodeState.run_append, run_bare h.isBare_lead]

lemma noComment_operands (h : Prints code margin gap operands)
    (hcode : splitAtCode? startsComment .start code = none) :
    splitAtCode? startsComment .start operands = none := by
  rw [h.code_eq_lead, splitAtCode?_append_eq_none_iff oneChar_startsComment,
    run_bare h.isBare_lead] at hcode
  exact hcode.2

/-- The quotes of a print statement are those of its operands. -/
lemma countTriples_code (h : Prints code margin gap operands) {q : Char} (hq : isQuote q = true) :
    countTriples q code = countTriples q operands := by
  have hmute : IsMute (margin ++ ("print" ++ gap)) :=
    isMute_append.mpr ⟨isMute_blanks h.margin_blank,
      isMute_append.mpr ⟨by decide, isMute_blanks h.gap_blank⟩⟩
  have hcount := countTriples_mute hq hmute (by simp) [] operands
  rw [h.code_eq_lead]
  rw [List.nil_append] at hcount
  simpa [countTriples] using hcount

end Prints

/-! ## Calls -/

/-- The text of a call up to its operands. -/
lemma callOf_eq_lead (margin operands : Text) :
    callOf margin operands = (margin ++ "print(") ++ (callArguments operands ++ ")") := by
  rw [callOf, List.append_assoc]

lemma getLast?_callOf (margin operands : Text) : (callOf margin operands).getLast? = some ')' := by
  rw [callOf_eq_lead, ← List.append_assoc]
  exact List.getLast?_concat

lemma run_callOf_lead (hmargin : margin.isAllBlank = true) :
    CodeState.start.run (margin ++ "print(") = ⟨none, false, 1⟩ := by
  have hbare : IsBare (margin ++ "print") :=
    isBare_append.mpr ⟨isBare_of_isAllBlank hmargin, isBare_of_word (by decide)⟩
  have hsplit : margin ++ "print(" = (margin ++ "print") ++ ['('] := by simp
  rw [hsplit, CodeState.run_append, run_bare hbare]
  rfl

/-- What is read inside the parenthesis is read as on its own, but for the depth. -/
lemma agree_run_callOf_lead (hmargin : margin.isAllBlank = true) (t : Text) :
    (CodeState.start.run ((margin ++ "print(") ++ t)).Agree (CodeState.start.run t) := by
  rw [CodeState.run_append, run_callOf_lead hmargin]
  have hagree : CodeState.Agree ⟨none, false, 1⟩ .start := ⟨rfl, rfl⟩
  exact hagree.run t

lemma noComment_callArguments (h : splitAtCode? startsComment .start operands = none) :
    splitAtCode? startsComment .start (callArguments operands ++ ")") = none := by
  rcases callArguments_cases operands with hsame | ⟨kept, gap, -, hoperands, hargs⟩
  · rw [hsame, splitAtCode?_append_eq_none_iff oneChar_startsComment]
    exact ⟨h, noComment_of_not_mem (by decide) _⟩
  · rw [hoperands, splitAtCode?_append_eq_none_iff oneChar_startsComment] at h
    rw [hargs, List.append_assoc, splitAtCode?_append_eq_none_iff oneChar_startsComment]
    exact ⟨h.1, noComment_of_not_mem (by decide) _⟩

lemma quote_callArguments (h : (CodeState.start.run operands).quote = none) :
    (CodeState.start.run (callArguments operands)).quote = none := by
  rcases callArguments_cases operands with hsame | ⟨kept, gap, hgap, hoperands, hargs⟩
  · rwa [hsame]
  · have hsound := CodeState.sound_start.run kept
    have hkept : (CodeState.start.run kept).quote = none := by
      have hinert : (gap ++ ",").all isInert = true := by
        rw [List.all_append, all_isInert_of_isAllBlank hgap]
        rfl
      rwa [hoperands, CodeState.run_append, hsound.quote_run_inert hinert] at h
    have hend : ((CodeState.start.run kept).run ", end=\" \"").Agree .start :=
      (hsound.agree_start hkept).run ", end=\" \""
    rw [hargs, CodeState.run_append]
    exact hend.quote

lemma countTriples_callArguments {q : Char} (hq : q = '"' ∨ q = '\'') (operands : Text) :
    countTriples q (callArguments operands) = countTriples q operands := by
  rcases callArguments_cases operands with hsame | ⟨kept, gap, hgap, hoperands, hargs⟩
  · rw [hsame]
  · have hcomma : q ∉ gap ++ "," := by
      rcases hq with rfl | rfl
      · simp [not_mem_of_isAllBlank hgap (c := '"') (by decide)]
      · simp [not_mem_of_isAllBlank hgap (c := '\'') (by decide)]
    have hargument : countTriples q (kept ++ ", end=\" \"") = countTriples q kept := by
      rcases hq with rfl | rfl
      · have hmute : IsMute ", end=" := by decide
        have hcount := countTriples_mute (q := '"') rfl hmute (by decide) kept ['"', ' ', '"']
        simpa [countTriples] using hcount
      · exact countTriples_append (by decide) kept
    rw [hargs, hargument, hoperands, countTriples_append hcomma]

/-- The code of a call, read as the code of its line. -/
lemma Prints.recodes (h : Prints code margin gap operands)
    (hcode : splitAtCode? startsComment .start code = none) :
    Recodes code (callOf margin operands) := by
  refine ⟨?_, ?_, fun hquote => ?_⟩
  · rw [callOf_eq_lead, splitAtCode?_append_eq_none_iff oneChar_startsComment,
      run_callOf_lead h.margin_blank]
    have hlead : '#' ∉ margin ++ "print(" := by
      simp [not_mem_of_isAllBlank h.margin_blank (c := '#') (by decide)]
    have hagree : CodeState.Agree ⟨none, false, 1⟩ .start := ⟨rfl, rfl⟩
    exact ⟨noComment_of_not_mem hlead _,
      (noComment_congr hagree _).mpr (noComment_callArguments (h.noComment_operands hcode))⟩
  · apply dropEnd_eq_self
    intro c hc
    rw [getLast?_callOf, Option.some.injEq] at hc
    rw [← hc]
    rfl
  · rw [h.run_code] at hquote
    have hclosed := quote_callArguments hquote
    have hagree := agree_run_callOf_lead h.margin_blank (callArguments operands)
    have hstep := CodeState.quote_step_code (c := ')') (hagree.quote.trans hclosed) (by decide)
    rw [callOf_eq_lead, ← List.append_assoc, CodeState.run_append]
    exact hstep.1

/-- Behind a call no line is joined and no triple of quotes is open that was not before. -/
lemma Prints.afterCode (h : Prints code margin gap operands) (s : LayoutState) :
    (s.afterCode (callOf margin operands)).backslash = false ∧
      (s.afterCode (callOf margin operands)).triple = (s.afterCode code).triple := by
  have htriples : ∀ q, q = '"' ∨ q = '\'' →
      countTriples q (callOf margin operands) = countTriples q code := by
    intro q hq
    have hquote : isQuote q = true := by rcases hq with rfl | rfl <;> rfl
    have hmute : IsMute (margin ++ "print(") :=
      isMute_append.mpr ⟨isMute_blanks h.margin_blank, by decide⟩
    have hlead := countTriples_mute hquote hmute (by simp) [] (callArguments operands ++ ")")
    have hparen : q ∉ [')'] := by rcases hq with rfl | rfl <;> decide
    rw [List.nil_append, ← callOf_eq_lead] at hlead
    rw [hlead, h.countTriples_code hquote, ← countTriples_callArguments hq operands]
    exact (Nat.zero_add _).trans (countTriples_append hparen _)
  constructor
  · show (callOf margin operands).endsWith ['\\'] = false
    rw [endsWith_char, getLast?_callOf]
    rfl
  · show openedTriple? (callOf margin operands) = openedTriple? code
    simp only [openedTriple?, leavesOpen, List.find?_cons, List.find?_nil,
      htriples '"' (.inl rfl), htriples '\'' (.inr rfl)]

end

/-! ## Lines -/

lemma code_printDraft (code : Text) : (printDraft code).code = (printCall? code).getD code := by
  simp only [printDraft, Draft.mend, Draft.ofCode]
  cases printCall? code with
  | none => rfl
  | some code' => rfl

lemma revisedLine_of_no_print {line : Text} (h : printCall? (codeOfLine line) = none) :
    revisedLine printDraft line = line := by
  rw [revisedLine, code_printDraft, h]
  exact splitComment_append line

lemma revisedLine_of_prints {line margin gap operands : Text}
    (h : Prints (codeOfLine line) margin gap operands) :
    revisedLine printDraft line = callOf margin operands ++ (splitComment line).2 := by
  rw [revisedLine, code_printDraft, h.printCall?]
  rfl

lemma lines_printing (text : Text) :
    (printing text).text.lines = revisedLines printDraft .start text.lines := by
  apply lines_reviseSites
  intro code hcode
  exact (printDraft_tells hcode).oneLine

lemma getElem?_printing {text line : Text} {k : Nat} (hline : text.lines[k]? = some line)
    (hwhole : (layout text.lines)[k]? = some ⟨.statement, true⟩) :
    (printing text).text.lines[k]? = some (revisedLine printDraft line) := by
  rw [lines_printing, getElem?_revisedLines, hline, Option.map_some]
  exact congrArg some (if_pos hwhole)

end Repair
end Marginalia
