import Marginalia.Proofs.PrintedCalls

/-!
# Where a call closes

A print statement goes on to the end of its line's code. So when another statement stands behind it,
that is put between the parentheses as well. The call closes behind the operands exactly if no
semicolon outside literals and brackets ends the statement.
-/

namespace Marginalia.Repair

open Text

/-- The code of the first statement of a line: what stands before the first semicolon outside
literals and brackets. -/
def firstStatement (code : Text) : Text := ((splitTopLevel? ';' code).map Prod.fst).getD code

/-- The semicolon behind the first statement of a line and what follows it. -/
def laterStatements (code : Text) : Text := ((splitTopLevel? ';' code).map Prod.snd).getD []

lemma statements_append (code : Text) : firstStatement code ++ laterStatements code = code := by
  rw [firstStatement, laterStatements]
  cases hsplit : splitTopLevel? ';' code with
  | none => exact List.append_nil code
  | some pair => exact (eq_of_splitAtCode? hsplit).symm

lemma laterStatements_cases (code : Text) :
    splitTopLevel? ';' code = none ∧ laterStatements code = [] ∨
      splitTopLevel? ';' code ≠ none ∧ ∃ rest, laterStatements code = ';' :: rest := by
  rw [laterStatements]
  cases hsplit : splitTopLevel? ';' code with
  | none => exact .inl ⟨rfl, rfl⟩
  | some pair =>
    obtain ⟨-, c, rest, depth, htail, -, hstop⟩ := of_splitAtCode? (oneChar_top ';') hsplit
    rw [Bool.and_eq_true, htail, List.head?_cons, beq_iff_eq, beq_iff_eq, Option.some.injEq] at hstop
    refine .inr ⟨Option.some_ne_none _, rest, ?_⟩
    rw [← hstop.2]
    exact htail

section

variable {operands between rest : Text}

/-- What stands behind the operands does not make something else of a print statement. -/
lemma isNoOperands_append {d : Char} (hd : isBlank d = true ∨ d = ';') (hne : operands ≠ [])
    (more : Text) : isNoOperands (operands ++ d :: more) = isNoOperands operands := by
  have hother {c : Char} (hc : isBlank c = false ∧ c ≠ ';') : d ≠ c := by
    rintro rfl
    rcases hd with hd | hd
    · exact absurd hc.1 (by simp [hd])
    · exact hc.2 hd
  have hparen : d ∉ ("(" : Text) := by simp [hother (c := '(') (by decide)]
  have hredirect : d ∉ (">>" : Text) := by simp [hother (c := '>') (by decide)]
  have hassigned : d ∉ ("=" : Text) := by simp [hother (c := '=') (by decide)]
  have hequal : d ∉ ("==" : Text) := by simp [hother (c := '=') (by decide)]
  have hempty : operands.isEmpty = false ∧ (operands ++ d :: more).isEmpty = false := by
    simp [hne]
  simp only [isNoOperands, hempty]
  rw [startsWith_append_stop hparen, startsWith_append_stop hredirect,
    startsWith_append_stop hassigned, startsWith_append_stop hequal]

/-- What ends in no blank, behind a text without blank margins, makes another one. -/
lemma trim_append_eq_self {t more : Text} (ht : trim t = t) (hne : t ≠ []) (hmore : more ≠ [])
    (htrim : trimEnd more = more) : trim (t ++ more) = t ++ more := by
  obtain ⟨c, t, rfl⟩ := List.exists_cons_of_ne_nil hne
  have hc : isBlank c = false := head?_trim (t := c :: t) (by rw [ht]; rfl)
  have hstart : trimStart (c :: t ++ more) = c :: t ++ more :=
    List.dropWhile_cons_of_neg (by rw [hc]; exact Bool.false_ne_true)
  rw [trim, hstart]
  apply dropEnd_eq_self
  intro d hd
  obtain ⟨e, he⟩ := Option.ne_none_iff_exists'.mp (List.getLast?_eq_none_iff.not.mpr hmore)
  rw [List.getLast?_append, he, Option.some_or, Option.some.injEq] at hd
  apply getLast?_dropEnd (p := isBlank) (t := more)
  rw [show dropEnd isBlank more = more from htrim, he, hd]

/-- A statement and what follows it on its line, printed as one. -/
lemma Prints.append {margin gap : Text}
    (h : Prints (margin ++ ("print" ++ (gap ++ operands))) margin gap operands) (hne : operands ≠ [])
    (hbetween : between.isAllBlank = true)
    (htrim : trimEnd (between ++ ';' :: rest) = between ++ ';' :: rest) :
    Prints (margin ++ ("print" ++ (gap ++ (operands ++ (between ++ ';' :: rest))))) margin gap
      (operands ++ (between ++ ';' :: rest)) := by
  rcases h.stated with ⟨-, hnil⟩ | ⟨hgap, htrimmed, hoperands⟩
  · exact absurd hnil hne
  refine ⟨rfl, h.margin_blank, h.gap_blank, .inr ⟨hgap, ?_, ?_⟩⟩
  · exact trim_append_eq_self htrimmed hne (by simp) htrim
  · cases between with
    | nil => exact (isNoOperands_append (.inr rfl) hne rest).trans hoperands
    | cons d between =>
      rw [isAllBlank, List.all_cons, Bool.and_eq_true] at hbetween
      exact (isNoOperands_append (.inl hbetween.1) hne _).trans hoperands

/-- The arguments of a call that takes in what stands behind the operands. -/
lemma callArguments_append (operands between rest : Text) :
    ∃ more, callArguments (operands ++ (between ++ ';' :: rest)) =
      operands ++ (between ++ ';' :: more) := by
  rcases callArguments_cases (operands ++ (between ++ ';' :: rest)) with
    hsame | ⟨kept, gap, hgap, hall, hargs⟩
  · exact ⟨rest, hsame⟩
  have hcomma : ';' ∉ gap ++ "," := by
    simp [not_mem_of_isAllBlank hgap (c := ';') (by decide)]
  rw [← List.append_assoc] at hall
  rcases List.append_eq_append_iff.mp hall with ⟨more, hkept, hrest⟩ | ⟨more, -, hend⟩
  · cases more with
    | nil => exact absurd (by rw [← List.nil_append (gap ++ _), ← hrest]; simp) hcomma
    | cons c more =>
      obtain ⟨rfl, -⟩ := List.cons.inj hrest
      exact ⟨more ++ ", end=\" \"", by rw [hargs, hkept]; simp⟩
  · exact absurd (by rw [hend]; simp) hcomma

/-- A call that takes in a semicolon behind the operands closes elsewhere than one that does not. -/
lemma callOf_append_ne (margin operands : Text) (hbetween : between.isAllBlank = true)
    (rest behind behind' : Text) :
    callOf margin (operands ++ (between ++ ';' :: rest)) ++ behind ≠
      callOf margin operands ++ behind' := by
  intro heq
  obtain ⟨more, hmore⟩ := callArguments_append operands between rest
  have hparen : (")" : Text) = [')'] := rfl
  rw [callOf_eq_lead, callOf_eq_lead, hmore, hparen] at heq
  simp only [List.append_assoc, List.cons_append, List.nil_append] at heq
  have hargs := List.append_cancel_left (List.append_cancel_left heq)
  rcases callArguments_cases operands with hsame | ⟨kept, gap, hgap, hoperands, hcall⟩
  · -- Behind the operands there is the parenthesis.
    rw [hsame] at hargs
    have hbehind := congrArg List.head? (List.append_cancel_left hargs)
    exact head?_blanks_cons hbetween (by decide) (by decide) _ hbehind
  · -- The comma behind the operands is exchanged.
    have hcomma : ("," : Text) = [','] := rfl
    have hargument : (", end=\" \"" : Text) = ',' :: ' ' :: 'e' :: "nd=\" \"" := rfl
    rw [hcall, hoperands, hcomma, hargument] at hargs
    simp only [List.append_assoc, List.cons_append, List.nil_append] at hargs
    have hbehind := List.append_cancel_left hargs
    cases gap with
    | nil =>
      have hblank := (List.cons.inj hbehind).2
      cases between with
      | nil =>
        have hhead := (List.cons.inj hblank).1
        exact absurd hhead (by decide)
      | cons d between =>
        rw [isAllBlank, List.all_cons, Bool.and_eq_true] at hbetween
        have hhead := congrArg List.head? (List.cons.inj hblank).2
        exact head?_blanks_cons hbetween.2 (by decide) (by decide) _ hhead
    | cons d gap =>
      rw [isAllBlank, List.all_cons, Bool.and_eq_true] at hgap
      exact ne_of_isBlank hgap.1 (d := ',') (by decide) (List.cons.inj hbehind).1

end

/-- The call that takes the place of a print statement at the beginning of a whole statement's line
takes in everything up to the end of the code. So it holds the operands, with all that stands behind
them left as it is, exactly if no semicolon outside literals and brackets stands there. -/
theorem call_closes_behind_operands_iff (text : Text) {k : Nat} {line margin gap operands : Text}
    (hline : text.lines[k]? = some line)
    (hwhole : (layout text.lines)[k]? = some ⟨.statement, true⟩)
    (hprints : Prints (trimEnd (firstStatement (codeOfLine line))) margin gap operands)
    (hoperands : operands ≠ []) :
    ∃ line' between, (printing text).text.lines[k]? = some line' ∧ between.isAllBlank = true ∧
      line = margin ++ ("print" ++ (gap ++ operands)) ++
        (between ++ (laterStatements (codeOfLine line) ++ (splitComment line).2)) ∧
      line' = callOf margin (operands ++ (between ++ laterStatements (codeOfLine line))) ++
        (splitComment line).2 ∧
      ((∃ gap' : Text, gap'.isAllBlank = true ∧ line' = callOf margin operands ++
          (gap' ++ (laterStatements (codeOfLine line) ++ (splitComment line).2))) ↔
        splitTopLevel? ';' (codeOfLine line) = none) := by
  have hprinted := getElem?_printing hline hwhole
  have hparts := statements_append (codeOfLine line)
  have hsplit := splitComment_append line
  rcases laterStatements_cases (codeOfLine line) with ⟨hnone, hlater⟩ | ⟨hsome, rest, hlater⟩
  · rw [hlater, List.append_nil] at hparts
    rw [hparts, trimEnd_codeOfLine] at hprints
    have hcode := hprints.code_eq
    refine ⟨_, [], hprinted, rfl, ?_, ?_, ?_⟩
    · rw [hlater, ← hcode]
      exact hsplit.symm
    · rw [hlater, List.append_nil, List.append_nil]
      exact revisedLine_of_prints hprints
    · refine iff_of_true ⟨[], rfl, ?_⟩ hnone
      rw [hlater]
      exact revisedLine_of_prints hprints
  · obtain ⟨between, hfirst, hbetween⟩ := trimEnd_append (firstStatement (codeOfLine line))
    have hstatement := hprints.code_eq
    have hcode : codeOfLine line =
        margin ++ ("print" ++ (gap ++ (operands ++ (between ++ ';' :: rest)))) := by
      rw [← hparts, hlater, hfirst, hstatement]
      simp only [List.append_assoc]
    have htrim : trimEnd (between ++ ';' :: rest) = between ++ ';' :: rest := by
      have hend := trimEnd_codeOfLine line
      rw [← hparts, hlater, hfirst, List.append_assoc] at hend
      exact trimEnd_of_append hend
    rw [hstatement] at hprints
    have hall := hprints.append hoperands hbetween htrim
    rw [← hcode] at hall
    refine ⟨_, between, hprinted, hbetween, ?_, ?_, ?_⟩
    · conv_lhs => rw [← hsplit, show (splitComment line).1 = _ from hcode]
      rw [hlater]
      simp only [List.append_assoc]
    · rw [hlater]
      exact revisedLine_of_prints hall
    · refine iff_of_false ?_ hsome
      rintro ⟨gap', -, heq⟩
      rw [revisedLine_of_prints hall] at heq
      exact callOf_append_ne margin operands hbetween rest _ _ heq

theorem call_closes_behind_literal_semicolon :
    Prints (trimEnd (firstStatement (codeOfLine "print x, ';',  # two"))) [] " " "x, ';'," ∧
      splitTopLevel? ';' (codeOfLine "print x, ';',  # two") = none ∧
      ∃ gap' : Text, gap'.isAllBlank = true ∧
        (printing "print x, ';',  # two").text.lines[0]? =
          some (callOf [] "x, ';'," ++ (gap' ++
            (laterStatements (codeOfLine "print x, ';',  # two") ++
              (splitComment "print x, ';',  # two").2))) := by
  have hline : (Text.lines "print x, ';',  # two")[0]? = some "print x, ';',  # two".toList := by
    decide
  have hnone : splitTopLevel? ';' (codeOfLine "print x, ';',  # two") = none := by decide
  have hprints : Prints (trimEnd (firstStatement (codeOfLine "print x, ';',  # two"))) [] " "
      "x, ';'," := ⟨by decide, rfl, rfl, .inr ⟨by decide, by decide, by decide⟩⟩
  obtain ⟨line', -, hprinted, -, -, -, hcloses⟩ :=
    call_closes_behind_operands_iff "print x, ';',  # two" hline (by decide) hprints (by decide)
  obtain ⟨gap', hgap, rfl⟩ := hcloses.mpr hnone
  exact ⟨hprints, hnone, gap', hgap, hprinted⟩

/-- The statement behind `print x` ends up between the parentheses, and so does the comma that asks
for no line break. -/
theorem call_takes_in_next_statement :
    splitTopLevel? ';' "print x; y = 1" = some ("print x".toList, "; y = 1".toList) ∧
      (layout (Text.lines "print x; y = 1"))[0]? = some ⟨.statement, true⟩ ∧
      (printing "print x").text = "print(x)" ∧
      (printing "print x; y = 1").text = "print(x; y = 1)" ∧
      (printing "print x,").text = "print(x, end=\" \")" ∧
      (printing "print x,; y = 1").text = "print(x,; y = 1)" := by
  decide +kernel

end Marginalia.Repair
