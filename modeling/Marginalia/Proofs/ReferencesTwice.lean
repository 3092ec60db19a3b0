import Marginalia.Proofs.LogicTwice
import Marginalia.Proofs.ReplacedCalls

/-!
# Mending references again

An assignment that was turned around cannot be turned around again, nor does a replacement make one
that can. Mended lines are read like the lines they were, and those of functions define initializers
where they did, so that a second run comes to every line in the state of the first one and finds
nothing to do.
-/

namespace Marginalia

open Text Repair

/-- Where what is put does not stand, nothing was put. -/
lemma Substituted.eq_of_absent {m : Mark} {new t out : Text} {b : Before}
    (h : Substituted (.mark m new) b t out) (hnew : ¬new <:+: out) : out = t := by
  induction h with
  | nil => rfl
  | @keep b c t out _ _ ih => rw [ih fun hin => hnew (hin.trans (List.suffix_cons c out).isInfix)]
  | @swap b old put t out _ hr _ _ =>
    obtain ⟨-, rfl, -⟩ := Rule.mark_swap hr
    exact absurd (List.prefix_append put out).isInfix hnew

namespace Repair

/-! ## Assignments -/

/-- A word and what follows it, blanks apart, are told by a text. -/
lemma behind_word_unique {word word' gap gap' rest rest' : Text} {c c' : Char}
    (hword : word.all isWordChar = true) (hword' : word'.all isWordChar = true)
    (hgap : gap.isAllBlank = true) (hgap' : gap'.isAllBlank = true) (hc : isBlank c = false)
    (hc' : isBlank c' = false) (hends : continuesWord (gap ++ c :: rest) = false)
    (hends' : continuesWord (gap' ++ c' :: rest') = false)
    (h : word ++ (gap ++ c :: rest) = word' ++ (gap' ++ c' :: rest')) : c = c' := by
  have hblank : ∀ (d : Char) (t : Text), isBlank d = false → ∀ e ∈ (d :: t).head?,
      (!isBlank e) = true := by
    rintro d t hd e he
    obtain rfl : d = e := Option.some.inj he
    simp [hd]
  obtain rfl : word = word' := word_unique hword hends hword' hends' h
  have hbehind := List.append_cancel_left h
  obtain rfl : gap = gap' := run_eq (p := fun c => !isBlank c)
    (by simpa [isAllBlank] using hgap) (hblank c rest hc) (by simpa [isAllBlank] using hgap')
    (hblank c' rest' hc') hbehind
  exact (List.cons.inj (List.append_cancel_left hbehind)).1

/-- An assignment to a name is no head of a function. -/
lemma functionName?_assignment {margin name gap value : Text} (hmargin : margin.isAllBlank = true)
    (hne : name ≠ []) (hname : name.all isWordChar = true) (hgap : gap.isAllBlank = true) :
    functionName? (margin ++ (name ++ (gap ++ ("=" ++ value)))) = none := by
  refine Option.eq_none_iff_forall_ne_some.mpr ?_
  rintro ⟨called, rest⟩ h
  obtain ⟨_, ⟨margin', async, gap', rfl, hmargin', hasync, hgne, hgap'⟩, hcalled, hword, -, heq⟩ :=
    functionName?_eq_some_iff.mp h
  obtain ⟨c, called, rfl⟩ := List.exists_cons_of_ne_nil hcalled
  rw [List.all_cons, Bool.and_eq_true] at hword
  obtain ⟨d, name, rfl⟩ := List.exists_cons_of_ne_nil hne
  have hd : isBlank d = false :=
    isBlank_of_isWordChar (List.all_eq_true.mp hname d List.mem_cons_self)
  -- Apart from the margins, the name is the first word of the head.
  have hstart := congrArg trimStart heq
  simp only [List.append_assoc] at hstart
  rw [trimStart_blanks hmargin, trimStart_blanks hmargin', hasync.trimStart,
    show trimStart (d :: name ++ (gap ++ ("=" ++ value))) = d :: name ++ (gap ++ '=' :: value) from
      List.dropWhile_cons_of_neg (by simp [hd])] at hstart
  have hends : continuesWord (gap ++ '=' :: value) = false :=
    continuesWord_blanks_cons hgap (by decide) value
  have hbehind : ∀ {gap : Text}, gap ≠ [] → gap.isAllBlank = true → ∀ t : Text,
      continuesWord (gap ++ t) = false := by
    intro gap hne hgap t
    obtain ⟨e, gap, rfl⟩ := List.exists_cons_of_ne_nil hne
    exact isWordChar_of_isBlank (List.all_eq_true.mp hgap e List.mem_cons_self)
  obtain rfl | ⟨mid, rfl, hmne, hmid⟩ := hasync
  · obtain rfl : '=' = c := behind_word_unique hname (by decide) hgap hgap' (by decide)
      (isBlank_of_isWordChar hword.1) hends (hbehind hgne hgap' _) hstart
    exact absurd hword.1 (by decide)
  · rw [List.append_assoc] at hstart
    have hsign : '=' = 'd' := behind_word_unique hname (by decide) hgap hmid (by decide) (by decide)
      hends (hbehind hmne hmid _) hstart
    exact absurd hsign (by decide)

lemma functionName?_self {margin : Text} (hmargin : margin.isAllBlank = true) (rest : Text) :
    functionName? (margin ++ ("self." ++ rest)) = none := by
  rw [functionName?, trimStart_blanks hmargin]
  rfl

lemma turnAssignment?_self {margin : Text} (hmargin : margin.isAllBlank = true) (rest : Text) :
    turnAssignment? (margin ++ ("self." ++ rest)) = none := by
  rw [turnAssignment?, assigned?, trimStart_blanks hmargin]
  rfl

/-- No call that is put has a place in an assignment that can be turned around: there is no
parenthesis in it, and its only dot follows `self`. -/
lemma not_infix_of_turnAssignment? {code code' : Text} (h : turnAssignment? code = some code') :
    ∀ fix ∈ callFixes, ¬fix.2 <:+: code := by
  have htable : ∀ fix ∈ callFixes, '(' ∈ fix.2 ∨
      (['s', 'g'].any fun c => decide ([c, '.'] <:+: fix.2)) = true := by decide
  obtain ⟨name, gap, gap', ⟨-, hname⟩, hgap, hgap', hcode, -⟩ := eq_of_turnAssignment? h
  have hbare := isBare_of_word hname
  obtain ⟨front, rfl, hfront⟩ : ∃ front : Text, code = (front ++ "self") ++ '.' :: name ∧
      ∀ c, isBlank c = false → isWordChar c = false → c ≠ '=' → c ∉ front := by
    refine ⟨code.indentation ++ (name ++ (gap ++ ("=" ++ gap'))), ?_, ?_⟩
    · conv_lhs => rw [hcode]
      simp only [List.append_assoc]
      rfl
    · intro c hblank hword hsign
      have hgaps : ∀ {t : Text}, t.isAllBlank = true → c ∉ t := fun ht =>
        (isBare_of_isAllBlank ht).not_mem hblank hword
      simp only [List.mem_append, not_or]
      exact ⟨hgaps (isAllBlank_indentation code), hbare.not_mem hblank hword, hgaps hgap,
        by simpa using hsign, hgaps hgap'⟩
  intro fix hfix hin
  obtain hmem | hdotted := htable fix hfix
  · have hparen : '(' ∉ (front ++ "self") ++ '.' :: name := by
      simp only [List.mem_append, List.mem_cons, not_or]
      exact ⟨⟨hfront '(' (by decide) (by decide) (by decide), by decide⟩, by decide,
        hbare.not_mem (by decide) (by decide)⟩
    exact hparen (hin.subset hmem)
  · obtain ⟨c, hc, hpair⟩ := List.any_eq_true.mp hdotted
    obtain ⟨u, v, huv⟩ := (of_decide_eq_true hpair).trans hin
    have hsplit : (front ++ "self") ++ '.' :: name = (u ++ [c]) ++ '.' :: v := by
      rw [← huv]
      simp
    have hdot : '.' ∉ front ++ "self" := by
      simp only [List.mem_append, not_or]
      exact ⟨hfront '.' (by decide) (by decide) (by decide), by decide⟩
    have hself := ((List.append_cons_inj_of_notMem hdot (hbare.not_mem (by decide) (by decide))).mp
      hsplit).1
    obtain rfl : 'f' = c := by simpa using congrArg List.getLast? hself
    exact absurd hc (by decide)

lemma replaceAll_eq_of_absent {fixes : List (Text × Text)}
    (hfixes : ∀ fix ∈ fixes, fix ∈ callFixes) {code : Text}
    (h : ∀ fix ∈ fixes, ¬fix.2 <:+: replaceAll fixes code) :
    replaceAll fixes code = code := by
  induction fixes generalizing code with
  | nil => rfl
  | cons fix fixes ih =>
    obtain ⟨hfix, hfixes⟩ := List.forall_mem_cons.mp hfixes
    obtain ⟨hfirst, hlater⟩ := List.forall_mem_cons.mp h
    rw [replaceAll] at hfirst hlater ⊢
    rw [ih hfixes hlater] at hfirst ⊢
    have hsub := substituted_substitute (replaces_callRule hfix).takes code
    rw [callRule_eq_mark] at hfirst hsub ⊢
    exact hsub.eq_of_absent hfirst

/-- An assignment in an initializer that was mended is not turned around again. -/
lemma turnAssignment?_referenceDraft (code : Text) :
    turnAssignment? (referenceDraft true code).code = none := by
  rw [code_referenceDraft]
  cases h : turnAssignment? (replaceAll callFixes (turnedCode true code)) with
  | none => rfl
  | some code' =>
    rw [replaceAll_eq_of_absent (fun _ hmem => hmem) (not_infix_of_turnAssignment? h)] at h
    rw [turnedCode, if_pos rfl] at h
    cases hturn : turnAssignment? code with
    | none =>
      rw [hturn, Option.getD_none, hturn] at h
      cases h
    | some turned =>
      obtain ⟨name, gap, gap', -, -, -, -, hturned⟩ := eq_of_turnAssignment? hturn
      rw [hturn, Option.getD_some, hturned, turnAssignment?_self (isAllBlank_indentation code)] at h
      cases h

lemma referenceDraft_referenceDraft (inInitializer : Bool) (code : Text) :
    (referenceDraft inInitializer (referenceDraft inInitializer code).code).code =
      (referenceDraft inInitializer code).code := by
  have hturned : turnedCode inInitializer (referenceDraft inInitializer code).code =
      (referenceDraft inInitializer code).code := by
    cases inInitializer with
    | false => rfl
    | true => rw [turnedCode, if_pos rfl, turnAssignment?_referenceDraft, Option.getD_none]
  rw [code_referenceDraft inInitializer (referenceDraft inInitializer code).code, hturned,
    code_referenceDraft, replaceAll_replaceAll]

lemma namesInitializer?_referenceDraft (inInitializer : Bool) (code : Text) :
    namesInitializer? (referenceDraft inInitializer code).code = namesInitializer? code := by
  rw [code_referenceDraft, namesInitializer?_replaceAll, turnedCode]
  split
  · cases hturn : turnAssignment? code with
    | none => rfl
    | some turned =>
      obtain ⟨name, gap, gap', ⟨hne, hname⟩, hgap, -, hcode, hturned⟩ := eq_of_turnAssignment? hturn
      have hindent := isAllBlank_indentation code
      rw [Option.getD_some, namesInitializer?, namesInitializer?, hturned,
        functionName?_self hindent]
      rw [hcode, functionName?_assignment hindent hne hname hgap]
  · rfl

/-! ## Lines -/

/-- What stands behind the code of a line holds no end of a name: it is blank up to its comment. -/
lemma not_word_of_tail {line more rest : Text} {c : Char}
    (htail : (splitComment line).2 = more ++ [c] ++ rest) (hbare : IsBare (more ++ [c])) :
    isWordChar c = false := by
  have hblank : isBlank c = true := by
    obtain hall | ⟨-, gap, comment, hsplit, hgap⟩ := tail_cases line
    · rw [htail] at hall
      exact List.all_eq_true.mp hall c (by simp)
    · rw [htail] at hsplit
      rcases List.append_eq_append_iff.mp hsplit with ⟨k, rfl, -⟩ | ⟨k, hk, hcomment⟩
      · exact List.all_eq_true.mp hgap c (by simp)
      · cases k with
        | nil =>
          rw [List.append_nil] at hk
          exact List.all_eq_true.mp hgap c (by rw [← hk]; simp)
        | cons d k =>
          obtain ⟨rfl, -⟩ := List.cons.inj hcomment
          exact absurd (by rw [hk]; simp) (hbare.not_mem (c := '#') (by decide) (by decide))
  exact isWordChar_of_isBlank hblank

lemma continuesWord_tail (line : Text) : continuesWord (splitComment line).2 = false := by
  cases htail : (splitComment line).2 with
  | nil => rfl
  | cons c rest =>
    obtain hall | ⟨-, gap, comment, hsplit, hgap⟩ := tail_cases line
    · rw [htail] at hall
      exact isWordChar_of_isBlank (List.all_eq_true.mp hall c List.mem_cons_self)
    · rw [← htail, hsplit]
      exact continuesWord_blanks_cons hgap (by decide) comment

/-- The head of a function is told from the code of its line. -/
lemma namesInitializer?_tail (code line : Text) :
    namesInitializer? (code ++ (splitComment line).2) = namesInitializer? code := by
  rw [namesInitializer?, namesInitializer?]
  cases hcode : functionName? code with
  | some pair =>
    obtain ⟨name, rest⟩ := pair
    obtain ⟨start, hstart, hne, hname, hrest, rfl⟩ := functionName?_eq_some_iff.mp hcode
    have hends : continuesWord (rest ++ (splitComment line).2) = false := by
      cases rest with
      | nil => exact continuesWord_tail line
      | cons c rest => exact hrest
    have hline := functionName?_eq_some_iff.mpr ⟨start, hstart, hne, hname, hends, rfl⟩
    rw [List.append_assoc, List.append_assoc, hline]
    rfl
  | none =>
    cases hline : functionName? (code ++ (splitComment line).2) with
    | none => rfl
    | some pair =>
      obtain ⟨name, rest⟩ := pair
      obtain ⟨start, hstart, hne, hname, hrest, hsplit⟩ := functionName?_eq_some_iff.mp hline
      -- The name ends in the code, so its head is one of the code.
      have hinside : ∀ more : Text, code = start ++ (name ++ more) →
          continuesWord more = false → False := fun more hmore hends => by
        rw [functionName?_eq_some_iff.mpr ⟨start, hstart, hne, hname, hends, hmore⟩] at hcode
        cases hcode
      rw [← List.append_assoc] at hsplit
      obtain ⟨more, hhead, htail⟩ | ⟨more, hmore, htail⟩ := List.append_eq_append_iff.mp hsplit
      · obtain rfl | ⟨more, c, rfl⟩ := List.eq_nil_or_concat' more
        · exact (hinside [] (by rw [List.append_nil] at hhead ⊢; exact hhead.symm) rfl).elim
        · have hbare := isBare_append.mpr ⟨hstart.isBare, isBare_of_word hname⟩
          obtain ⟨name, d, rfl⟩ := List.eq_nil_or_concat' name |>.resolve_left hne
          have hword : isWordChar d = true := List.all_eq_true.mp hname d (by simp)
          rw [hhead] at hbare
          rw [← List.append_assoc, ← List.append_assoc] at hhead
          obtain rfl : d = c := by simpa using (List.append_inj' hhead rfl).2
          rw [not_word_of_tail htail (isBare_append.mp hbare).2] at hword
          cases hword
      · rw [List.append_assoc] at hmore
        refine (hinside more hmore ?_).elim
        rw [htail] at hrest
        cases more with
        | nil => rfl
        | cons c more => exact hrest

/-- Whether what follows a line belongs to an initializer. -/
def initializerAfter (inInitializer : Bool) (line : Text) : Bool :=
  (namesInitializer? line).getD inInitializer

lemma initializerAfter_eq (inInitializer : Bool) (line : Text) :
    initializerAfter inInitializer line = match functionName? line with
      | some (name, _) => name == "__init__"
      | none => inInitializer := by
  rw [initializerAfter, namesInitializer?]
  cases functionName? line <;> rfl

/-- A line, read from a state, with its references mended if it is a statement. -/
def referenceLine (inInitializer : Bool) (s : LayoutState) (line : Text) : Text :=
  if (s.step line).2.role = .statement then
    revisedLine (referenceDraft (initializerAfter inInitializer line)) line
  else line

/-- Whether what follows a line that is read from a state belongs to an initializer. -/
def initializerBelow (inInitializer : Bool) (s : LayoutState) (line : Text) : Bool :=
  if (s.step line).2.role = .statement then initializerAfter inInitializer line else inInitializer

/-- Lines, read from a state, with their references mended. -/
def referenceLines (inInitializer : Bool) (s : LayoutState) : List Text → List Text
  | [] => []
  | line :: rest => referenceLine inInitializer s line ::
      referenceLines (initializerBelow inInitializer s line) (s.step line).1 rest

section

variable (inInitializer : Bool) (s : LayoutState)

lemma referenceStep_site (n : Nat) (line : Text) (later : List (LineInfo × Text)) :
    (referenceStep inInitializer ⟨n, (s.step line).2, line, later⟩).1 =
        initializerBelow inInitializer s line ∧
      (referenceStep inInitializer ⟨n, (s.step line).2, line, later⟩).2.line =
        referenceLine inInitializer s line := by
  unfold referenceStep referenceLine initializerBelow
  simp only [Site.isStatement, beq_iff_eq]
  split
  · rw [initializerAfter_eq]
    exact ⟨rfl, rfl⟩
  · exact ⟨rfl, rfl⟩

lemma visit_referenceStep (n : Nat) (lines : List Text) :
    (visit referenceStep inInitializer (Site.numbered n ((s.layout lines).zip lines))).map
      (·.line) = referenceLines inInitializer s lines := by
  induction lines generalizing inInitializer s n with
  | nil => rfl
  | cons line rest ih =>
    obtain ⟨hstate, hline⟩ := referenceStep_site inInitializer s n line
      (((s.step line).1.layout rest).zip rest)
    rw [LayoutState.layout, List.zip_cons_cons, Site.numbered, visit, List.map_cons, hline, hstate,
      referenceLines, ih]

lemma step_referenceLine (line : Text) :
    s.step (referenceLine inInitializer s line) = s.step line := by
  rw [referenceLine]
  split
  · next hrole =>
    obtain rfl := LayoutState.eq_start_of_statement hrole
    exact (sameLayout_referenceDraft _ (codeOfLine line)).step
  · rfl

lemma layout_referenceLines (lines : List Text) :
    s.layout (referenceLines inInitializer s lines) = s.layout lines := by
  induction lines generalizing inInitializer s with
  | nil => rfl
  | cons line rest ih =>
    rw [referenceLines, LayoutState.layout, LayoutState.layout, step_referenceLine, ih]

lemma initializerAfter_revisedLine (inInitializer' : Bool) (line : Text) :
    initializerAfter inInitializer (revisedLine (referenceDraft inInitializer') line) =
      initializerAfter inInitializer line := by
  have hline : namesInitializer? line = namesInitializer? (codeOfLine line) := by
    conv_lhs => rw [← splitComment_append line]
    exact namesInitializer?_tail _ line
  rw [initializerAfter, initializerAfter, revisedLine, namesInitializer?_tail,
    namesInitializer?_referenceDraft, hline]

lemma initializerBelow_referenceLine (line : Text) :
    initializerBelow inInitializer s (referenceLine inInitializer s line) =
      initializerBelow inInitializer s line := by
  rw [initializerBelow, initializerBelow, step_referenceLine]
  split
  · next hrole => rw [referenceLine, if_pos hrole, initializerAfter_revisedLine]
  · rfl

lemma referenceLine_referenceLine (line : Text) :
    referenceLine inInitializer s (referenceLine inInitializer s line) =
      referenceLine inInitializer s line := by
  by_cases hrole : (s.step line).2.role = .statement
  · have hrecodes := (sameLayout_referenceDraft (initializerAfter inInitializer line)
      (codeOfLine line)).recodes
    have hline : referenceLine inInitializer s line =
        revisedLine (referenceDraft (initializerAfter inInitializer line)) line := if_pos hrole
    have hagain : referenceLine inInitializer s (referenceLine inInitializer s line) =
        revisedLine (referenceDraft (initializerAfter inInitializer line))
          (referenceLine inInitializer s line) := by
      conv_lhs => rw [referenceLine, step_referenceLine, if_pos hrole]
      rw [hline, initializerAfter_revisedLine]
    rw [hagain, hline, hrecodes.revisedLine_twice_iff, referenceDraft_referenceDraft]
  · rw [referenceLine, step_referenceLine, if_neg hrole]

lemma referenceLines_referenceLines (lines : List Text) :
    referenceLines inInitializer s (referenceLines inInitializer s lines) =
      referenceLines inInitializer s lines := by
  induction lines generalizing inInitializer s with
  | nil => rfl
  | cons line rest ih =>
    rw [referenceLines, referenceLines, referenceLine_referenceLine, initializerBelow_referenceLine,
      step_referenceLine, ih]

end

/-! ## Texts -/

/-- For each line, whether what follows it belongs to an initializer: the state that goes from line
to line. -/
def initializerStates (inInitializer : Bool) (sites : List Site) : List Bool :=
  visit (fun inInitializer s =>
    ((referenceStep inInitializer s).1, (referenceStep inInitializer s).1)) inInitializer sites

lemma initializerStates_referenceLines (inInitializer : Bool) (s : LayoutState) (n : Nat)
    (lines : List Text) :
    initializerStates inInitializer (Site.numbered n
        ((s.layout (referenceLines inInitializer s lines)).zip
          (referenceLines inInitializer s lines))) =
      initializerStates inInitializer (Site.numbered n ((s.layout lines).zip lines)) := by
  induction lines generalizing inInitializer s n with
  | nil => rfl
  | cons line rest ih =>
    have hstate := fun line later => (referenceStep_site inInitializer s n line later).1
    have hrest := ih (initializerBelow inInitializer s line) (s.step line).1 (n + 1)
    rw [initializerStates, initializerStates] at hrest ⊢
    rw [referenceLines, LayoutState.layout, LayoutState.layout, List.zip_cons_cons,
      List.zip_cons_cons, Site.numbered, Site.numbered, visit, visit, hstate, hstate,
      initializerBelow_referenceLine, step_referenceLine, hrest]

lemma visit_referenceStep_revisedTo (text : Text) : List.Forall₂ Site.RevisedTo
    (Site.ofLines text.lines) (visit referenceStep false (Site.ofLines text.lines)) :=
  visit_forall₂ (fun inInitializer s hs =>
    (referenceStep_mendedTo inInitializer (s := s) (Site.oneLine_of_mem hs)).toRevisedTo) false

lemma lines_references (text : Text) :
    (references text).text.lines = referenceLines false .start text.lines :=
  (lines_outcome (visit_referenceStep_revisedTo text)).trans
    (visit_referenceStep false .start 1 text.lines)

lemma referenceDraft_fixes (inInitializer : Bool) (code : Text) :
    ∀ finding ∈ (referenceDraft inInitializer code).findings, ∃ fix, finding = .fixed fix := by
  have hmend : ∀ (d : Draft) (fix : Fix) (revision : Text → Option Text),
      (∀ finding ∈ d.findings, ∃ fix, finding = .fixed fix) →
      ∀ finding ∈ (d.mend fix revision).findings, ∃ fix, finding = .fixed fix := by
    intro d fix revision hd finding hfinding
    rw [Draft.mend] at hfinding
    split at hfinding
    · rcases List.mem_append.mp hfinding with hold | hnew
      · exact hd finding hold
      · exact ⟨fix, List.mem_singleton.mp hnew⟩
    · exact hd finding hfinding
  rw [referenceDraft]
  refine List.foldlRecOn callFixes _ ?_ fun d hd fix _ => hmend d _ _ hd
  split
  · exact hmend _ _ _ fun _ hnil => absurd hnil List.not_mem_nil
  · exact fun _ hnil => absurd hnil List.not_mem_nil

/-- Everything that is said about a line is a fault that was mended. -/
def OnlyFixes (r : Revised) : Prop := ∀ finding ∈ r.findings, ∃ fix, finding = .fixed fix

lemma onlyFixes_referenceStep (inInitializer : Bool) (s : Site) :
    OnlyFixes (referenceStep inInitializer s).2 := by
  rw [referenceStep]
  split
  · dsimp only [OnlyFixes, Revised.ofDraft]
    exact referenceDraft_fixes _ s.code
  · exact fun finding hnil => absurd hnil List.not_mem_nil

lemma references_no_advice (text : Text) :
    ∀ c ∈ (references text).changes, c.isAdvice = false := by
  have hvisit : List.Forall₂ (fun _ r => OnlyFixes r) (Site.ofLines text.lines)
      (visit referenceStep false (Site.ofLines text.lines)) :=
    visit_forall₂ (fun inInitializer s _ => onlyFixes_referenceStep inInitializer s) false
  have hfixes : ∀ r ∈ visit referenceStep false (Site.ofLines text.lines), OnlyFixes r :=
    forall_of_forall₂ (p := OnlyFixes) (fun _ _ h => h) hvisit
  intro c hc
  simp only [references, Revised.outcome, List.mem_flatMap, List.mem_map] at hc
  obtain ⟨r, hr, finding, hfinding, rfl⟩ := hc
  obtain ⟨fix, rfl⟩ := hfixes r hr finding hfinding
  rfl

/-- Mending the references of a text a second time does nothing: each line has the role and each
function the state that it had. A replacement makes no call that is replaced: one that stands in
the code stood there before, and is not the one that was replaced. And an assignment that was mended
is not turned around again. -/
theorem references_twice (text : Text) :
    references (references text).text = ⟨(references text).text, []⟩ ∧
    layout (references text).text.lines = layout text.lines ∧
    initializerStates false (Site.ofLines (references text).text.lines) =
      initializerStates false (Site.ofLines text.lines) ∧
    (∀ code, turnAssignment? (referenceDraft true code).code = none) ∧
    ∀ fix ∈ callFixes, ∀ other ∈ callFixes, ∀ code front rest,
      (callMark other.1).StandsIn (substitute (callRule fix.1 fix.2) code) front rest →
      other ≠ fix ∧ ∃ front' rest', (callMark other.1).StandsIn code front' rest' ∧
        rest = substituteFrom (callRule fix.1 fix.2) (placeBehind (front' ++ other.1)) 0 rest' := by
  have hlines := lines_references text
  have htext : (references (references text).text).text = (references text).text := by
    have hagain := lines_references (references text).text
    rw [hlines, referenceLines_referenceLines, ← hlines] at hagain
    rw [← unlines_lines (references (references text).text).text, hagain, unlines_lines]
  have hchanges : (references (references text).text).changes = [] := by
    refine List.eq_nil_iff_forall_not_mem.mpr fun c hc => ?_
    have hadvice := LineByLine.advice ⟨_, visit_referenceStep_revisedTo _, rfl⟩ htext c hc
    rw [references_no_advice _ c hc] at hadvice
    cases hadvice
  refine ⟨Outcome.eq_unchanged_iff.mpr ⟨htext, hchanges⟩, ?_, ?_,
    turnAssignment?_referenceDraft, ?_⟩
  · rw [hlines]
    exact layout_referenceLines false .start text.lines
  · rw [hlines]
    exact initializerStates_referenceLines false .start 1 text.lines
  · intro fix hfix other hother code front rest hstands
    obtain ⟨halike, hapart⟩ := settled_callMarks _ (mem_callMarks hfix)
    have hmem := mem_callMarks hother
    rw [callRule_eq_mark] at hstands ⊢
    obtain ⟨hne, hbefore⟩ :=
      exists_standsIn halike (hapart _ hmem) (settled_callMarks _ hmem).1.1.1 hstands
    exact ⟨fun heq => hne (by rw [heq]), hbefore⟩

end Repair
end Marginalia
