import Marginalia.Proofs.ImprovedReferences
import Marginalia.Repair.Indentation

/-!
# Rebuilding indentation twice

What rebuilds the indentation of a text changes nothing but blanks that lines start with. The roles
of lines do not depend on these, so where the indentation was rebuilt, it is as it would be rebuilt
again.
-/

namespace Marginalia

namespace Text

/-! Blanks that a text starts with. -/

lemma head?_blanks_cons {gap : Text} {c d : Char} (hgap : gap.isAllBlank = true)
    (hd : isBlank d = false) (hc : c ≠ d) (rest : Text) : (gap ++ c :: rest).head? ≠ some d := by
  cases gap with
  | nil => simpa using hc
  | cons e gap =>
    have he : isBlank e = true := List.all_eq_true.mp hgap e List.mem_cons_self
    simpa using ne_of_isBlank he hd

lemma trimStart_eq_cons_iff {t rest : Text} {c : Char} : trimStart t = c :: rest ↔
    isBlank c = false ∧ ∃ gap : Text, gap.isAllBlank = true ∧ t = gap ++ c :: rest := by
  constructor
  · intro h
    refine ⟨?_, t.indentation, isAllBlank_indentation t, ?_⟩
    · have hhead := List.head?_dropWhile_not isBlank t
      rw [show t.dropWhile isBlank = c :: rest from h] at hhead
      simpa using hhead
    · conv_lhs => rw [trimStart_append t, h]
  · rintro ⟨hc, gap, hgap, rfl⟩
    exact trimStart_blanks_cons hgap hc rest

lemma afterBlanksAnd?_cons_iff {t : Text} {c : Char} (hc : isBlank c = false) (mark : Text)
    {rest : Text} : afterBlanksAnd? (c :: mark) t = some rest ↔
      ∃ gap : Text, gap.isAllBlank = true ∧ t = gap ++ (c :: mark ++ rest) := by
  rw [afterBlanksAnd?, after?_eq_some_iff]
  exact trimStart_eq_cons_iff.trans ⟨And.right, fun h => ⟨hc, h⟩⟩

lemma trimStart_trimStart (t : Text) : trimStart (trimStart t) = trimStart t := by
  conv_rhs => rw [trimStart_append t, trimStart_blanks (isAllBlank_indentation t)]

lemma indentation_trimStart (t : Text) : indentation (trimStart t) = [] := by
  have happ := trimStart_append (trimStart t)
  rw [trimStart_trimStart] at happ
  exact List.append_left_eq_self.mp happ.symm

lemma indentation_blanks {blanks : Text} (h : blanks.isAllBlank = true) (t : Text) :
    indentation (blanks ++ t) = blanks ++ indentation t :=
  List.takeWhile_append_of_pos (List.all_eq_true.mp h)

lemma trimStart_trimEnd_blanks {blanks : Text} (h : blanks.isAllBlank = true) (t : Text) :
    trimStart (trimEnd (blanks ++ t)) = trimStart (trimEnd t) := by
  by_cases ht : trimEnd t = []
  · have hall : (blanks ++ t).isAllBlank = true := by
      have hblank : t.isAllBlank = true := (dropEnd_eq_nil_iff isBlank t).mp ht
      rw [isAllBlank, List.all_append, Bool.and_eq_true]
      exact ⟨h, hblank⟩
    rw [trimEnd_blanks hall, ht]
  · rw [trimEnd, dropEnd_append_of_ne_nil ht, trimStart_blanks h]
    rfl

/-- A text that starts with no blank has no start that does. -/
lemma trimStart_of_append {head tail : Text} (h : indentation (head ++ tail) = []) :
    trimStart head = head := by
  cases head with
  | nil => rfl
  | cons c rest =>
    rw [indentation, List.cons_append, List.takeWhile_cons] at h
    split at h
    · cases h
    · next hc => rw [trimStart, List.dropWhile_cons_of_neg hc]

lemma trimStart_trimEnd {t : Text} (h : indentation t = []) : trimStart (trimEnd t) = trimEnd t := by
  obtain ⟨margin, happ, -⟩ := trimEnd_append t
  rw [happ] at h
  exact trimStart_of_append h

end Text

namespace Repair

open Text

/-- The code of a line without its indentation. -/
lemma trimStart_codeOfLine (line : Text) :
    trimStart (codeOfLine line) = codeOfLine (trimStart line) := by
  have hblank := isAllBlank_indentation line
  have hsplit := splitAtCode?_append oneChar_startsComment .start line.indentation (trimStart line)
  rw [← trimStart_append, noComment_of_blanks _ hblank, CodeState.run_blanks rfl hblank] at hsplit
  rw [codeOfLine_eq, codeOfLine_eq, hsplit]
  cases hcode : splitAtCode? startsComment .start (trimStart line) with
  | none =>
    have hline := trimStart_trimEnd_blanks (isAllBlank_indentation line) (trimStart line)
    rw [← trimStart_append] at hline
    exact hline.trans (trimStart_trimEnd (indentation_trimStart line))
  | some pair =>
    obtain ⟨head, tail⟩ := pair
    have hhead : trimStart head = head := by
      have hindent : indentation (head ++ tail) = [] := by
        rw [← eq_of_splitAtCode? hcode, indentation_trimStart]
      exact trimStart_of_append hindent
    have hindent : indentation head = [] := by rw [← hhead, indentation_trimStart]
    exact (trimStart_trimEnd_blanks (isAllBlank_indentation line) head).trans
      (trimStart_trimEnd hindent)

/-! What is read from a line does not depend on its indentation. -/

lemma countCode_plain {p : Char → Bool} {head : Text} (hplain : head.all isPlain = true)
    (hp : ∀ c ∈ head, p c = false) (t : Text) : countCode p (head ++ t) = countCode p t := by
  have hindex : ∀ (t : Text) (s : CodeState) (i j : Nat),
      (codeCharsFrom s i t).countP (fun c => p c.char) =
        (codeCharsFrom s j t).countP fun c => p c.char := by
    intro t
    induction t with
    | nil => exact fun _ _ _ => rfl
    | cons c rest ih =>
      intro s i j
      simp only [codeCharsFrom]
      cases (s.step c).2 with
      | none => exact ih _ _ _
      | some depth =>
        simp only [List.countP_cons]
        rw [ih (s.step c).1 (i + c.utf8Size) (j + c.utf8Size)]
  have hhead : ∀ i, (codeCharsFrom .start i (head ++ t)).countP (fun c => p c.char) =
      (codeCharsFrom .start 0 t).countP fun c => p c.char := by
    induction head with
    | nil => exact fun i => hindex t .start i 0
    | cons c rest ih =>
      rw [List.all_cons, Bool.and_eq_true] at hplain
      intro i
      have hstep := CodeState.step_plain_start hplain.1
      simp only [List.cons_append, codeCharsFrom, hstep, List.countP_cons,
        hp c List.mem_cons_self]
      exact ih hplain.2 (fun d hd => hp d (List.mem_cons_of_mem _ hd)) _
  exact hhead 0

lemma countCode_blanks {p : Char → Bool} (hp : ∀ c, isBlank c = true → p c = false) {blanks : Text}
    (h : blanks.isAllBlank = true) (t : Text) : countCode p (blanks ++ t) = countCode p t := by
  have hblank := List.all_eq_true.mp h
  exact countCode_plain (List.all_eq_true.mpr fun c hc => isPlain_of_isBlank (hblank c hc))
    (fun c hc => hp c (hblank c hc)) t

lemma endsWith_blanks (mark : Char) (hmark : isBlank mark = false) {blanks : Text}
    (h : blanks.isAllBlank = true) (t : Text) :
    (blanks ++ t).endsWith [mark] = t.endsWith [mark] := by
  rw [endsWith_char, endsWith_char, List.getLast?_append]
  cases hl : t.getLast? with
  | some c => rfl
  | none =>
    cases hb : blanks.getLast? with
    | none => rfl
    | some c =>
      have hblank : isBlank c = true := List.all_eq_true.mp h c (List.mem_of_getLast? hb)
      simp [ne_of_isBlank hblank hmark]

lemma countTriples_blanks {q : Char} (hq : isBlank q = false) {blanks : Text}
    (h : blanks.isAllBlank = true) (t : Text) :
    countTriples q (blanks ++ t) = countTriples q t := by
  induction blanks with
  | nil => rfl
  | cons c rest ih =>
    rw [isAllBlank, List.all_cons, Bool.and_eq_true] at h
    rw [← ih h.2, List.cons_append]
    have hne : c ≠ q := ne_of_isBlank h.1 hq
    cases hr : rest ++ t with
    | nil => rfl
    | cons d more =>
      cases more with
      | nil => rfl
      | cons e more => simp [countTriples, hne]

lemma afterCode_trimStart (s : LayoutState) (code : Text) :
    s.afterCode (trimStart code) = s.afterCode code := by
  have hblank := isAllBlank_indentation code
  have htriple : openedTriple? code = openedTriple? (trimStart code) := by
    conv_lhs => rw [trimStart_append code]
    have hopen : ∀ q, isBlank q = false →
        leavesOpen q (code.indentation ++ trimStart code) = leavesOpen q (trimStart code) := by
      intro q hq
      rw [leavesOpen, leavesOpen, countTriples_blanks hq hblank]
    simp only [openedTriple?, List.find?_cons, List.find?_nil, hopen '"' (by decide),
      hopen '\'' (by decide)]
  have hopener := countCode_blanks (p := isOpener) (fun c hc => by
    simp [isOpener, ne_of_isBlank hc (show isBlank '(' = false by decide),
      ne_of_isBlank hc (show isBlank '[' = false by decide),
      ne_of_isBlank hc (show isBlank '{' = false by decide)]) hblank (trimStart code)
  have hcloser := countCode_blanks (p := isCloser) (fun c hc => by
    simp [isCloser, ne_of_isBlank hc (show isBlank ')' = false by decide),
      ne_of_isBlank hc (show isBlank ']' = false by decide),
      ne_of_isBlank hc (show isBlank '}' = false by decide)]) hblank (trimStart code)
  have hend := endsWith_blanks '\\' (by decide) hblank (trimStart code)
  rw [← trimStart_append] at hopener hcloser hend
  have hmark : ("\\" : Text) = ['\\'] := rfl
  simp only [LayoutState.afterCode, hopener, hcloser, hmark, hend, htriple]

/-- A line outside literals is read as any line that differs from it in its indentation only. -/
lemma step_of_trimStart {s : LayoutState} (hs : s.triple = none) {line line' : Text}
    (h : trimStart line' = trimStart line) : s.step line' = s.step line := by
  have hcode : s.afterCode (codeOfLine line') = s.afterCode (codeOfLine line) := by
    rw [← afterCode_trimStart, trimStart_codeOfLine, h, ← trimStart_codeOfLine,
      afterCode_trimStart]
  have hrole : s.roleOf line' = s.roleOf line := by
    rw [LayoutState.roleOf, LayoutState.roleOf, trim, trim, h]
  simp only [LayoutState.step, hs, hrole, hcode]

/-! The lines that are rebuilt. -/

/-- The line that a step of rebuilding makes of a line with a role. -/
def Level.lineOf (l : Level) (role : Role) (line : Text) : Text :=
  match role with
  | .statement => (l.startStatement line).2
  | .continuation => Level.shifted line l.shift
  | _ => line

/-- Where the rebuilding stands when the line has been put in its place. -/
def Level.after (l : Level) (info : LineInfo) (line : Text) : Level :=
  let started := if info.role = .statement then (l.startStatement line).1 else l
  if info.endsStatement then started.endStatement (l.lineOf info.role line) else started

lemma Level.step_eq (l : Level) (site : Site) : (l.step site).1 = l.after site.info site.line ∧
    (l.step site).2.line = l.lineOf site.info.role site.line := by
  unfold Level.step Level.after Level.lineOf
  cases site.info.role <;> exact ⟨rfl, rfl⟩

lemma Level.step_findings (l : Level) (site : Site) : (l.step site).2.findings =
    if (l.step site).2.line = site.line then [] else [.fixed .indentation] := by
  unfold Level.step
  cases site.info.role <;> rfl

/-- The lines of a text, read from a state, with their indentation rebuilt from a level. -/
def rebuilt (s : LayoutState) (l : Level) : List Text → List Text
  | [] => []
  | line :: rest =>
    l.lineOf (s.step line).2.role line :: rebuilt (s.step line).1 (l.after (s.step line).2 line) rest

lemma visit_lines (s : LayoutState) (l : Level) (n : Nat) (lines : List Text) :
    (visit Level.step l (Site.numbered n ((s.layout lines).zip lines))).map (·.line) =
      rebuilt s l lines := by
  induction lines generalizing s l n with
  | nil => rfl
  | cons line rest ih =>
    have hstep := l.step_eq ⟨n, (s.step line).2, line, (((s.step line).1.layout rest).zip rest)⟩
    simp only [LayoutState.layout, List.zip_cons_cons, Site.numbered, visit, List.map_cons,
      rebuilt, hstep, ih]

lemma isAllBlank_spaces (n : Nat) : isAllBlank (List.replicate n ' ') = true := by
  have hall : (List.replicate n ' ').all isBlank = true := by
    rw [List.all_replicate]
    cases n <;> rfl
  exact hall

lemma trimStart_lineOf (l : Level) (role : Role) (line : Text) :
    trimStart (l.lineOf role line) = trimStart line := by
  cases role with
  | statement =>
    show trimStart (List.replicate _ ' ' ++ trimStart line) = _
    rw [trimStart_blanks (isAllBlank_spaces _), trimStart_trimStart]
  | continuation =>
    show trimStart (Level.shifted line l.shift) = _
    rw [Level.shifted]
    split
    · rw [trimStart_blanks (isAllBlank_spaces _)]
    · rw [trimStart_blanks (isAllBlank_spaces _), trimStart_trimStart]
  | _ => rfl

/-- A line is read as it was when its indentation has been rebuilt. -/
lemma step_lineOf (s : LayoutState) (l : Level) (line : Text) :
    s.step (l.lineOf (s.step line).2.role line) = s.step line := by
  cases ht : s.triple with
  | none => exact step_of_trimStart ht (trimStart_lineOf l _ line)
  | some q =>
    have hrole : (s.step line).2.role = .stringBody := by simp only [LayoutState.step, ht]
    rw [hrole]
    rfl

/-- The level without the columns by which the statement under way was moved. -/
def Level.settled (l : Level) : Level := { l with shift := 0 }

lemma Level.lineOf_settled (l : Level) (role : Role) (line : Text) :
    l.settled.lineOf role (l.lineOf role line) = l.lineOf role line := by
  cases role with
  | statement =>
    simp only [Level.lineOf, Level.startStatement, Level.settled,
      trimStart_blanks (isAllBlank_spaces _), trimStart_trimStart]
  | continuation => rfl
  | _ => rfl

lemma Level.startStatement_settled (l : Level) (line : Text) :
    (l.settled.startStatement (l.lineOf .statement line)).1 = (l.startStatement line).1.settled := by
  have htrim := trimStart_lineOf l .statement line
  have hlength : (l.lineOf .statement line).indentation.length =
      levelWidth * (l.startStatement line).1.level := by
    show (indentation (List.replicate _ ' ' ++ trimStart line)).length = _
    rw [indentation_blanks (isAllBlank_spaces _), indentation_trimStart, List.append_nil,
      List.length_replicate]
    rfl
  generalize l.lineOf .statement line = line' at htrim hlength
  simp only [Level.startStatement, Level.settled, htrim] at hlength ⊢
  rw [hlength]
  simp

lemma Level.endStatement_settled (l : Level) (line : Text) :
    l.settled.endStatement line = (l.endStatement line).settled := by
  unfold Level.endStatement
  split
  · rfl
  · by_cases he : l.exits = true
    · simp [Level.settled, he]
    · simp [Level.settled, he]

lemma Level.after_settled (l : Level) (info : LineInfo) (line : Text) :
    l.settled.after info (l.lineOf info.role line) = (l.after info line).settled := by
  have hstarted : (if info.role = .statement then
      (l.settled.startStatement (l.lineOf info.role line)).1 else l.settled) =
      (if info.role = .statement then (l.startStatement line).1 else l).settled := by
    split
    · next hrole =>
      rw [hrole]
      exact l.startStatement_settled line
    · rfl
  unfold Level.after
  simp only [hstarted, Level.lineOf_settled, Level.endStatement_settled]
  split <;> rfl

lemma rebuilt_rebuilt (s : LayoutState) (l : Level) (lines : List Text) :
    rebuilt s l.settled (rebuilt s l lines) = rebuilt s l lines := by
  induction lines generalizing s l with
  | nil => rfl
  | cons line rest ih =>
    simp only [rebuilt, step_lineOf, Level.lineOf_settled, Level.after_settled, ih]

/-! Texts. -/

lemma rebuilt_trimStart (s : LayoutState) (l : Level) (lines : List Text) :
    List.Forall₂ (fun line line' => trimStart line' = trimStart line) lines
      (rebuilt s l lines) := by
  induction lines generalizing s l with
  | nil => exact .nil
  | cons line rest ih => exact .cons (trimStart_lineOf l _ line) (ih _ _)

lemma oneLine_of_trimStart {line line' : Text} (h : OneLine line)
    (hline : ∃ n, line' = List.replicate n ' ' ++ line ∨
      line' = List.replicate n ' ' ++ trimStart line) : OneLine line' := by
  have hspaces : ∀ n, OneLine (List.replicate n ' ') := fun n hmem =>
    absurd (List.eq_of_mem_replicate hmem) (by decide)
  obtain ⟨n, rfl | rfl⟩ := hline
  · exact oneLine_append.mpr ⟨hspaces n, h⟩
  · exact oneLine_append.mpr ⟨hspaces n, h.trimStart⟩

lemma oneLine_lineOf (l : Level) (role : Role) {line : Text} (h : OneLine line) :
    OneLine (l.lineOf role line) := by
  refine oneLine_of_trimStart h ?_
  cases role with
  | statement => exact ⟨_, .inr rfl⟩
  | continuation =>
    show ∃ n, Level.shifted line l.shift = _ ∨ Level.shifted line l.shift = _
    rw [Level.shifted]
    split
    · exact ⟨_, .inl rfl⟩
    · exact ⟨_, .inr rfl⟩
  | _ => exact ⟨0, .inl rfl⟩

lemma oneLine_rebuilt (s : LayoutState) (l : Level) {lines : List Text}
    (h : ∀ line ∈ lines, OneLine line) : ∀ line ∈ rebuilt s l lines, OneLine line := by
  induction lines generalizing s l with
  | nil => exact fun _ hmem => absurd hmem List.not_mem_nil
  | cons line rest ih =>
    intro line' hmem
    rcases List.mem_cons.mp hmem with rfl | hrest
    · exact oneLine_lineOf l _ (h line List.mem_cons_self)
    · exact ih _ _ (fun line hline => h line (List.mem_cons_of_mem _ hline)) line' hrest

lemma lines_unlines_of_oneLine {lines : List Text} (hne : lines ≠ [])
    (h : ∀ line ∈ lines, OneLine line) : (unlines lines).lines = lines := by
  rw [lines_unlines hne, List.flatMap_congr fun line hline => lines_of_oneLine (h line hline),
    List.flatMap_singleton']

lemma reindent_text (text : Text) : (reindent text).text =
    if indentationBroken text.lines then unlines (rebuilt .start .start text.lines) else text := by
  rw [reindent]
  split
  · exact congrArg unlines (visit_lines .start .start 1 text.lines)
  · rfl

lemma lines_reindent (text : Text) : (reindent text).text.lines =
    if indentationBroken text.lines then rebuilt .start .start text.lines else text.lines := by
  rw [reindent_text]
  split
  · refine lines_unlines_of_oneLine (fun hnil => lines_ne_nil text ?_)
      (oneLine_rebuilt .start .start fun line hline => oneLine_of_mem_lines hline)
    have hlength := (rebuilt_trimStart .start .start text.lines).length_eq
    rw [hnil] at hlength
    exact List.length_eq_zero_iff.mp hlength
  · rfl

/-- Indentation that was rebuilt is not rebuilt again. -/
theorem reindent_reindent (text : Text) :
    (reindent (reindent text).text).text = (reindent text).text := by
  rw [reindent_text (reindent text).text, lines_reindent, reindent_text text]
  split
  · split
    · exact congrArg unlines (rebuilt_rebuilt .start .start text.lines)
    · rfl
  · rfl

lemma even_of_trimStart {line line' : Text} (h : trimStart line' = trimStart line) :
    Even line line' := by
  have hstart : ∀ line, Even (trimStart line) line := by
    intro line
    have hblank := isAllBlank_indentation line
    refine ⟨weight_trimStart line, ?_, ?_⟩
    · conv_rhs => rw [trimStart_append line, badness_gap_start (all_isGap_of_isAllBlank hblank)]
    · conv_rhs => rw [trimStart_append line,
        dotsBehind_append (not_mem_of_all hblank (by decide))]
  obtain ⟨hw, hb, hd⟩ := hstart line
  obtain ⟨hw', hb', hd'⟩ := h ▸ hstart line'
  exact ⟨hw.symm.trans hw', hb.symm.trans hb', hd.symm.trans hd'⟩

lemma Even.unlines {lines lines' : List Text} (h : List.Forall₂ Even lines lines') :
    Even (unlines lines) (unlines lines') := by
  induction h with
  | nil => exact ⟨rfl, rfl, rfl⟩
  | cons ha hrest ih =>
    cases hrest with
    | nil => exact ha
    | cons hb hrest =>
      obtain ⟨hw, hb, hd⟩ := ha
      obtain ⟨hw', hb', hd'⟩ := ih
      rw [unlines_cons_cons, unlines_cons_cons]
      refine ⟨?_, ?_, ?_⟩
      · rw [weight_append, weight_append, weight_cons, weight_cons, hw, hw']
      · rw [badness_newline, badness_newline, hb, hb']
      · rw [dotsBehind_newline, dotsBehind_newline, hd, hd']

lemma reindent_even (text : Text) : Even text (reindent text).text := by
  rw [reindent_text]
  split
  · have hlines : List.Forall₂ Even text.lines (rebuilt .start .start text.lines) :=
      (rebuilt_trimStart .start .start text.lines).imp fun _ _ h => even_of_trimStart h
    have heven := Even.unlines hlines
    rwa [unlines_lines] at heven
  · exact ⟨rfl, rfl, rfl⟩

end Repair
end Marginalia
