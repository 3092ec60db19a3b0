import Marginalia.Proofs.PaddedLines
import Mathlib.Data.List.Flatten

/-!
# Line endings

Repair leaves blanks at the ends of lines where they are and makes of the lines what it makes of
them without such blanks. A carriage return is a blank, so repair does not tell lines that end in
one, and then in a newline, from lines that end in a newline alone.
-/

namespace Marginalia.Repair

open Text

/-- A text, and the same with margins behind its lines. -/
def PaddedText (margins : List Text) (t t' : Text) : Prop :=
  Along PaddedLine margins t.lines t'.lines

/-- What was mended, without advice. -/
def Outcome.fixes (o : Outcome) : List Change := o.changes.filter fun c => !c.isAdvice

/-- An outcome, and the same with margins behind the lines of its text. -/
structure Outcome.PaddedBy (margins : List Text) (o o' : Outcome) : Prop where
  text : PaddedText margins o.text o'.text
  fixes : o'.fixes = o.fixes

/-! Texts with margins. -/

lemma Along.functional {margins lines lines₁ lines₂ : List Text}
    (h₁ : Along PaddedLine margins lines lines₁) (h₂ : Along PaddedLine margins lines lines₂) :
    lines₁ = lines₂ := by
  induction h₁ generalizing lines₂ with
  | nil =>
    cases h₂ with
    | nil => rfl
  | cons h _ ih =>
    cases h₂ with
    | cons h' hrest => rw [h.line, h'.line, ih hrest]

lemma Along.injective {margins lines₁ lines₂ lines' : List Text}
    (h₁ : Along PaddedLine margins lines₁ lines') (h₂ : Along PaddedLine margins lines₂ lines') :
    lines₁ = lines₂ := by
  induction h₁ generalizing lines₂ with
  | nil =>
    cases h₂ with
    | nil => rfl
  | cons h _ ih =>
    cases h₂ with
    | cons h' hrest =>
      have hsame := h.line.symm.trans h'.line
      rw [List.append_cancel_right hsame, ih hrest]

namespace PaddedText

variable {margins : List Text} {t t' u u' : Text}

lemma functional (h : PaddedText margins t t') (hu : PaddedText margins t u') : t' = u' := by
  rw [← unlines_lines t', ← unlines_lines u', Along.functional h hu]

lemma eq_iff (h : PaddedText margins t t') (hu : PaddedText margins u u') :
    u' = t' ↔ u = t := by
  constructor
  · rintro rfl
    rw [← unlines_lines u, ← unlines_lines t, Along.injective hu h]
  · rintro rfl
    exact hu.functional h

lemma margins_ne_nil (h : PaddedText margins t t') : margins ≠ [] := by
  intro hnil
  have hlength := (Along.length_eq h).1
  rw [hnil] at hlength
  exact lines_ne_nil t (List.length_eq_zero_iff.mp hlength.symm)

end PaddedText

/-! The outcome of a pass. -/

lemma outcome_fixes (revised : List Revised) : (Revised.outcome revised).fixes =
    revised.flatMap fun r => (r.findings.filter Finding.isFix).map fun f => .atLine f r.number := by
  have hisFix : ∀ n, ((fun c : Change => !c.isAdvice) ∘ fun f => Change.atLine f n) =
      Finding.isFix := by
    intro n
    funext f
    cases f <;> rfl
  rw [Outcome.fixes, Revised.outcome, List.filter_flatMap]
  refine List.flatMap_congr fun r _ => ?_
  rw [List.filter_map, hisFix]

lemma outcome_padded {margins : List Text} (hne : margins ≠ []) {revised revised' : List Revised}
    (h : Along Revised.PaddedBy margins revised revised') :
    (Revised.outcome revised).PaddedBy margins (Revised.outcome revised') := by
  obtain ⟨hlength, hlength'⟩ := h.length_eq
  have hlines : Along PaddedLine margins (revised.map (·.line)) (revised'.map (·.line)) :=
    h.map fun _ _ _ hr => hr.line
  have hboth := hlines.forall₂ (fun line line' => OneLine line ∧ OneLine line')
    fun _ _ _ hline => ⟨hline.oneLine_both.1, hline.oneLine⟩
  have hfirst : (unlines (revised.map (·.line))).lines = revised.map (·.line) := by
    refine lines_unlines_of_oneLine ?_ (forall_of_forall₂ (fun _ _ hb => hb.1) hboth.flip)
    intro hnil
    rw [List.map_eq_nil_iff.mp hnil] at hlength
    exact hne (List.length_eq_zero_iff.mp hlength)
  have hsecond : (unlines (revised'.map (·.line))).lines = revised'.map (·.line) := by
    refine lines_unlines_of_oneLine ?_ (forall_of_forall₂ (fun _ _ hb => hb.2) hboth)
    intro hnil
    rw [List.map_eq_nil_iff.mp hnil, ← hlength] at hlength'
    exact hne (List.length_eq_zero_iff.mp hlength')
  refine ⟨?_, ?_⟩
  · show Along PaddedLine margins (unlines (revised.map (·.line))).lines
      (unlines (revised'.map (·.line))).lines
    rw [hfirst, hsecond]
    exact hlines
  · have hfixes := h.map_eq (f := fun r => (r.findings.filter Finding.isFix).map fun f =>
      Change.atLine f r.number) (g := fun r => (r.findings.filter Finding.isFix).map fun f =>
      Change.atLine f r.number) fun _ _ _ hr => by rw [hr.fixes, hr.number]
    rw [outcome_fixes, outcome_fixes, List.flatMap_def, List.flatMap_def, hfixes]

/-! The passes. -/

section Passes

variable {margins : List Text} {t t' : Text}

lemma references_padded (h : PaddedText margins t t') :
    (references t).PaddedBy margins (references t') := by
  have hvisit := along_visit_same Revised.PaddedBy
    (fun _ b _ _ hs => referenceStep_padded b hs) (along_ofLines h) false
  exact outcome_padded h.margins_ne_nil hvisit

lemma headers_padded (h : PaddedText margins t t') :
    (headers t).PaddedBy margins (headers t') :=
  outcome_padded h.margins_ne_nil (reviseSites_padded (fun _ _ _ hs => hs.isWholeStatement_eq)
    (fun _ hone => (headerDraft_tells hone).oneLine) (along_ofLines h))

lemma printing_padded (h : PaddedText margins t t') :
    (printing t).PaddedBy margins (printing t') :=
  outcome_padded h.margins_ne_nil (reviseSites_padded (fun _ _ _ hs => hs.isWholeStatement_eq)
    (fun _ hone => (printDraft_tells hone).oneLine) (along_ofLines h))

lemma reindent_padded (h : PaddedText margins t t') :
    (reindent t).PaddedBy margins (reindent t') := by
  have hvisit := along_visit_same Revised.PaddedBy
    (fun _ l _ _ hs => levelStep_padded l hs) (along_ofLines h) .start
  rw [reindent, reindent, indentationBroken_padded h]
  split
  · exact outcome_padded h.margins_ne_nil hvisit
  · exact ⟨h, rfl⟩

lemma logic_padded (h : PaddedText margins t t') : (logic t).PaddedBy margins (logic t') := by
  have hvisit := along_visit (List.Forall₂ Trail) Revised.PaddedBy
    (fun _ _ _ _ _ habove hs => logicStep_padded habove hs) (along_ofLines h) .nil
  exact outcome_padded h.margins_ne_nil hvisit

lemma pitfalls?_padded (h : PaddedText margins t t') :
    pitfalls? t = none ∧ pitfalls? t' = none ∨
      ∃ o o', pitfalls? t = some o ∧ pitfalls? t' = some o' ∧ o.PaddedBy margins o' := by
  have hvisit := along_visit_same PaddedResult
    (fun _ texts _ _ hs => pitfallStep_padded (aritiesOf t.lines) texts hs)
    (along_ofLines h) []
  rw [pitfalls?, pitfalls?]
  simp only [aritiesOf_padded h]
  rcases along_mapM_id hvisit with ⟨hnone, hnone'⟩ | ⟨revised, revised', hsome, hsome', hrevised⟩
  · rw [hnone, hnone']
    exact .inl ⟨rfl, rfl⟩
  · rw [hsome, hsome']
    exact .inr ⟨_, _, rfl, rfl, outcome_padded h.margins_ne_nil hrevised⟩

/-! Spelling. -/

lemma substitute_padded {rule : Rule} (hstops : rule.StopsAtBlanks) (htakes : rule.Takes)
    (hline : rule.KeepsLine) (h : PaddedText margins t t') :
    PaddedText margins (t.substitute rule) (t'.substitute rule) := by
  unfold PaddedText
  rw [hstops.lines_substitute htakes hline, hstops.lines_substitute htakes hline]
  refine Along.map (fun margin line line' hpadded => ?_) h
  refine ⟨hpadded.blank, hline.substitute htakes hpadded.oneLine, ?_⟩
  rw [hpadded.line, hstops.substitute_append_blanks htakes line hpadded.blank]

lemma correct_padded {typo : Text × Text} (htypo : typo ∈ typos) {o o' : Outcome}
    (h : o.PaddedBy margins o') :
    (correct o typo).PaddedBy margins (correct o' typo) := by
  obtain ⟨hstops, htakes, hline⟩ := typos_rules htypo
  have hspelt := substitute_padded hstops htakes hline h.text
  have hsame := h.text.eq_iff hspelt
  rw [correct, correct, substitute?, substitute?, changed?, changed?]
  by_cases heq : o.text.substitute (.word typo.1 typo.2) = o.text
  · rw [if_pos heq, if_pos (hsame.mpr heq)]
    exact h
  · rw [if_neg heq, if_neg fun heq' => heq (hsame.mp heq')]
    refine ⟨hspelt, ?_⟩
    have hfixes := h.fixes
    simp only [Outcome.fixes, List.filter_append] at hfixes ⊢
    rw [hfixes]

lemma spelling_padded (h : PaddedText margins t t') :
    (spelling t).PaddedBy margins (spelling t') := by
  have hdecoded : PaddedText margins (decodeEntities t) (decodeEntities t') :=
    substitute_padded stopsAtBlanks_entityRule gains_entityRule.takes keepsLine_entityRule h
  have hfold : ∀ (table : List (Text × Text)) (o o' : Outcome), (∀ typo ∈ table, typo ∈ typos) →
      o.PaddedBy margins o' → (table.foldl correct o).PaddedBy margins (table.foldl correct o') := by
    intro table
    induction table with
    | nil => exact fun o o' _ ho => ho
    | cons typo rest ih =>
      intro o o' hmem ho
      exact ih _ _ (fun typo htypo => hmem typo (List.mem_cons_of_mem _ htypo))
        (correct_padded (hmem typo List.mem_cons_self) ho)
  have hchanges : (if decodeEntities t' = t' then [] else [Change.entities]) =
      if decodeEntities t = t then [] else [Change.entities] := by
    simp only [h.eq_iff hdecoded]
  unfold spelling
  generalize typos = table at hfold ⊢
  exact hfold table _ _ (fun _ hmem => hmem) ⟨hdecoded, by
    simp only [Outcome.fixes, hchanges]⟩

/-! Repair as a whole. -/

lemma Outcome.PaddedBy.andThen {o o' : Outcome} (h : o.PaddedBy margins o')
    {next : Text → Outcome}
    (hnext : ∀ t t', PaddedText margins t t' → (next t).PaddedBy margins (next t')) :
    (o.andThen next).PaddedBy margins (o'.andThen next) := by
  obtain ⟨htext, hfixes⟩ := hnext _ _ h.text
  refine ⟨htext, ?_⟩
  have hfirst := h.fixes
  simp only [Outcome.fixes, Outcome.andThen, List.filter_append] at hfirst hfixes ⊢
  rw [hfirst, hfixes]

lemma shape_padded (h : PaddedText margins t t') : (shape t).PaddedBy margins (shape t') :=
  ((headers_padded h).andThen fun _ _ => printing_padded).andThen fun _ _ => reindent_padded

lemma reshape_padded (rounds : Nat) (h : PaddedText margins t t') :
    (reshape rounds t).PaddedBy margins (reshape rounds t') := by
  induction rounds generalizing t t' with
  | zero => exact ⟨h, rfl⟩
  | succ rounds ih =>
    have hshape := shape_padded h
    have hsame := h.eq_iff hshape.text
    rw [reshape, reshape]
    by_cases heq : (shape t).text = t
    · simp only [if_pos heq, if_pos (hsame.mpr heq)]
      exact hshape
    · simp only [if_neg heq, if_neg fun heq' => heq (hsame.mp heq')]
      exact hshape.andThen fun _ _ => ih

/-- Repair makes of a text with margins behind its lines what it makes of the text, and mends the
same. -/
lemma repair?_padded (h : PaddedText margins t t') :
    repair? t = none ∧ repair? t' = none ∨
      ∃ o o', repair? t = some o ∧ repair? t' = some o' ∧ o.PaddedBy margins o' := by
  have hshaped := ((spelling_padded h).andThen fun _ _ => references_padded).andThen
    fun _ _ => reshape_padded shapeRounds
  unfold repair?
  generalize ((spelling t).andThen references).andThen (reshape shapeRounds) = shaped at hshaped ⊢
  generalize ((spelling t').andThen references).andThen (reshape shapeRounds) = shaped'
    at hshaped ⊢
  dsimp only
  rcases pitfalls?_padded hshaped.text with ⟨hnone, hnone'⟩ | ⟨o, o', hsome, hsome', ho⟩
  · rw [hnone, hnone']
    exact .inl ⟨rfl, rfl⟩
  · rw [hsome, hsome']
    have hmended : Outcome.PaddedBy margins ⟨o.text, shaped.changes ++ o.changes⟩
        ⟨o'.text, shaped'.changes ++ o'.changes⟩ := by
      refine ⟨ho.text, ?_⟩
      have hfirst := hshaped.fixes
      have hsecond := ho.fixes
      simp only [Outcome.fixes, List.filter_append] at hfirst hsecond ⊢
      rw [hfirst, hsecond]
    exact .inr ⟨_, _, rfl, rfl, hmended.andThen fun _ _ => logic_padded⟩

end Passes

/-! Carriage returns. -/

/-- A text with a carriage return before each newline. -/
def crlf (t : Text) : Text := t.flatMap fun c => if c = '\n' then ['\r', '\n'] else [c]

/-- The margins of so many lines: carriage returns, but none behind the last line. -/
def returns : Nat → List Text
  | 0 => []
  | 1 => [[]]
  | n + 2 => ['\r'] :: returns (n + 1)

lemma crlf_append (t t' : Text) : crlf (t ++ t') = crlf t ++ crlf t' := List.flatMap_append

lemma crlf_oneLine {t : Text} (h : OneLine t) : crlf t = t := by
  induction t with
  | nil => rfl
  | cons c rest ih =>
    obtain ⟨hc, hrest⟩ := oneLine_cons.mp h
    rw [crlf, List.flatMap_cons, if_neg hc]
    exact congrArg (c :: ·) (ih hrest)

lemma crlf_unlines {lines : List Text} (hne : lines ≠ []) (hone : ∀ line ∈ lines, OneLine line) :
    ∃ lines', crlf (unlines lines) = unlines lines' ∧
      Along PaddedLine (returns lines.length) lines lines' := by
  induction lines with
  | nil => exact absurd rfl hne
  | cons line rest ih =>
    have hline : OneLine line := hone line List.mem_cons_self
    cases rest with
    | nil =>
      refine ⟨[line], crlf_oneLine hline, .cons ⟨rfl, hline, (List.append_nil line).symm⟩ .nil⟩
    | cons next rest =>
      obtain ⟨lines', hlines', halong⟩ := ih (List.cons_ne_nil _ _) fun line hmem =>
        hone line (List.mem_cons_of_mem _ hmem)
      refine ⟨(line ++ ['\r']) :: lines', ?_, .cons ⟨rfl, ?_, rfl⟩ halong⟩
      · obtain ⟨line', rest', rfl⟩ : ∃ line' rest', lines' = line' :: rest' := by
          refine List.exists_cons_of_ne_nil fun hnil => ?_
          rw [hnil] at halong
          exact absurd halong.length_eq.2 nofun
        rw [unlines_cons_cons, unlines_cons_cons, crlf_append, crlf_oneLine hline, ← hlines',
          List.append_assoc]
        rfl
      · exact oneLine_append.mpr ⟨hline, by decide⟩

lemma paddedText_crlf (t : Text) : PaddedText (returns t.lines.length) t (crlf t) := by
  obtain ⟨lines', hcrlf, halong⟩ := crlf_unlines (lines_ne_nil t) fun _ => oneLine_of_mem_lines
  rw [unlines_lines] at hcrlf
  have hlines' : (unlines lines').lines = lines' := by
    have hboth := halong.forall₂ (fun _ line' => OneLine line') fun _ _ _ hl => hl.oneLine
    refine lines_unlines_of_oneLine ?_ (forall_of_forall₂ (p := OneLine) (fun _ _ hb => hb) hboth)
    rintro rfl
    exact lines_ne_nil t (List.length_eq_zero_iff.mp hboth.length_eq)
  unfold PaddedText
  rw [hcrlf, hlines']
  exact halong

lemma PaddedText.eq_crlf {t t' : Text} {n : Nat} (h : PaddedText (returns n) t t')
    (hn : (returns n).length = n) : t' = crlf t := by
  have hlength : n = t.lines.length := hn.symm.trans (Along.length_eq h).1
  rw [hlength] at h
  exact h.functional (paddedText_crlf t)

lemma length_returns (n : Nat) : (returns n).length = n := by
  induction n using returns.induct with
  | case1 => rfl
  | case2 => rfl
  | case3 n ih => rw [returns, List.length_cons, ih]

/-- Repair is blind to the line ending: carriage returns before newlines stay where they are, and the
same faults are mended. -/
theorem repair_crlf (text : Text) :
    (repair? (crlf text)).map (fun o => (o.text, o.fixes)) =
      (repair? text).map fun o => (crlf o.text, o.fixes) := by
  rcases repair?_padded (paddedText_crlf text) with ⟨hnone, hnone'⟩ | ⟨o, o', ho, ho', hpadded⟩
  · rw [hnone, hnone']
    rfl
  · rw [ho, ho', Option.map_some, Option.map_some, hpadded.fixes,
      hpadded.text.eq_crlf (length_returns _)]

end Marginalia.Repair
