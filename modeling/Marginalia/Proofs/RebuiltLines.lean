import Marginalia.Proofs.LiteralLayout
import Marginalia.Proofs.ReindentTwice

/-!
# Rebuilt lines

Rebuilding the indentation of a text moves lines, and does nothing else to them. Blank lines,
comments and the inside of literals stay; a line that goes on with a statement moves as far as the
statement did, but not past the first column. The lines keep their roles, so a second rebuilding has
nothing to move and nothing to report.
-/

namespace Marginalia.Repair

open Text

/-! ## Roles -/

lemma layout_rebuilt (s : LayoutState) (l : Level) (lines : List Text) :
    s.layout (rebuilt s l lines) = s.layout lines := by
  induction lines generalizing s l with
  | nil => rfl
  | cons line rest ih => simp only [rebuilt, LayoutState.layout, step_lineOf, ih]

/-- The role of a line among others, counted from zero. -/
def roleAt? (s : LayoutState) (lines : List Text) (k : Nat) : Option Role :=
  (s.layout lines)[k]?.map (·.role)

lemma roleAt?_zero (s : LayoutState) (line : Text) (rest : List Text) :
    roleAt? s (line :: rest) 0 = some (s.step line).2.role := rfl

lemma roleAt?_succ (s : LayoutState) (line : Text) (rest : List Text) (k : Nat) :
    roleAt? s (line :: rest) (k + 1) = roleAt? (s.step line).1 rest k := rfl

/-- Whether lines of a role move when indentation is rebuilt. -/
def Role.moves : Role → Bool
  | .statement | .continuation => true
  | .blank | .comment | .stringBody => false

lemma getElem?_rebuilt_of_not_moves {s : LayoutState} {l : Level} {lines : List Text} {k : Nat}
    {role : Role} (hrole : roleAt? s lines k = some role) (hmoves : role.moves = false) :
    (rebuilt s l lines)[k]? = lines[k]? := by
  induction lines generalizing s l k with
  | nil => rfl
  | cons line rest ih =>
    cases k with
    | zero =>
      rw [roleAt?_zero, Option.some.injEq] at hrole
      rw [rebuilt, hrole]
      cases role with
      | statement => cases hmoves
      | continuation => cases hmoves
      | blank => rfl
      | comment => rfl
      | stringBody => rfl
    | succ k => exact ih hrole

/-! ## Columns -/

/-- The columns of the margin of a line, counted in characters. -/
def margin (line : Text) : Int := line.indentation.length

/-- The columns of the margin of a line among others, counted from zero. -/
def marginAt (lines : List Text) (k : Nat) : Int := margin (lines[k]?.getD [])

lemma marginAt_succ (line : Text) (rest : List Text) (k : Nat) :
    marginAt (line :: rest) (k + 1) = marginAt rest k := rfl

lemma margin_spaces (n : Nat) (line : Text) :
    margin (List.replicate n ' ' ++ line) = n + margin line := by
  rw [margin, margin, indentation_blanks (isAllBlank_spaces n), List.length_append,
    List.length_replicate, Int.natCast_add]

lemma margin_shifted (line : Text) (shift : Int) :
    margin (Level.shifted line shift) = max 0 (margin line + shift) := by
  have hstart : margin (trimStart line) = 0 := by
    rw [margin, indentation_trimStart]
    rfl
  rw [Level.shifted]
  split
  · rw [margin_spaces]
    unfold margin
    omega
  · rw [margin_spaces, hstart]
    unfold margin
    omega

/-- A statement is moved by the columns that are kept for the lines that go on with it. -/
lemma Level.shift_after_statement (l : Level) {info : LineInfo} (hrole : info.role = .statement)
    (line : Text) :
    (l.after info line).shift = margin (l.lineOf info.role line) - margin line := by
  have hstarted : (l.startStatement line).1.shift = margin (l.lineOf .statement line) - margin line := by
    show _ = margin (List.replicate _ ' ' ++ trimStart line) - margin line
    rw [margin_spaces, margin, margin, indentation_trimStart]
    simp [Level.startStatement]
  have hended : ∀ (l : Level) (line : Text), (l.endStatement line).shift = l.shift := by
    intro l line
    unfold Level.endStatement
    split
    · rfl
    · split <;> rfl
  rw [hrole, ← hstarted]
  simp only [Level.after, hrole, if_true]
  split
  · exact hended _ _
  · rfl

lemma Level.shift_after (l : Level) {info : LineInfo} (hrole : info.role ≠ .statement)
    (line : Text) : (l.after info line).shift = l.shift := by
  simp only [Level.after, hrole, if_false]
  split
  · unfold Level.endStatement
    split
    · rfl
    · split <;> rfl
  · rfl

/-- A line that goes on with the statement under way moves along with it. -/
lemma marginAt_rebuilt {s : LayoutState} {l : Level} {lines : List Text} {k : Nat}
    (hrole : roleAt? s lines k = some .continuation)
    (hbefore : ∀ i < k, roleAt? s lines i ≠ some .statement) :
    marginAt (rebuilt s l lines) k = max 0 (marginAt lines k + l.shift) := by
  induction lines generalizing s l k with
  | nil => cases hrole
  | cons line rest ih =>
    cases k with
    | zero =>
      rw [roleAt?_zero, Option.some.injEq] at hrole
      show margin (l.lineOf (s.step line).2.role line) = _
      rw [hrole]
      exact margin_shifted line l.shift
    | succ k =>
      have hfirst : (s.step line).2.role ≠ .statement := fun heq =>
        hbefore 0 k.succ_pos (congrArg some heq)
      rw [roleAt?_succ] at hrole
      rw [rebuilt, marginAt_succ, marginAt_succ,
        ih hrole fun i hi => hbefore (i + 1) (Nat.succ_lt_succ hi), l.shift_after hfirst line]

lemma marginAt_rebuilt_of_statement {s : LayoutState} {l : Level} {lines : List Text} {j k : Nat}
    (hjk : j < k) (hstatement : roleAt? s lines j = some .statement)
    (hrole : roleAt? s lines k = some .continuation)
    (hbetween : ∀ i, j < i → i < k → roleAt? s lines i ≠ some .statement) :
    marginAt (rebuilt s l lines) k =
      max 0 (marginAt lines k + (marginAt (rebuilt s l lines) j - marginAt lines j)) := by
  induction lines generalizing s l j k with
  | nil => cases hrole
  | cons line rest ih =>
    obtain ⟨k, rfl⟩ : ∃ n, k = n + 1 := ⟨k - 1, by omega⟩
    cases j with
    | zero =>
      rw [roleAt?_zero, Option.some.injEq] at hstatement
      rw [roleAt?_succ] at hrole
      rw [rebuilt, marginAt_succ, marginAt_succ,
        marginAt_rebuilt hrole fun i hi => hbetween (i + 1) i.succ_pos (Nat.succ_lt_succ hi),
        l.shift_after_statement hstatement]
      rfl
    | succ j =>
      exact ih (Nat.lt_of_succ_lt_succ hjk) hstatement hrole fun i hj hk =>
        hbetween (i + 1) (Nat.succ_lt_succ hj) (Nat.succ_lt_succ hk)

/-- What goes on with a statement has one in front of it. -/
lemma exists_statement {lines : List Text} {k : Nat}
    (hrole : roleAt? .start lines k = some .continuation) :
    ∃ j < k, roleAt? .start lines j = some .statement := by
  induction lines generalizing k with
  | nil => cases hrole
  | cons line rest ih =>
    cases k with
    | zero =>
      rw [roleAt?_zero, Option.some.injEq] at hrole
      obtain hfirst | hfirst | hfirst := LayoutState.step_start_cases line <;> rw [hfirst] at hrole <;>
        cases hrole
    | succ k =>
      rw [roleAt?_succ] at hrole
      -- Blank lines and comments open nothing.
      have hlater : (LayoutState.start.step line).1 = .start →
          ∃ j < k + 1, roleAt? .start (line :: rest) j = some .statement := by
        intro hstart
        rw [hstart] at hrole
        obtain ⟨j, hj, hrest⟩ := ih hrole
        refine ⟨j + 1, Nat.succ_lt_succ hj, ?_⟩
        rw [roleAt?_succ, hstart]
        exact hrest
      obtain hfirst | hfirst | hfirst := LayoutState.step_start_cases line
      · exact ⟨0, k.succ_pos, congrArg some hfirst⟩
      · exact hlater (congrArg Prod.fst hfirst)
      · exact hlater (congrArg Prod.fst hfirst)

lemma exists_last {p : Nat → Prop} {k : Nat} (h : ∃ j < k, p j) :
    ∃ j < k, p j ∧ ∀ i, j < i → i < k → ¬p i := by
  induction k with
  | zero =>
    obtain ⟨j, hj, -⟩ := h
    exact absurd hj j.not_lt_zero
  | succ k ih =>
    by_cases hk : p k
    · exact ⟨k, k.lt_succ_self, hk, fun i hki hik => by omega⟩
    · obtain ⟨j, hj, hp⟩ := h
      have hne : j ≠ k := fun heq => hk (heq ▸ hp)
      obtain ⟨j', hj', hp', hlast⟩ := ih ⟨j, by omega, hp⟩
      refine ⟨j', by omega, hp', fun i hji hik => ?_⟩
      by_cases hi : i = k
      · rw [hi]
        exact hk
      · exact hlast i hji (by omega)

/-! ## The report -/

lemma visit_changes {s : LayoutState} {l : Level} {n : Nat} {lines : List Text}
    (h : rebuilt s l lines = lines) :
    (visit Level.step l (Site.numbered n ((s.layout lines).zip lines))).flatMap (fun r =>
      r.findings.map fun f => Change.atLine f r.number) = [] := by
  induction lines generalizing s l n with
  | nil => rfl
  | cons line rest ih =>
    obtain ⟨hline, hrest⟩ := List.cons.inj h
    have hstep := l.step_eq ⟨n, (s.step line).2, line, (((s.step line).1.layout rest).zip rest)⟩
    have hfindings := l.step_findings
      ⟨n, (s.step line).2, line, (((s.step line).1.layout rest).zip rest)⟩
    rw [hstep.2, if_pos hline] at hfindings
    simp only [LayoutState.layout, List.zip_cons_cons, Site.numbered, visit, List.flatMap_cons,
      hfindings, hstep.1, List.map_nil, List.nil_append]
    exact ih hrest

/-- Indentation that is left as it is gives nothing to report. -/
lemma reindent_of_text_eq {text : Text} (h : (reindent text).text = text) :
    reindent text = ⟨text, []⟩ := by
  have hlines := lines_reindent text
  rw [h] at hlines
  rw [reindent] at h ⊢
  split
  · next hbroken =>
    rw [if_pos hbroken] at h hlines
    have hchanges : (Revised.outcome (visit Level.step .start (Site.ofLines text.lines))).changes =
        [] := visit_changes hlines.symm
    generalize Revised.outcome (visit Level.step .start (Site.ofLines text.lines)) = o at h hchanges
    obtain ⟨_, _⟩ := o
    rw [← h, ← hchanges]
  · rfl

/-- Rebuilding indentation alters blanks at the start of lines alone. Lines that are blank, comments
or inside literals stay, and lines that go on with a statement move with it. No line changes its
role, and rebuilding once more changes and reports nothing. -/
theorem reindent_moves_lines (text : Text) :
    List.Forall₂ (fun line line' => trimStart line' = trimStart line) text.lines
      (reindent text).text.lines ∧
    (∀ k role, roleAt? .start text.lines k = some role → role.moves = false →
      (reindent text).text.lines[k]? = text.lines[k]?) ∧
    (∀ k, roleAt? .start text.lines k = some .continuation →
      ∃ j < k, roleAt? .start text.lines j = some .statement ∧
        (∀ i, j < i → i < k → roleAt? .start text.lines i ≠ some .statement) ∧
        marginAt (reindent text).text.lines k = max 0 (marginAt text.lines k +
          (marginAt (reindent text).text.lines j - marginAt text.lines j))) ∧
    layout (reindent text).text.lines = layout text.lines ∧
    reindent (reindent text).text = ⟨(reindent text).text, []⟩ := by
  refine ⟨?_, ?_, ?_, ?_, reindent_of_text_eq (reindent_reindent text)⟩
  · rw [lines_reindent]
    split
    · exact rebuilt_trimStart .start .start text.lines
    · exact List.forall₂_same.mpr fun _ _ => rfl
  · intro k role hrole hmoves
    rw [lines_reindent]
    split
    · exact getElem?_rebuilt_of_not_moves hrole hmoves
    · rfl
  · intro k hrole
    obtain ⟨j, hjk, hstatement, hbetween⟩ := exists_last (exists_statement hrole)
    refine ⟨j, hjk, hstatement, hbetween, ?_⟩
    rw [lines_reindent]
    split
    · exact marginAt_rebuilt_of_statement hjk hstatement hrole hbetween
    · have hnonneg : 0 ≤ marginAt text.lines k := Int.natCast_nonneg _
      omega
  · rw [lines_reindent]
    split
    · exact layout_rebuilt .start .start text.lines
    · rfl

theorem reindent_moves_lines_of_call :
    marginAt (reindent "if ok:\nitems = call(a,\n             b)\n# note").text.lines 2 = 17 ∧
      (reindent "if ok:\nitems = call(a,\n             b)\n# note").text.lines[3]? =
        some ("# note" : Text) := by
  obtain ⟨-, hstays, hmoves, -, -⟩ :=
    reindent_moves_lines "if ok:\nitems = call(a,\n             b)\n# note"
  refine ⟨?_, (hstays 3 .comment (by decide) rfl).trans (by decide)⟩
  obtain ⟨j, hj, -, hbetween, hmargin⟩ := hmoves 2 (by decide)
  have hlast : j = 1 := by
    by_contra hne
    exact hbetween 1 (by omega) (by omega) (by decide)
  rw [hmargin, hlast]
  decide

end Marginalia.Repair
