import Marginalia.Proofs.RecodedLines

/-!
# Lines of ordinary literals

Whether a line leaves a literal with triple quotes open is told by counting triples of quotes in its
code, wherever they stand. In code whose literals are all ordinary, delimited by one quote and closed
on their line, triples stand inside a literal with another quote or where two literals touch. An odd
number of them makes the next line pass for the inside of a literal.
-/

namespace Marginalia.Repair

open Text

/-- Whether a literal with triple quotes starts in code that is read from a state. -/
def opensTriple (s : CodeState) : Text → Bool
  | [] => false
  | c :: rest =>
    s.quote.isNone && isQuote c && Text.startsWith rest [c, c] || opensTriple (s.step c).1 rest

/-- Code whose literals are delimited by one quote each and closed. -/
structure OrdinaryLiterals (code : Text) : Prop where
  closed : (CodeState.start.run code).quote = none
  single : opensTriple .start code = false

instance (code : Text) : Decidable (OrdinaryLiterals code) :=
  decidable_of_iff (_ ∧ _) ⟨fun h => ⟨h.1, h.2⟩, fun h => ⟨h.1, h.2⟩⟩

/-- A triple at the end of a literal with the same quote, of which another literal has a part. -/
def Touches (q : Char) (before : Text) : Prop :=
  (CodeState.start.run before).quote = some q ∧
    ((CodeState.start.run (before ++ [q])).quote = none ∨
      (CodeState.start.run (before ++ [q, q])).quote = none)

/-! ## Where triples stand -/

lemma quote_of_triple {s : CodeState} {before after : Text} {q : Char} (hq : isQuote q = true)
    (h : opensTriple s (before ++ q :: q :: q :: after) = false) : (s.run before).quote ≠ none := by
  induction before generalizing s with
  | nil =>
    intro hs
    have hs' : s.quote = none := hs
    simp [opensTriple, hs', hq, startsWith, after?] at h
  | cons c rest ih =>
    rw [List.cons_append, opensTriple, Bool.or_eq_false_iff] at h
    exact ih h.2

/-- Inside a literal its quote closes it, at the second one if the first is escaped. -/
lemma quote_step_step {s : CodeState} {q : Char} (hs : s.quote = some q) (hback : q ≠ '\\') :
    (s.step q).1.quote = none ∨ ((s.step q).1.step q).1.quote = none := by
  obtain ⟨quote, escaped, depth⟩ := s
  obtain rfl : quote = some q := hs
  cases escaped with
  | false => exact .inl (by simp [CodeState.step, hback])
  | true => exact .inr (by simp [CodeState.step, hback])

lemma OrdinaryLiterals.triple {code before after : Text} {q : Char} (h : OrdinaryLiterals code)
    (hcode : code = before ++ q :: q :: q :: after) (hq : isQuote q = true) :
    Touches q before ∨ ∃ r, r ≠ q ∧ (CodeState.start.run before).quote = some r := by
  have hsingle := h.single
  rw [hcode] at hsingle
  obtain ⟨r, hr⟩ := Option.ne_none_iff_exists'.mp (quote_of_triple hq hsingle)
  by_cases hrq : r = q
  · subst hrq
    have hback : r ≠ '\\' := by
      rintro rfl
      exact absurd hq (by decide)
    refine .inl ⟨hr, ?_⟩
    rw [CodeState.run_append, CodeState.run_append]
    exact quote_step_step hr hback
  · exact .inr ⟨r, hrq, hr⟩

/-! ## Bodies of literals -/

lemma openedTriple?_eq_none_iff (code : Text) : openedTriple? code = none ↔
    countTriples '"' code % 2 = 0 ∧ countTriples '\'' code % 2 = 0 := by
  have heven : ∀ q, ¬leavesOpen q code = true ↔ countTriples q code % 2 = 0 := by
    intro q
    rw [leavesOpen, beq_iff_eq]
    omega
  rw [openedTriple?, List.find?_eq_none, List.forall_mem_cons, List.forall_mem_singleton, heven,
    heven]

namespace LayoutState

lemma codeOfLine_of_roleOf {s : LayoutState} {line : Text}
    (h : s.roleOf line = .blank ∨ s.roleOf line = .comment) : codeOfLine line = [] := by
  by_cases hline : line.isAllBlank = true
  · exact codeOfLine_of_blank hline
  · refine codeOfLine_of_comment ?_
    by_contra hcomment
    rw [roleOf, isEmpty_trim, Bool.eq_false_iff.mpr hline, Bool.eq_false_iff.mpr hcomment] at h
    by_cases hinside : (decide (s.depth > 0) || s.backslash) = true
    · simp [hinside] at h
    · simp [hinside] at h

lemma roleOf_ne_stringBody (s : LayoutState) (line : Text) : s.roleOf line ≠ .stringBody := by
  rw [roleOf]
  split
  · simp
  · split
    · simp
    · split <;> simp

/-- Outside literals only the code of a line tells whether it leaves a literal open. -/
lemma step_outside {s : LayoutState} (hs : s.triple = none) (line : Text) :
    (s.step line).2.role ≠ .stringBody ∧
      (s.step line).1.triple = openedTriple? (codeOfLine line) := by
  cases hr : s.roleOf line with
  | blank =>
    simp only [step, hs, hr, codeOfLine_of_roleOf (.inl hr)]
    exact ⟨by simp, rfl⟩
  | comment =>
    simp only [step, hs, hr, codeOfLine_of_roleOf (.inr hr)]
    exact ⟨by simp, rfl⟩
  | stringBody => exact absurd hr (s.roleOf_ne_stringBody line)
  | continuation =>
    simp only [step, hs, hr]
    exact ⟨by simp, rfl⟩
  | statement =>
    simp only [step, hs, hr]
    exact ⟨by simp, rfl⟩

lemma step_body {s : LayoutState} {q : Char} (hs : s.triple = some q) (line : Text) :
    (s.step line).2.role = .stringBody := by
  simp only [step, hs]

/-- Below a line that leaves a literal open the next one is inside it. -/
lemma no_stringBody_iff {s : LayoutState} (hs : s.triple = none) (lines : List Text) :
    (∀ info ∈ s.layout lines, info.role ≠ .stringBody) ↔
      ∀ line ∈ lines.dropLast, openedTriple? (codeOfLine line) = none := by
  induction lines generalizing s with
  | nil => simp [layout]
  | cons line rest ih =>
    obtain ⟨hrole, htriple⟩ := step_outside hs line
    rw [layout, List.forall_mem_cons]
    cases rest with
    | nil => simp [layout, hrole]
    | cons next rest =>
      rw [List.dropLast_cons_cons, List.forall_mem_cons]
      cases hopened : openedTriple? (codeOfLine line) with
      | none =>
        rw [hopened] at htriple
        simp [hrole, ih htriple]
      | some q =>
        rw [hopened] at htriple
        have hnext := step_body htriple next
        simp [layout, hnext]

end LayoutState

/-- No line passes for the inside of a literal exactly if every line but the last has an even number
of triples of either quote. Where all literals are ordinary, a triple stands inside a literal with
another quote or where two literals with the same quote touch. -/
theorem no_stringBody_iff_even_triples {lines : List Text}
    (h : ∀ line ∈ lines, OrdinaryLiterals (codeOfLine line)) :
    ((∀ info ∈ layout lines, info.role ≠ .stringBody) ↔ ∀ line ∈ lines.dropLast,
      countTriples '"' (codeOfLine line) % 2 = 0 ∧ countTriples '\'' (codeOfLine line) % 2 = 0) ∧
    ∀ line ∈ lines, ∀ before q after, codeOfLine line = before ++ q :: q :: q :: after →
      isQuote q = true →
        Touches q before ∨ ∃ r, r ≠ q ∧ (CodeState.start.run before).quote = some r := by
  refine ⟨?_, fun line hline before q after hcode hq => (h line hline).triple hcode hq⟩
  simp only [← openedTriple?_eq_none_iff]
  exact LayoutState.no_stringBody_iff rfl lines

theorem no_stringBody_iff_even_triples_of_doubled :
    let lines : List Text := ["s = \"'''a'''\" # it's", "t = [\"#\\\"\", ", "  'it\\'s' '']", "f(s)"]
    (∀ line ∈ lines, OrdinaryLiterals (codeOfLine line)) ∧
      ∀ info ∈ layout lines, info.role ≠ .stringBody := by
  intro lines
  have hordinary : ∀ line ∈ lines, OrdinaryLiterals (codeOfLine line) := by decide
  exact ⟨hordinary, (no_stringBody_iff_even_triples hordinary).1.mpr (by decide)⟩

/-- Three quotes inside an ordinary literal hide the next line. -/
theorem quoted_triple_opens_body :
    let lines : List Text := ["x = '\"\"\"'", "y = 1"]
    (∀ line ∈ lines, OrdinaryLiterals (codeOfLine line)) ∧
      layout lines = [⟨.statement, false⟩, ⟨.stringBody, false⟩] := by
  decide

end Marginalia.Repair
