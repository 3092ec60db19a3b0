import Marginalia.Proofs.CodeScan
import Mathlib.Algebra.BigOperators.Group.List.Basic
import Mathlib.Algebra.Ring.Int.Defs
import Mathlib.Data.List.Induction

/-!
# The literals of a line

The machine that tells code from literals also cuts the literals out of a line. What a line is put
together from contributes its part of the characters in literals, and these determine the literals.
Characters that neither delimit nor escape leave the machine where it is.
-/

namespace Marginalia

namespace Text

/-- The characters in literals, quotes included, of a text that is read from a state. Those that
open a literal are marked. -/
def literalChars (s : CodeState) : Text → List (Char × Bool)
  | [] => []
  | c :: rest =>
    if s.quote.isSome then (c, false) :: literalChars (s.step c).1 rest
    else if isQuote c then (c, true) :: literalChars (s.step c).1 rest
    else literalChars (s.step c).1 rest

/-- The pieces of a text that start at marked characters, behind what stands before the first. -/
def cutAtMarks : List (Char × Bool) → Text × List Text
  | [] => ([], [])
  | (c, mark) :: rest =>
    if mark then ([], (c :: (cutAtMarks rest).1) :: (cutAtMarks rest).2)
    else (c :: (cutAtMarks rest).1, (cutAtMarks rest).2)

/-- The literals of a text, each from its opening quote to the closing one or the end of the text. -/
def literals (t : Text) : List Text := (cutAtMarks (literalChars .start t)).2

end Text

/-- A character that neither delimits literals nor escapes another. -/
def isInert (c : Char) : Bool := !isQuote c && c != '\\'

lemma isInert_of_isPlain {c : Char} (h : isPlain c = true) : isInert c = true := by
  simp only [isPlain, Bool.and_eq_true] at h
  simp [isInert, h.1.1.1, h.2]

lemma all_isInert_of_all_isPlain {t : Text} (h : t.all isPlain = true) : t.all isInert = true :=
  List.all_eq_true.mpr fun c hc => isInert_of_isPlain (List.all_eq_true.mp h c hc)

lemma all_isPlain_of_isAllBlank {t : Text} (h : t.isAllBlank = true) : t.all isPlain = true :=
  List.all_eq_true.mpr fun c hc => isPlain_of_isBlank (List.all_eq_true.mp h c hc)

lemma all_isInert_of_isAllBlank {t : Text} (h : t.isAllBlank = true) : t.all isInert = true :=
  all_isInert_of_all_isPlain (all_isPlain_of_isAllBlank h)

namespace CodeState

/-- States that differ at most in their depth. -/
structure Agree (s s' : CodeState) : Prop where
  quote : s.quote = s'.quote
  escaped : s.escaped = s'.escaped

lemma Agree.refl (s : CodeState) : s.Agree s := ⟨rfl, rfl⟩

lemma Agree.symm {s s' : CodeState} (h : s.Agree s') : s'.Agree s := ⟨h.quote.symm, h.escaped.symm⟩

lemma Agree.trans {s s' s'' : CodeState} (h : s.Agree s') (h' : s'.Agree s'') : s.Agree s'' :=
  ⟨h.quote.trans h'.quote, h.escaped.trans h'.escaped⟩

lemma Agree.step {s s' : CodeState} (h : s.Agree s') (c : Char) :
    (s.step c).1.Agree (s'.step c).1 :=
  have hstep := step_congr h.quote h.escaped c
  ⟨hstep.1, hstep.2.1⟩

lemma Agree.run {s s' : CodeState} (h : s.Agree s') (t : Text) : (s.run t).Agree (s'.run t) := by
  induction t generalizing s s' with
  | nil => exact h
  | cons c rest ih => exact ih (h.step c)

/-- Outside literals every state agrees with the one at the start. -/
lemma Sound.agree_start {s : CodeState} (h : s.Sound) (hs : s.quote = none) : s.Agree start :=
  ⟨hs, h.escaped hs⟩

/-- Outside literals only a quote opens one. -/
lemma quote_step_code {s : CodeState} (hs : s.quote = none) {c : Char} (hc : isQuote c = false) :
    (s.step c).1.quote = none ∧ (s.step c).1.escaped = s.escaped := by
  simp only [CodeState.step, hs, hc, Bool.false_eq_true, if_false]
  split
  · exact ⟨rfl, rfl⟩
  · split
    · exact ⟨rfl, rfl⟩
    · exact ⟨hs, rfl⟩

/-- An inert character only ends an escape. -/
lemma Sound.step_inert {s : CodeState} (h : s.Sound) {c : Char} (hc : isInert c = true) :
    (s.step c).1.Agree ⟨s.quote, false, s.depth⟩ := by
  simp only [isInert, Bool.and_eq_true, Bool.not_eq_true', bne_iff_ne] at hc
  cases hq : s.quote with
  | none =>
    obtain ⟨hquote, hescaped⟩ := quote_step_code hq hc.1
    exact ⟨hquote, hescaped.trans (h.escaped hq)⟩
  | some q =>
    have hne : c ≠ q := by
      rintro rfl
      exact absurd (h.quote c hq) (by simp [hc.1])
    cases he : s.escaped with
    | true => exact ⟨by simp [CodeState.step, hq, he], by simp [CodeState.step, hq, he]⟩
    | false =>
      exact ⟨by simp [CodeState.step, hq, he, hne, hc.2],
        by simp [CodeState.step, hq, he, hne, hc.2]⟩

lemma Sound.quote_run_inert {s : CodeState} (h : s.Sound) {t : Text} (ht : t.all isInert = true) :
    (s.run t).quote = s.quote := by
  induction t generalizing s with
  | nil => rfl
  | cons c rest ih =>
    rw [List.all_cons, Bool.and_eq_true] at ht
    rw [run_cons, ih (h.step c) ht.2, (h.step_inert ht.1).quote]

/-- Where a text ends outside literals, so does its trimmed form. -/
lemma quote_run_trim {t : Text} (h : (start.run t).quote = none) :
    (start.run (Text.trim t)).quote = none := by
  obtain ⟨front, back, ht, hfront, hback⟩ := Text.trim_append t
  rwa [ht, run_append, run_append, run_blanks rfl hfront,
    (sound_start.run _).quote_run_inert (all_isInert_of_isAllBlank hback)] at h

lemma Sound.run_inert {s : CodeState} (h : s.Sound) {t : Text} (ht : t.all isInert = true)
    (hne : t ≠ []) : (s.run t).Agree ⟨s.quote, false, s.depth⟩ := by
  obtain ⟨t, c, rfl⟩ := List.eq_nil_or_concat' t |>.resolve_left hne
  rw [List.all_append, Bool.and_eq_true, List.all_cons, Bool.and_eq_true] at ht
  have hlast := (h.run t).step_inert ht.2.1
  rw [run_append, run_cons, run_nil]
  exact ⟨hlast.quote.trans (h.quote_run_inert ht.1), hlast.escaped⟩

lemma Sound.agree_run_inert {s : CodeState} (h : s.Sound) (he : s.escaped = false) {t : Text}
    (ht : t.all isInert = true) : (s.run t).Agree s := by
  by_cases hne : t = []
  · subst hne
    exact .refl s
  · exact (h.run_inert ht hne).trans ⟨rfl, he.symm⟩

end CodeState

namespace Text

/-! ## The characters in literals -/

lemma literalChars_append (s : CodeState) (t t' : Text) :
    literalChars s (t ++ t') = literalChars s t ++ literalChars (s.run t) t' := by
  induction t generalizing s with
  | nil => rfl
  | cons c rest ih =>
    rw [List.cons_append, literalChars, literalChars, ih, CodeState.run_cons]
    split
    · rfl
    · split
      · rfl
      · rfl

lemma literalChars_congr {s s' : CodeState} (h : s.Agree s') (t : Text) :
    literalChars s t = literalChars s' t := by
  induction t generalizing s s' with
  | nil => rfl
  | cons c rest ih => rw [literalChars, literalChars, ih (h.step c), h.quote]

lemma literalChars_inert {s : CodeState} (h : s.Sound) {t : Text} (ht : t.all isInert = true) :
    literalChars s t = if s.quote.isSome then t.map (·, false) else [] := by
  induction t generalizing s with
  | nil => simp [literalChars]
  | cons c rest ih =>
    rw [List.all_cons, Bool.and_eq_true] at ht
    have hquote : isQuote c = false := by
      have hc := ht.1
      simp only [isInert, Bool.and_eq_true, Bool.not_eq_true'] at hc
      exact hc.1
    rw [literalChars, ih (h.step c) ht.2, (h.step_inert ht.1).quote, hquote]
    cases s.quote.isSome
    · rfl
    · rfl

/-- The sum of what the characters in literals count. -/
def literalSum (f : Char → Int) (s : CodeState) (t : Text) : Int :=
  ((literalChars s t).map fun m => f m.1).sum

section

variable (f : Char → Int)

lemma literalSum_append (s : CodeState) (t t' : Text) :
    literalSum f s (t ++ t') = literalSum f s t + literalSum f (s.run t) t' := by
  rw [literalSum, literalChars_append, List.map_append, List.sum_append]
  rfl

lemma literalSum_congr {s s' : CodeState} (h : s.Agree s') (t : Text) :
    literalSum f s t = literalSum f s' t := by
  rw [literalSum, literalChars_congr h]
  rfl

lemma literalSum_inert {s : CodeState} (h : s.Sound) {t : Text} (ht : t.all isInert = true) :
    literalSum f s t = if s.quote.isSome then (t.map f).sum else 0 := by
  rw [literalSum, literalChars_inert h ht]
  cases s.quote.isSome
  · rfl
  · simp [Function.comp_def]

end

/-! ## The literals they make up -/

/-- Pieces as they were before they were cut. -/
def joinMarked (pieces : Text × List Text) : List (Char × Bool) :=
  pieces.1.map (·, false) ++ pieces.2.flatMap fun piece =>
    (piece.head?.map (·, true)).toList ++ piece.tail.map (·, false)

lemma joinMarked_cutAtMarks (l : List (Char × Bool)) : joinMarked (cutAtMarks l) = l := by
  induction l with
  | nil => rfl
  | cons m rest ih =>
    obtain ⟨c, mark⟩ := m
    cases mark with
    | true => simpa [cutAtMarks, joinMarked] using ih
    | false => simpa [cutAtMarks, joinMarked] using ih

/-- Before the first literal there is nothing of one. -/
lemma cutAtMarks_literalChars {s : CodeState} (hs : s.quote = none) (t : Text) :
    (cutAtMarks (literalChars s t)).1 = [] := by
  induction t generalizing s with
  | nil => rfl
  | cons c rest ih =>
    by_cases hc : isQuote c = true
    · simp [literalChars, hs, hc, cutAtMarks]
    · have hnext := (CodeState.quote_step_code hs ((Bool.not_eq_true _).mp hc)).1
      simpa [literalChars, hs, hc] using ih hnext

/-- Texts have the same literals exactly if they have the same characters in literals. -/
lemma literals_eq_iff (t t' : Text) :
    literals t = literals t' ↔ literalChars .start t = literalChars .start t' := by
  refine ⟨fun h => ?_, fun h => congrArg (fun l => (cutAtMarks l).2) h⟩
  have hcut : cutAtMarks (literalChars .start t) = cutAtMarks (literalChars .start t') :=
    Prod.ext ((cutAtMarks_literalChars rfl t).trans (cutAtMarks_literalChars rfl t').symm) h
  rw [← joinMarked_cutAtMarks (literalChars .start t), hcut, joinMarked_cutAtMarks]

lemma cutAtMarks_append (front back : List (Char × Bool)) (c : Char) :
    cutAtMarks (front ++ (c, true) :: back) =
      ((cutAtMarks front).1, (cutAtMarks front).2 ++ (cutAtMarks ((c, true) :: back)).2) := by
  induction front with
  | nil => simp [cutAtMarks]
  | cons m rest ih =>
    obtain ⟨d, mark⟩ := m
    cases mark with
    | true => simp [cutAtMarks, ih]
    | false => simp [cutAtMarks, ih]

lemma cutAtMarks_unmarked (body : Text) (back : List (Char × Bool)) :
    cutAtMarks (body.map (·, false) ++ back) =
      (body ++ (cutAtMarks back).1, (cutAtMarks back).2) := by
  induction body with
  | nil => rfl
  | cons c rest ih => simp [cutAtMarks, ih]

/-- A text that ends inside a literal ends with its quote and a part of it. -/
lemma exists_opening {before : Text} (h : (CodeState.start.run before).quote ≠ none) :
    ∃ (head : Text) (q : Char) (body : Text), before = head ++ q :: body ∧
      literalChars .start before =
        literalChars .start head ++ (q, true) :: body.map (·, false) := by
  induction before using List.reverseRecOn with
  | nil => exact absurd rfl h
  | append_singleton before c ih =>
    have hchars : literalChars .start (before ++ [c]) = literalChars .start before ++
        literalChars (CodeState.start.run before) [c] := literalChars_append _ _ _
    cases hq : (CodeState.start.run before).quote with
    | none =>
      have hc : isQuote c = true := by
        by_contra hc
        rw [CodeState.run_append] at h
        exact h (CodeState.quote_step_code hq ((Bool.not_eq_true _).mp hc)).1
      refine ⟨before, c, [], rfl, ?_⟩
      rw [hchars]
      simp [literalChars, hq, hc]
    | some q =>
      obtain ⟨head, opening, body, hbefore, hbody⟩ := ih (by simp [hq])
      refine ⟨head, opening, body ++ [c], by rw [hbefore, List.append_assoc]; rfl, ?_⟩
      rw [hchars, hbody]
      simp [literalChars, hq]

/-- An inert piece of a text that starts inside a literal is a piece of it. -/
lemma exists_literal {before piece after : Text}
    (h : (CodeState.start.run before).quote ≠ none) (hpiece : piece.all isInert = true) :
    ∃ literal ∈ literals (before ++ (piece ++ after)), ∃ front back : Text,
      literal = front ++ (piece ++ back) ∧ front ≠ [] ∧ front.getLast? = before.getLast? := by
  obtain ⟨head, q, body, rfl, hchars⟩ := exists_opening h
  have hsound := CodeState.sound_start.run (head ++ q :: body)
  have hsome : (CodeState.start.run (head ++ q :: body)).quote.isSome = true :=
    Option.isSome_iff_ne_none.mpr h
  obtain ⟨more, hmore⟩ : ∃ more, literalChars .start (head ++ q :: body ++ (piece ++ after)) =
      literalChars .start head ++ (q, true) :: ((body ++ piece).map (·, false) ++ more) := by
    refine ⟨literalChars ((CodeState.start.run (head ++ q :: body)).run piece) after, ?_⟩
    rw [literalChars_append .start (head ++ q :: body), hchars, literalChars_append,
      literalChars_inert hsound hpiece, if_pos hsome]
    simp
  refine ⟨q :: (body ++ piece ++ (cutAtMarks more).1), ?_, q :: body, (cutAtMarks more).1,
    by simp, by simp, ?_⟩
  · rw [literals, hmore, cutAtMarks_append]
    simp [cutAtMarks, cutAtMarks_unmarked]
  · rw [List.getLast?_append_cons]

end Text
end Marginalia
