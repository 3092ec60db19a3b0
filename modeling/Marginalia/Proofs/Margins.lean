import Marginalia.Proofs.SpelledLines
import Marginalia.Repair
import Mathlib.Data.List.TakeWhile

/-!
# Margins

Blanks at the end of a line belong to its tail. What is read from the line, be it its code, its role,
its column or the words that it starts with, is read from the line with a margin of blanks alike.
-/

namespace Marginalia

open Repair

namespace Text

variable {margin : Text}

/-! Trimmed texts. -/

lemma isAllBlank_append (t t' : Text) :
    (t ++ t').isAllBlank = (t.isAllBlank && t'.isAllBlank) := List.all_append

lemma trimStart_of_isAllBlank {t : Text} (h : t.isAllBlank = true) : trimStart t = [] :=
  List.dropWhile_eq_nil_iff.mpr (List.all_eq_true.mp h)

lemma trimEnd_margin (hmargin : margin.isAllBlank = true) (t : Text) :
    trimEnd (t ++ margin) = trimEnd t := by
  induction t with
  | nil => exact trimEnd_blanks hmargin
  | cons c rest ih =>
    rw [trimEnd, trimEnd] at ih
    rw [trimEnd, trimEnd, List.cons_append, dropEnd, dropEnd, ih]

lemma trimStart_margin {t : Text} (ht : t.isAllBlank = false) (margin : Text) :
    trimStart (t ++ margin) = trimStart t ++ margin := by
  induction t with
  | nil => cases ht
  | cons c rest ih =>
    by_cases hc : isBlank c = true
    · rw [isAllBlank, List.all_cons, hc, Bool.true_and] at ht
      have hrest := ih ht
      rw [List.cons_append, trimStart, trimStart, List.dropWhile_cons_of_pos hc,
        List.dropWhile_cons_of_pos hc]
      exact hrest
    · rw [List.cons_append, trimStart, trimStart, List.dropWhile_cons_of_neg hc,
        List.dropWhile_cons_of_neg hc, List.cons_append]

lemma trim_margin (hmargin : margin.isAllBlank = true) (t : Text) :
    trim (t ++ margin) = trim t := by
  cases ht : t.isAllBlank with
  | true =>
    have hall : (t ++ margin).isAllBlank = true := by rw [isAllBlank_append, ht, hmargin]; rfl
    rw [trim, trim, trimStart_of_isAllBlank hall, trimStart_of_isAllBlank ht]
  | false => rw [trim, trim, trimStart_margin ht, trimEnd_margin hmargin]

lemma indentation_margin {t : Text} (ht : t.isAllBlank = false) (margin : Text) :
    indentation (t ++ margin) = indentation t := by
  have happ := trimStart_append (t ++ margin)
  rw [trimStart_margin ht] at happ
  have hsame : indentation (t ++ margin) ++ (trimStart t ++ margin) =
      indentation t ++ (trimStart t ++ margin) := by
    rw [← happ, ← List.append_assoc, ← trimStart_append]
  exact List.append_cancel_right hsame

/-! Words. -/

lemma takeWhile_margin {p : Char → Bool} (hp : ∀ c, isBlank c = true → p c = false)
    (hmargin : margin.isAllBlank = true) (t : Text) :
    (t ++ margin).takeWhile p = t.takeWhile p := by
  induction t with
  | nil =>
    cases margin with
    | nil => rfl
    | cons d margin =>
      rw [isAllBlank, List.all_cons, Bool.and_eq_true] at hmargin
      have hd : p d = false := hp d hmargin.1
      rw [List.nil_append, List.takeWhile_cons, hd]
      rfl
  | cons c rest ih => rw [List.cons_append, List.takeWhile_cons, List.takeWhile_cons, ih]

lemma firstWord_margin (hmargin : margin.isAllBlank = true) (t : Text) :
    firstWord (t ++ margin) = firstWord t :=
  takeWhile_margin (fun _ => isWordChar_of_isBlank) hmargin t

/-- A text, and the same with blanks behind it. -/
def Trail (t t' : Text) : Prop := ∃ margin : Text, margin.isAllBlank = true ∧ t' = t ++ margin

lemma Trail.refl (t : Text) : Trail t t := ⟨[], rfl, (List.append_nil t).symm⟩

lemma Trail.trimStart {t t' : Text} (h : Trail t t') : Trail (trimStart t) (Text.trimStart t') := by
  obtain ⟨margin, hmargin, rfl⟩ := h
  cases ht : t.isAllBlank with
  | true =>
    have hall : (t ++ margin).isAllBlank = true := by rw [isAllBlank_append, ht, hmargin]; rfl
    rw [trimStart_of_isAllBlank hall, trimStart_of_isAllBlank ht]
    exact .refl []
  | false =>
    rw [trimStart_margin ht]
    exact ⟨margin, hmargin, rfl⟩

lemma Trail.after? {t t' : Text} (h : Trail t t') (mark : Text) (hmark : BlankFree mark) :
    (after? mark t = none ∧ Text.after? mark t' = none) ∨
      ∃ rest rest', after? mark t = some rest ∧ Text.after? mark t' = some rest' ∧
        Trail rest rest' := by
  obtain ⟨margin, hmargin, rfl⟩ := h
  have hafter : Text.after? mark (t ++ margin) = (Text.after? mark t).map (· ++ margin) := by
    cases margin with
    | nil => simp
    | cons d margin =>
      rw [isAllBlank, List.all_cons, Bool.and_eq_true] at hmargin
      exact after?_append_stop (hmark.not_mem hmargin.1) t margin
  rw [hafter]
  cases Text.after? mark t with
  | none => exact .inl ⟨rfl, rfl⟩
  | some rest => exact .inr ⟨rest, _, rfl, rfl, margin, hmargin, rfl⟩

/-- Nothing behind a gap is no more than no gap. -/
lemma Trail.afterGap? {t t' : Text} (h : Trail t t') :
    Trail ((afterGap? t).getD []) ((Text.afterGap? t').getD []) := by
  obtain ⟨margin, hmargin, rfl⟩ := h
  cases t with
  | nil =>
    have hgap : (Text.afterGap? margin).getD [] = [] := by
      cases margin with
      | nil => rfl
      | cons d margin =>
        rw [isAllBlank, List.all_cons, Bool.and_eq_true] at hmargin
        rw [Text.afterGap?, if_pos hmargin.1, Option.getD_some,
          trimStart_of_isAllBlank hmargin.2]
    rw [List.nil_append, hgap]
    exact .refl []
  | cons c rest =>
    rw [List.cons_append, Text.afterGap?, Text.afterGap?]
    split
    · exact Trail.trimStart ⟨margin, hmargin, rfl⟩
    · exact .refl []

lemma Trail.word? {t t' : Text} (h : Trail t t') :
    (Text.word? t').map (·.1) = (word? t).map (·.1) := by
  obtain ⟨margin, hmargin, rfl⟩ := h
  cases t with
  | nil =>
    cases margin with
    | nil => rfl
    | cons d margin =>
      rw [isAllBlank, List.all_cons, Bool.and_eq_true] at hmargin
      have hd := isWordChar_of_isBlank hmargin.1
      have hnone : Text.word? (d :: margin) = none := by
        rw [Text.word?, if_neg (Bool.eq_false_iff.mp hd)]
      rw [List.nil_append, hnone]
      rfl
  | cons c rest =>
    rw [List.cons_append, Text.word?, Text.word?]
    split
    · rw [Option.map_some, Option.map_some,
        takeWhile_margin (fun _ => isWordChar_of_isBlank) hmargin]
    · rfl

lemma Trail.continuesWord {t t' : Text} (h : Trail t t') :
    Text.continuesWord t' = continuesWord t := by
  obtain ⟨margin, hmargin, rfl⟩ := h
  cases margin with
  | nil => rw [List.append_nil]
  | cons d margin =>
    rw [isAllBlank, List.all_cons, Bool.and_eq_true] at hmargin
    exact continuesWord_append_blank hmargin.1 t margin

end Text

namespace Repair

open Text

variable {margin : Text}

/-! The code of a line. -/

lemma codeOfLine_margin (hmargin : margin.isAllBlank = true) (line : Text) :
    codeOfLine (line ++ margin) = codeOfLine line := by
  rw [codeOfLine_eq, codeOfLine_eq, splitAtCode?_append oneChar_startsComment,
    noComment_of_blanks _ hmargin]
  cases splitAtCode? startsComment .start line with
  | none => exact trimEnd_margin hmargin line
  | some pair => rfl

/-- Blanks behind a line belong to its tail. -/
lemma splitComment_margin (hmargin : margin.isAllBlank = true) (line : Text) :
    splitComment (line ++ margin) = (codeOfLine line, (splitComment line).2 ++ margin) := by
  have hline : line ++ margin = codeOfLine line ++ ((splitComment line).2 ++ margin) := by
    conv_lhs => rw [← splitComment_append line, List.append_assoc]
    rfl
  have hcode := codeOfLine_margin hmargin line
  rw [hline] at hcode ⊢
  exact splitComment_of_append hcode

/-! The role of a line. -/

lemma countTriples_append {q : Char} {more : Text} (h : q ∉ more) (t : Text) :
    countTriples q (t ++ more) = countTriples q t := by
  have hnone : ∀ more : Text, q ∉ more → countTriples q more = 0 := by
    intro more
    induction more with
    | nil => exact fun _ => rfl
    | cons a rest ih =>
      intro h
      obtain ⟨ha, hrest⟩ := not_or.mp (List.mem_cons.not.mp h)
      rcases rest with _ | ⟨b, _ | ⟨c, rest⟩⟩
      · rfl
      · rfl
      · rw [countTriples, if_neg fun hq => ha hq.1.symm, ih hrest]
  -- Some other character among the next three.
  have hone : ∀ (a : Char) (more : Text), q ∉ more → countTriples q (a :: more) = 0 := by
    intro a more h
    rcases more with _ | ⟨d, _ | ⟨e, more⟩⟩
    · rfl
    · rfl
    · have hd : d ≠ q := fun heq => h (heq ▸ List.mem_cons_self)
      rw [countTriples, if_neg (fun hq => hd hq.2.1), hnone _ h]
  have htwo : ∀ (a b : Char) (more : Text), q ∉ more → countTriples q (a :: b :: more) = 0 := by
    intro a b more h
    cases more with
    | nil => rfl
    | cons d more =>
      have hd : d ≠ q := fun heq => h (heq ▸ List.mem_cons_self)
      rw [countTriples, if_neg (fun hq => hd hq.2.2), hone b _ h]
  induction t using countTriples.induct (q := q) with
  | case1 a b c rest htriple ih =>
    simp only [List.cons_append, countTriples, if_pos htriple, ih]
  | case2 a b c rest htriple ih =>
    simp only [List.cons_append] at ih
    simp only [List.cons_append, countTriples, if_neg htriple, ih]
  | case3 t hshort =>
    rcases t with _ | ⟨a, _ | ⟨b, _ | ⟨c, rest⟩⟩⟩
    · exact hnone more h
    · exact hone a more h
    · exact htwo a b more h
    · exact absurd rfl (hshort a b c rest)

lemma countTriples_margin {q : Char} (hq : isBlank q = false) (hmargin : margin.isAllBlank = true)
    (t : Text) : countTriples q (t ++ margin) = countTriples q t :=
  countTriples_append (not_mem_of_isAllBlank hmargin hq) t

namespace LayoutState

/-- A state that waits for no blank to close a literal. -/
def Quoted (s : LayoutState) : Prop := ∀ q, s.triple = some q → isBlank q = false

lemma quoted_start : start.Quoted := by rintro _ ⟨⟩

lemma quoted_afterCode (s : LayoutState) (code : Text) : (s.afterCode code).Quoted := by
  intro q hq
  have hopened : openedTriple? code = some q := hq
  have hmem : q ∈ ['"', '\''] := List.mem_of_find?_eq_some hopened
  rcases List.mem_cons.mp hmem with rfl | hmem
  · decide
  · rw [List.mem_singleton.mp hmem]
    decide

lemma Quoted.step {s : LayoutState} (h : s.Quoted) (line : Text) : (s.step line).1.Quoted := by
  cases hs : s.triple with
  | some q =>
    simp only [LayoutState.step, hs]
    split
    · rintro _ ⟨⟩
    · exact h
  | none =>
    simp only [LayoutState.step, hs]
    cases s.roleOf line with
    | blank => exact h
    | comment => exact h
    | _ => exact quoted_afterCode s _

lemma step_margin {s : LayoutState} (h : s.Quoted) (hmargin : margin.isAllBlank = true)
    (line : Text) : s.step (line ++ margin) = s.step line := by
  cases hs : s.triple with
  | some q =>
    have hopen : leavesOpen q (line ++ margin) = leavesOpen q line := by
      rw [leavesOpen, leavesOpen, countTriples_margin (h q hs) hmargin]
    simp only [LayoutState.step, hs, hopen]
  | none =>
    have hrole : s.roleOf (line ++ margin) = s.roleOf line := by
      rw [roleOf, roleOf, trim_margin hmargin]
    simp only [LayoutState.step, hs, hrole, codeOfLine_margin hmargin]

/-- Only a line with code is a statement or goes on with one. -/
lemma not_blank_of_role {s : LayoutState} {line : Text}
    (h : (s.step line).2.role = .statement ∨ (s.step line).2.role = .continuation) :
    line.isAllBlank = false := by
  by_contra hline
  rw [Bool.not_eq_false] at hline
  cases hs : s.triple with
  | some q => exact absurd h (by simp [LayoutState.step, hs])
  | none =>
    have hrole : s.roleOf line = .blank := by
      rw [roleOf, (trim_eq_nil_iff line).mpr hline]
      rfl
    exact absurd h (by simp [LayoutState.step, hs, hrole])

end LayoutState

/-! What passes read from a line. -/

lemma columns_margin {line : Text} (hline : line.isAllBlank = false) (margin : Text) :
    columns (line ++ margin) = columns line := by
  rw [columns, columns, indentation_margin hline]

lemma column_margin {line : Text} (hline : line.isAllBlank = false) (margin : Text) :
    column (line ++ margin) = column line := by
  rw [column, column, indentation_margin hline]

lemma opensBlock_margin (hmargin : margin.isAllBlank = true) (line : Text) :
    opensBlock (line ++ margin) = opensBlock line := by
  rw [opensBlock, opensBlock, codeOfLine_margin hmargin]

lemma afterAsync_trail {t t' : Text} (h : Trail t t') : Trail (afterAsync t) (afterAsync t') ∨
    (afterAsync t = "async" ∧ afterAsync t' = []) := by
  rw [afterAsync, afterAsync]
  rcases h.after? "async" (by decide) with ⟨hnone, hnone'⟩ |
    ⟨rest, rest', hr, hr', htrail⟩
  · rw [hnone, hnone']
    exact .inl h
  · rw [hr, hr', Option.bind_some, Option.bind_some]
    obtain ⟨margin, hmargin, rfl⟩ := htrail
    cases rest with
    | nil =>
      have ht : t = "async" := by
        rw [(after?_eq_some_iff _ _ _).mp hr, List.append_nil]
      cases margin with
      | nil => exact .inl h
      | cons d margin =>
        rw [isAllBlank, List.all_cons, Bool.and_eq_true] at hmargin
        rw [List.nil_append, afterGap?, afterGap?, if_pos hmargin.1,
          trimStart_of_isAllBlank hmargin.2]
        exact .inr ⟨ht, rfl⟩
    | cons c rest =>
      left
      rw [List.cons_append, afterGap?, afterGap?]
      split
      · exact Trail.trimStart ⟨margin, hmargin, rfl⟩
      · exact h

lemma map_bind_afterGap? {α : Type} (f : Text → Option α) (hf : f [] = none) (t : Text) :
    (afterGap? t).bind f = f ((afterGap? t).getD []) := by
  cases afterGap? t with
  | none => exact hf.symm
  | some rest => rfl

/-- The name of a function is read alike. -/
lemma functionName?_margin (hmargin : margin.isAllBlank = true) (line : Text) :
    (functionName? (line ++ margin)).map (·.1) = (functionName? line).map (·.1) := by
  have hname : ∀ t, functionName? t = (after? "def" (afterAsync (trimStart t))).bind fun rest =>
      word? ((afterGap? rest).getD []) := by
    intro t
    unfold functionName?
    congr 1
    funext rest
    exact map_bind_afterGap? word? rfl rest
  have htrail : Trail (trimStart line) (trimStart (line ++ margin)) :=
    Trail.trimStart ⟨margin, hmargin, rfl⟩
  rw [hname, hname]
  rcases afterAsync_trail htrail with hasync | ⟨hasync, hasync'⟩
  · rcases hasync.after? "def" (by decide) with ⟨h, h'⟩ |
      ⟨rest, rest', h, h', hrest⟩
    · rw [h, h']
    · rw [h, h', Option.bind_some, Option.bind_some]
      exact hrest.afterGap?.word?
  · have hdef : after? "def" "async" = none := by decide
    rw [hasync, hasync', hdef]
    rfl

lemma isClassLine_margin (hmargin : margin.isAllBlank = true) (line : Text) :
    isClassLine (line ++ margin) = isClassLine line := by
  have hclass : ∀ t, isClassLine t = ((after? "class" (trimStart t)).map fun rest =>
      continuesWord ((afterGap? rest).getD [])).getD false := by
    intro t
    rw [isClassLine, afterBlanksAnd?]
    cases after? "class" (trimStart t) with
    | none => rfl
    | some rest =>
      rw [Option.bind_some, Option.map_some, Option.getD_some]
      cases afterGap? rest <;> rfl
  have htrail : Trail (trimStart line) (trimStart (line ++ margin)) :=
    Trail.trimStart ⟨margin, hmargin, rfl⟩
  rw [hclass, hclass]
  rcases htrail.after? "class" (by decide) with ⟨h, h'⟩ |
    ⟨rest, rest', h, h', hrest⟩
  · rw [h, h']
  · rw [h, h', Option.map_some, Option.map_some, hrest.afterGap?.continuesWord]

end Repair
end Marginalia
