import Marginalia.Proofs.FirstMarks
import Marginalia.Proofs.ReadLines

/-!
# Marks in literals

Two slashes in a literal start no comment, but the mark of a block comment is looked for in literals
too. The first one there ends what is read of a line, and leaves a comment open unless the mark that
ends comments follows.
-/

namespace Marginalia.Braced

open Text

/-- Every mark of a block comment in some code stands in a literal. -/
def MarksQuoted (code : Text) : Prop :=
  ∀ before after, code = before ++ "/*" ++ after → (CodeState.start.run before).quote ≠ none

instance (code : Text) : Decidable (MarksQuoted code) :=
  decidable_of_iff (∀ n < code.length, startsWith (code.drop n) "/*" = true →
      (CodeState.start.run (code.take n)).quote ≠ none) <| by
    constructor
    · rintro h before after rfl
      have hfront := h before.length (by simp) (by simp [startsWith_iff])
      rwa [List.append_assoc, List.take_left] at hfront
    · intro h n _ hstart
      obtain ⟨rest, hrest⟩ := (startsWith_iff _ _).mp hstart
      refine h (code.take n) rest ?_
      rw [List.append_assoc, ← hrest, List.take_append_drop]

variable {l : Language} {s : Scanner} {raw before after : Text}

lemma codeOf_unmarked {stripped : Text} (h : ¬"/*" <:+: codePart "//" stripped) :
    codeOf stripped = (codePart "//" stripped, false) := by
  have hcut : cut? "/*" (codePart "//" stripped) = none := (cut?_eq_none_iff (by decide)).mpr h
  simp only [codeOf, hcut]

lemma codeOf_marked {stripped : Text} (h : codePart "//" stripped = before ++ "/*" ++ after)
    (hbefore : ¬"/*" <:+: before) : codeOf stripped = (trimEnd before, !after.hasPart "*/") := by
  have hcut : cut? "/*" (codePart "//" stripped) = some (before, after) :=
    (cut?_eq_some_iff isMark_open).mpr ⟨h, hbefore⟩
  simp only [codeOf, hcut]

/-- A line whose code does not begin with a comment is read. -/
lemma readLine_of_code (hne : codePart "//" (trim raw) ≠ [])
    (hmark : ¬"/*" <+: codePart "//" (trim raw)) :
    readLine false raw = (some (codeOf (trim raw)).1, (codeOf (trim raw)).2) := by
  have hblank : (trim raw).isEmpty = false := by
    rw [List.isEmpty_eq_false_iff]
    intro hnil
    rw [hnil] at hne
    exact hne rfl
  have hslashes : ¬(trim raw).startsWith "//" = true := fun hstart => by
    have hbehind := slashesBehind_nil_iff.mpr ⟨hstart, (rfl : CodeState.start.quote = none)⟩
    rcases codePart_slashes (trim raw) with ⟨-, hnone⟩ | ⟨head, hcode, -, hfirst⟩
    · exact hnone [] hbehind
    · rw [List.prefix_nil.mp (hfirst [] hbehind)] at hcode
      exact hne hcode
  have hstar : ¬(trim raw).startsWith "/*" = true := fun hstart => by
    obtain ⟨more, hmore⟩ := (startsWith_iff _ _).mp hstart
    have hslash : ∀ before, ¬SlashesBehind .start ([] ++ ['/']) before := by
      rintro before ⟨⟨after, heq⟩, -⟩
      have hlength := congrArg List.length heq
      simp at hlength
      omega
    obtain ⟨read, hcode, -⟩ := codePart_marked more hslash
    rw [List.nil_append, ← hmore] at hcode
    exact hmark ⟨trimEnd read, hcode.symm⟩
  rw [readLine]
  simp only [Bool.false_eq_true, if_false, hblank, hslashes, hstar, Bool.false_or]

/-- Of a line of code without comments all is read. -/
lemma readLine_whole (hne : trim raw ≠ []) (hslashes : ∀ before, ¬SlashesBehind .start (trim raw) before)
    (hcomments : ¬"/*" <:+: trim raw) : readLine false raw = (some (trim raw), false) := by
  have hcode : codePart "//" (trim raw) = trim raw := by
    rcases codePart_slashes (trim raw) with ⟨hwhole, -⟩ | ⟨head, -, hhead, -⟩
    · rw [hwhole]
      exact dropEnd_dropEnd isBlank _
    · exact absurd hhead (hslashes head)
  have hne' : codePart "//" (trim raw) ≠ [] := by rwa [hcode]
  have hmark : ¬"/*" <:+: codePart "//" (trim raw) := by rwa [hcode]
  rw [readLine_of_code hne' fun hstart => hmark hstart.isInfix, codeOf_unmarked hmark, hcode]

lemma MarksQuoted.readLine_eq (hne : codePart "//" (trim raw) ≠ [])
    (hquoted : MarksQuoted (codePart "//" (trim raw))) :
    readLine false raw = (some (codeOf (trim raw)).1, (codeOf (trim raw)).2) := by
  refine readLine_of_code hne ?_
  rintro ⟨after, hafter⟩
  exact hquoted [] after hafter.symm rfl

lemma trimEnd_ne_marked {code : Text} (h : code = before ++ "/*" ++ after) :
    trimEnd before ≠ code := by
  intro heq
  have hle : (trimEnd before).length ≤ before.length := (dropEnd_isPrefix isBlank before).length_le
  have hlength : (trimEnd before).length = before.length + 2 + after.length := by
    rw [heq, h, List.length_append, List.length_append]
    rfl
  omega

/-- Of a line whose marks of block comments stand in literals the whole code is read exactly if there
is no such mark. Otherwise the code is read up to the first one, and what follows belongs to a comment,
which stays open behind the line unless the mark that ends comments stands there. -/
theorem whole_code_read_iff (hs : s.inComment = false) (hne : codePart "//" (trim raw) ≠ [])
    (hquoted : MarksQuoted (codePart "//" (trim raw))) :
    (readLine s.inComment raw = (some (codePart "//" (trim raw)), false) ↔
      ¬"/*" <:+: codePart "//" (trim raw)) ∧
    (¬"/*" <:+: codePart "//" (trim raw) →
      s.feed l raw = Scanner.feedCode l s (codePart "//" (trim raw))) ∧
    (∀ before after, codePart "//" (trim raw) = before ++ "/*" ++ after → ¬"/*" <:+: before →
      s.feed l raw =
        Scanner.feedCode l { s with inComment := !after.hasPart "*/" } (trimEnd before)) ∧
    ((s.feed l raw).1.inComment = true ↔ ∃ before after,
      codePart "//" (trim raw) = before ++ "/*" ++ after ∧ ¬"/*" <:+: before ∧ ¬"*/" <:+: after) := by
  have hread := hquoted.readLine_eq hne
  rw [← hs] at hread
  have hplain (h : ¬"/*" <:+: codePart "//" (trim raw)) :
      readLine s.inComment raw = (some (codePart "//" (trim raw)), false) := by
    rw [hread, codeOf_unmarked h]
  have hmarked {before after : Text} (h : codePart "//" (trim raw) = before ++ "/*" ++ after)
      (hbefore : ¬"/*" <:+: before) :
      readLine s.inComment raw = (some (trimEnd before), !after.hasPart "*/") := by
    rw [hread, codeOf_marked h hbefore]
  have hclosed (after : Text) : (!after.hasPart "*/") = true ↔ ¬"*/" <:+: after := by
    rw [Bool.not_eq_true', Bool.eq_false_iff, ne_eq, hasPart_iff (by decide)]
  refine ⟨⟨fun hwhole hin => ?_, hplain⟩, fun h => ?_, fun before after h hbefore => ?_, ?_⟩
  · obtain ⟨before, after, h, hbefore⟩ := exists_first_mark isMark_open hin
    exact trimEnd_ne_marked h
      (Option.some.inj (Prod.mk.inj ((hmarked h hbefore).symm.trans hwhole)).1)
  · rw [Scanner.feed_read (hplain h), ← hs]
  · rw [Scanner.feed_read (hmarked h hbefore)]
  · rw [Scanner.inComment_feed]
    constructor
    · intro hopen
      by_cases hin : "/*" <:+: codePart "//" (trim raw)
      · obtain ⟨before, after, h, hbefore⟩ := exists_first_mark isMark_open hin
        rw [hmarked h hbefore] at hopen
        exact ⟨before, after, h, hbefore, (hclosed after).mp hopen⟩
      · rw [hplain hin] at hopen
        cases hopen
    · rintro ⟨before, after, h, hbefore, hafter⟩
      rw [hmarked h hbefore]
      exact (hclosed after).mpr hafter

/-- A pattern in a literal hides the rest of its line. -/
theorem whole_code_read_pattern :
    let line : Text := "x = 'a/**/b'; f() \x7b"
    MarksQuoted (codePart "//" (trim line)) ∧ codePart "//" (trim line) ≠ [] ∧
      Scanner.start.feed .javascript line =
        Scanner.feedCode .javascript Scanner.start "x = 'a" := by
  intro line
  have hquoted : MarksQuoted (codePart "//" (trim line)) := by decide +kernel
  have hne : codePart "//" (trim line) ≠ [] := by decide +kernel
  obtain ⟨-, -, hmarked, -⟩ :=
    whole_code_read_iff (l := .javascript) (s := Scanner.start) rfl hne hquoted
  exact ⟨hquoted, hne, hmarked "x = 'a" "*/b'; f() \x7b" (by decide +kernel) (by decide)⟩

/-- The mark in this literal opens a comment, and the function below is not found. -/
theorem comment_behind_quoted_mark :
    let line : Text := "x = '/*';"
    let fed := (Scanner.start.feed .javascript line).1
    (CodeState.start.run line).quote = none ∧ MarksQuoted line ∧ fed.inComment = true ∧
      (fed.feed .javascript "function f() \x7b\x7d").2 = none := by
  intro line fed
  exact ⟨by decide +kernel, by decide +kernel, by decide +kernel, by decide +kernel⟩

end Marginalia.Braced
