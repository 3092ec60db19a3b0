import Marginalia.Proofs.Margins
import Marginalia.Proofs.PrintedCalls
import Marginalia.Proofs.QuotedMarks

/-!
# Code before comments

What is read of a line outside block comments is the text before its first comment, of whichever kind.
One reading from the left finds the place where it starts; the scanner searches for two slashes
outside literals first, and then for the mark of a block comment before them.
-/

namespace Marginalia

namespace Text

/-- The text before the first comment: before two slashes outside literals and before the mark of a
block comment. -/
def beforeComment (s : CodeState) : Text → Text
  | [] => []
  | c :: rest =>
    if (s.quote.isNone && startsWith (c :: rest) "//") || startsWith (c :: rest) "/*" then []
    else c :: beforeComment (s.step c).1 rest

/-- The text before the first two slashes outside literals. -/
def beforeSlashes (s : CodeState) (t : Text) : Text :=
  (splitAtCode? (fun _ t => t.startsWith "//") s t).elim t Prod.fst

variable {s : CodeState} {c : Char} {t rest : Text}

lemma startsWith_iff_isPrefix (t mark : Text) : t.startsWith mark = true ↔ mark <+: t := by
  rw [startsWith_iff]
  exact exists_congr fun rest => eq_comm

/-! ## One reading for two searches -/

lemma beforeSlashes_nil (h : SlashesBehind s (c :: rest) []) : beforeSlashes s (c :: rest) = [] := by
  rw [beforeSlashes, splitAtCode?_slashes_nil h]
  rfl

lemma beforeSlashes_cons (h : ¬SlashesBehind s (c :: rest) []) :
    beforeSlashes s (c :: rest) = c :: beforeSlashes (s.step c).1 rest := by
  rw [beforeSlashes, beforeSlashes, splitAtCode?_slashes_cons h]
  cases splitAtCode? (fun _ t => t.startsWith "//") (s.step c).1 rest <;> rfl

lemma beforeSlashes_isPrefix (s : CodeState) (t : Text) : beforeSlashes s t <+: t := by
  rw [beforeSlashes]
  cases hsplit : splitAtCode? (fun _ t => t.startsWith "//") s t with
  | none => exact List.prefix_rfl
  | some pair => exact ⟨pair.2, (eq_of_splitAtCode? hsplit).symm⟩

/-- Slashes do not cut a mark of a block comment apart. -/
lemma mark_isPrefix_beforeSlashes_iff (h : ¬SlashesBehind s (c :: rest) []) :
    "/*" <+: c :: beforeSlashes (s.step c).1 rest ↔ "/*" <+: c :: rest := by
  rw [← beforeSlashes_cons h]
  refine ⟨fun hmark => hmark.trans (beforeSlashes_isPrefix s _), ?_⟩
  rintro ⟨more, hmore⟩
  obtain ⟨rfl, rfl⟩ : '/' = c ∧ '*' :: more = rest := List.cons.inj hmore
  have hstar : ¬SlashesBehind (s.step '/').1 ('*' :: more) [] := by
    rintro ⟨⟨after, heq⟩, -⟩
    cases (List.cons.inj heq).1
  rw [beforeSlashes_cons h, beforeSlashes_cons hstar]
  exact ⟨_, rfl⟩

lemma beforeComment_of_slashes (h : SlashesBehind s (c :: rest) []) :
    beforeComment s (c :: rest) = [] := by
  obtain ⟨hstart, hquote⟩ := slashesBehind_nil_iff.mp h
  rw [beforeComment, hstart, hquote]
  rfl

lemma beforeComment_of_mark (h : "/*" <+: c :: rest) : beforeComment s (c :: rest) = [] := by
  rw [beforeComment, (startsWith_iff_isPrefix _ _).mpr h, Bool.or_true, if_pos rfl]

lemma beforeComment_cons (hslashes : ¬SlashesBehind s (c :: rest) []) (hmark : ¬"/*" <+: c :: rest) :
    beforeComment s (c :: rest) = c :: beforeComment (s.step c).1 rest := by
  rw [beforeComment, if_neg]
  rw [Bool.or_eq_true, Bool.and_eq_true, Option.isNone_iff_eq_none, startsWith_iff_isPrefix _ "/*",
    not_or]
  exact ⟨fun h => hslashes (slashesBehind_nil_iff.mpr h.symm), hmark⟩

lemma beforeComment_cons_of_ne (hc : c ≠ '/') (s : CodeState) (rest : Text) :
    beforeComment s (c :: rest) = c :: beforeComment (s.step c).1 rest := by
  refine beforeComment_cons ?_ ?_
  · rintro ⟨⟨after, heq⟩, -⟩
    exact hc (List.cons.inj heq).1
  · rintro ⟨after, heq⟩
    exact hc (List.cons.inj heq).1.symm

/-- A block comment is looked for before the slashes only, and that makes no difference. -/
lemma beforeComment_eq (s : CodeState) (t : Text) : beforeComment s t =
    (cut? "/*" (beforeSlashes s t)).elim (beforeSlashes s t) Prod.fst := by
  induction t generalizing s with
  | nil => rfl
  | cons c rest ih =>
    by_cases hslashes : SlashesBehind s (c :: rest) []
    · rw [beforeSlashes_nil hslashes, beforeComment_of_slashes hslashes]
      rfl
    · rw [beforeSlashes_cons hslashes]
      by_cases hmark : "/*" <+: c :: rest
      · obtain ⟨more, hmore⟩ := (mark_isPrefix_beforeSlashes_iff hslashes).mpr hmark
        have hcut : cut? "/*" (c :: beforeSlashes (s.step c).1 rest) = some ([], more) :=
          (cut?_eq_some_iff isMark_open).mpr ⟨hmore.symm, by decide⟩
        rw [beforeComment_of_mark hmark, hcut]
        rfl
      · have hafter : after? "/*" (c :: beforeSlashes (s.step c).1 rest) = none := by
          rw [Option.eq_none_iff_forall_ne_some]
          intro more hmore
          rw [after?_eq_some_iff] at hmore
          exact hmark ((mark_isPrefix_beforeSlashes_iff hslashes).mp ⟨more, hmore.symm⟩)
        rw [beforeComment_cons hslashes hmark, cut?, hafter, ih]
        cases cut? "/*" (beforeSlashes (s.step c).1 rest) <;> rfl

/-- The code of a text is its part before the first comment, without trailing blanks. -/
lemma fst_codeOf_eq (t : Text) : (Braced.codeOf t).1 = trimEnd (beforeComment .start t) := by
  have hcode : codePart "//" t = trimEnd (beforeSlashes .start t) := codePart_eq rfl t
  rw [beforeComment_eq]
  by_cases hin : "/*" <:+: beforeSlashes .start t
  · obtain ⟨before, after, heq, hbefore⟩ := exists_first_mark isMark_open hin
    have hcut : cut? "/*" (beforeSlashes .start t) = some (before, after) :=
      (cut?_eq_some_iff isMark_open).mpr ⟨heq, hbefore⟩
    have hmarked : codePart "//" t = before ++ "/*" ++ trimEnd after := by
      rw [hcode, heq, isMark_open.trimEnd_append]
    rw [Braced.codeOf_marked hmarked hbefore, hcut]
    rfl
  · have hunmarked : ¬"/*" <:+: codePart "//" t := by
      rwa [hcode, isMark_open.infix_trimEnd_iff]
    rw [Braced.codeOf_unmarked hunmarked, (cut?_eq_none_iff (by decide)).mpr hin, hcode]
    rfl

/-! ## Margins -/

lemma beforeComment_blanks {blanks : Text} (h : blanks.isAllBlank = true) (t : Text) :
    beforeComment .start (blanks ++ t) = blanks ++ beforeComment .start t := by
  induction blanks with
  | nil => rfl
  | cons c rest ih =>
    rw [isAllBlank, List.all_cons, Bool.and_eq_true] at h
    have hc : c ≠ '/' := ne_of_isBlank h.1 (by decide)
    rw [List.cons_append, beforeComment_cons_of_ne hc,
      CodeState.step_plain_start (isPlain_of_isBlank h.1), ih h.2, List.cons_append]

lemma beforeComment_of_not_mem (h : '/' ∉ t) (s : CodeState) : beforeComment s t = t := by
  induction t generalizing s with
  | nil => rfl
  | cons c rest ih =>
    obtain ⟨hc, hrest⟩ := not_or.mp (List.mem_cons.not.mp h)
    rw [beforeComment_cons_of_ne (Ne.symm hc), ih hrest]

lemma startsWith_append_blanks {blanks : Text} (h : blanks.isAllBlank = true) (t mark : Text)
    (hmark : mark.all (!isBlank ·) = true) : startsWith (t ++ blanks) mark = startsWith t mark := by
  cases blanks with
  | nil => rw [List.append_nil]
  | cons d rest =>
    rw [isAllBlank, List.all_cons, Bool.and_eq_true] at h
    refine startsWith_append_stop (fun hmem => ?_) t rest
    simpa [h.1] using List.all_eq_true.mp hmark d hmem

/-- Blanks at the end of a text stand in its comment or before none. -/
lemma exists_beforeComment_append {blanks : Text} (h : blanks.isAllBlank = true) (s : CodeState)
    (t : Text) : ∃ margin : Text, margin.isAllBlank = true ∧
      beforeComment s (t ++ blanks) = beforeComment s t ++ margin := by
  induction t generalizing s with
  | nil => exact ⟨blanks, h, beforeComment_of_not_mem (not_mem_of_isAllBlank h (by decide)) s⟩
  | cons c rest ih =>
    have hslashes := startsWith_append_blanks h (c :: rest) "//" (by decide)
    have hmark := startsWith_append_blanks h (c :: rest) "/*" (by decide)
    rw [List.cons_append] at hslashes hmark
    rw [List.cons_append, beforeComment, beforeComment, hslashes, hmark]
    split
    · exact ⟨[], rfl, rfl⟩
    · obtain ⟨margin, hmargin, heq⟩ := ih (s.step c).1
      exact ⟨margin, hmargin, by rw [heq, List.cons_append]⟩

lemma trim_beforeComment (raw : Text) :
    trim (beforeComment .start raw) = trim (beforeComment .start (trim raw)) := by
  obtain ⟨front, back, hraw, hfront, hback⟩ := trim_append raw
  obtain ⟨margin, hmargin, heq⟩ := exists_beforeComment_append hback .start (trim raw)
  conv_lhs => rw [hraw, List.append_assoc, beforeComment_blanks hfront, trim_blanks hfront, heq,
    trim_margin hmargin]

end Text

namespace Braced

open Text

/-- Outside block comments the text of a line before its first comment is what is read of it, where it
is more than blanks. -/
lemma fst_readLine_eq (raw : Text) : (readLine false raw).1 =
    if trim (beforeComment .start raw) = [] then none
    else some (trim (beforeComment .start raw)) := by
  rw [trim_beforeComment, readLine]
  simp only [Bool.false_eq_true, if_false]
  cases hraw : trim raw with
  | nil => rfl
  | cons c rest =>
    by_cases hslashes : SlashesBehind .start (c :: rest) []
    · rw [(slashesBehind_nil_iff.mp hslashes).1, Bool.or_true, if_pos rfl,
        beforeComment_of_slashes hslashes]
      rfl
    · have hstart : startsWith (c :: rest) "//" = false := by
        rw [Bool.eq_false_iff]
        exact fun hstart => hslashes (slashesBehind_nil_iff.mpr ⟨hstart, rfl⟩)
      rw [hstart, List.isEmpty_cons, Bool.or_false, if_neg Bool.false_ne_true]
      by_cases hmark : "/*" <+: c :: rest
      · rw [(startsWith_iff_isPrefix _ _).mpr hmark, if_pos rfl, beforeComment_of_mark hmark]
        rfl
      · have hc : isBlank c = false := head?_trim (by rw [hraw]; rfl)
        have hstar : ¬startsWith (c :: rest) "/*" = true := by
          rwa [startsWith_iff_isPrefix]
        have htrim : trim (c :: beforeComment (CodeState.start.step c).1 rest) =
            trimEnd (c :: beforeComment (CodeState.start.step c).1 rest) := by
          rw [trim, trimStart, List.dropWhile_cons_of_neg (by simp [hc])]
        have hne : trimEnd (c :: beforeComment (CodeState.start.step c).1 rest) ≠ [] := by
          rw [trimEnd, ne_eq, dropEnd_eq_nil_iff, List.all_cons, hc]
          exact Bool.false_ne_true
        rw [if_neg hstar, fst_codeOf_eq, beforeComment_cons hslashes hmark, htrim, if_neg hne]

end Braced
end Marginalia
