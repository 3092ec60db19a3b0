import Mathlib.Data.List.Induction
import Mathlib.Data.List.TakeWhile
import Marginalia.Proofs.QuotedMarks

/-!
# Comments inside a line

What stands behind a block comment on its line is not read, so a line with such a comment does to the
scanner what its part before the comment does alone. The comment is left open when two slashes in it
are taken for a comment of their own.
-/

namespace Marginalia.Braced

open Text

/-! ## Where comments stand -/

/-- Where a reader of a line stands that tells literals and both kinds of comments apart. -/
inductive LinePlace where
  /-- In code or in a literal. `slash` says that a slash outside literals stands right before. -/
  | code (state : CodeState) (slash : Bool)
  | lineComment
  /-- In a block comment. `star` says that a star stands right before and may end it. -/
  | blockComment (state : CodeState) (star : Bool)
deriving Repr, DecidableEq

/-- Reads one character. -/
def LinePlace.step : LinePlace → Char → LinePlace
  | .code s slash, c =>
    if slash && c == '/' then .lineComment
    else if slash && c == '*' then .blockComment s false
    else .code (s.step c).1 (s.quote.isNone && c == '/')
  | .lineComment, _ => .lineComment
  | .blockComment s star, c => if star && c == '/' then .code s false else .blockComment s (c == '*')

/-- Where a reader stands behind a text. -/
def placeBehind (t : Text) : LinePlace := t.foldl LinePlace.step (.code .start false)

/-- Whether a text ends outside literals and comments, and not with a slash; the mark of a block
comment that follows is one. -/
def endsInCode (t : Text) : Bool :=
  match placeBehind t with
  | .code s slash => s.quote.isNone && !slash
  | _ => false

variable {t front rest : Text}

lemma endsInCode_iff : endsInCode t = true ↔ ∃ s, placeBehind t = .code s false ∧ s.quote = none := by
  rw [endsInCode]
  cases placeBehind t with
  | code s slash => cases slash <;> simp
  | lineComment => simp
  | blockComment s star => simp

lemma placeBehind_append : placeBehind (t ++ rest) = rest.foldl LinePlace.step (placeBehind t) :=
  List.foldl_append

lemma foldl_lineComment (t : Text) : t.foldl LinePlace.step .lineComment = .lineComment := by
  induction t with
  | nil => rfl
  | cons c rest ih => exact ih

lemma foldl_blanks {blanks : Text} (h : blanks.isAllBlank = true) :
    blanks.foldl LinePlace.step (.code .start false) = .code .start false := by
  induction blanks with
  | nil => rfl
  | cons c rest ih =>
    rw [isAllBlank, List.all_cons, Bool.and_eq_true] at h
    have hc : (c == '/') = false := beq_eq_false_iff_ne.mpr (ne_of_isBlank h.1 (by decide))
    rw [List.foldl_cons, LinePlace.step, CodeState.step_plain_start (isPlain_of_isBlank h.1), hc]
    exact ih h.2

lemma endsInCode_trimStart (t : Text) : endsInCode (trimStart t) = endsInCode t := by
  have hplace : placeBehind t = placeBehind (trimStart t) := by
    conv_lhs => rw [trimStart_append t, placeBehind_append, placeBehind,
      foldl_blanks (isAllBlank_indentation t)]
    rfl
  rw [endsInCode, endsInCode, hplace]

/-- Where no mark of a block comment stands, code is read on up to a comment to the end of the
line. -/
lemma placeBehind_unmarked (h : ¬"/*" <:+: t) : placeBehind t = .lineComment ∨
    ∃ slash, placeBehind t = .code (CodeState.start.run t) slash ∧
      (slash = true ↔ ∃ front, t = front ++ ['/'] ∧ (CodeState.start.run front).quote = none) ∧
      ∀ before, ¬SlashesBehind .start t before := by
  induction t using List.reverseRecOn with
  | nil =>
    refine .inr ⟨false, rfl, by simp, ?_⟩
    rintro before ⟨⟨after, heq⟩, -⟩
    simp at heq
  | append_singleton t c ih =>
    have ht : ¬"/*" <:+: t := fun hin => h (hin.trans (List.prefix_append t [c]).isInfix)
    rw [placeBehind_append]
    rcases ih ht with hline | ⟨slash, hplace, hslash, hnone⟩
    · rw [hline]
      exact .inl rfl
    · rw [hplace]
      by_cases hslashes : slash = true ∧ c = '/'
      · obtain ⟨rfl, rfl⟩ := hslashes
        exact .inl rfl
      · have hstar : ¬(slash = true ∧ c = '*') := by
          rintro ⟨hbefore, rfl⟩
          obtain ⟨front, rfl, -⟩ := hslash.mp hbefore
          exact h ⟨front, [], by rw [List.append_nil, List.append_assoc]; rfl⟩
        refine .inr ⟨(CodeState.start.run t).quote.isNone && c == '/', ?_, ?_, fun before hbefore => ?_⟩
        · rw [List.foldl_cons, List.foldl_nil, LinePlace.step, if_neg (by simpa using hslashes),
            if_neg (by simpa using hstar), CodeState.run_append]
          rfl
        · rw [Bool.and_eq_true, Option.isNone_iff_eq_none, beq_iff_eq]
          constructor
          · rintro ⟨hquote, rfl⟩
            exact ⟨t, rfl, hquote⟩
          · rintro ⟨front, heq, hquote⟩
            obtain ⟨rfl, hlast⟩ := List.append_inj' heq rfl
            exact ⟨hquote, (List.cons.inj hlast).1⟩
        · rcases slashesBehind_concat_iff.mp hbefore with hold | ⟨rfl, rfl, hquote⟩
          · exact hnone before hold
          · exact hslashes ⟨hslash.mpr ⟨before, rfl, hquote⟩, rfl⟩

/-- Code before which no comment of the line starts: no mark of a block comment stands in it, and no two
slashes outside literals, also with a slash behind it. -/
def IsUncommented (front : Text) : Prop :=
  ¬"/*" <:+: front ∧ ∀ before, ¬SlashesBehind .start (front ++ ['/']) before

lemma isUncommented_of_place {s : CodeState} (hmark : ¬"/*" <:+: front)
    (hplace : placeBehind front = .code s false) : IsUncommented front := by
  rcases placeBehind_unmarked hmark with hline | ⟨slash, hcode, hslash, hnone⟩
  · rw [hline] at hplace
    cases hplace
  · obtain rfl : slash = false := (LinePlace.code.inj (hcode.symm.trans hplace)).2
    refine ⟨hmark, fun before hbefore => ?_⟩
    rcases slashesBehind_concat_iff.mp hbefore with hold | ⟨-, heq, hquote⟩
    · exact hnone before hold
    · exact Bool.false_ne_true (hslash.mpr ⟨before, heq, hquote⟩)

/-- A text that ends in code is free of comments or has a first mark, and nothing but code before. -/
lemma exists_uncommented (h : endsInCode t = true) : ∃ front, IsUncommented front ∧
    (t = front ∨ ∃ rest, t = front ++ "/*" ++ rest) := by
  obtain ⟨s, hplace, -⟩ := endsInCode_iff.mp h
  by_cases hmark : "/*" <:+: t
  · obtain ⟨front, rest, rfl, hfront⟩ := exists_first_mark isMark_open hmark
    refine ⟨front, ?_, .inr ⟨rest, rfl⟩⟩
    rw [List.append_assoc, placeBehind_append] at hplace
    rcases placeBehind_unmarked hfront with hline | ⟨slash, hcode, -⟩
    · rw [hline, foldl_lineComment] at hplace
      cases hplace
    · cases slash with
      | false => exact isUncommented_of_place hfront hcode
      | true =>
        -- A slash before the mark would start a comment to the end of the line.
        have hline : ("/*" ++ rest : Text).foldl LinePlace.step
            (.code (CodeState.start.run front) true) = .lineComment :=
          foldl_lineComment ('*' :: rest)
        rw [hcode, hline] at hplace
        cases hplace
  · exact ⟨t, isUncommented_of_place hmark hplace, .inl rfl⟩

/-! ## What is read of a line with a comment -/

variable {raw more : Text}

lemma trim_marked (t more : Text) : trim (t ++ "/*" ++ more) = trimStart t ++ "/*" ++ trimEnd more := by
  have hstart : trimStart (t ++ ("/*" ++ more)) = trimStart t ++ ("/*" ++ more) := by
    rw [trimStart, List.dropWhile_append]
    split
    · next hempty =>
      rw [trimStart, List.isEmpty_iff.mp hempty]
      rfl
    · rfl
  rw [List.append_assoc, trim, hstart, ← List.append_assoc,
    isMark_open.trimEnd_append]

/-- Of a line that begins with a comment nothing is read. -/
lemma readLine_mark (htrim : trim raw = "/*" ++ more) :
    readLine false raw = (none, !more.hasPart "*/") := by
  rw [readLine, htrim]
  rfl

/-- Of a line with code before its first mark this code is read. The comment is left open if the mark
that ends comments does not stand behind, or stands there behind two slashes. -/
lemma readLine_marked (hfront : IsUncommented front) (hne : front ≠ [])
    (htrim : trim raw = front ++ "/*" ++ more) : ∃ read, read <+: more ∧
      (readLine false raw).1 = some (trimEnd front) ∧
      ((readLine false raw).2 = true ↔ ¬"*/" <:+: read) ∧
      ((read = more ∧ ∀ before, ¬SlashesBehind .start (trim raw) before) ∨
        SlashesBehind .start (trim raw) (front ++ "/*" ++ read) ∧
          ∀ before, SlashesBehind .start (trim raw) before →
            (front ++ "/*" ++ read : Text) <+: before) := by
  obtain ⟨read, hcode, hread, hslashes⟩ := codePart_marked more hfront.2
  rw [← htrim] at hcode hslashes
  have hline : readLine false raw = (some (trimEnd front), !(trimEnd read).hasPart "*/") := by
    rw [readLine_of_code, codeOf_marked hcode hfront.1]
    · rw [hcode]
      simp
    · rintro ⟨rest, hrest⟩
      rw [hcode] at hrest
      exact hfront.1 (isMark_open.isPrefix hne hrest.symm).isInfix
  refine ⟨read, hread, by rw [hline], ?_, hslashes⟩
  rw [hline, Bool.not_eq_true', Bool.eq_false_iff, ne_eq, hasPart_iff (by decide),
    isMark_close.infix_trimEnd_iff]

lemma fst_readLine_marked (hfront : IsUncommented front) (htrim : trim raw = front ++ "/*" ++ more) :
    (readLine false raw).1 = if front = [] then none else some (trimEnd front) := by
  split
  · next hnil =>
    subst hnil
    rw [readLine_mark htrim]
  · next hne =>
    obtain ⟨read, -, hread, -⟩ := readLine_marked hfront hne htrim
    exact hread

lemma readLine_uncommented (hfront : IsUncommented front) (htrim : trim raw = trimEnd front)
    (hne : trimEnd front ≠ []) : (readLine false raw).1 = some (trimEnd front) := by
  obtain ⟨margin, hmargin, -⟩ := trimEnd_append front
  have hmark : ¬"/*" <:+: trimEnd front := fun hin =>
    hfront.1 (hin.trans (dropEnd_isPrefix isBlank front).isInfix)
  have hslashes (before : Text) : ¬SlashesBehind .start (trimEnd front) before := by
    intro hbehind
    have hmore := hbehind.append (margin ++ ['/'])
    rw [← List.append_assoc, ← hmargin] at hmore
    exact hfront.2 before hmore
  rw [← htrim] at hne hmark hslashes ⊢
  rw [readLine_whole hne hslashes hmark]

/-- Code in front of a comment, up to the first mark of its line: it is what is read of the line, with
the comment or without. -/
lemma exists_front_of_endsInCode (h : endsInCode t = true) : ∃ front, IsUncommented front ∧
    (readLine false t).1 = (if front = [] then none else some (trimEnd front)) ∧
    ∀ more, ∃ more', trim (t ++ "/*" ++ more) = front ++ "/*" ++ more' ∧ trimEnd more <:+ more' := by
  rw [← endsInCode_trimStart] at h
  obtain ⟨front, hfront, hstart | ⟨rest, hstart⟩⟩ := exists_uncommented h
  · refine ⟨front, hfront, ?_, fun more => ⟨trimEnd more, ?_, List.suffix_rfl⟩⟩
    · split
      · next hnil =>
        rw [readLine, trim, hstart, hnil]
        rfl
      · next hne =>
        have htrim : trim t = trimEnd front := by rw [trim, hstart]
        refine readLine_uncommented hfront htrim fun hnil => hne ?_
        rw [← hstart]
        exact List.dropWhile_eq_nil_iff.mpr
          (List.all_eq_true.mp ((trim_eq_nil_iff t).mp (htrim.trans hnil)))
    · rw [trim_marked, hstart]
  · refine ⟨front, hfront, ?_, fun more => ⟨rest ++ "/*" ++ trimEnd more, ?_, ?_⟩⟩
    · have htrim : trim t = front ++ "/*" ++ trimEnd rest := by
        rw [trim, hstart, isMark_open.trimEnd_append]
      exact fst_readLine_marked hfront htrim
    · rw [trim_marked, hstart]
      simp only [List.append_assoc]
    · exact List.suffix_append _ _

/-! ## Comments that are left open -/

/-- The first comment of a line is left open: code stands before it, and between its marks, or with the
slash of the second one, two slashes that would be outside literals if the comment were code. -/
def LeavesOpen (line : Text) : Prop :=
  ∃ front inside rest before, line = front ++ "/*" ++ inside ++ "*/" ++ rest ∧ front ≠ [] ∧
    ¬"/*" <:+: front ∧ ¬"*/" <:+: inside ∧ SlashesBehind .start line before ∧
    before <+: front ++ "/*" ++ inside ++ ['*']

/-- What stands before a text in which a mark is first complete. -/
lemma isPrefix_of_not_closed {read inside : Text} (h : read <+: inside ++ "*/" ++ rest)
    (hread : ¬"*/" <:+: read) : read <+: inside ++ ['*'] := by
  have hmark : inside ++ "*/" = (inside ++ ['*']) ++ ['/'] := by
    rw [List.append_assoc]
    rfl
  rcases List.prefix_or_prefix_of_prefix h (List.prefix_append _ rest) with hin | hin
  · rw [hmark] at hin
    rcases List.prefix_concat_iff.mp hin with rfl | hbefore
    · exact absurd ⟨inside, [], by rw [List.append_nil, hmark]⟩ hread
    · exact hbefore
  · exact absurd ((List.suffix_append inside "*/").isInfix.trans hin.isInfix) hread

lemma not_closed_concat {inside : Text} (h : ¬"*/" <:+: inside) : ¬"*/" <:+: inside ++ ['*'] := by
  rw [List.infix_concat_iff, not_or]
  refine ⟨?_, h⟩
  rintro ⟨front, hfront⟩
  have hlast : (front ++ ['*']) ++ ['/'] = inside ++ ['*'] := by
    rw [← hfront, List.append_assoc]
    rfl
  exact absurd (List.cons.inj (List.append_inj' hlast rfl).2).1 (by decide)

lemma opened_iff_leavesOpen (hfront : IsUncommented front) (htrim : trim raw = front ++ "/*" ++ more)
    (hclosed : "*/" <:+: more) : (readLine false raw).2 = true ↔ LeavesOpen (trim raw) := by
  obtain ⟨inside, rest, rfl, hinside⟩ := exists_first_mark isMark_close hclosed
  have hline (front' inside' rest' : Text)
      (h : trim raw = front' ++ "/*" ++ inside' ++ "*/" ++ rest') (hfront' : ¬"/*" <:+: front')
      (hinside' : ¬"*/" <:+: inside') : front = front' ∧ inside = inside' := by
    have heq : front ++ "/*" ++ (inside ++ "*/" ++ rest) =
        front' ++ "/*" ++ (inside' ++ "*/" ++ rest') := by
      rw [← htrim, h]
      simp only [List.append_assoc]
    obtain ⟨hfronts, hmore⟩ := first_mark_unique isMark_open heq hfront.1 hfront'
    exact ⟨hfronts, (first_mark_unique isMark_close hmore hinside hinside').1⟩
  by_cases hne : front = []
  · subst hne
    rw [readLine_mark htrim, Bool.not_eq_true', Bool.eq_false_iff, ne_eq, hasPart_iff (by decide)]
    refine ⟨fun hopen => absurd hclosed hopen, ?_⟩
    rintro ⟨front, inside', rest', before, h, hne, hmark, hinside', -⟩
    exact absurd (hline front inside' rest' h hmark hinside').1.symm hne
  · obtain ⟨read, hread, -, hopen, hslashes⟩ := readLine_marked hfront hne htrim
    rw [hopen]
    constructor
    · intro hlacks
      have hinside := isPrefix_of_not_closed hread hlacks
      rcases hslashes with ⟨rfl, -⟩ | ⟨hbefore, -⟩
      · exact absurd hclosed hlacks
      · refine ⟨front, inside, rest, _, ?_, hne, hfront.1, ‹_›, hbefore, ?_⟩
        · rw [htrim]
          simp only [List.append_assoc]
        · rw [List.append_assoc _ inside]
          exact (List.prefix_append_right_inj _).mpr hinside
    · rintro ⟨front', inside', rest', before, h, -, hmark, hinside', hbefore, hle⟩ hclosed
      obtain ⟨rfl, rfl⟩ := hline front' inside' rest' h hmark hinside'
      rcases hslashes with ⟨-, hnone⟩ | ⟨-, hfirst⟩
      · exact hnone before hbefore
      · have hin : read <+: inside ++ ['*'] := by
          rw [List.append_assoc _ inside] at hle
          exact (List.prefix_append_right_inj _).mp ((hfirst before hbefore).trans hle)
        exact not_closed_concat hinside (hclosed.trans hin.isInfix)

/-! ## Feeding a line with a comment -/

variable {l : Language} {s : Scanner} {a b c : Text}

/-- A line with a block comment behind code does to the scanner what its part before the comment does
alone, but for a comment that it leaves open. So it does the same as the line with a space for the
comment exactly if what stands behind that space changes neither blocks, nor the header that waits for
its brace, nor the name of the class, and leaves a comment open if the comment of the line is. -/
theorem feed_comment_iff (hs : s.inComment = false) (ha : endsInCode a = true) :
    let line := a ++ "/*" ++ c ++ "*/" ++ b
    let spaced := a ++ " " ++ b
    (s.feed l line).2 = (s.feed l a).2 ∧
    (s.feed l line).1 = { (s.feed l a).1 with inComment := (s.feed l line).1.inComment } ∧
    ((s.feed l line).1.inComment = true ↔ LeavesOpen (trim line)) ∧
    ((s.feed l line).1 = (s.feed l spaced).1 ↔
      (s.feed l spaced).1.blocks = (s.feed l a).1.blocks ∧
      (s.feed l spaced).1.pending = (s.feed l a).1.pending ∧
      (s.feed l spaced).1.className = (s.feed l a).1.className ∧
      ((s.feed l spaced).1.inComment = true ↔ LeavesOpen (trim line))) := by
  intro line spaced
  have hline : line = a ++ "/*" ++ (c ++ "*/" ++ b) := by
    simp only [line, List.append_assoc]
  obtain ⟨front, hfront, hread, hmarked⟩ := exists_front_of_endsInCode ha
  obtain ⟨more, htrim, hmore⟩ := hmarked (c ++ "*/" ++ b)
  rw [← hline] at htrim
  have hclosed : "*/" <:+: more := by
    have hin : "*/" <:+: trimEnd (c ++ "*/" ++ b) :=
      isMark_close.infix_trimEnd_iff.mpr ⟨c, b, rfl⟩
    exact hin.trans hmore.isInfix
  have hcode : (readLine s.inComment line).1 = (readLine s.inComment a).1 := by
    rw [hs, fst_readLine_marked hfront htrim, hread]
  obtain ⟨hnode, hstate⟩ := Scanner.feed_of_same_code (l := l) hcode
  rw [← Scanner.inComment_feed l] at hstate
  have hopen : (s.feed l line).1.inComment = true ↔ LeavesOpen (trim line) := by
    rw [Scanner.inComment_feed, hs]
    exact opened_iff_leavesOpen hfront htrim hclosed
  refine ⟨hnode, hstate, hopen, fun heq => ?_, ?_⟩
  · rw [← heq, hstate]
    exact ⟨rfl, rfl, rfl, hopen⟩
  · rintro ⟨hblocks, hpending, hname, hspaced⟩
    have hcomment : (s.feed l line).1.inComment = (s.feed l spaced).1.inComment :=
      Bool.eq_iff_iff.mpr (hopen.trans hspaced.symm)
    rw [hstate, hcomment]
    dsimp only
    rw [← hblocks, ← hpending, ← hname]

/-- An address in a comment leaves the comment open. -/
theorem feed_comment_with_address :
    let line : Text := "g(); " ++ "/*" ++ " see http://x " ++ "*/" ++ " h();"
    endsInCode "g(); " = true ∧ (Scanner.start.feed .c line).1.inComment = true ∧
      (Scanner.start.feed .c line).2 = (Scanner.start.feed .c "g(); ").2 := by
  intro line
  have hcode : endsInCode "g(); " = true := by decide +kernel
  obtain ⟨hnode, -, hopen, -⟩ := feed_comment_iff (l := .c) (s := Scanner.start) (b := " h();")
    (c := " see http://x ") rfl hcode
  refine ⟨hcode, hopen.mpr ?_, hnode⟩
  refine ⟨"g(); ", " see http://x ", " h();", "g(); /* see http:", by decide +kernel, by decide,
    by decide, by decide, ⟨⟨"x */ h();", by decide +kernel⟩, by decide⟩, by decide⟩

/-- The brace behind this comment is not read, and the function stays open. -/
theorem brace_behind_comment :
    let line : Text := "void f() \x7b " ++ "/*" ++ " c " ++ "*/" ++ " \x7d"
    let spaced : Text := "void f() \x7b " ++ " " ++ " \x7d"
    endsInCode "void f() \x7b " = true ∧ ¬"*/" <:+: (" c " : Text) ∧
      (Scanner.start.feed .c line).1.blocks = [.functionBody] ∧
      (Scanner.start.feed .c spaced).1.blocks = [] := by
  intro line spaced
  exact ⟨by decide +kernel, by decide, by decide +kernel, by decide +kernel⟩

end Marginalia.Braced
