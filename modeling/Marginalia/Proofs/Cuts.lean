import Marginalia.Proofs.CodeScan
import Marginalia.Proofs.Names
import Marginalia.Repair.Definitions
import Marginalia.Repair.Layout

/-!
# Cuts

What reads a text from the front tells what it took and what follows. Put together again, the pieces
are the text.
-/

namespace Marginalia

namespace Text

lemma after?_eq_some_iff (mark t rest : Text) : after? mark t = some rest ↔ t = mark ++ rest := by
  induction mark generalizing t with
  | nil => simp [after?, eq_comm]
  | cons m mark ih =>
    cases t with
    | nil => simp [after?]
    | cons c t =>
      by_cases hc : m = c
      · subst hc
        simp [after?, ih]
      · simp [after?, hc, Ne.symm hc]

lemma startsWith_iff (t mark : Text) : t.startsWith mark = true ↔ ∃ rest, t = mark ++ rest := by
  simp only [startsWith, Option.isSome_iff_exists, after?_eq_some_iff]

lemma endsWith_char (mark : Char) (t : Text) : t.endsWith [mark] = (t.getLast? == some mark) := by
  rw [← List.head?_reverse]
  cases hr : t.reverse with
  | nil => simp [endsWith, startsWith, after?, hr]
  | cons c rest =>
    by_cases hc : mark = c
    · simp [endsWith, startsWith, after?, hr, hc]
    · simp [endsWith, startsWith, after?, hr, hc, Ne.symm hc]

lemma trimStart_append (t : Text) : t = t.indentation ++ trimStart t :=
  List.takeWhile_append_dropWhile.symm

lemma trimStart_blanks {blanks : Text} (h : blanks.isAllBlank = true) (t : Text) :
    trimStart (blanks ++ t) = trimStart t := by
  induction blanks with
  | nil => rfl
  | cons c rest ih =>
    rw [isAllBlank, List.all_cons, Bool.and_eq_true] at h
    rw [trimStart, List.cons_append, List.dropWhile_cons_of_pos h.1]
    exact ih h.2

lemma trimStart_blanks_cons {gap : Text} {c : Char} (hgap : gap.isAllBlank = true)
    (hc : isBlank c = false) (rest : Text) : trimStart (gap ++ c :: rest) = c :: rest := by
  rw [trimStart_blanks hgap, trimStart, List.dropWhile_cons_of_neg (by simp [hc])]

lemma after?_append_stop {mark : Text} {d : Char} (hmark : d ∉ mark) (t rest : Text) :
    after? mark (t ++ d :: rest) = (after? mark t).map (· ++ d :: rest) := by
  induction mark generalizing t with
  | nil => rfl
  | cons m mark ih =>
    obtain ⟨hm, hmark⟩ := not_or.mp (List.mem_cons.not.mp hmark)
    cases t with
    | nil =>
      have hne : ¬m = d := Ne.symm hm
      simp only [List.nil_append, after?, if_neg hne, Option.map_none]
    | cons c t =>
      simp only [List.cons_append, after?]
      split
      · exact ih hmark t
      · rfl

lemma startsWith_append_stop {mark : Text} {d : Char} (hmark : d ∉ mark) (t rest : Text) :
    startsWith (t ++ d :: rest) mark = startsWith t mark := by
  rw [startsWith, startsWith, after?_append_stop hmark, Option.isSome_map]

lemma isAllBlank_indentation (t : Text) : t.indentation.isAllBlank = true := List.all_takeWhile

lemma trimEnd_blanks {blanks : Text} (h : blanks.isAllBlank = true) : trimEnd blanks = [] :=
  (dropEnd_eq_nil_iff isBlank blanks).mpr h

lemma trimEnd_append (t : Text) : ∃ margin : Text, t = trimEnd t ++ margin ∧
    margin.isAllBlank = true :=
  dropEnd_append isBlank t

lemma eq_of_afterBlanksAnd? {mark t rest : Text} (h : afterBlanksAnd? mark t = some rest) :
    t = t.indentation ++ (mark ++ rest) := by
  rw [← (after?_eq_some_iff mark _ rest).mp h]
  exact trimStart_append t

lemma eq_of_afterGap? {t rest : Text} (h : afterGap? t = some rest) :
    ∃ gap : Text, t = gap ++ rest ∧ gap.isAllBlank = true := by
  cases t with
  | nil => cases h
  | cons c t =>
    rw [afterGap?] at h
    split at h
    · next hc =>
      refine ⟨c :: indentation t, ?_, ?_⟩
      · rw [← Option.some.inj h, List.cons_append, ← trimStart_append]
      · rw [isAllBlank, List.all_cons, hc]
        exact isAllBlank_indentation t
    · cases h

lemma eq_of_word? {t word rest : Text} (h : word? t = some (word, rest)) : t = word ++ rest := by
  cases t with
  | nil => cases h
  | cons c t =>
    rw [word?] at h
    split at h
    · obtain ⟨rfl, rfl⟩ := Prod.mk.inj (Option.some.inj h)
      rw [List.cons_append, List.takeWhile_append_dropWhile]
    · cases h

lemma eq_of_name? {t name rest : Text} (h : name? t = some (name, rest)) :
    t = name ++ rest ∧ name.all isWordChar = true := by
  cases t with
  | nil => cases h
  | cons c t =>
    rw [name?] at h
    split at h
    · next hc =>
      obtain ⟨rfl, rfl⟩ := Prod.mk.inj (Option.some.inj h)
      refine ⟨by rw [List.cons_append, List.takeWhile_append_dropWhile], ?_⟩
      rw [List.all_cons, isWordChar_of_isNameStart hc]
      exact List.all_takeWhile
    · cases h

lemma eq_of_path? {t path rest : Text} (h : path? t = some (path, rest)) : t = path ++ rest := by
  cases t with
  | nil => cases h
  | cons c t =>
    rw [path?] at h
    split at h
    · obtain ⟨rfl, rfl⟩ := Prod.mk.inj (Option.some.inj h)
      rw [List.cons_append, List.takeWhile_append_dropWhile]
    · cases h

lemma eq_of_splitAtPlace? {p : Option Char → Text → Bool} {prev : Option Char} {t head tail : Text}
    (h : splitAtPlace? p prev t = some (head, tail)) : t = head ++ tail := by
  induction t generalizing prev head with
  | nil => cases h
  | cons c rest ih =>
    rw [splitAtPlace?] at h
    split at h
    · obtain ⟨rfl, rfl⟩ := Prod.mk.inj (Option.some.inj h)
      rfl
    · obtain ⟨⟨head', tail'⟩, hrest, heq⟩ := Option.map_eq_some_iff.mp h
      obtain ⟨rfl, rfl⟩ := Prod.mk.inj heq
      rw [ih hrest]
      rfl

lemma eq_of_splitAtCode? {stop : Nat → Text → Bool} {s : CodeState} {t head tail : Text}
    (h : splitAtCode? stop s t = some (head, tail)) : t = head ++ tail := by
  induction t generalizing s head with
  | nil => cases h
  | cons c rest ih =>
    have hlater (hmap : (splitAtCode? stop (s.step c).1 rest).map (fun p => (c :: p.1, p.2)) =
        some (head, tail)) : c :: rest = head ++ tail := by
      obtain ⟨⟨head', tail'⟩, hrest, heq⟩ := Option.map_eq_some_iff.mp hmap
      obtain ⟨rfl, rfl⟩ := Prod.mk.inj heq
      rw [ih hrest]
      rfl
    rw [splitAtCode?] at h
    split at h
    · split at h
      · obtain ⟨rfl, rfl⟩ := Prod.mk.inj (Option.some.inj h)
        rfl
      · exact hlater h
    · exact hlater h

lemma splitAtCode?_of_not_mem {m : Char} {mark t : Text} (h : m ∉ t) (s : CodeState) :
    splitAtCode? (fun _ rest => rest.startsWith (m :: mark)) s t = none := by
  induction t generalizing s with
  | nil => rfl
  | cons c rest ih =>
    obtain ⟨hc, hrest⟩ := not_or.mp (List.mem_cons.not.mp h)
    have hstart : startsWith (c :: rest) (m :: mark) = false := by simp [startsWith, after?, hc]
    rw [splitAtCode?, ih hrest]
    cases (s.step c).2 <;> simp [hstart]

/-- A condition on places in code that looks at the depth and at one character. -/
def OneChar (stop : Nat → Text → Bool) : Prop :=
  ∀ depth c t t', stop depth (c :: t) = stop depth (c :: t')

section

variable {stop : Nat → Text → Bool}

lemma splitAtCode?_append (hstop : OneChar stop) (s : CodeState) (t more : Text) :
    splitAtCode? stop s (t ++ more) =
      match splitAtCode? stop s t with
      | some (head, tail) => some (head, tail ++ more)
      | none => (splitAtCode? stop (s.run t) more).map fun (head, tail) => (t ++ head, tail) := by
  induction t generalizing s with
  | nil =>
    rw [List.nil_append, splitAtCode?, CodeState.run_nil]
    cases splitAtCode? stop s more <;> rfl
  | cons c rest ih =>
    have hlater : (splitAtCode? stop (s.step c).1 (rest ++ more)).map (fun p => (c :: p.1, p.2)) =
        match (splitAtCode? stop (s.step c).1 rest).map (fun p => (c :: p.1, p.2)) with
        | some (head, tail) => some (head, tail ++ more)
        | none => (splitAtCode? stop (s.run (c :: rest)) more).map fun (head, tail) =>
            (c :: rest ++ head, tail) := by
      rw [ih, CodeState.run_cons]
      cases splitAtCode? stop (s.step c).1 rest with
      | some pair => rfl
      | none =>
        rw [Option.map_none, Option.map_map]
        rfl
    rw [List.cons_append, splitAtCode?, splitAtCode?]
    cases (s.step c).2 with
    | none => exact hlater
    | some depth =>
      simp only [hstop depth c (rest ++ more) rest]
      split
      · rfl
      · exact hlater

lemma splitAtCode?_append_eq_none_iff (hstop : OneChar stop) (s : CodeState) (t more : Text) :
    splitAtCode? stop s (t ++ more) = none ↔
      splitAtCode? stop s t = none ∧ splitAtCode? stop (s.run t) more = none := by
  rw [splitAtCode?_append hstop]
  cases splitAtCode? stop s t with
  | some pair => simp
  | none => simp

/-- What a text is split before: a character of code that satisfies the condition, and none of those
in front of it does. -/
lemma of_splitAtCode? (hstop : OneChar stop) {s : CodeState} {t head tail : Text}
    (h : splitAtCode? stop s t = some (head, tail)) :
    splitAtCode? stop s head = none ∧ ∃ c rest depth, tail = c :: rest ∧
      ((s.run head).step c).2 = some depth ∧ stop depth tail = true := by
  induction t generalizing s head with
  | nil => cases h
  | cons c rest ih =>
    have hlater (hmap : (splitAtCode? stop (s.step c).1 rest).map (fun p => (c :: p.1, p.2)) =
        some (head, tail)) (hnone : ∀ t, splitAtCode? stop s (c :: t) =
          (splitAtCode? stop (s.step c).1 t).map fun p => (c :: p.1, p.2)) :
        splitAtCode? stop s head = none ∧ ∃ c rest depth, tail = c :: rest ∧
          ((s.run head).step c).2 = some depth ∧ stop depth tail = true := by
      obtain ⟨⟨head', tail'⟩, hrest, heq⟩ := Option.map_eq_some_iff.mp hmap
      obtain ⟨rfl, rfl⟩ := Prod.mk.inj heq
      obtain ⟨hhead, hfound⟩ := ih hrest
      refine ⟨?_, hfound⟩
      rw [hnone, hhead]
      rfl
    cases hs : (s.step c).2 with
    | none =>
      have hnone : ∀ t, splitAtCode? stop s (c :: t) =
          (splitAtCode? stop (s.step c).1 t).map fun p => (c :: p.1, p.2) := by
        intro t
        rw [splitAtCode?, hs]
      exact hlater ((hnone rest).symm.trans h) hnone
    | some depth =>
      by_cases hc : stop depth (c :: rest) = true
      · rw [splitAtCode?, hs] at h
        simp only [hc, if_true] at h
        obtain ⟨rfl, rfl⟩ := Prod.mk.inj (Option.some.inj h)
        exact ⟨rfl, c, rest, depth, rfl, hs, hc⟩
      · have hnone : ∀ t, splitAtCode? stop s (c :: t) =
            (splitAtCode? stop (s.step c).1 t).map fun p => (c :: p.1, p.2) := by
          intro t
          rw [splitAtCode?, hs]
          simp only [hstop depth c t rest, hc]
          rfl
        exact hlater ((hnone rest).symm.trans h) hnone

end

lemma dropEnd_isPrefix (p : Char → Bool) (t : Text) : dropEnd p t <+: t := by
  obtain ⟨margin, ht, -⟩ := dropEnd_append p t
  exact ⟨margin, ht.symm⟩

lemma codePart_isPrefix (marker line : Text) : codePart marker line <+: line := by
  unfold codePart
  split
  · exact dropEnd_isPrefix isBlank line
  · split
    · next head tail hsplit =>
      rw [eq_of_splitAtCode? hsplit]
      exact (dropEnd_isPrefix isBlank head).trans (List.prefix_append head tail)
    · exact dropEnd_isPrefix isBlank line

/-- The code of a line is what stands before its comment, without trailing blanks. -/
lemma codePart_eq {marker : Text} (hmarker : marker.isEmpty = false) (line : Text) :
    codePart marker line =
      trimEnd ((splitAtCode? (fun _ t => t.startsWith marker) .start line).elim line Prod.fst) := by
  rw [codePart, hmarker]
  cases splitAtCode? (fun _ t => t.startsWith marker) .start line <;> rfl

lemma join_cons_cons (sep p q : Text) (rest : List Text) :
    join sep (p :: q :: rest) = p ++ sep ++ join sep (q :: rest) := rfl

lemma join_rawPieces (sep : Char) (t : Text) : join [sep] (rawPieces sep t) = t :=
  join_piecesFrom sep .start t

end Text

namespace Repair

open Text

lemma before_append (head rest : Text) : before (head ++ rest) rest = head := by
  simp [before]

/-- A line is its code and what stands behind that. -/
lemma splitComment_append (line : Text) :
    (splitComment line).1 ++ (splitComment line).2 = line :=
  List.prefix_iff_eq_append.mp (codePart_isPrefix "#" line)

/-- The tail of a line is what is left of it when its code is known. -/
lemma splitComment_of_append {code tail : Text} (h : codeOfLine (code ++ tail) = code) :
    splitComment (code ++ tail) = (code, tail) := by
  have happ := splitComment_append (code ++ tail)
  have hcode : (splitComment (code ++ tail)).1 = code := h
  rw [hcode] at happ
  exact Prod.ext hcode (List.append_cancel_left happ)

/-- Whether a comment starts at a place in code. -/
def startsComment (_ : Nat) (t : Text) : Bool := t.startsWith "#"

lemma startsComment_cons (depth : Nat) (c : Char) (t : Text) :
    startsComment depth (c :: t) = ('#' == c) := by
  by_cases hc : '#' = c
  · subst hc
    rfl
  · simp [startsComment, startsWith, after?, hc]

lemma oneChar_startsComment : OneChar startsComment := by
  intro depth c t t'
  rw [startsComment_cons, startsComment_cons]

lemma noComment_of_not_mem {t : Text} (h : '#' ∉ t) (s : CodeState) :
    splitAtCode? startsComment s t = none := by
  have hnone : splitAtCode? (fun _ rest => rest.startsWith ['#']) s t = none :=
    splitAtCode?_of_not_mem h s
  exact hnone

lemma noComment_of_blanks (s : CodeState) {blanks : Text} (h : blanks.isAllBlank = true) :
    splitAtCode? startsComment s blanks = none :=
  noComment_of_not_mem
    (not_mem_of_isAllBlank h (by decide)) s

lemma codeOfLine_eq (line : Text) : codeOfLine line =
    trimEnd ((splitAtCode? startsComment .start line).elim line Prod.fst) := by
  rw [codeOfLine, splitComment, codePart_eq rfl]
  rfl

lemma splitAtCode?_comment {s : CodeState} (hs : s.quote = none) {gap : Text}
    (hgap : gap.isAllBlank = true) (rest : Text) :
    splitAtCode? startsComment s (gap ++ '#' :: rest) = some (gap, '#' :: rest) := by
  have hstep : s.step '#' = (s, some s.depth) := CodeState.step_plain_code hs (by decide)
  rw [splitAtCode?_append oneChar_startsComment, noComment_of_blanks s hgap,
    CodeState.run_blanks hs hgap]
  simp [splitAtCode?, hstep, startsComment_cons]

/-! Lines without code. -/

lemma codeOfLine_of_blank {line : Text} (h : line.isAllBlank = true) : codeOfLine line = [] := by
  rw [codeOfLine_eq, noComment_of_blanks .start h]
  exact trimEnd_blanks h

lemma codeOfLine_of_comment {line : Text} (h : (trim line).startsWith "#" = true) :
    codeOfLine line = [] := by
  obtain ⟨rest, htrim⟩ := (startsWith_iff _ _).mp h
  obtain ⟨margin, hmargin, -⟩ := trimEnd_append (trimStart line)
  have hline : line = line.indentation ++ '#' :: (rest ++ margin) := by
    conv_lhs => rw [trimStart_append line, hmargin, show trimEnd (trimStart line) = _ from htrim]
    rfl
  have hsplit : splitAtCode? startsComment .start line =
      some (line.indentation, '#' :: (rest ++ margin)) := by
    conv_lhs => rw [hline]
    exact splitAtCode?_comment rfl (isAllBlank_indentation line) _
  rw [codeOfLine_eq, hsplit]
  exact trimEnd_blanks (isAllBlank_indentation line)

end Repair
end Marginalia
