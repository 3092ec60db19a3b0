import Mathlib.Data.List.Infix
import Marginalia.Proofs.Pieces

/-!
# First marks

Where a text is cut at a mark, told by places: a cut is at the first place where the mark stands, and
the code of a line ends at the first two slashes outside literals.
-/

namespace Marginalia.Text

variable {mark t before after : Text}

/-! ## Cuts at a mark -/

lemma cut?_eq_none_iff (hmark : mark ≠ []) : cut? mark t = none ↔ ¬mark <:+: t := by
  induction t with
  | nil =>
    have hempty : mark.isEmpty = false := by simpa using hmark
    simp [cut?, hempty, hmark]
  | cons c rest ih =>
    rw [cut?, List.infix_cons_iff, not_or, ← ih]
    cases hafter : after? mark (c :: rest) with
    | some tail =>
      have hstart : mark <+: c :: rest :=
        ⟨tail, ((after?_eq_some_iff mark _ tail).mp hafter).symm⟩
      simp [hstart]
    | none =>
      have hstart : ¬mark <+: c :: rest := by
        rintro ⟨tail, htail⟩
        rw [(after?_eq_some_iff mark _ tail).mpr htail.symm] at hafter
        cases hafter
      simp [hstart]

lemma hasPart_iff (hmark : mark ≠ []) : t.hasPart mark = true ↔ mark <:+: t := by
  rw [hasPart, Option.isSome_iff_ne_none, ne_eq, cut?_eq_none_iff hmark, not_not]

/-- A text that marks a place without ambiguity: its first character stands in it only once, so that it
does not overlap itself, and it holds no blanks. -/
structure IsMark (mark : Text) : Prop where
  once : ∃ m rest, mark = m :: rest ∧ m ∉ rest
  solid : mark.all (!isBlank ·) = true

lemma isMark_open : IsMark "/*" := ⟨⟨'/', ['*'], rfl, by decide⟩, by decide⟩

lemma isMark_close : IsMark "*/" := ⟨⟨'*', ['/'], rfl, by decide⟩, by decide⟩

lemma IsMark.ne_nil (h : IsMark mark) : mark ≠ [] := by
  obtain ⟨m, rest, rfl, -⟩ := h.once
  exact List.cons_ne_nil m rest

/-- Where one mark starts before another, it ends before it. -/
lemma IsMark.isPrefix (h : IsMark mark) (hbefore : before ≠ []) {rest : Text}
    (heq : before ++ mark ++ after = mark ++ rest) : mark <+: before := by
  obtain ⟨m, mark, rfl, hm⟩ := h.once
  obtain ⟨c, front, rfl⟩ := List.exists_cons_of_ne_nil hbefore
  rw [List.append_assoc] at heq
  obtain ⟨rfl, heq⟩ := List.cons.inj heq
  rw [List.prefix_cons_inj]
  obtain ⟨overlap, hmark, hoverlap⟩ | ⟨more, hfront, -⟩ := List.append_eq_append_iff.mp heq
  · cases overlap with
    | nil =>
      rw [hmark, List.append_nil]
    | cons d overlap =>
      obtain rfl : c = d := (List.cons.inj hoverlap).1
      exact absurd (hmark ▸ List.mem_append_right front List.mem_cons_self) hm
  · exact ⟨more, hfront.symm⟩

lemma not_infix_of_cut? (h : cut? mark t = some (before, after)) (hmark : mark ≠ []) :
    ¬mark <:+: before := by
  induction t generalizing before with
  | nil =>
    rw [cut?, if_neg (by simpa using hmark)] at h
    cases h
  | cons c rest ih =>
    rw [cut?] at h
    split at h
    · obtain ⟨rfl, rfl⟩ := Prod.mk.inj (Option.some.inj h)
      simpa using hmark
    · next hafter =>
      obtain ⟨⟨front, tail⟩, hcut, heq⟩ := Option.map_eq_some_iff.mp h
      obtain ⟨rfl, rfl⟩ := Prod.mk.inj heq
      rw [List.infix_cons_iff, not_or]
      refine ⟨fun hstart => ?_, ih hcut⟩
      obtain ⟨more, hmore⟩ := hstart
      have hcons : c :: rest = mark ++ (more ++ mark ++ tail) := by
        rw [eq_of_cut? hcut, ← List.append_assoc, ← List.append_assoc, hmore]
        rfl
      rw [(after?_eq_some_iff _ _ _).mpr hcons] at hafter
      cases hafter

/-- A text is cut at the first place where the mark stands. -/
lemma cut?_eq_some_iff (h : IsMark mark) : cut? mark t = some (before, after) ↔
    t = before ++ mark ++ after ∧ ¬mark <:+: before := by
  refine ⟨fun hcut => ⟨eq_of_cut? hcut, not_infix_of_cut? hcut h.ne_nil⟩, ?_⟩
  rintro ⟨rfl, hbefore⟩
  induction before with
  | nil =>
    obtain ⟨m, rest, rfl, -⟩ := h.once
    have hafter : after? (m :: rest) (m :: (rest ++ after)) = some after :=
      (after?_eq_some_iff _ _ _).mpr rfl
    rw [List.nil_append, List.cons_append, cut?, hafter]
  | cons c front ih =>
    rw [List.infix_cons_iff, not_or] at hbefore
    have hafter : after? mark (c :: front ++ mark ++ after) = none := by
      rw [Option.eq_none_iff_forall_ne_some]
      intro rest hrest
      exact hbefore.1 (h.isPrefix (List.cons_ne_nil c front) ((after?_eq_some_iff _ _ _).mp hrest))
    rw [List.cons_append, List.cons_append] at hafter ⊢
    rw [cut?, hafter, ih hbefore.2]
    rfl

lemma exists_first_mark (h : IsMark mark) (hin : mark <:+: t) :
    ∃ before after, t = before ++ mark ++ after ∧ ¬mark <:+: before := by
  cases hcut : cut? mark t with
  | none => exact absurd hin ((cut?_eq_none_iff h.ne_nil).mp hcut)
  | some pair => exact ⟨pair.1, pair.2, (cut?_eq_some_iff h).mp hcut⟩

lemma first_mark_unique (h : IsMark mark) {before' after' : Text}
    (heq : before ++ mark ++ after = before' ++ mark ++ after') (hbefore : ¬mark <:+: before)
    (hbefore' : ¬mark <:+: before') : before = before' ∧ after = after' := by
  have hcut : cut? mark (before ++ mark ++ after) = some (before, after) :=
    (cut?_eq_some_iff h).mpr ⟨rfl, hbefore⟩
  have hcut' := (cut?_eq_some_iff h).mpr ⟨heq, hbefore'⟩
  exact Prod.mk.inj (Option.some.inj (hcut.symm.trans hcut'))

/-! ## The end of the code of a line -/

/-- Two slashes stand outside literals behind the first part of a text. -/
def SlashesBehind (s : CodeState) (t before : Text) : Prop :=
  (∃ after, t = before ++ "//" ++ after) ∧ (s.run before).quote = none

section

variable {s : CodeState} {c : Char} {rest : Text}

lemma slashesBehind_nil_iff : SlashesBehind s t [] ↔ t.startsWith "//" = true ∧ s.quote = none := by
  rw [SlashesBehind, startsWith_iff]
  rfl

lemma slashesBehind_cons_iff :
    SlashesBehind s (c :: rest) (c :: before) ↔ SlashesBehind (s.step c).1 rest before := by
  simp [SlashesBehind]

lemma SlashesBehind.eq_nil_or (h : SlashesBehind s (c :: rest) before) :
    before = [] ∨ ∃ front, before = c :: front ∧ SlashesBehind (s.step c).1 rest front := by
  cases before with
  | nil => exact .inl rfl
  | cons d front =>
    obtain ⟨⟨after, heq⟩, -⟩ := id h
    obtain rfl : c = d := (List.cons.inj heq).1
    exact .inr ⟨front, rfl, slashesBehind_cons_iff.mp h⟩

lemma slashesBehind_concat_iff : SlashesBehind s (t ++ [c]) before ↔ SlashesBehind s t before ∨
    c = '/' ∧ t = before ++ ['/'] ∧ (s.run before).quote = none := by
  have hslashes (before : Text) : before ++ "//" = (before ++ ['/']) ++ ['/'] := by
    rw [List.append_assoc]
    rfl
  constructor
  · rintro ⟨⟨after, heq⟩, hquote⟩
    rcases List.eq_nil_or_concat' after with rfl | ⟨init, last, rfl⟩
    · rw [List.append_nil, hslashes] at heq
      obtain ⟨ht, hlast⟩ := List.append_inj' heq rfl
      exact .inr ⟨(List.cons.inj hlast).1, ht, hquote⟩
    · rw [← List.append_assoc] at heq
      exact .inl ⟨⟨init, (List.append_inj' heq rfl).1⟩, hquote⟩
  · rintro (⟨⟨after, rfl⟩, hquote⟩ | ⟨rfl, rfl, hquote⟩)
    · exact ⟨⟨after ++ [c], by rw [← List.append_assoc]⟩, hquote⟩
    · exact ⟨⟨[], by rw [List.append_nil, hslashes]⟩, hquote⟩

lemma SlashesBehind.append (h : SlashesBehind s t before) (rest : Text) :
    SlashesBehind s (t ++ rest) before := by
  obtain ⟨⟨after, rfl⟩, hquote⟩ := h
  exact ⟨⟨after ++ rest, by rw [← List.append_assoc]⟩, hquote⟩

lemma splitAtCode?_slashes_nil (h : SlashesBehind s (c :: rest) []) :
    splitAtCode? (fun _ t => t.startsWith "//") s (c :: rest) = some ([], c :: rest) := by
  obtain ⟨hstart, hquote⟩ := slashesBehind_nil_iff.mp h
  obtain ⟨after, heq⟩ := (startsWith_iff _ _).mp hstart
  obtain rfl : c = '/' := (List.cons.inj heq).1
  rw [splitAtCode?, CodeState.step_plain_code hquote (by decide)]
  simp only [hstart, if_true]

lemma splitAtCode?_slashes_cons (h : ¬SlashesBehind s (c :: rest) []) :
    splitAtCode? (fun _ t => t.startsWith "//") s (c :: rest) =
      (splitAtCode? (fun _ t => t.startsWith "//") (s.step c).1 rest).map
        fun (head, tail) => (c :: head, tail) := by
  rw [splitAtCode?]
  cases hstep : (s.step c).2 with
  | none => rfl
  | some depth =>
    have hquote : s.quote = none := CodeState.quote_of_isSome_step (c := c) (by rw [hstep]; rfl)
    have hstart : ¬startsWith (c :: rest) "//" = true := fun hstart =>
      h (slashesBehind_nil_iff.mpr ⟨hstart, hquote⟩)
    simp only [hstart, Bool.false_eq_true, if_false]

/-- Code is split at the first two slashes outside literals. -/
lemma splitAtCode?_slashes (s : CodeState) (t : Text) :
    (splitAtCode? (fun _ t => t.startsWith "//") s t = none ∧ ∀ before, ¬SlashesBehind s t before) ∨
    ∃ head tail, splitAtCode? (fun _ t => t.startsWith "//") s t = some (head, tail) ∧
      SlashesBehind s t head ∧ ∀ before, SlashesBehind s t before → head <+: before := by
  induction t generalizing s with
  | nil =>
    refine .inl ⟨rfl, fun before h => ?_⟩
    obtain ⟨⟨after, heq⟩, -⟩ := h
    simp at heq
  | cons c rest ih =>
    by_cases hnil : SlashesBehind s (c :: rest) []
    · exact .inr ⟨[], c :: rest, splitAtCode?_slashes_nil hnil, hnil, fun _ _ => List.nil_prefix⟩
    · have hlater {before : Text} (h : SlashesBehind s (c :: rest) before) :
          ∃ front, before = c :: front ∧ SlashesBehind (s.step c).1 rest front :=
        h.eq_nil_or.resolve_left fun heq => hnil (heq ▸ h)
      rw [splitAtCode?_slashes_cons hnil]
      rcases ih (s.step c).1 with ⟨hsplit, hnone⟩ | ⟨head, tail, hsplit, hhead, hfirst⟩
      · rw [hsplit]
        refine .inl ⟨rfl, fun before h => ?_⟩
        obtain ⟨front, -, hfront⟩ := hlater h
        exact hnone front hfront
      · rw [hsplit]
        refine .inr ⟨c :: head, tail, rfl, slashesBehind_cons_iff.mpr hhead, fun before h => ?_⟩
        obtain ⟨front, rfl, hfront⟩ := hlater h
        exact List.cons_prefix_cons.mpr ⟨rfl, hfirst front hfront⟩

end

/-- The code of a line is what stands before the first two slashes outside literals. -/
lemma codePart_slashes (line : Text) :
    (codePart "//" line = trimEnd line ∧ ∀ before, ¬SlashesBehind .start line before) ∨
    ∃ head, codePart "//" line = trimEnd head ∧ SlashesBehind .start line head ∧
      ∀ before, SlashesBehind .start line before → head <+: before := by
  rw [codePart_eq rfl]
  rcases splitAtCode?_slashes .start line with ⟨hsplit, hnone⟩ | ⟨head, tail, hsplit, hhead⟩
  · rw [hsplit]
    exact .inl ⟨rfl, hnone⟩
  · rw [hsplit]
    exact .inr ⟨head, rfl, hhead⟩

/-! ## Marks of block comments in code -/

/-- What stands before a mark, and the mark itself, stays when a text is trimmed at its end. -/
lemma IsMark.trimEnd_append (h : IsMark mark) (front t : Text) :
    trimEnd (front ++ mark ++ t) = front ++ mark ++ trimEnd t := by
  have hkept := dropEnd_of_not (by simpa using h.solid) t
  have hnil : dropEnd isBlank (mark ++ t) ≠ [] := by
    rw [hkept]
    exact List.append_ne_nil_of_left_ne_nil h.ne_nil _
  rw [List.append_assoc, List.append_assoc, trimEnd, dropEnd_append_of_ne_nil hnil, hkept]
  rfl

lemma IsMark.infix_trimEnd_iff (h : IsMark mark) : mark <:+: trimEnd t ↔ mark <:+: t := by
  constructor
  · exact fun hin => hin.trans (dropEnd_isPrefix isBlank t).isInfix
  · rintro ⟨front, rest, rfl⟩
    exact ⟨front, trimEnd rest, (h.trimEnd_append front rest).symm⟩

/-- Where no two slashes stand before the mark of a block comment, nor end with the slash of that
mark, the first ones stand behind it. -/
lemma exists_behind_mark {front more head : Text}
    (hfront : ∀ before, ¬SlashesBehind .start (front ++ ['/']) before)
    (h : SlashesBehind .start (front ++ "/*" ++ more) head) : ∃ read, head = front ++ "/*" ++ read := by
  have hslashes : ("//" : Text) = ['/', '/'] := rfl
  obtain ⟨⟨after, heq⟩, hquote⟩ := h
  rw [List.append_assoc head] at heq
  obtain ⟨read, hread, -⟩ | ⟨overlap, hoverlap, hafter⟩ := List.append_eq_append_iff.mp heq
  · exact ⟨read, hread⟩
  · rcases List.eq_nil_or_concat' overlap with rfl | ⟨init, last, rfl⟩
    · exact ⟨[], by rw [List.append_nil, hoverlap, List.append_nil]⟩
    · -- The slashes would stand before the star of the mark.
      have hsplit : (front ++ ['/']) ++ ['*'] = (head ++ init) ++ [last] := by
        rw [List.append_assoc front, List.append_assoc head]
        exact hoverlap
      obtain ⟨hinit, hlast⟩ := List.append_inj' hsplit rfl
      obtain rfl : '*' = last := (List.cons.inj hlast).1
      rw [hslashes] at hafter
      rcases init with _ | ⟨c, _ | ⟨d, init⟩⟩
      · simp at hafter
      · simp at hafter
      · simp only [List.cons_append, List.nil_append, List.cons.injEq] at hafter
        obtain ⟨rfl, rfl, -⟩ := hafter
        refine absurd ⟨⟨init, ?_⟩, hquote⟩ (hfront head)
        rw [hinit, hslashes, List.append_assoc]
        rfl

/-- The code of a line with the mark of a block comment: it ends with the line, or before the first
two slashes, which stand behind the mark. -/
lemma codePart_marked {front : Text} (more : Text)
    (hfront : ∀ before, ¬SlashesBehind .start (front ++ ['/']) before) :
    ∃ read, codePart "//" (front ++ "/*" ++ more) = front ++ "/*" ++ trimEnd read ∧ read <+: more ∧
      ((read = more ∧ ∀ before, ¬SlashesBehind .start (front ++ "/*" ++ more) before) ∨
        SlashesBehind .start (front ++ "/*" ++ more) (front ++ "/*" ++ read) ∧
          ∀ before, SlashesBehind .start (front ++ "/*" ++ more) before →
            (front ++ "/*" ++ read : Text) <+: before) := by
  rcases codePart_slashes (front ++ "/*" ++ more) with ⟨hcode, hnone⟩ | ⟨head, hcode, hhead, hfirst⟩
  · refine ⟨more, ?_, List.prefix_rfl, .inl ⟨rfl, hnone⟩⟩
    rw [hcode, isMark_open.trimEnd_append]
  · obtain ⟨read, rfl⟩ := exists_behind_mark hfront hhead
    refine ⟨read, ?_, ?_, .inr ⟨hhead, hfirst⟩⟩
    · rw [hcode, isMark_open.trimEnd_append]
    · obtain ⟨⟨after, heq⟩, -⟩ := hhead
      have hread : (front ++ "/*" ++ more : Text) = front ++ "/*" ++ (read ++ ("//" ++ after)) := by
        rw [heq]
        simp only [List.append_assoc]
      exact ⟨_, (List.append_cancel_left hread).symm⟩

end Marginalia.Text
