import Marginalia.Proofs.Blanks

/-!
# Reading code

What the machine behind `CodeState` does with single characters, and how the functions that cut code
at brackets and separators follow it. Quotes and escapes are read alike at every depth.
-/

namespace Marginalia

/-- A character that opens or closes nothing and escapes nothing. -/
def isPlain (c : Char) : Bool := !isQuote c && !isOpener c && !isCloser c && c != '\\'

lemma isQuote_of_isBlank {c : Char} (h : isBlank c = true) : isQuote c = false := by
  by_contra hq
  simp only [Bool.not_eq_false, isQuote, Bool.or_eq_true, beq_iff_eq] at hq
  obtain (rfl | rfl) | hq := hq
  · exact absurd h (by decide)
  · exact absurd h (by decide)
  · simp [isBlank, hq] at h

lemma isPlain_of_isBlank {c : Char} (h : isBlank c = true) : isPlain c = true := by
  have ho : isOpener c = false := by
    simp only [isOpener, Bool.or_eq_false_iff, beq_eq_false_iff_ne]
    exact ⟨⟨ne_of_isBlank h (by decide), ne_of_isBlank h (by decide)⟩,
      ne_of_isBlank h (by decide)⟩
  have hc : isCloser c = false := by
    simp only [isCloser, Bool.or_eq_false_iff, beq_eq_false_iff_ne]
    exact ⟨⟨ne_of_isBlank h (by decide), ne_of_isBlank h (by decide)⟩,
      ne_of_isBlank h (by decide)⟩
  have he : c ≠ '\\' := ne_of_isBlank h (by decide)
  simp [isPlain, isQuote_of_isBlank h, ho, hc, he]

namespace CodeState

/-- What holds of every state that a reader comes to from the start. -/
structure Sound (s : CodeState) : Prop where
  escaped : s.quote = none → s.escaped = false
  quote : ∀ q, s.quote = some q → isQuote q = true

lemma sound_start : start.Sound := ⟨fun _ => rfl, by simp [start]⟩

lemma Sound.step {s : CodeState} (h : s.Sound) (c : Char) : (s.step c).1.Sound := by
  obtain ⟨quote, escaped, depth⟩ := s
  cases quote with
  | none =>
    have he : escaped = false := h.escaped rfl
    by_cases hq : isQuote c = true
    · exact ⟨by simp [CodeState.step, hq], by simp [CodeState.step, hq]⟩
    · by_cases ho : isOpener c = true
      · exact ⟨by simp [CodeState.step, hq, ho, he], by simp [CodeState.step, hq, ho]⟩
      · by_cases hcl : isCloser c = true
        · exact ⟨by simp [CodeState.step, hq, ho, hcl, he], by simp [CodeState.step, hq, ho, hcl]⟩
        · exact ⟨by simp [CodeState.step, hq, ho, hcl, he], by simp [CodeState.step, hq, ho, hcl]⟩
  | some q =>
    have hquote : isQuote q = true := h.quote q rfl
    cases escaped with
    | true => exact ⟨by simp [CodeState.step], by simpa [CodeState.step] using hquote⟩
    | false =>
      by_cases he : c = '\\'
      · exact ⟨by simp [CodeState.step, he], by simpa [CodeState.step, he] using hquote⟩
      · by_cases hc : c = q
        · subst hc
          exact ⟨by simp [CodeState.step, he], by simp [CodeState.step, he]⟩
        · exact ⟨by simp [CodeState.step, he, hc], by simpa [CodeState.step, he, hc] using hquote⟩

@[simp] lemma run_nil (s : CodeState) : s.run [] = s := rfl

@[simp] lemma run_cons (s : CodeState) (c : Char) (t : Text) :
    s.run (c :: t) = (s.step c).1.run t := rfl

lemma run_append (s : CodeState) (t t' : Text) : s.run (t ++ t') = (s.run t).run t' :=
  List.foldl_append

lemma Sound.run {s : CodeState} (h : s.Sound) (t : Text) : (s.run t).Sound := by
  induction t generalizing s with
  | nil => exact h
  | cons c rest ih => exact ih (h.step c)

/-- Inside a literal a plain character only ends an escape. -/
lemma step_plain_quoted {s : CodeState} {q c : Char} (h : s.Sound) (hs : s.quote = some q)
    (hc : isPlain c = true) : s.step c = ({ s with escaped := false }, none) := by
  have hq : isQuote q = true := h.quote q hs
  obtain ⟨quote, escaped, depth⟩ := s
  obtain rfl : quote = some q := hs
  have hne : c ≠ q := by
    rintro rfl
    simp [isPlain, hq] at hc
  have hback : c ≠ '\\' := by
    rintro rfl
    exact absurd hc (by decide)
  cases escaped <;> simp [CodeState.step, hne, hback]

/-- Outside literals what is no quote is code, and starts no literal. -/
lemma step_unquoted {s : CodeState} (hs : s.quote = none) {c : Char} (hc : isQuote c = false) :
    (s.step c).1.quote = none ∧ (s.step c).2.isSome = true := by
  by_cases ho : isOpener c = true
  · simp [CodeState.step, hs, hc, ho]
  · by_cases hcl : isCloser c = true
    · simp [CodeState.step, hs, hc, ho, hcl]
    · simp [CodeState.step, hs, hc, ho, hcl]

/-- Outside literals a plain character changes nothing. -/
lemma step_plain_code {s : CodeState} {c : Char} (hs : s.quote = none) (hc : isPlain c = true) :
    s.step c = (s, some s.depth) := by
  simp only [isPlain, Bool.and_eq_true, Bool.not_eq_true', bne_iff_ne] at hc
  obtain ⟨⟨⟨hquote, hopener⟩, hcloser⟩, -⟩ := hc
  simp [CodeState.step, hs, hquote, hopener, hcloser]

/-- Where a plain character stands outside literals and brackets, code starts anew. -/
lemma Sound.step_separator {s : CodeState} {c : Char} (h : s.Sound)
    (htop : (s.step c).2 = some 0) (hc : isPlain c = true) : (s.step c).1 = start := by
  cases hs : s.quote with
  | some q => simp [step_plain_quoted h hs hc] at htop
  | none =>
    have he : s.escaped = false := h.escaped hs
    rw [step_plain_code hs hc] at htop ⊢
    obtain ⟨quote, escaped, depth⟩ := s
    simp_all [start]

lemma step_plain_start {c : Char} (hc : isPlain c = true) : start.step c = (start, some 0) :=
  step_plain_code rfl hc

lemma Sound.unescaped_ne_start {s : CodeState} (h : s.Sound) (hs : s ≠ start) :
    { s with escaped := false } ≠ start := by
  intro heq
  apply hs
  obtain ⟨quote, escaped, depth⟩ := s
  obtain ⟨rfl, rfl⟩ : quote = none ∧ depth = 0 := by simpa [start] using heq
  obtain rfl : escaped = false := h.escaped rfl
  rfl

/-- Inside a literal or a bracket a plain character only ends an escape. -/
lemma Sound.step_plain_inside {s : CodeState} (h : s.Sound) (hs : s ≠ start) {c : Char}
    (hc : isPlain c = true) :
    (s.step c).1 = { s with escaped := false } ∧ ((s.step c).2 == some 0) = false := by
  cases hq : s.quote with
  | some q => simp [step_plain_quoted h hq hc, hq]
  | none =>
    have he : s.escaped = false := h.escaped hq
    rw [step_plain_code hq hc]
    obtain ⟨quote, escaped, depth⟩ := s
    obtain rfl : quote = none := hq
    obtain rfl : escaped = false := he
    refine ⟨rfl, ?_⟩
    have hdepth : depth ≠ 0 := by
      rintro rfl
      exact hs rfl
    simpa using hdepth

/-- Behind an opening parenthesis code is inside it, or inside a literal. -/
lemma Sound.step_paren {s : CodeState} (h : s.Sound) :
    (s.step '(').1.escaped = false ∧ (s.step '(').1 ≠ start := by
  obtain ⟨quote, escaped, depth⟩ := s
  cases quote with
  | none =>
    obtain rfl : escaped = false := h.escaped rfl
    exact ⟨rfl, by simp [CodeState.step, isQuote, isOpener, start]⟩
  | some q =>
    have hne : '(' ≠ q := by
      rintro rfl
      exact absurd (h.quote '(' rfl) (by decide)
    cases escaped <;> simp [CodeState.step, hne, start]

/-- A closing parenthesis is read alike whether or not it is escaped. -/
lemma Sound.step_unescaped {s : CodeState} (h : s.Sound) :
    ({ s with escaped := false } : CodeState).step ')' = s.step ')' := by
  obtain ⟨quote, escaped, depth⟩ := s
  cases quote with
  | none =>
    obtain rfl : escaped = false := h.escaped rfl
    rfl
  | some q =>
    have hne : ')' ≠ q := by
      rintro rfl
      exact absurd (h.quote ')' rfl) (by decide)
    cases escaped <;> simp [CodeState.step, hne]

/-- A closing parenthesis that is code stands outside literals. -/
lemma quote_of_isSome_step {s : CodeState} {c : Char} (h : (s.step c).2.isSome = true) :
    s.quote = none := by
  cases hq : s.quote with
  | none => rfl
  | some q =>
    simp only [CodeState.step, hq] at h
    split at h
    · simp at h
    · split at h
      · simp at h
      · split at h <;> simp at h

lemma Sound.eq_start {s : CodeState} (h : s.Sound) (hq : s.quote = none) (hd : s.depth = 0) :
    s = start := by
  have he : s.escaped = false := h.escaped hq
  obtain ⟨quote, escaped, depth⟩ := s
  obtain rfl : quote = none := hq
  obtain rfl : escaped = false := he
  obtain rfl : depth = 0 := hd
  rfl

lemma depth_step_plain {s : CodeState} {c : Char} (h : s.Sound) (hc : isPlain c = true) :
    (s.step c).1.depth = s.depth := by
  cases hs : s.quote with
  | none => rw [step_plain_code hs hc]
  | some q => rw [step_plain_quoted h hs hc]

lemma depth_run_plain {s : CodeState} {t : Text} (h : s.Sound) (ht : t.all isPlain = true) :
    (s.run t).depth = s.depth := by
  induction t generalizing s with
  | nil => rfl
  | cons c rest ih =>
    rw [List.all_cons, Bool.and_eq_true] at ht
    rw [run_cons, ih (h.step c) ht.2, depth_step_plain h ht.1]

lemma run_blanks {s : CodeState} {t : Text} (hs : s.quote = none) (ht : t.isAllBlank = true) :
    s.run t = s := by
  induction t with
  | nil => rfl
  | cons c rest ih =>
    simp only [Text.isAllBlank, List.all_cons, Bool.and_eq_true] at ht
    rw [run_cons, step_plain_code hs (isPlain_of_isBlank ht.1)]
    exact ih ht.2

/-- The depth has no part in what a character does to quotes and escapes. -/
lemma step_congr {s s' : CodeState} (hq : s.quote = s'.quote) (he : s.escaped = s'.escaped)
    (c : Char) : (s.step c).1.quote = (s'.step c).1.quote ∧
      (s.step c).1.escaped = (s'.step c).1.escaped ∧
      (s.step c).2.isSome = (s'.step c).2.isSome := by
  obtain ⟨quote, escaped, depth⟩ := s
  obtain ⟨quote', escaped', depth'⟩ := s'
  obtain rfl : quote = quote' := hq
  obtain rfl : escaped = escaped' := he
  cases quote with
  | none =>
    simp only [CodeState.step]
    split
    · simp
    · split
      · simp
      · split <;> simp
  | some q =>
    simp only [CodeState.step]
    split
    · simp
    · split
      · simp
      · split <;> simp

end CodeState

namespace Text

lemma splitAtClose?_congr (opener closer : Char) {s s' : CodeState} (hq : s.quote = s'.quote)
    (he : s.escaped = s'.escaped) (count : Nat) (t : Text) :
    splitAtClose? opener closer s count t = splitAtClose? opener closer s' count t := by
  induction t generalizing s s' count with
  | nil => rfl
  | cons c rest ih =>
    obtain ⟨hq', he', hcode⟩ := CodeState.step_congr hq he c
    have hnone : (s.step c).2.isNone = (s'.step c).2.isNone := by
      rw [← Option.not_isSome, ← Option.not_isSome, hcode]
    simp only [splitAtClose?, hnone, ih hq' he']

lemma piecesFrom_separator {sep c : Char} {s : CodeState}
    (h : ((s.step c).2 == some 0 && c == sep) = true) (t : Text) :
    piecesFrom sep s (c :: t) = ([], (piecesFrom sep (s.step c).1 t).1 ::
      (piecesFrom sep (s.step c).1 t).2) := by
  simp only [piecesFrom]
  rw [if_pos h]

lemma piecesFrom_inside {sep c : Char} {s : CodeState}
    (h : ((s.step c).2 == some 0 && c == sep) = false) (t : Text) :
    piecesFrom sep s (c :: t) = (c :: (piecesFrom sep (s.step c).1 t).1,
      (piecesFrom sep (s.step c).1 t).2) := by
  simp [piecesFrom, h]

lemma piecesFrom_blanks {sep : Char} (hsep : isBlank sep = false) {s : CodeState} {t : Text}
    (ht : t.isAllBlank = true) : piecesFrom sep s t = (t, []) := by
  induction t generalizing s with
  | nil => rfl
  | cons c rest ih =>
    simp only [isAllBlank, List.all_cons, Bool.and_eq_true] at ht
    have hne : c ≠ sep := ne_of_isBlank ht.1 hsep
    simp [piecesFrom, ih ht.2, hne]

/-- A text is its pieces with the separator between them. -/
lemma join_piecesFrom (sep : Char) (s : CodeState) (t : Text) :
    join [sep] ((piecesFrom sep s t).1 :: (piecesFrom sep s t).2) = t := by
  induction t generalizing s with
  | nil => rfl
  | cons c rest ih =>
    have hrest := ih (s.step c).1
    cases hsep : (s.step c).2 == some 0 && c == sep with
    | true =>
      have hc : c = sep := by simp_all
      rw [piecesFrom_separator hsep]
      calc join [sep] ([] :: (piecesFrom sep (s.step c).1 rest).1 ::
            (piecesFrom sep (s.step c).1 rest).2)
          = sep :: join [sep] ((piecesFrom sep (s.step c).1 rest).1 ::
            (piecesFrom sep (s.step c).1 rest).2) := rfl
        _ = c :: rest := by rw [hrest, hc]
    | false =>
      rw [piecesFrom_inside hsep]
      cases hp : (piecesFrom sep (s.step c).1 rest).2 with
      | nil =>
        rw [hp] at hrest
        exact congrArg (c :: ·) hrest
      | cons p ps =>
        rw [hp] at hrest
        exact congrArg (c :: ·) hrest

/-- What holds of the pieces of a text: nothing is cut off in front of a separator that stands where
code starts anew, and any other character belongs to the first piece. -/
theorem piecesFrom_induction {sep : Char} (hsep : isPlain sep = true)
    {motive : CodeState → Text → Text → List Text → Prop} (nil : ∀ s, motive s [] [] [])
    (separator : ∀ rest piece pieces, motive .start rest piece pieces →
      motive .start (sep :: rest) [] (piece :: pieces))
    (inside : ∀ s c rest piece pieces, s.Sound → ((s.step c).2 == some 0 && c == sep) = false →
      motive (s.step c).1 rest piece pieces → motive s (c :: rest) (c :: piece) pieces)
    {s : CodeState} (h : s.Sound) (t : Text) :
    motive s t (piecesFrom sep s t).1 (piecesFrom sep s t).2 := by
  induction t generalizing s with
  | nil => exact nil s
  | cons c rest ih =>
    cases hc : (s.step c).2 == some 0 && c == sep with
    | true =>
      obtain ⟨htop, rfl⟩ : (s.step c).2 = some 0 ∧ c = sep := by simpa using hc
      have hq : s.quote = none := CodeState.quote_of_isSome_step (by rw [htop]; rfl)
      have hstart := h.step_separator htop hsep
      have hstays : (s.step c).1 = s := congrArg Prod.fst (CodeState.step_plain_code hq hsep)
      rw [piecesFrom_separator hc]
      obtain rfl : s = .start := hstays.symm.trans hstart
      rw [hstart]
      exact separator rest _ _ (ih CodeState.sound_start)
    | false =>
      rw [piecesFrom_inside hc]
      exact inside s c rest _ _ h hc (ih (h.step c))

/-- Pieces, each with a separator behind it. -/
lemma join_append_sep (sep : Text) (piece : Text) (pieces : List Text) :
    join sep (piece :: pieces) ++ sep = (piece :: pieces).flatMap (· ++ sep) := by
  induction pieces generalizing piece with
  | nil => simp [join]
  | cons p ps ih =>
    calc join sep (piece :: p :: ps) ++ sep
        = piece ++ sep ++ (join sep (p :: ps) ++ sep) := by simp [join]
      _ = piece ++ sep ++ (p :: ps).flatMap (· ++ sep) := by rw [ih p]
      _ = (piece :: p :: ps).flatMap (· ++ sep) := by simp only [List.flatMap_cons]

lemma join_append_cons (sep : Text) (pieces : List Text) (p : Text) (ps : List Text) :
    join sep (pieces ++ p :: ps) = pieces.flatMap (· ++ sep) ++ join sep (p :: ps) := by
  induction pieces with
  | nil => rfl
  | cons q qs ih =>
    have hcons : join sep (q :: (qs ++ p :: ps)) = q ++ sep ++ join sep (qs ++ p :: ps) := by
      cases qs <;> rfl
    rw [List.cons_append, hcons, ih, List.flatMap_cons]
    simp only [List.append_assoc]

end Text
end Marginalia
