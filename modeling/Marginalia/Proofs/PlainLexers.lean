import Marginalia.Proofs.Lexers

/-!
# Plain lexers

A lexer for each language that knows comments, literals and joined lines, and takes all other code
character by character. It reads the start of a line and a comment as a lexer has to.
-/

namespace Marginalia
namespace Lexer

/-- Where a plain lexer is in a text. -/
inductive Place where
  /-- Behind blanks alone on a line. They are code if code follows. -/
  | margin (blanks : Text)
  | code
  /-- Behind a slash that can begin a comment, and the blanks before it. -/
  | slash (blanks : Text) (behindCode : Bool)
  | backslash
  | comment (behindCode escaped : Bool)
  | blockComment (starred : Bool)
  /-- Behind one or two quotes that can begin a literal over several lines. -/
  | quotes (quote : Char) (two : Bool)
  | literal (quote : Char) (isLong : Bool) (closers : Nat)
  | escape (quote : Char) (isLong : Bool)
deriving Repr, DecidableEq

namespace Place

/-- Whether a literal or comment has begun and not ended. -/
def isInside : Place → Bool
  | .comment .. => true
  | .blockComment _ => true
  | .quotes .. => true
  | .literal .. => true
  | .escape .. => true
  | _ => false

def quoteMarks : Language → Text
  | .python => ['"', '\'']
  | .javascript => ['"', '\'', '`']
  | .c => ['"', '\'']

/-- A character of code, behind other code on its line. -/
def stepCode (l : Language) (c : Char) : Place × Text :=
  if c = '\n' then (.margin [], [c])
  else if c = '\\' then (.backslash, [c])
  else if (quoteMarks l).contains c then
    (if l = .python then .quotes c false else .literal c false 0, [c])
  else if l = .python ∧ c = '#' then (.comment true false, [])
  else if l ≠ .python ∧ c = '/' then (.slash [] true, [])
  else (.code, [c])

/-- A character of a literal. A short literal that is not closed ends with its line. -/
def stepLiteral (quote : Char) (isLong : Bool) (closers : Nat) (c : Char) : Place × Text :=
  if c = '\n' then (if isLong ∨ quote = '`' then .literal quote isLong 0 else .margin [], [c])
  else if c = '\\' then (.escape quote isLong, [c])
  else if c = quote then
    (if isLong ∧ closers < 2 then .literal quote isLong (closers + 1) else .code, [c])
  else (.literal quote isLong 0, [c])

/-- The character with what was held back before it. -/
def behind (held : Text) (read : Place × Text) : Place × Text := (read.1, held ++ read.2)

/-- One character, with those that it shows to be no comment. -/
def step (l : Language) : Place → Char → Place × Text
  | .margin blanks, c =>
    if c = '\n' then (.margin [], blanks ++ [c])
    else if isBlank c then (.margin (blanks ++ [c]), [])
    else if l = .python ∧ c = '#' then (.comment false false, [])
    else if l ≠ .python ∧ c = '/' then (.slash blanks false, [])
    else behind blanks (stepCode l c)
  | .code, c => stepCode l c
  | .slash blanks behindCode, c =>
    if c = '/' then (.comment behindCode false, [])
    else if c = '*' then (.blockComment false, [])
    else behind (blanks ++ ['/']) (stepCode l c)
  | .backslash, c => (.code, [c])
  | .comment behindCode escaped, c =>
    if c = '\n' then
      if l = .c ∧ escaped then (.comment behindCode false, [])
      else (.margin [], if behindCode then [c] else [])
    else (.comment behindCode (c == '\\' || escaped && isBlank c), [])
  | .blockComment starred, c =>
    if starred ∧ c = '/' then (.code, []) else (.blockComment (c == '*'), [])
  | .quotes quote two, c =>
    if c = quote then (if two then .literal quote true 0 else .quotes quote true, [c])
    else if two then stepCode l c
    else stepLiteral quote false 0 c
  | .literal quote isLong closers, c => stepLiteral quote isLong closers c
  | .escape quote isLong, c => (.literal quote isLong 0, [c])

/-- What is held back at the end of a text is code. -/
def held : Place → Text
  | .margin blanks => blanks
  | .slash blanks _ => blanks ++ ['/']
  | _ => []

/-! ## Line ends -/

variable {l : Language}

lemma stepCode_newline (l : Language) : (stepCode l '\n').1 = .margin [] := by
  rw [stepCode, if_pos rfl]

lemma stepLiteral_newline (quote : Char) (isLong : Bool) (closers : Nat) :
    (stepLiteral quote isLong closers '\n').1 = .margin [] ∨
      (stepLiteral quote isLong closers '\n').1.isInside = true := by
  rw [stepLiteral, if_pos rfl]
  split
  · exact .inr rfl
  · exact .inl rfl

/-- A line that starts neither inside something nor behind a backslash starts at its margin. -/
lemma step_newline (s : Place) :
    (step l s '\n').1 = .margin [] ∨ (step l s '\n').1.isInside = true ∨ s = .backslash := by
  cases s with
  | margin blanks => exact .inl (by rw [step, if_pos rfl])
  | code => exact .inl (stepCode_newline l)
  | slash blanks behindCode =>
    refine .inl ?_
    rw [step, if_neg (by decide), if_neg (by decide)]
    exact stepCode_newline l
  | backslash => exact .inr (.inr rfl)
  | comment behindCode escaped =>
    rw [step, if_pos rfl]
    split
    · exact .inr (.inl rfl)
    · exact .inl rfl
  | blockComment starred =>
    rw [step, if_neg (fun h => absurd h.2 (by decide))]
    exact .inr (.inl rfl)
  | quotes quote two =>
    rw [step]
    split
    · cases two <;> exact .inr (.inl rfl)
    · cases two with
      | true => exact .inl (stepCode_newline l)
      | false => exact (stepLiteral_newline quote false 0).imp_right .inl
  | literal quote isLong closers =>
    exact (stepLiteral_newline quote isLong closers).imp_right .inl
  | escape quote isLong => exact .inr (.inl rfl)

/-! ## Backslashes -/

lemma eq_of_stepCode {c : Char} (h : (stepCode l c).1 = .backslash) : c = '\\' := by
  unfold stepCode at h
  split_ifs at h
  assumption

lemma stepLiteral_ne (quote : Char) (isLong : Bool) (closers : Nat) (c : Char) :
    (stepLiteral quote isLong closers c).1 ≠ .backslash := by
  unfold stepLiteral
  split_ifs <;> exact Place.noConfusion

/-- Only a backslash leads behind a backslash. -/
lemma eq_of_step {s : Place} {c : Char} (h : (step l s c).1 = .backslash) : c = '\\' := by
  cases s with
  | margin blanks =>
    rw [step] at h
    split_ifs at h
    exact eq_of_stepCode h
  | code => exact eq_of_stepCode h
  | slash blanks behindCode =>
    rw [step] at h
    split_ifs at h
    exact eq_of_stepCode h
  | backslash => cases h
  | comment behindCode escaped =>
    rw [step] at h
    split_ifs at h
  | blockComment starred =>
    rw [step] at h
    split_ifs at h
  | quotes quote two =>
    rw [step] at h
    split_ifs at h
    · exact eq_of_stepCode h
    · exact absurd h (stepLiteral_ne quote false 0 c)
  | literal quote isLong closers => exact absurd h (stepLiteral_ne quote isLong closers c)
  | escape quote isLong => cases h

end Place

/-- The plain lexer of a language. -/
def plain (l : Language) : Lexer where
  State := Place
  Token := Char
  start := .margin []
  step := Place.step l
  finish := Place.held

instance (l : Language) : DecidableEq (plain l).Token := inferInstanceAs (DecidableEq Char)

variable {l : Language}

lemma getLast?_of_after {t : Text} (h : (plain l).after t = Place.backslash) :
    t.getLast? = some '\\' := by
  cases t using List.reverseRecOn with
  | nil => cases h
  | append_singleton t c =>
    rw [after_concat] at h
    rw [Place.eq_of_step h, List.getLast?_concat]

/-- Behind lines, what ends in a backslash is not empty. -/
lemma getLast?_of_ended {lines : List Text} {piece : Text}
    (h : (lines.flatMap (· ++ ['\n']) ++ piece).getLast? = some '\\') :
    piece.getLast? = some '\\' := by
  cases piece using List.reverseRecOn with
  | nil =>
    cases lines using List.reverseRecOn with
    | nil => cases h
    | append_singleton lines line =>
      rw [List.append_nil, List.flatMap_append, List.flatMap_singleton, ← List.append_assoc,
        List.getLast?_concat] at h
      exact absurd h (by decide)
  | append_singleton front c =>
    rw [← List.append_assoc, List.getLast?_concat] at h
    exact List.getLast?_concat.trans h

/-- A line starts at its margin if no literal or comment goes on from the line above and that does not
end in a backslash. -/
lemma after_above {t : Text} {n : Nat}
    (hinside : Place.isInside ((plain l).after (t.above n)) = false)
    (habove : ∀ line ∈ (t.lines.take n).getLast?, line.endsInBackslash = false) :
    (plain l).after (t.above n) = Place.margin [] := by
  rw [Text.above] at hinside ⊢
  cases hlines : t.lines.take n using List.reverseRecOn with
  | nil => rfl
  | append_singleton lines line =>
    rw [hlines] at hinside habove
    rw [List.flatMap_append, List.flatMap_singleton, ← List.append_assoc, after_concat] at hinside ⊢
    rcases Place.step_newline (l := l) ((plain l).after (lines.flatMap (· ++ ['\n']) ++ line)) with
      hmargin | hopen | hjoined
    · exact hmargin
    · exact absurd (hopen.symm.trans hinside) (by decide)
    · obtain ⟨front, rfl⟩ := List.getLast?_eq_some_iff.mp (getLast?_of_ended (getLast?_of_after hjoined))
      have hends := habove _ List.getLast?_concat
      rw [Text.endsInBackslash_append_singleton] at hends
      cases hends

/-- The plain lexer reads the starts of lines and comments as a lexer of its language. -/
def readsPlain (l : Language) : (plain l).Reads l where
  isInside := Place.isInside
  isGap c := c != '\n' && isBlank c
  endsLine c := c == '\n'
  AtMargin s s' := s = Place.margin [] ∧ ∃ blanks, s' = Place.margin blanks
  InComment s escaped s' := s = Place.margin [] ∧ s' = Place.comment false escaped
  line_start t n hinside habove :=
    have hmargin := after_above hinside habove
    ⟨hmargin, [], hmargin⟩
  blank := by
    rintro s s' c ⟨rfl, blanks, rfl⟩ hc
    rw [Bool.and_eq_true, bne_iff_ne] at hc
    refine ⟨.margin (blanks ++ [c]), ?_, rfl, _, rfl⟩
    change Place.step l (.margin blanks) c = _
    rw [Place.step, if_neg hc.1, if_pos hc.2]
    rfl
  mark := by
    rintro s s' ⟨rfl, blanks, rfl⟩
    refine ⟨.comment false false, ?_, rfl, rfl⟩
    cases l <;> rfl
  comment := by
    rintro s s' escaped c ⟨rfl, rfl⟩ hc
    refine ⟨_, ?_, rfl, rfl⟩
    change Place.step l (.comment false escaped) c = _
    rw [Place.step, if_neg (beq_eq_false_iff_ne.mp hc)]
    rfl
  space := rfl
  line_end := by
    rintro s s' escaped ⟨rfl, rfl⟩ hescaped
    change Place.step l (.comment false escaped) '\n' = _
    rw [Place.step, if_pos rfl, if_neg]
    · rfl
    · rintro ⟨hl, hends⟩
      rw [hescaped hl] at hends
      cases hends

end Lexer
end Marginalia
