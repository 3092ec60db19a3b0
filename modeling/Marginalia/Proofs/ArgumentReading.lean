import Marginalia.Proofs.CodeScan
import Marginalia.Repair.Arguments

/-!
# Reading an argument

Whether an argument of a call starts with a star or is given by name is decided by looking at the
whole of it. `ArgumentReading` decides it character by character, blanks at its margins included, so
that a change of the text around an argument can be followed.
-/

namespace Marginalia.Repair

open Text

/-- What is known about the first equals sign of an argument outside literals and brackets. -/
inductive Sign where
  | unseen
  /-- It was the last character. -/
  | pending
  | comparison
  | keyword
deriving Repr, DecidableEq

namespace Sign

def step (s : Sign) (top : Bool) (c : Char) : Sign :=
  match s with
  | unseen => if top && c == '=' then pending else unseen
  | pending => if c == '=' then comparison else keyword
  | comparison => comparison
  | keyword => keyword

/-- Whether an argument that ends here is given by name. -/
def isKeyword : Sign → Bool
  | pending | keyword => true
  | unseen | comparison => false

end Sign

/-- What is known about an argument: whether it is more than blanks, whether it starts with a star,
and its sign. -/
structure ArgumentReading where
  started : Bool
  starred : Bool
  sign : Sign
deriving Repr, DecidableEq

namespace ArgumentReading

def fresh : ArgumentReading := ⟨false, false, .unseen⟩

/-- Reads a character, which may stand outside literals and brackets. -/
def step (a : ArgumentReading) (top : Bool) (c : Char) : ArgumentReading :=
  ⟨a.started || !isBlank c, if a.started then a.starred else c == '*', a.sign.step top c⟩

def isSpecial (a : ArgumentReading) : Bool := a.starred || a.sign.isKeyword

/-- Reads a text that starts in a state of the code. -/
def read (s : CodeState) (a : ArgumentReading) : Text → ArgumentReading
  | [] => a
  | c :: rest => read (s.step c).1 (a.step ((s.step c).2 == some 0) c) rest

lemma read_append (s : CodeState) (a : ArgumentReading) (t t' : Text) :
    a.read s (t ++ t') = (a.read s t).read (s.run t) t' := by
  induction t generalizing s a with
  | nil => rfl
  | cons c rest ih => exact ih _ _

lemma started_read (s : CodeState) (a : ArgumentReading) (t : Text) :
    (a.read s t).started = (a.started || !t.isAllBlank) := by
  induction t generalizing s a with
  | nil => simp [read, isAllBlank]
  | cons c rest ih =>
    rw [read, ih]
    simp [step, isAllBlank, Bool.or_assoc]

lemma starred_read_of_started (s : CodeState) {a : ArgumentReading} (h : a.started = true)
    (t : Text) : (a.read s t).starred = a.starred := by
  induction t generalizing s a with
  | nil => rfl
  | cons c rest ih =>
    rw [read, ih _ (by simp [step, h])]
    simp [step, h]

lemma sign_read_of_settled (s : CodeState) {a : ArgumentReading}
    (h : a.sign = .comparison ∨ a.sign = .keyword) (t : Text) : (a.read s t).sign = a.sign := by
  induction t generalizing s a with
  | nil => rfl
  | cons c rest ih =>
    have hstep : (a.step ((s.step c).2 == some 0) c).sign = a.sign := by
      obtain h | h := h <;> simp [step, Sign.step, h]
    rw [read, ih _ (by rwa [hstep]), hstep]

lemma isKeyword_read_pending (s : CodeState) {a : ArgumentReading} (h : a.sign = .pending)
    (t : Text) : (a.read s t).sign.isKeyword = !t.startsWith "=" := by
  cases t with
  | nil => simp [read, h, Sign.isKeyword, startsWith, after?]
  | cons c rest =>
    rw [read]
    by_cases hc : c = '='
    · have hstep : (a.step ((s.step c).2 == some 0) c).sign = .comparison := by
        simp [step, Sign.step, h, hc]
      rw [sign_read_of_settled _ (.inl hstep), hstep]
      simp [Sign.isKeyword, startsWith, after?, hc]
    · have hstep : (a.step ((s.step c).2 == some 0) c).sign = .keyword := by
        simp [step, Sign.step, h, hc]
      rw [sign_read_of_settled _ (.inr hstep), hstep]
      simp [Sign.isKeyword, startsWith, after?, Ne.symm hc]

/-- The sign that a reader comes to is the one that `splitAtCode?` finds. -/
lemma isKeyword_read_unseen (s : CodeState) {a : ArgumentReading} (h : a.sign = .unseen)
    (t : Text) : (a.read s t).sign.isKeyword =
      match splitAtCode? (fun depth t => depth == 0 && t.head? == some '=') s t with
      | some (_, tail) => !Text.startsWith (tail.drop 1) "="
      | none => false := by
  induction t generalizing s a with
  | nil => simp [read, h, Sign.isKeyword, splitAtCode?]
  | cons c rest ih =>
    rw [read, splitAtCode?]
    cases hd : (s.step c).2 with
    | none =>
      have hstep : (a.step (none == some 0) c).sign = .unseen := by simp [step, Sign.step, h]
      simp only [ih _ hstep]
      cases splitAtCode? _ (s.step c).1 rest <;> rfl
    | some depth =>
      by_cases htop : (depth == 0 && c == '=') = true
      · rw [Bool.and_eq_true, beq_iff_eq, beq_iff_eq] at htop
        have hstep : (a.step (some depth == some 0) c).sign = .pending := by
          simp [step, Sign.step, h, htop]
        rw [isKeyword_read_pending _ hstep]
        simp [htop]
      · have hstep : (a.step (some depth == some 0) c).sign = .unseen := by
          simpa [step, Sign.step, h] using htop
        have hstop : (depth == 0 && (c :: rest).head? == some '=') = false := by
          simpa using htop
        simp only [ih _ hstep, hstop]
        cases splitAtCode? _ (s.step c).1 rest <;> rfl

/-- Before the first character that is not blank nothing is known. -/
def Sound (a : ArgumentReading) : Prop := a.started = false → a = fresh

lemma sound_fresh : fresh.Sound := fun _ => rfl

lemma step_fresh_blank (top : Bool) {c : Char} (hc : isBlank c = true) :
    fresh.step top c = fresh := by
  have hequals : c ≠ '=' := ne_of_isBlank hc (by decide)
  have hstar : c ≠ '*' := ne_of_isBlank hc (by decide)
  simp [step, fresh, Sign.step, hequals, hstar, hc]

lemma Sound.step {a : ArgumentReading} (h : a.Sound) (top : Bool) (c : Char) :
    (a.step top c).Sound := by
  intro hstarted
  simp only [ArgumentReading.step, Bool.or_eq_false_iff, Bool.not_eq_false'] at hstarted
  rw [h hstarted.1, step_fresh_blank top hstarted.2]

lemma Sound.read {a : ArgumentReading} (h : a.Sound) (s : CodeState) (t : Text) :
    (a.read s t).Sound := by
  induction t generalizing s a with
  | nil => exact h
  | cons c rest ih => exact ih (h.step _ c) _

/-- A blank ends no argument: it makes none special, and none ordinary. -/
lemma Sound.isSpecial_step_blank {a : ArgumentReading} (h : a.Sound) (top : Bool) {c : Char}
    (hc : isBlank c = true) : (a.step top c).isSpecial = a.isSpecial := by
  cases hstarted : a.started with
  | false => rw [h hstarted, step_fresh_blank top hc]
  | true =>
    have hequals : c ≠ '=' := ne_of_isBlank hc (by decide)
    obtain ⟨started, starred, sign⟩ := a
    obtain rfl : started = true := hstarted
    cases sign <;> simp [isSpecial, ArgumentReading.step, Sign.step, Sign.isKeyword, hequals]

lemma read_start_blanks {t : Text} (ht : t.isAllBlank = true) :
    fresh.read .start t = fresh := by
  induction t with
  | nil => rfl
  | cons c rest ih =>
    simp only [isAllBlank, List.all_cons, Bool.and_eq_true] at ht
    rw [read, CodeState.step_plain_code rfl (isPlain_of_isBlank ht.1), step_fresh_blank _ ht.1]
    exact ih ht.2

lemma Sound.isSpecial_read_blanks {a : ArgumentReading} (h : a.Sound) (s : CodeState) {t : Text}
    (ht : t.isAllBlank = true) : (a.read s t).isSpecial = a.isSpecial := by
  induction t generalizing s a with
  | nil => rfl
  | cons c rest ih =>
    simp only [isAllBlank, List.all_cons, Bool.and_eq_true] at ht
    rw [ArgumentReading.read, ih (h.step _ c) _ ht.2, h.isSpecial_step_blank _ ht.1]

/-- An argument that is read from its start is special exactly when its trimmed form starts with a
star or is given by name. -/
lemma isSpecial_read_fresh (t : Text) : (fresh.read .start t).isSpecial =
    ((trim t).startsWith "*" || isKeywordArgument (trim t)) := by
  obtain ⟨front, back, ht, hfront, hback⟩ := trim_append t
  have hskip : fresh.read .start t = (fresh.read .start (trim t)).read
      (CodeState.start.run (trim t)) back := by
    calc fresh.read .start t = fresh.read .start (front ++ (trim t ++ back)) := by
          rw [← List.append_assoc, ← ht]
      _ = fresh.read .start (trim t ++ back) := by
          rw [read_append, read_start_blanks hfront, CodeState.run_blanks rfl hfront]
      _ = _ := read_append _ _ _ _
  rw [hskip, (sound_fresh.read _ _).isSpecial_read_blanks _ hback]
  rw [isSpecial, isKeyword_read_unseen _ rfl]
  congr 1
  cases hc : trim t with
  | nil => rfl
  | cons c rest =>
    have hblank : isBlank c = false := head?_trim (by rw [hc]; rfl)
    rw [read, starred_read_of_started _ (by simp [step, hblank])]
    by_cases hstar : c = '*'
    · simp [step, fresh, startsWith, after?, hstar]
    · simp [step, fresh, startsWith, after?, hstar, Ne.symm hstar]

end ArgumentReading

end Marginalia.Repair
