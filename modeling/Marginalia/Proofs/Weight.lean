import Marginalia.Proofs.Blanks

/-!
# What repair improves

Every step of repair makes a text better in one of three respects, the first of which it changes:
characters weigh more in all, fewer pairs of letters are found that only misspelt words have, or
fewer equality signs have dots behind them on their line. A better text is never the same text, so
no step of repair undoes another.
-/

namespace Marginalia.Repair

/-- What a character weighs. Most weigh nothing; what repair adds weighs more than what it takes
away. -/
def charWeight (c : Char) : Int :=
  if c = ';' then -1000
  else if c = '(' then 100
  else if c = 'N' ∨ c = 's' then 10
  else if c = 'k' then -10
  else if c = ':' ∨ c = '=' then 1
  else if c ∈ ['+', '"', '\'', 'n', 't', 'w', 'x'] then -1
  else 0

def weight : Text → Int
  | [] => 0
  | c :: rest => charWeight c + weight rest

@[simp] lemma weight_nil : weight [] = 0 := rfl

@[simp] lemma weight_cons (c : Char) (t : Text) : weight (c :: t) = charWeight c + weight t := rfl

@[simp] lemma weight_append (a b : Text) : weight (a ++ b) = weight a + weight b := by
  induction a with
  | nil => simp
  | cons c rest ih =>
    rw [List.cons_append, weight_cons, weight_cons, ih]
    omega

lemma charWeight_blank {c : Char} (h : isBlank c = true) : charWeight c = 0 := by
  have hne : ∀ d : Char, isBlank d = false → c ≠ d := fun d hd => ne_of_isBlank h hd
  simp [charWeight, hne ';' (by decide), hne '(' (by decide), hne 'N' (by decide),
    hne 's' (by decide), hne 'k' (by decide), hne ':' (by decide), hne '=' (by decide),
    hne '+' (by decide), hne '"' (by decide), hne '\'' (by decide), hne 'n' (by decide),
    hne 't' (by decide), hne 'w' (by decide), hne 'x' (by decide)]

lemma weight_blanks {t : Text} (h : t.isAllBlank = true) : weight t = 0 := by
  induction t with
  | nil => rfl
  | cons c rest ih =>
    rw [Text.isAllBlank, List.all_cons, Bool.and_eq_true] at h
    rw [weight_cons, charWeight_blank h.1, ih h.2, Int.add_zero]

@[simp] lemma weight_indentation (t : Text) : weight t.indentation = 0 :=
  weight_blanks List.all_takeWhile

@[simp] lemma weight_trimStart (t : Text) : weight t.trimStart = weight t := by
  have happ : t = t.indentation ++ t.trimStart := List.takeWhile_append_dropWhile.symm
  conv_rhs => rw [happ, weight_append, weight_indentation, Int.zero_add]

@[simp] lemma weight_trimEnd (t : Text) : weight t.trimEnd = weight t := by
  obtain ⟨margin, happ, hmargin⟩ := Text.dropEnd_append isBlank t
  conv_rhs => rw [happ, weight_append, weight_blanks hmargin, Int.add_zero]
  rfl

@[simp] lemma weight_trim (t : Text) : weight t.trim = weight t := by
  rw [Text.trim, weight_trimEnd, weight_trimStart]

/-- The pairs of neighbours that are found in misspelt words but not in their corrections. -/
def badPairs : List (Char × Char) :=
  [('t', 'r'), ('u', 'n'), ('i', 'r'), ('n', 'i'), ('t', 'n'), ('n', 'n'), ('i', 'i'), ('s', 'l'),
   ('r', 'o'), ('T', 'u'), ('F', 'l'), ('N', 'n'), ('h', 'l'), ('f', 'i'), ('u', '(')]

/-- One for a bad pair of neighbours; a text has no neighbour before its start and behind its
end. -/
def badPair (a b : Option Char) : Nat :=
  match a, b with
  | some a, some b => if (a, b) ∈ badPairs then 1 else 0
  | _, _ => 0

/-- The number of bad pairs in a text that follows a character. -/
def badness (prev : Option Char) : Text → Nat
  | [] => 0
  | c :: rest => badPair prev (some c) + badness (some c) rest

/-- The last character of a text that follows another one. -/
def lastOf (prev : Option Char) (t : Text) : Option Char := t.getLast?.or prev

lemma lastOf_cons (prev : Option Char) (c : Char) (rest : Text) :
    lastOf prev (c :: rest) = lastOf (some c) rest := by
  cases hr : rest.getLast? with
  | none =>
    obtain rfl := List.getLast?_eq_none_iff.mp hr
    rfl
  | some d => simp [lastOf, List.getLast?_cons, hr]

lemma lastOf_append (prev : Option Char) (a b : Text) :
    lastOf prev (a ++ b) = lastOf (lastOf prev a) b := by
  simp [lastOf, List.getLast?_append, Option.or_assoc]

lemma badness_append (prev : Option Char) (a b : Text) :
    badness prev (a ++ b) = badness prev a + badness (lastOf prev a) b := by
  induction a generalizing prev with
  | nil => simp [badness, lastOf]
  | cons c rest ih =>
    rw [List.cons_append, badness, badness, ih, lastOf_cons]
    omega

/-- The number of dots on the first line of a text. -/
def dotsOnLine (t : Text) : Nat := (t.takeWhile (· != '\n')).count '.'

/-- For each equality sign of a text the dots behind it on its line, all together. -/
def dotsBehind : Text → Nat
  | [] => 0
  | c :: rest => (if c = '=' then dotsOnLine rest else 0) + dotsBehind rest

lemma dotsBehind_append {a : Text} (ha : '=' ∉ a) (b : Text) :
    dotsBehind (a ++ b) = dotsBehind b := by
  induction a with
  | nil => rfl
  | cons c rest ih =>
    simp only [List.mem_cons, not_or] at ha
    rw [List.cons_append, dotsBehind, if_neg (Ne.symm ha.1), ih ha.2, Nat.zero_add]

lemma dotsOnLine_append {a : Text} (ha : '.' ∉ a) (hn : '\n' ∉ a) (b : Text) :
    dotsOnLine (a ++ b) = dotsOnLine b := by
  have hall : a.all (· != '\n') = true :=
    List.all_eq_true.mpr fun c hc => by simpa using ne_of_mem_of_not_mem hc hn
  rw [dotsOnLine, List.takeWhile_append_of_pos (List.all_eq_true.mp hall), List.count_append,
    List.count_eq_zero.mpr ha, Nat.zero_add]
  rfl

lemma dotsOnLine_newline (a b : Text) : dotsOnLine (a ++ '\n' :: b) = dotsOnLine a := by
  induction a with
  | nil => rfl
  | cons c rest ih =>
    by_cases hc : c = '\n'
    · subst hc
      rfl
    · simp only [dotsOnLine, List.cons_append] at ih ⊢
      rw [List.takeWhile_cons_of_pos (by simpa using hc),
        List.takeWhile_cons_of_pos (by simpa using hc), List.count_cons, List.count_cons, ih]

lemma dotsBehind_newline (a b : Text) :
    dotsBehind (a ++ '\n' :: b) = dotsBehind a + dotsBehind b := by
  induction a with
  | nil => simp [dotsBehind]
  | cons c rest ih =>
    rw [List.cons_append, dotsBehind, dotsBehind, dotsOnLine_newline, ih]
    omega

/-- One text is better than another if it weighs more, or has fewer bad pairs at the same weight, or
fewer dots behind equality signs at the same weight and badness. -/
def Better (t t' : Text) : Prop :=
  weight t < weight t' ∨ weight t = weight t' ∧ (badness none t' < badness none t ∨
    badness none t' = badness none t ∧ dotsBehind t' < dotsBehind t)

/-- Two texts that none of the three respects tells apart. -/
def Even (t t' : Text) : Prop :=
  weight t = weight t' ∧ badness none t = badness none t' ∧ dotsBehind t = dotsBehind t'

lemma Better.irrefl (t : Text) : ¬Better t t := by
  unfold Better
  omega

/-- A text is improved if it becomes better or stays as it is. -/
def Improved (t t' : Text) : Prop := t' = t ∨ Better t t'

lemma Improved.refl (t : Text) : Improved t t := .inl rfl

lemma Improved.of_weight {t t' : Text} (h : weight t < weight t') : Improved t t' := .inr (.inl h)

lemma Better.trans {a b c : Text} (h : Better a b) (h' : Better b c) : Better a c := by
  unfold Better at *
  omega

lemma Improved.trans {a b c : Text} (h : Improved a b) (h' : Improved b c) : Improved a c := by
  obtain rfl | h := h
  · exact h'
  · obtain rfl | h' := h'
    · exact .inr h
    · exact .inr (h.trans h')

/-! Lines that are improved improve the text that they make up. -/

lemma badPair_newline (a : Option Char) : badPair a (some '\n') = 0 := by
  cases a with
  | none => rfl
  | some a =>
    have hnot : (a, '\n') ∉ badPairs := by simp [badPairs]
    simp [badPair, hnot]

lemma badness_after_newline (t : Text) : badness (some '\n') t = badness none t := by
  cases t with
  | nil => rfl
  | cons c rest => simp [badness, badPair, badPairs]

lemma badness_newline (a b : Text) :
    badness none (a ++ '\n' :: b) = badness none a + badness none b := by
  rw [badness_append, badness, badPair_newline, badness_after_newline, Nat.zero_add]

lemma unlines_cons_cons (a b : Text) (rest : List Text) :
    Text.unlines (a :: b :: rest) = a ++ '\n' :: Text.unlines (b :: rest) := by
  simp [Text.unlines, Text.join]

lemma Improved.line {a a' b b' : Text} (ha : Improved a a') (hb : Improved b b') :
    Improved (a ++ '\n' :: b) (a' ++ '\n' :: b') := by
  obtain rfl | ha := ha
  · obtain rfl | hb := hb
    · exact .refl _
    · right
      unfold Better at *
      simp only [weight_append, weight_cons, badness_newline, dotsBehind_newline]
      omega
  · right
    have hb : weight b < weight b' ∨ weight b = weight b' ∧ (badness none b' < badness none b ∨
        badness none b' = badness none b ∧ dotsBehind b' ≤ dotsBehind b) := by
      obtain rfl | hb := hb
      · omega
      · unfold Better at hb
        omega
    unfold Better at *
    simp only [weight_append, weight_cons, badness_newline, dotsBehind_newline]
    omega

lemma Improved.unlines {lines lines' : List Text} (h : List.Forall₂ Improved lines lines') :
    Improved (Text.unlines lines) (Text.unlines lines') := by
  induction h with
  | nil => exact .refl _
  | cons ha hrest ih =>
    cases hrest with
    | nil => exact ha
    | cons hb hrest =>
      rw [unlines_cons_cons, unlines_cons_cons]
      exact .line ha ih

end Marginalia.Repair
