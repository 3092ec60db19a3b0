import Marginalia.Proofs.Completions
import Marginalia.Proofs.Edits
import Marginalia.Proofs.HeaderColons
import Marginalia.Proofs.ImprovedLogic

/-!
# Equality signs in conditions

The mend for assignments in conditions doubles equality signs that have no other sign beside them
and stand outside literals and brackets, up to the first colon out there unless that one starts
`:=`. So it keeps `:=`, comparisons and everything in brackets. But not every sign it doubles is an
assignment in the condition: it knows no augmented assignments and no literals with three quotes,
and if `:=` hides the colon of the header it goes on to the end of the line.
-/

namespace Marginalia.Repair

open Text

/-! ## What is doubled -/

/-- Edits that double the equality signs at certain places. -/
def doubling (p : Text → Prop) (head old new : Text) : Prop := p head ∧ old = "=" ∧ new = "=="

lemma doubling_congr {p q : Text → Prop} {head head' old new : Text} (h : p head ↔ q head') :
    doubling p head old new ↔ doubling q head' old new := and_congr_left fun _ => h

/-- An equality sign outside literals and brackets with no sign beside it that would be part of the
same one. It is told by the text before it. -/
def LoneSign (t head : Text) : Prop :=
  ∃ rest, t = head ++ '=' :: rest ∧ CodeState.start.run head = .start ∧
    (lastOf none head).any joinsEquality = false ∧ rest.head? ≠ some '='

/-- A place in a text that the condition at its start reaches: if the first colon outside literals
and brackets is not that of `:=`, the condition ends there. -/
def Reached (t head : Text) : Prop :=
  ShowsColon t → ∀ head' rest', TopColon t head' rest' → head.length < head'.length

/-- A lone sign in what is taken for the condition of some code. -/
def Compared (code head : Text) : Prop :=
  ∃ lead t head', code = lead ++ t ∧ afterConditionWord? code = some t ∧ head = lead ++ head' ∧
    LoneSign t head' ∧ Reached t head'

lemma isLone_iff {s : CodeState} (hs : s.Sound) {rest : Text} {prev : Option Char} :
    ('=' == '=' && (s.step '=').2 == some 0 && !prev.any joinsEquality &&
      rest.head? != some '=') = true ↔
    s = .start ∧ prev.any joinsEquality = false ∧ rest.head? ≠ some '=' := by
  have hstep : (s.step '=').2 = some 0 ↔ s = .start := by
    constructor
    · intro h
      have hquote := CodeState.quote_of_isSome_step (by rw [h]; rfl)
      rw [CodeState.step_plain_code hquote (by decide)] at h
      exact hs.eq_start hquote (Option.some.inj h)
    · rintro rfl
      rfl
  simp only [Bool.and_eq_true, beq_iff_eq, hstep, bne_iff_ne, Bool.not_eq_true', ne_eq, true_and,
    and_assoc]

lemma loneSign_append {head rest : Text} {c : Char} : LoneSign (head ++ c :: rest) head ↔
    c = '=' ∧ CodeState.start.run head = .start ∧ (lastOf none head).any joinsEquality = false ∧
      rest.head? ≠ some '=' := by
  constructor
  · rintro ⟨rest', heq, hstart, hprev, hrest⟩
    obtain ⟨rfl, rfl⟩ := List.cons.inj (List.append_cancel_left heq)
    exact ⟨rfl, hstart, hprev, hrest⟩
  · rintro ⟨rfl, hstart, hprev, hrest⟩
    exact ⟨rest, rfl, hstart, hprev, hrest⟩

/-- In a stretch of a text the lone signs are doubled. -/
lemma doubled_doubleEquality (head stretch : Text) {tail : Text} (hend : tail.head? ≠ some '=') :
    Edited (doubling (LoneSign (head ++ (stretch ++ tail)))) head stretch
      (doubleEquality (CodeState.start.run head) (lastOf none head) stretch) := by
  induction stretch generalizing head with
  | nil => exact .nil head
  | cons c rest ih =>
    have hrest := ih (head ++ [c])
    rw [← List.append_cons, CodeState.run_append, lastOf_append] at hrest
    have hbehind : (rest ++ tail).head? ≠ some '=' ↔ rest.head? ≠ some '=' := by
      cases rest with
      | nil => exact ⟨fun _ => nofun, fun _ => hend⟩
      | cons d rest => exact Iff.rfl
    have hlone : LoneSign (head ++ (c :: rest ++ tail)) head ↔ c = '=' ∧
        CodeState.start.run head = .start ∧ (lastOf none head).any joinsEquality = false ∧
          rest.head? ≠ some '=' := by
      rw [List.cons_append, loneSign_append, hbehind]
    rw [doubleEquality]
    split
    · next hif =>
      obtain rfl : c = '=' := by
        simp only [Bool.and_eq_true, beq_iff_eq] at hif
        exact hif.1.1.1
      rw [isLone_iff (CodeState.sound_start.run head)] at hif
      exact .swap (List.cons_ne_nil _ _) ⟨hlone.mpr ⟨rfl, hif⟩, rfl, rfl⟩ hrest
    · next hif =>
      refine .keep (fun _ _ hsign => hif ?_) hrest
      obtain ⟨rfl, hlast⟩ := hlone.mp hsign.1
      exact (isLone_iff (CodeState.sound_start.run head)).mpr hlast

/-- The condition ends before the first colon, unless that is the one of `:=`. -/
lemma doubled_splitCondition (t : Text) :
    Edited (doubling fun head => LoneSign t head ∧ Reached t head) [] t
      (doubleEquality .start none (splitCondition t).1 ++ (splitCondition t).2) := by
  have hwhole : ¬ShowsColon t → Edited (doubling fun head => LoneSign t head ∧ Reached t head) [] t
      (doubleEquality .start none t ++ []) := fun hnot => by
    have hsigns := doubled_doubleEquality [] t (show ([] : Text).head? ≠ some '=' from nofun)
    rw [List.append_nil] at hsigns ⊢
    exact hsigns.congr fun more _ _ _ _ _ =>
      doubling_congr (and_iff_left fun hshows => absurd hshows hnot).symm
  rw [splitCondition]
  cases hsplit : splitTopLevel? ':' t with
  | none =>
    refine hwhole ?_
    rintro ⟨head, rest, htop, -⟩
    exact split_eq_none_iff.mp hsplit head rest htop
  | some pair =>
    obtain ⟨rest, htail, htop, hfirst⟩ := topColon_of_split hsplit
    obtain ⟨condition, tail⟩ := pair
    obtain rfl : tail = ':' :: rest := htail
    have hshows : ShowsColon t ↔ rest.head? ≠ some '=' := by
      rw [← hasHeaderColon_iff, hasHeaderColon_of_split hsplit]
    simp only [List.drop_succ_cons, List.drop_zero]
    split
    · next heq =>
      rw [startsWith_equals] at heq
      exact hwhole fun h => hshows.mp h heq
    · next hne =>
      rw [startsWith_equals] at hne
      have ht : t = condition ++ ':' :: rest := htop.1
      have hsigns := doubled_doubleEquality [] condition
        (show (':' :: rest).head? ≠ some '=' by rw [List.head?_cons]; decide)
      rw [List.nil_append, ← ht] at hsigns
      have hreached : ∀ more, Reached t more ↔ more.length < condition.length := by
        refine fun more => ⟨fun h => h (hshows.mpr hne) condition rest htop, ?_⟩
        exact fun h _ head' rest' htop' => Nat.lt_of_lt_of_le h (hfirst head' rest' htop')
      have hdone : Edited (doubling fun head => LoneSign t head ∧ Reached t head) []
          (condition ++ ':' :: rest) (doubleEquality .start none condition ++ ':' :: rest) := by
        refine .append (hsigns.congr fun more c behind hmore _ _ => ?_)
          (.same fun more _ _ _ _ _ h => ?_)
        · refine doubling_congr (and_iff_left ((hreached more).mpr ?_)).symm
          rw [hmore, List.length_append, List.length_cons]
          omega
        · have hlt := (hreached _).mp h.1.2
          rw [List.nil_append, List.length_append] at hlt
          omega
      rwa [← ht] at hdone

lemma getD_changed? (old new : Text) : (changed? old new).getD old = new := by
  rw [changed?]
  split
  · next heq => exact heq.symm
  · rfl

lemma compared_iff {code lead t : Text} (hcode : code = lead ++ t)
    (ht : afterConditionWord? code = some t) {head : Text} :
    Compared code (lead ++ head) ↔ LoneSign t head ∧ Reached t head := by
  constructor
  · rintro ⟨lead', t', head', hcode', ht', hhead, h⟩
    obtain rfl : t = t' := Option.some.inj (ht.symm.trans ht')
    obtain rfl : lead = lead' := List.append_cancel_right (hcode.symm.trans hcode')
    rwa [List.append_cancel_left hhead]
  · exact fun h => ⟨lead, t, head, hcode, ht, rfl, h⟩

/-- Exactly the signs compared are doubled. -/
lemma doubled_compareInCondition (code : Text) :
    Edited (doubling (Compared code)) [] code ((compareInCondition? code).getD code) := by
  cases ht : afterConditionWord? code with
  | none =>
    rw [compareInCondition?, ht]
    refine .same ?_
    rintro _ _ _ _ _ _ ⟨⟨_, _, _, _, hsome, -⟩, -⟩
    rw [ht] at hsome
    cases hsome
  | some t =>
    obtain ⟨lead, hcode⟩ := afterConditionWord?_suffix ht
    have hresult : (compareInCondition? code).getD code =
        lead ++ (doubleEquality .start none (splitCondition t).1 ++ (splitCondition t).2) := by
      simp only [compareInCondition?, Option.bind_eq_bind, ht, Option.bind_some]
      rw [getD_changed?, List.append_assoc]
      congr 1
      rw [hcode, before_append]
    have hparts : Edited (doubling (Compared code)) [] (lead ++ t)
        (lead ++ (doubleEquality .start none (splitCondition t).1 ++ (splitCondition t).2)) := by
      refine .append (.same ?_) ((doubled_splitCondition t).congr fun more _ _ _ _ _ => ?_)
      · rintro more c rest hlead old new ⟨⟨lead', t', head', hcode', ht', hhead, -⟩, -⟩
        obtain rfl : t = t' := Option.some.inj (ht.symm.trans ht')
        obtain rfl : lead = lead' := List.append_cancel_right (hcode.symm.trans hcode')
        have hlength := congrArg List.length (hlead.trans (congrArg (· ++ c :: rest) hhead))
        simp at hlength
      · exact doubling_congr (compared_iff hcode ht).symm
    rw [← hcode] at hparts
    rwa [hresult]

lemma compareInCondition?_eq_none_iff {code : Text} :
    compareInCondition? code = none ↔ ∀ head, ¬Compared code head := by
  have hsame : compareInCondition? code = none ↔ (compareInCondition? code).getD code = code := by
    cases hsome : compareInCondition? code with
    | none => exact ⟨fun _ => rfl, fun _ => rfl⟩
    | some code' =>
      obtain ⟨_, _, _, _, _, hne⟩ := eq_of_compareInCondition? hsome
      exact ⟨nofun, fun heq => absurd heq hne⟩
  have hlong : ∀ head old new, doubling (Compared code) head old new →
      old.length < new.length := by
    rintro head old new ⟨-, rfl, rfl⟩
    exact Nat.lt_succ_self 1
  rw [hsame, (doubled_compareInCondition code).eq_iff hlong]
  refine ⟨fun h head hsign => ?_, fun h more _ _ _ _ _ hsign => h _ hsign.1⟩
  have hparts := hsign
  obtain ⟨lead, t, head', hcode, -, rfl, ⟨rest, ht, -⟩, -⟩ := hparts
  exact h (lead ++ head') '=' rest (by rw [hcode, ht, List.append_assoc]) _ _ ⟨hsign, rfl, rfl⟩

/-! ## Signs of a condition -/

/-- Where a reader of a condition stands who knows literals between three quotes as well: how much
of a delimiter is still to be read, and how many `lambda` outside brackets wait for their colon. -/
structure Reading where
  code : CodeState
  long : Bool
  skip : Nat
  lambdas : Nat
deriving Repr, DecidableEq

namespace Reading

/-- Before the first character. -/
def start : Reading := ⟨.start, false, 0, 0⟩

/-- The `lambda` that wait for their colon behind a character. -/
def lambdasAfter (r : Reading) (prev : Option Char) (c : Char) (rest : Text) : Nat :=
  if r.code ≠ .start then r.lambdas
  else if isFresh prev && Text.startsWith (c :: rest) "lambda" && !continuesWord (rest.drop 5) then
    r.lambdas + 1
  else if c == ':' && rest.head? != some '=' then r.lambdas - 1
  else r.lambdas

/-- Reads a character, told the one before it and the text behind it. -/
def step (r : Reading) (prev : Option Char) (c : Char) (rest : Text) : Reading :=
  let three := isQuote c && rest.startsWith [c, c]
  if 0 < r.skip then { r with skip := r.skip - 1 }
  else if r.code.quote.isNone && three then ⟨(r.code.step c).1, true, 2, r.lambdas⟩
  else if r.long && r.code.quote == some c && !r.code.escaped then
    if three then ⟨(r.code.step c).1, false, 2, r.lambdas⟩ else r
  else { r with code := (r.code.step c).1, lambdas := r.lambdasAfter prev c rest }

/-- Reads a text, told the character before it and the text behind it. -/
def run (r : Reading) (prev : Option Char) : Text → Text → Reading
  | [], _ => r
  | c :: head, rest => (r.step prev c (head ++ rest)).run (some c) head rest

/-- Where no three quotes stand in a row, this reader stands where the other one does. -/
lemma run_code {r : Reading} (hskip : r.skip = 0) (hlong : r.long = false) {prev : Option Char}
    {head rest : Text} (hquotes : ∀ q, isQuote q = true → ¬[q, q, q] <:+: head ++ rest) :
    (r.run prev head rest).code = r.code.run head := by
  induction head generalizing r prev with
  | nil => rfl
  | cons c head ih =>
    have hthree : (isQuote c && Text.startsWith (head ++ rest) [c, c]) = false := by
      by_contra h
      rw [Bool.not_eq_false, Bool.and_eq_true, startsWith_iff] at h
      obtain ⟨hquote, more, hmore⟩ := h
      refine hquotes c hquote ⟨[], more, ?_⟩
      rw [List.cons_append, hmore]
      rfl
    have hstep : r.step prev c (head ++ rest) = { r with
        code := (r.code.step c).1, lambdas := r.lambdasAfter prev c (head ++ rest) } := by
      simp only [step, hskip, hlong, hthree, Nat.lt_irrefl, if_false, Bool.and_false,
        Bool.false_and, Bool.false_eq_true]
    rw [run, hstep, CodeState.run_cons]
    refine ih (r := ⟨(r.code.step c).1, r.long, r.skip, _⟩) hskip hlong fun q hquote hpiece => ?_
    refine hquotes q hquote ?_
    rw [List.cons_append]
    exact hpiece.trans (List.suffix_cons c _).isInfix

end Reading

/-- The colon of a header behind its condition: one outside literals and brackets that starts no
`:=` and belongs to no `lambda`. -/
def HeaderColon (t head : Text) : Prop :=
  ∃ rest, t = head ++ ':' :: rest ∧ rest.head? ≠ some '=' ∧
    (Reading.start.run none head (':' :: rest)).code = .start ∧
    (Reading.start.run none head (':' :: rest)).lambdas = 0

/-- Characters that make an augmented assignment with an equality sign. -/
def augments (c : Char) : Bool := ['+', '-', '*', '/', '%', '@', '&', '|', '^'].contains c

/-- An assignment in the condition that a text starts with: a lone equality sign outside literals,
brackets and augmented assignments, before the colon of the header. -/
structure ConditionSign (t head : Text) : Prop where
  lone : LoneSign t head
  plain : (lastOf none head).any augments = false
  outside : (Reading.start.run none head (t.drop head.length)).code = .start
  before : ∀ colon, HeaderColon t colon → head.length < colon.length

/-- Without three quotes in a row, a sign that is doubled belongs to the condition, unless it is
that of an augmented assignment or the first colon is that of `:=`. -/
lemma conditionSign_of_reached {t head : Text} (hlone : LoneSign t head) (hreached : Reached t head)
    (hquotes : ∀ q, isQuote q = true → ¬[q, q, q] <:+: t)
    (hshows : (∃ colon rest, TopColon t colon rest) → ShowsColon t)
    (hplain : (lastOf none head).any augments = false) : ConditionSign t head := by
  have hcode : ∀ front rest, t = front ++ rest →
      (Reading.start.run none front rest).code = CodeState.start.run front := by
    rintro front rest rfl
    exact Reading.run_code rfl rfl hquotes
  refine ⟨hlone, hplain, ?_, ?_⟩
  · obtain ⟨rest, rfl, hstart, -⟩ := hlone
    rw [List.drop_left, hcode _ _ rfl, hstart]
  · rintro colon ⟨rest, heq, -, hstart, -⟩
    rw [hcode _ _ heq] at hstart
    have htop : TopColon t colon rest := ⟨heq, hstart⟩
    exact hreached (hshows ⟨colon, rest, htop⟩) colon rest htop

/-- Exactly the signs compared are doubled. In code without three quotes in a row they are all
assignments in the condition but for those of augmented assignments, if the first colon outside
literals and brackets is not that of `:=`. In any code they are if and only if each other lone sign
stands behind that colon, and it is not that of `:=`. -/
theorem condition_signs_iff (code : Text) :
    Edited (doubling (Compared code)) [] code ((compareInCondition? code).getD code) ∧
    ((∀ q, isQuote q = true → ¬[q, q, q] <:+: code) → ∀ lead t head, code = lead ++ t →
      afterConditionWord? code = some t → ((∃ colon rest, TopColon t colon rest) → ShowsColon t) →
      Compared code (lead ++ head) →
        ConditionSign t head ∨ (lastOf none head).any augments = true) ∧
    ((∀ lead t head, code = lead ++ t → afterConditionWord? code = some t →
        Compared code (lead ++ head) → ConditionSign t head) ↔
      ∀ t, afterConditionWord? code = some t → ∀ head, LoneSign t head → ¬ConditionSign t head →
        ShowsColon t ∧ ∃ colon rest, TopColon t colon rest ∧ colon.length < head.length) := by
  refine ⟨doubled_compareInCondition code, ?_, ⟨?_, ?_⟩⟩
  · intro hquotes lead t head hcode ht hshows hsign
    obtain ⟨hlone, hreached⟩ := (compared_iff hcode ht).mp hsign
    have hquotes' : ∀ q, isQuote q = true → ¬[q, q, q] <:+: t := fun q hq hpiece =>
      hquotes q hq (hpiece.trans (hcode ▸ (List.suffix_append lead t).isInfix))
    cases hplain : (lastOf none head).any augments with
    | true => exact .inr rfl
    | false => exact .inl (conditionSign_of_reached hlone hreached hquotes' hshows hplain)
  · intro h t ht head hlone hnot
    obtain ⟨lead, hcode⟩ := afterConditionWord?_suffix ht
    by_contra hbehind
    refine hnot (h lead t head hcode ht ((compared_iff hcode ht).mpr ⟨hlone, ?_⟩))
    intro hshows colon rest htop
    by_contra hle
    have hne : colon.length ≠ head.length := by
      intro hlength
      obtain ⟨rest', heq, -⟩ := hlone
      have hsign := (List.append_inj (htop.1.symm.trans heq) hlength).2
      cases hsign
    exact hbehind ⟨hshows, colon, rest, htop, by omega⟩
  · intro h lead t head hcode ht hsign
    obtain ⟨hlone, hreached⟩ := (compared_iff hcode ht).mp hsign
    by_contra hnot
    obtain ⟨hshows, colon, rest, htop, hlt⟩ := h t ht head hlone hnot
    exact Nat.lt_asymm hlt (hreached hshows colon rest htop)

/-- Behind `:=` the statement on the line of a header is changed as well, and so are augmented
assignments and literals between three quotes. -/
theorem condition_signs_elsewhere :
    compareInCondition? "if x := f(): y = 3" = some "if x := f(): y == 3" ∧
    compareInCondition? "if x += 1:" = some "if x +== 1:" ∧
    compareInCondition? "if x == \"\"\"a\"b = c\"\"\":" = some "if x == \"\"\"a\"b == c\"\"\":" ∧
    Compared "if x := f(): y = 3" "if x := f(): y " ∧
    ¬ConditionSign "x := f(): y = 3" "x := f(): y " ∧ ¬ConditionSign "x += 1:" "x +" ∧
    ¬ConditionSign "x == \"\"\"a\"b = c\"\"\":" "x == \"\"\"a\"b " := by
  refine ⟨by decide, by decide, by decide, ?_, fun h => ?_, fun h => ?_, fun h => ?_⟩
  · refine ⟨"if ", "x := f(): y = 3", "x := f(): y ", rfl, by decide, rfl, ?_, fun h => ?_⟩
    · exact ⟨" 3", rfl, by decide, by decide, by decide⟩
    · rw [← hasHeaderColon_iff] at h
      exact absurd h (by decide)
  · have hlt := h.before "x := f()" ⟨" y = 3", rfl, by decide, by decide, by decide⟩
    exact absurd hlt (by decide)
  · exact absurd h.plain (by decide)
  · exact absurd h.outside (by decide)

end Marginalia.Repair
