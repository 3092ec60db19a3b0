import Marginalia.Proofs.Occurrences
import Marginalia.Proofs.Pieces
import Marginalia.Repair.Inputs

/-!
# Uses as a number

Whether a line uses a variable as a number is told by what stands around the occurrences of its
name: a sign of arithmetic, a sum with what does not look like text, an order with a digit, a range,
or a call of a function whose name tells that it calculates. The line is only searched as text, so
none of these has to be code.
-/

namespace Marginalia.Repair

open Text

/-- The order signs, with and without equality. -/
def orderSigns : List Text := ["<=", ">=", "<", ">"]

/-- What follows a name and makes it a number: a sign of arithmetic, a plus sign and what cannot
start text, or an order sign and a digit. -/
inductive ReckonedBehind : Text → Prop
  | sign {gap : Text} {c : Char} (rest : Text) (hgap : gap.isAllBlank = true)
      (hc : isArithmeticSign c = true) : ReckonedBehind (gap ++ c :: rest)
  | added {gap gap' : Text} {c : Char} (rest : Text) (hgap : gap.isAllBlank = true)
      (hgap' : gap'.isAllBlank = true) (hc : isTextStart c = false) :
      ReckonedBehind (gap ++ '+' :: (gap' ++ c :: rest))
  | order {gap sign gap' : Text} {c : Char} (rest : Text) (hgap : gap.isAllBlank = true)
      (hsign : sign ∈ orderSigns) (hgap' : gap'.isAllBlank = true)
      (hc : isDecimalDigit c = true) : ReckonedBehind (gap ++ (sign ++ (gap' ++ c :: rest)))

/-- What a name follows and is made a number by: a sign of arithmetic, a plus sign behind what
cannot end text, or a digit and an order sign. -/
inductive Reckoning : Text → Prop
  | sign {c : Char} {gap : Text} (hc : isArithmeticSign c = true) (hgap : gap.isAllBlank = true) :
      Reckoning (c :: gap)
  | added {c : Char} {gap gap' : Text} (hc : isNumberEnd c = true) (hgap : gap.isAllBlank = true)
      (hgap' : gap'.isAllBlank = true) : Reckoning (c :: (gap ++ '+' :: gap'))
  | order {c : Char} {gap sign gap' : Text} (hc : isDecimalDigit c = true)
      (hgap : gap.isAllBlank = true) (hsign : sign ∈ orderSigns)
      (hgap' : gap'.isAllBlank = true) : Reckoning (c :: (gap ++ (sign ++ gap')))

/-- Whether a text ends with something that makes the name behind it a number. -/
def ReckonedAhead (front : Text) : Prop := ∃ lead tail, front = lead ++ tail ∧ Reckoning tail

/-- Whether a text ends inside the parenthesis of a range. -/
def BoundsRange (front : Text) : Prop :=
  ∃ lead inside, front = lead ++ ("range(" ++ inside) ∧ isFresh (lastOf none lead) = true ∧
    ')' ∉ inside

/-- Whether a line has a call with such arguments of a function whose name tells that it
calculates. -/
def Calculation (line args : Text) : Prop :=
  ∃ lead function rest behind, line = lead ++ (function ++ '(' :: rest) ∧
    isFresh (lastOf none lead) = true ∧ IsName function ∧
    Naming.isArithmeticName function = true ∧ bracketed? ('(' :: rest) = some (args, behind)

/-- A use of a variable as a number in a line. -/
inductive NumberUse (name line : Text) : Prop
  | ahead {front after : Text} (h : OccursAt name line front after) (hahead : ReckonedAhead front)
  | behind {front after : Text} (h : OccursAt name line front after)
      (hbehind : ReckonedBehind after)
  | range {front after : Text} (h : OccursAt name line front after) (hrange : BoundsRange front)
  | argument {args front after : Text} (hcall : Calculation line args)
      (h : OccursAt name args front after)

/-- A conversion of a variable to a number in a line. -/
def Converted (name line : Text) : Prop :=
  ∃ front after, OccursAt name line front after ∧
    (∃ lead conversion gap, front = lead ++ (conversion ++ gap) ∧
      isFresh (lastOf none lead) = true ∧ (conversion = "int(" ∨ conversion = "float(") ∧
      gap.isAllBlank = true) ∧
    ∃ gap rest, after = gap ++ ')' :: rest ∧ gap.isAllBlank = true

variable {name line t front after : Text}

/-! ## Blanks and what follows them -/

lemma any_behind_blanks_iff {p : Char → Bool} (hp : ∀ c, p c = true → isBlank c = false) :
    (trimStart t).head?.any p = true ↔
      ∃ gap c rest, gap.isAllBlank = true ∧ p c = true ∧ t = gap ++ c :: rest := by
  constructor
  · intro h
    cases hstart : trimStart t with
    | nil =>
      rw [hstart] at h
      cases h
    | cons c rest =>
      rw [hstart] at h
      obtain ⟨-, gap, hgap, rfl⟩ := trimStart_eq_cons_iff.mp hstart
      exact ⟨gap, c, rest, hgap, h, rfl⟩
  · rintro ⟨gap, c, rest, hgap, hc, rfl⟩
    rw [trimStart_eq_cons_iff.mpr ⟨hp c hc, gap, hgap, rfl⟩]
    exact hc

lemma any_iff {α : Type} {o : Option α} {p : α → Bool} :
    o.any p = true ↔ ∃ a, o = some a ∧ p a = true := by
  cases o <;> simp

lemma getD_map_iff {α : Type} {o : Option α} {p : α → Bool} :
    (o.map p).getD false = true ↔ ∃ a, o = some a ∧ p a = true := by
  cases o <;> simp

lemma not_blank_of_arithmeticSign {c : Char} (hc : isArithmeticSign c = true) :
    isBlank c = false := by
  simp only [isArithmeticSign, Bool.or_eq_true, beq_iff_eq] at hc
  obtain ((rfl | rfl) | rfl) | rfl := hc <;> decide

lemma not_blank_of_textStart {c : Char} (hc : (!isTextStart c) = true) : isBlank c = false := by
  simp only [isTextStart, Bool.not_eq_true', Bool.or_eq_false_iff] at hc
  exact hc.1.1.1

lemma not_blank_of_digit {c : Char} (hc : isDecimalDigit c = true) : isBlank c = false := by
  have htable : ∀ n ∈ blankPoints, isDecimalDigit (Char.ofNat n) = false := by decide +kernel
  rw [Bool.eq_false_iff]
  intro hblank
  have hnone := htable c.toNat (mem_blankPoints hblank)
  rw [Char.ofNat_toNat, hc] at hnone
  cases hnone

/-! ## What follows a name -/

lemma exists_of_afterOrder? {rest : Text} (h : afterOrder? t = some rest) :
    ∃ sign ∈ orderSigns, t = sign ++ rest := by
  have mem : ∀ sign : Text, sign ∈ orderSigns → t = sign ++ rest →
      ∃ sign ∈ orderSigns, t = sign ++ rest := fun sign hmem ht => ⟨sign, hmem, ht⟩
  rw [afterOrder?.eq_def] at h
  split at h
  · exact mem "<=" (by decide) (Option.some.inj h ▸ rfl)
  · exact mem ">=" (by decide) (Option.some.inj h ▸ rfl)
  · exact mem "<" (by decide) (Option.some.inj h ▸ rfl)
  · exact mem ">" (by decide) (Option.some.inj h ▸ rfl)
  · cases h

lemma afterOrder?_append {sign rest : Text} (hsign : sign ∈ orderSigns)
    (hrest : rest.head? ≠ some '=') : afterOrder? (sign ++ rest) = some rest := by
  simp only [orderSigns, List.mem_cons, List.not_mem_nil, or_false] at hsign
  obtain rfl | rfl | rfl | rfl := hsign
  · rfl
  · rfl
  · refine afterOrder?.eq_3 rest ?_
    rintro more rfl
    exact hrest rfl
  · refine afterOrder?.eq_4 rest ?_
    rintro more rfl
    exact hrest rfl

/-- What an order sign starts and ends with. -/
lemma orderSign_eq {sign : Text} (hsign : sign ∈ orderSigns) :
    (∃ c tail, sign = c :: tail ∧ (c = '<' ∨ c = '>')) ∧
      ∃ head c, sign = head ++ [c] ∧ (c = '=' ∨ c = '<' ∨ c = '>') := by
  simp only [orderSigns, List.mem_cons, List.not_mem_nil, or_false] at hsign
  obtain rfl | rfl | rfl | rfl := hsign
  · exact ⟨⟨'<', ['='], rfl, .inl rfl⟩, ['<'], '=', rfl, .inl rfl⟩
  · exact ⟨⟨'>', ['='], rfl, .inr rfl⟩, ['>'], '=', rfl, .inl rfl⟩
  · exact ⟨⟨'<', [], rfl, .inl rfl⟩, [], '<', rfl, .inr (.inl rfl)⟩
  · exact ⟨⟨'>', [], rfl, .inr rfl⟩, [], '>', rfl, .inr (.inr rfl)⟩

lemma numberBefore_plus {rest : Text} (h : trimStart after = '+' :: rest) :
    numberBefore after = (trimStart rest).head?.any (! isTextStart ·) := by
  rw [numberBefore, h]
  cases rest with
  | nil => rfl
  | cons c rest =>
    by_cases hc : c = '='
    · subst hc
      rfl
    · simp [hc]

lemma numberBefore_cons {c : Char} {rest : Text} (hc : c ≠ '+')
    (h : trimStart after = c :: rest) : numberBefore after = (isArithmeticSign c || ((afterOrder?
      (c :: rest)).map fun t => (trimStart t).head?.any isDecimalDigit).getD false) := by
  rw [numberBefore, h]
  simp [hc]

lemma numberBefore_iff : numberBefore after = true ↔ ReckonedBehind after := by
  constructor
  · intro h
    cases hstart : trimStart after with
    | nil =>
      rw [numberBefore, hstart] at h
      cases h
    | cons c rest =>
      obtain ⟨-, gap, hgap, rfl⟩ := trimStart_eq_cons_iff.mp hstart
      by_cases hc : c = '+'
      · subst hc
        rw [numberBefore_plus hstart] at h
        obtain ⟨gap', d, more, hgap', hd, rfl⟩ :=
          (any_behind_blanks_iff fun _ => not_blank_of_textStart).mp h
        exact .added more hgap hgap' (by simpa using hd)
      · rw [numberBefore_cons hc hstart, Bool.or_eq_true] at h
        obtain h | h := h
        · exact .sign rest hgap h
        · obtain ⟨more, hmore, hdigit⟩ := getD_map_iff.mp h
          obtain ⟨sign, hsign, hrest⟩ := exists_of_afterOrder? hmore
          obtain ⟨gap', d, more, hgap', hd, rfl⟩ :=
            (any_behind_blanks_iff fun _ => not_blank_of_digit).mp hdigit
          rw [hrest]
          exact .order more hgap hsign hgap' hd
  · intro h
    cases h with
    | sign rest hgap hc =>
      have hstart := trimStart_blanks_cons hgap (not_blank_of_arithmeticSign hc) rest
      rw [numberBefore_cons (by rintro rfl; exact absurd hc (by decide)) hstart, hc]
      rfl
    | added rest hgap hgap' hc =>
      rw [numberBefore_plus (trimStart_blanks_cons hgap (by decide) _)]
      exact (any_behind_blanks_iff fun _ => not_blank_of_textStart).mpr
        ⟨_, _, rest, hgap', by simpa using hc, rfl⟩
    | @order gap sign gap' c rest hgap hsign hgap' hc =>
      obtain ⟨⟨d, tail, rfl, hd⟩, -⟩ := orderSign_eq hsign
      have hblank : isBlank d = false := by obtain rfl | rfl := hd <;> decide
      have hplus : d ≠ '+' := by obtain rfl | rfl := hd <;> decide
      have hequals : (gap' ++ c :: rest).head? ≠ some '=' :=
        head?_blanks_cons hgap' (by decide) (by rintro rfl; exact absurd hc (by decide)) rest
      rw [List.cons_append, numberBefore_cons hplus (trimStart_blanks_cons hgap hblank _),
        ← List.cons_append, afterOrder?_append hsign hequals, Bool.or_eq_true]
      exact .inr ((any_behind_blanks_iff fun _ => not_blank_of_digit).mpr
        ⟨gap', c, rest, hgap', hc, rfl⟩)

/-! ## What a name follows -/

lemma leadsTo_iff (hname : IsWord name) : leadsTo name t = true ↔
    ∃ gap after, gap.isAllBlank = true ∧ continuesWord after = false ∧
      t = gap ++ (name ++ after) := by
  obtain ⟨c, tail, rfl, hc, -⟩ := hname.eq_cons
  rw [leadsTo, getD_map_iff]
  constructor
  · rintro ⟨after, hafter, hends⟩
    obtain ⟨gap, hgap, rfl⟩ := (afterBlanksAnd?_cons_iff hc tail).mp hafter
    exact ⟨gap, after, hgap, by simpa using hends, rfl⟩
  · rintro ⟨gap, after, hgap, hends, rfl⟩
    exact ⟨after, (afterBlanksAnd?_cons_iff hc tail).mpr ⟨gap, hgap, rfl⟩, by simpa using hends⟩

lemma numberAfter_cons_iff {c : Char} {rest : Text} : numberAfter name (c :: rest) = true ↔
    (isArithmeticSign c = true ∧ leadsTo name rest = true) ∨
    (isNumberEnd c = true ∧
      ∃ behind, afterBlanksAnd? "+" rest = some behind ∧ leadsTo name behind = true) ∨
    (isDecimalDigit c = true ∧
      ∃ behind, afterOrder? (trimStart rest) = some behind ∧ leadsTo name behind = true) := by
  rw [numberAfter]
  simp only [Bool.or_eq_true, Bool.and_eq_true, getD_map_iff, or_assoc]

lemma numberAfter_iff (hname : IsWord name) : numberAfter name t = true ↔
    ∃ tail after, Reckoning tail ∧ continuesWord after = false ∧ t = tail ++ (name ++ after) := by
  constructor
  · intro h
    cases t with
    | nil => cases h
    | cons c rest =>
      obtain ⟨hc, hlead⟩ | ⟨hc, behind, hplus, hlead⟩ | ⟨hc, behind, horder, hlead⟩ :=
        numberAfter_cons_iff.mp h
      · obtain ⟨gap, after, hgap, hends, rfl⟩ := (leadsTo_iff hname).mp hlead
        exact ⟨c :: gap, after, .sign hc hgap, hends, rfl⟩
      · obtain ⟨gap', after, hgap', hends, rfl⟩ := (leadsTo_iff hname).mp hlead
        obtain ⟨gap, hgap, rfl⟩ := (afterBlanksAnd?_cons_iff (c := '+') (by decide) []).mp hplus
        exact ⟨c :: (gap ++ '+' :: gap'), after, .added hc hgap hgap', hends, by simp⟩
      · obtain ⟨gap', after, hgap', hends, rfl⟩ := (leadsTo_iff hname).mp hlead
        obtain ⟨sign, hsign, hstart⟩ := exists_of_afterOrder? horder
        refine ⟨c :: (indentation rest ++ (sign ++ gap')), after,
          .order hc (isAllBlank_indentation rest) hsign hgap', hends, ?_⟩
        conv_lhs => rw [trimStart_append rest, hstart]
        simp
  · rintro ⟨tail, after, htail, hends, rfl⟩
    have hlead (gap : Text) (hgap : gap.isAllBlank = true) :
        leadsTo name (gap ++ (name ++ after)) = true :=
      (leadsTo_iff hname).mpr ⟨gap, after, hgap, hends, rfl⟩
    cases htail with
    | @sign c gap hc hgap => exact numberAfter_cons_iff.mpr (.inl ⟨hc, hlead gap hgap⟩)
    | @added c gap gap' hc hgap hgap' =>
      have hplus : afterBlanksAnd? "+" (gap ++ '+' :: gap' ++ (name ++ after)) =
          some (gap' ++ (name ++ after)) :=
        (afterBlanksAnd?_cons_iff (c := '+') (by decide) []).mpr ⟨gap, hgap, by simp⟩
      exact numberAfter_cons_iff.mpr (.inr (.inl ⟨hc, _, hplus, hlead gap' hgap'⟩))
    | @order c gap sign gap' hc hgap hsign hgap' =>
      obtain ⟨⟨d, tail, rfl, hd⟩, -⟩ := orderSign_eq hsign
      obtain ⟨e, word, hword, -, he⟩ := hname.eq_cons
      have hblank : isBlank d = false := by obtain rfl | rfl := hd <;> decide
      have hequals : (gap' ++ (name ++ after)).head? ≠ some '=' := by
        rw [hword, List.cons_append]
        exact head?_blanks_cons hgap' (by decide) (by rintro rfl; exact absurd he (by decide)) _
      have horder : afterOrder? (trimStart (gap ++ (d :: tail ++ gap') ++ (name ++ after))) =
          some (gap' ++ (name ++ after)) := by
        rw [List.append_assoc, List.append_assoc, List.cons_append,
          trimStart_blanks_cons hgap hblank, ← List.cons_append, afterOrder?_append hsign hequals]
      exact numberAfter_cons_iff.mpr (.inr (.inr ⟨hc, _, horder, hlead gap' hgap'⟩))

/-- Behind what makes a name a number, the name starts as a whole. -/
lemma Reckoning.ends {tail : Text} (h : Reckoning tail) :
    ∃ (lead : Text) (c : Char) (gap : Text), tail = lead ++ c :: gap ∧ isWordChar c = false ∧
      gap.isAllBlank = true := by
  cases h with
  | @sign c gap hc hgap =>
    simp only [isArithmeticSign, Bool.or_eq_true, beq_iff_eq] at hc
    exact ⟨[], c, gap, rfl, by obtain ((rfl | rfl) | rfl) | rfl := hc <;> decide, hgap⟩
  | @added c gap gap' hc hgap hgap' => exact ⟨c :: gap, '+', gap', rfl, by decide, hgap'⟩
  | @order c gap sign gap' hc hgap hsign hgap' =>
    obtain ⟨-, head, d, rfl, hd⟩ := orderSign_eq hsign
    exact ⟨c :: (gap ++ head), d, gap', by simp, by obtain rfl | rfl | rfl := hd <;> decide, hgap'⟩

/-! ## Lines and their pieces -/

lemma ReckonedBehind.ends (h : ReckonedBehind after) : continuesWord after = false := by
  cases h with
  | sign rest hgap hc =>
    simp only [isArithmeticSign, Bool.or_eq_true, beq_iff_eq] at hc
    refine continuesWord_blanks_cons hgap ?_ rest
    obtain ((rfl | rfl) | rfl) | rfl := hc <;> decide
  | added rest hgap hgap' hc => exact continuesWord_blanks_cons hgap (by decide) _
  | order rest hgap hsign hgap' hc =>
    obtain ⟨⟨d, tail, rfl, hd⟩, -⟩ := orderSign_eq hsign
    exact continuesWord_blanks_cons hgap (by obtain rfl | rfl := hd <;> decide) _

lemma isFresh_lastOf {prev : Option Char} (hprev : isFresh prev = true) (t : Text) :
    isFresh (lastOf prev t) = isFresh (lastOf none t) := by
  rw [lastOf, lastOf]
  cases t.getLast? with
  | none => exact hprev
  | some c => rfl

lemma continuesWord_append {more : Text} (h : continuesWord after = false)
    (hmore : continuesWord more = false) : continuesWord (after ++ more) = false := by
  cases after with
  | nil => exact hmore
  | cons c after => exact h

lemma continuesWord_takeWhile (p : Char → Bool) (h : continuesWord after = false) :
    continuesWord (after.takeWhile p) = false := by
  cases after with
  | nil => rfl
  | cons c after =>
    rw [List.takeWhile_cons]
    split
    · exact h
    · rfl

lemma rangeOver_iff (hname : IsWord name) : rangeOver name t = true ↔
    ∃ inside after, t = "range(" ++ inside ++ (name ++ after) ∧ ')' ∉ inside ∧
      isFresh (lastOf none inside) = true ∧ continuesWord after = false := by
  simp only [rangeOver, getD_map_iff, hasWord_iff hname, after?_eq_some_iff]
  constructor
  · rintro ⟨rest, rfl, inside, after, h⟩
    refine ⟨inside, after ++ rest.dropWhile (· != ')'), ?_, fun hmem => ?_, h.fresh, ?_⟩
    · have hrest : rest = inside ++ (name ++ after) ++ rest.dropWhile (· != ')') := by
        rw [← h.split, List.takeWhile_append_dropWhile]
      conv_lhs => rw [hrest]
      simp
    · have hparen : ')' ∈ rest.takeWhile (· != ')') := by
        rw [h.split]
        exact List.mem_append_left _ hmem
      simpa using List.mem_takeWhile_imp hparen
    · refine continuesWord_append h.ends ?_
      have hhead := List.head?_dropWhile_not (· != ')') rest
      rw [continuesWord]
      cases hstop : (rest.dropWhile (· != ')')).head? with
      | none => rfl
      | some c =>
        rw [hstop] at hhead
        obtain rfl : c = ')' := by simpa using hhead
        decide
  · rintro ⟨inside, after, rfl, hinside, hfresh, hends⟩
    refine ⟨inside ++ (name ++ after), by simp, inside, after.takeWhile (· != ')'), ?_, hfresh,
      continuesWord_takeWhile _ hends⟩
    have hstop : ∀ piece : Text, ')' ∉ piece → ∀ c ∈ piece, (c != ')') = true := by
      intro piece hpiece c hc
      rw [bne_iff_ne]
      rintro rfl
      exact hpiece hc
    rw [List.takeWhile_append_of_pos (hstop inside hinside),
      List.takeWhile_append_of_pos (hstop name (hname.not_mem (by decide)))]

lemma firstGroup?_call {function : Text} (hfunction : IsName function) (rest : Text) :
    firstGroup? (function ++ '(' :: rest) = (bracketed? ('(' :: rest)).map (·.1) := by
  have hsplit : splitAtChar? '(' (function ++ '(' :: rest) = some (function, '(' :: rest) :=
    splitAtChar?_eq_some_iff.mpr ⟨hfunction.isWord.not_mem (by decide), rest, rfl, rfl⟩
  rw [firstGroup?, hsplit, Option.bind_some]

lemma calculates_iff (hname : IsWord name) : calculates name t = true ↔
    ∃ function rest args behind, t = function ++ '(' :: rest ∧ IsName function ∧
      Naming.isArithmeticName function = true ∧ bracketed? ('(' :: rest) = some (args, behind) ∧
      ∃ front after, OccursAt name args front after := by
  constructor
  · intro h
    rw [calculates] at h
    split at h
    · next function rest hsplit =>
      obtain ⟨hfunction, -, rfl⟩ := name?_eq_some_iff.mp hsplit
      simp only [Bool.and_eq_true] at h
      obtain ⟨⟨hparen, harithmetic⟩, hword⟩ := h
      obtain ⟨rest, rfl⟩ := (startsWith_iff _ _).mp hparen
      rw [show function ++ ("(" ++ rest) = function ++ '(' :: rest from rfl,
        firstGroup?_call hfunction] at hword
      cases hargs : bracketed? ('(' :: rest) with
      | none =>
        rw [hargs] at hword
        cases hword
      | some group =>
        rw [hargs] at hword
        exact ⟨function, rest, group.1, group.2, rfl, hfunction, harithmetic, hargs,
          (hasWord_iff hname).mp hword⟩
    · cases h
  · rintro ⟨function, rest, args, behind, rfl, hfunction, harithmetic, hargs, h⟩
    have hword := (hasWord_iff hname).mpr h
    rw [calculates, hfunction.name?_append, firstGroup?_call hfunction, hargs]
    simp only [Bool.and_eq_true]
    exact ⟨⟨rfl, harithmetic⟩, hword⟩

lemma convertsNumber_iff (hname : IsWord name) : convertsNumber name t = true ↔
    ∃ conversion gap gap' rest, t = conversion ++ (gap ++ (name ++ (gap' ++ ')' :: rest))) ∧
      (conversion = "int(" ∨ conversion = "float(") ∧ gap.isAllBlank = true ∧
      gap'.isAllBlank = true := by
  obtain ⟨c, tail, rfl, hc, -⟩ := hname.eq_cons
  have hclose : ∀ rest : Text, (trimStart rest).startsWith ")" = true ↔
      ∃ gap more : Text, gap.isAllBlank = true ∧ rest = gap ++ ')' :: more := by
    intro rest
    rw [startsWith_iff]
    constructor
    · rintro ⟨more, hmore⟩
      obtain ⟨-, gap, hgap, rfl⟩ := trimStart_eq_cons_iff.mp hmore
      exact ⟨gap, more, hgap, rfl⟩
    · rintro ⟨gap, more, hgap, rfl⟩
      exact ⟨more, trimStart_blanks_cons hgap (by decide) more⟩
  have hopen : ∀ inside : Text, (after? "int(" t).or (after? "float(" t) = some inside ↔
      ∃ conversion : Text, t = conversion ++ inside ∧
        (conversion = "int(" ∨ conversion = "float(") := by
    intro inside
    rw [Option.or_eq_some_iff, after?_eq_some_iff, after?_eq_some_iff]
    constructor
    · rintro (ht | ⟨-, ht⟩)
      · exact ⟨_, ht, .inl rfl⟩
      · exact ⟨_, ht, .inr rfl⟩
    · rintro ⟨conversion, rfl, rfl | rfl⟩
      · exact .inl rfl
      · exact .inr ⟨rfl, rfl⟩
  rw [convertsNumber, any_iff]
  constructor
  · rintro ⟨rest, hrest, hstart⟩
    obtain ⟨inside, hinside, hafter⟩ := Option.bind_eq_some_iff.mp hrest
    obtain ⟨conversion, rfl, hconversion⟩ := (hopen inside).mp hinside
    obtain ⟨gap, hgap, rfl⟩ := (afterBlanksAnd?_cons_iff hc tail).mp hafter
    obtain ⟨gap', more, hgap', rfl⟩ := (hclose rest).mp hstart
    exact ⟨conversion, gap, gap', more, rfl, hconversion, hgap, hgap'⟩
  · rintro ⟨conversion, gap, gap', more, ht, hconversion, hgap, hgap'⟩
    refine ⟨gap' ++ ')' :: more, Option.bind_eq_some_iff.mpr ⟨_, (hopen _).mpr
      ⟨conversion, ht, hconversion⟩, ?_⟩, (hclose _).mpr ⟨gap', more, hgap', rfl⟩⟩
    exact (afterBlanksAnd?_cons_iff hc tail).mpr ⟨gap, hgap, rfl⟩

/-! ## Lines -/

/-- Inside the parenthesis of a range a word starts as a whole where it does in the piece. -/
lemma isFresh_range (lead inside : Text) :
    isFresh (lastOf none (lead ++ ("range(" ++ inside))) = isFresh (lastOf none inside) := by
  rw [lastOf_append, lastOf_append]
  exact isFresh_lastOf (by rfl) inside

/-- A line uses a variable as a number where one of the searches finds it. -/
theorem usesNumber_iff (hname : IsWord name) :
    usesNumber name line = true ↔ NumberUse name line := by
  rw [usesNumber, anyPlace_iff]
  simp only [Bool.or_eq_true, Bool.and_eq_true]
  constructor
  · rintro ⟨lead, rest, rfl, -, hahead | ⟨hfresh, (hbehind | hrange) | hcall⟩⟩
    · obtain ⟨tail, after, htail, hends, rfl⟩ := (numberAfter_iff hname).mp hahead
      obtain ⟨more, c, gap, htail', hc, hgap⟩ := htail.ends
      have hfresh : isFresh (lastOf none (lead ++ tail)) = true := by
        rw [htail', ← List.append_assoc]
        exact isFresh_behind hc hgap none (lead ++ more)
      exact .ahead ⟨(List.append_assoc ..).symm, hfresh, hends⟩ ⟨lead, tail, rfl, htail⟩
    · obtain ⟨after, hafter, hnumber⟩ := any_iff.mp hbehind
      have hnumber := numberBefore_iff.mp hnumber
      exact .behind ⟨by rw [(after?_eq_some_iff _ _ _).mp hafter], hfresh, hnumber.ends⟩ hnumber
    · obtain ⟨inside, after, rfl, hinside, hstart, hends⟩ := (rangeOver_iff hname).mp hrange
      have hocc : OccursAt name (lead ++ ("range(" ++ inside ++ (name ++ after)))
          (lead ++ ("range(" ++ inside)) after :=
        ⟨by simp, by rw [isFresh_range, hstart], hends⟩
      exact .range hocc ⟨lead, inside, rfl, hfresh, hinside⟩
    · obtain ⟨function, rest, args, behind, rfl, hfunction, harithmetic, hargs, front, after, h⟩ :=
        (calculates_iff hname).mp hcall
      exact .argument ⟨lead, function, rest, behind, rfl, hfresh, hfunction, harithmetic, hargs⟩ h
  · intro h
    have hne : ∀ after : Text, name ++ after ≠ [] := fun after hnil =>
      hname.1 (List.append_eq_nil_iff.mp hnil).1
    cases h with
    | @ahead front after h hahead =>
      obtain ⟨lead, tail, rfl, htail⟩ := hahead
      refine ⟨lead, tail ++ (name ++ after), by simp [h.split], by simp [hne], .inl ?_⟩
      exact (numberAfter_iff hname).mpr ⟨tail, after, htail, h.ends, rfl⟩
    | @behind front after h hbehind =>
      refine ⟨front, name ++ after, h.split, hne after, .inr ⟨h.fresh, .inl (.inl ?_)⟩⟩
      exact any_iff.mpr ⟨after, (after?_eq_some_iff _ _ _).mpr rfl, numberBefore_iff.mpr hbehind⟩
    | @range front after h hrange =>
      obtain ⟨lead, inside, rfl, hfresh, hinside⟩ := hrange
      refine ⟨lead, "range(" ++ inside ++ (name ++ after), by simp [h.split], by simp,
        .inr ⟨hfresh, .inl (.inr ?_)⟩⟩
      have hstart := h.fresh
      rw [isFresh_range] at hstart
      exact (rangeOver_iff hname).mpr ⟨inside, after, rfl, hinside, hstart, h.ends⟩
    | @argument args front after hcall h =>
      obtain ⟨lead, function, rest, behind, rfl, hfresh, hfunction, harithmetic, hargs⟩ := hcall
      refine ⟨lead, function ++ '(' :: rest, rfl, by simp, .inr ⟨hfresh, .inr ?_⟩⟩
      exact (calculates_iff hname).mpr
        ⟨function, rest, args, behind, rfl, hfunction, harithmetic, hargs, front, after, h⟩

lemma converts_iff (hname : IsWord name) :
    anyPlace (fun prev t => isFresh prev && convertsNumber name t) none line = true ↔
      Converted name line := by
  rw [anyPlace_iff]
  simp only [Bool.and_eq_true, convertsNumber_iff hname]
  constructor
  · rintro ⟨lead, rest, rfl, -, hfresh, conversion, gap, gap', more, rfl, hconversion, hgap, hgap'⟩
    refine ⟨lead ++ (conversion ++ gap), gap' ++ ')' :: more, ⟨by simp, ?_, ?_⟩,
      ⟨lead, conversion, gap, rfl, hfresh, hconversion, hgap⟩, gap', more, rfl, hgap'⟩
    · obtain rfl | rfl := hconversion
      · simpa using isFresh_behind (c := '(') (by decide) hgap none (lead ++ "int")
      · simpa using isFresh_behind (c := '(') (by decide) hgap none (lead ++ "float")
    · exact continuesWord_blanks_cons hgap' (by decide) more
  · rintro ⟨front, after, h, ⟨lead, conversion, gap, rfl, hfresh, hconversion, hgap⟩, gap', more,
      rfl, hgap'⟩
    refine ⟨lead, conversion ++ (gap ++ (name ++ (gap' ++ ')' :: more))), by simp [h.split],
      by simp, hfresh, conversion, gap, gap', more, rfl, hconversion, hgap, hgap'⟩

/-- Some lines use a variable as a number if one of them does, and none converts the variable. -/
theorem usedAsNumber_iff (hname : IsWord name) {lines : List Text} :
    usedAsNumber name lines = true ↔
      (∀ line ∈ lines, ¬Converted name line) ∧ ∃ line ∈ lines, NumberUse name line := by
  simp only [usedAsNumber, Bool.and_eq_true, Bool.not_eq_true', List.any_eq_false,
    List.any_eq_true, converts_iff hname, usesNumber_iff hname]

end Marginalia.Repair
