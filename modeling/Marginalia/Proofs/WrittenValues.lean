import Marginalia.Proofs.WrittenStrings
import Mathlib.Data.List.TakeDrop

/-!
# Values that are written and read

A value that is written with one item or member a line is read back as it was, whatever follows it,
as long as that does not go on with a number. So a document is read back as the value it was written
for.
-/

namespace Marginalia

/-! ## Digits -/

namespace Text

lemma head?_ofNat {n : Nat} (h : 0 < n) : (ofNat n).head? ≠ some '0' := by
  induction n using Nat.strongRecOn with
  | ind n ih =>
    rw [ofNat, Nat.toDigits_eq_if (by decide)]
    split
    · next hlt =>
      have hdigit : ∀ m < 10, 0 < m → m.digitChar ≠ '0' := by decide
      intro hhead
      exact hdigit n hlt h (Option.some.inj hhead)
    · next hge =>
      rw [List.head?_append_of_ne_nil _ Nat.toDigits_ne_nil]
      exact ih (n / 10) (by omega) (by omega)

lemma ofNat_ne_nil (n : Nat) : ofNat n ≠ [] := Nat.toDigits_ne_nil

lemma isAsciiDigit_of_mem_ofNat {n : Nat} {c : Char} (h : c ∈ ofNat n) : isAsciiDigit c = true :=
  Nat.isDigit_of_mem_toDigits (by decide) (by decide) h

end Text

namespace Json

open Text

lemma natOfDigits_ofNat (n : Nat) : natOfDigits (Text.ofNat n) = n := Nat.ofDigitChars_ten_toDigits

/-! ## Blanks -/

lemma skipBlanks_append {blanks : Text} (h : blanks.all isJsonBlank = true) (t : Text) :
    skipBlanks (blanks ++ t) = skipBlanks t :=
  List.dropWhile_append_of_pos (List.all_eq_true.mp h)

lemma skipBlanks_cons {c : Char} (h : isJsonBlank c = false) (t : Text) :
    skipBlanks (c :: t) = c :: t :=
  List.dropWhile_cons_of_neg (Bool.eq_false_iff.mp h)

lemma all_newline (level : Nat) : (newline level).all isJsonBlank = true := by
  rw [newline, List.all_cons, List.all_replicate]
  cases 2 * level <;> rfl

lemma readValue_blanks {blanks : Text} (h : blanks.all isJsonBlank = true) (fuel : Nat) (t : Text) :
    readValue fuel (blanks ++ t) = readValue fuel t := by
  cases fuel with
  | zero => rfl
  | succ fuel => simp only [readValue, skipBlanks_append h]

/-! ## Numbers -/

/-- A text with which a number does not go on. -/
def EndsNumber (t : Text) : Prop :=
  ∀ c ∈ t.head?, isAsciiDigit c = false ∧ c ≠ '.' ∧ c ≠ 'e' ∧ c ≠ 'E'

lemma readDigits_append {digits rest : Text} (hne : digits ≠ [])
    (hdigits : ∀ c ∈ digits, isAsciiDigit c = true) (hrest : EndsNumber rest) :
    readDigits (digits ++ rest) = some (digits, rest) := by
  have hstop : rest.takeWhile isAsciiDigit = [] ∧ rest.dropWhile isAsciiDigit = rest := by
    cases rest with
    | nil => exact ⟨rfl, rfl⟩
    | cons c rest =>
      have hc : isAsciiDigit c = false := (hrest c rfl).1
      simp [hc]
  rw [readDigits, List.span_eq_takeWhile_dropWhile, List.takeWhile_append_of_pos hdigits,
    List.dropWhile_append_of_pos hdigits, hstop.1, hstop.2, List.append_nil]
  cases digits with
  | nil => exact absurd rfl hne
  | cons c digits => rfl

lemma readFraction_none {rest : Text} (h : EndsNumber rest) :
    readFraction rest = some ([], rest) := by
  rw [readFraction]
  rintro rest' rfl
  exact (h '.' rfl).2.1 rfl

lemma readExponent_none {rest : Text} (h : EndsNumber rest) :
    readExponent rest = some ([], rest) := by
  cases rest with
  | nil => rfl
  | cons c rest =>
    obtain ⟨-, -, hsmall, hcapital⟩ := h c rfl
    simp [readExponent, hsmall, hcapital]

/-- A number is read back as it was written. -/
lemma readNumber_ofNat (n : Nat) {rest : Text} (h : EndsNumber rest) :
    readNumber (Text.ofNat n ++ rest) = some (Text.ofNat n, rest) := by
  have hzero : ((Text.ofNat n).length > 1 && (Text.ofNat n).head? == some '0') = false := by
    rcases Nat.eq_zero_or_pos n with rfl | hpos
    · rfl
    · simp [head?_ofNat hpos]
  have hmagnitude : readMagnitude (Text.ofNat n ++ rest) = some (Text.ofNat n, rest) := by
    rw [readMagnitude, readDigits_append (ofNat_ne_nil n) (fun _ => isAsciiDigit_of_mem_ofNat) h]
    simp only [Option.bind_eq_bind, Option.bind_some, hzero, readFraction_none h,
      readExponent_none h]
    simp
  rw [readNumber, hmagnitude]
  intro rest' heq
  cases hn : Text.ofNat n with
  | nil => exact ofNat_ne_nil n hn
  | cons c digits =>
    have hc : isAsciiDigit c = true :=
      isAsciiDigit_of_mem_ofNat (n := n) (by rw [hn]; exact List.mem_cons_self)
    rw [hn] at heq
    obtain rfl : c = '-' := (List.cons.inj heq).1
    exact absurd hc (by decide)

lemma readScalar_ofNat (n : Nat) {rest : Text} (h : EndsNumber rest) :
    readScalar (Text.ofNat n ++ rest) = (number (Text.ofNat n), some rest) := by
  have hword : ∀ (c : Char) (word : Text), isAsciiDigit c = false →
      after? (c :: word) (Text.ofNat n ++ rest) = none := by
    intro c word hc
    cases hn : Text.ofNat n with
    | nil => exact absurd hn (ofNat_ne_nil n)
    | cons d digits =>
      have hd : isAsciiDigit d = true :=
        isAsciiDigit_of_mem_ofNat (n := n) (by rw [hn]; exact List.mem_cons_self)
      have hne : c ≠ d := by
        rintro rfl
        rw [hc] at hd
        cases hd
      rw [List.cons_append, after?, if_neg hne]
  have hnull : after? "null" (Text.ofNat n ++ rest) = none := hword 'n' _ (by decide)
  have htrue : after? "true" (Text.ofNat n ++ rest) = none := hword 't' _ (by decide)
  have hfalse : after? "false" (Text.ofNat n ++ rest) = none := hword 'f' _ (by decide)
  rw [readScalar, hnull, htrue, hfalse, readNumber_ofNat n h]

/-! ## Values -/

/-- Whether a value is one that can be written: its numbers are natural, and it was not made by
reading something else than JSON. -/
def isPlain : Json → Bool := everywhere fun
  | halved | misnamed _ | broken => false
  | number literal => literal == Text.ofNat (natOfDigits literal)
  | _ => true

lemma everywhereIn_iff (p : Json → Bool) (items : List Json) :
    everywhereIn p items = true ↔ ∀ j ∈ items, everywhere p j = true := by
  induction items with
  | nil => simp [everywhereIn]
  | cons item items ih => simp [everywhereIn, ih]

lemma everywhereUnder_iff (p : Json → Bool) (members : List (Text × Json)) :
    everywhereUnder p members = true ↔ ∀ m ∈ members, everywhere p m.2 = true := by
  induction members with
  | nil => simp [everywhereUnder]
  | cons m members ih => simp [everywhereUnder, ih]

lemma isPlain_number_iff (literal : Text) :
    (number literal).isPlain = true ↔ literal = Text.ofNat (natOfDigits literal) := by
  simp [isPlain, everywhere]

lemma isPlain_array_iff (items : List Json) :
    (array items).isPlain = true ↔ ∀ j ∈ items, j.isPlain = true := by
  rw [isPlain, everywhere, Bool.true_and, everywhereIn_iff]

lemma isPlain_object_iff (members : List (Text × Json)) :
    (object members).isPlain = true ↔ ∀ m ∈ members, m.2.isPlain = true := by
  rw [isPlain, everywhere, Bool.true_and, everywhereUnder_iff]

/-- A value that is read back from what is written for it. Every character that is written pays for
two of the values that are still to come. -/
def ReadBack (j : Json) : Prop :=
  ∀ level fuel rest, 2 * (pretty level j).length < fuel → EndsNumber rest →
    readValue fuel (pretty level j ++ rest) = (j, some rest)

/-- What is written starts neither with a blank nor with the end of an array. -/
lemma exists_cons_of_pretty {j : Json} (h : j.isPlain = true) (level : Nat) :
    ∃ c t, pretty level j = c :: t ∧ isJsonBlank c = false ∧ c ≠ ']' := by
  cases j with
  | null => exact ⟨_, _, rfl, by decide, by decide⟩
  | bool b => cases b <;> exact ⟨_, _, rfl, by decide, by decide⟩
  | number literal =>
    have hliteral : literal = Text.ofNat (natOfDigits literal) := by
      simpa [isPlain, everywhere] using h
    cases hd : literal with
    | nil => exact absurd (hliteral.symm.trans hd) (ofNat_ne_nil _)
    | cons c t =>
      have hc : isAsciiDigit c = true :=
        isAsciiDigit_of_mem_ofNat (n := natOfDigits literal)
          (by rw [← hliteral, hd]; exact List.mem_cons_self)
      refine ⟨c, t, rfl, ?_, ?_⟩
      · by_contra hblank
        simp only [Bool.not_eq_false, isJsonBlank, Bool.or_eq_true, beq_iff_eq] at hblank
        obtain ((rfl | rfl) | rfl) | rfl := hblank <;> exact absurd hc (by decide)
      · rintro rfl
        exact absurd hc (by decide)
  | string t => exact ⟨_, _, rfl, by decide, by decide⟩
  | array items => cases items <;> exact ⟨_, _, rfl, by decide, by decide⟩
  | object members => cases members <;> exact ⟨_, _, rfl, by decide, by decide⟩
  | halved => cases h
  | misnamed value => cases h
  | broken => cases h

lemma endsNumber_prettyItems (level : Nat) (items : List Json) (t : Text) :
    EndsNumber (prettyItems level items ++ t) := by
  cases items with
  | nil => exact fun c hc => by cases hc; decide
  | cons item items => exact fun c hc => by cases hc; decide

lemma endsNumber_prettyMembers (level : Nat) (members : List (Text × Json)) (t : Text) :
    EndsNumber (prettyMembers level members ++ t) := by
  cases members with
  | nil => exact fun c hc => by cases hc; decide
  | cons m members => exact fun c hc => by cases hc; decide

/-- Items are read back up to the end of their array. -/
lemma readItems_pretty (level : Nat) {item : Json} {items : List Json}
    (h : ∀ j ∈ item :: items, ReadBack j) {blanks : Text} (hblanks : blanks.all isJsonBlank = true)
    (fuel : Nat)
    (hfuel : 2 * ((pretty (level + 1) item).length + (prettyItems level items).length) + 1 < fuel)
    (rest : Text) :
    readItems fuel (blanks ++ (pretty (level + 1) item ++ (prettyItems level items ++ ']' :: rest))) =
      (item :: items, some rest) := by
  induction items generalizing item blanks fuel with
  | nil =>
    obtain ⟨fuel, rfl⟩ : ∃ n, fuel = n + 1 := ⟨fuel - 1, by omega⟩
    have hitem := h item List.mem_cons_self (level + 1) fuel (prettyItems level [] ++ ']' :: rest)
      (by omega) (endsNumber_prettyItems level [] _)
    have hend : skipBlanks (prettyItems level [] ++ ']' :: rest) = ']' :: rest := by
      rw [prettyItems, skipBlanks_append (all_newline level)]
      rfl
    simp only [readItems, readValue_blanks hblanks, hitem, hend]
  | cons next items ih =>
    obtain ⟨fuel, rfl⟩ : ∃ n, fuel = n + 1 := ⟨fuel - 1, by omega⟩
    have hlength : (pretty (level + 1) next).length + (prettyItems level items).length + 1 <
        (prettyItems level (next :: items)).length := by
      have hmark : ("," : Text).length = 1 := rfl
      simp only [prettyItems, newline, List.length_cons, List.length_append]
      omega
    have hitem := h item List.mem_cons_self (level + 1) fuel
      (prettyItems level (next :: items) ++ ']' :: rest) (by omega)
      (endsNumber_prettyItems level (next :: items) _)
    have hcomma : skipBlanks (prettyItems level (next :: items) ++ ']' :: rest) =
        ',' :: (newline (level + 1) ++
          (pretty (level + 1) next ++ (prettyItems level items ++ ']' :: rest))) := by
      simp only [prettyItems, List.append_assoc]
      rfl
    have hrest := ih (fun j hj => h j (List.mem_cons_of_mem _ hj)) (all_newline (level + 1))
      fuel (by omega)
    simp only [readItems, readValue_blanks hblanks, hitem, hcomma, hrest]

/-- Members are read back up to the end of their object. -/
lemma readMembers_pretty (level : Nat) {key : Text} {value : Json} {members : List (Text × Json)}
    (h : ∀ m ∈ (key, value) :: members, ReadBack m.2) {blanks : Text}
    (hblanks : blanks.all isJsonBlank = true) (fuel : Nat)
    (hfuel : 2 * ((pretty (level + 1) value).length + (prettyMembers level members).length) + 1 <
      fuel) (rest : Text) :
    readMembers fuel (blanks ++ (quoted key ++ (": " ++
        (pretty (level + 1) value ++ (prettyMembers level members ++ '\x7d' :: rest))))) =
      ((key, value) :: members, some rest) := by
  -- Behind the blanks stands the quote of the name, behind the name a colon.
  have hname : ∀ (key t : Text), skipBlanks (quoted key ++ (": " ++ t)) =
      '"' :: (key.flatMap escapeChar ++ '"' :: ':' :: ' ' :: t) := by
    intro key t
    rw [quoted, List.cons_append, skipBlanks_cons (by decide), List.append_assoc]
    rfl
  have hcolon : ∀ t, skipBlanks (':' :: ' ' :: t) = ':' :: ' ' :: t := fun t =>
    skipBlanks_cons (by decide) _
  have hspace : ∀ (fuel : Nat) (t : Text), readValue fuel (' ' :: t) = readValue fuel t :=
    fun fuel t => @readValue_blanks [' '] (by decide) fuel t
  induction members generalizing key value blanks fuel with
  | nil =>
    obtain ⟨fuel, rfl⟩ : ∃ n, fuel = n + 1 := ⟨fuel - 1, by omega⟩
    have hback : ReadBack value := h (key, value) List.mem_cons_self
    have hvalue := hback (level + 1) fuel
      (prettyMembers level [] ++ '\x7d' :: rest) (by omega) (endsNumber_prettyMembers level [] _)
    have hend : skipBlanks (prettyMembers level [] ++ '\x7d' :: rest) = '\x7d' :: rest := by
      rw [prettyMembers, skipBlanks_append (all_newline level)]
      rfl
    simp only [readMembers, skipBlanks_append hblanks, hname, readString_flatMap_escapeChar, hcolon,
      hspace, hvalue, hend, memberOf]
  | cons next members ih =>
    obtain ⟨key', value'⟩ := next
    obtain ⟨fuel, rfl⟩ : ∃ n, fuel = n + 1 := ⟨fuel - 1, by omega⟩
    have hlength : (pretty (level + 1) value').length + (prettyMembers level members).length + 1 <
        (prettyMembers level ((key', value') :: members)).length := by
      have hmark : ("," : Text).length = 1 := rfl
      simp only [prettyMembers, newline, List.length_cons, List.length_append]
      omega
    have hback : ReadBack value := h (key, value) List.mem_cons_self
    have hvalue := hback (level + 1) fuel
      (prettyMembers level ((key', value') :: members) ++ '\x7d' :: rest) (by omega)
      (endsNumber_prettyMembers level ((key', value') :: members) _)
    have hcomma : skipBlanks (prettyMembers level ((key', value') :: members) ++ '\x7d' :: rest) =
        ',' :: (newline (level + 1) ++ (quoted key' ++ (": " ++
          (pretty (level + 1) value' ++ (prettyMembers level members ++ '\x7d' :: rest))))) := by
      simp only [prettyMembers, List.append_assoc]
      rfl
    have hrest := ih (fun m hm => h m (List.mem_cons_of_mem _ hm)) (all_newline (level + 1))
      fuel (by omega)
    simp only [readMembers, skipBlanks_append hblanks, hname, readString_flatMap_escapeChar, hcolon,
      hspace, hvalue, hcomma, hrest, memberOf]

lemma readValue_scalar {c : Char} (hblank : isJsonBlank c = false) (hquote : c ≠ '"')
    (harray : c ≠ '[') (hobject : c ≠ '\x7b') (fuel : Nat) (t : Text) :
    readValue (fuel + 1) (c :: t) = readScalar (c :: t) := by
  rw [readValue, skipBlanks_cons hblank]
  split
  · next heq => exact absurd (List.cons.inj heq).1 hquote
  · next heq => exact absurd (List.cons.inj heq).1 harray
  · next heq => exact absurd (List.cons.inj heq).1 hobject
  · rfl

lemma readBack_number {literal : Text} (h : (number literal).isPlain = true) :
    ReadBack (number literal) := by
  intro level fuel rest hfuel hrest
  obtain ⟨fuel, rfl⟩ : ∃ n, fuel = n + 1 := ⟨fuel - 1, by omega⟩
  have hliteral := (isPlain_number_iff literal).mp h
  have hscalar := readScalar_ofNat (natOfDigits literal) hrest
  rw [← hliteral] at hscalar
  obtain ⟨c, t, hpretty, hblank, -⟩ := exists_cons_of_pretty h level
  have hwritten : literal = c :: t := hpretty
  have hdigit : isAsciiDigit c = true := by
    refine isAsciiDigit_of_mem_ofNat (n := natOfDigits literal) ?_
    rw [← hliteral, hwritten]
    exact List.mem_cons_self
  have hne : ∀ d, isAsciiDigit d = false → c ≠ d := by
    rintro d hd rfl
    rw [hdigit] at hd
    cases hd
  show readValue (fuel + 1) (literal ++ rest) = _
  rw [hwritten] at hscalar ⊢
  rw [List.cons_append, readValue_scalar hblank (hne _ (by decide)) (hne _ (by decide))
    (hne _ (by decide))]
  exact hscalar

lemma readBack_string (t : Text) : ReadBack (string t) := by
  intro level fuel rest hfuel _
  obtain ⟨fuel, rfl⟩ : ∃ n, fuel = n + 1 := ⟨fuel - 1, by omega⟩
  have hquoted : pretty level (string t) ++ rest =
      '"' :: (t.flatMap escapeChar ++ '"' :: rest) := by
    simp [pretty, quoted]
  rw [hquoted, readValue, skipBlanks_cons (by decide)]
  simp only [readString_flatMap_escapeChar]
  rfl

lemma readBack_array {items : List Json} (hplain : ∀ j ∈ items, j.isPlain = true)
    (h : ∀ j ∈ items, ReadBack j) : ReadBack (array items) := by
  intro level fuel rest hfuel _
  obtain ⟨fuel, rfl⟩ : ∃ n, fuel = n + 1 := ⟨fuel - 1, by omega⟩
  cases items with
  | nil => rfl
  | cons item items =>
    have hitems := readItems_pretty level h (List.all_nil (f := isJsonBlank)) fuel (by
      simp [pretty] at hfuel
      omega) rest
    obtain ⟨c, t, hpretty, hblank, hend⟩ :=
      exists_cons_of_pretty (hplain item List.mem_cons_self) (level + 1)
    have hwritten : pretty level (array (item :: items)) ++ rest =
        '[' :: (newline (level + 1) ++
          (pretty (level + 1) item ++ (prettyItems level items ++ ']' :: rest))) := by
      simp [pretty]
    rw [hwritten, readValue, skipBlanks_cons (by decide)]
    rw [List.nil_append] at hitems
    simp only [skipBlanks_append (all_newline (level + 1))]
    rw [hpretty, List.cons_append] at hitems ⊢
    rw [skipBlanks_cons hblank]
    split
    · next heq => exact absurd (List.cons.inj heq).1 hend
    · rw [hitems]

lemma readBack_object {members : List (Text × Json)} (h : ∀ m ∈ members, ReadBack m.2) :
    ReadBack (object members) := by
  intro level fuel rest hfuel _
  obtain ⟨fuel, rfl⟩ : ∃ n, fuel = n + 1 := ⟨fuel - 1, by omega⟩
  cases members with
  | nil => rfl
  | cons m members =>
    obtain ⟨key, value⟩ := m
    have hmembers := readMembers_pretty level h (List.all_nil (f := isJsonBlank)) fuel (by
      simp [pretty] at hfuel
      omega) rest
    have hwritten : pretty level (object ((key, value) :: members)) ++ rest =
        '\x7b' :: (newline (level + 1) ++ (quoted key ++ (": " ++
          (pretty (level + 1) value ++ (prettyMembers level members ++ '\x7d' :: rest))))) := by
      simp [pretty]
    rw [hwritten, readValue, skipBlanks_cons (by decide)]
    rw [List.nil_append] at hmembers
    simp only [skipBlanks_append (all_newline (level + 1))]
    rw [quoted, List.cons_append] at hmembers ⊢
    rw [skipBlanks_cons (by decide)]
    split
    · next heq => exact absurd (List.cons.inj heq).1 (by decide)
    · rw [hmembers]

/-- Every value that can be written is read back. -/
lemma readBack_of_isPlain : ∀ j : Json, j.isPlain = true → ReadBack j
  | null, _ | bool true, _ | bool false, _ => by
    intro level fuel rest hfuel _
    obtain ⟨fuel, rfl⟩ : ∃ n, fuel = n + 1 := ⟨fuel - 1, by omega⟩
    rfl
  | number _, h => readBack_number h
  | string t, _ => readBack_string t
  | array items, h =>
    have hplain := (isPlain_array_iff items).mp h
    readBack_array hplain fun j hj => readBack_of_isPlain j (hplain j hj)
  | object members, h =>
    have hplain := (isPlain_object_iff members).mp h
    readBack_object fun m hm => readBack_of_isPlain m.2 (hplain m hm)
  | halved, h | misnamed _, h | broken, h => by cases h
termination_by j => sizeOf j
decreasing_by
  · have hlt := List.sizeOf_lt_of_mem hj
    simp only [array.sizeOf_spec]
    omega
  · have hlt := List.sizeOf_lt_of_mem hm
    have hvalue : sizeOf m.2 < sizeOf m := by
      obtain ⟨key, value⟩ := m
      simp only [Prod.mk.sizeOf_spec]
      omega
    simp only [object.sizeOf_spec]
    omega

/-- A document is read back as the value it was written for. -/
theorem document?_document {j : Json} (h : j.isPlain = true) : document? (document j) = some j := by
  have hread := readBack_of_isPlain j h 0 (2 * (pretty 0 j).length + 2) [] (by omega)
    (fun c hc => by cases hc)
  rw [List.append_nil] at hread
  rw [document?, read, document, hread]
  rfl

end Json
end Marginalia
