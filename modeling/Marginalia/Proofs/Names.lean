import Marginalia.Proofs.Blanks
import Marginalia.Text.Words

/-!
# Names in code

A name ends where a text has its first character that belongs to no word, so what follows it may be
exchanged.
-/

namespace Marginalia

lemma isAscii_of_isAsciiLetter {c : Char} (h : isAsciiLetter c = true) : c.toNat < 128 := by
  simp only [isAsciiLetter, Bool.or_eq_true, Bool.and_eq_true, decide_eq_true_eq, Char.le_def,
    UInt32.le_iff_toNat_le] at h
  have hz : ('z' : Char).val.toNat = 122 := rfl
  have hZ : ('Z' : Char).val.toNat = 90 := rfl
  show c.val.toNat < 128
  omega

/-- The code points of the blanks. -/
def blankPoints : List Nat :=
  [9, 10, 11, 12, 13, 32, 0x85, 0xA0, 0x1680, 0x2000, 0x2001, 0x2002, 0x2003, 0x2004, 0x2005, 0x2006,
    0x2007, 0x2008, 0x2009, 0x200A, 0x2028, 0x2029, 0x202F, 0x205F, 0x3000]

lemma mem_blankPoints {c : Char} (h : isBlank c = true) : c.toNat ∈ blankPoints := by
  simp only [isBlank, Bool.or_eq_true, Bool.and_eq_true, decide_eq_true_eq, beq_iff_eq] at h
  simp only [blankPoints, List.mem_cons, List.not_mem_nil, or_false]
  omega

lemma isWordChar_of_isBlank {c : Char} (h : isBlank c = true) : isWordChar c = false := by
  have htable : ∀ n ∈ blankPoints, isWordChar (Char.ofNat n) = false := by decide +kernel
  have hc := htable c.toNat (mem_blankPoints h)
  rwa [Char.ofNat_toNat] at hc

lemma isBlank_of_isWordChar {c : Char} (h : isWordChar c = true) : isBlank c = false := by
  by_contra hc
  rw [isWordChar_of_isBlank (Bool.not_eq_false _ ▸ hc)] at h
  exact Bool.noConfusion h

lemma isWordChar_of_isNameStart {c : Char} (h : isNameStart c = true) : isWordChar c = true := by
  simp only [isNameStart, Bool.or_eq_true, beq_iff_eq] at h
  obtain h | rfl := h
  · simp [isWordChar, isAscii_of_isAsciiLetter h, h]
  · decide

namespace Text

lemma continuesWord_blanks_cons {gap : Text} {c : Char} (hgap : gap.isAllBlank = true)
    (hc : isWordChar c = false) (rest : Text) : continuesWord (gap ++ c :: rest) = false := by
  cases gap with
  | nil => simp [continuesWord, hc]
  | cons d gap =>
    have hd := isWordChar_of_isBlank (List.all_eq_true.mp hgap d List.mem_cons_self)
    simp [continuesWord, hd]

lemma name?_word (name rest : Text) {t : Text} (h : name? t = some (name, '(' :: rest)) :
    t = name ++ '(' :: rest ∧ ∃ c w, name = c :: w ∧ isNameStart c = true ∧
      w.all isWordChar = true := by
  cases t with
  | nil => simp [name?] at h
  | cons c t =>
    by_cases hc : isNameStart c = true
    · simp only [name?, if_pos hc, Option.some.injEq, Prod.mk.injEq] at h
      obtain ⟨rfl, hrest⟩ := h
      refine ⟨?_, c, _, rfl, hc, List.all_takeWhile⟩
      rw [← hrest, List.cons_append, List.takeWhile_append_dropWhile]
    · simp [name?, hc] at h

lemma name?_cons_append {c : Char} {w : Text} (hc : isNameStart c = true)
    (hw : w.all isWordChar = true) (rest : Text) :
    name? (c :: w ++ '(' :: rest) = some (c :: w, '(' :: rest) := by
  have hw' := List.all_eq_true.mp hw
  have hparen : isWordChar '(' = false := by decide
  simp only [List.cons_append, name?, if_pos hc]
  rw [List.takeWhile_append_of_pos hw', List.dropWhile_append_of_pos hw']
  simp [hparen]

/-- A name that ends before the end of a text is the name of every text that starts with it. -/
lemma name?_append {t : Text} {d : Char} (ht : t.getLast? = some d) (hd : isWordChar d = false)
    (rest : Text) : (name? t = none ∧ name? (t ++ rest) = none) ∨
      ∃ name tail, tail ≠ [] ∧ name? t = some (name, tail) ∧
        name? (t ++ rest) = some (name, tail ++ rest) := by
  cases t with
  | nil => simp at ht
  | cons c t =>
    by_cases hc : isNameStart c = true
    · right
      have hmem : d ∈ t := by
        obtain rfl | hmem := List.mem_cons.mp (List.mem_of_getLast? ht)
        · rw [isWordChar_of_isNameStart hc] at hd
          exact Bool.noConfusion hd
        · exact hmem
      have hsplit : t.takeWhile isWordChar ++ t.dropWhile isWordChar = t :=
        List.takeWhile_append_dropWhile
      have htail : t.dropWhile isWordChar ≠ [] := by
        intro hnil
        rw [hnil, List.append_nil] at hsplit
        have hall : t.all isWordChar = true := by
          rw [← hsplit]
          exact List.all_takeWhile
        rw [List.all_eq_true.mp hall d hmem] at hd
        exact Bool.noConfusion hd
      have htake : (t ++ rest).takeWhile isWordChar = t.takeWhile isWordChar := by
        have hlen := congrArg List.length hsplit
        have hpos := List.length_pos_iff.mpr htail
        rw [List.length_append] at hlen
        rw [List.takeWhile_append, if_neg (by omega)]
      refine ⟨c :: t.takeWhile isWordChar, t.dropWhile isWordChar, htail, ?_, ?_⟩
      · simp [name?, hc]
      · simp only [List.cons_append, name?, if_pos hc, htake, List.dropWhile_append]
        simp [htail]
    · left
      simp [name?, hc]

end Text
end Marginalia
