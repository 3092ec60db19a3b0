import Marginalia.Json.Reader
import Marginalia.Json.Writer
import Mathlib.Data.List.Basic
import Mathlib.Tactic.Lemma
import Mathlib.Tactic.SplitIfs

/-!
# Strings that are written and read

Each character of a string is written so that it can be told where it ends, and no character as a
quote. So a string is read back as it was, whatever follows it.
-/

namespace Marginalia.Json

/-! ## Characters -/

lemma readCodes_letter {e d : Char} (he : e ≠ 'u') (hd : escaped? e = some d) (t : Text) :
    readCodes ('\\' :: e :: t) =
      (readCodes t).map fun (codes, rest) => (d.toNat :: codes, rest) := by
  rw [readCodes, hd]
  · cases readCodes t <;> rfl
  · exact fun _ _ _ _ _ h => absurd h he

lemma unit?_hexDigits : ∀ n < 32,
    unit? '0' '0' (hexDigit (n / 16)) (hexDigit (n % 16)) = some n := by
  decide

lemma readCodes_unit {c : Char} (hc : c.toNat < 32) (t : Text) :
    readCodes ('\\' :: 'u' :: '0' :: '0' :: hexDigit (c.toNat / 16) :: hexDigit (c.toNat % 16) :: t) =
      (readCodes t).map fun (codes, rest) => (c.toNat :: codes, rest) := by
  rw [readCodes, unit?_hexDigits c.toNat hc]
  cases readCodes t <;> rfl

lemma readCodes_plain {c : Char} (hquote : c ≠ '"') (hbackslash : c ≠ '\\') (hc : 32 ≤ c.toNat)
    (t : Text) :
    readCodes (c :: t) = (readCodes t).map fun (codes, rest) => (c.toNat :: codes, rest) := by
  have hread : (c.toNat < 32 || c == '\\') = false := by simp [hc, hbackslash]
  rw [readCodes, hread]
  · cases readCodes t <;> rfl
  · exact hquote
  · exact fun _ _ _ _ _ h => absurd h hbackslash
  · exact fun _ _ h => absurd h hbackslash

lemma readCodes_escapeChar (c : Char) (t : Text) :
    readCodes (escapeChar c ++ t) =
      (readCodes t).map fun (codes, rest) => (c.toNat :: codes, rest) := by
  unfold escapeChar
  -- One case for each character with a letter of its own, then the unseen ones and all others.
  split_ifs with hquote hbackslash hnewline hreturn htab hback hfeed hcontrol
  · obtain rfl := beq_iff_eq.mp hquote
    exact readCodes_letter (by decide) rfl t
  · obtain rfl := beq_iff_eq.mp hbackslash
    exact readCodes_letter (by decide) rfl t
  · obtain rfl := beq_iff_eq.mp hnewline
    exact readCodes_letter (by decide) rfl t
  · obtain rfl := beq_iff_eq.mp hreturn
    exact readCodes_letter (by decide) rfl t
  · obtain rfl := beq_iff_eq.mp htab
    exact readCodes_letter (by decide) rfl t
  · obtain rfl : c = Char.ofNat 8 := by rw [← beq_iff_eq.mp hback, Char.ofNat_toNat]
    exact readCodes_letter (by decide) rfl t
  · obtain rfl : c = Char.ofNat 12 := by rw [← beq_iff_eq.mp hfeed, Char.ofNat_toNat]
    exact readCodes_letter (by decide) rfl t
  · exact readCodes_unit hcontrol t
  · rw [beq_iff_eq] at hquote hbackslash
    exact readCodes_plain hquote hbackslash (Nat.le_of_not_lt hcontrol) t

/-- No character is half of a pair. -/
lemma spelt?_cons (c : Char) (codes : List Nat) :
    spelt? (c.toNat :: codes) = (spelt? codes).map (c :: ·) := by
  have hhalf : isHighHalf c.toNat = false ∧ isLowHalf c.toNat = false := by
    have hvalid : c.toNat < 0xD800 ∨ 0xDFFF < c.toNat ∧ c.toNat < 0x110000 := c.valid
    simp only [isHighHalf, isLowHalf, Bool.and_eq_false_iff, decide_eq_false_iff_not]
    omega
  cases codes with
  | nil => simp [spelt?, hhalf]
  | cons code codes => simp [spelt?, hhalf]

/-! ## Strings -/

lemma readCodes_flatMap_escapeChar (s t : Text) :
    readCodes (s.flatMap escapeChar ++ '"' :: t) = some (s.map Char.toNat, t) := by
  induction s with
  | nil => simp [readCodes]
  | cons c s ih =>
    rw [List.flatMap_cons, List.append_assoc, readCodes_escapeChar, ih]
    rfl

lemma spelt?_map_toNat (s : Text) : spelt? (s.map Char.toNat) = some s := by
  induction s with
  | nil => rfl
  | cons c s ih =>
    rw [List.map_cons, spelt?_cons, ih]
    rfl

/-- A string is read back as it was written. -/
lemma readString_flatMap_escapeChar (s t : Text) :
    readString (s.flatMap escapeChar ++ '"' :: t) = some (some s, t) := by
  rw [readString, readCodes_flatMap_escapeChar]
  simp [spelt?_map_toNat]

/-- What is written for a string tells the string, and where the text behind it starts. -/
lemma quoted_append_inj {s s' t t' : Text} (h : quoted s ++ t = quoted s' ++ t') :
    s = s' ∧ t = t' := by
  have hread (s t : Text) : readString ((quoted s ++ t).drop 1) = some (some s, t) := by
    have hquoted : (quoted s ++ t).drop 1 = s.flatMap escapeChar ++ '"' :: t := by simp [quoted]
    rw [hquoted, readString_flatMap_escapeChar]
  have hboth := (hread s t).symm.trans (h ▸ hread s' t')
  simpa using hboth

end Marginalia.Json
