import Marginalia.Proofs.ByteOffsets
import Marginalia.Proofs.NestedBrackets
import Marginalia.Proofs.Pieces

/-!
# Brackets and their partners

The partner of a bracket is found by counting brackets of its kind. It is a closing bracket of that
kind, and so the text in front of it, what stands between the two and what follows can all be told by
byte offsets.
-/

namespace Marginalia.Text

variable {opener closer c : Char} {s : CodeState} {t front tail inside after : Text}

/-- The brackets of a kind that are open behind a character of code, where `count` were. -/
def countAfter (opener closer : Char) (count : Nat) (c : Char) : Nat :=
  if c = opener then count + 1 else if c = closer then count - 1 else count

lemma splitAtClose?_skip (opener : Char) (hs : (s.step c).2.isSome = false) (count : Nat)
    (rest : Text) : splitAtClose? opener closer s count (c :: rest) =
      (splitAtClose? opener closer (s.step c).1 count rest).map fun p => (c :: p.1, p.2) := by
  rw [splitAtClose?]
  simp only [← Option.not_isSome, hs, Bool.not_false, if_true]

lemma splitAtClose?_code (opener : Char) (hs : (s.step c).2.isSome = true) (count : Nat)
    (rest : Text) : splitAtClose? opener closer s count (c :: rest) =
      if c = closer ∧ c ≠ opener ∧ count ≤ 1 then some ([], c :: rest)
      else (splitAtClose? opener closer (s.step c).1 (countAfter opener closer count c) rest).map
        fun p => (c :: p.1, p.2) := by
  rw [splitAtClose?, countAfter]
  simp only [← Option.not_isSome, hs, Bool.not_true, Bool.false_eq_true, if_false, beq_iff_eq]
  by_cases ho : c = opener
  · simp [ho]
  · by_cases hc : c = closer
    · subst hc
      by_cases hcount : count ≤ 1
      · simp [ho, hcount, show count - 1 = 0 by omega]
      · simp [ho, hcount, show count - 1 ≠ 0 by omega]
    · simp [ho, hc]

/-- What a search for a closing bracket stops at. -/
lemma exists_of_splitAtClose? {count : Nat}
    (h : splitAtClose? opener closer s count t = some (front, tail)) :
    ∃ after, tail = closer :: after := by
  induction t generalizing s count front with
  | nil => cases h
  | cons c rest ih =>
    have hlater {s' : CodeState} {count : Nat} (hmap : (splitAtClose? opener closer s' count
        rest).map (fun p => (c :: p.1, p.2)) = some (front, tail)) :
        ∃ after, tail = closer :: after := by
      obtain ⟨⟨front', tail'⟩, hrest, heq⟩ := Option.map_eq_some_iff.mp hmap
      obtain ⟨rfl, rfl⟩ := Prod.mk.inj heq
      exact ih hrest
    cases hcode : (s.step c).2.isSome with
    | false =>
      rw [splitAtClose?_skip opener hcode] at h
      exact hlater h
    | true =>
      rw [splitAtClose?_code opener hcode] at h
      split at h
      · next hclose =>
        obtain ⟨rfl, rfl⟩ := Prod.mk.inj (Option.some.inj h)
        exact ⟨rest, by rw [hclose.1]⟩
      · exact hlater h

/-- The search for the partner of a bracket starts outside literals, behind the bracket. -/
lemma splitAtPartner?_opener (h : closerOf? opener = some closer) (rest : Text) :
    splitAtPartner? (opener :: rest) =
      (splitAtClose? opener closer (CodeState.start.step opener).1 1 rest).map
        fun p => (opener :: p.1, p.2) := by
  have ho : isOpener opener = true := by rw [← isSome_closerOf?, h]; rfl
  have hq : isQuote opener = false := by
    simp only [isOpener, Bool.or_eq_true, beq_iff_eq] at ho
    obtain (rfl | rfl) | rfl := ho <;> rfl
  have hcode : (CodeState.start.step opener).2.isSome = true := by
    simp [CodeState.step, CodeState.start, hq, ho]
  rw [splitAtPartner?, h, Option.bind_some, splitAtClose?_code opener hcode,
    if_neg fun h => h.2.1 rfl, countAfter, if_pos rfl]

/-- A text that is split at the partner of a bracket starts with that bracket, and the rest starts
with its partner. -/
lemma exists_of_splitAtPartner? (h : splitAtPartner? t = some (front, tail)) :
    ∃ opener closer inside after, closerOf? opener = some closer ∧ front = opener :: inside ∧
      tail = closer :: after ∧ t = opener :: (inside ++ closer :: after) := by
  cases t with
  | nil => cases h
  | cons opener rest =>
    obtain ⟨closer, hcloser, -⟩ := Option.bind_eq_some_iff.mp h
    have heq := eq_of_splitAtPartner? h
    rw [splitAtPartner?_opener hcloser] at h
    obtain ⟨⟨inside, tail'⟩, hclose, hpair⟩ := Option.map_eq_some_iff.mp h
    obtain ⟨rfl, rfl⟩ := Prod.mk.inj hpair
    obtain ⟨after, rfl⟩ := exists_of_splitAtClose? hclose
    exact ⟨opener, closer, inside, after, hcloser, rfl, rfl, heq⟩

lemma bracketed?_eq_some_iff_partner : bracketed? t = some (inside, after) ↔ ∃ opener closer,
    closerOf? opener = some closer ∧
      splitAtPartner? t = some (opener :: inside, closer :: after) := by
  rw [bracketed?, Option.map_eq_some_iff]
  constructor
  · rintro ⟨⟨front, tail⟩, hsplit, hpair⟩
    obtain ⟨rfl, rfl⟩ := Prod.mk.inj hpair
    obtain ⟨opener, closer, inside, after, hcloser, rfl, rfl, -⟩ := exists_of_splitAtPartner? hsplit
    exact ⟨opener, closer, hcloser, hsplit⟩
  · rintro ⟨opener, closer, -, hsplit⟩
    exact ⟨_, hsplit, rfl⟩

/-! ## Offsets -/

/-- A bracket is one byte long. -/
lemma utf8Size_of_closerOf? (h : closerOf? opener = some closer) :
    opener.utf8Size = 1 ∧ closer.utf8Size = 1 := by
  unfold closerOf? at h
  split at h
  · next ho =>
    rw [beq_iff_eq.mp ho, ← Option.some.inj h]
    exact ⟨rfl, rfl⟩
  · split at h
    · next ho =>
      rw [beq_iff_eq.mp ho, ← Option.some.inj h]
      exact ⟨rfl, rfl⟩
    · split at h
      · next ho =>
        rw [beq_iff_eq.mp ho, ← Option.some.inj h]
        exact ⟨rfl, rfl⟩
      · cases h

/-- Where the partner of a bracket stands that follows the beginning of a text. -/
lemma matchingClose?_append (head tail : Text) :
    matchingClose? (head ++ tail) (byteLength head) =
      some ((splitAtPartner? tail).map fun p => byteLength head + byteLength p.1) := by
  rw [matchingClose?, fromByte?_append]
  rfl

/-- What stands between a bracket and its partner, told by offsets. -/
lemma matchingClose?_eq_some_iff (hcloser : closerOf? opener = some closer)
    (head inside after : Text) :
    matchingClose? (head ++ opener :: (inside ++ closer :: after)) (byteLength head) =
        some (some (byteLength head + 1 + byteLength inside)) ↔
      bracketed? (opener :: (inside ++ closer :: after)) = some (inside, after) := by
  obtain ⟨hone, -⟩ := utf8Size_of_closerOf? hcloser
  rw [matchingClose?_append, Option.some.injEq, Option.map_eq_some_iff,
    bracketed?_eq_some_iff_partner]
  constructor
  · rintro ⟨⟨front, tail⟩, hsplit, hlength⟩
    obtain ⟨opener', closer', inside', after', -, rfl, rfl, heq⟩ := exists_of_splitAtPartner? hsplit
    obtain ⟨rfl, hrest⟩ := List.cons.inj heq
    have hlength' : byteLength inside = byteLength inside' := by
      rw [byteLength_cons, hone] at hlength
      omega
    obtain ⟨rfl, htail⟩ := append_inj_byteLength hrest hlength'
    exact ⟨opener, closer, hcloser, by rw [hsplit, htail]⟩
  · rintro ⟨opener', closer', -, hsplit⟩
    refine ⟨_, hsplit, ?_⟩
    obtain ⟨rfl, -⟩ := List.cons.inj (eq_of_splitAtPartner? hsplit)
    change byteLength head + byteLength (opener :: inside) = _
    rw [byteLength_cons, hone, Nat.add_assoc]

end Marginalia.Text
