import Marginalia.Proofs.CodeScan
import Marginalia.Text.Slice

/-!
# Byte offsets

An offset that stands between characters splits a text in two, and is the length of the first part.
The offsets that a reader of code reports are of this kind, and they go up from one character to the
next.
-/

namespace Marginalia.Text

variable {t head tail piece : Text} {n start stop : Nat}

@[simp] lemma byteLength_nil : byteLength [] = 0 := rfl

@[simp] lemma byteLength_cons (c : Char) (t : Text) :
    byteLength (c :: t) = c.utf8Size + byteLength t := rfl

@[simp] lemma byteLength_append (t t' : Text) :
    byteLength (t ++ t') = byteLength t + byteLength t' := by
  induction t with
  | nil => exact (Nat.zero_add _).symm
  | cons c rest ih => rw [List.cons_append, byteLength_cons, byteLength_cons, ih, Nat.add_assoc]

lemma byteLength_eq_zero_iff : byteLength t = 0 ↔ t = [] := by
  cases t with
  | nil => exact iff_of_true rfl rfl
  | cons c rest =>
    have hpos : 0 < c.utf8Size := c.utf8Size_pos
    refine iff_of_false ?_ (List.cons_ne_nil c rest)
    rw [byteLength_cons]
    omega

/-- Of two beginnings of a text, one that is as long as the other is the same. -/
lemma append_inj_byteLength {head' tail' : Text} (h : head ++ tail = head' ++ tail')
    (hlength : byteLength head = byteLength head') : head = head' ∧ tail = tail' := by
  induction head generalizing head' with
  | nil =>
    obtain rfl : head' = [] := byteLength_eq_zero_iff.mp hlength.symm
    exact ⟨rfl, h⟩
  | cons c head ih =>
    cases head' with
    | nil => exact absurd (byteLength_eq_zero_iff.mp hlength) (List.cons_ne_nil c head)
    | cons d head' =>
      obtain ⟨rfl, hrest⟩ := List.cons.inj h
      rw [byteLength_cons, byteLength_cons, Nat.add_left_cancel_iff] at hlength
      obtain ⟨rfl, rfl⟩ := ih hrest hlength
      exact ⟨rfl, rfl⟩

/-! ## Ranges -/

@[simp] lemma fromByte?_zero (t : Text) : fromByte? t 0 = some t := by
  cases t <;> rfl

lemma fromByte?_cons (c : Char) (t : Text) (hn : n ≠ 0) : fromByte? (c :: t) n =
    if c.utf8Size ≤ n then fromByte? t (n - c.utf8Size) else none := by
  cases n with
  | zero => exact absurd rfl hn
  | succ n => rfl

@[simp] lemma upToByte?_zero (t : Text) : upToByte? t 0 = some [] := by
  cases t <;> rfl

lemma upToByte?_cons (c : Char) (t : Text) (hn : n ≠ 0) : upToByte? (c :: t) n =
    if c.utf8Size ≤ n then (upToByte? t (n - c.utf8Size)).map (c :: ·) else none := by
  cases n with
  | zero => exact absurd rfl hn
  | succ n => rfl

/-- What stands behind the beginning of a text is found at the offset where that ends. -/
lemma fromByte?_append (head tail : Text) :
    fromByte? (head ++ tail) (byteLength head) = some tail := by
  induction head with
  | nil => exact fromByte?_zero tail
  | cons c head ih =>
    have hne : c.utf8Size + byteLength head ≠ 0 := by
      have hpos : 0 < c.utf8Size := c.utf8Size_pos
      omega
    rw [List.cons_append, byteLength_cons, fromByte?_cons c _ hne, if_pos (Nat.le_add_right _ _),
      Nat.add_sub_cancel_left, ih]

lemma upToByte?_append (head tail : Text) :
    upToByte? (head ++ tail) (byteLength head) = some head := by
  induction head with
  | nil => exact upToByte?_zero tail
  | cons c head ih =>
    have hne : c.utf8Size + byteLength head ≠ 0 := by
      have hpos : 0 < c.utf8Size := c.utf8Size_pos
      omega
    rw [List.cons_append, byteLength_cons, upToByte?_cons c _ hne, if_pos (Nat.le_add_right _ _),
      Nat.add_sub_cancel_left, ih]
    rfl

lemma exists_head_of_fromByte? (h : fromByte? t n = some tail) :
    ∃ head, t = head ++ tail ∧ byteLength head = n := by
  induction t generalizing n with
  | nil =>
    cases n with
    | zero => exact ⟨[], Option.some.inj h, rfl⟩
    | succ n => cases h
  | cons c rest ih =>
    by_cases hn : n = 0
    · rw [hn, fromByte?_zero] at h
      exact ⟨[], Option.some.inj h, hn.symm⟩
    · rw [fromByte?_cons c rest hn] at h
      obtain ⟨hle, hrest⟩ := Option.ite_none_right_eq_some.mp h
      obtain ⟨head, rfl, hlength⟩ := ih hrest
      refine ⟨c :: head, rfl, ?_⟩
      rw [byteLength_cons, hlength]
      omega

lemma exists_tail_of_upToByte? (h : upToByte? t n = some head) :
    ∃ tail, t = head ++ tail ∧ byteLength head = n := by
  induction t generalizing n head with
  | nil =>
    cases n with
    | zero => exact ⟨[], by rw [← Option.some.inj h]; rfl, by rw [← Option.some.inj h]; rfl⟩
    | succ n => cases h
  | cons c rest ih =>
    by_cases hn : n = 0
    · rw [hn, upToByte?_zero, Option.some.injEq] at h
      subst h
      exact ⟨c :: rest, rfl, hn.symm⟩
    · rw [upToByte?_cons c rest hn] at h
      obtain ⟨hle, hrest⟩ := Option.ite_none_right_eq_some.mp h
      obtain ⟨head', hhead, rfl⟩ := Option.map_eq_some_iff.mp hrest
      obtain ⟨tail, rfl, hlength⟩ := ih hhead
      refine ⟨tail, rfl, ?_⟩
      rw [byteLength_cons, hlength]
      omega

lemma fromByte?_eq_some_iff :
    fromByte? t n = some tail ↔ ∃ head, t = head ++ tail ∧ byteLength head = n := by
  refine ⟨exists_head_of_fromByte?, ?_⟩
  rintro ⟨head, rfl, rfl⟩
  exact fromByte?_append head tail

lemma isBoundary_iff :
    isBoundary t n = true ↔ ∃ head tail, t = head ++ tail ∧ byteLength head = n := by
  rw [isBoundary, Option.isSome_iff_exists]
  constructor
  · rintro ⟨tail, h⟩
    obtain ⟨head, ht, hn⟩ := fromByte?_eq_some_iff.mp h
    exact ⟨head, tail, ht, hn⟩
  · rintro ⟨head, tail, ht, hn⟩
    exact ⟨tail, fromByte?_eq_some_iff.mpr ⟨head, ht, hn⟩⟩

lemma isBoundary_append (head tail : Text) : isBoundary (head ++ tail) (byteLength head) = true :=
  isBoundary_iff.mpr ⟨head, tail, rfl, rfl⟩

/-- A range that can be cut out is what stands between a beginning and an end of the text. -/
lemma slice?_eq_some_iff : slice? t start stop = some piece ↔ ∃ head tail,
    t = head ++ (piece ++ tail) ∧ byteLength head = start ∧ start + byteLength piece = stop := by
  constructor
  · intro h
    obtain ⟨hle, hcut⟩ := Option.ite_none_right_eq_some.mp h
    obtain ⟨rest, hrest, hpiece⟩ := Option.bind_eq_some_iff.mp hcut
    obtain ⟨head, rfl, hhead⟩ := fromByte?_eq_some_iff.mp hrest
    obtain ⟨tail, rfl, hlength⟩ := exists_tail_of_upToByte? hpiece
    exact ⟨head, tail, rfl, hhead, by omega⟩
  · rintro ⟨head, tail, rfl, rfl, rfl⟩
    rw [slice?, if_pos (Nat.le_add_right _ _), fromByte?_append, Option.bind_some,
      Nat.add_sub_cancel_left, upToByte?_append]

lemma slice?_append (head piece tail : Text) : slice? (head ++ (piece ++ tail)) (byteLength head)
    (byteLength head + byteLength piece) = some piece :=
  slice?_eq_some_iff.mpr ⟨head, tail, rfl, rfl, rfl⟩

/-- The range up to an offset. -/
lemma slice?_head (head tail : Text) : slice? (head ++ tail) 0 (byteLength head) = some head :=
  slice?_eq_some_iff.mpr ⟨[], tail, rfl, rfl, Nat.zero_add _⟩

/-- The range from an offset on. -/
lemma slice?_tail (head tail : Text) :
    slice? (head ++ tail) (byteLength head) (byteLength (head ++ tail)) = some tail :=
  slice?_eq_some_iff.mpr
    ⟨head, [], by rw [List.append_nil], rfl, (byteLength_append head tail).symm⟩

/-! ## Offsets of code -/

lemma codeCharsFrom_append (s : CodeState) (index : Nat) (t t' : Text) :
    codeCharsFrom s index (t ++ t') =
      codeCharsFrom s index t ++ codeCharsFrom (s.run t) (index + byteLength t) t' := by
  induction t generalizing s index with
  | nil => rfl
  | cons c rest ih =>
    rw [List.cons_append, codeCharsFrom, codeCharsFrom, ih, CodeState.run_cons, byteLength_cons,
      Nat.add_assoc]
    cases (s.step c).2 <;> rfl

/-- The code characters of a text are the characters that stand outside literals, with the lengths
of the texts before them. -/
lemma mem_codeCharsFrom_iff {s : CodeState} {index : Nat} {k : CodeChar} :
    k ∈ codeCharsFrom s index t ↔ ∃ head rest, t = head ++ k.char :: rest ∧
      k.index = index + byteLength head ∧ ((s.run head).step k.char).2 = some k.depth := by
  induction t generalizing s index with
  | nil =>
    refine iff_of_false List.not_mem_nil ?_
    rintro ⟨head, rest, heq, -⟩
    cases head <;> cases heq
  | cons c rest ih =>
    have hlater : k ∈ codeCharsFrom (s.step c).1 (index + c.utf8Size) rest ↔
        ∃ head tail, c :: rest = (c :: head) ++ k.char :: tail ∧
          k.index = index + byteLength (c :: head) ∧
          ((s.run (c :: head)).step k.char).2 = some k.depth := by
      simp only [ih, List.cons_append, List.cons.injEq, true_and, byteLength_cons, Nat.add_assoc,
        CodeState.run_cons]
    have hsplit : (∃ head tail, c :: rest = head ++ k.char :: tail ∧
        k.index = index + byteLength head ∧ ((s.run head).step k.char).2 = some k.depth) ↔
        (c = k.char ∧ k.index = index ∧ (s.step c).2 = some k.depth) ∨
          k ∈ codeCharsFrom (s.step c).1 (index + c.utf8Size) rest := by
      rw [hlater]
      constructor
      · rintro ⟨head, tail, heq, hindex, hdepth⟩
        cases head with
        | nil =>
          obtain ⟨rfl, rfl⟩ := List.cons.inj heq
          exact .inl ⟨rfl, hindex, hdepth⟩
        | cons d head =>
          obtain ⟨rfl, hrest⟩ := List.cons.inj heq
          exact .inr ⟨head, tail, heq, hindex, hdepth⟩
      · rintro (⟨rfl, hindex, hdepth⟩ | ⟨head, tail, heq, hindex, hdepth⟩)
        · exact ⟨[], rest, rfl, hindex, hdepth⟩
        · exact ⟨c :: head, tail, heq, hindex, hdepth⟩
    rw [hsplit, codeCharsFrom]
    cases hd : (s.step c).2 with
    | none => simp
    | some depth =>
      rw [List.mem_cons]
      refine or_congr_left ?_
      obtain ⟨i, d, e⟩ := k
      simp only [CodeChar.mk.injEq, Option.some.injEq]
      constructor
      · rintro ⟨rfl, rfl, rfl⟩
        exact ⟨rfl, rfl, rfl⟩
      · rintro ⟨rfl, rfl, rfl⟩
        exact ⟨rfl, rfl, rfl⟩

lemma mem_codeChars_iff {k : CodeChar} : k ∈ codeChars t ↔ ∃ head rest,
    t = head ++ k.char :: rest ∧ k.index = byteLength head ∧
      ((CodeState.start.run head).step k.char).2 = some k.depth := by
  rw [codeChars, mem_codeCharsFrom_iff]
  simp only [Nat.zero_add]

lemma le_index_of_mem {s : CodeState} {index : Nat} {k : CodeChar}
    (hk : k ∈ codeCharsFrom s index t) : index ≤ k.index := by
  obtain ⟨head, rest, -, hindex, -⟩ := mem_codeCharsFrom_iff.mp hk
  omega

/-- The offsets of code characters go up. -/
lemma pairwise_codeCharsFrom (s : CodeState) (index : Nat) (t : Text) :
    (codeCharsFrom s index t).Pairwise fun k m => k.index < m.index := by
  induction t generalizing s index with
  | nil => exact .nil
  | cons c rest ih =>
    have hrest := ih (s.step c).1 (index + c.utf8Size)
    rw [codeCharsFrom]
    cases (s.step c).2 with
    | none => exact hrest
    | some depth =>
      refine List.pairwise_cons.mpr ⟨fun m hm => ?_, hrest⟩
      have hle := le_index_of_mem hm
      have hpos : 0 < c.utf8Size := c.utf8Size_pos
      exact Nat.lt_of_lt_of_le (Nat.lt_add_of_pos_right hpos) hle

end Marginalia.Text
