import Marginalia.Proofs.ByteOffsets
import Marginalia.Proofs.Literals
import Marginalia.Text.Located
import Mathlib.Data.List.Forall2

/-!
# Pieces and their places

One reader cuts a text at its separators as it goes through the text. Another one notes where the
separators stand, and cuts out what lies between. Both come to the same pieces, and a piece that is
read on its own has no separator.
-/

namespace Marginalia

/-- Where a separator stands outside literals and brackets, code starts anew. This holds of closing
brackets too, which may find no bracket open. -/
lemma CodeState.Sound.step_sep {s : CodeState} {c : Char} (h : s.Sound)
    (htop : (s.step c).2 = some 0) (hquote : isQuote c = false) (hopener : isOpener c = false) :
    (s.step c).1 = start := by
  have hq : s.quote = none := quote_of_isSome_step (by rw [htop]; rfl)
  have hdepth : (s.step c).1.depth = 0 := by
    cases hcloser : isCloser c with
    | true => simpa [CodeState.step, hq, hquote, hopener, hcloser] using htop
    | false => simpa [CodeState.step, hq, hquote, hopener, hcloser] using htop
  exact (h.step c).eq_start (step_unquoted hq hquote).1 hdepth

namespace Text

variable {sep c : Char} {s : CodeState} {t : Text}

/-! ## Separators -/

/-- The occurrences of a character outside literals and brackets, in a text that is read from a
state, offsets counted from `index`. -/
def separatorsFrom (sep : Char) (s : CodeState) (index : Nat) (t : Text) : List CodeChar :=
  (codeCharsFrom s index t).filter (isSeparator sep)

/-- The occurrences of a character outside literals and brackets. -/
def separators (sep : Char) (t : Text) : List CodeChar := separatorsFrom sep .start 0 t

lemma separatorsFrom_cons (h : ((s.step c).2 == some 0 && c == sep) = true) (index : Nat)
    (rest : Text) : separatorsFrom sep s index (c :: rest) =
      ⟨index, c, 0⟩ :: separatorsFrom sep (s.step c).1 (index + c.utf8Size) rest := by
  rw [Bool.and_eq_true, beq_iff_eq, beq_iff_eq] at h
  rw [separatorsFrom, codeCharsFrom, h.1]
  exact List.filter_cons_of_pos (by simp [isSeparator, h.2])

lemma separatorsFrom_cons_other (h : ((s.step c).2 == some 0 && c == sep) = false) (index : Nat)
    (rest : Text) : separatorsFrom sep s index (c :: rest) =
      separatorsFrom sep (s.step c).1 (index + c.utf8Size) rest := by
  rw [separatorsFrom, codeCharsFrom]
  cases hd : (s.step c).2 with
  | none => rfl
  | some depth =>
    have hother : ¬isSeparator sep ⟨index, c, depth⟩ = true := by
      rw [hd, Option.some_beq_some, Bool.and_comm] at h
      exact Bool.eq_false_iff.mp h
    exact List.filter_cons_of_neg hother

/-- Whether there are separators does not depend on where offsets are counted from. -/
lemma separatorsFrom_eq_nil_iff {index : Nat} : separatorsFrom sep s index t = [] ↔
    ∀ head rest, t = head ++ sep :: rest → ((s.run head).step sep).2 ≠ some 0 := by
  rw [separatorsFrom, List.filter_eq_nil_iff]
  constructor
  · intro h head rest ht htop
    exact h ⟨index + byteLength head, sep, 0⟩
      (mem_codeCharsFrom_iff.mpr ⟨head, rest, ht, rfl, htop⟩) (by simp [isSeparator])
  · intro h k hk hsep
    obtain ⟨head, rest, ht, -, hdepth⟩ := mem_codeCharsFrom_iff.mp hk
    rw [isSeparator, Bool.and_eq_true, beq_iff_eq, beq_iff_eq] at hsep
    rw [hsep.1, hsep.2] at hdepth
    rw [hsep.1] at ht
    exact h head rest ht hdepth

/-- A piece that is read from where it starts has no separator. For the first piece this is the
state of the reader, and for the others the start. -/
lemma separatorsFrom_piecesFrom (hquote : isQuote sep = false) (hopener : isOpener sep = false)
    (hs : s.Sound) (index : Nat) (t : Text) :
    separatorsFrom sep s index (piecesFrom sep s t).1 = [] ∧
      ∀ piece ∈ (piecesFrom sep s t).2, separators sep piece = [] := by
  induction t generalizing s index with
  | nil => exact ⟨rfl, fun piece hpiece => absurd hpiece List.not_mem_nil⟩
  | cons c rest ih =>
    obtain ⟨hfirst, hlater⟩ := ih (hs.step c) (index + c.utf8Size)
    cases hc : (s.step c).2 == some 0 && c == sep with
    | true =>
      rw [piecesFrom_separator hc]
      obtain ⟨htop, rfl⟩ : (s.step c).2 = some 0 ∧ c = sep := by simpa using hc
      have hstart := hs.step_sep htop hquote hopener
      refine ⟨rfl, fun piece hpiece => ?_⟩
      rcases List.mem_cons.mp hpiece with rfl | hpiece
      · rw [hstart] at hfirst ⊢
        exact separatorsFrom_eq_nil_iff.mpr (separatorsFrom_eq_nil_iff.mp hfirst)
      · exact hlater piece hpiece
    | false =>
      rw [piecesFrom_inside hc, separatorsFrom_cons_other hc]
      exact ⟨hfirst, hlater⟩

lemma separators_of_mem_rawPieces (hquote : isQuote sep = false) (hopener : isOpener sep = false)
    {piece : Text} (hpiece : piece ∈ rawPieces sep t) : separators sep piece = [] := by
  obtain ⟨hfirst, hlater⟩ :=
    separatorsFrom_piecesFrom hquote hopener CodeState.sound_start 0 t
  rcases List.mem_cons.mp hpiece with rfl | hpiece
  · exact hfirst
  · exact hlater piece hpiece

/-- Blanks in front of a text and behind it do not make a separator. -/
lemma separators_eq_nil_of_margins {front piece back : Text} (hfront : front.isAllBlank = true)
    (h : separators sep (front ++ (piece ++ back)) = []) : separators sep piece = [] := by
  refine separatorsFrom_eq_nil_iff.mpr fun head rest ht => ?_
  have hnone := separatorsFrom_eq_nil_iff.mp h (front ++ head) (rest ++ back) (by simp [ht])
  rwa [CodeState.run_append, CodeState.run_blanks rfl hfront] at hnone

/-! ## Segments -/

/-- The ranges between separators that stand at given offsets, from an offset on up to the end. -/
def segmentsFrom (sep : Char) (stop start : Nat) : List Nat → List (Nat × Nat)
  | [] => [(start, stop)]
  | mark :: marks => (start, mark) :: segmentsFrom sep stop (mark + sep.utf8Size) marks

/-- The ranges of a text between its separators. -/
def segments (sep : Char) (t : Text) : List (Nat × Nat) :=
  segmentsFrom sep (byteLength t) 0 ((separators sep t).map CodeChar.index)

lemma length_segmentsFrom (sep : Char) (stop start : Nat) (marks : List Nat) :
    (segmentsFrom sep stop start marks).length = marks.length + 1 := by
  induction marks generalizing start with
  | nil => rfl
  | cons mark marks ih => rw [segmentsFrom, List.length_cons, ih, List.length_cons]

lemma length_segments (sep : Char) (t : Text) :
    (segments sep t).length = (separators sep t).length + 1 := by
  rw [segments, length_segmentsFrom, List.length_map]

/-- The reader cuts out the segments that end at the separators it comes to. -/
lemma cutSegments?_eq_mapM (sep : Char) (t : Text) (start : Nat) (marks : List CodeChar) :
    cutSegments? sep t start marks =
      (segmentsFrom sep (byteLength t) start
        ((marks.filter (isSeparator sep)).map CodeChar.index)).mapM
          fun range => (slice? t range.1 range.2).map fun raw => (range.1, raw) := by
  induction marks generalizing start with
  | nil =>
    rw [cutSegments?, List.filter_nil, List.map_nil, segmentsFrom, List.mapM_cons]
    cases slice? t start (byteLength t) <;> rfl
  | cons c rest ih =>
    rw [cutSegments?]
    split
    · next hsep =>
      rw [List.filter_cons_of_pos hsep, List.map_cons, segmentsFrom, List.mapM_cons, ih]
      cases slice? t start c.index <;> rfl
    · next hsep => rw [List.filter_cons_of_neg hsep, ih]

/-- Pieces with the offsets at which they start when the separator stands between them. -/
def withStarts (sep : Char) (start : Nat) : List Text → List (Nat × Text)
  | [] => []
  | piece :: pieces =>
    (start, piece) :: withStarts sep (start + byteLength piece + sep.utf8Size) pieces

@[simp] lemma map_snd_withStarts (sep : Char) (start : Nat) (pieces : List Text) :
    (withStarts sep start pieces).map Prod.snd = pieces := by
  induction pieces generalizing start with
  | nil => rfl
  | cons piece pieces ih => rw [withStarts, List.map_cons, ih]

/-- A segment that can be cut out at a range. -/
def CutAt (t : Text) (range : Nat × Nat) (segment : Nat × Text) : Prop :=
  segment.1 = range.1 ∧ slice? t range.1 range.2 = some segment.2

/-- The segments hold the pieces. The first piece may have begun with `cur`, which has been read. -/
lemma cutAt_segmentsFrom (sep : Char) (s : CodeState) {head cur rest : Text}
    (ht : t = head ++ (cur ++ rest)) : List.Forall₂ (CutAt t)
      (segmentsFrom sep (byteLength t) (byteLength head)
        ((separatorsFrom sep s (byteLength head + byteLength cur) rest).map CodeChar.index))
      (withStarts sep (byteLength head)
        ((cur ++ (piecesFrom sep s rest).1) :: (piecesFrom sep s rest).2)) := by
  induction rest generalizing s head cur with
  | nil =>
    refine .cons ⟨rfl, ?_⟩ .nil
    change slice? t (byteLength head) (byteLength t) = some (cur ++ [])
    rw [ht]
    exact slice?_tail head (cur ++ [])
  | cons c rest ih =>
    cases hc : (s.step c).2 == some 0 && c == sep with
    | true =>
      rw [separatorsFrom_cons hc, piecesFrom_separator hc, List.append_nil]
      obtain ⟨-, rfl⟩ : (s.step c).2 = some 0 ∧ c = sep := by simpa using hc
      have hnext : t = (head ++ (cur ++ [c])) ++ ([] ++ rest) := by simp [ht]
      have hmore := ih (s.step c).1 hnext
      rw [byteLength_nil, Nat.add_zero, byteLength_append, byteLength_append, byteLength_cons,
        byteLength_nil, Nat.add_zero, ← Nat.add_assoc] at hmore
      refine .cons ⟨rfl, ?_⟩ hmore
      change slice? t (byteLength head) (byteLength head + byteLength cur) = some cur
      rw [ht]
      exact slice?_append head cur (c :: rest)
    | false =>
      rw [separatorsFrom_cons_other hc, piecesFrom_inside hc]
      have hnext : t = head ++ ((cur ++ [c]) ++ rest) := by simp [ht]
      have hmore := ih (s.step c).1 hnext
      rw [byteLength_append, byteLength_cons, byteLength_nil, Nat.add_zero, ← Nat.add_assoc,
        List.append_assoc, List.singleton_append] at hmore
      exact hmore

lemma cutAt_segments (sep : Char) (t : Text) : List.Forall₂ (CutAt t) (segments sep t)
    (withStarts sep 0 (rawPieces sep t)) :=
  cutAt_segmentsFrom sep .start (show t = [] ++ ([] ++ t) from rfl)

/-- Ranges that can all be cut out can be cut out one after the other. -/
lemma mapM_of_cutAt {ranges : List (Nat × Nat)} {cut : List (Nat × Text)}
    (h : List.Forall₂ (CutAt t) ranges cut) :
    (ranges.mapM fun range => (slice? t range.1 range.2).map fun raw => (range.1, raw)) =
      some cut := by
  induction h with
  | nil => rfl
  | cons hfirst _ ih =>
    rw [List.mapM_cons, hfirst.2, ih, ← hfirst.1]
    rfl

/-- The reader gets to the end of a text, and what it cuts out are the pieces. -/
lemma cutSegments?_codeChars (sep : Char) (t : Text) :
    cutSegments? sep t 0 (codeChars t) = some (withStarts sep 0 (rawPieces sep t)) :=
  (cutSegments?_eq_mapM sep t 0 (codeChars t)).trans (mapM_of_cutAt (cutAt_segments sep t))

/-- The pieces with their places. -/
lemma locatedPieces?_eq (sep : Char) (t : Text) :
    locatedPieces? sep t = some ((withStarts sep 0 (rawPieces sep t)).map locate) := by
  rw [locatedPieces?, cutSegments?_codeChars]
  rfl

/-! ## Places -/

/-- What is inside a piece that can be cut out can be cut out as well. -/
lemma slice?_inside {start stop : Nat} {front piece back : Text}
    (h : slice? t start stop = some (front ++ (piece ++ back))) :
    slice? t (start + byteLength front) (start + byteLength front + byteLength piece) = some piece ∧
      start + byteLength front + byteLength piece ≤ stop := by
  obtain ⟨head, tail, rfl, rfl, rfl⟩ := slice?_eq_some_iff.mp h
  refine ⟨slice?_eq_some_iff.mpr ⟨head ++ front, back ++ tail, by simp, by simp, rfl⟩, ?_⟩
  rw [byteLength_append, byteLength_append]
  omega

/-- A piece without its margins stands behind the blanks that the piece starts with. -/
lemma locate_indentation (start : Nat) (raw : Text) :
    locate (start, raw) = (start + byteLength raw.indentation, raw.trim) := by
  have hlength : byteLength raw = byteLength raw.indentation + byteLength raw.trimStart := by
    rw [← byteLength_append]
    exact congrArg byteLength List.takeWhile_append_dropWhile.symm
  rw [locate, hlength, Nat.add_sub_cancel]

lemma locate_eq (start : Nat) (raw : Text) : ∃ front back : Text,
    raw = front ++ (raw.trim ++ back) ∧ front.isAllBlank = true ∧ back.isAllBlank = true ∧
      locate (start, raw) = (start + byteLength front, raw.trim) := by
  obtain ⟨back, hback, hall⟩ := dropEnd_append isBlank raw.trimStart
  refine ⟨raw.indentation, back, ?_, List.all_takeWhile, hall, locate_indentation start raw⟩
  rw [trim, trimEnd, ← hback]
  exact List.takeWhile_append_dropWhile.symm

/-- A piece with its place is what stands in a segment, without blank margins. -/
structure StandsIn (t : Text) (range : Nat × Nat) (p : Nat × Text) : Prop where
  trimmed : (slice? t range.1 range.2).map trim = some p.2
  place : slice? t p.1 (p.1 + byteLength p.2) = some p.2
  start_le : range.1 ≤ p.1
  le_stop : p.1 + byteLength p.2 ≤ range.2

lemma CutAt.standsIn {range : Nat × Nat} {segment : Nat × Text} (h : CutAt t range segment) :
    StandsIn t range (locate segment) := by
  obtain ⟨start, raw⟩ := segment
  obtain ⟨hstart, hcut⟩ : start = range.1 ∧ slice? t range.1 range.2 = some raw := h
  obtain ⟨front, back, hraw, -, -, hlocate⟩ := locate_eq start raw
  have hinside := hcut
  rw [hraw] at hinside
  obtain ⟨hplace, hle⟩ := slice?_inside hinside
  rw [hlocate, hstart]
  exact ⟨by rw [hcut]; rfl, hplace, Nat.le_add_right _ _, hle⟩

/-- The two readers of separated text come to the same pieces. Each of them is a segment between
consecutive separators, without blank margins, at the offset that is reported with it. No piece has
a separator when it is read on its own. -/
theorem splitTopLevel_eq_locatedPieces (hquote : isQuote sep = false)
    (hopener : isOpener sep = false) (ht : t.isAllBlank = false) :
    ∃ located, locatedPieces? sep t = some located ∧
      splitTopLevel sep t = located.map Prod.snd ∧
      List.Forall₂ (StandsIn t) (segments sep t) located ∧
      located.length = (separators sep t).length + 1 ∧
      ∀ p ∈ located, separators sep p.2 = [] := by
  have hstands : List.Forall₂ (StandsIn t) (segments sep t)
      ((withStarts sep 0 (rawPieces sep t)).map locate) :=
    List.forall₂_map_right_iff.mpr ((cutAt_segments sep t).imp fun _ _ => CutAt.standsIn)
  refine ⟨_, locatedPieces?_eq sep t, ?_, hstands, ?_, ?_⟩
  · calc splitTopLevel sep t
        = (rawPieces sep t).map trim := if_neg (by rw [ht]; decide)
      _ = ((withStarts sep 0 (rawPieces sep t)).map Prod.snd).map trim := by
          rw [map_snd_withStarts]
      _ = ((withStarts sep 0 (rawPieces sep t)).map locate).map Prod.snd := by
          rw [List.map_map, List.map_map]
          rfl
  · rw [← hstands.length_eq, length_segments]
  · intro p hp
    obtain ⟨⟨start, raw⟩, hsegment, rfl⟩ := List.mem_map.mp hp
    have hraw := List.mem_map_of_mem (f := Prod.snd) hsegment
    rw [map_snd_withStarts] at hraw
    have hnone := separators_of_mem_rawPieces hquote hopener hraw
    obtain ⟨front, back, heq, hfront, -, hlocate⟩ := locate_eq start raw
    rw [hlocate]
    rw [heq] at hnone
    exact separators_eq_nil_of_margins hfront hnone

/-- A text with a closing bracket that nothing opens, a separator in brackets, one in a literal, a
character of two bytes and a piece at the end that is blank. -/
theorem splitTopLevel_eq_locatedPieces_stray :
    ∃ located, locatedPieces? ',' "é), f(b, c) , 'x,y', " = some located ∧
      splitTopLevel ',' "é), f(b, c) , 'x,y', " = located.map Prod.snd ∧
      List.Forall₂ (StandsIn "é), f(b, c) , 'x,y', ") (segments ',' "é), f(b, c) , 'x,y', ")
        located ∧
      located.length = (separators ',' "é), f(b, c) , 'x,y', ").length + 1 ∧
      ∀ p ∈ located, separators ',' p.2 = [] :=
  splitTopLevel_eq_locatedPieces (by decide) (by decide) (by decide)

example : (locatedPieces? ',' "é), f(b, c) , 'x,y', ").map (·.map Prod.fst) =
    some [0, 5, 15, 22] := by decide

end Text
end Marginalia
