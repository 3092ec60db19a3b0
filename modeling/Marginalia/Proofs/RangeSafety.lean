import Marginalia.Proofs.CallRanges
import Marginalia.Proofs.ScannerRanges
import Marginalia.Proofs.SentenceRanges

/-!
# Every range can be cut out

What repair, the scanner of braced sources and the sentences about conditions cut out of a text is a
range in it: its ends are in order and stand between characters. Partners are asked for of opening
brackets only. So the functions that are written with ranges always have a result, which is that of
the functions on characters. A search for a partner fails only when it is started inside a character
or past the end.
-/

namespace Marginalia.Ranged

open Text

variable {t : Text} {start stop : Nat}

/-! ## Boundaries -/

/-- A range can be cut out exactly if its ends are in order and stand between characters. -/
lemma isSome_slice?_iff : (slice? t start stop).isSome = true ↔
    start ≤ stop ∧ isBoundary t start = true ∧ isBoundary t stop = true := by
  rw [Option.isSome_iff_exists]
  constructor
  · rintro ⟨piece, h⟩
    obtain ⟨head, tail, rfl, rfl, rfl⟩ := slice?_eq_some_iff.mp h
    refine ⟨Nat.le_add_right _ _, isBoundary_append head _, ?_⟩
    exact isBoundary_iff.mpr ⟨head ++ piece, tail, by simp, byteLength_append head piece⟩
  · rintro ⟨hle, hstart, hstop⟩
    obtain ⟨head, tail, rfl, rfl⟩ := isBoundary_iff.mp hstart
    obtain ⟨head', tail', heq, rfl⟩ := isBoundary_iff.mp hstop
    rcases List.append_eq_append_iff.mp heq with ⟨piece, rfl, rfl⟩ | ⟨piece, rfl, rfl⟩
    · exact ⟨piece, by rw [byteLength_append]; exact slice?_append head piece tail'⟩
    · -- The ends are in order, so nothing stands between them.
      rw [byteLength_append] at hle
      obtain rfl : piece = [] := byteLength_eq_zero_iff.mp (by omega)
      exact ⟨[], slice?_eq_some_iff.mpr ⟨head', tail, by simp, by simp, by simp⟩⟩

lemma utf8Size_eq_one {c : Char} (h : c.toNat < 128) : c.utf8Size = 1 := by
  refine Char.utf8Size_eq_one_iff.mpr (UInt32.le_iff_toNat_le.mpr ?_)
  exact Nat.le_of_lt_succ h

/-- Behind an ASCII character there is a boundary one byte further. -/
lemma isBoundary_succ {c : Char} (h : charAt? t start = some c) (hc : c.toNat < 128) :
    isBoundary t (start + 1) = true := by
  obtain ⟨rest, hrest, hhead⟩ := Option.bind_eq_some_iff.mp h
  obtain ⟨head, rfl, rfl⟩ := fromByte?_eq_some_iff.mp hrest
  obtain ⟨behind, rfl⟩ := List.head?_eq_some_iff.mp hhead
  exact isBoundary_iff.mpr ⟨head ++ [c], behind, by simp, by simp [utf8Size_eq_one hc]⟩

lemma isBoundary_codeChar {k : CodeChar} (hk : k ∈ codeChars t) :
    isBoundary t k.index = true ∧ isBoundary t (k.index + k.char.utf8Size) = true := by
  obtain ⟨head, rest, rfl, hindex, -⟩ := mem_codeChars_iff.mp hk
  rw [hindex]
  exact ⟨isBoundary_append head _, isBoundary_iff.mpr ⟨head ++ [k.char], rest, by simp, by simp⟩⟩

/-- A partner cannot be asked for exactly where no opening bracket stands. -/
lemma partner?_eq_none_iff : partner? t start = none ↔ opensAt t start = false := by
  cases hopen : opensAt t start with
  | false =>
    rw [partner?, hopen]
    exact iff_of_true rfl rfl
  | true =>
    have hbound : isBoundary t start = true := by
      cases hfrom : fromByte? t start with
      | none =>
        rw [opensAt, hfrom] at hopen
        cases hopen
      | some rest => rw [isBoundary, hfrom]; rfl
    rw [partner?, hopen, if_pos rfl, matchingClose?_eq_none_iff, hbound]

/-- The offsets that are reported for a text stand between characters. So do the offsets one further
where an ASCII character is looked for. What is no range of the text, or no place of an opening
bracket, is told apart. -/
structure Boundaries (t : Text) : Prop where
  range (start stop : Nat) : (slice? t start stop).isSome = true ↔
    start ≤ stop ∧ isBoundary t start = true ∧ isBoundary t stop = true
  codeChar (c : CodeChar) : c ∈ codeChars t →
    isBoundary t c.index = true ∧ isBoundary t (c.index + c.char.utf8Size) = true
  code (marker : Text) : isBoundary t (byteLength (Text.codePart marker t)) = true
  ascii (start : Nat) (c : Char) : charAt? t start = some c → c.toNat < 128 →
    isBoundary t (start + 1) = true
  sign (target : Char) (place : Nat) : findTopLevel? target t = some place →
    isBoundary t place = true ∧ (target.toNat < 128 → isBoundary t (place + 1) = true)
  close (start close : Nat) : matchingClose? t start = some (some close) →
    isBoundary t close = true ∧ isBoundary t (close + 1) = true
  partner (start : Nat) : partner? t start = none ↔ opensAt t start = false
  request (start : Nat) : matchingClose? t start = none ↔ isBoundary t start = false

lemma boundaries (t : Text) : Boundaries t where
  range _ _ := isSome_slice?_iff
  codeChar _ := isBoundary_codeChar
  code marker := isBoundary_codePart marker t
  ascii _ _ := isBoundary_succ
  sign target place h := by
    obtain ⟨hplace, hbehind⟩ := isBoundary_findTopLevel? h
    refine ⟨hplace, fun hascii => ?_⟩
    rwa [utf8Size_eq_one hascii] at hbehind
  close _ _ := isBoundary_matchingClose?
  partner _ := partner?_eq_none_iff
  request _ := matchingClose?_eq_none_iff

/-! ## Readers -/

/-- What is cut out of a text is what it is read as. -/
structure ReadsText (t : Text) : Prop where
  indentation : indentation? t = some t.indentation
  codePart (marker : Text) : codePart? marker t = some (Text.codePart marker t)
  sign (target : Char) : findTopLevel? target t =
    ((codeChars t).find? (isSeparator target)).map CodeChar.index
  behindSign (sign : Char) : behindTopLevel? sign t =
    some ((Text.splitTopLevel? sign t).map fun p => p.2.drop 1)
  group : firstGroup? t = some (Text.firstGroup? t)
  pieces (sep : Char) : splitTopLevel? sep t = some (splitTopLevel sep t)
  located (sep : Char) : locatedPieces? sep t =
    some ((withStarts sep 0 (rawPieces sep t)).map locate)
  sides (comparison : Sentence.Comparison) : sides? (.ofText t) comparison =
    some ((Sentence.Condition.ofText t).sides? comparison)

lemma readsText (t : Text) : ReadsText t where
  indentation := indentation?_eq t
  codePart marker := codePart?_eq marker t
  sign target := findTopLevel?_eq_find? target t
  behindSign sign := behindTopLevel?_eq sign t
  group := firstGroup?_eq t
  pieces sep := splitTopLevel?_eq sep t
  located sep := locatedPieces?_eq sep t
  sides := sides?_eq t

open Braced in
/-- What the scanner of braced sources cuts out of a line is what it reads. -/
structure ScansLine (line : Text) : Prop where
  feed (l : Language) (s : Scanner) : feed? l s line = some (s.feed l line)
  params : paramsOf? line = some (paramsOf line)
  methodBody : methodBody? line =
    some ((scriptMethod.matchStart? line).map fun m => bodyFollows ('(' :: m.rest))
  callArgument (function : Text) : callArgument? function line =
    some (((callForm function).find? line).map fun p =>
      (Text.firstGroup? (line.drop p.1.length)).map trim)
  loop : forHeader? line = some (forHeader line)

lemma scansLine (line : Text) : ScansLine line where
  feed l s := feed?_eq l s line
  params := paramsOf?_eq line
  methodBody := methodBody?_eq line
  callArgument function := callArgument?_eq function line
  loop := forHeader?_eq line

open Repair in
/-- What repair cuts out of a text, of a line or of the code of a line is what it reads, and what it
puts together is what it makes of it. -/
structure MendsText (t : Text) : Prop where
  entities : decodeEntities? t = some (decodeEntities t)
  comment : splitComment? t = some (splitComment t)
  colon : hasPlainSign? ':' t = some (hasHeaderColon t)
  condition : compareInCondition? t = some (Repair.compareInCondition? t)
  isNone : replaceOutside? "==" " is None" t = some (substitute? (noneRule "==" " is None") t)
  isNotNone : replaceOutside? "!=" " is not None" t =
    some (substitute? (noneRule "!=" " is not None") t)
  mutableDefault : hasMutableDefault? t = some (hasMutableDefault t)
  keys : guardKeys? t = some (Repair.guardKeys? t)
  printed (texts : List Text) : convertPrinted? texts t = some (Repair.convertPrinted? texts t)
  input (later : List (LineInfo × Text)) : convertInput? later t =
    some (Repair.convertInput? later t)
  calls (arities : Arities) (fuel : Nat) : completeCallsWithin? arities fuel t =
    some (completeCallsWithin arities fuel t)

lemma mendsText (t : Text) : MendsText t where
  entities := decodeEntities?_eq t
  comment := splitComment?_eq t
  colon := hasPlainSign?_colon t
  condition := compareInCondition?_eq t
  isNone := replaceOutside?_eq (by decide) (by decide) t
  isNotNone := replaceOutside?_eq (by decide) (by decide) t
  mutableDefault := hasMutableDefault?_eq t
  keys := guardKeys?_eq t
  printed texts := convertPrinted?_eq texts t
  input later := convertInput?_eq later t
  calls arities fuel := completeCallsWithin?_eq arities fuel t

/-- Whatever a text holds, no range that is cut out of it is missing, and no partner is asked for of
anything but an opening bracket. A search for a partner that is started at a given offset fails
exactly if the offset is inside a character or past the end. -/
theorem no_slice_fails (t : Text) :
    Boundaries t ∧ ReadsText t ∧ ScansLine t ∧ MendsText t :=
  ⟨boundaries t, readsText t, scansLine t, mendsText t⟩

example : compareInCondition? "if é = 'ü=' and (ß := n):" =
    some (some ("if é == 'ü=' and (ß := n):" : Text)) := by decide

end Marginalia.Ranged
