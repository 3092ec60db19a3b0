import Marginalia.Proofs.ImprovedPitfalls
import Marginalia.Proofs.JoinedArguments
import Marginalia.Proofs.Margins
import Marginalia.Proofs.Partners
import Marginalia.Proofs.PrintedCalls
import Marginalia.Proofs.ReplacedRanges

/-!
# Wrapped operands

The operands that are converted to text in a printed sum are told by their offsets in the code. An
offset is put together from that of the call, that of the argument in the call and that of the
operand in the argument. The code is kept but for the operands, each of which is put into a call of
`str`.
-/

namespace Marginalia

namespace Text

/-! ## Pieces with margins -/

/-- Two pieces at places are the same but for margins. A blank piece has no place that matters. -/
structure SameCore (a b : Nat × Text) : Prop where
  trim : Text.trim a.2 = Text.trim b.2
  locate : Text.trim b.2 ≠ [] → Text.locate a = Text.locate b

variable {sep : Char} {start : Nat} {front back : Text}

lemma SameCore.refl (a : Nat × Text) : SameCore a a := ⟨rfl, fun _ => rfl⟩

lemma sameCore_front (hfront : front.isAllBlank = true) (start : Nat) (piece : Text) :
    SameCore (start, front ++ piece) (start + byteLength front, piece) := by
  refine ⟨trim_blanks hfront piece, fun _ => ?_⟩
  have hle : byteLength (trimStart piece) ≤ byteLength piece := by
    conv_rhs => rw [trimStart_append piece]
    rw [byteLength_append]
    exact Nat.le_add_left _ _
  rw [locate, locate, trim_blanks hfront, trimStart_blanks hfront, byteLength_append]
  refine Prod.ext ?_ rfl
  change start + (byteLength front + byteLength piece - byteLength (trimStart piece)) =
    start + byteLength front + (byteLength piece - byteLength (trimStart piece))
  omega

lemma sameCore_back (hback : back.isAllBlank = true) (start : Nat) (piece : Text) :
    SameCore (start, piece ++ back) (start, piece) := by
  refine ⟨trim_margin hback piece, fun hne => ?_⟩
  have hblank : piece.isAllBlank = false := by
    rwa [Ne, trim_eq_nil_iff, Bool.not_eq_true] at hne
  rw [locate, locate, trim_margin hback, trimStart_margin hblank, byteLength_append,
    byteLength_append, Nat.add_sub_add_right]

lemma sameCores_refl (cut : List (Nat × Text)) : List.Forall₂ SameCore cut cut :=
  List.forall₂_same.mpr fun a _ => .refl a

/-- Blanks behind a text belong to its last piece, which may have begun with `cur`. -/
lemma sameCores_back (hsep : isBlank sep = false) (hback : back.isAllBlank = true) (s : CodeState)
    (start : Nat) (cur t : Text) : List.Forall₂ SameCore
      (withStarts sep start
        ((cur ++ (piecesFrom sep s (t ++ back)).1) :: (piecesFrom sep s (t ++ back)).2))
      (withStarts sep start ((cur ++ (piecesFrom sep s t).1) :: (piecesFrom sep s t).2)) := by
  induction t generalizing s start cur with
  | nil =>
    rw [List.nil_append, piecesFrom_blanks hsep hback]
    refine .cons ?_ .nil
    change SameCore (start, cur ++ back) (start, cur ++ [])
    rw [List.append_nil]
    exact sameCore_back hback start cur
  | cons c rest ih =>
    cases hc : (s.step c).2 == some 0 && c == sep with
    | true =>
      rw [List.cons_append, piecesFrom_separator hc, piecesFrom_separator hc]
      exact .cons (.refl _) (ih (s.step c).1 _ [])
    | false =>
      have hmore := ih (s.step c).1 start (cur ++ [c])
      rw [List.append_assoc, List.append_assoc] at hmore
      rw [List.cons_append, piecesFrom_inside hc, piecesFrom_inside hc]
      exact hmore

/-- Blanks in front of a text belong to its first piece. -/
lemma rawPieces_front (hsep : isBlank sep = false) (hfront : front.isAllBlank = true) (t : Text) :
    rawPieces sep (front ++ t) =
      (front ++ (piecesFrom sep .start t).1) :: (piecesFrom sep .start t).2 := by
  have hnone : (piecesFrom sep .start front).2 = [] := by rw [piecesFrom_blanks hsep hfront]
  rw [rawPieces, piecesFrom_append hnone, CodeState.run_blanks rfl hfront]

lemma sameCores_front (hsep : isBlank sep = false) (hfront : front.isAllBlank = true) (start : Nat)
    (t : Text) : List.Forall₂ SameCore (withStarts sep start (rawPieces sep (front ++ t)))
      (withStarts sep (start + byteLength front) (rawPieces sep t)) := by
  rw [rawPieces_front hsep hfront, rawPieces, withStarts, withStarts, byteLength_append,
    ← Nat.add_assoc]
  exact .cons (sameCore_front hfront start _) (sameCores_refl _)

/-- Pieces start later when what they are cut from does. -/
lemma withStarts_add (sep : Char) (offset start : Nat) (pieces : List Text) :
    withStarts sep (offset + start) pieces =
      (withStarts sep start pieces).map fun p => (offset + p.1, p.2) := by
  induction pieces generalizing start with
  | nil => rfl
  | cons piece pieces ih =>
    rw [withStarts, withStarts, List.map_cons, ← ih, Nat.add_assoc, Nat.add_assoc, Nat.add_assoc]

/-- The located pieces of a text that starts at an offset. -/
def piecesAt (sep : Char) (start : Nat) (t : Text) : List (Nat × Text) :=
  (withStarts sep start (rawPieces sep t)).map locate

lemma locatedPieces?_eq_piecesAt (sep : Char) (t : Text) :
    locatedPieces? sep t = some (piecesAt sep 0 t) := locatedPieces?_eq sep t

lemma piecesAt_eq_map (sep : Char) (start : Nat) (t : Text) :
    piecesAt sep start t = (piecesAt sep 0 t).map fun p => (start + p.1, p.2) := by
  rw [piecesAt, ← Nat.add_zero start, withStarts_add, piecesAt, List.map_map, List.map_map]
  refine List.map_congr_left fun p _ => ?_
  simp [locate, Nat.add_assoc]

end Text

namespace Repair

open Text

variable {texts : List Text}

/-! ## Operands -/

/-- Of the operands of an argument those that are converted: names and numbers, if there are several
operands and one of them is a literal. -/
def convertedOperands (texts : List Text) (operands : List (Nat × Text)) : List (Nat × Text) :=
  if 2 ≤ operands.length && operands.any fun o => isStringLiteral o.2 then
    operands.filter fun o => isBareOperand texts o.2
  else []

/-- What is converted in an argument that starts at an offset. -/
def argumentSpans (texts : List Text) (argument : Nat × Text) : List (Nat × Text) :=
  convertedOperands texts (piecesAt '+' argument.1 argument.2)

/-- What is converted in arguments that start at an offset. -/
def convertedSpans (texts : List Text) (start : Nat) (arguments : Text) : List (Nat × Text) :=
  (piecesAt ',' start arguments).flatMap (argumentSpans texts)

/-- An operand in a call of `str`. -/
def wrap (span : Nat × Text) : Swap := ⟨span.1, span.2, "str(" ++ (span.2 ++ ")")⟩

lemma isBareOperand_nil (texts : List Text) : isBareOperand texts [] = false := rfl

lemma convertedOperands_congr {cut cut' : List (Nat × Text)}
    (h : List.Forall₂ SameCore cut cut') :
    convertedOperands texts (cut.map locate) = convertedOperands texts (cut'.map locate) := by
  have hfound : (cut.map locate).any (fun o => isStringLiteral o.2) =
        (cut'.map locate).any (fun o => isStringLiteral o.2) ∧
      (cut.map locate).filter (fun o => isBareOperand texts o.2) =
        (cut'.map locate).filter fun o => isBareOperand texts o.2 := by
    induction h with
    | nil => exact ⟨rfl, rfl⟩
    | @cons a b cut cut' hfirst _ ih =>
      have htrim : (locate a).2 = (locate b).2 := hfirst.trim
      rw [List.map_cons, List.map_cons, List.any_cons, List.any_cons, ih.1, htrim]
      refine ⟨rfl, ?_⟩
      by_cases hne : Text.trim b.2 = []
      · have hb : ¬isBareOperand texts (locate b).2 = true := by
          rw [locate, hne, isBareOperand_nil]
          exact Bool.false_ne_true
        rw [List.filter_cons, List.filter_cons, htrim, if_neg hb, if_neg hb, ih.2]
      · rw [List.filter_cons, List.filter_cons, ih.2, hfirst.locate hne]
  rw [convertedOperands, convertedOperands, hfound.1, hfound.2, List.length_map, List.length_map,
    h.length_eq]

/-- It makes no difference whether the margins of an argument are taken away first. -/
lemma argumentSpans_locate (texts : List Text) (argument : Nat × Text) :
    argumentSpans texts (locate argument) = argumentSpans texts argument := by
  obtain ⟨start, raw⟩ := argument
  obtain ⟨front, back, hraw, hfront, hback, hlocate⟩ := locate_eq start raw
  have hplus : isBlank '+' = false := by decide
  rw [hlocate, argumentSpans, argumentSpans, piecesAt, piecesAt]
  calc convertedOperands texts
        ((withStarts '+' (start + byteLength front) (rawPieces '+' raw.trim)).map locate)
      = convertedOperands texts ((withStarts '+' (start + byteLength front)
          (rawPieces '+' (raw.trim ++ back))).map locate) :=
        (convertedOperands_congr (sameCores_back hplus hback .start _ [] raw.trim)).symm
    _ = convertedOperands texts ((withStarts '+' start
          (rawPieces '+' (front ++ (raw.trim ++ back)))).map locate) :=
        (convertedOperands_congr (sameCores_front hplus hfront start _)).symm
    _ = convertedOperands texts ((withStarts '+' start (rawPieces '+' raw)).map locate) := by
        rw [← hraw]

/-- What takes the place of an operand. -/
def operandSwaps (texts : List Text) (piece : Nat × Text) : List Swap :=
  if isBareOperand texts piece.2.trim then [wrap (locate piece)] else []

lemma replaced_convertOperand (texts : List Text) (start : Nat) (piece : Text) :
    Replaced start (operandSwaps texts (start, piece)) piece (convertOperand texts piece) := by
  cases hbare : isBareOperand texts piece.trim with
  | false =>
    rw [operandSwaps, convertOperand, hbare]
    exact .nil start piece
  | true =>
    have hne : trim piece ≠ [] := by
      intro hnil
      rw [hnil, isBareOperand_nil] at hbare
      cases hbare
    obtain ⟨back, happ, -⟩ := trimEnd_append piece
    have hfront : trimEnd piece = piece.indentation ++ trim piece := by
      conv_lhs => rw [trimStart_append piece]
      exact dropEnd_append_of_ne_nil hne _
    have hdrop : piece.drop (trimEnd piece).length = back := by
      calc piece.drop (trimEnd piece).length
          = (trimEnd piece ++ back).drop (trimEnd piece).length := by rw [← happ]
        _ = back := List.drop_left
    have hpiece : piece = piece.indentation ++ (trim piece ++ back) := by
      rw [← List.append_assoc, ← hfront]
      exact happ
    have hone := Replaced.one start piece.indentation (trim piece)
      ("str(" ++ (trim piece ++ ")")) back
    rw [← hpiece] at hone
    rw [operandSwaps, convertOperand, if_pos hbare, if_pos hbare, hdrop, locate_indentation]
    simpa only [List.append_assoc, wrap] using hone

/-- What is converted in the operands of a text, one by one. -/
lemma map_wrap_filter (texts : List Text) (cut : List (Nat × Text)) :
    ((cut.map locate).filter fun o => isBareOperand texts o.2).map wrap =
      cut.flatMap (operandSwaps texts) := by
  induction cut with
  | nil => rfl
  | cons piece cut ih =>
    rw [List.map_cons, List.filter_cons, List.flatMap_cons, ← ih, operandSwaps]
    change List.map wrap (if isBareOperand texts piece.2.trim = true then _ else _) = _
    split <;> rfl

lemma replaced_convertArgument (texts : List Text) (start : Nat) (argument : Text) :
    Replaced start ((argumentSpans texts (start, argument)).map wrap) argument
      (convertArgument texts argument) := by
  have hcondition : (decide (2 ≤ (piecesAt '+' start argument).length) &&
      (piecesAt '+' start argument).any fun o => isStringLiteral o.2) =
      (decide ((rawPieces '+' argument).length ≥ 2) &&
        (rawPieces '+' argument).any fun o => isStringLiteral o.trim) := by
    have hraws := map_snd_withStarts '+' start (rawPieces '+' argument)
    conv_rhs => rw [← hraws]
    rw [piecesAt, List.length_map, List.length_map, List.any_map, List.any_map]
    rfl
  rw [argumentSpans, convertedOperands, convertArgument, hcondition]
  split
  · rw [piecesAt, map_wrap_filter]
    have hjoin := Replaced.join '+' (operandSwaps texts) (replaced_convertOperand texts) start
      (rawPieces '+' argument)
    rwa [join_rawPieces] at hjoin
  · exact .nil start argument

/-- The arguments of a call with their operands converted differ from the arguments in what takes the
place of these operands. -/
lemma replaced_convertArguments (texts : List Text) (start : Nat) (arguments : Text) :
    Replaced start ((convertedSpans texts start arguments).map wrap) arguments
      (convertArguments texts arguments) := by
  have hjoin := Replaced.join ',' (fun argument => (argumentSpans texts argument).map wrap)
    (replaced_convertArgument texts) start (rawPieces ',' arguments)
  rw [join_rawPieces] at hjoin
  rw [convertedSpans, piecesAt, List.flatMap_map, List.map_flatMap]
  simp only [argumentSpans_locate]
  exact hjoin

/-! ## Calls -/

/-- What a text is split before: the first place that satisfies the condition. -/
lemma splitAtPlace?_eq_some_iff {p : Option Char → Text → Bool} {prev : Option Char}
    {t head tail : Text} : splitAtPlace? p prev t = some (head, tail) ↔
      t = head ++ tail ∧ tail ≠ [] ∧ p (lastOf prev head) tail = true ∧
        ∀ front rest, t = front ++ rest → front.length < head.length →
          p (lastOf prev front) rest = false := by
  induction t generalizing prev head with
  | nil =>
    refine iff_of_false nofun ?_
    rintro ⟨heq, hne, -⟩
    exact hne (List.append_eq_nil_iff.mp heq.symm).2
  | cons c rest ih =>
    rw [splitAtPlace?]
    cases hp : p prev (c :: rest) with
    | true =>
      rw [if_pos rfl, Option.some.injEq, Prod.mk.injEq]
      constructor
      · rintro ⟨rfl, rfl⟩
        exact ⟨rfl, List.cons_ne_nil c rest, hp, fun _ _ _ hlt => absurd hlt (Nat.not_lt_zero _)⟩
      · rintro ⟨heq, -, -, hfirst⟩
        cases head with
        | nil => exact ⟨rfl, heq⟩
        | cons d head =>
          have hnone := hfirst [] (c :: rest) rfl (Nat.succ_pos _)
          exact absurd (hp.symm.trans hnone) Bool.true_eq_false.mp
    | false =>
      rw [if_neg Bool.false_ne_true, Option.map_eq_some_iff]
      constructor
      · rintro ⟨⟨head', tail'⟩, hsplit, hpair⟩
        obtain ⟨rfl, rfl⟩ := Prod.mk.inj hpair
        obtain ⟨rfl, hne, hplace, hfirst⟩ := ih.mp hsplit
        refine ⟨rfl, hne, by rwa [lastOf_cons], fun front rest heq hlt => ?_⟩
        cases front with
        | nil =>
          rw [← show c :: (head' ++ tail') = rest from heq]
          exact hp
        | cons d front =>
          obtain ⟨rfl, hrest⟩ := List.cons.inj heq
          rw [lastOf_cons]
          exact hfirst front rest hrest (Nat.lt_of_succ_lt_succ hlt)
      · rintro ⟨heq, hne, hplace, hfirst⟩
        cases head with
        | nil =>
          rw [← show c :: rest = tail from heq] at hplace
          exact absurd (hplace.symm.trans hp) Bool.true_eq_false.mp
        | cons d head =>
          obtain ⟨rfl, hrest⟩ := List.cons.inj heq
          rw [lastOf_cons] at hplace
          refine ⟨(head, tail), ih.mpr ⟨hrest, hne, hplace, fun front rest' heq hlt => ?_⟩, rfl⟩
          have hnone := hfirst (c :: front) rest' (by rw [heq]; rfl) (Nat.succ_lt_succ hlt)
          rwa [lastOf_cons] at hnone

/-- The first call of `print` in a line of code: the text in front of it, its arguments, and what
follows it. -/
structure FirstPrint (code head inside after : Text) : Prop where
  code_eq : code = head ++ ("print(" ++ (inside ++ (")" ++ after)))
  fresh : isFresh (lastOf none head) = true
  first : ∀ front rest, code = front ++ ("print(" ++ rest) → isFresh (lastOf none front) = true →
    head.length ≤ front.length
  closes : matchingClose? code (byteLength head + 5) =
    some (some (byteLength head + 6 + byteLength inside))

variable {code out head inside after : Text}

/-- Where the parenthesis of a call of `print` closes. -/
lemma matchingClose?_print (head inside after : Text) :
    matchingClose? (head ++ ("print(" ++ (inside ++ (")" ++ after)))) (byteLength head + 5) =
        some (some (byteLength head + 6 + byteLength inside)) ↔
      bracketed? ('(' :: (inside ++ ')' :: after)) = some (inside, after) := by
  have hparen : closerOf? '(' = some ')' := rfl
  have hclose := matchingClose?_eq_some_iff hparen (head ++ "print") inside after
  rw [byteLength_append, List.append_assoc] at hclose
  exact hclose

lemma FirstPrint.split (h : FirstPrint code head inside after) :
    splitAtPlace? (fun prev t => isFresh prev && t.startsWith "print(") none code =
      some (head, "print(" ++ (inside ++ (")" ++ after))) := by
  refine splitAtPlace?_eq_some_iff.mpr ⟨h.code_eq, by simp, ?_, fun front rest heq hlt => ?_⟩
  · rw [h.fresh, Bool.true_and]
    exact (startsWith_iff _ _).mpr ⟨_, rfl⟩
  · rw [← Bool.not_eq_true, Bool.and_eq_true]
    rintro ⟨hfresh, hstarts⟩
    obtain ⟨rest', rfl⟩ := (startsWith_iff rest _).mp hstarts
    exact absurd (h.first front rest' heq hfresh) (Nat.not_le.mpr hlt)

lemma convertPrinted?_eq_some_iff : convertPrinted? texts code = some out ↔
    ∃ head inside after, FirstPrint code head inside after ∧
      out = head ++ ("print(" ++ (convertArguments texts inside ++ (")" ++ after))) ∧
      out ≠ code := by
  simp only [convertPrinted?, Option.bind_eq_bind, Option.bind_eq_some_iff, Prod.exists]
  constructor
  · rintro ⟨head, call, hsplit, inside, after, hinside, hchanged⟩
    obtain ⟨hcode, -, hplace, hfirst⟩ := splitAtPlace?_eq_some_iff.mp hsplit
    rw [Bool.and_eq_true] at hplace
    obtain ⟨rest, rfl⟩ := (startsWith_iff call _).mp hplace.2
    have hrest : '(' :: rest = '(' :: (inside ++ ')' :: after) := eq_of_bracketed? hinside
    obtain rfl := (List.cons.inj hrest).2
    obtain ⟨rfl, hne⟩ := eq_of_changed? hchanged
    refine ⟨head, inside, after, ⟨hcode, hplace.1, fun front rest heq hfresh => ?_, ?_⟩, ?_, hne⟩
    · by_contra hlt
      have hnone := hfirst front _ heq (Nat.not_le.mp hlt)
      rw [hfresh, Bool.true_and, (startsWith_iff _ _).mpr ⟨rest, rfl⟩] at hnone
      cases hnone
    · rw [hcode]
      exact (matchingClose?_print head inside after).mpr hinside
    · simp only [List.append_assoc]
  · rintro ⟨head, inside, after, hprint, rfl, hne⟩
    have hcloses := hprint.closes
    rw [hprint.code_eq] at hcloses
    refine ⟨head, _, hprint.split, inside, after, (matchingClose?_print head inside after).mp hcloses,
      ?_⟩
    rw [changed?, if_neg]
    · simp only [List.append_assoc]
    · simpa only [List.append_assoc] using hne

/-! ## Spans -/

/-- A name or a number, not among the names that hold text, that is an operand of a sum in an
argument. The sum has at least two operands, and one of them is a literal. The arguments start at an
offset. -/
def PrintedOperand (texts : List Text) (start : Nat) (arguments : Text) (span : Nat × Text) : Prop :=
  ∃ located argument operands operand, locatedPieces? ',' arguments = some located ∧
    argument ∈ located ∧ locatedPieces? '+' argument.2 = some operands ∧ 2 ≤ operands.length ∧
    (∃ o ∈ operands, isStringLiteral o.2 = true) ∧ operand ∈ operands ∧
    isBareOperand texts operand.2 = true ∧ span = (start + argument.1 + operand.1, operand.2)

/-- Code in which pieces at certain offsets are put into a call of `str`, and nothing else is
changed. -/
structure Wrapped (code out : Text) (spans : List (Nat × Text)) : Prop where
  place : ∀ span ∈ spans, slice? code span.1 (span.1 + byteLength span.2) = some span.2
  disjoint : spans.Pairwise fun a b => a.1 + byteLength a.2 ≤ b.1
  replaced : Replaced 0 (spans.map wrap) code out

lemma mem_convertedOperands {operands : List (Nat × Text)} {span : Nat × Text} :
    span ∈ convertedOperands texts operands ↔ 2 ≤ operands.length ∧
      (∃ o ∈ operands, isStringLiteral o.2 = true) ∧ span ∈ operands ∧
        isBareOperand texts span.2 = true := by
  rw [convertedOperands]
  split
  · next h =>
    rw [Bool.and_eq_true, decide_eq_true_eq, List.any_eq_true] at h
    rw [List.mem_filter]
    exact ⟨fun hspan => ⟨h.1, h.2, hspan⟩, fun hspan => hspan.2.2⟩
  · next h =>
    rw [Bool.and_eq_true, decide_eq_true_eq, List.any_eq_true] at h
    exact iff_of_false List.not_mem_nil fun hspan => h ⟨hspan.1, hspan.2.1⟩

/-- Operands of an argument that starts at an offset. -/
lemma argumentSpans_eq_map (texts : List Text) (start : Nat) (argument : Text) :
    argumentSpans texts (start, argument) =
      (convertedOperands texts (piecesAt '+' 0 argument)).map fun o => (start + o.1, o.2) := by
  rw [argumentSpans, piecesAt_eq_map, convertedOperands, convertedOperands, List.length_map,
    List.any_map, List.filter_map]
  change (if (_ && (piecesAt '+' 0 argument).any fun o => isStringLiteral o.2) = true then _
    else _) = _
  split <;> rfl

lemma mem_convertedSpans {start : Nat} {arguments : Text} {span : Nat × Text} :
    span ∈ convertedSpans texts start arguments ↔ PrintedOperand texts start arguments span := by
  simp only [convertedSpans, piecesAt_eq_map ',' start, List.flatMap_map, List.mem_flatMap,
    argumentSpans_eq_map, List.mem_map, mem_convertedOperands, PrintedOperand,
    locatedPieces?_eq_piecesAt, Option.some.injEq]
  constructor
  · rintro ⟨argument, hargument, operand, ⟨htwo, hliteral, hoperand, hbare⟩, rfl⟩
    exact ⟨_, argument, _, operand, rfl, hargument, rfl, htwo, hliteral, hoperand, hbare, rfl⟩
  · rintro ⟨_, argument, _, operand, rfl, hargument, rfl, htwo, hliteral, hoperand, hbare, rfl⟩
    exact ⟨argument, hargument, operand, ⟨htwo, hliteral, hoperand, hbare⟩, rfl⟩

lemma wrapped_convertedSpans (texts : List Text) (head inside after : Text) :
    Wrapped (head ++ ("print(" ++ (inside ++ (")" ++ after))))
      (head ++ ("print(" ++ (convertArguments texts inside ++ (")" ++ after))))
      (convertedSpans texts (byteLength head + 6) inside) := by
  have hinside := replaced_convertArguments texts (byteLength head + 6) inside
  have hbehind := hinside.append (.nil _ (")" ++ after))
  rw [List.append_nil] at hbehind
  have hreplaced : Replaced 0 ((convertedSpans texts (byteLength head + 6) inside).map wrap)
      (head ++ ("print(" ++ (inside ++ (")" ++ after))))
      (head ++ ("print(" ++ (convertArguments texts inside ++ (")" ++ after)))) := by
    refine .behind head (.behind "print(" ?_)
    rw [Nat.zero_add]
    exact hbehind
  refine ⟨fun span hspan => ?_, List.pairwise_map.mp hreplaced.pairwise, hreplaced⟩
  exact hreplaced.slice?_old [] (wrap span) (List.mem_map_of_mem hspan)

/-- A call of `str` is heavier than what is put into it. -/
lemma wrap_heavier (span : Nat × Text) : weight (wrap span).old < weight (wrap span).new := by
  have hadded : weight ("str(" : Text) = 109 ∧ weight (")" : Text) = 0 := ⟨rfl, rfl⟩
  simp only [wrap, weight_append]
  omega

lemma Wrapped.ne_iff {spans : List (Nat × Text)} (h : Wrapped code out spans) :
    out ≠ code ↔ spans ≠ [] := by
  have hsame : out = code ↔ spans.map wrap = [] :=
    h.replaced.eq_iff <| List.forall_mem_map.mpr fun span _ => wrap_heavier span
  rw [Ne, hsame, List.map_eq_nil_iff]

/-- Spans that are in order are told by which they are. -/
lemma spans_unique {spans spans' : List (Nat × Text)}
    (h : spans.Pairwise fun a b => a.1 + byteLength a.2 ≤ b.1)
    (h' : spans'.Pairwise fun a b => a.1 + byteLength a.2 ≤ b.1)
    (hne : ∀ span ∈ spans, span.2 ≠ []) (hmem : ∀ span, span ∈ spans' ↔ span ∈ spans) :
    spans' = spans := by
  have hlt {spans : List (Nat × Text)} (h : spans.Pairwise fun a b => a.1 + byteLength a.2 ≤ b.1)
      (hne : ∀ span ∈ spans, span.2 ≠ []) : spans.Pairwise (InvImage (· < ·) Prod.fst) := by
    refine h.imp_of_mem fun {a b} ha _ hle => ?_
    have hpos := mt byteLength_eq_zero_iff.mp (hne a ha)
    change a.1 < b.1
    omega
  have : Std.Irrefl (InvImage (· < ·) (Prod.fst : Nat × Text → Nat)) := ⟨fun a => Nat.lt_irrefl a.1⟩
  have : Std.Antisymm (InvImage (· < ·) (Prod.fst : Nat × Text → Nat)) :=
    ⟨fun a b hab hba => absurd hab (Nat.lt_asymm hba)⟩
  exact (hlt h' fun span hspan => hne span ((hmem span).mp hspan)).eq_of_mem_iff (hlt h hne) hmem

/-- When the operands of a line of code are converted, a set of disjoint spans is put into calls of
`str`, and nothing else is changed. These are the names and numbers, other than names that hold text,
that are operands of sums with a literal in the first call of `print`. This happens exactly if there
are any. -/
theorem wraps_printed_operands (texts : List Text) (code out : Text) :
    convertPrinted? texts code = some out ↔
      ∃ head inside after spans, FirstPrint code head inside after ∧
        (∀ span, span ∈ spans ↔ PrintedOperand texts (byteLength head + 6) inside span) ∧
        spans ≠ [] ∧ Wrapped code out spans := by
  rw [convertPrinted?_eq_some_iff]
  constructor
  · rintro ⟨head, inside, after, hprint, rfl, hne⟩
    have hwrapped := wrapped_convertedSpans texts head inside after
    rw [← hprint.code_eq] at hwrapped
    exact ⟨head, inside, after, _, hprint, fun span => mem_convertedSpans, hwrapped.ne_iff.mp hne,
      hwrapped⟩
  · rintro ⟨head, inside, after, spans, hprint, hmem, hne, hspans⟩
    have hwrapped := wrapped_convertedSpans texts head inside after
    rw [← hprint.code_eq] at hwrapped
    have hbare : ∀ span ∈ convertedSpans texts (byteLength head + 6) inside, span.2 ≠ [] := by
      intro span hspan hnil
      obtain ⟨_, _, _, operand, _, _, _, _, _, _, hbare, heq⟩ := mem_convertedSpans.mp hspan
      rw [heq] at hnil
      rw [show operand.2 = [] from hnil, isBareOperand_nil] at hbare
      cases hbare
    obtain rfl := spans_unique hwrapped.disjoint hspans.disjoint hbare
      fun span => (hmem span).trans mem_convertedSpans.symm
    exact ⟨head, inside, after, hprint, hspans.replaced.unique hwrapped.replaced,
      hspans.ne_iff.mpr hne⟩

example : convertPrinted? ["m"] "print('é' + n, m, 'x' + (m) + m + 2.5)" =
    some "print('é' + str(n), m, 'x' + (m) + m + str(2.5))" := by decide

end Repair

end Marginalia
