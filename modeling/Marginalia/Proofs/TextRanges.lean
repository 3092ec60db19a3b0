import Marginalia.Proofs.LiteralLayout
import Marginalia.Proofs.LocatedPieces
import Marginalia.Proofs.Partners
import Marginalia.Ranged.Text

/-!
# Ranges of code

No range that is cut out of code lies outside of it, or ends inside a character. So what is read by
ranges is what is read character by character.
-/

namespace Marginalia.Ranged

open Text

variable {head tail inside after t : Text} {opener closer c target : Char} {s : CodeState}

/-! ## Offsets -/

lemma from?_append (head tail : Text) : from? (head ++ tail) (byteLength head) = some tail :=
  slice?_tail head tail

lemma from?_of_eq (head : Text) (h : t = head ++ tail) {start : Nat}
    (hstart : byteLength head = start) : from? t start = some tail := by
  rw [h, ← hstart]
  exact from?_append head tail

lemma upTo_of_eq (h : t = head ++ tail) {stop : Nat} (hstop : byteLength head = stop) :
    slice? t 0 stop = some head := by
  rw [h, ← hstop]
  exact slice?_head head tail

lemma slice?_of_eq {piece : Text} (head tail : Text) (h : t = head ++ (piece ++ tail))
    {start stop : Nat} (hstart : byteLength head = start) (hstop : start + byteLength piece = stop) :
    slice? t start stop = some piece :=
  slice?_eq_some_iff.mpr ⟨head, tail, h, hstart, hstop⟩

lemma opensAt_append (head rest : Text) (c : Char) :
    opensAt (head ++ c :: rest) (byteLength head) = isOpener c := by
  rw [opensAt, fromByte?_append]
  rfl

/-- Where the partner stands of a bracket that follows the beginning of a text. -/
lemma partner?_of_eq (h : closerOf? opener = some closer) {rest : Text}
    (ht : t = head ++ opener :: rest) {start : Nat} (hstart : byteLength head = start) :
    partner? t start =
      some ((bracketed? (opener :: rest)).map fun p => start + 1 + byteLength p.1) := by
  subst ht hstart
  have hopen : isOpener opener = true := by rw [← isSome_closerOf?, h]; rfl
  obtain ⟨hone, -⟩ := utf8Size_of_closerOf? h
  rw [partner?, opensAt_append, if_pos hopen, matchingClose?_append, bracketed?, Option.map_map]
  cases hsplit : splitAtPartner? (opener :: rest) with
  | none => rfl
  | some p =>
    obtain ⟨front, tail⟩ := p
    obtain ⟨opener', closer', inside, after, -, rfl, -, heq⟩ := exists_of_splitAtPartner? hsplit
    obtain ⟨rfl, -⟩ := List.cons.inj heq
    simp [hone, Nat.add_assoc]

/-- What stands in parentheses, and behind them. -/
lemma eq_of_bracketed_opener (h : closerOf? opener = some closer) {rest : Text}
    (hbracket : bracketed? (opener :: rest) = some (inside, after)) :
    rest = inside ++ closer :: after := by
  obtain ⟨opener', closer', hcloser, hsplit⟩ := bracketed?_eq_some_iff_partner.mp hbracket
  obtain ⟨rfl, hrest⟩ := List.cons.inj (eq_of_splitAtPartner? hsplit)
  obtain rfl : closer = closer' := Option.some.inj (h.symm.trans hcloser)
  exact hrest

section

variable {start : Nat} (ht : t = head ++ '(' :: (inside ++ ')' :: after))
  (hstart : byteLength head = start)

include ht hstart

lemma slice?_between : slice? t (start + 1) (start + 1 + byteLength inside) = some inside :=
  slice?_of_eq (head ++ ['(']) (')' :: after) (by rw [ht]; simp) (by rw [← hstart]; simp; rfl) rfl

lemma from?_closer : from? t (start + 1 + byteLength inside) = some (')' :: after) := by
  have hopen : '('.utf8Size = 1 := rfl
  exact from?_of_eq (head ++ '(' :: inside) (by rw [ht]; simp)
    (by rw [← hstart]; simp [hopen, Nat.add_assoc])

lemma from?_after : from? t (start + 1 + byteLength inside + 1) = some after := by
  have hopen : '('.utf8Size = 1 := rfl
  have hclose : ')'.utf8Size = 1 := rfl
  exact from?_of_eq (head ++ ('(' :: inside ++ [')'])) (by rw [ht]; simp)
    (by rw [← hstart]; simp [hopen, hclose, Nat.add_assoc])

end

/-! ## Lines -/

lemma indentation?_eq (t : Text) : indentation? t = some t.indentation := by
  have happ : t = t.indentation ++ trimStart t := List.takeWhile_append_dropWhile.symm
  have hlength : byteLength t - byteLength (trimStart t) = byteLength t.indentation := by
    have h := congrArg byteLength happ
    rw [byteLength_append] at h
    omega
  rw [indentation?, hlength]
  exact upTo_of_eq happ rfl

lemma head?_of_startsWith {mark : Text} (hmark : mark ≠ [])
    (h : startsWith (c :: tail) mark = true) : mark.head? = some c := by
  obtain ⟨m, mark, rfl⟩ := List.exists_cons_of_ne_nil hmark
  obtain ⟨rest, heq⟩ := (startsWith_iff _ _).mp h
  rw [(List.cons.inj heq).1]
  rfl

/-- The search for a marker goes through the code of the line from any place on. -/
lemma beforeMarker?_eq {marker line rest : Text} (hmarker : marker ≠ [])
    (hline : line = head ++ rest) (s : CodeState) :
    beforeMarker? marker line (codeCharsFrom s (byteLength head) rest) =
      some (trimEnd (((splitAtCode? (fun _ t => t.startsWith marker) s rest).map
        fun p => head ++ p.1).getD line)) := by
  induction rest generalizing s head with
  | nil => rfl
  | cons c rest ih =>
    have hlater := ih (show line = (head ++ [c]) ++ rest by rw [hline]; simp) (s.step c).1
    rw [byteLength_append, byteLength_cons, byteLength_nil, Nat.add_zero] at hlater
    have hskip : beforeMarker? marker line
        (codeCharsFrom (s.step c).1 (byteLength head + c.utf8Size) rest) =
        some (trimEnd ((((splitAtCode? (fun _ t => t.startsWith marker) (s.step c).1 rest).map
          fun p => (c :: p.1, p.2)).map fun p => head ++ p.1).getD line)) := by
      rw [hlater, Option.map_map]
      simp [Function.comp_def]
    cases hstep : (s.step c).2 with
    | none =>
      rw [codeCharsFrom, splitAtCode?, hstep]
      exact hskip
    | some depth =>
      have hhere : from? line (byteLength head) = some (c :: rest) := from?_of_eq _ hline rfl
      rw [codeCharsFrom, splitAtCode?, hstep]
      dsimp only
      rw [beforeMarker?]
      cases hstarts : startsWith (c :: rest) marker with
      | true =>
        have hc : marker.head? = some c := head?_of_startsWith hmarker hstarts
        have hfront : slice? line 0 (byteLength head) = some head := upTo_of_eq hline rfl
        rw [if_pos (by rw [hc]; exact beq_self_eq_true _), hhere]
        dsimp only [Option.bind_eq_bind, Option.bind_some]
        rw [hstarts, if_pos rfl, if_pos rfl, hfront]
        simp
      | false =>
        rw [if_neg Bool.false_ne_true]
        split
        · rw [hhere]
          dsimp only [Option.bind_eq_bind, Option.bind_some]
          rw [hstarts, if_neg Bool.false_ne_true]
          exact hskip
        · exact hskip

lemma codePart?_eq (marker line : Text) : codePart? marker line = some (codePart marker line) := by
  rw [codePart?, codePart]
  cases hmarker : marker.isEmpty with
  | true => rfl
  | false =>
    have hne : marker ≠ [] := by
      rintro rfl
      cases hmarker
    have hfound := beforeMarker?_eq hne (List.nil_append line).symm .start
    rw [if_neg Bool.false_ne_true, if_neg Bool.false_ne_true]
    refine hfound.trans ?_
    cases splitAtCode? (fun _ t => t.startsWith marker) .start line <;> rfl

/-! ## Signs outside literals and brackets -/

/-- The first sign is the first of the code characters that are the sign and stand outside
brackets. -/
lemma find?_codeCharsFrom (target : Char) (s : CodeState) (index : Nat) (t : Text) :
    ((codeCharsFrom s index t).find? (isSeparator target)).map CodeChar.index =
      (splitAtCode? (fun depth t => depth == 0 && t.head? == some target) s t).map
        fun p => index + byteLength p.1 := by
  induction t generalizing s index with
  | nil => rfl
  | cons c rest ih =>
    have hlater : ((codeCharsFrom (s.step c).1 (index + c.utf8Size) rest).find?
        (isSeparator target)).map CodeChar.index =
        ((splitAtCode? (fun depth t => depth == 0 && t.head? == some target) (s.step c).1 rest).map
          fun p => (c :: p.1, p.2)).map fun p => index + byteLength p.1 := by
      rw [ih, Option.map_map]
      simp [Function.comp_def, Nat.add_assoc]
    rw [codeCharsFrom, splitAtCode?]
    cases (s.step c).2 with
    | none => exact hlater
    | some depth =>
      have hsame : isSeparator target ⟨index, c, depth⟩ =
          (depth == 0 && (c :: rest).head? == some target) := by
        rw [isSeparator, Bool.and_comm]
        rfl
      dsimp only
      rw [List.find?_cons, hsame]
      cases (depth == 0 && (c :: rest).head? == some target) with
      | true => rfl
      | false => exact hlater

lemma findTopLevel?_eq_find? (target : Char) (t : Text) :
    findTopLevel? target t = ((codeChars t).find? (isSeparator target)).map CodeChar.index := by
  rw [codeChars, find?_codeCharsFrom, findTopLevel?, Text.splitTopLevel?]
  simp only [Nat.zero_add]

lemma eq_of_behind_sign (h : Text.splitTopLevel? target t = some (head, tail)) :
    ∃ behind, tail = target :: behind ∧ t = head ++ target :: behind := by
  obtain ⟨-, c, behind, depth, rfl, -, hstop⟩ := of_splitAtCode? (fun _ _ _ _ => rfl) h
  rw [Bool.and_eq_true, beq_iff_eq, beq_iff_eq, List.head?_cons, Option.some.injEq] at hstop
  obtain ⟨-, rfl⟩ := hstop
  exact ⟨behind, rfl, eq_of_splitAtCode? h⟩

lemma behindTopLevel?_eq (target : Char) (t : Text) :
    behindTopLevel? target t = some ((Text.splitTopLevel? target t).map fun p => p.2.drop 1) := by
  rw [behindTopLevel?, findTopLevel?]
  cases hsplit : Text.splitTopLevel? target t with
  | none => rfl
  | some p =>
    obtain ⟨head, tail⟩ := p
    obtain ⟨behind, rfl, ht⟩ := eq_of_behind_sign hsplit
    have hbehind : from? t (byteLength head + target.utf8Size) = some behind :=
      from?_of_eq (head ++ [target]) (by rw [ht]; simp) (by simp)
    rw [Option.map_some]
    dsimp only
    rw [hbehind]
    rfl

/-! ## Parentheses and pieces -/

lemma firstGroup?_eq (t : Text) : firstGroup? t = some (Text.firstGroup? t) := by
  rw [firstGroup?, Text.firstGroup?]
  cases hsplit : splitAtChar? '(' t with
  | none => rfl
  | some p =>
    obtain ⟨head, tail⟩ := p
    obtain ⟨-, rest, rfl, rfl⟩ := splitAtChar?_eq_some_iff.mp hsplit
    have hparen : closerOf? '(' = some ')' := rfl
    dsimp only
    rw [partner?_of_eq hparen rfl rfl, Option.bind_eq_bind, Option.bind_some, Option.bind_some]
    cases hbracket : bracketed? ('(' :: rest) with
    | none => rfl
    | some p =>
      obtain ⟨inside, after⟩ := p
      obtain rfl := eq_of_bracketed_opener hparen hbracket
      dsimp only [Option.map_some]
      rw [slice?_between rfl rfl]
      rfl

lemma splitTopLevel?_eq (sep : Char) (t : Text) :
    splitTopLevel? sep t = some (splitTopLevel sep t) := by
  rw [splitTopLevel?, splitTopLevel, Repair.LayoutState.isEmpty_trim, cutSegments?_codeChars]
  split
  · rfl
  · refine congrArg some ?_
    calc (withStarts sep 0 (rawPieces sep t)).map (fun segment => segment.2.trim)
        = ((withStarts sep 0 (rawPieces sep t)).map Prod.snd).map trim := by
          rw [List.map_map]
          rfl
      _ = (rawPieces sep t).map trim := by rw [map_snd_withStarts]

/-! ## Boundaries -/

/-- The code of a line ends between characters. -/
lemma isBoundary_codePart (marker line : Text) :
    isBoundary line (byteLength (codePart marker line)) = true := by
  obtain ⟨tail, hline⟩ := codePart_isPrefix marker line
  exact isBoundary_iff.mpr ⟨_, tail, hline.symm, rfl⟩

/-- A sign stands between characters, and so does what is behind it. -/
lemma isBoundary_findTopLevel? {place : Nat} (h : findTopLevel? target t = some place) :
    isBoundary t place = true ∧ isBoundary t (place + target.utf8Size) = true := by
  obtain ⟨⟨head, tail⟩, hsplit, rfl⟩ := Option.map_eq_some_iff.mp h
  obtain ⟨behind, -, ht⟩ := eq_of_behind_sign hsplit
  refine ⟨isBoundary_iff.mpr ⟨head, _, ht, rfl⟩, ?_⟩
  exact isBoundary_iff.mpr ⟨head ++ [target], behind, by rw [ht]; simp, by simp⟩

/-- The partner of a bracket stands between characters, and so does what is behind it. -/
lemma isBoundary_matchingClose? {start close : Nat}
    (h : matchingClose? t start = some (some close)) :
    isBoundary t close = true ∧ isBoundary t (close + 1) = true := by
  obtain ⟨rest, hrest, hclose⟩ := Option.map_eq_some_iff.mp h
  obtain ⟨head, rfl, rfl⟩ := fromByte?_eq_some_iff.mp hrest
  obtain ⟨⟨front, tail⟩, hsplit, rfl⟩ := Option.map_eq_some_iff.mp hclose
  obtain ⟨opener, closer, inside, after, hcloser, rfl, rfl, rfl⟩ :=
    exists_of_splitAtPartner? hsplit
  obtain ⟨-, hone⟩ := utf8Size_of_closerOf? hcloser
  refine ⟨isBoundary_iff.mpr ⟨head ++ opener :: inside, closer :: after, by simp, by simp⟩, ?_⟩
  refine isBoundary_iff.mpr ⟨head ++ (opener :: inside ++ [closer]), after, by simp, ?_⟩
  simp [hone, Nat.add_assoc]

/-- Only an offset that does not stand between characters cannot be asked for a partner. -/
lemma matchingClose?_eq_none_iff {start : Nat} :
    matchingClose? t start = none ↔ isBoundary t start = false := by
  rw [matchingClose?, Option.map_eq_none_iff, isBoundary, Option.isSome_eq_false_iff,
    Option.isNone_iff_eq_none]

end Marginalia.Ranged
