import Marginalia.Proofs.NumberUses

/-!
# Input that is joined to text

Input is converted to a number if the variable that holds it is used as one. Where every occurrence
of the variable is joined to a string literal by a plus sign, the search for such uses should find
none. It finds none of the sums unless something else around them reckons, but every literal that
extends the variable: a plus sign counts unless what follows it may start text, and an equality sign
may not. Ranges and calls are found inside literals too.
-/

namespace Marginalia.Repair

open Text

/-! ## Names beside literals -/

/-- Text that starts and ends like a string literal: marks, a quote, and the same quote at its
end. -/
def IsQuoted (s : Text) : Prop :=
  ∃ marks q inside, (q = '"' ∨ q = '\'') ∧ (∀ c ∈ marks, isLiteralMark c = true) ∧
    s = marks ++ q :: (inside ++ [q])

/-- What stands before a name that is added to a literal. -/
def JoinedAhead (front : Text) : Prop :=
  ∃ lead literal gap gap' : Text, IsQuoted literal ∧ gap.isAllBlank = true ∧
    gap'.isAllBlank = true ∧ front = lead ++ (literal ++ (gap ++ '+' :: gap'))

/-- What follows a name that a literal is added to. -/
def JoinedBehind (after : Text) : Prop :=
  ∃ gap gap' literal rest : Text, IsQuoted literal ∧ gap.isAllBlank = true ∧
    gap'.isAllBlank = true ∧ after = gap ++ '+' :: (gap' ++ (literal ++ rest))

/-- What follows a name that a literal extends. -/
def ExtendedBehind (after : Text) : Prop :=
  ∃ gap gap' literal rest : Text, IsQuoted literal ∧ gap.isAllBlank = true ∧
    gap'.isAllBlank = true ∧ after = gap ++ '+' :: '=' :: (gap' ++ (literal ++ rest))

/-- Whether a name is only joined to literals in some lines. -/
def OnlyJoined (name : Text) (lines : List Text) : Prop :=
  ∀ line ∈ lines, ∀ front after, OccursAt name line front after →
    JoinedAhead front ∨ JoinedBehind after ∨ ExtendedBehind after

/-- How a name that is only joined to literals is taken for a number. -/
inductive TakenForNumber (name line : Text) : Prop
  | extended {front after : Text} (h : OccursAt name line front after)
      (hextended : ExtendedBehind after)
  | ahead {front after : Text} (h : OccursAt name line front after) (hjoined : JoinedBehind after)
      (hahead : ReckonedAhead front)
  | behind {front after : Text} (h : OccursAt name line front after) (hjoined : JoinedAhead front)
      (hbehind : ReckonedBehind after)
  | range {front after : Text} (h : OccursAt name line front after) (hrange : BoundsRange front)
  | argument {args front after : Text} (hcall : Calculation line args)
      (h : OccursAt name args front after)

variable {name line front after : Text} {lines : List Text}

/-- Texts that end alike have the same last character that is not blank. -/
lemma eq_of_blanks_behind {lead lead' gap gap' : Text} {c c' : Char}
    (hgap : gap.isAllBlank = true) (hgap' : gap'.isAllBlank = true) (hc : isBlank c = false)
    (hc' : isBlank c' = false) (h : lead ++ c :: gap = lead' ++ c' :: gap') :
    c = c' ∧ lead = lead' := by
  have hreverse : ∀ gap : Text, gap.isAllBlank = true → isAllBlank gap.reverse = true := by
    intro gap hgap
    rw [isAllBlank, List.all_reverse]
    exact hgap
  have hback := congrArg (fun t : Text => trimStart t.reverse) h
  simp only [List.reverse_append, List.reverse_cons, List.append_assoc, List.singleton_append]
    at hback
  rw [trimStart_blanks_cons (hreverse gap hgap) hc, trimStart_blanks_cons (hreverse gap' hgap') hc']
    at hback
  obtain ⟨rfl, hlead⟩ := List.cons.inj hback
  exact ⟨rfl, List.reverse_injective hlead⟩

lemma IsQuoted.ends {s : Text} (h : IsQuoted s) : ∃ head q, s = head ++ [q] ∧
    isBlank q = false ∧ isNumberEnd q = false := by
  obtain ⟨marks, q, inside, hq, -, rfl⟩ := h
  exact ⟨marks ++ q :: inside, q, by simp, by obtain rfl | rfl := hq <;> decide,
    by obtain rfl | rfl := hq <;> decide⟩

lemma IsQuoted.starts {s : Text} (h : IsQuoted s) : ∃ c rest, s = c :: rest ∧
    isBlank c = false ∧ isTextStart c = true := by
  obtain ⟨marks, q, inside, hq, hmarks, rfl⟩ := h
  cases marks with
  | nil => exact ⟨q, inside ++ [q], rfl, by obtain rfl | rfl := hq <;> decide,
      by obtain rfl | rfl := hq <;> decide⟩
  | cons c marks =>
    have hc := hmarks c List.mem_cons_self
    have hblank : ∀ d ∈ ['f', 'r', 'b', 'u', 'F', 'R', 'B', 'U'], isBlank d = false := by
      simp [isBlank]
    exact ⟨c, _, rfl, hblank c (by simpa [isLiteralMark] using hc), by simp [isTextStart, hc]⟩

/-- A name that is added to a literal follows a plus sign. -/
lemma JoinedAhead.last_eq {lead gap : Text} {c : Char} (h : JoinedAhead (lead ++ c :: gap))
    (hc : isBlank c = false) (hgap : gap.isAllBlank = true) : c = '+' := by
  obtain ⟨lead', literal, gap', gap'', -, -, hgap'', heq⟩ := h
  rw [← List.append_assoc, ← List.append_assoc] at heq
  exact (eq_of_blanks_behind hgap hgap'' hc (by decide) heq).1

lemma JoinedAhead.not_reckoned (h : JoinedAhead front) : ¬ReckonedAhead front := by
  rintro ⟨lead, tail, rfl, htail⟩
  cases htail with
  | @sign c gap hc hgap =>
    obtain rfl := h.last_eq (not_blank_of_arithmeticSign hc) hgap
    exact absurd hc (by decide)
  | @added c gap gap' hc hgap hgap' =>
    obtain ⟨lead', literal, more, more', hliteral, hmore, hmore', heq⟩ := h
    obtain ⟨head, q, rfl, hq, hend⟩ := hliteral.ends
    have hblank : isBlank c = false := by
      simp only [isNumberEnd, Bool.and_eq_true, Bool.not_eq_true'] at hc
      exact hc.1.1.1
    have hplus : (lead ++ c :: gap) ++ '+' :: gap' =
        (lead' ++ (head ++ [q] ++ more)) ++ '+' :: more' := by simpa using heq
    have hsum := (eq_of_blanks_behind hgap' hmore' (by decide) (by decide) hplus).2
    have hend' : lead ++ c :: gap = (lead' ++ head) ++ q :: more := by simpa using hsum
    obtain ⟨rfl, -⟩ := eq_of_blanks_behind hgap hmore hblank hq hend'
    rw [hc] at hend
    cases hend
  | @order c gap sign gap' hc hgap hsign hgap' =>
    obtain ⟨-, head, d, rfl, hd⟩ := orderSign_eq hsign
    have hjoined : JoinedAhead ((lead ++ c :: (gap ++ head)) ++ d :: gap') := by simpa using h
    have hblank : isBlank d = false := by obtain rfl | rfl | rfl := hd <;> decide
    obtain rfl := hjoined.last_eq hblank hgap'
    exact absurd hd (by decide)

lemma JoinedBehind.not_reckoned (h : JoinedBehind after) : ¬ReckonedBehind after := by
  obtain ⟨gap, gap', literal, rest, hliteral, hgap, hgap', rfl⟩ := h
  obtain ⟨c, more, rfl, hblank, hc⟩ := hliteral.starts
  rw [← numberBefore_iff, numberBefore_plus (trimStart_blanks_cons hgap (by decide) _),
    List.cons_append, trimStart_blanks_cons hgap' hblank]
  simp [hc]

lemma ExtendedBehind.reckoned (h : ExtendedBehind after) : ReckonedBehind after := by
  obtain ⟨gap, gap', literal, rest, -, hgap, -, rfl⟩ := h
  have hnone : isAllBlank [] = true := rfl
  exact .added _ hgap hnone (by decide)

/-- A name that is joined to a literal is not converted there. -/
lemma OnlyJoined.not_converted (hjoined : OnlyJoined name lines) (hline : line ∈ lines) :
    ¬Converted name line := by
  rintro ⟨front, after, h, ⟨lead, conversion, gap, rfl, -, hconversion, hgap⟩, gap', rest, rfl,
    hgap'⟩
  have hparen : trimStart (gap' ++ ')' :: rest) = ')' :: rest :=
    trimStart_blanks_cons hgap' (by decide) rest
  obtain hahead | hbehind | hextended := hjoined line hline _ _ h
  · obtain ⟨word, rfl⟩ : ∃ word, conversion = word ++ ['('] := by
      obtain rfl | rfl := hconversion
      · exact ⟨"int", rfl⟩
      · exact ⟨"float", rfl⟩
    have hjoined : JoinedAhead ((lead ++ word) ++ '(' :: gap) := by simpa using hahead
    exact absurd (hjoined.last_eq (by decide) hgap) (by decide)
  · obtain ⟨more, more', literal, behind, -, hmore, -, heq⟩ := hbehind
    rw [heq, trimStart_blanks_cons hmore (by decide)] at hparen
    exact absurd (List.cons.inj hparen).1 (by decide)
  · obtain ⟨more, more', literal, behind, -, hmore, -, heq⟩ := hextended
    rw [heq, trimStart_blanks_cons hmore (by decide)] at hparen
    exact absurd (List.cons.inj hparen).1 (by decide)

/-- Of the sums with literals only those count that extend the name, or that stand beside another
sign. -/
lemma OnlyJoined.numberUse_iff (hjoined : OnlyJoined name lines) (hline : line ∈ lines) :
    NumberUse name line ↔ TakenForNumber name line := by
  constructor
  · intro h
    cases h with
    | ahead h hahead =>
      obtain hjoined | hjoined | hjoined := hjoined line hline _ _ h
      · exact absurd hahead hjoined.not_reckoned
      · exact .ahead h hjoined hahead
      · exact .extended h hjoined
    | behind h hbehind =>
      obtain hjoined | hjoined | hjoined := hjoined line hline _ _ h
      · exact .behind h hjoined hbehind
      · exact absurd hbehind hjoined.not_reckoned
      · exact .extended h hjoined
    | range h hrange => exact .range h hrange
    | argument hcall h => exact .argument hcall h
  · intro h
    cases h with
    | extended h hextended => exact .behind h hextended.reckoned
    | ahead h _ hahead => exact .ahead h hahead
    | behind h _ hbehind => exact .behind h hbehind
    | range h hrange => exact .range h hrange
    | argument hcall h => exact .argument hcall h

/-- Of a variable whose name is only joined to string literals, the next lines make a number if and
only if they extend it by a literal, reckon on its other side, or have it in the text of a range or
of the arguments of an arithmetic function. Only then is the input that sets it converted. -/
theorem joined_input_converted_iff (hname : IsWord name) (hjoined : OnlyJoined name lines) :
    (usedAsNumber name lines = true ↔ ∃ line ∈ lines, TakenForNumber name line) ∧
      ∀ later code head call out, lookahead later = lines →
        inputAssignment? code = some (name, head, call) →
          (convertInput? later code = some out ↔ (∃ line ∈ lines, TakenForNumber name line) ∧
            ∃ inside after, bracketed? call = some (inside, after) ∧ after.isAllBlank = true ∧
              out = head ++ "int(input(" ++ inside ++ "))") := by
  have hused : usedAsNumber name lines = true ↔ ∃ line ∈ lines, TakenForNumber name line := by
    rw [usedAsNumber_iff hname]
    constructor
    · rintro ⟨-, line, hline, h⟩
      exact ⟨line, hline, (hjoined.numberUse_iff hline).mp h⟩
    · rintro ⟨line, hline, h⟩
      exact ⟨fun _ => hjoined.not_converted, line, hline, (hjoined.numberUse_iff hline).mpr h⟩
  refine ⟨hused, ?_⟩
  rintro later code head call out rfl hcode
  have hconvert : convertInput? later code = (bracketed? call).bind fun group =>
      if group.2.isAllBlank && usedAsNumber name (lookahead later) then
        some (head ++ "int(input(" ++ group.1 ++ "))")
      else none := by
    rw [convertInput?, hcode]
    rfl
  rw [hconvert, Option.bind_eq_some_iff]
  constructor
  · rintro ⟨⟨inside, after⟩, hcall, hout⟩
    split at hout
    · next hboth =>
      rw [Bool.and_eq_true, hused] at hboth
      exact ⟨hboth.2, inside, after, hcall, hboth.1, (Option.some.inj hout).symm⟩
    · cases hout
  · rintro ⟨htaken, inside, after, hcall, hblank, rfl⟩
    refine ⟨(inside, after), hcall, if_pos ?_⟩
    rw [Bool.and_eq_true, hused]
    exact ⟨hblank, htaken⟩

/-- A literal that a name is added to leaves the name alone. -/
theorem greeting_not_converted :
    IsWord "name" ∧ OnlyJoined "name" ["print('Hi ' + name)"] ∧
      usedAsNumber "name" ["print('Hi ' + name)"] = false ∧
      ¬∃ line ∈ [("print('Hi ' + name)" : Text)], TakenForNumber "name" line := by
  have hname : IsWord "name" := ⟨by decide, by decide⟩
  have hjoined : OnlyJoined "name" ["print('Hi ' + name)"] := by
    intro line hline front after h
    obtain rfl := List.mem_singleton.mp hline
    obtain ⟨hfront, -⟩ := h.eq_of_only (n := 14) (by decide +kernel)
    exact .inl ⟨"print(", "'Hi '", " ", " ", ⟨[], '\'', "Hi ", .inr rfl, nofun, rfl⟩, rfl, rfl,
      hfront⟩
  have hused : usedAsNumber "name" ["print('Hi ' + name)"] = false := by decide +kernel
  refine ⟨hname, hjoined, hused, fun htaken => ?_⟩
  rw [(joined_input_converted_iff hname hjoined).1.mpr htaken] at hused
  cases hused

/-- A literal that extends a name makes its input a number. -/
theorem extended_input_converted :
    OnlyJoined "name" ["name += '!'"] ∧ usedAsNumber "name" ["name += '!'"] = true ∧
      (pitfalls? "name = input('n')\nname += '!'").map (·.text) =
        some "name = int(input('n'))\nname += '!'" := by
  refine ⟨?_, by decide +kernel, by decide +kernel⟩
  intro line hline front after h
  obtain rfl := List.mem_singleton.mp hline
  obtain ⟨-, hafter⟩ := h.eq_of_only (n := 0) (by decide +kernel)
  exact .inr (.inr ⟨" ", " ", "'!'", [], ⟨[], '\'', "!", .inr rfl, nofun, rfl⟩, rfl, rfl, hafter⟩)

end Marginalia.Repair
