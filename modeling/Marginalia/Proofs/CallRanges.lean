import Marginalia.Proofs.EditRanges
import Marginalia.Proofs.WrappedOperands

/-!
# Ranges of calls

A call is cut at the partner of its parenthesis. Its arguments and what follows it are what the
passes read that mend calls.
-/

namespace Marginalia.Ranged

open Text Repair

variable {code head t : Text} {texts : List Text}

/-! ## Printed operands -/

lemma operandEdits?_eq (texts : List Text) (start : Nat) (argument : Nat × Text) :
    operandEdits? texts start argument =
      some ((argumentSpans texts (start + argument.1, argument.2)).map fun o => (wrap o).edit) := by
  rw [operandEdits?, locatedPieces?_eq_piecesAt, argumentSpans_eq_map, convertedOperands,
    Option.bind_eq_bind, Option.bind_some]
  cases hliteral : (piecesAt '+' 0 argument.2).any fun o => isStringLiteral o.2 with
  | false => simp
  | true =>
    by_cases htwo : 2 ≤ (piecesAt '+' 0 argument.2).length
    · rw [if_neg (by simpa only [Bool.not_true, Bool.or_false, decide_eq_true_eq, Nat.not_lt]),
        if_pos (by simpa only [Bool.and_true, decide_eq_true_eq]), List.map_map]
      rfl
    · rw [if_pos (by simpa only [Bool.not_true, Bool.or_false, decide_eq_true_eq, Nat.not_le]
          using htwo),
        if_neg (by simpa only [Bool.and_true, decide_eq_true_eq])]
      rfl

/-- The edits in the arguments of a call that starts at an offset. -/
lemma operandEdits_eq (texts : List Text) (start : Nat) (inside : Text) :
    (piecesAt ',' 0 inside).mapM (operandEdits? texts start) =
      some ((piecesAt ',' 0 inside).map fun argument =>
        (argumentSpans texts (start + argument.1, argument.2)).map fun o => (wrap o).edit) := by
  rw [funext (operandEdits?_eq texts start)]
  exact List.mapM_pure

lemma flatten_operandEdits (texts : List Text) (start : Nat) (inside : Text) :
    ((piecesAt ',' 0 inside).map fun argument =>
      (argumentSpans texts (start + argument.1, argument.2)).map fun o => (wrap o).edit).flatten =
      ((convertedSpans texts start inside).map wrap).map Swap.edit := by
  rw [convertedSpans, piecesAt_eq_map ',' start, List.flatMap_map, List.flatMap_def,
    List.map_flatten, List.map_flatten, List.map_map, List.map_map]
  refine congrArg List.flatten (List.map_congr_left fun argument _ => ?_)
  rw [Function.comp_apply, Function.comp_apply, List.map_map]
  rfl

lemma convertPrinted?_eq (texts : List Text) (code : Text) :
    convertPrinted? texts code = some (Repair.convertPrinted? texts code) := by
  rw [convertPrinted?, Repair.convertPrinted?]
  cases hsplit : splitAtPlace? (fun prev t => isFresh prev && t.startsWith "print(") none code with
  | none => rfl
  | some p =>
    obtain ⟨head, call⟩ := p
    obtain ⟨rfl, -, hplace, -⟩ := splitAtPlace?_eq_some_iff.mp hsplit
    rw [Bool.and_eq_true] at hplace
    obtain ⟨rest, rfl⟩ := (startsWith_iff call _).mp hplace.2
    have hparen : closerOf? '(' = some ')' := rfl
    have hcall : head ++ ("print(" ++ rest) = (head ++ "print") ++ '(' :: rest := by simp
    have hstart : byteLength (head ++ "print") = byteLength head + 5 := byteLength_append _ _
    dsimp only
    rw [partner?_of_eq hparen hcall hstart, Option.bind_eq_bind, Option.bind_some]
    change _ = some ((bracketed? ('(' :: rest)).bind fun p =>
      changed? (head ++ ("print(" ++ rest))
        (head ++ "print(" ++ convertArguments texts p.1 ++ ")" ++ p.2))
    cases hbracket : bracketed? ('(' :: rest) with
    | none => rfl
    | some p =>
      obtain ⟨inside, after⟩ := p
      obtain rfl := eq_of_bracketed_opener hparen hbracket
      have hreplaced := (wrapped_convertedSpans texts head inside after).replaced
      dsimp only [Option.map_some]
      rw [slice?_between hcall hstart, Option.bind_eq_bind, Option.bind_some,
        locatedPieces?_eq_piecesAt, Option.bind_eq_bind, Option.bind_some, operandEdits_eq,
        Option.bind_eq_bind, Option.bind_some, flatten_operandEdits]
      have hchanged := changed?_eq hreplaced <|
        List.forall_mem_map.mpr fun span _ => wrap_heavier span
      rw [show head ++ ("print(" ++ (inside ++ ')' :: after)) =
        head ++ ("print(" ++ (inside ++ (")" ++ after))) from rfl, hreplaced.applyEdits?,
        Option.bind_some, List.append_assoc, List.append_assoc, List.append_assoc, ← hchanged]
      split <;> rfl

/-! ## Input -/

/-- A condition that cuts nothing out that is missing is the same at every place of a line. -/
lemma anyPlace?_eq {p? : Option Char → Text → Option Bool} {p : Option Char → Text → Bool}
    (hp : ∀ prev t, p? prev t = some (p prev t)) {line : Text} (head rest : Text)
    (hline : line = head ++ rest) (prev : Option Char) :
    anyPlace? p? line prev (byteLength head) rest = some (anyPlace p prev rest) := by
  induction rest generalizing head prev with
  | nil => rfl
  | cons c rest ih =>
    have hlater := ih (head ++ [c]) (by rw [hline, List.append_assoc]; rfl) (some c)
    rw [byteLength_append] at hlater
    rw [anyPlace?, from?_of_eq head hline rfl, Option.bind_eq_bind, Option.bind_some, hp,
      Option.bind_eq_bind, Option.bind_some, anyPlace]
    cases p prev (c :: rest) with
    | true => rfl
    | false => exact hlater

lemma calculates?_eq (var t : Text) : calculates? var t = some (calculates var t) := by
  rw [calculates?, calculates]
  cases name? t with
  | none => rfl
  | some p =>
    obtain ⟨name, rest⟩ := p
    dsimp only
    rw [firstGroup?_eq]
    cases Text.startsWith rest "(" <;> rfl

lemma usesNumber?_eq (var line : Text) : usesNumber? var line = some (usesNumber var line) := by
  refine anyPlace?_eq (fun prev t => ?_) [] line rfl none
  rw [calculates?_eq]
  rfl

lemma usedAsNumber?_eq (var : Text) (lines : List Text) :
    usedAsNumber? var lines = some (usedAsNumber var lines) := by
  have huses : lines.mapM (usesNumber? var) = some (lines.map (usesNumber var)) := by
    rw [funext (usesNumber?_eq var)]
    exact List.mapM_pure
  rw [usedAsNumber?, huses, Option.map_some, List.any_map]
  rfl

lemma lookahead?_eq (later : List (LineInfo × Text)) :
    lookahead? later = some (lookahead later) := by
  rw [lookahead?]
  simp only [splitComment?_eq]
  exact List.mapM_pure

lemma byteLength_reverse (t : Text) : byteLength t.reverse = byteLength t := by
  induction t with
  | nil => rfl
  | cons c rest ih =>
    rw [List.reverse_cons, byteLength_append, ih, byteLength_cons, byteLength_cons, byteLength_nil,
      Nat.add_zero, Nat.add_comm]

/-- A mark at the end of a text is the last one. -/
lemma findLastMark?_append {mark : Text} (hmark : mark ≠ []) (head : Text) :
    findLastMark? mark (head ++ mark) = some (byteLength head) := by
  have hcut : cut? mark.reverse (mark.reverse ++ head.reverse) = some ([], head.reverse) := by
    have hafter := (after?_eq_some_iff mark.reverse (mark.reverse ++ head.reverse) _).mpr rfl
    obtain ⟨c, rest, hrest⟩ := List.exists_cons_of_ne_nil (List.reverse_ne_nil_iff.mpr hmark)
    rw [hrest, List.cons_append] at hafter ⊢
    rw [cut?, hafter]
  rw [findLastMark?, List.reverse_append, hcut]
  exact congrArg some (byteLength_reverse head)

lemma convertInput?_eq (later : List (LineInfo × Text)) (code : Text) :
    convertInput? later code = some (Repair.convertInput? later code) := by
  rw [convertInput?, Repair.convertInput?]
  cases hassigned : inputAssignment? code with
  | none => rfl
  | some p =>
    obtain ⟨name, head, call⟩ := p
    obtain ⟨rest, rfl, rfl⟩ := eq_of_inputAssignment? hassigned
    have hparen : closerOf? '(' = some ')' := rfl
    have hcall : head ++ ("input" ++ '(' :: rest) = (head ++ "input") ++ '(' :: rest :=
      (List.append_assoc _ _ _).symm
    have hstart : byteLength (head ++ "input") = byteLength head + 5 := byteLength_append _ _
    dsimp only
    rw [partner?_of_eq hparen hcall hstart, Option.bind_eq_bind, Option.bind_some]
    change _ = some ((bracketed? ('(' :: rest)).bind fun p =>
      if p.2.isAllBlank && usedAsNumber name (lookahead later) then
        some (head ++ "int(input(" ++ p.1 ++ "))")
      else none)
    cases hbracket : bracketed? ('(' :: rest) with
    | none => rfl
    | some p =>
      obtain ⟨inside, after⟩ := p
      obtain rfl := eq_of_bracketed_opener hparen hbracket
      have hfront : slice? (head ++ ("input" ++ '(' :: (inside ++ ')' :: after))) 0
          (byteLength head + 5) = some (head ++ "input") := upTo_of_eq hcall hstart
      have hcallSlice : slice? (head ++ ("input" ++ '(' :: (inside ++ ')' :: after)))
          (byteLength head) (byteLength head + 5 + 1 + byteLength inside + 1) =
          some ("input(" ++ (inside ++ ")")) :=
        slice?_of_eq head after
          (by rw [List.append_assoc ("input(" : Text), List.append_assoc inside]; rfl) rfl (by
          have hlengths : byteLength "input(" = 6 ∧ byteLength ")" = 1 := ⟨rfl, rfl⟩
          rw [byteLength_append, byteLength_append]
          omega)
      dsimp only [Option.map_some, Option.bind_some]
      rw [from?_after hcall hstart, Option.bind_eq_bind, Option.bind_some,
        LayoutState.isEmpty_trim]
      cases after.isAllBlank with
      | false => rfl
      | true =>
        rw [lookahead?_eq, Option.bind_eq_bind, Option.bind_some, usedAsNumber?_eq,
          Option.bind_eq_bind, Option.bind_some]
        cases usedAsNumber name (lookahead later) with
        | false => rfl
        | true =>
          rw [hfront, Option.bind_some, findLastMark?_append (by decide)]
          dsimp only
          rw [slice?_head, Option.bind_some, hcallSlice]
          refine congrArg (some ∘ some) ?_
          change (head ++ "int(" ++ ("input(" ++ (inside ++ ")"))) ++ ")" = _
          rw [List.append_assoc, List.append_assoc, List.append_assoc, List.append_assoc inside,
            List.append_assoc, List.append_assoc head]
          rfl

/-! ## Arguments of constructors -/

variable {arities : Arities}

/-- A call whose arguments are known lacks some, or it is left alone. -/
def lacking? (name inside after : Text) (required : Nat) : Option ShortCall :=
  if (argumentsOf inside).any isSpecialArgument then none
  else if required ≤ (argumentsOf inside).length then none
  else some ⟨name, name ++ "(", argumentsOf inside, ')' :: after,
    required - (argumentsOf inside).length⟩

lemma lacking?_eq_guard (name inside after : Text) (required : Nat) :
    lacking? name inside after required =
      (guard (!(argumentsOf inside).any isSpecialArgument) >>= fun _ =>
        guard ((argumentsOf inside).length < required) >>= fun _ =>
          some ⟨name, name ++ "(", argumentsOf inside, ')' :: after,
            required - (argumentsOf inside).length⟩) := by
  rw [lacking?]
  cases (argumentsOf inside).any isSpecialArgument with
  | true => rfl
  | false =>
    by_cases hcount : (argumentsOf inside).length < required
    · have hguard : (guard ((argumentsOf inside).length < required) : Option Unit) = some () :=
        if_pos hcount
      rw [hguard, if_neg (Nat.not_le.mpr hcount)]
      rfl
    · have hguard : (guard ((argumentsOf inside).length < required) : Option Unit) = none :=
        if_neg hcount
      rw [hguard, if_pos (Nat.not_lt.mp hcount)]
      rfl

/-- What is looked at to tell whether the call at a place is short. -/
lemma shortCallAt?_eq (arities : Arities) (prev : Option Char) (t : Text) :
    shortCallAt? arities prev t =
      match name? t with
      | none => none
      | some (name, rest) =>
        if isFresh prev && rest.startsWith "(" then
          match arities.lookup name with
          | none => none
          | some required =>
            if prev == some '.' then none
            else (bracketed? rest).bind fun p => lacking? name p.1 p.2 required
        else none := by
  rw [shortCallAt?, bne]
  cases name? t with
  | none => cases isFresh prev && !(prev == some '.') <;> rfl
  | some p =>
    obtain ⟨name, rest⟩ := p
    dsimp only [Option.bind_eq_bind, Option.bind_some]
    cases isFresh prev with
    | false => rfl
    | true =>
      cases Text.startsWith rest "(" with
      | false => cases prev == some '.' <;> rfl
      | true =>
        cases arities.lookup name with
        | none => cases prev == some '.' <;> rfl
        | some required =>
          cases prev == some '.' with
          | true => rfl
          | false =>
            cases bracketed? rest with
            | none => rfl
            | some p => exact (lacking?_eq_guard name p.1 p.2 required).symm

/-- A completed call, as it is reported: its name, what it lacked, and the code. -/
def reported (head : Text) (call : ShortCall) : Text × Nat × Text :=
  (call.name, call.missing, head ++ call.completed)

/-- Whether the character in front of a place is a dot. -/
lemma endsWith_dot (head : Text) : head.endsWith "." = (lastOf none head == some '.') := by
  rw [lastOf, Option.or_none]
  exact endsWith_char '.' head

lemma completedCall?_eq {name rest : Text} (required : Nat)
    (hcode : code = (head ++ name) ++ '(' :: rest) :
    completedCall? code name (byteLength head + byteLength name) required =
      some (((bracketed? ('(' :: rest)).bind fun p => lacking? name p.1 p.2 required).map
        (reported head)) := by
  have hparen : closerOf? '(' = some ')' := rfl
  have hstart : byteLength (head ++ name) = byteLength head + byteLength name :=
    byteLength_append head name
  rw [completedCall?, partner?_of_eq hparen hcode hstart, Option.bind_eq_bind, Option.bind_some]
  cases hbracket : bracketed? ('(' :: rest) with
  | none => rfl
  | some p =>
    obtain ⟨inside, after⟩ := p
    obtain rfl := eq_of_bracketed_opener hparen hbracket
    have hfront : slice? code 0 (byteLength head + byteLength name + 1) =
        some (head ++ name ++ ['(']) :=
      upTo_of_eq (show code = (head ++ name ++ ['(']) ++ (inside ++ ')' :: after) by
        rw [hcode, List.append_assoc _ ['(']]; rfl) (by rw [byteLength_append, hstart]; rfl)
    have hnamed : (argumentsOf inside).mapM (hasPlainSign? '=') =
        some ((argumentsOf inside).map isKeywordArgument) := by
      rw [funext hasPlainSign?_equals]
      exact List.mapM_pure
    have hspecial : ((argumentsOf inside).any (·.startsWith "*") ||
        ((argumentsOf inside).map isKeywordArgument).any id) =
        (argumentsOf inside).any isSpecialArgument := by
      rw [List.any_map, Bool.eq_iff_iff, Bool.or_eq_true]
      simp only [List.any_eq_true, isSpecialArgument, Bool.or_eq_true, and_or_left, exists_or]
      rfl
    dsimp only [Option.map_some, Option.bind_some]
    rw [slice?_between hcode hstart, Option.bind_eq_bind, Option.bind_some, splitTopLevel?_eq,
      Option.bind_eq_bind, Option.bind_some]
    rw [show List.filter _ (splitTopLevel ',' inside) = argumentsOf inside from rfl, hnamed,
      Option.bind_eq_bind, Option.bind_some, hspecial, hfront, from?_closer hcode hstart, lacking?]
    cases (argumentsOf inside).any isSpecialArgument with
    | true => rfl
    | false =>
      by_cases hcount : required ≤ (argumentsOf inside).length
      · rw [if_pos hcount, if_pos hcount]
        rfl
      · rw [if_neg hcount, if_neg hcount]
        simp [reported, ShortCall.completed]

/-- The call at a place of code. -/
lemma completedAt?_eq (arities : Arities) (head t : Text) :
    completedAt? arities (head ++ t) (lastOf none head) (byteLength head) t =
      some ((shortCallAt? arities (lastOf none head) t).map (reported head)) := by
  rw [completedAt?, shortCallAt?_eq]
  cases hname : name? t with
  | none => rfl
  | some p =>
    obtain ⟨name, rest⟩ := p
    obtain ⟨rfl, -⟩ := eq_of_name? hname
    dsimp only
    split
    · next hcall =>
      rw [Bool.and_eq_true] at hcall
      obtain ⟨rest, rfl⟩ := (startsWith_iff _ _).mp hcall.2
      cases arities.lookup name with
      | none => rfl
      | some required =>
        dsimp only
        rw [slice?_head, Option.bind_eq_bind, Option.bind_some, endsWith_dot]
        cases lastOf none head == some '.' with
        | true => rfl
        | false => exact completedCall?_eq required (List.append_assoc _ _ _).symm
    · rfl

lemma completedFrom?_eq (arities : Arities) {code : Text} (head rest : Text)
    (hcode : code = head ++ rest) :
    completedFrom? arities code (lastOf none head) (byteLength head) rest =
      some ((shortCall? arities (lastOf none head) rest).map (reported head)) := by
  induction rest generalizing head with
  | nil => rfl
  | cons c rest ih =>
    have hlater := ih (head ++ [c]) (by rw [hcode, List.append_assoc]; rfl)
    rw [byteLength_append, lastOf_append] at hlater
    have hhere := completedAt?_eq arities head (c :: rest)
    rw [← hcode] at hhere
    rw [completedFrom?, hhere, shortCall?, Option.bind_eq_bind, Option.bind_some]
    cases shortCallAt? arities (lastOf none head) (c :: rest) with
    | some call => rfl
    | none =>
      refine hlater.trans (congrArg some ?_)
      change _ = ((shortCall? arities (some c) rest).map _).map _
      rw [Option.map_map]
      refine Option.map_congr fun call _ => ?_
      simp [reported, ShortCall.completed]

lemma completeCallsWithin?_eq (arities : Arities) (fuel : Nat) (code : Text) :
    completeCallsWithin? arities fuel code = some (completeCallsWithin arities fuel code) := by
  have hfirst (code : Text) : completedFrom? arities code none 0 code =
      some ((shortCall? arities none code).map (reported [])) :=
    completedFrom?_eq arities [] code rfl
  induction fuel generalizing code with
  | zero =>
    rw [completeCallsWithin?, completeCallsWithin, hfirst]
    cases shortCall? arities none code <;> rfl
  | succ fuel ih =>
    rw [completeCallsWithin?, completeCallsWithin, hfirst]
    cases shortCall? arities none code with
    | none => rfl
    | some call =>
      change (completeCallsWithin? arities fuel call.completed).bind _ = _
      rw [ih]
      rfl

end Marginalia.Ranged
