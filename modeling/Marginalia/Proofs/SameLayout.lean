import Marginalia.Proofs.Exchanges
import Marginalia.Proofs.HeaderColons
import Marginalia.Proofs.ImprovedLogic
import Marginalia.Proofs.JoinedArguments

/-!
# Code of the same layout

What the code of a line means for the lines around it does not depend on the pieces that mended
logic exchanges in it: they hold no quotes, backslashes or comment signs, the same brackets, and end
alike. So the line stays a statement, and the lines below it are what they were.
-/

namespace Marginalia.Repair

open Text

/-- A text without quotes, backslashes and comment signs. -/
def IsMute (t : Text) : Prop := ∀ c ∈ t, isQuote c = false ∧ c ≠ '\\' ∧ c ≠ '#'

instance (t : Text) : Decidable (IsMute t) :=
  List.decidableBAll (fun c => isQuote c = false ∧ c ≠ '\\' ∧ c ≠ '#') t

/-- The brackets of a text. -/
def bracketsOf (t : Text) : Text := t.filter fun c => isOpener c || isCloser c

/-- How many of the code characters of a text, read from a state, are in a class. -/
def countFrom (p : Char → Bool) (s : CodeState) : Text → Nat
  | [] => 0
  | c :: rest => (if (s.step c).2.isSome && p c then 1 else 0) + countFrom p (s.step c).1 rest

lemma countCode_eq (p : Char → Bool) (t : Text) : countCode p t = countFrom p .start t := by
  have hfrom : ∀ (t : Text) (s : CodeState) (i : Nat),
      (codeCharsFrom s i t).countP (fun c => p c.char) = countFrom p s t := by
    intro t
    induction t with
    | nil => exact fun _ _ => rfl
    | cons c rest ih =>
      intro s i
      rw [codeCharsFrom, countFrom]
      cases (s.step c).2 with
      | none => simp [ih]
      | some depth => simp [ih, Nat.add_comm, List.countP_cons]
  exact hfrom t .start 0

lemma countFrom_append (p : Char → Bool) (s : CodeState) (t t' : Text) :
    countFrom p s (t ++ t') = countFrom p s t + countFrom p (s.run t) t' := by
  induction t generalizing s with
  | nil => simp [countFrom]
  | cons c rest ih =>
    rw [List.cons_append, countFrom, countFrom, ih, CodeState.run_cons, Nat.add_assoc]

/-- What the layout asks of the end of code: whether that is a blank, and whether a backslash. -/
def endKind (t : Text) : Option (Bool × Bool) := t.getLast?.map fun c => (isBlank c, c == '\\')

lemma endKind_append (t t' : Text) : endKind (t ++ t') = (endKind t').or (endKind t) := by
  rw [endKind, List.getLast?_append, Option.map_or]
  rfl

lemma endKind_eq_none_iff {t : Text} : endKind t = none ↔ t = [] := by
  rw [endKind, Option.map_eq_none_iff, List.getLast?_eq_none_iff]

lemma endKind_append_of_ne_nil (t : Text) {t' : Text} (h : t' ≠ []) :
    endKind (t ++ t') = endKind t' := by
  rw [endKind_append]
  cases hkind : endKind t' with
  | none => exact absurd (endKind_eq_none_iff.mp hkind) h
  | some kind => rfl

lemma endsWith_backslash (t : Text) : t.endsWith "\\" = (endKind t).any (·.2) := by
  rw [show t.endsWith "\\" = (t.getLast? == some '\\') from endsWith_char '\\' t, endKind]
  cases t.getLast? with
  | none => rfl
  | some c => simp

/-! ## Pieces without quotes -/

/-- Outside literals only the brackets of such a piece count. -/
lemma run_mute {s : CodeState} (hs : s.quote = none) {t : Text} (ht : IsMute t) :
    s.run t = s.run (bracketsOf t) ∧ (s.run t).quote = none ∧
      ∀ p : Char → Bool, (∀ c, p c = true → (isOpener c || isCloser c) = true) →
        countFrom p s t = countFrom p s (bracketsOf t) := by
  induction t generalizing s with
  | nil => exact ⟨rfl, hs, fun _ _ => rfl⟩
  | cons c rest ih =>
    obtain ⟨⟨hquote, hback, -⟩, hrest⟩ := List.forall_mem_cons.mp ht
    cases hc : isOpener c || isCloser c with
    | true =>
      obtain ⟨hrun, hend, hcount⟩ := ih (CodeState.step_unquoted hs hquote).1 hrest
      rw [show bracketsOf (c :: rest) = c :: bracketsOf rest from List.filter_cons_of_pos hc]
      refine ⟨hrun, hend, fun p hp => ?_⟩
      rw [countFrom, countFrom, hcount p hp]
    | false =>
      obtain ⟨ho, hcl⟩ := Bool.or_eq_false_iff.mp hc
      have hplain : isPlain c = true := by simp [isPlain, hquote, ho, hcl, hback]
      have hstep : s.step c = (s, some s.depth) := CodeState.step_plain_code hs hplain
      obtain ⟨hrun, hend, hcount⟩ := ih hs hrest
      rw [show bracketsOf (c :: rest) = bracketsOf rest from
        List.filter_cons_of_neg (by simp only [hc, Bool.false_eq_true, not_false_eq_true]),
        CodeState.run_cons, hstep]
      refine ⟨hrun, hend, fun p hp => ?_⟩
      have hpc : p c = false := Bool.eq_false_iff.mpr fun hpc => by
        rw [hp c hpc] at hc
        cases hc
      rw [countFrom, hstep, hpc, Bool.and_false, if_neg Bool.false_ne_true, Nat.zero_add,
        hcount p hp]

/-- Inside a literal such a piece ends an escape at most. -/
lemma run_mute_inside {s : CodeState} (h : s.Sound) {q : Char} (hs : s.quote = some q) {t : Text}
    (ht : IsMute t) (hne : t ≠ []) :
    s.run t = ⟨some q, false, s.depth⟩ ∧ ∀ p : Char → Bool, countFrom p s t = 0 := by
  have hq : isQuote q = true := h.quote q hs
  induction t generalizing s with
  | nil => exact absurd rfl hne
  | cons c rest ih =>
    obtain ⟨⟨hquote, hback, -⟩, hrest⟩ := List.forall_mem_cons.mp ht
    have hcq : c ≠ q := by
      rintro rfl
      rw [hquote] at hq
      cases hq
    have hstep : s.step c = (⟨some q, false, s.depth⟩, none) := by
      obtain ⟨quote, escaped, depth⟩ := s
      obtain rfl : quote = some q := hs
      cases escaped <;> simp [CodeState.step, hcq, hback]
    rw [CodeState.run_cons, hstep]
    simp only [countFrom, hstep]
    by_cases hempty : rest = []
    · subst hempty
      exact ⟨rfl, fun p => by simp [countFrom]⟩
    · have hsound : CodeState.Sound ⟨some q, false, s.depth⟩ := by
        have := h.step c
        rwa [hstep] at this
      obtain ⟨hrun, hcount⟩ := ih hsound rfl hrest hempty
      exact ⟨hrun, fun p => by simp [hcount p]⟩

/-- Pieces with the same brackets are read alike. -/
lemma run_mute_congr {s : CodeState} (h : s.Sound) {old new : Text} (hold : IsMute old)
    (hnew : IsMute new) (hbrackets : bracketsOf old = bracketsOf new) (hne : old ≠ [])
    (hne' : new ≠ []) : s.run new = s.run old ∧
      ∀ p : Char → Bool, (∀ c, p c = true → (isOpener c || isCloser c) = true) →
        countFrom p s new = countFrom p s old := by
  cases hs : s.quote with
  | none =>
    obtain ⟨hrun, -, hcount⟩ := run_mute hs hold
    obtain ⟨hrun', -, hcount'⟩ := run_mute hs hnew
    exact ⟨by rw [hrun, hrun', hbrackets], fun p hp => by rw [hcount p hp, hcount' p hp, hbrackets]⟩
  | some q =>
    obtain ⟨hrun, hcount⟩ := run_mute_inside h hs hold hne
    obtain ⟨hrun', hcount'⟩ := run_mute_inside h hs hnew hne'
    exact ⟨hrun'.trans hrun.symm, fun p _ => (hcount' p).trans (hcount p).symm⟩

lemma noComment_mute {s : CodeState} {t : Text} (ht : IsMute t) :
    splitAtCode? startsComment s t = none :=
  noComment_of_not_mem (fun hmem => (ht '#' hmem).2.2 rfl) s

lemma countTriples_other {q d : Char} (hd : d ≠ q) (t t' : Text) :
    countTriples q (t ++ d :: t') = countTriples q t + countTriples q t' := by
  have hcons : ∀ more : Text, countTriples q (d :: more) = countTriples q more := by
    intro more
    rcases more with _ | ⟨b, _ | ⟨c, more⟩⟩
    · rfl
    · rfl
    · rw [countTriples, if_neg fun h => hd h.1]
  have hone (a : Char) (more : Text) : countTriples q (a :: d :: more) = countTriples q more := by
    cases more with
    | nil => rfl
    | cons c more => rw [countTriples, if_neg fun h => hd h.2.1, hcons]
  induction t using countTriples.induct q with
  | case1 a b c rest h ih =>
    rw [List.cons_append, List.cons_append, List.cons_append, countTriples, countTriples,
      if_pos h, if_pos h, ih, Nat.add_assoc]
  | case2 a b c rest h ih =>
    rw [List.cons_append, List.cons_append, List.cons_append, countTriples, countTriples,
      if_neg h, if_neg h]
    exact ih
  | case3 t hshort =>
    rcases t with _ | ⟨a, _ | ⟨b, _ | ⟨c, rest⟩⟩⟩
    · simp [hcons, countTriples]
    · simp [hone, countTriples]
    · show countTriples q (a :: b :: d :: t') = countTriples q [a, b] + countTriples q t'
      rw [countTriples, if_neg fun h => hd h.2.2, hone]
      simp [countTriples]
    · exact absurd rfl (hshort a b c rest)

lemma countTriples_mute {q : Char} (hq : isQuote q = true) {piece : Text} (hmute : IsMute piece)
    (hne : piece ≠ []) (t t' : Text) :
    countTriples q (t ++ (piece ++ t')) = countTriples q t + countTriples q t' := by
  have hchar : ∀ c ∈ piece, c ≠ q := by
    rintro c hc rfl
    rw [(hmute c hc).1] at hq
    cases hq
  have hdrop : ∀ piece : Text, (∀ c ∈ piece, c ≠ q) →
      countTriples q (piece ++ t') = countTriples q t' := by
    intro piece
    induction piece with
    | nil => exact fun _ => rfl
    | cons c rest ih =>
      intro h
      obtain ⟨hc, hrest⟩ := List.forall_mem_cons.mp h
      have hfirst := countTriples_other hc [] (rest ++ t')
      rw [List.cons_append]
      rw [List.nil_append] at hfirst
      rw [hfirst, ih hrest]
      simp [countTriples]
  obtain ⟨c, rest, rfl⟩ := List.exists_cons_of_ne_nil hne
  obtain ⟨hc, hrest⟩ := List.forall_mem_cons.mp hchar
  rw [List.cons_append, countTriples_other hc, hdrop rest hrest]

/-! ## Exchanges -/

/-- Code that means the same as other code for the lines around it. -/
structure SameLayout (code code' : Text) : Prop where
  run : CodeState.start.run code' = CodeState.start.run code
  noComment : splitAtCode? startsComment .start code = none →
    splitAtCode? startsComment .start code' = none
  last : endKind code' = endKind code
  counts : ∀ p : Char → Bool, (∀ c, p c = true → (isOpener c || isCloser c) = true) →
    countCode p code' = countCode p code
  triples : ∀ q, isQuote q = true → countTriples q code' = countTriples q code

namespace SameLayout

lemma refl (code : Text) : SameLayout code code := ⟨rfl, id, rfl, fun _ _ => rfl, fun _ _ => rfl⟩

lemma trans {code code' code'' : Text} (h : SameLayout code code') (h' : SameLayout code' code'') :
    SameLayout code code'' where
  run := h'.run.trans h.run
  noComment := fun hcode => h'.noComment (h.noComment hcode)
  last := h'.last.trans h.last
  counts := fun p hp => (h'.counts p hp).trans (h.counts p hp)
  triples := fun q hq => (h'.triples q hq).trans (h.triples q hq)

/-- Pieces are exchanged that hold no quotes and the same brackets, and end alike. -/
lemma exchange {old new : Text} (hold : IsMute old) (hnew : IsMute new)
    (hbrackets : bracketsOf old = bracketsOf new) (hne : old ≠ [])
    (hlast : endKind old = endKind new) (head tail : Text) :
    SameLayout (head ++ (old ++ tail)) (head ++ (new ++ tail)) := by
  have hne' : new ≠ [] := by
    rintro rfl
    exact hne (endKind_eq_none_iff.mp hlast)
  obtain ⟨hrun, hcount⟩ := run_mute_congr (CodeState.sound_start.run head) hold hnew hbrackets hne
    hne'
  refine ⟨?_, fun hnone => ?_, ?_, fun p hp => ?_, fun q hq => ?_⟩
  · simp only [CodeState.run_append, hrun]
  · simp only [splitAtCode?_append_eq_none_iff oneChar_startsComment] at hnone ⊢
    obtain ⟨hhead, -, htail⟩ := hnone
    rw [← hrun] at htail
    exact ⟨hhead, noComment_mute hnew, htail⟩
  · simp only [endKind_append, hlast]
  · simp only [countCode_eq, countFrom_append, hcount p hp, hrun]
  · rw [countTriples_mute hq hold hne, countTriples_mute hq hnew hne']

lemma eq_nil {code code' : Text} (h : SameLayout code code') (hcode : code = []) : code' = [] := by
  have hlast := h.last
  rw [hcode] at hlast
  exact endKind_eq_none_iff.mp hlast

lemma recodes {line code' : Text} (h : SameLayout (codeOfLine line) code') :
    Recodes (codeOfLine line) code' := by
  refine ⟨h.noComment (noComment_codeOfLine line), dropEnd_eq_self fun c hc => ?_, fun hquote => ?_⟩
  · have hkind : endKind (codeOfLine line) = some (isBlank c, c == '\\') := by
      rw [← h.last, endKind, hc]
      rfl
    obtain ⟨d, hd, heq⟩ := Option.map_eq_some_iff.mp hkind
    rw [← (Prod.mk.inj heq).1]
    rw [← trimEnd_codeOfLine] at hd
    exact getLast?_dropEnd hd
  · rw [h.run]
    exact hquote

lemma afterCode {code code' : Text} (h : SameLayout code code') (s : LayoutState) :
    s.afterCode code' = s.afterCode code := by
  have hback : code'.endsWith "\\" = code.endsWith "\\" := by
    rw [endsWith_backslash, endsWith_backslash, h.last]
  have hopened : openedTriple? code' = openedTriple? code := by
    simp only [openedTriple?, leavesOpen, List.find?_cons, List.find?_nil,
      h.triples '"' (by decide), h.triples '\'' (by decide)]
  rw [LayoutState.afterCode, LayoutState.afterCode, hopened, hback,
    h.counts isOpener fun c hc => by rw [hc]; rfl,
    h.counts isCloser fun c hc => by rw [hc, Bool.or_true]]

/-- A line with other code of the same layout is read like the line it was. -/
lemma step {line code' : Text} (h : SameLayout (codeOfLine line) code') :
    LayoutState.start.step (code' ++ (splitComment line).2) = LayoutState.start.step line := by
  by_cases hne : codeOfLine line = []
  · have hline := splitComment_append line
    rw [show (splitComment line).1 = [] from hne, List.nil_append] at hline
    rw [h.eq_nil hne, List.nil_append, hline]
  · have hcode : codeOfLine (code' ++ (splitComment line).2) = code' := h.recodes.code_eq
    have hne' : codeOfLine (code' ++ (splitComment line).2) ≠ [] := fun hnil => by
      refine hne (endKind_eq_none_iff.mp ?_)
      rw [← h.last, ← hcode, hnil]
      rfl
    rw [LayoutState.step_of_code hne', LayoutState.step_of_code hne, hcode, h.afterCode]

end SameLayout

/-! ## Mended logic -/

lemma isMute_blanks {t : Text} (h : t.isAllBlank = true) : IsMute t := fun c hc => by
  have hblank := List.all_eq_true.mp h c hc
  exact ⟨isQuote_of_isBlank hblank, ne_of_isBlank hblank (by decide),
    ne_of_isBlank hblank (by decide)⟩

lemma isMute_word {t : Text} (h : t.all isWordChar = true) : IsMute t := by
  intro c hc
  have hword := List.all_eq_true.mp h c hc
  have hplain := isPlain_of_isWordChar hword
  simp only [isPlain, Bool.and_eq_true, Bool.not_eq_true', bne_iff_ne] at hplain
  refine ⟨hplain.1.1.1, hplain.2, ?_⟩
  rintro rfl
  exact absurd hword (by decide)

lemma isMute_append {t t' : Text} : IsMute (t ++ t') ↔ IsMute t ∧ IsMute t' :=
  List.forall_mem_append

lemma bracketsOf_append (t t' : Text) : bracketsOf (t ++ t') = bracketsOf t ++ bracketsOf t' :=
  List.filter_append t t'

lemma bracketsOf_bare {t : Text} (h : IsBare t) : bracketsOf t = [] := by
  refine List.filter_eq_nil_iff.mpr fun c hc => ?_
  have hplain := List.all_eq_true.mp h.isPlain c hc
  simp only [isPlain, Bool.and_eq_true, Bool.not_eq_true'] at hplain
  simp [hplain.1.1.2, hplain.1.2]

lemma bracketsOf_blanks {t : Text} (h : t.isAllBlank = true) : bracketsOf t = [] :=
  bracketsOf_bare (isBare_of_isAllBlank h)

lemma afterConditionWord?_bare {code t : Text} (h : afterConditionWord? code = some t) :
    ∃ lead, code = lead ++ t ∧ IsBare lead := by
  obtain ⟨word, hmem, hword⟩ := List.exists_of_findSome?_eq_some h
  obtain ⟨behind, hbehind, hgap⟩ := Option.bind_eq_some_iff.mp hword
  obtain ⟨gap, rfl, hblank⟩ := eq_of_afterGap? hgap
  have hletters : ∀ word ∈ conditionWords, word.all isWordChar = true := by decide
  refine ⟨code.indentation ++ (word ++ gap), ?_, ?_⟩
  · conv_lhs => rw [eq_of_afterBlanksAnd? hbehind]
    simp only [List.append_assoc]
  · exact isBare_append.mpr ⟨isBare_of_isAllBlank (isAllBlank_indentation _), isBare_append.mpr
      ⟨isBare_of_word (hletters word hmem), isBare_of_isAllBlank hblank⟩⟩

lemma sameLayout_doubleEquality (head : Text) (prev : Option Char) (t tail : Text) :
    SameLayout (head ++ (t ++ tail))
      (head ++ (doubleEquality (CodeState.start.run head) prev t ++ tail)) := by
  induction t generalizing head prev with
  | nil => exact .refl _
  | cons c rest ih =>
    rw [doubleEquality]
    split
    · next hif =>
      simp only [Bool.and_eq_true, beq_iff_eq] at hif
      obtain ⟨⟨⟨rfl, hstep⟩, -⟩, -⟩ := hif
      have hquote : (CodeState.start.run head).quote = none :=
        CodeState.quote_of_isSome_step (by rw [hstep]; rfl)
      have hsame : (CodeState.start.run head).step '=' = (CodeState.start.run head, _) :=
        CodeState.step_plain_code hquote (by decide)
      have hrest := ih (head ++ ['=', '=']) (some '=')
      rw [CodeState.run_append, CodeState.run_cons, CodeState.run_cons, CodeState.run_nil, hsame,
        hsame, List.append_assoc, List.append_assoc] at hrest
      rw [hsame]
      have hone : IsMute ['='] := by decide
      have htwo : IsMute ['=', '='] := by decide
      exact (SameLayout.exchange hone htwo rfl (List.cons_ne_nil _ _) rfl head
        (rest ++ tail)).trans hrest
    · have hrest := ih (head ++ [c]) (some c)
      rw [CodeState.run_append, CodeState.run_cons, CodeState.run_nil, List.append_assoc,
        List.append_assoc] at hrest
      exact hrest

lemma sameLayout_compareInCondition? {code code' : Text}
    (h : compareInCondition? code = some code') : SameLayout code code' := by
  simp only [compareInCondition?, Option.bind_eq_bind, Option.bind_eq_some_iff] at h
  obtain ⟨t, ht, h⟩ := h
  obtain ⟨lead, rfl, hlead⟩ := afterConditionWord?_bare ht
  obtain ⟨rfl, -⟩ := eq_of_changed? h
  have hdoubled := sameLayout_doubleEquality lead none (splitCondition t).1 (splitCondition t).2
  rw [splitCondition_append, run_bare hlead] at hdoubled
  rw [before_append, List.append_assoc]
  exact hdoubled

/-- The head of a function without parameters, taken apart. -/
lemma emptyParameters?_eq_some_iff {code head after : Text} :
    emptyParameters? code = some (head, after) ↔ ∃ function gap gap', FunctionHead function ∧
      gap.isAllBlank = true ∧ gap'.isAllBlank = true ∧ head = function ++ gap ∧
      code = head ++ ("(" ++ (gap' ++ (")" ++ after))) := by
  constructor
  · intro h
    simp only [emptyParameters?, Option.bind_eq_bind, Option.bind_eq_some_iff, Prod.exists] at h
    obtain ⟨name, rest, hname, inside, hopen, after', hclose, heq⟩ := h
    obtain ⟨function, hfunction, -, rfl⟩ := functionHead_of_functionName? hname
    obtain ⟨rfl, rfl⟩ := Prod.mk.inj (Option.some.inj heq)
    have hparts : function ++ rest = (function ++ rest.indentation) ++ rest.trimStart := by
      rw [List.append_assoc, ← trimStart_append]
    refine ⟨function, rest.indentation, inside.indentation, hfunction, isAllBlank_indentation rest,
      isAllBlank_indentation inside, ?_, ?_⟩
    · rw [hparts, before_append]
    · rw [hparts, before_append, ← eq_of_afterBlanksAnd? hclose,
        ← (after?_eq_some_iff _ _ _).mp hopen]
  · rintro ⟨function, gap, gap', hfunction, hgap, hgap', rfl, rfl⟩
    have hends : continuesWord (gap ++ ("(" ++ (gap' ++ (")" ++ after)))) = false :=
      continuesWord_blanks_cons hgap (c := '(') (by decide) _
    obtain ⟨name, hname⟩ := hfunction.functionName? hends
    have hopen : afterBlanksAnd? "(" (gap ++ ("(" ++ (gap' ++ (")" ++ after)))) =
        some (gap' ++ (")" ++ after)) :=
      (afterBlanksAnd?_cons_iff (c := '(') (by decide) []).mpr ⟨gap, hgap, rfl⟩
    have hclose : afterBlanksAnd? ")" (gap' ++ (")" ++ after)) = some after :=
      (afterBlanksAnd?_cons_iff (c := ')') (by decide) []).mpr ⟨gap', hgap', rfl⟩
    have hbefore : before (function ++ (gap ++ ("(" ++ (gap' ++ (")" ++ after)))))
        (trimStart (gap ++ ("(" ++ (gap' ++ (")" ++ after))))) = function ++ gap := by
      rw [trimStart_blanks hgap, ← List.append_assoc]
      exact before_append _ _
    rw [List.append_assoc, emptyParameters?, hname]
    simp only [Option.bind_eq_bind, Option.bind_some, hopen, hclose, hbefore]
    rfl

lemma isMute_name (receiver : Receiver) : IsMute receiver.name := by
  cases receiver <;> decide

lemma sameLayout_addReceiver? {receiver : Receiver} {code code' : Text}
    (h : addReceiver? receiver code = some code') : SameLayout code code' := by
  obtain ⟨⟨head, after⟩, hempty, rfl⟩ := Option.map_eq_some_iff.mp h
  obtain ⟨function, gap, gap', hfunction, hgap, hgap', rfl, rfl⟩ :=
    emptyParameters?_eq_some_iff.mp hempty
  have hold : IsMute ("(" ++ (gap' ++ ")")) :=
    isMute_append.mpr ⟨by decide, isMute_append.mpr ⟨isMute_blanks hgap', by decide⟩⟩
  have hnew : IsMute ("(" ++ (receiver.name ++ ")")) :=
    isMute_append.mpr ⟨by decide, isMute_append.mpr ⟨isMute_name receiver, by decide⟩⟩
  have hname : bracketsOf receiver.name = [] := by cases receiver <;> rfl
  have hbrackets :
      bracketsOf ("(" ++ (gap' ++ ")")) = bracketsOf ("(" ++ (receiver.name ++ ")")) := by
    simp only [bracketsOf_append, bracketsOf_blanks hgap', hname]
  have hlast : ∀ t : Text, endKind (("(" : Text) ++ (t ++ ")")) = endKind ")" := fun t => by
    rw [← List.append_assoc]
    exact endKind_append_of_ne_nil _ (List.cons_ne_nil ')' [])
  have hexchange := SameLayout.exchange hold hnew hbrackets (by simp)
    ((hlast gap').trans (hlast receiver.name).symm) (function ++ gap) after
  simpa only [List.append_assoc] using hexchange

/-- What is exchanged for a test for `None`: a piece without brackets. -/
lemma exchanged_piece {sign new old rest put : Text} {b : Before} (hsign : IsMute sign)
    (hbrackets : bracketsOf sign = [])
    (h : noneRule sign new b (old ++ rest) = some (old.length, put)) :
    put = new ∧ IsMute old ∧ bracketsOf old = [] ∧ old.getLast? = some 'e' := by
  obtain ⟨-, hput, gap, gap', rest', hgap, hgap', -, ht, hn⟩ := eq_of_noneRule h
  obtain ⟨rfl, rfl⟩ := List.append_inj ht hn
  refine ⟨hput, ?_, ?_, ?_⟩
  · exact isMute_append.mpr ⟨isMute_blanks hgap, isMute_append.mpr
      ⟨hsign, isMute_append.mpr ⟨isMute_blanks hgap', by decide⟩⟩⟩
  · simp only [bracketsOf_append, bracketsOf_blanks hgap, bracketsOf_blanks hgap', hbrackets]
    rfl
  · simp [List.getLast?_append]

lemma run_of_no_brackets {s : CodeState} (hs : s.quote = none) {t : Text} (ht : IsMute t)
    (hbrackets : bracketsOf t = []) : s.run t = s := by
  rw [(run_mute hs ht).1, hbrackets]
  rfl

/-- A rule that exchanges pieces without quotes, with the same brackets and ends. -/
def KeepsLayout (rule : Rule) : Prop := ∀ b old rest put,
  rule b (old ++ rest) = some (old.length, put) →
    IsMute old ∧ IsMute put ∧ bracketsOf old = bracketsOf put ∧ endKind old = endKind put

lemma KeepsLayout.sameLayout {rule : Rule} (hrule : KeepsLayout rule) {b : Before}
    {t out : Text} (h : Substituted rule b t out) (head : Text) :
    SameLayout (head ++ t) (head ++ out) := by
  induction h generalizing head with
  | nil => exact .refl _
  | @keep b c rest out _ _ ih =>
    have hrest := ih (head ++ [c])
    rwa [List.append_assoc, List.append_assoc] at hrest
  | @swap b old put rest out hne hr _ ih =>
    obtain ⟨hold, hput, hbrackets, hlast⟩ := hrule _ _ _ _ hr
    have hrest := ih (head ++ put)
    rw [List.append_assoc, List.append_assoc] at hrest
    exact (SameLayout.exchange hold hput hbrackets hne hlast head rest).trans hrest

lemma KeepsLayout.substitute? {rule : Rule} (hrule : KeepsLayout rule)
    (htakes : rule.Takes) {code code' : Text} (h : substitute? rule code = some code') :
    SameLayout code code' := by
  obtain ⟨rfl, -⟩ := eq_of_changed? h
  exact hrule.sameLayout (substituted_substitute htakes code) []

lemma keepsLayout_noneRule {sign new : Text} (hsign : IsMute sign) (hnew : IsMute new)
    (hbrackets : bracketsOf sign = [] ∧ bracketsOf new = []) (hlast : new.getLast? = some 'e') :
    KeepsLayout (noneRule sign new) := by
  intro b old rest put hr
  obtain ⟨rfl, hold, hempty, hend⟩ := exchanged_piece hsign hbrackets.1 hr
  exact ⟨hold, hnew, hempty.trans hbrackets.2.symm, by rw [endKind, endKind, hend, hlast]⟩

lemma sameLayout_mend {d : Draft} {fix : Fix} {revision : Text → Option Text}
    (h : ∀ code code', revision code = some code' → SameLayout code code') :
    SameLayout d.code (d.mend fix revision).code := by
  rw [Draft.mend]
  cases hr : revision d.code with
  | none => exact .refl _
  | some code' => exact h _ _ hr

/-- Mended logic leaves code of the same layout. -/
lemma sameLayout_logicDraft (above : List Text) (code : Text) :
    SameLayout code (logicDraft above code).code := by
  have hnone : ∀ sign new, IsMute sign → IsMute new → bracketsOf sign = [] ∧ bracketsOf new = [] →
      new.getLast? = some 'e' → (noneRule sign new).Takes →
      ∀ code code', substitute? (noneRule sign new) code = some code' → SameLayout code code' := by
    exact fun sign new hsign hnew hbrackets hlast htakes code code' h =>
      (keepsLayout_noneRule hsign hnew hbrackets hlast).substitute? htakes h
  have hreceiver : ∀ d : Draft, SameLayout d.code (mendReceiver above d).code := by
    intro d
    unfold mendReceiver
    split
    · exact sameLayout_mend fun _ _ => sameLayout_addReceiver?
    · exact .refl _
  unfold logicDraft
  simp only [Draft.advise_code]
  refine (((sameLayout_mend (d := .ofCode code) fun _ _ => sameLayout_compareInCondition?).trans
    (hreceiver _)).trans (sameLayout_mend ?_)).trans (sameLayout_mend ?_)
  · exact hnone _ _ (by decide) (by decide) (by decide) rfl
      (gains_noneRule (by decide) (by decide)).takes
  · exact hnone _ _ (by decide) (by decide) (by decide) rfl
      (gains_noneRule (by decide) (by decide)).takes

end Marginalia.Repair
