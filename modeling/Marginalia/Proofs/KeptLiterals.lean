import Marginalia.Proofs.Exchanges
import Marginalia.Proofs.FilledLiterals
import Marginalia.Proofs.FunctionHeads
import Marginalia.Proofs.ImprovedPitfalls
import Marginalia.Proofs.ImprovedReferences

/-!
# Rewrites and literals

The rewrites of calls look for pieces of text, not of code. Whether they keep the string literals of
a line depends on where they find such pieces: a call that is replaced inside a literal changes it,
and so does a call in a literal to which arguments are added.
-/

namespace Marginalia

open Text Repair

/-- What the characters of a literal count while calls in it are replaced. -/
def callWeight (c : Char) : Int := charWeight c - if c = 'u' then 1 else 0

/-- A rule that puts one piece of text for another, both without quotes and backslashes, the second
of which counts more. -/
structure Rule.Replaces (rule : Rule) (old new : Text) : Prop where
  put : ∀ b t n put, rule b t = some (n, put) → ∃ rest, t = old ++ rest ∧ n = old.length ∧ put = new
  inert : old.all isInert = true ∧ new.all isInert = true
  ne_nil : old ≠ [] ∧ new ≠ []
  counts : (old.map callWeight).sum < (new.map callWeight).sum

namespace Rule.Replaces

variable {rule : Rule} {old new : Text}

lemma takes (h : rule.Replaces old new) : rule.Takes := fun b t n put hr => by
  obtain ⟨rest, ht, hn, -⟩ := h.put b t n put hr
  exact ⟨old, rest, ht, hn, h.ne_nil.1⟩

/-- Where it is found outside literals, the piece has no character in one, and neither has the
other. -/
lemma keeps_iff (h : rule.Replaces old new) {b : Before} (hb : b.code.Sound) :
    (⟨b, old, new⟩ : Exchange).KeepsLiterals ↔ b.quoted = false := by
  rw [Exchange.KeepsLiterals, literalChars_inert hb h.inert.1, literalChars_inert hb h.inert.2,
    Before.quoted]
  cases b.code.quote.isSome with
  | false => exact ⟨fun _ => rfl, fun _ => rfl⟩
  | true =>
    refine ⟨fun hsame => ?_, fun hquoted => absurd hquoted (by decide)⟩
    have hold : old = new := by simpa [Function.comp_def] using congrArg (List.map Prod.fst) hsame
    have hcounts := h.counts
    rw [hold] at hcounts
    exact absurd hcounts (Int.lt_irrefl _)

lemma raises (h : rule.Replaces old new) : rule.Raises callWeight := by
  intro b t n put hb hr
  obtain ⟨rest, ht, hn, rfl⟩ := h.put b t n put hr
  have hold := hb.run_inert h.inert.1 h.ne_nil.1
  have hnew := hb.run_inert h.inert.2 h.ne_nil.2
  refine ⟨old, rest, ht, hn, h.ne_nil.1, hnew.trans hold.symm, ?_⟩
  cases hquoted : b.quoted with
  | false => exact .inl ((h.keeps_iff hb).mpr hquoted)
  | true =>
    have hsome : b.code.quote.isSome = true := hquoted
    right
    rw [literalSum_inert _ hb h.inert.1, literalSum_inert _ hb h.inert.2, hsome]
    exact h.counts

/-- Nothing is exchanged inside a literal if every exchange keeps the characters in literals. -/
lemma keeps_exchanges_iff (h : rule.Replaces old new) (t : Text) :
    (∀ e ∈ exchanges rule t, e.KeepsLiterals) ↔ ∀ e ∈ exchanges rule t, e.before.quoted = false := by
  refine forall₂_congr fun e he => ?_
  obtain ⟨hb, rest, hr⟩ := applies_of_mem_exchanges h.takes he
  obtain ⟨rest', ht, hn, hput⟩ := h.put _ _ _ _ hr
  obtain ⟨hold, -⟩ := List.append_inj ht hn
  obtain ⟨before, old', new'⟩ := e
  obtain rfl : old' = old := hold
  obtain rfl : new' = new := hput
  exact h.keeps_iff hb

end Rule.Replaces

namespace Repair

/-! ## Calls that are replaced -/

lemma replaces_callRule {old new : Text} (hmem : (old, new) ∈ callFixes) :
    (callRule old new).Replaces old new := by
  have htable : ∀ fix ∈ callFixes, (fix.1.all isInert = true ∧ fix.2.all isInert = true) ∧
      (fix.1 ≠ [] ∧ fix.2 ≠ []) ∧ (fix.1.map callWeight).sum < (fix.2.map callWeight).sum := by
    decide
  obtain ⟨hinert, hne, hcounts⟩ := htable _ hmem
  exact ⟨fun b t n put hr => eq_of_callRule hr, hinert, hne, hcounts⟩

lemma replaces_clockRule : clockRule.Replaces "time.clock()" "time.time()" :=
  ⟨fun _ _ _ _ hr => eq_of_freshLiteral hr, by decide, by decide, by decide⟩

/-- Whether replacements that are made one after the other all stand outside literals. -/
def SparesLiterals : List (Text × Text) → Text → Prop
  | [], _ => True
  | (old, new) :: fixes, code => (∀ e ∈ exchanges (callRule old new) code, e.before.quoted = false) ∧
      SparesLiterals fixes (substitute (callRule old new) code)

/-- Makes replacements one after the other. -/
def replaceAll : List (Text × Text) → Text → Text
  | [], code => code
  | (old, new) :: fixes, code => replaceAll fixes (substitute (callRule old new) code)

lemma replaceAll_cases {fixes : List (Text × Text)} (hfixes : ∀ fix ∈ fixes, fix ∈ callFixes)
    (code : Text) :
    (SparesLiterals fixes code ∧ literals (replaceAll fixes code) = literals code) ∨
    (¬SparesLiterals fixes code ∧
      literalSum callWeight .start code < literalSum callWeight .start (replaceAll fixes code)) := by
  induction fixes generalizing code with
  | nil => exact .inl ⟨trivial, rfl⟩
  | cons fix fixes ih =>
    obtain ⟨old, new⟩ := fix
    have hrule := replaces_callRule (hfixes _ List.mem_cons_self)
    have hrest := ih (fun fix hfix => hfixes fix (List.mem_cons_of_mem _ hfix))
      (substitute (callRule old new) code)
    have hcases := hrule.raises.literals_cases hrule.takes code
    rw [hrule.keeps_exchanges_iff] at hcases
    rw [SparesLiterals, replaceAll]
    rcases hcases with ⟨hall, heq⟩ | ⟨hnot, hlt⟩
    · rw [← heq, ← literalSum_eq_of_literals heq]
      rcases hrest with ⟨hspares, hkept⟩ | ⟨hnot, hlt⟩
      · exact .inl ⟨⟨hall, hspares⟩, hkept⟩
      · exact .inr ⟨fun hspares => hnot hspares.2, hlt⟩
    · right
      refine ⟨fun hspares => hnot hspares.1, ?_⟩
      rcases hrest with ⟨-, heq⟩ | ⟨-, hlater⟩
      · rw [← literalSum_eq_of_literals heq] at hlt
        exact hlt
      · exact Int.lt_trans hlt hlater

/-- Code whose calls are to be replaced: an assignment in an initializer may have been turned
around. -/
def turnedCode (inInitializer : Bool) (code : Text) : Text :=
  if inInitializer then (turnAssignment? code).getD code else code

lemma code_referenceDraft (inInitializer : Bool) (code : Text) :
    (referenceDraft inInitializer code).code =
      replaceAll callFixes (turnedCode inInitializer code) := by
  have hfold : ∀ (fixes : List (Text × Text)) (d : Draft),
      (fixes.foldl (fun d fix => d.mend (.replaced fix.1 fix.2) (substitute? (callRule fix.1 fix.2)))
        d).code = replaceAll fixes d.code := by
    intro fixes
    induction fixes with
    | nil => exact fun _ => rfl
    | cons fix fixes ih =>
      intro d
      obtain ⟨old, new⟩ := fix
      rw [List.foldl_cons, ih, code_mend_substitute?]
      rfl
  have hturned : ((Draft.ofCode code).mend .assignmentOrder turnAssignment?).code =
      (turnAssignment? code).getD code := by
    rw [Draft.mend, show (Draft.ofCode code).code = code from rfl]
    cases turnAssignment? code with
    | none => rfl
    | some code' => rfl
  unfold referenceDraft
  generalize callFixes = fixes
  cases inInitializer with
  | false => exact hfold fixes (.ofCode code)
  | true =>
    rw [turnedCode, if_pos rfl, ← hturned]
    exact hfold fixes _

/-- An assignment that is turned around has no literals, before or after. -/
lemma literals_turnedCode (inInitializer : Bool) (code : Text) :
    literals (turnedCode inInitializer code) = literals code := by
  rw [turnedCode]
  split
  · cases h : turnAssignment? code with
    | none => rfl
    | some code' =>
      obtain ⟨name, gap, gap', ⟨-, hname⟩, hgap, hgap', hcode, hcode'⟩ := eq_of_turnAssignment? h
      have hword := isBare_of_word hname
      have hinert : ∀ {t : Text}, IsBare t → t.all isInert = true :=
        fun ht => all_isInert_of_all_isPlain ht.isPlain
      have hold : code.all isInert = true := by
        rw [hcode]
        simp only [List.all_append, hinert hword, hinert (isBare_of_isAllBlank hgap),
          hinert (isBare_of_isAllBlank hgap'), hinert (isBare_of_isAllBlank (isAllBlank_indentation _))]
        decide
      have hnew : code'.all isInert = true := by
        rw [hcode']
        simp only [List.all_append, hinert hword,
          hinert (isBare_of_isAllBlank (isAllBlank_indentation _))]
        decide
      rw [literals_eq_iff, Option.getD_some, literalChars_inert CodeState.sound_start hnew,
        literalChars_inert CodeState.sound_start hold]
      rfl
  · rfl

/-! ## Ranges -/

/-- A range that leaves a collection by one step, as it may be written. -/
def overlongRange (gap plain step : Text) : Text :=
  "range(" ++ (gap ++ ("len(" ++ (plain ++ (")" ++ (step ++ ")")))))

lemma overlongRange_def (gap plain step : Text) : overlongRange gap plain step =
    "range(" ++ (gap ++ ("len(" ++ (plain ++ (")" ++ (step ++ ")"))))) := rfl

/-- The range without the step. -/
def mendedRange (plain : Text) : Text := "range(len(" ++ plain ++ "))"

lemma eq_overlongRange {b : Before} {t new : Text} {n : Nat} (h : rangeRule b t = some (n, new)) :
    ∃ gap plain step rest : Text, (gap.all isInert = true ∧ step.all isInert = true ∧ step ≠ []) ∧
      t = overlongRange gap plain step ++ rest ∧ n = (overlongRange gap plain step).length ∧
      new = mendedRange plain := by
  obtain ⟨gap, plain, gap₁, gap₂, gap₃, rest, hblank, ht, hn, hnew⟩ := eq_of_rangeRule h
  have hinert := all_isInert_of_isAllBlank hblank
  simp only [List.all_append, Bool.and_eq_true] at hinert
  have hold : overlongRange gap plain (gap₁ ++ ("+" ++ (gap₂ ++ ("1" ++ gap₃)))) =
      "range(" ++ (gap ++ ("len(" ++ (plain ++ (")" ++ (gap₁ ++ ("+" ++ (gap₂ ++
        ("1" ++ (gap₃ ++ ")"))))))))) := by
    simp only [overlongRange_def, List.append_assoc]
  refine ⟨gap, plain, gap₁ ++ ("+" ++ (gap₂ ++ ("1" ++ gap₃))), rest, ⟨hinert.1, ?_, by simp⟩, ?_, ?_,
    hnew⟩
  · simp only [List.all_append, hinert]
    decide
  · rw [hold]
    exact ht
  · rw [hold]
    exact hn

lemma takes_rangeRule : rangeRule.Takes := gains_rangeRule.takes

/-- The characters in literals of a text that is inserted where a literal may be open. -/
def inLiteral (s : CodeState) (t : Text) : List (Char × Bool) :=
  if s.quote.isSome then t.map (·, false) else []

lemma literalChars_inert_append {s : CodeState} (h : s.Sound) (he : s.escaped = false) {t : Text}
    (ht : t.all isInert = true) (t' : Text) :
    literalChars s (t ++ t') = inLiteral s t ++ literalChars s t' ∧
      (s.run t').Agree (s.run (t ++ t')) := by
  have hagree := h.agree_run_inert he ht
  rw [literalChars_append, literalChars_inert h ht, literalChars_congr hagree, CodeState.run_append]
  exact ⟨rfl, (hagree.run t').symm⟩

/-- What a range that is mended loses is in a literal with the parenthesis before it. -/
lemma literalChars_overlongRange {s : CodeState} (h : s.Sound) (plain : Text) {gap step : Text}
    (hgap : gap.all isInert = true) (hstep : step.all isInert = true) :
    ∃ head body tail, literalChars s (overlongRange gap plain step) =
        head ++ (inLiteral s gap ++ (body ++ (inLiteral (s.run ("range(len(" ++ plain)) step ++ tail))) ∧
      literalChars s (mendedRange plain) = head ++ (body ++ tail) ∧
      (s.run (mendedRange plain)).Agree (s.run (overlongRange gap plain step)) := by
  let opened := s.run "range("
  let length : Text := "len(" ++ (plain ++ ")")
  let measured := opened.run length
  have hold : overlongRange gap plain step = "range(" ++ (gap ++ (length ++ (step ++ ")"))) := by
    simp only [overlongRange_def, length, List.append_assoc]
  have hhead : ("range(len(" : Text) = "range(" ++ "len(" := by decide
  have htail : ("))" : Text) = ")" ++ ")" := rfl
  have hnew : mendedRange plain = "range(" ++ (length ++ ")") := by
    unfold mendedRange
    rw [hhead, htail]
    simp only [length, List.append_assoc]
  have hopened : opened.Agree ⟨s.quote, false, s.depth⟩ :=
    h.run_inert (t := ("range(" : Text)) (by decide) (by simp)
  have hbefore : opened.run ("len(" ++ plain) = s.run ("range(len(" ++ plain) := by
    simp only [opened, ← CodeState.run_append, hhead, List.append_assoc]
  have hmeasured : measured.Agree ⟨(s.run ("range(len(" ++ plain)).quote, false,
      (s.run ("range(len(" ++ plain)).depth⟩ := by
    have hsplit : measured = (s.run ("range(len(" ++ plain)).run [')'] := by
      rw [← hbefore, ← CodeState.run_append, List.append_assoc]
      rfl
    rw [hsplit]
    exact (h.run _).run_inert (by decide) (by simp)
  obtain ⟨hgapChars, hgapRun⟩ := literalChars_inert_append (h.run "range(") hopened.escaped hgap
    (length ++ (step ++ ")"))
  obtain ⟨hstepChars, hstepRun⟩ := literalChars_inert_append ((h.run "range(").run length)
    hmeasured.escaped hstep ")"
  have hgapQuote : inLiteral opened gap = inLiteral s gap := by
    rw [inLiteral, hopened.quote, inLiteral]
  have hstepQuote : inLiteral measured step = inLiteral (s.run ("range(len(" ++ plain)) step := by
    rw [inLiteral, hmeasured.quote, inLiteral]
  refine ⟨literalChars s "range(", literalChars opened length, literalChars measured ")", ?_, ?_, ?_⟩
  · rw [hold, literalChars_append, hgapChars, literalChars_append opened length, hstepChars,
      ← hgapQuote, ← hstepQuote]
  · rw [hnew, literalChars_append, literalChars_append opened length]
  · rw [hold, hnew, CodeState.run_append, CodeState.run_append s]
    refine CodeState.Agree.trans ?_ hgapRun
    rw [CodeState.run_append, CodeState.run_append _ length]
    exact hstepRun

/-- A list in which something is inserted at two places is longer, unless it is nothing. -/
lemma nil_or_longer {α : Type} (head body tail first second : List α) :
    (first = [] ∧ second = []) ∨
      (head ++ (body ++ tail)).length < (head ++ (first ++ (body ++ (second ++ tail)))).length := by
  simp only [List.length_append, ← List.length_eq_zero_iff]
  omega

/-- Whether an exchange that mends a range keeps the characters in literals. -/
lemma keepsLiterals_range_iff {b : Before} (hb : b.code.Sound) {gap plain step : Text}
    (hgap : gap.all isInert = true) (hstep : step.all isInert = true) (hne : step ≠ []) :
    (⟨b, overlongRange gap plain step, mendedRange plain⟩ : Exchange).KeepsLiterals ↔
      (b.quoted = true → gap = []) ∧ (b.code.run ("range(len(" ++ plain)).quote = none := by
  obtain ⟨head, body, tail, hold, hnew, -⟩ := literalChars_overlongRange hb plain hgap hstep
  have hgapNil : inLiteral b.code gap = [] ↔ (b.quoted = true → gap = []) := by
    rw [inLiteral, Before.quoted]
    cases b.code.quote.isSome with
    | false => simp
    | true => simp
  have hstepNil : inLiteral (b.code.run ("range(len(" ++ plain)) step = [] ↔
      (b.code.run ("range(len(" ++ plain)).quote = none := by
    rw [inLiteral]
    cases (b.code.run ("range(len(" ++ plain)).quote with
    | none => simp
    | some q => simp [hne]
  rw [Exchange.KeepsLiterals, hold, hnew, ← hgapNil, ← hstepNil]
  constructor
  · intro heq
    refine (nil_or_longer head body tail _ _).resolve_right fun hlt => ?_
    rw [heq] at hlt
    exact absurd hlt (Nat.lt_irrefl _)
  · rintro ⟨hgap, hstep⟩
    rw [hgap, hstep]
    rfl

lemma literalSum_minus_one (s : CodeState) (t : Text) :
    literalSum (fun _ => -1) s t = -(literalChars s t).length := by
  simp [literalSum]

lemma raises_rangeRule : rangeRule.Raises (fun _ => -1) := by
  intro b t n new hb hr
  obtain ⟨gap, plain, step, rest, ⟨hgap, hstep, -⟩, ht, hn, rfl⟩ := eq_overlongRange hr
  obtain ⟨head, body, tail, hold, hnew, hagree⟩ :=
    literalChars_overlongRange hb plain hgap hstep
  refine ⟨_, rest, ht, hn, by simp [overlongRange_def], hagree, ?_⟩
  rw [literalSum_minus_one, literalSum_minus_one, hold, hnew]
  rcases nil_or_longer head body tail (inLiteral b.code gap)
    (inLiteral (b.code.run ("range(len(" ++ plain)) step) with ⟨hnil, hnil'⟩ | hlonger
  · left
    rw [hnil, hnil']
    rfl
  · right
    exact Int.neg_lt_neg (Int.ofNat_lt.mpr hlonger)

/-! ## Calls that lack arguments -/

/-- Whether every call that the rounds of completion pick satisfies a condition. -/
def Picks (arities : Arities) (code : Text) (p : Text → ShortCall → Prop) : Prop :=
  ∀ code' call, Relation.ReflTransGen (Completes arities) code code' →
    shortCall? arities none code' = some call → p code' call

section

variable {arities : Arities} {code : Text} {p : Text → ShortCall → Prop}

lemma picks_of_none (h : shortCall? arities none code = none) : Picks arities code p := by
  intro code' call hreach hcall
  rcases hreach.cases_head with rfl | ⟨next, ⟨call', hcall', -⟩, -⟩
  · rw [h] at hcall
    cases hcall
  · rw [h] at hcall'
    cases hcall'

lemma picks_iff {call : ShortCall} (h : shortCall? arities none code = some call) :
    Picks arities code p ↔ p code call ∧ Picks arities call.completed p := by
  constructor
  · intro hpicks
    exact ⟨hpicks code call .refl h, fun code' call' hreach hcall' =>
      hpicks code' call' (.head ⟨call, h, rfl⟩ hreach) hcall'⟩
  · rintro ⟨hhere, hlater⟩ code' call' hreach hcall'
    rcases hreach.cases_head with rfl | ⟨next, ⟨call'', hcall'', rfl⟩, hrest⟩
    · rw [h] at hcall'
      obtain rfl := Option.some.inj hcall'
      exact hhere
    · rw [h] at hcall''
      obtain rfl := Option.some.inj hcall''
      exact hlater code' call' hrest hcall'

end

/-- Whether a call that is picked opens outside literals. -/
def OpensOutside (_ : Text) (call : ShortCall) : Prop :=
  (CodeState.start.run call.head).quote = none

/-- Whether a call that is picked in code closes outside literals. -/
def ClosesOutside (code : Text) (call : ShortCall) : Prop :=
  ∀ front, code = front ++ call.tail → (CodeState.start.run front).quote = none

lemma Round.closesOutside_iff {code inside after : Text} {call : ShortCall}
    (h : Round code call inside after) :
    ClosesOutside code call ↔ ((CodeState.start.run call.head).run inside).quote = none := by
  have hfront : ∀ front, code = front ++ call.tail ↔ front = call.head ++ inside := by
    intro front
    rw [h.tail, h.code, ← List.append_assoc, List.append_cancel_right_eq, eq_comm]
  simp only [ClosesOutside, hfront, forall_eq, CodeState.run_append]

/-- What the rounds of completion do to the literals of code. -/
def LiteralsCompleted (arities : Arities) (code code' : Text) : Prop :=
  (Picks arities code OpensOutside → literals code' = literals code) ∧
    ((Picks arities code ClosesOutside ∧
        literalSum charWeight .start code' = literalSum charWeight .start code) ∨
      (¬Picks arities code ClosesOutside ∧
        literalSum charWeight .start code < literalSum charWeight .start code'))

lemma LiteralsCompleted.round {arities : Arities} {code code' : Text} {call : ShortCall}
    (hc : shortCall? arities none code = some call)
    (h : LiteralsCompleted arities call.completed code') : LiteralsCompleted arities code code' := by
  obtain ⟨inside, after, hround⟩ := exists_round hc
  obtain ⟨hkept, hsum⟩ := h
  rw [LiteralsCompleted, picks_iff hc, picks_iff hc]
  constructor
  · rintro ⟨hopens, hlater⟩
    rw [hkept hlater, hround.literals_iff]
    apply hround.keeps_of_unquoted
    rw [Before.quoted, Round.code_exchange, hopens]
    rfl
  · rw [hround.closesOutside_iff]
    rcases hround.literalSum_cases with ⟨hcloses, heq⟩ | ⟨hcloses, hlt⟩
    · rw [← heq]
      simpa only [hcloses, true_and] using hsum
    · right
      refine ⟨fun hall => hcloses hall.1, ?_⟩
      rcases hsum with ⟨-, heq⟩ | ⟨-, hlater⟩
      · rw [heq]
        exact hlt
      · exact Int.lt_trans hlt hlater

lemma completeCalls?_literals {arities : Arities} {code code' : Text} {added : List (Text × Nat)}
    (h : completeCalls? arities code = some (added, code')) :
    LiteralsCompleted arities code code' :=
  completeCallsWithin_induction
    (fun _ hc => ⟨fun _ => rfl, .inl ⟨picks_of_none hc, rfl⟩⟩)
    (fun _ _ _ hc ih => ih.round hc) h

/-! ## The rewrites -/

/-- The rewrites keep the literals of code exactly under these conditions. What the calls of
`callFixes` and the clock are replaced by may not be put inside a literal. Where a range is mended,
what is left out may not be in a literal: neither blanks behind its parenthesis nor the step. A round
of completion keeps the literals if its call stands outside them and changes them if the call closes
inside one; whatever the call, it keeps them if what it puts between the parentheses has the
characters in literals that stood there. -/
theorem literals_kept_iff (code : Text) :
    (∀ inInitializer, literals (referenceDraft inInitializer code).code = literals code ↔
      SparesLiterals callFixes (turnedCode inInitializer code)) ∧
    (literals (substitute clockRule code) = literals code ↔
      ∀ e ∈ exchanges clockRule code, e.before.quoted = false) ∧
    ((literals (substitute rangeRule code) = literals code ↔
        ∀ e ∈ exchanges rangeRule code, e.KeepsLiterals) ∧
      ∀ e ∈ exchanges rangeRule code, ∃ gap plain step, step ≠ [] ∧
        e.old = overlongRange gap plain step ∧ e.new = mendedRange plain ∧
        (e.KeepsLiterals ↔ (e.before.quoted = true → gap = []) ∧
          (e.before.code.run ("range(len(" ++ plain)).quote = none)) ∧
    (∀ arities call, shortCall? arities none code = some call →
      ∃ inside after, Round code call inside after ∧
        (literals call.completed = literals code ↔ (Round.exchange call inside).KeepsLiterals) ∧
        (OpensOutside code call → (Round.exchange call inside).KeepsLiterals) ∧
        ((Round.exchange call inside).KeepsLiterals → ClosesOutside code call)) ∧
    ∀ arities added code', completeCalls? arities code = some (added, code') →
      (Picks arities code OpensOutside → literals code' = literals code) ∧
      (literals code' = literals code → Picks arities code ClosesOutside) := by
  refine ⟨fun inInitializer => ?_, ?_, ⟨?_, fun e he => ?_⟩, fun arities call hc => ?_,
    fun arities added code' hc => ?_⟩
  · rw [code_referenceDraft, ← literals_turnedCode inInitializer code]
    rcases replaceAll_cases (fun _ h => h) (turnedCode inInitializer code) with
      ⟨hspares, heq⟩ | ⟨hnot, hlt⟩
    · exact ⟨fun _ => hspares, fun _ => heq⟩
    · refine ⟨fun heq => ?_, fun hspares => absurd hspares hnot⟩
      rw [literalSum_eq_of_literals heq] at hlt
      exact absurd hlt (Int.lt_irrefl _)
  · rw [replaces_clockRule.raises.literals_substitute_iff replaces_clockRule.takes,
      replaces_clockRule.keeps_exchanges_iff]
  · exact raises_rangeRule.literals_substitute_iff takes_rangeRule code
  · obtain ⟨hb, rest, hr⟩ := applies_of_mem_exchanges takes_rangeRule he
    obtain ⟨gap, plain, step, rest', ⟨hgap, hstep, hne⟩, ht, hn, hnew⟩ := eq_overlongRange hr
    obtain ⟨hold, -⟩ := List.append_inj ht hn
    obtain ⟨before, old, new⟩ := e
    obtain rfl : old = _ := hold
    obtain rfl : new = _ := hnew
    exact ⟨gap, plain, step, hne, rfl, rfl, keepsLiterals_range_iff hb hgap hstep hne⟩
  · obtain ⟨inside, after, hround⟩ := exists_round hc
    refine ⟨inside, after, hround, hround.literals_iff, fun hopens => ?_, fun hkeeps => ?_⟩
    · apply hround.keeps_of_unquoted
      rw [Before.quoted, Round.code_exchange, hopens]
      rfl
    · rw [hround.closesOutside_iff]
      rcases hround.literalSum_cases with ⟨hcloses, -⟩ | ⟨-, hlt⟩
      · exact hcloses
      · rw [literalSum_eq_of_literals (hround.literals_iff.mpr hkeeps)] at hlt
        exact absurd hlt (Int.lt_irrefl _)
  · obtain ⟨hkept, hsum⟩ := completeCalls?_literals hc
    refine ⟨hkept, fun heq => ?_⟩
    rcases hsum with ⟨hcloses, -⟩ | ⟨-, hlt⟩
    · exact hcloses
    · rw [literalSum_eq_of_literals heq] at hlt
      exact absurd hlt (Int.lt_irrefl _)

/-- Each of the rewrites changes a literal that holds what it looks for. -/
theorem literals_changed_inside :
    literals (referenceDraft false "print(\"raw_input(\")").code ≠ literals "print(\"raw_input(\")" ∧
    literals (substitute clockRule "print('time.clock()')") ≠ literals "print('time.clock()')" ∧
    literals (substitute rangeRule "print('range(len(x) + 1)')") ≠
      literals "print('range(len(x) + 1)')" ∧
    (completeCalls? [("P", 2)] "print('P(1)')").map (fun (_, code) => literals code) =
      some [("'P(1, None)'" : Text)] ∧ literals "print('P(1)')" = [("'P(1)'" : Text)] := by
  decide +kernel

end Repair

end Marginalia
