import Marginalia.Proofs.CompletionRounds
import Marginalia.Repair
import Mathlib.Algebra.GroupWithZero.Nat
import Mathlib.Data.List.ReduceOption

/-!
# The end of completion

The rounds of completion come to an end exactly when every call that they pick has balanced
arguments, and so does repair. The count of parentheses that `completeCalls?` allows is then enough,
since each round picks a call behind the parenthesis of the one before; and where it is not enough,
no count is.
-/

namespace Marginalia.Repair

open Text

/-- One code is what a round of completion makes of another. -/
def Completes (arities : Arities) (code code' : Text) : Prop :=
  ∃ call, shortCall? arities none code = some call ∧ code' = call.completed

/-- Every call that the rounds of completion pick has balanced arguments. -/
def Settles (arities : Arities) (code : Text) : Prop :=
  ∀ code' call, Relation.ReflTransGen (Completes arities) code code' →
    shortCall? arities none code' = some call → call.IsBalanced

lemma Settles.completed {arities : Arities} {code : Text} {call : ShortCall}
    (h : Settles arities code) (hc : shortCall? arities none code = some call) :
    Settles arities call.completed :=
  fun code' call' hreach => h code' call' (.head ⟨call, hc, rfl⟩ hreach)

/-! The number of parentheses. -/

lemma count_join {a : Char} {sep : Text} (hsep : sep.count a = 0) (pieces : List Text) :
    (join sep pieces).count a = (pieces.map (List.count a)).sum := by
  induction pieces with
  | nil => rfl
  | cons p ps ih =>
    cases ps with
    | nil => simp [join]
    | cons q qs =>
      rw [join, List.count_append, List.count_append, hsep, ih]
      · simp
      · exact List.cons_ne_nil _ _

lemma count_trim_le (a : Char) (t : Text) : (trim t).count a ≤ t.count a := by
  obtain ⟨front, back, ht, -⟩ := trim_append t
  calc (trim t).count a ≤ (front ++ trim t ++ back).count a := by
        rw [List.count_append, List.count_append]
        omega
    _ = t.count a := by rw [← ht]

lemma count_arguments_le (inside : Text) :
    ((argumentsOf inside).map (List.count '(')).sum ≤ inside.count '(' := by
  have hcomma : ([','] : Text).count '(' = 0 := by decide
  have hinside : ((rawPieces ',' inside).map (List.count '(')).sum = inside.count '(' := by
    rw [← count_join hcomma, rawPieces, join_piecesFrom]
  rw [argumentsOf_eq, ← hinside]
  generalize rawPieces ',' inside = pieces
  induction pieces with
  | nil => simp
  | cons p ps ih =>
    have hp := count_trim_le '(' p
    by_cases hblank : trim p = []
    · rw [List.map_cons, List.filter_cons_of_neg (by simp [hblank]), List.map_cons, List.sum_cons]
      omega
    · rw [List.map_cons, List.filter_cons_of_pos (by simp [hblank]), List.map_cons, List.sum_cons,
        List.map_cons, List.sum_cons]
      omega

lemma count_filled_le (inside : Text) (missing : Nat) :
    (filled inside missing).count '(' ≤ inside.count '(' := by
  have hnone : ((List.replicate missing ("None" : Text)).map (List.count '(')).sum = 0 := by
    simp [List.map_replicate]
  rw [filled, count_join (by decide), List.map_append, List.sum_append, hnone]
  exact count_arguments_le inside

lemma Picked.count_completed_le {prev : Option Char} {code : Text} {call : ShortCall}
    {before inside after : Text} (h : Picked prev code call before inside after) :
    call.completed.count '(' ≤ code.count '(' := by
  have hfilled := count_filled_le inside call.missing
  rw [h.completed, h.code]
  simp only [List.count_append, List.count_cons]
  omega

lemma Picked.count_head_le {prev : Option Char} {code : Text} {call : ShortCall}
    {before inside after : Text} (h : Picked prev code call before inside after) :
    call.head.count '(' ≤ code.count '(' := by
  rw [h.head, h.code]
  simp only [List.count_append, List.count_cons, List.count_nil]
  omega

/-- The rounds that are left are not more than the parentheses behind the call that was completed
last. -/
lemma completeCallsWithin_isSome {arities : Arities} {code : Text} (hs : Settles arities code)
    {fuel : Nat} (hfuel : ∀ call, shortCall? arities none code = some call →
      code.count '(' < fuel + call.head.count '(') :
    (completeCallsWithin arities fuel code).isSome = true := by
  induction fuel generalizing code with
  | zero =>
    cases hc : shortCall? arities none code with
    | none => simp [completeCallsWithin, hc]
    | some call =>
      obtain ⟨before, inside, after, hpicked⟩ := shortCall?_picked hc
      have hlt := hfuel call hc
      have hle := hpicked.count_head_le
      omega
  | succ fuel ih =>
    cases hc : shortCall? arities none code with
    | none => simp [completeCallsWithin, hc]
    | some call =>
      obtain ⟨before, inside, after, hpicked⟩ := shortCall?_picked hc
      have hlt := hfuel call hc
      have hle := hpicked.count_completed_le
      have hb : call.IsBalanced := hs code call .refl hc
      have hrest := ih (hs.completed hc) fun next hnext => by
        obtain ⟨between, hbetween⟩ := next_of_balanced hc hb hnext
        rw [hbetween]
        simp only [List.count_append, List.count_cons_self, List.count_nil]
        omega
      rw [completeCallsWithin, hc]
      exact Option.isSome_map.trans hrest

lemma completeCallsWithin_of_unbalanced {arities : Arities} {code : Text} {call : ShortCall}
    (h : shortCall? arities none code = some call) (hb : ¬call.IsBalanced) (fuel : Nat) :
    completeCallsWithin arities fuel code = none := by
  induction fuel generalizing code call with
  | zero => simp [completeCallsWithin, h]
  | succ fuel ih =>
    obtain ⟨arguments, hagain, hopen⟩ := next_of_unbalanced h hb
    simp [completeCallsWithin, h, ih hagain hopen]

lemma completeCallsWithin_of_reaches {arities : Arities} {code code' : Text}
    (hreach : Relation.ReflTransGen (Completes arities) code code')
    (h : ∀ fuel, completeCallsWithin arities fuel code' = none) (fuel : Nat) :
    completeCallsWithin arities fuel code = none := by
  induction hreach using Relation.ReflTransGen.head_induction_on generalizing fuel with
  | refl => exact h fuel
  | head hstep _ ih =>
    obtain ⟨call, hc, rfl⟩ := hstep
    cases fuel with
    | zero => simp [completeCallsWithin, hc]
    | succ fuel => simp [completeCallsWithin, hc, ih fuel]

/-- Where the rounds come to a call whose arguments leave a bracket open, they never end. -/
lemma completeCallsWithin_of_not_settles {arities : Arities} {code : Text}
    (h : ¬Settles arities code) (fuel : Nat) : completeCallsWithin arities fuel code = none := by
  simp only [Settles, not_forall] at h
  obtain ⟨code', call, hreach, hc, hb⟩ := h
  exact completeCallsWithin_of_reaches hreach (completeCallsWithin_of_unbalanced hc hb) fuel

lemma completeCalls?_isSome_of_settles {arities : Arities} {code : Text}
    (h : Settles arities code) : (completeCalls? arities code).isSome = true := by
  refine completeCallsWithin_isSome h fun call hc => ?_
  obtain ⟨before, inside, after, hpicked⟩ := shortCall?_picked hc
  rw [hpicked.head]
  simp only [List.count_append, List.count_cons_self, List.count_nil]
  omega

/-- What holds of code without calls that lack arguments, and of code if it holds once a round is
made, holds of all code whose calls are completed. -/
lemma completeCallsWithin_induction {arities : Arities} {motive : Text → Text → Prop}
    (done : ∀ code, shortCall? arities none code = none → motive code code)
    (round : ∀ code call code', shortCall? arities none code = some call →
      motive call.completed code' → motive code code') {fuel : Nat} {code code' : Text}
    {added : List (Text × Nat)} (h : completeCallsWithin arities fuel code = some (added, code')) :
    motive code code' := by
  induction fuel generalizing code added with
  | zero =>
    rw [completeCallsWithin] at h
    cases hc : shortCall? arities none code with
    | none =>
      rw [hc] at h
      obtain ⟨-, rfl⟩ := Prod.mk.inj (Option.some.inj h)
      exact done code hc
    | some call =>
      rw [hc] at h
      cases h
  | succ fuel ih =>
    rw [completeCallsWithin] at h
    cases hc : shortCall? arities none code with
    | none =>
      rw [hc] at h
      obtain ⟨-, rfl⟩ := Prod.mk.inj (Option.some.inj h)
      exact done code hc
    | some call =>
      rw [hc] at h
      obtain ⟨⟨added', code''⟩, hrest, heq⟩ := Option.map_eq_some_iff.mp h
      obtain ⟨-, rfl⟩ := Prod.mk.inj heq
      exact round code call code'' hc (ih hrest)

/-- The number of rounds that `completeCalls?` allows is enough whenever any number is. -/
theorem completeCalls?_isSome_iff (arities : Arities) (code : Text) :
    (completeCalls? arities code).isSome = true ↔ Settles arities code := by
  refine ⟨fun h => ?_, completeCalls?_isSome_of_settles⟩
  by_contra hs
  rw [completeCalls?, completeCallsWithin_of_not_settles hs] at h
  exact Bool.noConfusion h

/-! Repair. -/

/-- The code of a statement once all of it but its calls is mended. -/
def mendedDraft (texts : List Text) (later : List (LineInfo × Text)) (code : Text) : Draft :=
  (Draft.ofCode code).mend .clock (substitute? clockRule)
    |>.mend .textConversion (convertPrinted? texts)
    |>.mend .numberConversion (convertInput? later)
    |>.mend .rangeEnd (substitute? rangeRule)
    |>.mend .keyRead guardKeys?
    |>.mend .increment incrementByNumber?

lemma pitfallDraft?_eq (arities : Arities) (texts : List Text) (later : List (LineInfo × Text))
    (code : Text) :
    pitfallDraft? arities texts later code = completeArguments? arities (mendedDraft texts later code) :=
  rfl

/-- The code of a line whose calls are completed, if the line is such a statement. -/
def completedCode? (texts : List Text) (s : Site) : Option Text :=
  let code := (mendedDraft texts s.later s.code).code
  if s.isStatement && !isDefinition code then some code else none

/-- The code in a text whose calls are completed. -/
def completedCodes (text : Text) : List Text :=
  (visit (fun texts s => ((pitfallStep (aritiesOf text.lines) texts s).1, completedCode? texts s)) []
    (Site.ofLines text.lines)).reduceOption

lemma pitfallStep_isSome (arities : Arities) (texts : List Text) (s : Site) :
    (pitfallStep arities texts s).2.isSome = true ↔
      ∀ code, completedCode? texts s = some code → Settles arities code := by
  by_cases hs : s.isStatement = true
  · by_cases hd : isDefinition (mendedDraft texts s.later s.code).code = true
    · simp [pitfallStep, completedCode?, hs, hd, pitfallDraft?_eq, completeArguments?]
    · have hsettles := completeCalls?_isSome_iff arities (mendedDraft texts s.later s.code).code
      cases hc : completeCalls? arities (mendedDraft texts s.later s.code).code <;>
        simp [pitfallStep, completedCode?, hs, hd, pitfallDraft?_eq, completeArguments?, hc,
          ← hsettles]
  · simp [pitfallStep, completedCode?, hs]

lemma mapM_id_isSome {α : Type} (l : List (Option α)) :
    (l.mapM id).isSome = true ↔ ∀ x ∈ l, x.isSome = true := by
  induction l with
  | nil => simp
  | cons x xs ih =>
    cases x with
    | none => simp
    | some a =>
      rw [List.forall_mem_cons, ← ih, List.mapM_cons]
      cases xs.mapM id <;> simp

lemma visit_isSome (arities : Arities) (texts : List Text) (sites : List Site) :
    (∀ x ∈ visit (pitfallStep arities) texts sites, x.isSome = true) ↔
      ∀ code, some code ∈ visit (fun texts s => ((pitfallStep arities texts s).1,
        completedCode? texts s)) texts sites → Settles arities code := by
  induction sites generalizing texts with
  | nil => simp [visit]
  | cons s rest ih =>
    rw [visit, visit, List.forall_mem_cons, pitfallStep_isSome, ih]
    simp only [List.mem_cons]
    constructor
    · rintro ⟨hhere, hlater⟩ code (hcode | hcode)
      · exact hhere code hcode.symm
      · exact hlater code hcode
    · intro h
      exact ⟨fun code hcode => h code (.inl hcode.symm), fun code hcode => h code (.inr hcode)⟩

lemma pitfalls?_isSome_iff (text : Text) : (pitfalls? text).isSome = true ↔
    ∀ code ∈ completedCodes text, Settles (aritiesOf text.lines) code := by
  simp only [pitfalls?, Option.isSome_map, mapM_id_isSome, visit_isSome, completedCodes,
    List.reduceOption_mem_iff]

/-- A text before its pitfalls are mended. -/
def shapedText (text : Text) : Text :=
  ((spelling text).andThen references |>.andThen (reshape shapeRounds)).text

lemma repair?_isSome_iff (text : Text) :
    (repair? text).isSome = true ↔ (pitfalls? (shapedText text)).isSome = true := by
  simp [repair?, shapedText]

/-- Repair comes to an end exactly when every call that is picked while calls are completed has
balanced arguments, and no number of rounds is enough otherwise. After a call with balanced arguments
only calls behind its parenthesis are picked; any other call is picked again at once. -/
theorem repair_ends_iff_balanced (text : Text) (arities : Arities) (code : Text) :
    ((repair? text).isSome = true ↔ ∀ code ∈ completedCodes (shapedText text),
      Settles (aritiesOf (shapedText text).lines) code) ∧
    ((∃ fuel, (completeCallsWithin arities fuel code).isSome = true) ↔ Settles arities code) ∧
    ((completeCalls? arities code).isSome = true ↔ Settles arities code) ∧
    (∀ call, shortCall? arities none code = some call →
      if call.IsBalanced then
        ∀ next, shortCall? arities none call.completed = some next →
          call.head <+: next.head ∧ call.head.length < next.head.length
      else
        ∃ arguments, shortCall? arities none call.completed = some { call with arguments } ∧
          ¬({ call with arguments } : ShortCall).IsBalanced) := by
  refine ⟨?_, ⟨?_, ?_⟩, completeCalls?_isSome_iff arities code, ?_⟩
  · rw [repair?_isSome_iff, pitfalls?_isSome_iff]
  · rintro ⟨fuel, h⟩
    by_contra hs
    rw [completeCallsWithin_of_not_settles hs] at h
    exact Bool.noConfusion h
  · intro hs
    exact ⟨_, completeCalls?_isSome_of_settles hs⟩
  · intro call hc
    split
    · intro next hn
      rename_i hb
      obtain ⟨between, hbetween⟩ := next_of_balanced hc hb hn
      refine ⟨⟨_, hbetween.symm⟩, ?_⟩
      rw [hbetween]
      simp
    · rename_i hb
      exact next_of_unbalanced hc hb

/-- A bracket that is left open between the parentheses of a call keeps repair from ending. -/
theorem repair_endless_open_bracket :
    repair? "class P:\n    def __init__(self, a, b):\n        pass\np = P([)\n" = none ∧
      ∀ fuel, completeCallsWithin [("P", 2)] fuel "p = P([)" = none := by
  constructor
  · rw [← Option.isNone_iff_eq_none]
    decide +kernel
  · have hpicked : shortCall? [("P", 2)] none "p = P([)" =
        some ⟨"P", "p = P(", ["["], ")", 1⟩ := by decide +kernel
    exact completeCallsWithin_of_unbalanced hpicked (by decide +kernel)

end Marginalia.Repair
