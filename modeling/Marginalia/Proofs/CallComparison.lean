import Marginalia.Proofs.CallFilling

/-!
# Comparing readings of a call

Completing one call may change what a call around it is made of: arguments are added to it where the
commas of the inner call are its own. The outer call never comes to lack arguments by that. A reading
is below another one if, whatever text follows, it lacks arguments wherever the other one does.
-/

namespace Marginalia.Repair

open Text

namespace CallReading

/-- Whether one reading lacks arguments wherever another one does, however both go on. -/
structure Below (old new : CallReading) : Prop where
  code : old.code = new.code
  parens : old.parens = new.parens
  arguments : new.special = true ∨ (old.special = false ∧
    old.argument.started = new.argument.started ∧
    old.argument.starred = new.argument.starred ∧
    (old.argument.sign = new.argument.sign ∨ old.argument.sign = .comparison) ∧
    old.count ≤ new.count)

lemma Below.refl (r : CallReading) : r.Below r := by
  refine ⟨rfl, rfl, ?_⟩
  cases h : r.special with
  | true => exact .inl rfl
  | false => exact .inr ⟨rfl, rfl, rfl, .inl rfl, Nat.le_refl _⟩

lemma Below.lacks {old new : CallReading} (h : old.Below new) {required : Nat}
    (hn : new.Lacks required) : old.Lacks required := by
  obtain ⟨hparens, hspecial, hcount⟩ := hn
  obtain hs | ⟨hs, -, -, -, hle⟩ := h.arguments
  · rw [hs] at hspecial
    exact Bool.noConfusion hspecial
  · exact ⟨h.parens.trans hparens, hs, Nat.lt_of_le_of_lt hle hcount⟩

lemma Below.endArgument {old new : CallReading} (h : old.Below new) (code : CodeState)
    (parens : Nat) :
    Below { old.endArgument with code, parens } { new.endArgument with code, parens } := by
  refine ⟨rfl, rfl, ?_⟩
  obtain hs | ⟨hs, hstarted, hstarred, hsign, hle⟩ := h.arguments
  · exact .inl (by simp [CallReading.endArgument, hs])
  · cases hspecial : new.argument.isSpecial with
    | true => exact .inl (by simp [CallReading.endArgument, hspecial])
    | false =>
      simp only [ArgumentReading.isSpecial, Bool.or_eq_false_iff] at hspecial
      have hkeyword : old.argument.sign.isKeyword = false := by
        obtain hsign | hsign := hsign
        · rw [hsign, hspecial.2]
        · rw [hsign]
          rfl
      refine .inr ⟨?_, rfl, rfl, .inl rfl, ?_⟩
      · simp [CallReading.endArgument, ArgumentReading.isSpecial, hs, hstarred, hspecial.1, hkeyword]
      · simpa [CallReading.endArgument, hstarted] using hle

lemma Below.argument_step {old new : CallReading} (h : old.Below new) (code : CodeState)
    (parens : Nat) (top : Bool) (c : Char) :
    Below { old with code, parens, argument := old.argument.step top c }
      { new with code, parens, argument := new.argument.step top c } := by
  refine ⟨rfl, rfl, ?_⟩
  obtain hs | ⟨hs, hstarted, hstarred, hsign, hle⟩ := h.arguments
  · exact .inl hs
  · refine .inr ⟨hs, ?_, ?_, ?_, hle⟩
    · simp [ArgumentReading.step, hstarted]
    · simp [ArgumentReading.step, hstarted, hstarred]
    · obtain hsign | hsign := hsign
      · exact .inl (by simp [ArgumentReading.step, hsign])
      · exact .inr (by simp [ArgumentReading.step, Sign.step, hsign])

lemma Below.step {old new : CallReading} (h : old.Below new) (c : Char) :
    (old.step c).Below (new.step c) := by
  have hcloses : old.closesAt c = new.closesAt c := by rw [closesAt, closesAt, h.code, h.parens]
  have hseparates : old.separatesAt c = new.separatesAt c := by
    rw [separatesAt, separatesAt, h.code]
  have hparens : old.parensAfter c = new.parensAfter c := by
    rw [parensAfter, parensAfter, h.code, h.parens]
  simp only [CallReading.step, h.code, h.parens, hcloses, hseparates, hparens]
  split
  · exact h
  · split
    · exact h.endArgument _ 0
    · split
      · have hend := h.endArgument (new.code.step c).1 new.parens
        have hold : old.endArgument.parens = new.parens := h.parens
        rw [hold]
        exact hend
      · exact h.argument_step _ _ _ c

lemma Below.run {old new : CallReading} (h : old.Below new) (t : Text) :
    (old.run t).Below (new.run t) := by
  induction t generalizing old new with
  | nil => exact h
  | cons c rest ih => exact ih (h.step c)

/-- A closing parenthesis outside literals and other brackets. -/
lemma step_close_top {r : CallReading} (hr : r.parens ≠ 0) (hs : r.code = .start) :
    r.step ')' = if r.parens = 1 then { r.endArgument with code := .start, parens := 0 }
      else { r with parens := r.parens - 1, argument := r.argument.step true ')' } := by
  have hcode : r.code.step ')' = (CodeState.start, some 0) := by
    rw [hs]
    rfl
  have hseparates : r.separatesAt ')' = false := by simp [separatesAt]
  by_cases hone : r.parens = 1
  · simp [step, closesAt, hcode, hone]
  · have hcloses : r.closesAt ')' = false := by simp [closesAt, hone]
    have hparens : r.parensAfter ')' = r.parens - 1 := by simp [parensAfter, hcode]
    simp [step, hcode, hr, hcloses, hseparates, hone, hparens, ← hs]

/-- A reading between arguments is below the one that takes its argument for complete and has read
further arguments, from the next parenthesis on. -/
lemma below_step_close {r : CallReading} (hr : r.parens ≠ 0) (hs : r.code = .start) (n : Nat) :
    (r.step ')').Below
      (({ r.endArgument with argument := ofNone, count := r.endArgument.count + n } :
        CallReading).step ')') := by
  rw [step_close_top hr hs, step_close_top (by exact hr) (by exact hs)]
  by_cases hone : r.parens = 1
  · have hone' : r.endArgument.parens = 1 := hone
    rw [if_pos hone, if_pos hone']
    refine ⟨rfl, rfl, ?_⟩
    cases hspecial : r.endArgument.special with
    | true =>
      left
      show (r.endArgument.special || ofNone.isSpecial) = true
      rw [hspecial, Bool.true_or]
    | false =>
      refine .inr ⟨rfl, rfl, rfl, .inl rfl, ?_⟩
      show r.endArgument.count ≤ r.endArgument.count + n + 1
      omega
  · have hone' : r.endArgument.parens ≠ 1 := hone
    rw [if_neg hone, if_neg hone']
    refine ⟨rfl, rfl, ?_⟩
    cases hspecial : r.endArgument.special with
    | true => exact .inl rfl
    | false =>
      obtain ⟨hspecial, hstarred, hkeyword⟩ : r.special = false ∧ r.argument.starred = false ∧
          r.argument.sign.isKeyword = false := by
        simpa [endArgument, ArgumentReading.isSpecial] using hspecial
      refine .inr ⟨hspecial, ?_, ?_, ?_, ?_⟩
      · simp [ArgumentReading.step, ofNone, isBlank]
      · simp [ArgumentReading.step, ofNone, hstarred]
      · cases hsign : r.argument.sign <;>
          simp_all [ArgumentReading.step, Sign.step, ofNone, Sign.isKeyword]
      · show r.count ≤ r.count + r.argument.started.toNat + n
        omega

/-- Behind its closing parenthesis, a completed call has added arguments to a call around it, or
has left it as it was. -/
lemma Sound.below_filled {r : CallReading} (h : r.Sound) {missing : Nat} (hm : missing ≠ 0) :
    (r.step ')').Below (((r.step ',').run (fill missing)).step ')') := by
  by_cases hr : r.parens = 0
  · rw [step_of_closed hr, step_of_closed hr, run_of_closed hr, step_of_closed hr]
    exact Below.refl r
  by_cases hs : r.code = .start
  · obtain ⟨n, rfl⟩ := Nat.exists_eq_succ_of_ne_zero hm
    rw [step_comma_top hr hs, run_fill_top (by exact hr) (by exact hs) rfl]
    exact below_step_close hr hs n
  · have hsame : r.unescaped.step ')' = r.step ')' := by
      have hcode : r.unescaped.code.step ')' = r.code.step ')' := h.code.step_unescaped
      have hcloses : r.unescaped.closesAt ')' = r.closesAt ')' := by
        rw [closesAt, closesAt, hcode]
        rfl
      simp only [CallReading.step, separatesAt, parensAfter, hcode, hcloses]
      rw [if_neg (by exact hr), if_neg hr]
      rfl
    have hcomma : r.step ',' = r.unescaped := h.step_plain_inside hr hs (by decide)
    have hfill : r.unescaped.run (fill missing) = r.unescaped :=
      (h.unescaped hs).run_plain_inside hr (h.unescaped_ne_start hs) (all_isPlain_fill missing)
        (fill_ne_nil hm)
    rw [hcomma, hfill, hsame]
    exact Below.refl _

end CallReading

end Marginalia.Repair
