import Marginalia.Proofs.CallComparison

/-!
# Completed calls

A call that has been completed is not picked again if its arguments close every bracket that they
open. If they leave one open, the comma before the arguments that are added stands inside that
bracket, and the call is picked again with as many arguments missing as before.
-/

namespace Marginalia.Repair

open Text

namespace ShortCall

/-- Whether the arguments of a call close every bracket that they open. -/
def IsBalanced (call : ShortCall) : Prop := openDepth (join ", " call.arguments) = 0

instance (call : ShortCall) : Decidable call.IsBalanced :=
  inferInstanceAs (Decidable (openDepth _ = 0))

end ShortCall

/-- The arguments of a call with those that were missing. -/
def filled (inside : Text) (missing : Nat) : Text :=
  join ", " (argumentsOf inside ++ List.replicate missing ("None" : Text))

namespace CallReading

/-- The brackets that the arguments leave open are those that the call leaves open where it is
closed. -/
lemma openDepth_arguments {inside : Text} (h : (start.run inside).parens ≠ 0) :
    openDepth (join ", " (argumentsOf inside)) = (start.run inside).code.depth := by
  have hsound : (start.run inside).Sound := sound_start.run inside
  have hopen : ((start.run inside).step ',').parens ≠ 0 := open_step_plain h (by decide)
  have hdepth : ((start.run inside).step ',').code.depth = (start.run inside).code.depth := by
    rw [code_step h, CodeState.depth_step_plain hsound.code (by decide)]
  have hpieces : inside ++ [','] = (rawPieces ',' inside).flatMap (· ++ [',']) := by
    rw [rawPieces, ← join_append_sep, join_piecesFrom]
  have hcomma : (start.run inside).step ',' =
      start.run ((argumentsOf inside).flatMap (· ++ [',', ' '])) := by
    calc (start.run inside).step ',' = start.run (inside ++ [',']) := by
          rw [run_append]
          rfl
      _ = _ := by rw [hpieces, ready_start.run_pieces, ← argumentsOf_eq]
  rw [hcomma] at hopen hdepth
  rw [← hdepth, code_run hopen]
  cases hargs : argumentsOf inside with
  | nil => rfl
  | cons a as =>
    have hplain : ([',', ' '] : Text).all isPlain = true := by decide
    rw [← join_append_sep, CodeState.run_append]
    exact (CodeState.depth_run_plain (CodeState.sound_start.run _) hplain).symm

/-- Where a call is closed its code stands outside literals. -/
lemma closing_code {inside : Text} (h : (start.run inside).parens ≠ 0)
    (hc : (start.run (inside ++ [')'])).parens = 0) :
    (start.run inside).code.quote = none ∧ (start.run inside).parens = 1 := by
  rw [run_append, run_cons, run_nil] at hc
  have hcloses : (start.run inside).closesAt ')' = true := (parens_step_eq_zero_iff h _).mp hc
  simp only [closesAt, Bool.and_eq_true, beq_iff_eq] at hcloses
  exact ⟨CodeState.quote_of_isSome_step hcloses.1.1, hcloses.2⟩

lemma code_eq_start_iff {inside : Text} (h : (start.run inside).parens ≠ 0)
    (hc : (start.run (inside ++ [')'])).parens = 0) :
    (start.run inside).code = .start ↔ openDepth (join ", " (argumentsOf inside)) = 0 := by
  rw [openDepth_arguments h]
  constructor
  · intro hs
    rw [hs]
    rfl
  · exact (sound_start.run inside).code.eq_start (closing_code h hc).1

/-- Completing a call whose arguments are balanced gives it as many as it needs. -/
lemma not_lacks_filled {inside : Text} (h : (start.run inside).parens ≠ 0)
    (hc : (start.run (inside ++ [')'])).parens = 0) (hs : (start.run inside).code = .start)
    {required : Nat} (hr : (argumentsOf inside).length < required) (after : Text) :
    ¬(start.run (filled inside (required - (argumentsOf inside).length) ++ ')' :: after)).Lacks
      required := by
  obtain ⟨-, hone⟩ := closing_code h hc
  obtain ⟨n, hn⟩ := Nat.exists_eq_succ_of_ne_zero (Nat.sub_ne_zero_of_lt hr)
  have hcount := (endArgument_run_start h).1
  have hclose : (start.run (filled inside (n + 1))).step ')' =
      { (start.run inside).endArgument with
        code := .start
        parens := 0
        argument := .fresh
        count := (start.run inside).endArgument.count + n + 1
        special := (start.run inside).endArgument.special || ofNone.isSpecial } := by
    rw [filled, ready_start.run_filled inside (Nat.succ_ne_zero n), step_comma_top h hs,
      run_fill_top (by exact h) (by exact hs) rfl, step_close_top (by exact h) (by exact hs)]
    exact if_pos hone
  rw [hn, run_append, run_cons, hclose, run_of_closed rfl]
  rintro ⟨-, -, hlt⟩
  have hlt' : (start.run inside).endArgument.count + n + 1 < required := hlt
  omega

/-- Completing a call whose arguments leave a bracket open changes nothing for its reader. -/
lemma run_filled_open {inside : Text} (h : (start.run inside).parens ≠ 0)
    (hc : (start.run (inside ++ [')'])).parens = 0) (hs : (start.run inside).code ≠ .start)
    {missing : Nat} (hm : missing ≠ 0) :
    start.run (filled inside missing) = start.run inside := by
  obtain ⟨hquote, -⟩ := closing_code h hc
  have hsound : (start.run inside).Sound := sound_start.run inside
  have hsame : (start.run inside).unescaped = start.run inside := by
    have he := hsound.code.escaped hquote
    rw [unescaped, ← he]
  rw [filled, ready_start.run_filled inside hm, hsound.step_plain_inside h hs (by decide), hsame,
    hsound.run_plain_inside h hs (all_isPlain_fill missing) (fill_ne_nil hm), hsame]

/-- What the completion of an inner call does to a call around it: it does not come to lack
arguments. -/
lemma lacks_of_lacks_filled {before inside after : Text} {missing required : Nat}
    (hm : missing ≠ 0)
    (h : (start.run (before ++ '(' :: (filled inside missing ++ ')' :: after))).Lacks required) :
    (start.run (before ++ '(' :: (inside ++ ')' :: after))).Lacks required := by
  have hready : ((start.run before).step '(').Ready := (sound_start.run before).ready_paren
  have hbelow := (hready.sound.run inside).below_filled hm
  rw [← hready.run_filled inside hm] at hbelow
  rw [run_append, run_cons, run_append, run_cons] at h ⊢
  exact (hbelow.run after).lacks h

end CallReading

end Marginalia.Repair
