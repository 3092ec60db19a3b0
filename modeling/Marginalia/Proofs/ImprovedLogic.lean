import Marginalia.Proofs.ImprovedShape
import Marginalia.Repair.Logic
import Mathlib.Data.Option.Basic

/-!
# Mended logic improves texts

A comparison has one equality sign more than the assignment it was, a method the name of its
object, and a test for `None` the letter of a word in the place of a sign.
-/

namespace Marginalia.Repair

open Text

lemma doubleEquality_heavier (s : CodeState) (prev : Option Char) (t : Text) :
    Heavier t (doubleEquality s prev t) := by
  induction t generalizing s prev with
  | nil => exact .refl []
  | cons c rest ih =>
    rw [doubleEquality]
    have hrest := ih (s.step c).1 (some c)
    have hsign : charWeight '=' = 1 := rfl
    split
    · next hc =>
      obtain rfl : c = '=' := by
        simp only [Bool.and_eq_true, beq_iff_eq] at hc
        exact hc.1.1.1
      right
      simp only [weight_cons, hsign]
      rcases hrest with heq | hlt
      · rw [heq]
        omega
      · omega
    · rcases hrest with heq | hlt
      · exact .inl (by rw [heq])
      · right
        simp only [weight_cons]
        omega

lemma afterConditionWord?_suffix {code rest : Text} (h : afterConditionWord? code = some rest) :
    ∃ head, code = head ++ rest := by
  obtain ⟨word, -, hword⟩ := List.exists_of_findSome?_eq_some h
  obtain ⟨behind, hbehind, hgap⟩ := Option.bind_eq_some_iff.mp hword
  obtain ⟨gap, rfl, -⟩ := eq_of_afterGap? hgap
  refine ⟨code.indentation ++ word ++ gap, ?_⟩
  conv_lhs => rw [eq_of_afterBlanksAnd? hbehind]
  simp only [List.append_assoc]

lemma splitCondition_append (t : Text) : (splitCondition t).1 ++ (splitCondition t).2 = t := by
  rw [splitCondition]
  split
  · next condition tail hsplit =>
    split
    · exact List.append_nil t
    · exact (eq_of_splitAtCode? hsplit).symm
  · exact List.append_nil t

lemma eq_of_compareInCondition? {code code' : Text} (h : compareInCondition? code = some code') :
    ∃ head condition tail : Text, code = head ++ (condition ++ tail) ∧
      code' = head ++ (doubleEquality .start none condition ++ tail) ∧ code' ≠ code := by
  simp only [compareInCondition?, Option.bind_eq_bind, Option.bind_eq_some_iff] at h
  obtain ⟨rest, hrest, h⟩ := h
  obtain ⟨head, hcode⟩ := afterConditionWord?_suffix hrest
  obtain ⟨rfl, hne⟩ := eq_of_changed? h
  have hhead : before code rest = head := by rw [hcode, before_append]
  refine ⟨head, (splitCondition rest).1, (splitCondition rest).2, ?_, ?_, hne⟩
  · rw [splitCondition_append, ← hcode]
  · rw [hhead, List.append_assoc]

lemma enriches_compareInCondition? : Enriches compareInCondition? := by
  intro code code' h
  obtain ⟨head, condition, tail, rfl, rfl, hne⟩ := eq_of_compareInCondition? h
  rcases doubleEquality_heavier .start none condition with heq | hlt
  · exact absurd (by rw [heq]) hne
  · simp only [weight_append]
    omega

lemma eq_of_addReceiver? {receiver : Receiver} {code code' : Text}
    (h : addReceiver? receiver code = some code') : ∃ head gap gap' after : Text,
      gap.isAllBlank = true ∧ gap'.isAllBlank = true ∧
      code = head ++ (gap ++ ("(" ++ (gap' ++ (")" ++ after)))) ∧
      code' = head ++ (gap ++ ("(" ++ (receiver.name ++ (")" ++ after)))) := by
  obtain ⟨⟨head, after⟩, hempty, rfl⟩ := Option.map_eq_some_iff.mp h
  simp only [emptyParameters?, Option.bind_eq_bind, Option.bind_eq_some_iff, Prod.exists] at hempty
  obtain ⟨name, rest, hname, inside, hopen, after', hclose, heq⟩ := hempty
  obtain ⟨rfl, rfl⟩ : before code rest.trimStart = head ∧ after' = after := by
    simpa using Option.some.inj heq
  obtain ⟨start, hcode⟩ := functionName?_suffix hname
  have hhead : before code rest.trimStart = start ++ rest.indentation := by
    have hparts : code = (start ++ rest.indentation) ++ rest.trimStart := by
      rw [List.append_assoc, ← trimStart_append, ← hcode]
    rw [hparts, before_append]
  refine ⟨start, rest.indentation, inside.indentation, after', isAllBlank_indentation rest,
    isAllBlank_indentation inside, ?_, ?_⟩
  · rw [← eq_of_afterBlanksAnd? hclose, ← eq_of_afterBlanksAnd? hopen, ← hcode]
  · rw [hhead]
    simp only [List.append_assoc]

lemma enriches_addReceiver? (receiver : Receiver) : Enriches (addReceiver? receiver) := by
  intro code code' h
  obtain ⟨head, gap, gap', after, hgap, hgap', rfl, rfl⟩ := eq_of_addReceiver? h
  have hreceiver : 0 < weight receiver.name := by cases receiver <;> decide
  simp only [weight_append, weight_blanks hgap, weight_blanks hgap']
  omega

/-- What a rule for `None` takes is the sign and the word, with blanks before both. -/
lemma eq_of_noneRule {sign new put t : Text} {b : Before} {n : Nat}
    (h : noneRule sign new b t = some (n, put)) :
    b.quoted = false ∧ put = new ∧ ∃ gap gap' rest : Text, gap.isAllBlank = true ∧
      gap'.isAllBlank = true ∧ continuesWord rest = false ∧
      t = (gap ++ (sign ++ (gap' ++ "None"))) ++ rest ∧
      n = (gap ++ (sign ++ (gap' ++ "None"))).length := by
  simp only [noneRule, Option.bind_eq_bind, Option.bind_eq_some_iff, Option.guard_eq_some'] at h
  obtain ⟨-, hquoted, rest, hrest, rest', hnone, -, hends, heq⟩ := h
  obtain ⟨rfl, rfl⟩ := Prod.mk.inj (Option.some.inj heq)
  have ht : t = (t.indentation ++ (sign ++ (rest.indentation ++ "None"))) ++ rest' := by
    conv_lhs => rw [eq_of_afterBlanksAnd? hrest, eq_of_afterBlanksAnd? hnone]
    simp only [List.append_assoc]
  refine ⟨(Bool.not_eq_true' _).mp hquoted, rfl, t.indentation, rest.indentation, rest',
    isAllBlank_indentation t, isAllBlank_indentation rest, (Bool.not_eq_true' _).mp hends, ht, ?_⟩
  conv_lhs => rw [ht, length_of_taken]

lemma gains_noneRule {sign new : Text} (hsign : sign ≠ [])
    (h : weight sign + weight ("None" : Text) < weight new) : (noneRule sign new).Gains := by
  intro b t n put hr
  obtain ⟨-, rfl, gap, gap', rest, hgap, hgap', -, rfl, rfl⟩ := eq_of_noneRule hr
  refine ⟨_, rest, rfl, rfl, by simp [hsign], .inr ?_⟩
  simp only [weight_append, weight_blanks hgap, weight_blanks hgap']
  omega

lemma mendReceiver_heavier (above : List Text) (d : Draft) :
    Heavier d.code (mendReceiver above d).code := by
  unfold mendReceiver
  split
  · exact Draft.mend_heavier (enriches_addReceiver? _) d _
  · exact .refl _

lemma compared_heavier (above : List Text) (code : Text) :
    Heavier ((Draft.ofCode code).mend .conditionAssignment compareInCondition?).code
      (logicDraft above code).code := by
  have hisNone : (noneRule "==" " is None").Gains := gains_noneRule (by decide) (by decide)
  have hisNotNone : (noneRule "!=" " is not None").Gains := gains_noneRule (by decide) (by decide)
  unfold logicDraft
  simp only [Draft.advise_code]
  exact ((mendReceiver_heavier above _).trans
    (Draft.mend_heavier hisNone.enriches _ .isNone)).trans
    (Draft.mend_heavier hisNotNone.enriches _ .isNotNone)

lemma logicDraft_heavier (above : List Text) (code : Text) :
    Heavier code (logicDraft above code).code :=
  (Draft.mend_heavier enriches_compareInCondition? (.ofCode code) .conditionAssignment).trans
    (compared_heavier above code)

lemma logic_improved (text : Text) : Improved text (logic text).text := by
  refine visit_improved (fun above site _ => ?_) [] text
  unfold logicStep
  simp only
  split
  · exact Site.improvedBy_ofDraft (logicDraft_heavier above site.code)
  · exact site.improvedBy_same

end Marginalia.Repair
