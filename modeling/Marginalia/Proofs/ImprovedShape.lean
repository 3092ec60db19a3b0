import Marginalia.Proofs.ImprovedLines
import Marginalia.Repair.Headers
import Marginalia.Repair.Printing

/-!
# Completed headers and calls of print improve texts

A header gains a colon or a pair of parentheses, a print statement the parentheses of a call.
-/

namespace Marginalia.Repair

open Text

lemma afterAsync_suffix (t : Text) : ∃ head, t = head ++ afterAsync t := by
  rw [afterAsync]
  cases ha : (after? "async" t).bind afterGap? with
  | none => exact ⟨[], rfl⟩
  | some rest =>
    obtain ⟨behind, hbehind, hgap⟩ := Option.bind_eq_some_iff.mp ha
    obtain ⟨gap, rfl, -⟩ := eq_of_afterGap? hgap
    refine ⟨"async" ++ gap, ?_⟩
    rw [(after?_eq_some_iff _ t _).mp hbehind, List.append_assoc]
    rfl

lemma functionName?_suffix {code name rest : Text} (h : functionName? code = some (name, rest)) :
    ∃ head, code = head ++ rest := by
  simp only [functionName?, Option.bind_eq_bind, Option.bind_eq_some_iff] at h
  obtain ⟨behind, hdef, inside, hgap, hword⟩ := h
  obtain ⟨async, hasync⟩ := afterAsync_suffix code.trimStart
  obtain ⟨gap, rfl, -⟩ := eq_of_afterGap? hgap
  refine ⟨code.indentation ++ async ++ "def" ++ gap ++ name, ?_⟩
  calc code = code.indentation ++ code.trimStart := trimStart_append code
    _ = code.indentation ++ (async ++ ("def" ++ (gap ++ (name ++ rest)))) := by
      rw [← eq_of_word? hword, ← (after?_eq_some_iff _ _ _).mp hdef, ← hasync]
    _ = _ := by simp only [List.append_assoc]

lemma enriches_addParentheses? : Enriches addParentheses? := by
  intro code code' h
  simp only [addParentheses?, Option.bind_eq_bind, Option.bind_eq_some_iff, Prod.exists] at h
  obtain ⟨name, rest, hname, h⟩ := h
  split at h
  · obtain ⟨head, rfl⟩ := functionName?_suffix hname
    rw [← Option.some.inj h, before_append]
    have hadded : weight ("()" : Text) = 100 := rfl
    simp only [weight_append, weight_trimStart, hadded]
    omega
  · cases h

lemma enriches_addColon? : Enriches addColon? := by
  intro code code' h
  rw [addColon?] at h
  split at h
  · cases h
  · have hadded : weight (":" : Text) = 1 := rfl
    rw [← Option.some.inj h, weight_append, hadded]
    omega

lemma headers_improved (text : Text) : Improved text (headers text).text := by
  refine reviseSites_improved (fun code => ?_) text
  unfold headerDraft
  split
  · exact (Draft.mend_heavier enriches_addParentheses? (.ofCode code) .parentheses).trans
      (Draft.mend_heavier enriches_addColon? _ .colon)
  · exact .refl code

lemma eq_of_endsWith_comma {t : Text} (h : t.endsWith "," = true) : t = t.dropLast ++ [','] := by
  obtain ⟨rest, hrest⟩ := (startsWith_iff _ _).mp h
  have ht : t = rest.reverse ++ [','] := by
    rw [← List.reverse_reverse t, hrest]
    simp
  rw [ht, List.dropLast_concat]

lemma weight_callArguments (args : Text) : weight args - 2 ≤ weight (callArguments args) := by
  rw [callArguments]
  split
  · next h =>
    have hadded : weight (", end=\" \"" : Text) = -2 := rfl
    have hcomma : weight [','] = 0 := rfl
    rw [weight_append, weight_trimEnd, hadded]
    conv_lhs => rw [eq_of_endsWith_comma h, weight_append, hcomma]
    omega
  · omega

lemma enriches_printCall? : Enriches printCall? := by
  intro code code' h
  simp only [printCall?, Option.bind_eq_bind, Option.bind_eq_some_iff] at h
  obtain ⟨rest, hrest, h⟩ := h
  have hcode : weight code = weight ("print" : Text) + weight rest := by
    conv_lhs => rw [eq_of_afterBlanksAnd? hrest, weight_append, weight_append, weight_indentation,
      Int.zero_add]
  have hprint : weight ("print" : Text) = -2 ∧ weight ("print()" : Text) = 98 ∧
      weight ("print(" : Text) = 98 ∧ weight (")" : Text) = 0 := ⟨rfl, rfl, rfl, rfl⟩
  cases rest with
  | nil =>
    rw [← Option.some.inj h]
    simp only [weight_append, weight_indentation, weight_nil] at hcode ⊢
    omega
  | cons c args =>
    simp only at h
    split at h
    · rw [← Option.some.inj h]
      have hargs := weight_callArguments (trim (c :: args))
      simp only [weight_append, weight_indentation, weight_trim] at hcode hargs ⊢
      omega
    · cases h

lemma printing_improved (text : Text) : Improved text (printing text).text :=
  reviseSites_improved (fun code => Draft.mend_heavier enriches_printCall? (.ofCode code) _) text

end Marginalia.Repair
