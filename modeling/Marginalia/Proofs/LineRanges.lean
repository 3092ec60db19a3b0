import Marginalia.Proofs.DecodedEntities
import Marginalia.Proofs.TextRanges
import Marginalia.Ranged.Repair

/-!
# Ranges of lines

A line is cut at its comment, at a sign outside literals and at an entity. What is cut out is what
the passes read.
-/

namespace Marginalia.Ranged

open Text Repair

variable {b : Before} {t : Text}

/-! ## Entities -/

lemma not_mem_of_splitAtChar? {c : Char} (h : splitAtChar? c t = none) : c ∉ t := by
  intro hmem
  obtain ⟨head, rest, rfl, hhead⟩ := List.eq_append_cons_of_mem hmem
  rw [splitAtChar?_eq_some_iff.mpr ⟨hhead, rest, rfl, rfl⟩] at h
  cases h

lemma completesEntity?_eq (t : Text) : completesEntity? t = some (completesEntity t) := by
  have htails : (entities.mapM fun pair => from? pair.1 1) =
      some (entities.map fun pair => pair.1.drop 1) := by decide
  calc
    completesEntity? t
    _ = (entities.mapM fun pair => from? pair.1 1).bind fun tails =>
        some (tails.any fun tail => t.startsWith tail) := rfl
    _ = some (completesEntity t) := by
      rw [htails, Option.bind_some, List.any_map]
      rfl

section

variable {head : Text} {pair : Text × Text}

/-- One entity further. -/
lemma decodeWithin?_entity (hmem : pair ∈ entities) (hhead : '&' ∉ head) (fuel : Nat)
    (behind : Text) : decodeWithin? (fuel + 1) (head ++ (pair.1 ++ behind)) =
      (decodeWithin? fuel behind).map fun out => head ++
        ((if pair.1 = "&amp;" ∧ completesEntity behind = true then pair.1 else pair.2) ++ out) := by
  have hsplit : splitAtChar? '&' (head ++ (pair.1 ++ behind)) = some (head, pair.1 ++ behind) :=
    splitAtChar?_eq_some_iff.mpr ⟨hhead, _, by rw [entity_eq hmem]; rfl, rfl⟩
  rw [decodeWithin?, hsplit]
  dsimp only
  rw [slice?_head, from?_append, Option.bind_eq_bind, Option.bind_some, Option.bind_eq_bind,
    Option.bind_some, find?_entity hmem]
  dsimp only
  rw [from?_append, Option.bind_some]
  by_cases hamp : pair.1 = "&amp;"
  · rw [if_pos (beq_iff_eq.mpr hamp), completesEntity?_eq, Option.bind_some]
    simp only [hamp, true_and]
    cases decodeWithin? fuel behind <;> rfl
  · rw [if_neg (mt beq_iff_eq.mp hamp), if_neg fun h => hamp h.1]
    cases decodeWithin? fuel behind <;> rfl

/-- One ampersand further that starts no entity. -/
lemma decodeWithin?_other {rest : Text} (hhead : '&' ∉ head)
    (hnone : (entities.find? fun pair => Text.startsWith ('&' :: rest) pair.1) = none)
    (fuel : Nat) : decodeWithin? (fuel + 1) (head ++ '&' :: rest) =
      (decodeWithin? fuel rest).map fun out => head ++ '&' :: out := by
  have hsplit : splitAtChar? '&' (head ++ '&' :: rest) = some (head, '&' :: rest) :=
    splitAtChar?_eq_some_iff.mpr ⟨hhead, rest, rfl, rfl⟩
  have hbehind : from? ('&' :: rest) 1 = some rest := from?_of_eq ['&'] rfl rfl
  rw [decodeWithin?, hsplit]
  dsimp only
  rw [slice?_head, from?_append, Option.bind_eq_bind, Option.bind_some, Option.bind_eq_bind,
    Option.bind_some, hnone]
  dsimp only
  rw [hbehind, Option.bind_some]
  cases decodeWithin? fuel rest <;> rfl

/-- An entity is decoded, or kept. -/
lemma substituted_entity (hmem : pair ∈ entities) {behind out : Text}
    (h : Substituted entityRule (pair.1.foldl Before.step b) behind out) :
    Substituted entityRule b (pair.1 ++ behind)
      ((if pair.1 = "&amp;" ∧ completesEntity behind = true then pair.1 else pair.2) ++ out) := by
  have hrule := entityRule_entity (b := b) hmem behind
  split at hrule
  · next hkept =>
    rw [if_pos hkept]
    rw [entity_eq hmem] at hrule h ⊢
    exact .keep hrule (.keep_piece (amp_not_mem_name hmem) h)
  · next hkept =>
    rw [if_neg hkept]
    exact .swap (by rw [entity_eq hmem]; exact List.cons_ne_nil _ _) hrule h

end

/-- What is left of a text gets shorter with every ampersand. -/
lemma exists_decodeWithin? (fuel : Nat) (b : Before) (t : Text) (hfuel : t.length < fuel) :
    ∃ out, decodeWithin? fuel t = some out ∧ Substituted entityRule b t out := by
  induction fuel generalizing b t with
  | zero => exact absurd hfuel (Nat.not_lt_zero _)
  | succ fuel ih =>
    cases hsplit : splitAtChar? '&' t with
    | none =>
      have hkept := Substituted.keep_piece (b := b) (not_mem_of_splitAtChar? hsplit) (.nil _)
      rw [List.append_nil] at hkept
      exact ⟨t, by rw [decodeWithin?, hsplit], hkept⟩
    | some p =>
      obtain ⟨head, tail⟩ := p
      obtain ⟨hhead, rest, rfl, rfl⟩ := splitAtChar?_eq_some_iff.mp hsplit
      rw [List.length_append, List.length_cons] at hfuel
      cases hfound : entities.find? fun pair => Text.startsWith ('&' :: rest) pair.1 with
      | none =>
        have hnone : entityRule (head.foldl Before.step b) ('&' :: rest) = none := by
          rw [entityRule_eq, hfound]
          rfl
        obtain ⟨out, hdecoded, hout⟩ := ih ((head.foldl Before.step b).step '&') rest (by omega)
        refine ⟨head ++ '&' :: out, ?_, .keep_piece hhead (.keep hnone hout)⟩
        rw [decodeWithin?_other hhead hfound, hdecoded]
        rfl
      | some pair =>
        have hmem := List.mem_of_find?_eq_some hfound
        have hstarts : Text.startsWith ('&' :: rest) pair.1 = true :=
          List.find?_some (p := fun pair : Text × Text => Text.startsWith _ pair.1) hfound
        obtain ⟨behind, hrest⟩ := (startsWith_iff _ _).mp hstarts
        have hlength := congrArg List.length hrest
        rw [entity_eq hmem, List.length_cons, List.length_append, List.length_cons] at hlength
        obtain ⟨out, hdecoded, hout⟩ :=
          ih (pair.1.foldl Before.step (head.foldl Before.step b)) behind (by omega)
        rw [hrest]
        refine ⟨_, ?_, .keep_piece hhead (substituted_entity hmem hout)⟩
        rw [decodeWithin?_entity hmem hhead, hdecoded]
        rfl

lemma decodeEntities?_eq (t : Text) : decodeEntities? t = some (decodeEntities t) := by
  obtain ⟨out, hdecoded, hout⟩ := exists_decodeWithin? (t.length + 1) .start t (Nat.lt_succ_self _)
  rw [decodeEntities?, hdecoded, decodeEntities, substitute, hout.eq]

/-! ## Lines and signs -/

lemma splitComment?_eq (line : Text) : splitComment? line = some (splitComment line) := by
  have hcode : codePart "#" line = (splitComment line).1 := rfl
  have htail : from? line (byteLength (splitComment line).1) = some (splitComment line).2 :=
    from?_of_eq _ (splitComment_append line).symm rfl
  rw [splitComment?, codePart?_eq, hcode, Option.bind_eq_bind, Option.bind_some, htail]
  rfl

/-- Whether what follows the first of a sign outside literals and brackets makes it a longer one. -/
lemma hasPlainSign?_eq (sign : Char) (t : Text) : hasPlainSign? sign t =
    some ((Text.splitTopLevel? sign t).any fun p => !Text.startsWith (p.2.drop 1) "=") := by
  rw [hasPlainSign?, behindTopLevel?_eq, Option.map_some, Option.any_map]

lemma hasPlainSign?_colon (code : Text) : hasPlainSign? ':' code = some (hasHeaderColon code) := by
  rw [hasPlainSign?_eq, hasHeaderColon]
  cases Text.splitTopLevel? ':' code <;> rfl

lemma hasPlainSign?_equals (argument : Text) :
    hasPlainSign? '=' argument = some (isKeywordArgument argument) := by
  rw [hasPlainSign?_eq, isKeywordArgument]
  cases Text.splitTopLevel? '=' argument <;> rfl

lemma hasMutableDefault?_eq (code : Text) :
    hasMutableDefault? code = some (hasMutableDefault code) := by
  rw [hasMutableDefault?, hasMutableDefault]
  dsimp only
  cases ((functionName? code).bind fun p => afterBlanksAnd? "(" p.2).isSome with
  | false => rfl
  | true =>
    rw [if_pos rfl, firstGroup?_eq, Option.bind_eq_bind, Option.bind_some, Bool.true_and]
    cases Text.firstGroup? code with
    | none => rfl
    | some inside =>
      dsimp only
      rw [splitTopLevel?_eq]
      simp only [behindTopLevel?_eq, Option.map_some, Option.any_map]
      exact List.anyM_pure

/-! ## Targets of assignments -/

lemma isStoreTarget?_eq (after : Text) : isStoreTarget? after = some (isStoreTarget after) := by
  rw [isStoreTarget?, isStoreTarget]
  cases hsplit : splitAtChar? '=' after.trimStart with
  | none => rfl
  | some p =>
    obtain ⟨sign, tail⟩ := p
    obtain ⟨-, value, rfl, hafter⟩ := splitAtChar?_eq_some_iff.mp hsplit
    have hvalue : from? after.trimStart (byteLength sign + 1) = some value :=
      from?_of_eq (sign ++ ['=']) (by rw [hafter]; simp) (by simp; rfl)
    have hsign : slice? after.trimStart 0 (byteLength sign) = some sign := upTo_of_eq hafter rfl
    dsimp only
    rw [hvalue, hsign, Option.bind_eq_bind, Option.bind_some]
    change _ = some (!Text.startsWith value "=" && storeSigns.contains sign)
    cases Text.startsWith value "=" <;> rfl

end Marginalia.Ranged
