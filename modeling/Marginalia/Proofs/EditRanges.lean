import Marginalia.Proofs.ImprovedLogic
import Marginalia.Proofs.ImprovedPitfalls
import Marginalia.Proofs.LineRanges
import Marginalia.Proofs.ReplacedRanges

/-!
# Ranges that are edited

What a substitution exchanges in a line stands at the ranges that are found for it. Between them the
line is kept, and if there are none it is left as it is.
-/

namespace Marginalia.Ranged

open Text Repair

variable {code head out t : Text} {b : Before} {start : Nat} {swaps : List Swap}

/-- Whether there are edits to be made tells whether a text is changed. -/
lemma changed?_eq (h : Replaced start swaps code out)
    (hgain : ∀ swap ∈ swaps, weight swap.old < weight swap.new) :
    (if (swaps.map Swap.edit).isEmpty then none else some out) = changed? code out := by
  have hsame := h.eq_iff hgain
  cases swaps with
  | nil => rw [changed?, if_pos (hsame.mpr rfl)]; rfl
  | cons swap swaps => rw [changed?, if_neg fun heq => List.cons_ne_nil _ _ (hsame.mp heq)]; rfl

/-! ## Conditions -/

lemma isLone_append (head rest : Text) (c : Char) (depth : Nat) :
    isLone (head ++ c :: rest) ⟨byteLength head, c, depth⟩ =
      (c == '=' && depth == 0 && !(lastOf none head).any joinsEquality &&
        rest.head? != some '=') := by
  by_cases hc : c = '='
  · subst hc
    have hbefore : charBefore? (head ++ '=' :: rest) (byteLength head) = lastOf none head := by
      rw [charBefore?, upToByte?_append, lastOf, Option.or_none]
      rfl
    have hafter : charAt? (head ++ '=' :: rest) (byteLength head + 1) = rest.head? := by
      have hrest := fromByte?_append (head ++ ['=']) rest
      rw [byteLength_append, List.append_assoc] at hrest
      exact congrArg (·.bind List.head?) hrest
    rw [isLone, hbefore, hafter]
    rfl
  · have hother : (c == '=') = false := beq_eq_false_iff_ne.mpr hc
    rw [isLone, isSeparator, hother]
    rfl

/-- Doubling the lone equality signs exchanges each of them. -/
lemma replaced_doubleEquality {condition : Text} (s : CodeState) (head rest : Text)
    (hcondition : condition = head ++ rest) :
    Replaced (byteLength head)
      (((codeCharsFrom s (byteLength head) rest).filter (isLone condition)).map
        fun c => ⟨c.index, "=", "=="⟩)
      rest (doubleEquality s (lastOf none head) rest) := by
  induction rest generalizing s head with
  | nil => exact .nil _ _
  | cons c rest ih =>
    have hnext := ih (s.step c).1 (head ++ [c]) (by rw [hcondition, List.append_assoc]; rfl)
    rw [byteLength_append, byteLength_cons, byteLength_nil, Nat.add_zero, lastOf_append] at hnext
    have hkept : Replaced (byteLength head) _ (c :: rest) _ := .behind [c] hnext
    rw [codeCharsFrom, doubleEquality]
    cases (s.step c).2 with
    | none =>
      rw [if_neg (by simp)]
      exact hkept
    | some depth =>
      have hlone := isLone_append head rest c depth
      rw [← hcondition] at hlone
      dsimp only
      rw [List.filter_cons, hlone, Option.some_beq_some]
      split
      · next hsign =>
        obtain rfl : c = '=' := by
          simp only [Bool.and_eq_true, beq_iff_eq] at hsign
          exact hsign.1.1.1
        exact .cons [] "=" "==" hnext
      · exact hkept

/-- The lone equality signs of a condition, and what they are exchanged for. -/
def equalitySwaps (condition : Text) : List Swap :=
  (loneEqualities condition).map fun place => ⟨place, "=", "=="⟩

lemma replaced_equalitySwaps (condition : Text) :
    Replaced 0 (equalitySwaps condition) condition (doubleEquality .start none condition) := by
  rw [equalitySwaps, loneEqualities, List.map_map]
  exact replaced_doubleEquality .start [] condition rfl

lemma equalitySwaps_heavier (condition : Text) :
    ∀ swap ∈ equalitySwaps condition, weight swap.old < weight swap.new := by
  intro swap hswap
  obtain ⟨place, -, rfl⟩ := List.mem_map.mp hswap
  exact (by decide : weight ("=" : Text) < weight ("==" : Text))

lemma conditionEnd?_eq (t : Text) : conditionEnd? t = some (byteLength (splitCondition t).1) := by
  rw [conditionEnd?, splitCondition, findTopLevel?]
  cases hsplit : Text.splitTopLevel? ':' t with
  | none => rfl
  | some p =>
    obtain ⟨condition, tail⟩ := p
    obtain ⟨behind, rfl, ht⟩ := eq_of_behind_sign hsplit
    have hbehind : from? t (byteLength condition + 1) = some behind :=
      from?_of_eq (condition ++ [':']) (by rw [ht]; simp) (by simp; rfl)
    dsimp only [Option.map_some]
    rw [hbehind, Option.map_some]
    change some (if Text.startsWith behind "=" = true then _ else _) =
      some (byteLength (if Text.startsWith behind "=" = true then ((t, []) : Text × Text) else _).1)
    split <;> rfl

lemma compareInCondition?_eq (code : Text) :
    compareInCondition? code = some (Repair.compareInCondition? code) := by
  rw [compareInCondition?, Repair.compareInCondition?]
  cases hmatched : afterConditionWord? code with
  | none => rfl
  | some matched =>
    obtain ⟨front, rfl⟩ := afterConditionWord?_suffix hmatched
    obtain ⟨condition, tail, hparts⟩ :
        ∃ condition tail, splitCondition matched = (condition, tail) := ⟨_, _, rfl⟩
    obtain rfl : condition ++ tail = matched := by
      have happ := splitCondition_append matched
      rwa [hparts] at happ
    have hstart : byteLength (front ++ (condition ++ tail)) - byteLength (condition ++ tail) =
        byteLength front := by rw [byteLength_append, Nat.add_sub_cancel]
    have hdoubled : replaceRanges? condition 0
        ((loneEqualities condition).map fun place => ⟨place, place + 1, "=="⟩) =
        some (doubleEquality .start none condition) := by
      have happly := (replaced_equalitySwaps condition).replaceRanges? []
      rw [equalitySwaps, List.map_map] at happly
      exact happly
    have hsame : front ++ doubleEquality .start none condition ++ tail =
        front ++ (condition ++ tail) ↔ loneEqualities condition = [] := by
      rw [List.append_assoc, List.append_cancel_left_eq, List.append_cancel_right_eq,
        (replaced_equalitySwaps condition).eq_iff (equalitySwaps_heavier condition), equalitySwaps,
        List.map_eq_nil_iff]
    dsimp only
    rw [hstart, from?_append, Option.bind_eq_bind, Option.bind_some, conditionEnd?_eq, hparts,
      Option.bind_eq_bind, Option.bind_some]
    dsimp only
    rw [slice?_head, Option.bind_eq_bind, Option.bind_some, slice?_head, from?_append, hdoubled]
    dsimp only [Option.bind_some]
    rw [before_append, hparts]
    by_cases hnone : loneEqualities condition = []
    · rw [if_pos (List.isEmpty_iff.mpr hnone), changed?, if_pos (hsame.mpr hnone)]
      rfl
    · rw [if_neg (mt List.isEmpty_iff.mp hnone), changed?, if_neg (mt hsame.mp hnone)]
      rfl

/-! ## Rules -/

/-- A rule that cuts ranges out of code takes and puts what another one does. -/
def Follows (ranged : RangedRule) (rule : Rule) : Prop :=
  ∀ head t b, ∃ taken?, ranged (head ++ t) b (byteLength head) t = some taken? ∧
    rule b t = taken?.map fun (length, new?) => (length, new?.getD (t.take length))

/-- Whether a rule puts a text in the stead of a piece. -/
def Puts (ranged : RangedRule) (old new : Text) : Prop :=
  ∃ head b rest, ranged (head ++ (old ++ rest)) b (byteLength head) (old ++ rest) =
    some (some (old.length, some new))

lemma editsFrom?_skip (ranged : RangedRule) (code : Text) (b : Before) (start skip : Nat)
    (t : Text) : editsFrom? ranged code b start skip t =
      editsFrom? ranged code ((t.take skip).foldl Before.step b)
        (start + byteLength (t.take skip)) 0 (t.drop skip) := by
  induction t generalizing b start skip with
  | nil => cases skip <;> simp [editsFrom?]
  | cons c rest ih =>
    cases skip with
    | zero => rfl
    | succ skip =>
      rw [editsFrom?, ih, Nat.add_assoc]
      rfl

lemma editsFrom?_taken {ranged : RangedRule} {old rest : Text} {new? : Option Text}
    (hne : old ≠ []) (h : ranged code b start (old ++ rest) = some (some (old.length, new?))) :
    editsFrom? ranged code b start 0 (old ++ rest) =
      (editsFrom? ranged code (old.foldl Before.step b) (start + byteLength old) 0 rest).map
        fun edits => ((new?.map (Swap.edit ⟨start, old, ·⟩)).toList ++ edits) := by
  obtain ⟨c, old, rfl⟩ := List.exists_cons_of_ne_nil hne
  rw [List.cons_append] at h ⊢
  rw [editsFrom?, h, Option.bind_eq_bind, Option.bind_some]
  dsimp only
  rw [editsFrom?_skip, List.length_cons, Nat.add_sub_cancel, List.take_left, List.drop_left,
    Nat.add_assoc, List.take_succ_cons, List.take_left]
  change (editsFrom? ranged code ((c :: old).foldl Before.step b) (start + byteLength (c :: old)) 0
    rest).bind _ = _
  cases editsFrom? ranged code ((c :: old).foldl Before.step b) (start + byteLength (c :: old)) 0
    rest with
  | none => rfl
  | some edits => cases new? <;> rfl

/-- The edits that a rule makes are exchanges of what it takes, where it stands. -/
lemma exists_edits {ranged : RangedRule} {rule : Rule} (hfollows : Follows ranged rule)
    (h : Substituted rule b t out) (hcode : code = head ++ t) : ∃ swaps,
      editsFrom? ranged code b (byteLength head) 0 t = some (swaps.map Swap.edit) ∧
        Replaced (byteLength head) swaps t out ∧ ∀ swap ∈ swaps, Puts ranged swap.old swap.new := by
  induction h generalizing head with
  | nil b => exact ⟨[], rfl, .nil _ [], List.forall_mem_nil _⟩
  | @keep b c rest out hnone hrest ih =>
    obtain ⟨swaps, hedits, hreplaced, hputs⟩ :=
      ih (show code = (head ++ [c]) ++ rest by simp [hcode])
    rw [byteLength_append] at hedits hreplaced
    refine ⟨swaps, ?_, hreplaced.behind [c], hputs⟩
    obtain ⟨taken?, htaken, hrule⟩ := hfollows head (c :: rest) b
    rw [hnone] at hrule
    obtain rfl := Option.map_eq_none_iff.mp hrule.symm
    rw [← hcode] at htaken
    rw [editsFrom?, htaken]
    exact hedits
  | @swap b old new rest out hne hswap hrest ih =>
    obtain ⟨swaps, hedits, hreplaced, hputs⟩ :=
      ih (show code = (head ++ old) ++ rest by simp [hcode])
    rw [byteLength_append] at hedits hreplaced
    obtain ⟨taken?, htaken, hrule⟩ := hfollows head (old ++ rest) b
    rw [hswap] at hrule
    obtain ⟨⟨length, new?⟩, rfl, heq⟩ := Option.map_eq_some_iff.mp hrule.symm
    obtain ⟨rfl, hnew⟩ := Prod.mk.inj heq
    rw [List.take_left] at hnew
    have hputs' := htaken
    rw [← hcode] at htaken
    rw [editsFrom?_taken hne htaken, hedits]
    cases new? with
    | none =>
      -- What is taken is kept.
      obtain rfl : old = new := hnew
      exact ⟨swaps, rfl, hreplaced.behind old, hputs⟩
    | some new' =>
      obtain rfl : new' = new := hnew
      refine ⟨⟨byteLength head, old, new'⟩ :: swaps, rfl, .cons [] old new' hreplaced, ?_⟩
      exact List.forall_mem_cons.mpr ⟨⟨head, b, rest, hputs'⟩, hputs⟩

/-- A rule that makes what it takes heavier changes code exactly if it makes edits. -/
lemma exists_edited {ranged : RangedRule} {rule : Rule} (hfollows : Follows ranged rule)
    (htakes : rule.Takes) (hgain : ∀ old new, Puts ranged old new → weight old < weight new)
    (code : Text) : ∃ swaps,
      editsFrom? ranged code .start 0 0 code = some (swaps.map Swap.edit) ∧
        Replaced 0 swaps code (substitute rule code) ∧
        (if (swaps.map Swap.edit).isEmpty then none else some (substitute rule code)) =
          substitute? rule code := by
  obtain ⟨swaps, hedits, hreplaced, hputs⟩ :=
    exists_edits hfollows (substituted_substitute htakes code) (List.nil_append code).symm
  exact ⟨swaps, hedits, hreplaced, changed?_eq hreplaced fun swap hswap =>
    hgain _ _ (hputs swap hswap)⟩

/-! ## Comparisons with `None` -/

lemma follows_noneRule? (sign new : Text) : Follows (noneRule? sign new) (noneRule sign new) := by
  intro head t b
  refine ⟨_, rfl, ?_⟩
  rw [Option.map_map]
  exact Option.map_id'.symm

lemma noneRule?_heavier {sign new : Text} (h : weight sign + weight ("None" : Text) < weight new)
    (old put : Text) (hputs : Puts (noneRule? sign new) old put) : weight old < weight put := by
  obtain ⟨head, b, rest, hrule⟩ := hputs
  obtain ⟨⟨length, put'⟩, hnone, heq⟩ := Option.map_eq_some_iff.mp (Option.some.inj hrule)
  obtain ⟨-, rfl, gap, gap', rest', hgap, hgap', -, ht, hlength⟩ := eq_of_noneRule hnone
  obtain ⟨rfl, hput⟩ := Prod.mk.inj heq
  obtain rfl : put' = put := Option.some.inj hput
  obtain ⟨rfl, rfl⟩ := List.append_inj ht hlength
  simp only [weight_append, weight_blanks hgap, weight_blanks hgap']
  omega

lemma replaceOutside?_eq {sign new : Text} (hsign : sign ≠ [])
    (h : weight sign + weight ("None" : Text) < weight new) (code : Text) :
    replaceOutside? sign new code = some (substitute? (noneRule sign new) code) := by
  obtain ⟨swaps, hedits, hreplaced, hchanged⟩ := exists_edited (follows_noneRule? sign new)
    (gains_noneRule hsign h).takes (noneRule?_heavier h) code
  have happly : replaceRanges? code 0 (swaps.map Swap.edit) = some (substitute _ code) :=
    hreplaced.replaceRanges? []
  rw [replaceOutside?, hedits, Option.bind_eq_bind, Option.bind_some, happly, ← hchanged]
  split <;> rfl

/-! ## Keys -/

/-- What is done with the read of a key at a place. -/
lemma keyRule?_read {name key after : Text} (hfresh : b.fresh = true)
    (hread : keyRead? t = some (name, key, after)) (head : Text) :
    keyRule? (head ++ t) b (byteLength head) t = some (some (t.length - after.length,
      if Naming.isMappingName name && !b.quoted && !isStoreTarget after then
        some (name ++ ".get(" ++ key ++ ")")
      else none)) := by
  obtain ⟨gap, gap', -, -, ht⟩ := eq_of_keyRead? hread
  generalize hold : name ++ ("[" ++ (gap ++ (key ++ (gap' ++ "]")))) = old at ht
  have hbehind : from? (head ++ t) (byteLength head + byteLength old) = some after :=
    from?_of_eq (head ++ old) (by rw [ht, List.append_assoc]) (by rw [byteLength_append])
  have hlength : t.length - after.length = old.length := by rw [ht, length_of_taken]
  have htake : t.take old.length = old := by rw [ht, List.take_left]
  rw [keyRule?, if_pos hfresh, hread]
  dsimp only
  rw [hlength, htake, hbehind, Option.bind_eq_bind, Option.bind_some, isStoreTarget?_eq]
  cases Naming.isMappingName name <;> cases b.quoted <;> cases isStoreTarget after <;> rfl

lemma follows_keyRule? : Follows keyRule? keyRule := by
  intro head t b
  cases hfresh : b.fresh with
  | false =>
    refine ⟨none, by rw [keyRule?, hfresh]; rfl, ?_⟩
    rw [keyRule, hfresh]
    rfl
  | true =>
    cases hread : keyRead? t with
    | none =>
      refine ⟨none, by rw [keyRule?, hread, hfresh]; rfl, ?_⟩
      rw [keyRule, hread, hfresh]
      rfl
    | some read =>
      obtain ⟨name, key, after⟩ := read
      refine ⟨_, keyRule?_read hfresh hread head, ?_⟩
      rw [keyRule, hread, hfresh]
      change (if (Naming.isMappingName name && !b.quoted && !isStoreTarget after) = true then _
        else _) = some (_, Option.getD (if (_ && _) = true then _ else _) _)
      split <;> rfl

lemma keyRule?_heavier (old new : Text) (hputs : Puts keyRule? old new) :
    weight old < weight new := by
  obtain ⟨head, b, rest, hrule⟩ := hputs
  cases hfresh : b.fresh with
  | false =>
    rw [keyRule?, hfresh] at hrule
    cases hrule
  | true =>
    cases hread : keyRead? (old ++ rest) with
    | none =>
      rw [keyRule?, hread, hfresh] at hrule
      cases hrule
    | some read =>
      obtain ⟨name, key, after⟩ := read
      obtain ⟨gap, gap', hgap, hgap', heq⟩ := eq_of_keyRead? hread
      rw [keyRule?_read hfresh hread, Option.some.injEq, Option.some.injEq, Prod.mk.injEq, heq,
        length_of_taken] at hrule
      obtain ⟨hlength, hnew⟩ := hrule
      obtain ⟨rfl, rfl⟩ := List.append_inj heq hlength.symm
      obtain ⟨-, hput⟩ := Option.ite_none_right_eq_some.mp hnew
      obtain rfl := Option.some.inj hput
      have hnumbers : weight (".get(" : Text) = 99 ∧ weight (")" : Text) = 0 ∧
          weight ("[" : Text) = 0 ∧ weight ("]" : Text) = 0 := ⟨rfl, rfl, rfl, rfl⟩
      simp only [weight_append, weight_blanks hgap, weight_blanks hgap']
      omega

lemma guardKeys?_eq (code : Text) : guardKeys? code = some (Repair.guardKeys? code) := by
  rw [guardKeys?, Repair.guardKeys?]
  split
  · rfl
  · obtain ⟨swaps, hedits, hreplaced, hchanged⟩ := exists_edited follows_keyRule?
      gains_keyRule.takes keyRule?_heavier code
    rw [hedits, Option.bind_eq_bind, Option.bind_some, hreplaced.applyEdits?, ← hchanged]
    split <;> rfl

end Marginalia.Ranged
