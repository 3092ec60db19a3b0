import Marginalia.Proofs.Exchanges

/-!
# Edits

An edit exchanges a piece of a text at a place that is told by the text before it. What a
substitution does to a text is a set of edits: those where it comes to a place at which the rule
applies, with nothing of it taken by an edit before.
-/

namespace Marginalia

open Text Repair

/-- A text behind another one, with certain pieces exchanged and everything else kept. An edit is
told by the text before it, the piece, and what takes its place. -/
inductive Edited (p : Text → Text → Text → Prop) : Text → Text → Text → Prop
  | nil (head : Text) : Edited p head [] []
  | keep {head rest out : Text} {c : Char} (h : ∀ old new, ¬p head old new)
    (hrest : Edited p (head ++ [c]) rest out) : Edited p head (c :: rest) (c :: out)
  | swap {head old new rest out : Text} (hne : old ≠ []) (h : p head old new)
    (hrest : Edited p (head ++ old) rest out) : Edited p head (old ++ rest) (new ++ out)

namespace Edited

variable {p q : Text → Text → Text → Prop} {head t out : Text}

lemma append {t' out' : Text} (h : Edited p head t out) (h' : Edited p (head ++ t) t' out') :
    Edited p head (t ++ t') (out ++ out') := by
  induction h with
  | nil => rwa [List.append_nil] at h'
  | keep hnone _ ih =>
    rw [List.append_cons] at h'
    exact .keep hnone (ih h')
  | swap hne hp _ ih =>
    rw [← List.append_assoc] at h'
    rw [List.append_assoc, List.append_assoc]
    exact .swap hne hp (ih h')

/-- Where there are no edits everything is kept. -/
lemma same (h : ∀ more c rest, t = more ++ c :: rest → ∀ old new, ¬p (head ++ more) old new) :
    Edited p head t t := by
  induction t generalizing head with
  | nil => exact .nil head
  | cons c rest ih =>
    have hfirst := h [] c rest rfl
    rw [List.append_nil] at hfirst
    refine .keep hfirst (ih fun more d rest' heq => ?_)
    rw [List.append_assoc]
    exact h (c :: more) d rest' (by rw [heq]; rfl)

lemma congr {head' : Text} (h : Edited p head t out)
    (hpq : ∀ more c rest, t = more ++ c :: rest →
      ∀ old new, p (head ++ more) old new ↔ q (head' ++ more) old new) : Edited q head' t out := by
  induction h generalizing head' with
  | nil => exact .nil head'
  | @keep head rest out c hnone _ ih =>
    have hfirst := hpq [] c rest rfl
    simp only [List.append_nil] at hfirst
    refine .keep (fun old new hq => hnone old new ((hfirst old new).mpr hq)) (ih ?_)
    intro more d rest' heq
    rw [List.append_assoc, List.append_assoc]
    exact hpq (c :: more) d rest' (by rw [heq]; rfl)
  | @swap head old new rest out hne hp _ ih =>
    obtain ⟨c, old, rfl⟩ := List.exists_cons_of_ne_nil hne
    have hfirst := hpq [] c (old ++ rest) rfl
    simp only [List.append_nil] at hfirst
    refine .swap hne ((hfirst _ _).mp hp) (ih ?_)
    intro more d rest' heq
    rw [List.append_assoc, List.append_assoc]
    exact hpq (c :: old ++ more) d rest' (by rw [heq, List.append_assoc])

/-- Edits that make pieces longer leave a text as it is only if there are none. -/
lemma eq_iff (h : Edited p head t out)
    (hlong : ∀ head old new, p head old new → old.length < new.length) :
    out = t ↔ ∀ more c rest, t = more ++ c :: rest → ∀ old new, ¬p (head ++ more) old new := by
  have hlength : ∀ {head t out : Text}, Edited p head t out → t.length ≤ out.length := by
    intro head t out h
    induction h with
    | nil => exact Nat.le_refl _
    | keep _ _ ih => exact Nat.succ_le_succ ih
    | swap _ hp _ ih =>
      rw [List.length_append, List.length_append]
      exact Nat.add_le_add (Nat.le_of_lt (hlong _ _ _ hp)) ih
  constructor
  · intro heq
    induction h with
    | nil =>
      intro more c rest hnil
      cases more <;> cases hnil
    | @keep head rest out c hnone _ ih =>
      intro more d rest' hcons
      cases more with
      | nil => rwa [List.append_nil]
      | cons e more =>
        obtain ⟨rfl, hrest⟩ := List.cons.inj hcons
        have hmore := ih (List.cons.inj heq).2 more d rest' hrest
        rwa [List.append_assoc] at hmore
    | @swap head old new rest out _ hp hrest _ =>
      have hsame := congrArg List.length heq
      rw [List.length_append, List.length_append] at hsame
      have hlt := hlong _ _ _ hp
      have hle := hlength hrest
      omega
  · intro hnone
    induction h with
    | nil => rfl
    | @keep head rest out c _ _ ih =>
      rw [ih fun more d rest' heq => ?_]
      rw [List.append_assoc]
      exact hnone (c :: more) d rest' (by rw [heq]; rfl)
    | @swap head old new rest out hne hp _ _ =>
      obtain ⟨c, old, rfl⟩ := List.exists_cons_of_ne_nil hne
      have hfirst := hnone [] c (old ++ rest) rfl
      rw [List.append_nil] at hfirst
      exact absurd hp (hfirst _ _)

end Edited

/-! ## Substitutions -/

namespace Text

/-- How many characters, of a text of which the first `skip` have been taken, are still taken at a
place counted from zero. -/
def takenAt (rule : Rule) (b : Before) : Nat → Text → Nat → Nat
  | skip, _, 0 => skip
  | skip, [], _ + 1 => skip
  | skip + 1, c :: rest, n + 1 => takenAt rule (b.step c) skip rest n
  | 0, c :: rest, n + 1 =>
    match rule b (c :: rest) with
    | some (length, _) => takenAt rule (b.step c) (length - 1) rest n
    | none => takenAt rule (b.step c) 0 rest n

/-- What is known before a place. -/
def placeBehind (head : Text) : Before := head.foldl Before.step .start

/-- A substitution passes over a place because an edit before it has taken its first character. -/
def Passed (rule : Rule) (code head : Text) : Prop := takenAt rule .start 0 code head.length ≠ 0

end Text

/-- An edit that a substitution makes. -/
def EditAt (rule : Rule) (code head old new : Text) : Prop :=
  ∃ after, code = head ++ (old ++ after) ∧ ¬Passed rule code head ∧
    rule (placeBehind head) (old ++ after) = some (old.length, new) ∧ new ≠ old

variable {rule : Rule}

lemma foldl_step (b : Before) (t : Text) :
    t.foldl Before.step b = ⟨lastOf b.prev t, b.code.run t⟩ := by
  induction t generalizing b with
  | nil => rfl
  | cons c rest ih =>
    rw [List.foldl_cons, ih, lastOf_cons]
    rfl

lemma placeBehind_eq (head : Text) :
    placeBehind head = ⟨lastOf none head, CodeState.start.run head⟩ := foldl_step .start head

lemma placeBehind_append (head t : Text) :
    placeBehind (head ++ t) = t.foldl Before.step (placeBehind head) := List.foldl_append

@[simp] lemma takenAt_zero (b : Before) (skip : Nat) (t : Text) :
    takenAt rule b skip t 0 = skip := by
  cases skip <;> rfl

lemma takenAt_append (b : Before) (skip : Nat) (head t : Text) (n : Nat) :
    takenAt rule b skip (head ++ t) (head.length + n) = takenAt rule (head.foldl Before.step b)
      (takenAt rule b skip (head ++ t) head.length) t n := by
  induction head generalizing b skip with
  | nil =>
    rw [List.nil_append, List.length_nil, Nat.zero_add, takenAt_zero]
    rfl
  | cons c head ih =>
    rw [List.length_cons, Nat.succ_add, List.cons_append, List.foldl_cons]
    cases skip with
    | succ skip => exact ih (b.step c) skip
    | zero =>
      rw [takenAt, takenAt]
      cases rule b (c :: (head ++ t)) with
      | none => exact ih (b.step c) 0
      | some pair => exact ih (b.step c) (pair.1 - 1)

lemma takenAt_skip {b : Before} {skip n : Nat} {t : Text} (hn : n ≤ skip) (ht : skip ≤ t.length) :
    takenAt rule b skip t n = skip - n := by
  induction n generalizing b skip t with
  | zero => exact takenAt_zero b skip t
  | succ n ih =>
    obtain ⟨skip, rfl⟩ := Nat.exists_eq_succ_of_ne_zero (Nat.ne_zero_of_lt hn)
    cases t with
    | nil => exact absurd ht (Nat.not_succ_le_zero skip)
    | cons c rest =>
      rw [takenAt, ih (Nat.le_of_succ_le_succ hn) (Nat.le_of_succ_le_succ ht)]
      omega

/-- In a piece that is exchanged the characters up to its end are taken. -/
lemma takenAt_inside {b : Before} {old new rest : Text}
    (h : rule b (old ++ rest) = some (old.length, new)) {n : Nat} (hpos : 0 < n)
    (hn : n ≤ old.length) : takenAt rule b 0 (old ++ rest) n = old.length - n := by
  cases old with
  | nil => exact absurd (Nat.lt_of_lt_of_le hpos hn) (Nat.lt_irrefl 0)
  | cons c old =>
    obtain ⟨n, rfl⟩ := Nat.exists_eq_succ_of_ne_zero (Nat.ne_of_gt hpos)
    rw [List.cons_append] at h ⊢
    rw [List.length_cons] at h hn ⊢
    rw [takenAt, h]
    show takenAt rule (b.step c) (old.length + 1 - 1) (old ++ rest) n = _
    rw [Nat.add_sub_cancel, takenAt_skip (Nat.le_of_succ_le_succ hn) (by simp)]
    omega

lemma passed_append {head t more : Text} (h : ¬Passed rule (head ++ t) head) :
    Passed rule (head ++ t) (head ++ more) ↔
      takenAt rule (placeBehind head) 0 t more.length ≠ 0 := by
  rw [Passed, List.length_append, takenAt_append, not_not.mp h]
  rfl

lemma edited_of_substituted {head t out : Text}
    (h : Substituted rule (placeBehind head) t out) (hpassed : ¬Passed rule (head ++ t) head) :
    Edited (EditAt rule (head ++ t)) head t out := by
  generalize hb : placeBehind head = b at h
  induction h generalizing head with
  | nil => exact .nil head
  | @keep b c rest out hnone _ ih =>
    have hrest : ¬Passed rule (head ++ c :: rest) (head ++ [c]) := by
      rw [passed_append hpassed, not_not, hb]
      show takenAt rule b 0 (c :: rest) 1 = 0
      rw [takenAt, hnone]
      exact takenAt_zero _ _ _
    have hbehind : placeBehind (head ++ [c]) = b.step c := by
      rw [placeBehind_append, hb]
      rfl
    rw [List.append_cons] at hrest
    have hedited := ih hrest hbehind
    rw [← List.append_cons] at hedited
    refine .keep ?_ hedited
    rintro old new ⟨after, heq, -, hrule, -⟩
    rw [← List.append_cancel_left heq, hb, hnone] at hrule
    cases hrule
  | @swap b old new rest out hne hr _ ih =>
    have hrest : ¬Passed rule (head ++ (old ++ rest)) (head ++ old) := by
      rw [passed_append hpassed, not_not, hb,
        takenAt_inside hr (List.length_pos_iff.mpr hne) (Nat.le_refl _), Nat.sub_self]
    have hbehind : placeBehind (head ++ old) = old.foldl Before.step b := by
      rw [placeBehind_append, hb]
    rw [← List.append_assoc] at hrest
    have hedited := ih hrest hbehind
    rw [List.append_assoc] at hedited
    by_cases hsame : new = old
    · rw [hsame]
      refine .append (.same ?_) hedited
      -- The piece itself is not altered, and every place inside it is passed over.
      rintro more c rest' hold old' new' ⟨after, heq, hpassed', hrule, hne'⟩
      cases more with
      | nil =>
        rw [List.append_nil] at heq hrule
        rw [← List.append_cancel_left heq, hb, hr] at hrule
        obtain ⟨hlength, rfl⟩ := Prod.mk.inj (Option.some.inj hrule)
        have hold' := (List.append_inj (List.append_cancel_left heq) hlength).1
        exact hne' (hsame.trans hold')
      | cons d more =>
        have hlt : (d :: more).length < old.length := by
          rw [hold]
          simp
        have hpos : 0 < (d :: more).length := Nat.succ_pos _
        rw [passed_append hpassed, not_not, hb, takenAt_inside hr hpos (Nat.le_of_lt hlt)]
          at hpassed'
        omega
    · exact .swap hne ⟨rest, rfl, hpassed, by rw [hb]; exact hr, hsame⟩ hedited

/-- What is still taken at a place was taken by an exchange before it. -/
lemma exists_of_taken (hrule : rule.Takes) {head t : Text} {k : Nat}
    (h : takenAt rule .start 0 (head ++ t) head.length = k + 1) : ∃ front old new after,
      head ++ t = front ++ (old ++ after) ∧
      rule (placeBehind front) (old ++ after) = some (old.length, new) ∧
      front.length < head.length ∧ front.length + old.length = head.length + k + 1 := by
  induction head using List.reverseRecOn generalizing t k with
  | nil => cases h
  | append_singleton head c ih =>
    rw [List.append_assoc, List.singleton_append] at h ⊢
    rw [List.length_append, List.length_singleton, takenAt_append] at h
    rw [List.length_append, List.length_singleton]
    cases htaken : takenAt rule .start 0 (head ++ c :: t) head.length with
    | succ k' =>
      rw [htaken] at h
      obtain ⟨front, old, new, after, hsplit, happlies, hlt, hlength⟩ := ih htaken
      rw [takenAt, takenAt_zero] at h
      exact ⟨front, old, new, after, hsplit, happlies, by omega, by omega⟩
    | zero =>
      rw [htaken, takenAt] at h
      cases hr : rule (placeBehind head) (c :: t) with
      | none =>
        rw [show rule (head.foldl Before.step .start) (c :: t) = none from hr] at h
        exact absurd ((takenAt_zero _ _ _).symm.trans h) (Nat.succ_ne_zero k).symm
      | some pair =>
        obtain ⟨length, new⟩ := pair
        rw [show rule (head.foldl Before.step .start) (c :: t) = some (length, new) from hr] at h
        have hlength : length - 1 = k + 1 := (takenAt_zero _ _ _).symm.trans h
        obtain ⟨old, after, hold, rfl, -⟩ := hrule _ _ _ _ hr
        rw [hold] at hr ⊢
        exact ⟨head, old, new, after, rfl, hr, Nat.lt_succ_self _, by omega⟩

/-- A substitution makes its edits, and no others. -/
theorem edited_substitute (hrule : rule.Takes) (code : Text) :
    Edited (EditAt rule code) [] code (substitute rule code) :=
  edited_of_substituted (show Substituted rule (placeBehind []) code _ from
    substituted_substitute hrule code) fun h => h rfl

end Marginalia
