import Marginalia.Proofs.JoinedArguments
import Marginalia.Proofs.Weight

/-!
# Completions

What code becomes when every call that lacks arguments is completed, as a relation between the code
before and after: a call that lacks arguments keeps those it has, in which calls are completed too,
and gets `None` for each one that is missing; everything else stays. A completion of code that is put
together is put together from completions of the parts, and what is nested, single or closed stays
so.
-/

namespace Marginalia.Repair

open Text

/-- No call that lacks arguments starts at a place. -/
def NoneLacks (arities : Arities) (prev : Option Char) (t : Text) : Prop :=
  ∀ name inside after required, t = callText name inside after →
    ¬LacksArguments arities prev name inside required

/-- What stands between the parentheses of a call once arguments that are missing are added. -/
def withMissing (arguments : List Text) (missing : Nat) : Text :=
  join ", " (arguments ++ List.replicate missing ("None" : Text))

/-- What text behind a character becomes when the calls that lack arguments are completed. A call
that is completed is read as one with the arguments it had, completed themselves, and those that were
added. -/
inductive Completion (arities : Arities) : Option Char → Text → Text → Prop
  | nil (prev : Option Char) : Completion arities prev [] []
  | keep {prev : Option Char} {c : Char} {rest rest' : Text}
    (hnone : NoneLacks arities prev (c :: rest)) (hrest : Completion arities (some c) rest rest') :
    Completion arities prev (c :: rest) (c :: rest')
  | call {prev : Option Char} {name inside after after' : Text} {arguments' : List Text}
    {required : Nat} (hlacks : LacksArguments arities prev name inside required)
    (harguments : List.Forall₂ (Completion arities none) (argumentsOf inside) arguments')
    (hagain : argumentsOf (withMissing arguments' (required - (argumentsOf inside).length)) =
      arguments' ++ List.replicate (required - (argumentsOf inside).length) ("None" : Text))
    (hafter : Completion arities (some ')') after after') :
    Completion arities prev (callText name inside after)
      (callText name (withMissing arguments' (required - (argumentsOf inside).length)) after')

/-- Names of known classes that parentheses follow all stand outside literals, in text that follows a
character and is read from a state. -/
def Quiet (arities : Arities) (prev : Option Char) (s : CodeState) (t : Text) : Prop :=
  ∀ before name tail required, t = before ++ (name ++ '(' :: tail) →
    NamesClass arities (lastOf prev before) name required → (s.run before).quote = none

section

variable {arities : Arities} {prev prev' : Option Char} {s s' : CodeState} {t t' : Text} {c : Char}
  {name inside after : Text}

/-! ## Quiet text -/

lemma Quiet.behind (front : Text) (h : Quiet arities prev s (front ++ t)) :
    Quiet arities (lastOf prev front) (s.run front) t := by
  intro before name tail required ht hname
  rw [← lastOf_append] at hname
  rw [← CodeState.run_append]
  exact h (front ++ before) name tail required (by rw [ht, List.append_assoc]) hname

lemma Quiet.before {back : Text} (h : Quiet arities prev s (t ++ back)) :
    Quiet arities prev s t := by
  intro before name tail required ht hname
  exact h before name (tail ++ back) required (by rw [ht]; simp) hname

lemma Quiet.congr (hs : s.Agree s') (h : Quiet arities prev s t) : Quiet arities prev s' t :=
  fun before name tail required ht hname =>
    (hs.run before).quote ▸ h before name tail required ht hname

/-- Outside literals it does not matter which character stands before. -/
lemma Quiet.of_prev (hs : s.quote = none) (h : Quiet arities prev s t) : Quiet arities prev' s t := by
  intro before name tail required ht hname
  cases before with
  | nil => exact hs
  | cons d before =>
    rw [lastOf_cons] at hname
    exact h (d :: before) name tail required ht (by rwa [lastOf_cons])

lemma LacksArguments.quote {required : Nat} (h : LacksArguments arities prev name inside required)
    (hquiet : Quiet arities prev s (callText name inside after)) : s.quote = none :=
  hquiet [] name _ required rfl h.toNamesClass

lemma quiet_of_not_mem (h : '(' ∉ t) : Quiet arities prev s t := by
  rintro before name tail required rfl -
  simp at h

lemma Quiet.behind_call (h : Quiet arities prev s (callText name inside after)) (hname : IsName name)
    (hinside : WellNested inside) (hs : s.Sound) (hq : s.quote = none) :
    Quiet arities (some ')') s after := by
  have hrun := hname.run_callText hinside hs hq []
  have hlast : lastOf prev (callText name inside []) = some ')' := by
    have hend : callText name inside [] = (name ++ '(' :: inside) ++ [')'] := by simp [callText]
    rw [hend, lastOf_append]
    rfl
  rw [← List.nil_append after, callText_append] at h
  have hbehind := h.behind
  rwa [hrun, hlast] at hbehind

lemma Quiet.pieces {sep : Char} (hsep : isPlain sep = true) (hs : s.Sound)
    (h : Quiet arities prev s t) :
    ∀ piece ∈ (piecesFrom sep s t).2, Quiet arities none .start piece := by
  refine (piecesFrom_induction hsep (motive := fun s t piece pieces => piece <+: t ∧
      ∀ prev, Quiet arities prev s t → ∀ later ∈ pieces, Quiet arities none .start later)
    (fun s => ⟨List.prefix_rfl, fun _ _ => nofun⟩) (fun rest piece pieces ih => ?_)
    (fun s c rest piece pieces _ _ ih => ?_) hs t).2 prev h
  · refine ⟨List.nil_prefix, fun prev hquiet => ?_⟩
    have hrest := hquiet.behind [sep]
    rw [CodeState.run_cons, CodeState.run_nil, CodeState.step_plain_start hsep] at hrest
    refine List.forall_mem_cons.mpr ⟨?_, ih.2 _ hrest⟩
    obtain ⟨later, rfl⟩ := ih.1
    exact hrest.before.of_prev rfl
  · exact ⟨(List.prefix_cons_inj c).mpr ih.1, fun prev hquiet => ih.2 _ (hquiet.behind [c])⟩

lemma Quiet.arguments (h : Quiet arities prev s (callText name inside after)) (hname : IsName name)
    (hs : s.Sound) (hq : s.quote = none) :
    ∀ argument ∈ argumentsOf inside, Quiet arities none .start argument := by
  have hinside : Quiet arities none .start inside := by
    have hsplit : callText name inside after = (name ++ ['(']) ++ (inside ++ ')' :: after) := by
      simp [callText]
    rw [hsplit] at h
    exact (h.behind.before.congr (hname.agree_run hs hq)).of_prev rfl
  have hpieces : ∀ piece ∈ rawPieces ',' inside, Quiet arities none .start piece := by
    obtain ⟨later, hlater⟩ := piecesFrom_isPrefix ',' .start inside
    refine List.forall_mem_cons.mpr ⟨?_, hinside.pieces (by decide) CodeState.sound_start⟩
    rw [← hlater] at hinside
    exact hinside.before
  intro argument hargument
  rw [argumentsOf_eq] at hargument
  obtain ⟨piece, hpiece, rfl⟩ := List.mem_map.mp (List.mem_of_mem_filter hargument)
  obtain ⟨front, back, hmargins, hfront, -⟩ := trim_append piece
  have hquiet := hpieces piece hpiece
  rw [hmargins, List.append_assoc] at hquiet
  have htrimmed := hquiet.behind.before
  rw [CodeState.run_blanks rfl hfront] at htrimmed
  exact htrimmed.of_prev rfl

/-! ## Completions of code that is put together -/

lemma NoneLacks.before {more : Text} (h : NoneLacks arities prev (t ++ more)) :
    NoneLacks arities prev t := by
  intro name inside after required ht
  exact h name inside (after ++ more) required (by rw [callText_append, ht])

lemma noneLacks_of_shortCallAt? (h : shortCallAt? arities prev t = none) :
    NoneLacks arities prev t := by
  rintro name inside after required rfl hlacks
  rw [hlacks.shortCallAt?] at h
  cases h

lemma noneLacks_of_not_nameStart (hc : isNameStart c = false) : NoneLacks arities prev (c :: t) := by
  rintro name inside after required ht hlacks
  obtain ⟨d, w, rfl, hd, -⟩ := hlacks.isName
  obtain ⟨rfl, -⟩ := List.cons.inj ht
  rw [hc] at hd
  cases hd

lemma noneLacks_of_wordChar (hc : isWordChar c = true) : NoneLacks arities (some c) t := by
  intro name inside after required _ hlacks
  have hfresh := hlacks.fresh
  simp [isFresh, hc] at hfresh

namespace Completion

/-- Induction over a completion and those of the arguments that it is made of. -/
theorem induction {motive : ∀ prev t t', Completion arities prev t t' → Prop}
    (nil : ∀ prev, motive prev [] [] (.nil prev))
    (keep : ∀ {prev c rest rest'} (hnone : NoneLacks arities prev (c :: rest))
      (hrest : Completion arities (some c) rest rest'), motive (some c) rest rest' hrest →
      motive prev (c :: rest) (c :: rest') (.keep hnone hrest))
    (call : ∀ {prev name inside after after' arguments' required}
      (hlacks : LacksArguments arities prev name inside required)
      (harguments : List.Forall₂ (Completion arities none) (argumentsOf inside) arguments')
      (hagain : argumentsOf (withMissing arguments' (required - (argumentsOf inside).length)) =
        arguments' ++ List.replicate (required - (argumentsOf inside).length) ("None" : Text))
      (hafter : Completion arities (some ')') after after'),
      List.Forall₂ (fun a a' => ∃ h : Completion arities none a a', motive none a a' h)
        (argumentsOf inside) arguments' → motive (some ')') after after' hafter →
      motive prev _ _ (.call hlacks harguments hagain hafter))
    (h : Completion arities prev t t') : motive prev t t' h :=
  @Completion.rec arities motive
    (fun pieces pieces' _ =>
      List.Forall₂ (fun a a' => ∃ h : Completion arities none a a', motive none a a' h) pieces pieces')
    nil keep call .nil (fun h _ ih ihs => .cons ⟨h, ih⟩ ihs) prev t t' h

/-- Where no call lacks arguments, the first character stays. -/
lemma exists_tail (h : Completion arities prev (c :: t) t')
    (hnone : NoneLacks arities prev (c :: t)) :
    ∃ rest', t' = c :: rest' ∧ Completion arities (some c) t rest' := by
  generalize htext : c :: t = text at h
  cases h with
  | nil => cases htext
  | keep _ hrest =>
    obtain ⟨rfl, rfl⟩ := List.cons.inj htext
    exact ⟨_, rfl, hrest⟩
  | call hlacks => exact absurd hlacks (hnone _ _ _ _ htext)

/-- A name stays, and the parenthesis behind it. -/
lemma exists_behind_name (hc : isWordChar c = true) {w : Text} (hw : w.all isWordChar = true)
    (h : Completion arities (some c) (w ++ '(' :: t) t') :
    ∃ rest', t' = w ++ '(' :: rest' ∧ Completion arities (some '(') t rest' := by
  induction w generalizing c t' with
  | nil => exact h.exists_tail (noneLacks_of_wordChar hc)
  | cons d w ih =>
    rw [List.all_cons, Bool.and_eq_true] at hw
    obtain ⟨rest', rfl, hrest⟩ := h.exists_tail (noneLacks_of_wordChar hc)
    obtain ⟨rest', rfl, hbehind⟩ := ih hw.1 hw.2 hrest
    exact ⟨rest', rfl, hbehind⟩

/-- It does not matter behind which character an argument stands, if it belongs to no name. -/
lemma of_prev (h : Completion arities prev t t') (hfresh : isFresh prev = true)
    (hdot : prev ≠ some '.') : Completion arities none t t' := by
  cases h with
  | nil => exact .nil none
  | keep hnone hrest =>
    refine .keep (fun name inside after required ht hlacks => ?_) hrest
    exact hnone name inside after required ht
      { hlacks with fresh := hfresh, noAttribute := hdot }
  | call hlacks harguments hagain hafter =>
    exact .call { hlacks with fresh := rfl, noAttribute := by simp } harguments hagain hafter

lemma eq_of_not_mem (h : Completion arities prev t t') (hparen : '(' ∉ t) : t' = t := by
  induction h using Completion.induction with
  | nil => rfl
  | keep _ _ ih => rw [ih fun hmem => hparen (List.mem_cons_of_mem _ hmem)]
  | call => simp [callText] at hparen

/-! The parts of a text. -/

/-- A name with its parenthesis does not reach over a character that is neither. -/
lemma exists_behind_paren {u v : Text} {sep : Char} (hname : IsName name)
    (hword : isWordChar sep = false) (hparen : sep ≠ '(') (h : name ++ '(' :: t = u ++ sep :: v) :
    ∃ u₁, u = name ++ '(' :: u₁ ∧ t = u₁ ++ sep :: v := by
  obtain ⟨back, hu, hback⟩ | ⟨back, hback, hv⟩ := List.append_eq_append_iff.mp h
  · cases back with
    | nil => exact absurd (List.cons.inj hback).1.symm hparen
    | cons d u₁ =>
      obtain ⟨rfl, ht⟩ := List.cons.inj hback
      exact ⟨u₁, hu, ht⟩
  · cases back with
    | nil => exact absurd (List.cons.inj hv).1 hparen
    | cons d back =>
      obtain ⟨rfl, -⟩ := List.cons.inj hv
      obtain ⟨c, w, rfl, hc, hw⟩ := hname
      have hall : (c :: w).all isWordChar = true := by
        rw [List.all_cons, isWordChar_of_isNameStart hc, hw]
        rfl
      rw [List.all_eq_true.mp hall sep (by simp [hback])] at hword
      cases hword

/-- A call does not reach over the end of code that closes its brackets. -/
lemma exists_behind_call {u₁ v : Text} {sep : Char} {due : List Char} (hinside : WellNested inside)
    (hdue : dueAfter? .start (')' :: due) u₁ = some [])
    (h : inside ++ ')' :: after = u₁ ++ sep :: v) :
    ∃ after₁, u₁ = inside ++ ')' :: after₁ ∧ after = after₁ ++ sep :: v := by
  have hopen : ∀ back, inside ≠ u₁ ++ back := by
    rintro back rfl
    have hnested := hinside.nested
    rw [dueAfter?_append] at hnested
    obtain ⟨between, hbetween, -⟩ := Option.bind_eq_some_iff.mp hnested
    have hbelow := dueAfter?_base hbetween (')' :: due)
    rw [List.nil_append, hdue] at hbelow
    simp at hbelow
  obtain ⟨back, hu, hback⟩ | ⟨back, hback, -⟩ := List.append_eq_append_iff.mp h
  · cases back with
    | nil => exact absurd (by rw [hu, List.append_nil, List.append_nil]) (hopen [])
    | cons d after₁ =>
      obtain ⟨rfl, hafter⟩ := List.cons.inj hback
      exact ⟨after₁, hu, hafter⟩
  · exact absurd hback (hopen back)

/-- A completion of text that closes its brackets before a character is one of what stands before it
and one of what stands behind it. -/
lemma split {u v : Text} {sep : Char} {due : List Char} (h : Completion arities prev t t')
    (ht : t = u ++ sep :: v) (hword : isWordChar sep = false) (hparen : sep ≠ '(') (hs : s.Sound)
    (hdue : dueAfter? s due u = some []) (hquiet : Quiet arities prev s u) :
    ∃ u' v', t' = u' ++ sep :: v' ∧ Completion arities prev u u' ∧
      Completion arities (some sep) v v' := by
  induction h using Completion.induction generalizing u s due with
  | nil => simp at ht
  | @keep prev c rest rest' hnone hrest ih =>
    cases u with
    | nil =>
      obtain ⟨rfl, rfl⟩ := List.cons.inj ht
      exact ⟨[], rest', rfl, .nil prev, hrest⟩
    | cons d u =>
      obtain ⟨rfl, rfl⟩ := List.cons.inj ht
      obtain ⟨next, -, hnext⟩ := exists_dueAfter?_cons hdue
      obtain ⟨u', v', rfl, hu, hv⟩ := ih rfl (hs.step c) hnext (hquiet.behind [c])
      exact ⟨c :: u', v', rfl, .keep hnone.before hu, hv⟩
  | @call prev name inside after after' arguments' required hlacks harguments hagain _ _ ih =>
    -- The call ends before `sep`, since `u` closes the parenthesis of the call.
    obtain ⟨u₁, rfl, hinside⟩ := exists_behind_paren hlacks.isName hword hparen ht
    have hq : s.quote = none := hquiet [] name u₁ required rfl hlacks.toNamesClass
    rw [dueAfter?_name hlacks.isName hs hq] at hdue
    obtain ⟨after₁, rfl, hafter⟩ := exists_behind_call hlacks.nested hdue hinside
    rw [← dueAfter?_name hlacks.isName hs hq] at hdue
    change dueAfter? s due (callText name inside after₁) = some [] at hdue
    rw [hlacks.isName.dueAfter?_callText hlacks.nested hs hq] at hdue
    obtain ⟨u', v', rfl, hu, hv⟩ := ih hafter hs hdue
      (hquiet.behind_call hlacks.isName hlacks.nested hs hq)
    refine ⟨_, v', ?_, .call hlacks harguments hagain hu, hv⟩
    simp [callText]

end Completion

end

end Marginalia.Repair
