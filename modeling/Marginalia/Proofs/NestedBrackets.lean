import Marginalia.Proofs.CallFilling
import Marginalia.Proofs.Literals

/-!
# Well-nested brackets

Code is well nested if every closing bracket outside literals closes the bracket that was opened last
and none stays open. Such code leaves the machine that reads code where it was, and so do the pieces
between its separators.
-/

namespace Marginalia

/-- The closing brackets that are due after a character, the next one first. Nothing if it is a
closing bracket that is not due. -/
def dueStep? (due : List Char) (c : Char) : Option (List Char) :=
  match closerOf? c with
  | some closer => some (closer :: due)
  | none =>
    if isCloser c then
      match due with
      | [] => none
      | next :: due => if c = next then some due else none
    else some due

lemma isSome_closerOf? (c : Char) : (closerOf? c).isSome = isOpener c := by
  unfold closerOf? isOpener
  by_cases hround : c = '('
  · simp [hround]
  · by_cases hsquare : c = '['
    · simp [hsquare]
    · by_cases hcurly : c = '{'
      · simp [hcurly]
      · simp [hround, hsquare, hcurly]

lemma closerOf?_of_isCloser {c : Char} (h : isCloser c = true) : closerOf? c = none := by
  simp only [isCloser, Bool.or_eq_true, beq_iff_eq] at h
  obtain (rfl | rfl) | rfl := h
  · rfl
  · rfl
  · rfl

section

variable {due due' : List Char} {c : Char}

lemma dueStep?_opener {closer : Char} (h : closerOf? c = some closer) (due : List Char) :
    dueStep? due c = some (closer :: due) := by
  simp [dueStep?, h]

lemma dueStep?_closer (h : isCloser c = true) (due : List Char) :
    dueStep? (c :: due) c = some due := by
  simp [dueStep?, closerOf?_of_isCloser h, h]

lemma dueStep?_other (hopen : isOpener c = false) (hclose : isCloser c = false) (due : List Char) :
    dueStep? due c = some due := by
  have hnone : closerOf? c = none := by
    rw [← Option.isNone_iff_eq_none, ← Option.not_isSome, isSome_closerOf?, hopen]
    rfl
  simp [dueStep?, hnone, hclose]

/-- What a character may do to the brackets that are due. -/
lemma dueStep?_cases (h : dueStep? due c = some due') :
    (isOpener c = true ∧ ∃ closer, closerOf? c = some closer ∧ due' = closer :: due) ∨
    (isOpener c = false ∧ isCloser c = true ∧ due = c :: due') ∨
    (isOpener c = false ∧ isCloser c = false ∧ due' = due) := by
  rw [← isSome_closerOf?]
  unfold dueStep? at h
  cases hc : closerOf? c with
  | some closer =>
    rw [hc] at h
    exact .inl ⟨rfl, closer, rfl, (Option.some.inj h).symm⟩
  | none =>
    simp only [hc] at h
    cases hclose : isCloser c with
    | false =>
      rw [hclose] at h
      exact .inr (.inr ⟨rfl, rfl, (Option.some.inj h).symm⟩)
    | true =>
      rw [hclose, if_pos rfl] at h
      cases due with
      | nil => cases h
      | cons next due =>
        obtain ⟨hnext, hdue⟩ := Option.ite_none_right_eq_some.mp h
        exact .inr (.inl ⟨rfl, rfl, by rw [hnext, Option.some.inj hdue]⟩)

lemma dueStep?_append (h : dueStep? due c = some due') (base : List Char) :
    dueStep? (due ++ base) c = some (due' ++ base) := by
  obtain ⟨-, closer, hc, rfl⟩ | ⟨-, hclose, rfl⟩ | ⟨hopen, hclose, rfl⟩ := dueStep?_cases h
  · exact dueStep?_opener hc _
  · exact dueStep?_closer hclose _
  · exact dueStep?_other hopen hclose _

lemma dueStep?_plain (hc : isPlain c = true) (due : List Char) : dueStep? due c = some due := by
  simp only [isPlain, Bool.and_eq_true, Bool.not_eq_true'] at hc
  exact dueStep?_other hc.1.1.2 hc.1.2 due

end

namespace Text

/-- The closing brackets that are due after a text that is read from a state. -/
def dueAfter? (s : CodeState) (due : List Char) : Text → Option (List Char)
  | [] => some due
  | c :: rest =>
    if (s.step c).2.isSome then
      (dueStep? due c).bind fun due => dueAfter? (s.step c).1 due rest
    else dueAfter? (s.step c).1 due rest

/-- Code whose literals are closed and whose brackets are well nested. -/
structure WellNested (t : Text) : Prop where
  closed : (CodeState.start.run t).quote = none
  nested : dueAfter? .start [] t = some []

instance (t : Text) : Decidable (WellNested t) :=
  decidable_of_iff (_ ∧ _) ⟨fun h => ⟨h.1, h.2⟩, fun h => ⟨h.1, h.2⟩⟩

/-! ## Reading brackets -/

section

variable {s s' : CodeState} {due due' base : List Char} {c : Char} {t t' : Text}

lemma dueAfter?_append (s : CodeState) (due : List Char) (t t' : Text) :
    dueAfter? s due (t ++ t') = (dueAfter? s due t).bind fun due => dueAfter? (s.run t) due t' := by
  induction t generalizing s due with
  | nil => rfl
  | cons c rest ih =>
    rw [List.cons_append, dueAfter?, dueAfter?, CodeState.run_cons]
    split
    · rw [Option.bind_assoc]
      exact congrArg _ (funext fun due => ih _ due)
    · exact ih _ _

lemma exists_dueAfter?_cons (h : dueAfter? s due (c :: t) = some due') :
    ∃ next, dueAfter? s due [c] = some next ∧ dueAfter? (s.step c).1 next t = some due' := by
  rw [← List.singleton_append, dueAfter?_append] at h
  exact Option.bind_eq_some_iff.mp h

lemma dueAfter?_congr (h : s.Agree s') (due : List Char) (t : Text) :
    dueAfter? s due t = dueAfter? s' due t := by
  induction t generalizing s s' due with
  | nil => rfl
  | cons c rest ih =>
    rw [dueAfter?, dueAfter?, (CodeState.step_congr h.quote h.escaped c).2.2]
    split
    · exact congrArg _ (funext fun due => ih (h.step c) due)
    · exact ih (h.step c) due

lemma dueAfter?_base (h : dueAfter? s due t = some due') (base : List Char) :
    dueAfter? s (due ++ base) t = some (due' ++ base) := by
  induction t generalizing s due with
  | nil =>
    obtain rfl := Option.some.inj h
    rfl
  | cons c rest ih =>
    rw [dueAfter?] at h ⊢
    split at h
    · obtain ⟨next, hstep, hrest⟩ := Option.bind_eq_some_iff.mp h
      rw [if_pos ‹_›, dueStep?_append hstep, Option.bind_some]
      exact ih hrest
    · rw [if_neg ‹_›]
      exact ih h

lemma dueAfter?_plain (hs : s.quote = none) (ht : t.all isPlain = true) (due : List Char) :
    dueAfter? s due t = some due := by
  induction t generalizing s with
  | nil => rfl
  | cons c rest ih =>
    rw [List.all_cons, Bool.and_eq_true] at ht
    rw [dueAfter?, CodeState.step_plain_code hs ht.1, dueStep?_plain ht.1]
    exact ih hs ht.2

/-- The number of brackets that are due is the depth. -/
lemma depth_step_of_due (hs : s.quote = none) (hd : (s.step c).2.isSome = true)
    (hdepth : s.depth = due.length) (h : dueStep? due c = some due') :
    (s.step c).1.depth = due'.length := by
  have hquote : isQuote c = false := by
    by_contra hq
    rw [Bool.not_eq_false] at hq
    simp [CodeState.step, hs, hq] at hd
  obtain ⟨hopen, closer, -, rfl⟩ | ⟨hopen, hclose, rfl⟩ | ⟨hopen, hclose, rfl⟩ := dueStep?_cases h
  · simp [CodeState.step, hs, hquote, hopen, hdepth]
  · simp [CodeState.step, hs, hquote, hopen, hclose, hdepth]
  · simp [CodeState.step, hs, hquote, hopen, hclose, hdepth]

/-- A quote, or a character of a literal, is no bracket. -/
lemma depth_step_literal (hd : ¬(s.step c).2.isSome = true) : (s.step c).1.depth = s.depth := by
  cases hs : s.quote with
  | none =>
    by_cases hq : isQuote c = true
    · simp [CodeState.step, hs, hq]
    · simp only [CodeState.step, hs, hq, Bool.false_eq_true, if_false] at hd
      split at hd
      · simp at hd
      · split at hd
        · simp at hd
        · simp at hd
  | some q =>
    simp only [CodeState.step, hs]
    split
    · rfl
    · split
      · rfl
      · split
        · rfl
        · rfl

lemma depth_run_of_due (hs : s.Sound) (hdepth : s.depth = due.length)
    (h : dueAfter? s due t = some due') : (s.run t).depth = due'.length := by
  induction t generalizing s due with
  | nil =>
    obtain rfl := Option.some.inj h
    exact hdepth
  | cons c rest ih =>
    rw [dueAfter?] at h
    split at h
    · next hd =>
      obtain ⟨next, hstep, hrest⟩ := Option.bind_eq_some_iff.mp h
      exact ih (hs.step c)
        (depth_step_of_due (CodeState.quote_of_isSome_step hd) hd hdepth hstep) hrest
    · next hd => exact ih (hs.step c) ((depth_step_literal hd).trans hdepth) h

end

/-! ## Well-nested code -/

namespace WellNested

variable {t t' : Text}

/-- Behind well-nested code the machine is where it started. -/
lemma run (h : WellNested t) : CodeState.start.run t = .start :=
  (CodeState.sound_start.run t).eq_start h.closed
    (depth_run_of_due CodeState.sound_start rfl h.nested)

/-- Well-nested code outside literals leaves the brackets that are due as they were. -/
lemma dueAfter? (h : WellNested t) {s : CodeState} (hs : s.Sound) (hq : s.quote = none)
    (due : List Char) : Text.dueAfter? s due t = some due := by
  rw [dueAfter?_congr (hs.agree_start hq)]
  exact dueAfter?_base h.nested due

lemma agree_run (h : WellNested t) {s : CodeState} (hs : s.Sound) (hq : s.quote = none) :
    (s.run t).Agree .start := by
  have hagree := (hs.agree_start hq).run t
  rwa [h.run] at hagree

lemma run_eq (h : WellNested t) {s : CodeState} (hs : s.Sound) (hq : s.quote = none) :
    s.run t = s := by
  have hagree := h.agree_run hs hq
  have hdepth : (s.run t).depth = s.depth := by
    have hdue := h.dueAfter? hs hq (List.replicate s.depth ')')
    rw [depth_run_of_due hs List.length_replicate.symm hdue, List.length_replicate]
  calc s.run t = ⟨(s.run t).quote, (s.run t).escaped, (s.run t).depth⟩ := rfl
    _ = ⟨s.quote, s.escaped, s.depth⟩ := by
      rw [hagree.quote, hagree.escaped, hdepth, hq, hs.escaped hq]
      rfl
    _ = s := rfl

lemma append (h : WellNested t) (h' : WellNested t') : WellNested (t ++ t') := by
  refine ⟨?_, ?_⟩
  · rw [CodeState.run_append, h.run, h'.closed]
  · rw [dueAfter?_append, h.nested, Option.bind_some, h.run, h'.nested]

lemma of_plain (h : t.all isPlain = true) : WellNested t :=
  ⟨CodeState.sound_start.quote_run_inert (all_isInert_of_all_isPlain h), dueAfter?_plain rfl h []⟩

lemma join {sep : Text} (hsep : WellNested sep) {pieces : List Text}
    (h : ∀ piece ∈ pieces, WellNested piece) : WellNested (Text.join sep pieces) := by
  induction pieces with
  | nil => exact of_plain rfl
  | cons piece rest ih =>
    rw [List.forall_mem_cons] at h
    cases rest with
    | nil => exact h.1
    | cons next rest => exact (h.1.append hsep).append (ih h.2)

/-- The blank margins of well-nested code have no part in it. -/
lemma trim (h : WellNested t) : WellNested (Text.trim t) := by
  obtain ⟨front, back, ht, hfront, hback⟩ := trim_append t
  have hquote := CodeState.quote_run_trim h.closed
  refine ⟨hquote, ?_⟩
  have hnested := h.nested
  rw [ht, dueAfter?_append, dueAfter?_append,
    dueAfter?_plain rfl (all_isPlain_of_isAllBlank hfront), CodeState.run_append,
    CodeState.run_blanks rfl hfront, Option.bind_some] at hnested
  obtain ⟨due, hdue, hrest⟩ := Option.bind_eq_some_iff.mp hnested
  rw [dueAfter?_plain hquote (all_isPlain_of_isAllBlank hback)] at hrest
  rw [hdue, Option.some.inj hrest]

end WellNested

/-- Pieces of well-nested code are well nested; the first one may end what was open before. -/
lemma wellNested_piecesFrom {sep : Char} (hsep : isPlain sep = true) {s : CodeState}
    {due : List Char} {t : Text} (hs : s.Sound) (hdepth : s.depth = due.length)
    (hclosed : (s.run t).quote = none) (hnested : dueAfter? s due t = some []) :
    ((s.run (piecesFrom sep s t).1).quote = none ∧
      dueAfter? s due (piecesFrom sep s t).1 = some []) ∧
      ∀ piece ∈ (piecesFrom sep s t).2, WellNested piece := by
  refine piecesFrom_induction hsep (motive := fun s t piece pieces => ∀ due : List Char,
      s.depth = due.length → (s.run t).quote = none → dueAfter? s due t = some [] →
        ((s.run piece).quote = none ∧ dueAfter? s due piece = some []) ∧
          ∀ later ∈ pieces, WellNested later)
    (fun s due _ hclosed hnested => ⟨⟨hclosed, hnested⟩, nofun⟩)
    (fun rest piece pieces ih due hdepth hclosed hnested => ?_)
    (fun s c rest piece pieces hs _ ih due hdepth hclosed hnested => ?_) hs t due hdepth hclosed
    hnested
  · -- A separator outside brackets leaves nothing due, so the next piece is read from the start.
    obtain rfl : due = [] := List.length_eq_zero_iff.mp hdepth.symm
    rw [CodeState.run_cons, CodeState.step_plain_start hsep] at hclosed
    rw [dueAfter?, CodeState.step_plain_start hsep, dueStep?_plain hsep] at hnested
    obtain ⟨hfirst, hlater⟩ := ih [] rfl hclosed hnested
    exact ⟨⟨rfl, rfl⟩, List.forall_mem_cons.mpr ⟨⟨hfirst.1, hfirst.2⟩, hlater⟩⟩
  · rw [dueAfter?] at hnested ⊢
    split at hnested
    · next hd =>
      obtain ⟨next, hstep, hrest⟩ := Option.bind_eq_some_iff.mp hnested
      rw [if_pos hd, hstep]
      exact ih next (depth_step_of_due (CodeState.quote_of_isSome_step hd) hd hdepth hstep) hclosed
        hrest
    · next hd =>
      rw [if_neg hd]
      exact ih due ((depth_step_literal hd).trans hdepth) hclosed hnested

lemma WellNested.rawPieces {sep : Char} (hsep : isPlain sep = true) {t : Text} (h : WellNested t) :
    ∀ piece ∈ Text.rawPieces sep t, WellNested piece := by
  obtain ⟨hfirst, hlater⟩ :=
    wellNested_piecesFrom hsep CodeState.sound_start rfl h.closed h.nested
  exact List.forall_mem_cons.mpr ⟨⟨hfirst.1, hfirst.2⟩, hlater⟩

end Text

namespace Repair

open Text

lemma wellNested_argumentsOf {inside : Text} (h : WellNested inside) :
    ∀ argument ∈ argumentsOf inside, WellNested argument := by
  intro argument hargument
  rw [argumentsOf_eq] at hargument
  obtain ⟨piece, hpiece, rfl⟩ := List.mem_map.mp (List.mem_of_mem_filter hargument)
  exact (h.rawPieces (by decide) piece hpiece).trim

end Repair

end Marginalia
