import Marginalia.Proofs.CompletionRounds
import Marginalia.Proofs.FunctionHeads
import Marginalia.Proofs.NestedBrackets

/-!
# Calls in well-nested code

In well-nested code the parenthesis that ends a call is the one behind which its own is closed again.
So a call that lacks arguments can be described without looking for that parenthesis: what stands
between the two is well nested.
-/

namespace Marginalia.Repair

open Text

/-! ## The parenthesis that ends a call -/

lemma closerOf?_eq_paren_iff {c closer : Char} (h : closerOf? c = some closer) :
    closer = ')' ↔ c = '(' := by
  by_cases hround : c = '('
  · subst hround
    obtain rfl : ')' = closer := Option.some.inj h
    exact ⟨fun _ => rfl, fun _ => rfl⟩
  · refine ⟨fun hparen => ?_, fun hc => absurd hc hround⟩
    subst hparen
    simp only [closerOf?, beq_iff_eq, if_neg hround] at h
    split at h
    · exact absurd (Option.some.inj h) (by decide)
    · split at h
      · exact absurd (Option.some.inj h) (by decide)
      · cases h

namespace CallReading

variable {r : CallReading} {due due' : List Char} {c : Char}

/-- While brackets are closed in order, one more parenthesis is open than is due. -/
lemma parens_step_of_due (hparens : r.parens = due.count ')' + 1)
    (hd : (r.code.step c).2.isSome = true) (h : dueStep? due c = some due') :
    (r.step c).parens = due'.count ')' + 1 := by
  have hopen : r.parens ≠ 0 := by omega
  have hnone : (r.code.step c).2.isNone = false := by
    rw [← Option.not_isSome, hd]
    rfl
  obtain ⟨hopener, closer, hcloser, rfl⟩ | ⟨-, hcloser, rfl⟩ | ⟨hopener, hcloser, rfl⟩ :=
    dueStep?_cases h
  · have hne : c ≠ ')' := by
      rintro rfl
      exact absurd hopener (by decide)
    have hcloses : r.closesAt c = false := by simp [closesAt, hne]
    rw [parens_step hopen hcloses, parensAfter, hnone]
    by_cases hc : c = '('
    · obtain rfl := (closerOf?_eq_paren_iff hcloser).mpr hc
      simp [hc, hparens]
    · have hother : closer ≠ ')' := fun hparen => hc ((closerOf?_eq_paren_iff hcloser).mp hparen)
      simp [hc, hne, hparens, List.count_cons_of_ne hother]
  · by_cases hc : c = ')'
    · subst hc
      have hcloses : r.closesAt ')' = false := by simp [closesAt, hparens]
      rw [parens_step hopen hcloses, parensAfter, hnone, hparens]
      simp
    · have hopener : c ≠ '(' := by
        rintro rfl
        exact absurd hcloser (by decide)
      have hcloses : r.closesAt c = false := by simp [closesAt, hc]
      rw [parens_step hopen hcloses, parensAfter, hnone]
      simp [hc, hopener, hparens, List.count_cons_of_ne hc]
  · have hopen' : c ≠ '(' := by
      rintro rfl
      exact absurd hopener (by decide)
    have hclose' : c ≠ ')' := by
      rintro rfl
      exact absurd hcloser (by decide)
    have hcloses : r.closesAt c = false := by simp [closesAt, hclose']
    rw [parens_step hopen hcloses, parensAfter, hnone]
    simp [hopen', hclose', hparens]

lemma parens_step_literal (hopen : r.parens ≠ 0) (hd : ¬(r.code.step c).2.isSome = true) :
    (r.step c).parens = r.parens := by
  rw [Bool.not_eq_true] at hd
  have hcloses : r.closesAt c = false := by simp [closesAt, hd]
  rw [parens_step hopen hcloses, parensAfter, ← Option.not_isSome, hd]
  rfl

lemma parens_run_of_due {t : Text} (hparens : r.parens = due.count ')' + 1)
    (h : dueAfter? r.code due t = some due') : (r.run t).parens = due'.count ')' + 1 := by
  induction t generalizing r due with
  | nil =>
    obtain rfl := Option.some.inj h
    exact hparens
  | cons c rest ih =>
    have hcode : (r.step c).code = (r.code.step c).1 := code_step (by omega) c
    rw [dueAfter?, ← hcode] at h
    rw [run_cons]
    split at h
    · next hd =>
      obtain ⟨next, hstep, hrest⟩ := Option.bind_eq_some_iff.mp h
      exact ih (parens_step_of_due hparens hd hstep) hrest
    · next hd => exact ih ((parens_step_literal (by omega) hd).trans hparens) h

/-- A call ends behind well-nested code. -/
lemma closes_of_wellNested {inside : Text} (h : WellNested inside) :
    (start.run inside).parens ≠ 0 ∧ (start.run (inside ++ [')'])).parens = 0 := by
  have hparens : (start.run inside).parens = ([] : List Char).count ')' + 1 :=
    parens_run_of_due (by rfl) h.nested
  have hopen : (start.run inside).parens ≠ 0 := by
    rw [hparens]
    exact Nat.succ_ne_zero _
  refine ⟨hopen, ?_⟩
  have hcode : (start.run inside).code = .start := (code_run hopen).trans h.run
  rw [run_append, run_cons, run_nil, parens_step_eq_zero_iff hopen, closesAt, hcode, hparens]
  decide

/-- What is due below the parenthesis of a call stays due while the call is open. -/
lemma due_of_open {t : Text} {base last : List Char} (hparens : r.parens = due.count ')' + 1)
    (h : dueAfter? r.code (due ++ ')' :: base) t = some last) (hopen : (r.run t).parens ≠ 0) :
    ∃ due', last = due' ++ ')' :: base ∧ dueAfter? r.code due t = some due' := by
  induction t generalizing r due with
  | nil => exact ⟨due, (Option.some.inj h).symm, rfl⟩
  | cons c rest ih =>
    have hcode : (r.step c).code = (r.code.step c).1 := code_step (by omega) c
    have hstepOpen : (r.step c).parens ≠ 0 := open_of_run hopen
    rw [dueAfter?, ← hcode] at h ⊢
    split at h
    · next hd =>
      obtain ⟨next, hstep, hrest⟩ := Option.bind_eq_some_iff.mp h
      obtain ⟨due₁, hdue₁, rfl⟩ : ∃ due₁, dueStep? due c = some due₁ ∧ next = due₁ ++ ')' :: base := by
        obtain ⟨-, closer, hcloser, rfl⟩ | ⟨-, hcloser, hdue⟩ | ⟨hopener, hcloser, rfl⟩ :=
          dueStep?_cases hstep
        · exact ⟨closer :: due, dueStep?_opener hcloser due, rfl⟩
        · cases due with
          | nil =>
            obtain ⟨rfl, -⟩ := List.cons.inj hdue
            have hcloses : r.closesAt ')' = true := by simp [closesAt, hd, hparens]
            exact absurd ((parens_step_eq_zero_iff (by omega) ')').mpr hcloses) hstepOpen
          | cons d due =>
            obtain ⟨rfl, rfl⟩ := List.cons.inj hdue
            exact ⟨due, dueStep?_closer hcloser due, rfl⟩
        · exact ⟨due, dueStep?_other hopener hcloser due, rfl⟩
      rw [if_pos hd, hdue₁]
      exact ih (parens_step_of_due hparens hd hdue₁) hrest hopen
    · next hd =>
      rw [if_neg hd]
      exact ih ((parens_step_literal (by omega) hd).trans hparens) h hopen

/-- Where the brackets of code are closed in order, a call ends behind well-nested code. -/
lemma wellNested_of_closes {inside after : Text} {base last : List Char}
    (hopen : (start.run inside).parens ≠ 0) (hclosed : (start.run (inside ++ [')'])).parens = 0)
    (h : dueAfter? .start (')' :: base) (inside ++ ')' :: after) = some last) :
    WellNested inside := by
  obtain ⟨hquote, hone⟩ := closing_code hopen hclosed
  have hcode : (start.run inside).code = CodeState.start.run inside := code_run hopen
  rw [hcode] at hquote
  rw [dueAfter?_append] at h
  obtain ⟨between, hbetween, hclose⟩ := Option.bind_eq_some_iff.mp h
  have hbase : dueAfter? start.code ([] ++ ')' :: base) inside = some between := hbetween
  obtain ⟨due', rfl, hinside⟩ := due_of_open (by rfl) hbase hopen
  have hcount : due'.count ')' = 0 := by
    have hparens : (start.run inside).parens = due'.count ')' + 1 :=
      parens_run_of_due (by rfl) hinside
    omega
  have hd : ((CodeState.start.run inside).step ')').2.isSome = true := by
    simp [CodeState.step, hquote, isQuote, isOpener, isCloser]
  rw [dueAfter?, if_pos hd] at hclose
  obtain ⟨next, hstep, -⟩ := Option.bind_eq_some_iff.mp hclose
  refine ⟨hquote, ?_⟩
  cases due' with
  | nil => exact hinside
  | cons d due' =>
    obtain ⟨hopener, -⟩ | ⟨-, -, hdue⟩ | ⟨-, hcloser, -⟩ := dueStep?_cases hstep
    · exact absurd hopener (by decide)
    · obtain ⟨rfl, -⟩ := List.cons.inj hdue
      simp at hcount
    · exact absurd hcloser (by decide)

end CallReading

/-! ## Calls that lack arguments -/

/-- A name: a word that starts with a letter or an underscore. -/
def IsName (name : Text) : Prop :=
  ∃ c w, name = c :: w ∧ isNameStart c = true ∧ w.all isWordChar = true

/-- At a place behind a character, a name of a known class that is no attribute and of which so many
arguments are required. -/
structure NamesClass (arities : Arities) (prev : Option Char) (name : Text) (required : Nat) :
    Prop where
  isName : IsName name
  fresh : isFresh prev = true
  noAttribute : prev ≠ some '.'
  known : arities.lookup name = some required

/-- A call of a known class that lacks arguments, none of which is starred or given by name. -/
structure LacksArguments (arities : Arities) (prev : Option Char) (name inside : Text)
    (required : Nat) : Prop extends NamesClass arities prev name required where
  nested : WellNested inside
  ordinary : ∀ argument ∈ argumentsOf inside, isSpecialArgument argument = false
  few : (argumentsOf inside).length < required

/-- The text of a call, with what follows it. -/
def callText (name inside after : Text) : Text := name ++ '(' :: (inside ++ ')' :: after)

section

variable {arities : Arities} {prev : Option Char} {name inside after : Text} {required : Nat}

lemma name?_eq_some_iff {t name rest : Text} : name? t = some (name, rest) ↔
    IsName name ∧ continuesWord rest = false ∧ t = name ++ rest := by
  constructor
  · intro h
    cases t with
    | nil => cases h
    | cons c t =>
      rw [name?] at h
      split at h
      · next hc =>
        obtain ⟨rfl, rfl⟩ := Prod.mk.inj (Option.some.inj h)
        obtain ⟨-, -, hends, -⟩ := word?_eq_some_iff.mp
          (show word? (c :: t) = some (c :: t.takeWhile isWordChar, t.dropWhile isWordChar) by
            rw [word?, if_pos (isWordChar_of_isNameStart hc)])
        refine ⟨⟨c, _, rfl, hc, List.all_takeWhile⟩, hends, ?_⟩
        rw [List.cons_append, List.takeWhile_append_dropWhile]
      · cases h
  · rintro ⟨⟨c, word, rfl, hc, hword⟩, hends, rfl⟩
    have hname := word?_eq_some_iff.mpr ⟨List.cons_ne_nil c word,
      by rw [List.all_cons, isWordChar_of_isNameStart hc, hword]; rfl, hends, rfl⟩
    rw [List.cons_append, word?, if_pos (isWordChar_of_isNameStart hc)] at hname
    rw [List.cons_append, name?, if_pos hc, hname]

lemma IsName.name?_append (h : IsName name) (rest : Text) :
    name? (name ++ '(' :: rest) = some (name, '(' :: rest) := by
  obtain ⟨c, w, rfl, hc, hw⟩ := h
  exact name?_cons_append hc hw rest

lemma IsName.isPlain (h : IsName name) : name.all Marginalia.isPlain = true := by
  obtain ⟨c, w, rfl, hc, hw⟩ := h
  rw [List.all_cons, isPlain_of_isWordChar (isWordChar_of_isNameStart hc), Bool.true_and]
  exact (isBare_of_word hw).isPlain

/-- Behind a name and its parenthesis code goes on as from the start. -/
lemma IsName.agree_run (h : IsName name) {s : CodeState} (hs : s.Sound) (hq : s.quote = none) :
    (s.run (name ++ ['('])).Agree .start := by
  have hname := (WellNested.of_plain h.isPlain).agree_run hs hq
  rw [CodeState.run_append]
  exact (hname.run ['(']).trans ⟨rfl, rfl⟩

lemma dueAfter?_name (h : IsName name) {s : CodeState} (hs : s.Sound) (hq : s.quote = none)
    (due : List Char) (t : Text) :
    dueAfter? s due (name ++ '(' :: t) = dueAfter? .start (')' :: due) t := by
  have hparen : dueAfter? s due (name ++ ['(']) = some (')' :: due) := by
    rw [dueAfter?_append, dueAfter?_plain hq h.isPlain, Option.bind_some,
      dueAfter?_congr ((WellNested.of_plain h.isPlain).agree_run hs hq)]
    rfl
  rw [← List.singleton_append, ← List.append_assoc, dueAfter?_append, hparen, Option.bind_some,
    dueAfter?_congr (h.agree_run hs hq)]

/-- Behind a call with well-nested arguments the machine is where it was. -/
lemma IsName.run_callText (h : IsName name) (hinside : WellNested inside) {s : CodeState}
    (hs : s.Sound) (hq : s.quote = none) (after : Text) :
    s.run (callText name inside after) = s.run after := by
  have hopen : (s.step '(').1 = { s with depth := s.depth + 1 } := by
    simp [CodeState.step, hq, isQuote, isOpener]
  have hclose : (({ s with depth := s.depth + 1 } : CodeState).step ')').1 = s := by
    obtain ⟨quote, escaped, depth⟩ := s
    obtain rfl : quote = none := hq
    simp [CodeState.step, isQuote, isOpener, isCloser]
  have hsound : ({ s with depth := s.depth + 1 } : CodeState).Sound := by
    rw [← hopen]
    exact hs.step '('
  rw [callText, CodeState.run_append, (WellNested.of_plain h.isPlain).run_eq hs hq,
    CodeState.run_cons, hopen, CodeState.run_append, hinside.run_eq hsound hq, CodeState.run_cons,
    hclose]

lemma IsName.dueAfter?_callText (h : IsName name) (hinside : WellNested inside) {s : CodeState}
    (hs : s.Sound) (hq : s.quote = none) (due : List Char) (after : Text) :
    dueAfter? s due (callText name inside after) = dueAfter? s due after := by
  have hclose : dueAfter? .start (')' :: due) (')' :: after) =
      dueAfter? (CodeState.start.step ')').1 due after := rfl
  rw [callText, dueAfter?_name h hs hq, dueAfter?_append,
    hinside.dueAfter? CodeState.sound_start rfl, Option.bind_some, hinside.run, hclose,
    dueAfter?_congr (hs.agree_start hq)]
  rfl

/-- The call that is found where one lacks arguments. -/
def LacksArguments.call (name inside after : Text) (required : Nat) : ShortCall :=
  ⟨name, name ++ "(", argumentsOf inside, ')' :: after, required - (argumentsOf inside).length⟩

lemma LacksArguments.shortCallAt? (h : LacksArguments arities prev name inside required)
    (after : Text) : shortCallAt? arities prev (callText name inside after) =
      some (LacksArguments.call name inside after required) := by
  obtain ⟨hopen, hclosed⟩ := CallReading.closes_of_wellNested h.nested
  refine (shortCallAt?_eq_some_iff arities prev _ _).mpr ⟨⟨h.fresh, h.noAttribute⟩,
    inside ++ ')' :: after, required, inside, after, h.isName.name?_append _, h.known,
    (CallReading.bracketed?_eq_some_iff _ _ _).mpr ⟨rfl, hopen, hclosed⟩, ?_, h.few, rfl⟩
  rw [List.any_eq_false]
  exact fun argument hargument => by rw [h.ordinary argument hargument]; exact Bool.false_ne_true

lemma namesClass_of_shortCallAt? {t : Text} {call : ShortCall}
    (h : shortCallAt? arities prev t = some call) : ∃ required tail,
      t = call.name ++ '(' :: tail ∧ NamesClass arities prev call.name required := by
  obtain ⟨⟨hfresh, hdot⟩, tail, required, -, -, hname, hknown, -⟩ :=
    (shortCallAt?_eq_some_iff arities prev t call).mp h
  obtain ⟨ht, hisName⟩ := name?_word _ _ hname
  exact ⟨required, tail, ht, hisName, hfresh, hdot, hknown⟩

/-- In code whose brackets are closed in order, a call that is found outside literals lacks
arguments. -/
lemma lacksArguments_of_shortCallAt? {s : CodeState} (hs : s.Sound) (hq : s.quote = none) {t : Text}
    {due last : List Char} (hdue : dueAfter? s due t = some last) {call : ShortCall}
    (h : shortCallAt? arities prev t = some call) :
    ∃ inside after required, LacksArguments arities prev call.name inside required ∧
      t = callText call.name inside after ∧
      call = LacksArguments.call call.name inside after required := by
  obtain ⟨⟨hfresh, hdot⟩, rest, required, inside, after, hname, hknown, hbracket, hordinary, hfew,
    hcall⟩ := (shortCallAt?_eq_some_iff arities prev t call).mp h
  obtain ⟨ht, c, w, hcw, hc, hw⟩ := name?_word _ _ hname
  obtain ⟨hrest, hopen, hclosed⟩ := (CallReading.bracketed?_eq_some_iff rest inside after).mp hbracket
  refine ⟨inside, after, required, ⟨⟨⟨c, w, hcw, hc, hw⟩, hfresh, hdot, hknown⟩, ?_, ?_, hfew⟩, ?_,
    hcall⟩
  · rw [ht, dueAfter?_name ⟨c, w, hcw, hc, hw⟩ hs hq, hrest] at hdue
    exact CallReading.wellNested_of_closes hopen hclosed hdue
  · intro argument hargument
    exact Bool.not_eq_true _ ▸ List.any_eq_false.mp hordinary argument hargument
  · rw [ht, hrest]
    rfl

end

end Marginalia.Repair
