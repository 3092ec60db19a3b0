import Marginalia.Proofs.CompletionEnd
import Marginalia.Proofs.Completions
import Marginalia.Proofs.FilledLiterals

/-!
# Completed code

In well-nested code with no call of a known class inside a literal, the rounds of completion come to
an end and make of the code its completion. A round completes the first call that lacks arguments;
what the later rounds make of the rest, they would have made of it in the original as well.
-/

namespace Marginalia.Repair

open Text

section

variable {arities : Arities} {prev : Option Char} {s : CodeState} {t t' inside after : Text}

/-! ## What a completion keeps -/

lemma wellNested_withMissing {arguments : List Text} (h : ∀ a ∈ arguments, WellNested a)
    (missing : Nat) : WellNested (withMissing arguments missing) := by
  refine WellNested.join (by decide) fun argument hargument => ?_
  rcases List.mem_append.mp hargument with hold | hadded
  · exact h argument hold
  · rw [List.eq_of_mem_replicate hadded]
    exact isArgument_none.nested

lemma withMissing_cons (argument : Text) (arguments : List Text) (n : Nat) :
    withMissing (argument :: arguments) (n + 1) =
      argument ++ ',' :: ' ' :: withMissing arguments (n + 1) := by
  cases arguments with
  | nil => simp [withMissing, List.replicate_succ, join_cons_cons]
  | cons next rest => simp [withMissing, join_cons_cons]

lemma exists_of_forall₂ {R : Text → Text → Prop} {l l' : List Text} (h : List.Forall₂ R l l')
    {a' : Text} (ha : a' ∈ l') : ∃ a ∈ l, R a a' := by
  induction h with
  | nil => cases ha
  | cons hhead _ ih =>
    rcases List.mem_cons.mp ha with rfl | hrest
    · exact ⟨_, List.mem_cons_self, hhead⟩
    · obtain ⟨a, hmem, hrel⟩ := ih hrest
      exact ⟨a, List.mem_cons_of_mem _ hmem, hrel⟩

lemma eq_of_forall₂ {R : Text → Text → Prop} {l l' l'' : List Text}
    (h : List.Forall₂ (fun a a' => ∃ _ : R a a', ∀ {a''}, R a a'' → a' = a'') l l')
    (h' : List.Forall₂ R l l'') : l' = l'' := by
  induction h generalizing l'' with
  | nil =>
    cases h'
    rfl
  | cons hhead _ ih =>
    cases h' with
    | cons hhead' hrest' =>
      obtain ⟨_, heq⟩ := hhead
      rw [heq hhead', ih hrest']

lemma LacksArguments.completed_call (name inside after : Text) (required : Nat) :
    (LacksArguments.call name inside after required).completed = callText name
      (withMissing (argumentsOf inside) (required - (argumentsOf inside).length)) after := by
  simp [ShortCall.completed, LacksArguments.call, callText, withMissing]

namespace Completion

lemma head?_eq (h : Completion arities prev t t') : t'.head? = t.head? := by
  cases h with
  | nil => rfl
  | keep => rfl
  | call hlacks =>
    obtain ⟨c, w, rfl, -⟩ := hlacks.isName
    rfl

lemma getLast?_eq (h : Completion arities prev t t') : t'.getLast? = t.getLast? := by
  induction h using Completion.induction with
  | nil => rfl
  | keep _ _ ih => rw [List.getLast?_cons, List.getLast?_cons, ih]
  | call _ _ _ _ _ ih =>
    simp only [callText, List.getLast?_append, List.getLast?_cons, ih]
    rfl

/-- A completion reads the same brackets and leaves the machine where the original did. It has no
commas outside its brackets if the original had none. -/
lemma reads (h : Completion arities prev t t') (hs : s.Sound) {due last : List Char}
    (hdue : dueAfter? s due t = some last) (hquiet : Quiet arities prev s t) :
    s.run t' = s.run t ∧ dueAfter? s due t' = some last ∧
      ((piecesFrom ',' s t).2 = [] → (piecesFrom ',' s t').2 = []) := by
  induction h using Completion.induction generalizing s due last with
  | nil => exact ⟨rfl, hdue, id⟩
  | @keep prev c rest rest' _ _ ih =>
    have hbehind := hquiet.behind [c]
    obtain ⟨next, hnext, hrest⟩ := exists_dueAfter?_cons hdue
    obtain ⟨hrun, hlast, hpieces⟩ := ih (hs.step c) hrest hbehind
    refine ⟨hrun, ?_, ?_⟩
    · rw [← List.singleton_append, dueAfter?_append, hnext]
      exact hlast
    · cases hc : (s.step c).2 == some 0 && c == ',' with
      | true =>
        rw [piecesFrom_separator hc]
        exact fun h => absurd h (List.cons_ne_nil _ _)
      | false =>
        rw [piecesFrom_inside hc, piecesFrom_inside hc]
        exact hpieces
  | @call prev name inside after after' arguments' required hlacks _ _ _ iharguments ih =>
    have hq : s.quote = none := hlacks.quote hquiet
    have hname := hlacks.isName
    -- What comes to stand between the parentheses is well nested, since the arguments stay so.
    have hinside : WellNested (withMissing arguments' (required - (argumentsOf inside).length)) := by
      refine wellNested_withMissing (fun argument' hargument' => ?_) _
      obtain ⟨argument, hargument, hcompletion⟩ := exists_of_forall₂ iharguments hargument'
      obtain ⟨_, hreads⟩ := hcompletion
      have hnested := wellNested_argumentsOf hlacks.nested argument hargument
      obtain ⟨hrun, hlast, -⟩ := hreads CodeState.sound_start hnested.nested
        (hquiet.arguments hname hs hq argument hargument)
      exact ⟨by rw [hrun, hnested.closed], hlast⟩
    rw [hname.dueAfter?_callText hlacks.nested hs hq] at hdue
    obtain ⟨hrun, hlast, hpieces⟩ := ih hs hdue (hquiet.behind_call hname hlacks.nested hs hq)
    rw [hname.run_callText hlacks.nested hs hq, hname.run_callText hinside hs hq,
      hname.dueAfter?_callText hinside hs hq, hname.piecesFrom_callText hlacks.nested hs hq,
      hname.piecesFrom_callText hinside hs hq]
    exact ⟨hrun, hlast, hpieces⟩

/-- An argument is one still when the calls in it are completed. -/
lemma isArgument (h : Completion arities none t t') (ht : IsArgument t)
    (hquiet : Quiet arities none .start t) : IsArgument t' := by
  obtain ⟨hrun, hdue, hpieces⟩ := h.reads CodeState.sound_start ht.nested.nested hquiet
  exact {
    nested := ⟨by rw [hrun, ht.nested.closed], hdue⟩
    nonempty := fun hnil => ht.nonempty (List.head?_eq_none_iff.mp (by rw [← h.head?_eq, hnil]; rfl))
    starts := by rw [h.head?_eq]; exact ht.starts
    ends := by rw [h.getLast?_eq]; exact ht.ends
    single := hpieces ht.single }

lemma argumentsOf_withMissing {arguments arguments' : List Text}
    (h : List.Forall₂ (Completion arities none) arguments arguments')
    (hold : ∀ a ∈ arguments, IsArgument a ∧ Quiet arities none .start a) (missing : Nat) :
    argumentsOf (withMissing arguments' missing) =
      arguments' ++ List.replicate missing ("None" : Text) := by
  refine argumentsOf_join fun argument' hargument' => ?_
  rcases List.mem_append.mp hargument' with hmem | hadded
  · obtain ⟨argument, hargument, hcompletion⟩ := exists_of_forall₂ h hmem
    obtain ⟨hone, hquiet⟩ := hold argument hargument
    exact hcompletion.isArgument hone hquiet
  · rw [List.eq_of_mem_replicate hadded]
    exact isArgument_none

/-! ## Completions of completed calls -/

/-- A completion of joined arguments is made of completions of each of them. -/
lemma exists_arguments {arguments : List Text} {n : Nat}
    (hold : ∀ a ∈ arguments, IsArgument a ∧ Quiet arities none .start a)
    (hfresh : isFresh prev = true) (hdot : prev ≠ some '.')
    (h : Completion arities prev (withMissing arguments (n + 1) ++ ')' :: after) t') :
    ∃ arguments' after', t' = withMissing arguments' (n + 1) ++ ')' :: after' ∧
      List.Forall₂ (Completion arities none) arguments arguments' ∧
      Completion arities (some ')') after after' := by
  induction arguments generalizing prev t' with
  | nil =>
    have hplain : (withMissing [] (n + 1)).all isPlain = true := CallReading.all_isPlain_fill (n + 1)
    have hparen : '(' ∉ withMissing [] (n + 1) := fun hmem =>
      absurd (List.all_eq_true.mp hplain '(' hmem) (by decide)
    obtain ⟨added, after', rfl, hadded, hafter⟩ := h.split rfl (by decide) (by decide)
      CodeState.sound_start (WellNested.of_plain hplain).nested (quiet_of_not_mem hparen)
    exact ⟨[], after', by rw [hadded.eq_of_not_mem hparen], .nil, hafter⟩
  | cons argument rest ih =>
    rw [List.forall_mem_cons] at hold
    rw [withMissing_cons, List.append_assoc] at h
    obtain ⟨argument', behind, rfl, hargument, hbehind⟩ := h.split rfl (by decide) (by decide)
      CodeState.sound_start hold.1.1.nested.nested (hold.1.2.of_prev rfl)
    obtain ⟨behind, rfl, hrest⟩ := hbehind.exists_tail (noneLacks_of_not_nameStart (by decide))
    obtain ⟨rest', after', rfl, hrest', hafter⟩ := ih hold.2 (by decide) (by decide) hrest
    refine ⟨argument' :: rest', after', ?_, .cons (hargument.of_prev hfresh hdot) hrest', hafter⟩
    rw [withMissing_cons, List.append_assoc]
    rfl

/-- What a call is completed to is what it becomes if the calls in it are completed afterwards. -/
lemma of_completed {name : Text} {required : Nat}
    (hlacks : LacksArguments arities prev name inside required) (hs : s.Sound)
    (hquiet : Quiet arities prev s (callText name inside after))
    (hnone : NoneLacks arities prev (LacksArguments.call name inside after required).completed)
    (h : Completion arities prev (LacksArguments.call name inside after required).completed t') :
    Completion arities prev (callText name inside after) t' := by
  have hq : s.quote = none := hlacks.quote hquiet
  have hold : ∀ a ∈ argumentsOf inside, IsArgument a ∧ Quiet arities none .start a := fun a ha =>
    ⟨isArgument_of_mem hlacks.nested ha, hquiet.arguments hlacks.isName hs hq a ha⟩
  obtain ⟨n, hn⟩ := Nat.exists_eq_succ_of_ne_zero (Nat.sub_ne_zero_of_lt hlacks.few)
  obtain ⟨c, w, hname, hc, hw⟩ := hlacks.isName
  rw [LacksArguments.completed_call, hn, hname, callText, List.cons_append] at h hnone
  obtain ⟨behind, rfl, hbehind⟩ := h.exists_tail hnone
  obtain ⟨rest, rfl, hrest⟩ := hbehind.exists_behind_name (isWordChar_of_isNameStart hc) hw
  obtain ⟨arguments', after', rfl, harguments, hafter⟩ :=
    exists_arguments hold (by decide) (by decide) hrest
  have hcall := Completion.call hlacks harguments (argumentsOf_withMissing harguments hold _) hafter
  rw [hn, hname] at hcall
  rw [hname]
  exact hcall

lemma unique {t'' : Text} (h : Completion arities prev t t') (h' : Completion arities prev t t'') :
    t' = t'' := by
  induction h using Completion.induction generalizing t'' with
  | nil =>
    generalize hnil : ([] : Text) = text at h'
    cases h' with
    | nil => rfl
    | keep => cases hnil
    | call => simp [callText] at hnil
  | keep hnone _ ih =>
    obtain ⟨rest'', rfl, hrest⟩ := h'.exists_tail hnone
    rw [ih hrest]
  | @call prev name inside after after' arguments' required hlacks _ _ _ iharguments ih =>
    generalize htext : callText name inside after = text at h'
    cases h' with
    | nil => simp [callText] at htext
    | keep hnone => exact absurd hlacks (hnone _ _ _ _ htext.symm)
    | call hlacks' harguments' _ hafter' =>
      -- Both completions start with the call that is found here.
      have hfound := hlacks.shortCallAt? after
      rw [htext, hlacks'.shortCallAt?, Option.some_inj] at hfound
      obtain ⟨rfl, -, harguments, htail, hmissing⟩ := ShortCall.mk.inj hfound
      obtain ⟨-, rfl⟩ := List.cons.inj htail
      rw [harguments] at harguments'
      rw [hmissing, ih hafter', eq_of_forall₂ iharguments harguments']

end Completion

/-! ## Rounds -/

lemma shortCall?_cons_eq_none_iff {c : Char} {rest : Text} :
    shortCall? arities prev (c :: rest) = none ↔
      shortCallAt? arities prev (c :: rest) = none ∧ shortCall? arities (some c) rest = none := by
  rw [shortCall?]
  cases shortCallAt? arities prev (c :: rest) with
  | some call => simp
  | none => simp

lemma completion_self (h : shortCall? arities prev t = none) : Completion arities prev t t := by
  induction t generalizing prev with
  | nil => exact .nil prev
  | cons c rest ih =>
    obtain ⟨hat, hrest⟩ := shortCall?_cons_eq_none_iff.mp h
    exact .keep (noneLacks_of_shortCallAt? hat) (ih hrest)

lemma noneLacks_of_shortCall? {before rest : Text}
    (h : shortCall? arities prev (before ++ rest) = none) :
    NoneLacks arities (lastOf prev before) rest := by
  induction before generalizing prev with
  | nil =>
    cases rest with
    | nil =>
      intro name inside after required hnil
      simp [callText] at hnil
    | cons c rest => exact noneLacks_of_shortCallAt? (shortCall?_cons_eq_none_iff.mp h).1
  | cons c before ih =>
    rw [lastOf_cons]
    exact ih (shortCall?_cons_eq_none_iff.mp h).2

lemma LacksArguments.isBalanced {name : Text} {required : Nat}
    (h : LacksArguments arities prev name inside required) (after : Text) :
    (LacksArguments.call name inside after required).IsBalanced := by
  have hjoined : WellNested (join ", " (argumentsOf inside)) :=
    WellNested.join (by decide) (wellNested_argumentsOf h.nested)
  show (CodeState.start.run (join ", " (argumentsOf inside))).depth = 0
  rw [hjoined.run]
  rfl

lemma Quiet.lacksArguments {call : ShortCall} (h : Quiet arities prev s t) (hs : s.Sound)
    {due last : List Char} (hdue : dueAfter? s due t = some last)
    (hat : shortCallAt? arities prev t = some call) :
    ∃ inside after required, LacksArguments arities prev call.name inside required ∧
      t = callText call.name inside after ∧
      call = LacksArguments.call call.name inside after required := by
  obtain ⟨required, tail, rfl, hname⟩ := namesClass_of_shortCallAt? hat
  exact lacksArguments_of_shortCallAt? hs (h [] _ tail required rfl hname) hdue hat

/-- What the later rounds make of the code after a round, they make of the code before it. -/
lemma Completion.of_round {call : ShortCall} (hs : s.Sound) {due last : List Char}
    (hdue : dueAfter? s due t = some last) (hquiet : Quiet arities prev s t)
    (hc : shortCall? arities prev t = some call) (h : Completion arities prev call.completed t') :
    Completion arities prev t t' := by
  induction t generalizing prev s due call t' with
  | nil => cases hc
  | cons c rest ih =>
    obtain hat | ⟨c', rest', later, hcode, hnone, hlater, rfl⟩ := shortCall?_cases hc
    · obtain ⟨inside, after, required, hlacks, ht, hcall⟩ := hquiet.lacksArguments hs hdue hat
      have hbalanced : call.IsBalanced := hcall ▸ hlacks.isBalanced after
      have hnone := noneLacks_of_shortCallAt? (shortCallAt?_completed_of_balanced hat hbalanced)
      rw [hcall] at hnone h
      rw [ht] at hquiet ⊢
      exact .of_completed hlacks hs hquiet hnone h
    · -- The call is further on, so the first character stays in both.
      obtain ⟨rfl, rfl⟩ := List.cons.inj hcode
      have hstays := noneLacks_of_shortCallAt? (shortCallAt?_cons_completed hnone hlater)
      obtain ⟨rest', rfl, hrest⟩ := h.exists_tail hstays
      obtain ⟨next, -, hnext⟩ := exists_dueAfter?_cons hdue
      exact .keep (noneLacks_of_shortCallAt? hnone)
        (ih (hs.step c) hnext (hquiet.behind [c]) hlater hrest)

/-! ## Code that can be completed -/

/-- Whether a text has a name of a known class, no attribute, that a parenthesis follows. -/
def HoldsCall (arities : Arities) (text : Text) : Prop :=
  ∃ front name tail required, text = front ++ (name ++ '(' :: tail) ∧
    NamesClass arities front.getLast? name required

/-- Code whose literals are closed, whose brackets are well nested and none of whose literals has a
call of a known class in it. -/
structure Completable (arities : Arities) (code : Text) : Prop where
  nested : WellNested code
  quoted : ∀ literal ∈ literals code, ¬HoldsCall arities literal

lemma lookup_mem {name : Text} {required : Nat} (h : arities.lookup name = some required) :
    (name, required) ∈ arities := by
  obtain ⟨front, back, harities, -⟩ := List.lookup_eq_some_iff.mp h
  rw [harities]
  exact List.mem_append_right _ List.mem_cons_self

lemma not_holdsCall {text : Text} (h : ∀ known ∈ arities, ¬(known.1 ++ ['('] <:+: text)) :
    ¬HoldsCall arities text := by
  rintro ⟨front, name, tail, required, rfl, hname⟩
  exact h (name, required) (lookup_mem hname.known) ⟨front, tail, by simp⟩

namespace Completable

variable {code : Text} {call : ShortCall}

lemma quiet (h : Completable arities code) : Quiet arities none .start code := by
  intro before name tail required ht hname
  by_contra hquote
  have hplain : (name ++ ['(']).all isInert = true := by
    rw [List.all_append, Bool.and_eq_true]
    exact ⟨all_isInert_of_all_isPlain hname.isName.isPlain, by decide⟩
  obtain ⟨literal, hmem, front, back, hliteral, -, hlast⟩ :=
    @exists_literal before (name ++ ['(']) tail hquote hplain
  refine h.quoted literal ?_ ⟨front, name, back, required, by rw [hliteral]; simp, ?_⟩
  · rw [ht]
    simpa using hmem
  · rw [hlast]
    simpa [lastOf] using hname

lemma exists_call (h : Completable arities code) (hc : shortCall? arities none code = some call) :
    ∃ before inside after required,
      LacksArguments arities (lastOf none before) call.name inside required ∧
      (CodeState.start.run before).quote = none ∧
      code = before ++ callText call.name inside after ∧
      call.head = before ++ (call.name ++ ['(']) ∧ call.arguments = argumentsOf inside ∧
      call.completed =
        before ++ (LacksArguments.call call.name inside after required).completed := by
  obtain ⟨before, t, here, rfl, hat, rfl⟩ := shortCall?_place hc
  have hnested := h.nested.nested
  rw [dueAfter?_append] at hnested
  obtain ⟨due, -, hdue⟩ := Option.bind_eq_some_iff.mp hnested
  obtain ⟨inside, after, required, hlacks, rfl, hhere⟩ :=
    h.quiet.behind.lacksArguments (CodeState.sound_start.run before) hdue hat
  refine ⟨before, inside, after, required, hlacks,
    h.quiet before here.name _ required rfl hlacks.toNamesClass, rfl, ?_, ?_, ?_⟩
  · rw [hhere]
    rfl
  · rw [hhere]
    rfl
  · rw [hhere]
    simp [ShortCall.completed, LacksArguments.call]

lemma isBalanced (h : Completable arities code) (hc : shortCall? arities none code = some call) :
    call.IsBalanced := by
  obtain ⟨before, inside, after, required, hlacks, -, -, -, harguments, -⟩ := h.exists_call hc
  rw [ShortCall.IsBalanced, harguments]
  exact hlacks.isBalanced after

/-- A round leaves code that can be completed. -/
lemma completed (h : Completable arities code) (hc : shortCall? arities none code = some call) :
    Completable arities call.completed := by
  obtain ⟨before, inside, after, required, hlacks, hq, hcode, hhead, -, hcompleted⟩ :=
    h.exists_call hc
  have hname := hlacks.isName
  have hs := CodeState.sound_start.run before
  have hmissing : WellNested
      (withMissing (argumentsOf inside) (required - (argumentsOf inside).length)) :=
    wellNested_withMissing (wellNested_argumentsOf hlacks.nested) _
  have hsame : literals call.completed = literals code := by
    obtain ⟨inside', after', hround⟩ := exists_round hc
    refine hround.literals_iff.mpr (hround.keeps_of_unquoted ?_)
    rw [Before.quoted, Round.code_exchange, hhead, CodeState.run_append,
      (hname.agree_run hs hq).quote]
    rfl
  rw [LacksArguments.completed_call] at hcompleted
  have hclosed := h.nested.closed
  have hdue := h.nested.nested
  rw [hcode, CodeState.run_append, hname.run_callText hlacks.nested hs hq] at hclosed
  rw [hcode, dueAfter?_append] at hdue
  simp only [hname.dueAfter?_callText hlacks.nested hs hq] at hdue
  refine ⟨⟨?_, ?_⟩, hsame ▸ h.quoted⟩
  · rw [hcompleted, CodeState.run_append, hname.run_callText hmissing hs hq, hclosed]
  · rw [hcompleted, dueAfter?_append]
    simp only [hname.dueAfter?_callText hmissing hs hq]
    exact hdue

lemma settles (h : Completable arities code) : Settles arities code := by
  intro code' call hreach hc
  have hcode' : Completable arities code' := by
    clear hc
    induction hreach with
    | refl => exact h
    | tail _ hround ih =>
      obtain ⟨picked, hpicked, rfl⟩ := hround
      exact ih.completed hpicked
  exact hcode'.isBalanced hc

end Completable

/-- Code that can be completed is completed: it becomes its one completion, in which no call lacks
arguments. -/
theorem completion_of_completable {code : Text} (h : Completable arities code) :
    ∃ added code', completeCalls? arities code = some (added, code') ∧
      (∀ t, Completion arities none code t ↔ t = code') ∧
      ∀ before rest, code' = before ++ rest → NoneLacks arities before.getLast? rest := by
  obtain ⟨⟨added, code'⟩, hcode'⟩ :=
    Option.isSome_iff_exists.mp (completeCalls?_isSome_of_settles h.settles)
  have hcompletion : Completable arities code → Completion arities none code code' := by
    refine completeCallsWithin_induction (motive := fun code code' =>
      Completable arities code → Completion arities none code code') ?done ?round hcode'
    case done => exact fun _ hc _ => completion_self hc
    case round =>
      intro code call code' hc ih hcode
      exact (ih (hcode.completed hc)).of_round CodeState.sound_start hcode.nested.nested hcode.quiet hc
  have hnone : shortCall? arities none code' = none :=
    completeCallsWithin_induction (motive := fun _ code' => shortCall? arities none code' = none)
      (fun _ hc => hc) (fun _ _ _ _ ih => ih) hcode'
  refine ⟨added, code', hcode', fun t => ⟨fun ht => ?_, fun ht => ht ▸ hcompletion h⟩,
    fun before rest hsplit => ?_⟩
  · exact ht.unique (hcompletion h)
  · rw [hsplit] at hnone
    have hlacks := noneLacks_of_shortCall? hnone
    rwa [lastOf, Option.or_none] at hlacks

end

/-- A call in an argument of a call, and a parenthesis inside a literal. -/
theorem completion_of_nested_calls :
    Completable [("P", 3), ("Q", 2)] "p = P(Q(1), 'a(')" ∧
    completeCalls? [("P", 3), ("Q", 2)] "p = P(Q(1), 'a(')" =
      some ([(("P" : Text), 1), (("Q" : Text), 1)], ("p = P(Q(1, None), 'a(', None)" : Text)) ∧
    (∀ t, Completion [("P", 3), ("Q", 2)] none "p = P(Q(1), 'a(')" t ↔
      t = ("p = P(Q(1, None), 'a(', None)" : Text)) ∧
    ∀ before rest : Text, "p = P(Q(1, None), 'a(', None)" = before ++ rest →
      NoneLacks [("P", 3), ("Q", 2)] before.getLast? rest := by
  have hliterals : literals "p = P(Q(1), 'a(')" = [("'a('" : Text)] := by decide
  have h : Completable [("P", 3), ("Q", 2)] "p = P(Q(1), 'a(')" := by
    refine ⟨by decide, ?_⟩
    rw [hliterals, List.forall_mem_singleton]
    exact not_holdsCall (by decide)
  have hresult : completeCalls? [("P", 3), ("Q", 2)] "p = P(Q(1), 'a(')" =
      some ([(("P" : Text), 1), (("Q" : Text), 1)], ("p = P(Q(1, None), 'a(', None)" : Text)) := by decide
  obtain ⟨added, code', hcode', hcompletion, hnone⟩ := completion_of_completable h
  rw [hresult] at hcode'
  obtain ⟨-, rfl⟩ := Prod.mk.inj (Option.some.inj hcode')
  exact ⟨h, hresult, hcompletion, hnone⟩

end Marginalia.Repair
