import Marginalia.Proofs.MatchedPieces
import Marginalia.Proofs.Names

/-!
# Matches in longer texts

A text may be followed by blanks and an opening brace. A pattern that has to take a character of
another kind, and then takes nothing of what follows, matches the longer text as it matches the text
alone. So it can be told from the pattern alone that what follows does not matter.
-/

namespace Marginalia

/-- The characters between a header and its body. -/
def isOpening (c : Char) : Bool := c == '{' || isBlank c

/-- Whether a class has none of these characters. -/
def avoidsOpening (p : Char → Bool) : Bool := !p '{' && blankPoints.all fun n => !p (Char.ofNat n)

lemma avoidsOpening_apply {p : Char → Bool} (hp : avoidsOpening p = true) {c : Char}
    (hc : isOpening c = true) : p c = false := by
  rw [avoidsOpening, Bool.and_eq_true, Bool.not_eq_true', List.all_eq_true] at hp
  rw [isOpening, Bool.or_eq_true, beq_iff_eq] at hc
  rcases hc with rfl | hblank
  · exact hp.1
  · have hpoint := hp.2 c.toNat (mem_blankPoints hblank)
    rwa [Char.ofNat_toNat, Bool.not_eq_true'] at hpoint

lemma avoidsOpening_of_forall {p : Char → Bool} (hp : ∀ c, isOpening c = true → p c = false) :
    avoidsOpening p = true := by
  have hblanks : (blankPoints.all fun n => isOpening (Char.ofNat n)) = true := by decide
  rw [avoidsOpening, hp '{' rfl, List.all_eq_true.mpr fun n hn => ?_]
  · rfl
  · rw [hp _ (List.all_eq_true.mp hblanks n hn)]
    rfl

lemma isWordChar_of_isOpening {c : Char} (h : isOpening c = true) : isWordChar c = false := by
  rw [isOpening, Bool.or_eq_true, beq_iff_eq] at h
  rcases h with rfl | hblank
  · decide +kernel
  · exact isWordChar_of_isBlank hblank

namespace Pattern

/-- Whether a pattern asks for the end of a text somewhere. -/
def hasFinish : Pattern → Bool
  | seq first second | alt first second => first.hasFinish || second.hasFinish
  | star p | group _ p => p.hasFinish
  | finish => true
  | _ => false

mutual

/-- Whether a pattern has to take a character that stands in no opening, and then takes nothing of
an opening. -/
def seals : Pattern → Bool
  | char p => avoidsOpening p
  | seq first second => !first.hasFinish && second.seals || first.seals && second.keeps
  | alt first second => first.seals && second.seals
  | group _ p => p.seals
  | _ => false

/-- Whether a pattern ends where it has taken nothing of an opening. -/
def keeps : Pattern → Bool
  | empty | edge => true
  | char p | run p | shortRun p => avoidsOpening p
  | seq first second => !first.hasFinish && second.seals || first.keeps && second.keeps
  | alt first second => first.keeps && second.keeps
  | star p | group _ p => p.keeps
  | finish => false

end

section

variable {p q : Pattern}

lemma keeps_of_seals (hp : p.hasFinish = false) (hq : q.seals = true) : (seq p q).keeps = true := by
  rw [keeps, hp, hq]
  rfl

lemma keeps_seq (hp : p.keeps = true) (hq : q.keeps = true) : (seq p q).keeps = true := by
  rw [keeps, hp, hq, Bool.and_self, Bool.or_true]

lemma keeps_opt (hp : p.keeps = true) : (opt p).keeps = true := by
  rw [opt, keeps, hp]
  rfl

lemma seals_run1 {p : Char → Bool} (hp : avoidsOpening p = true) : (run1 p).seals = true := by
  rw [run1, seals, seals, keeps, hp]
  rfl

lemma seals_word : word.seals = true :=
  seals_run1 (avoidsOpening_of_forall fun _ => isWordChar_of_isOpening)

end

/-- Whether a pattern matches every text. -/
def isTotal : Pattern → Bool
  | empty | run _ | shortRun _ | star _ => true
  | seq first second => first.isTotal && second.isTotal
  | alt first second => first.isTotal || second.isTotal
  | group _ p => p.isTotal
  | _ => false

variable {α β : Type} {p : Pattern} {m : Matching} {e : Text}

/-! ## Ways to go on -/

/-- A way to go on fails at every rest of a kind. -/
def FailsOn (dead : Text → Prop) (k : Matching → Option α) : Prop := ∀ m, dead m.rest → k m = none

/-- A way to go on in a text with an ending does what another one does in the text alone. -/
def Agree (e : Text) (f : β → α) (k' : Matching → Option α) (k : Matching → Option β) : Prop :=
  ∀ prev t groups, k' ⟨prev, t ++ e, groups⟩ = (k ⟨prev, t, groups⟩).map f

section

variable {dead : Text → Prop} {k : Matching → Option α}

lemma failsOn_repeated {body : Matching → (Matching → Option α) → Option α}
    (hbody : ∀ {k : Matching → Option α}, FailsOn dead k → FailsOn dead fun m => body m k)
    (hk : FailsOn dead k) (fuel : Nat) : FailsOn dead (repeated body k fuel) := by
  induction fuel with
  | zero => exact hk
  | succ fuel ih =>
    intro m hm
    have hmore : FailsOn dead fun m' =>
        if m'.rest.length < m.rest.length then repeated body k fuel m' else none := by
      intro m' hm'
      dsimp only
      split
      · exact ih m' hm'
      · rfl
    have hnone : body m _ = none := hbody hmore m hm
    rw [repeated, hnone]
    exact hk m hm

/-- A pattern does not get out of rests whose ends are all of the same kind. -/
lemma failsOn_matchThen (hdead : ∀ c rest, dead (c :: rest) → dead rest) (p : Pattern)
    (hk : FailsOn dead k) : FailsOn dead fun m => matchThen p m k := by
  induction p generalizing k with
  | empty => exact hk
  | char p =>
    rintro ⟨prev, _ | ⟨c, rest⟩, groups⟩ hm
    · rfl
    · dsimp only [matchThen]
      split
      · exact hk _ (hdead c rest hm)
      · rfl
  | run p =>
    rintro ⟨prev, rest, groups⟩ hm
    dsimp only [matchThen] at hm ⊢
    induction rest generalizing prev with
    | nil => exact hk _ hm
    | cons c rest ih =>
      rw [longest]
      split
      · rw [ih (some c) (hdead c rest hm)]
        exact hk _ hm
      · exact hk _ hm
  | shortRun p =>
    rintro ⟨prev, rest, groups⟩ hm
    dsimp only [matchThen] at hm ⊢
    induction rest generalizing prev with
    | nil => exact hk _ hm
    | cons c rest ih =>
      rw [shortest, hk _ hm]
      dsimp only
      split
      · exact ih (some c) (hdead c rest hm)
      · rfl
  | seq first second ihFirst ihSecond => exact ihFirst (ihSecond hk)
  | alt first second ihFirst ihSecond =>
    intro m hm
    have hfirst : matchThen first m k = none := ihFirst hk m hm
    dsimp only [matchThen]
    rw [hfirst]
    exact ihSecond hk m hm
  | star p ih =>
    intro m hm
    exact failsOn_repeated (fun hk => ih hk) hk m.rest.length m hm
  | group number p ih =>
    intro m hm
    have hgroup : FailsOn dead fun m' : Matching =>
        k { m' with groups := (number, m.rest.take (m.rest.length - m'.rest.length)) :: m'.groups } :=
      fun m' hm' => hk _ hm'
    exact ih hgroup m hm
  | edge =>
    intro m hm
    dsimp only [matchThen]
    split
    · exact hk m hm
    · rfl
  | finish =>
    intro m hm
    dsimp only [matchThen]
    split
    · exact hk m hm
    · rfl

lemma matchThen_none (p : Pattern) (m : Matching) :
    matchThen p m (fun _ => (none : Option α)) = none := by
  have hnone : FailsOn (fun _ => True) fun _ : Matching => (none : Option α) := fun _ _ => rfl
  exact failsOn_matchThen (fun _ _ h => h) p hnone m trivial

/-- What fails at all ends of an ending fails there behind every pattern. -/
lemma failsIn_matchThen (p : Pattern) (hk : FailsOn (· <:+ e) k) :
    FailsOn (· <:+ e) fun m => matchThen p m k :=
  failsOn_matchThen (fun c rest h => (List.suffix_cons c rest).trans h) p hk

end

/-! ## Matches with an ending -/

section

variable {f : β → α} {k' : Matching → Option α} {k : Matching → Option β}

lemma no_shorter_than_nil (more : Matching → Option α) :
    (fun m' => if m'.rest.length < ([] : Text).length then more m' else none) = fun _ => none :=
  funext fun _ => if_neg (Nat.not_lt_zero _)

/-- Repetitions agree if what is repeated does. The numbers of repetitions do not matter, because each
of them takes a character. -/
lemma agree_repeated (allowed : (Matching → Option α) → Prop)
    (hbody : ∀ {k' : Matching → Option α} {k : Matching → Option β}, allowed k' → Agree e f k' k →
      Agree e f (fun m => matchThen p m k') (fun m => matchThen p m k))
    (hallowed : ∀ length fuel, allowed fun m' =>
      if m'.rest.length < length then repeated (matchThen p) k' fuel m' else none)
    (hk : Agree e f k' k) {fuel fuel' : Nat} {prev : Option Char} {t : Text}
    {groups : List (Nat × Text)} (hfuel : t.length ≤ fuel) (hfuel' : (t ++ e).length ≤ fuel') :
    repeated (matchThen p) k' fuel' ⟨prev, t ++ e, groups⟩ =
      (repeated (matchThen p) k fuel ⟨prev, t, groups⟩).map f := by
  induction fuel' generalizing fuel prev t groups with
  | zero =>
    rw [List.length_append] at hfuel'
    obtain rfl : t = [] := List.eq_nil_of_length_eq_zero (by omega)
    cases fuel with
    | zero => exact hk prev [] groups
    | succ fuel =>
      rw [repeated, repeated, no_shorter_than_nil, matchThen_none]
      exact hk prev [] groups
  | succ fuel' ih =>
    have hmore (t : Text) (fuel : Nat) (hfuel : t.length ≤ fuel + 1)
        (hfuel' : (t ++ e).length ≤ fuel' + 1) : Agree e f
          (fun m' => if m'.rest.length < (t ++ e).length then
            repeated (matchThen p) k' fuel' m' else none)
          (fun m' => if m'.rest.length < t.length then
            repeated (matchThen p) k fuel m' else none) := by
      intro prev rest groups
      simp only [List.length_append, Nat.add_lt_add_iff_right] at hfuel' ⊢
      split
      · refine ih (by omega) ?_
        rw [List.length_append]
        omega
      · rfl
    cases fuel with
    | zero =>
      obtain rfl : t = [] := List.eq_nil_of_length_eq_zero (by omega)
      have hbegin := hbody (hallowed ([] ++ e).length fuel') (hmore [] 0 (by simp) hfuel') prev [] groups
      dsimp only at hbegin
      rw [no_shorter_than_nil, matchThen_none] at hbegin
      rw [repeated, repeated]
      dsimp only
      rw [hbegin]
      exact hk prev [] groups
    | succ fuel =>
      have hbegin := hbody (hallowed (t ++ e).length fuel') (hmore t fuel hfuel hfuel') prev t groups
      dsimp only at hbegin
      rw [repeated, repeated, hbegin]
      cases matchThen p ⟨prev, t, groups⟩ fun m' =>
          if m'.rest.length < t.length then repeated (matchThen p) k fuel m' else none with
      | none => exact hk prev t groups
      | some a => rfl

/-- A group keeps the same piece of the longer text. -/
lemma agree_group (number : Nat) (hk : Agree e f k' k) (start : Text) : Agree e f
    (fun m' => k' { m' with
      groups := (number, (start ++ e).take ((start ++ e).length - m'.rest.length)) :: m'.groups })
    (fun m' => k { m' with
      groups := (number, start.take (start.length - m'.rest.length)) :: m'.groups }) := by
  intro prev rest groups
  have hpiece : (start ++ e).take ((start ++ e).length - (rest ++ e).length) =
      start.take (start.length - rest.length) := by
    rw [List.length_append, List.length_append, Nat.add_sub_add_right,
      List.take_append_of_le_length (Nat.sub_le _ _)]
  dsimp only
  rw [hpiece]
  exact hk prev rest _

/-- A group that starts in the ending is empty where nothing of the ending is taken. -/
lemma agree_group_of_suffix (number : Nat) (hk : Agree e f k' k) {start : Text}
    (hstart : start <:+ e) : Agree e f
      (fun m' => k' { m' with
        groups := (number, start.take (start.length - m'.rest.length)) :: m'.groups })
      (fun m' => k { m' with groups := (number, []) :: m'.groups }) := by
  intro prev rest groups
  have hpiece : start.take (start.length - (rest ++ e).length) = [] := by
    have hle := hstart.length_le
    rw [List.length_append, Nat.sub_eq_zero_of_le (by omega), List.take_zero]
  dsimp only
  rw [hpiece]
  exact hk prev rest _

lemma agree_alt {first second : Pattern}
    (hfirst : Agree e f (fun m => matchThen first m k') (fun m => matchThen first m k))
    (hsecond : Agree e f (fun m => matchThen second m k') (fun m => matchThen second m k)) :
    Agree e f (fun m => matchThen (alt first second) m k') (fun m => matchThen (alt first second) m k) := by
  intro prev t groups
  have hbegin : matchThen first ⟨prev, t ++ e, groups⟩ k' =
      (matchThen first ⟨prev, t, groups⟩ k).map f := hfirst prev t groups
  dsimp only [matchThen]
  rw [hbegin]
  cases matchThen first ⟨prev, t, groups⟩ k with
  | none => exact hsecond prev t groups
  | some a => rfl

/-- Once the end of the text is reached it only matters what a run takes of the ending. -/
lemma agree_run_of_end {p : Char → Bool}
    (hend : ∀ prev groups, longest p prev groups k' e = (k ⟨prev, [], groups⟩).map f)
    (hk : Agree e f k' k) :
    Agree e f (fun m => matchThen (run p) m k') (fun m => matchThen (run p) m k) := by
  intro prev t groups
  induction t generalizing prev with
  | nil => exact hend prev groups
  | cons c rest ih =>
    have hrest := ih (some c)
    dsimp only [matchThen, List.cons_append] at hrest ⊢
    rw [longest, longest]
    split
    · rw [hrest]
      cases longest p (some c) groups k rest with
      | none => exact hk prev (c :: rest) groups
      | some a => rfl
    · exact hk prev (c :: rest) groups

lemma agree_shortRun_of_end {p : Char → Bool}
    (hend : ∀ prev groups, shortest p prev groups k' e = (k ⟨prev, [], groups⟩).map f)
    (hk : Agree e f k' k) :
    Agree e f (fun m => matchThen (shortRun p) m k') (fun m => matchThen (shortRun p) m k) := by
  intro prev t groups
  induction t generalizing prev with
  | nil => exact hend prev groups
  | cons c rest ih =>
    have hrest := ih (some c)
    have hhere := hk prev (c :: rest) groups
    dsimp only [matchThen, List.cons_append] at hrest hhere ⊢
    rw [shortest, shortest, hhere]
    cases k ⟨prev, c :: rest, groups⟩ with
    | some a => rfl
    | none =>
      dsimp only [Option.map_none]
      split
      · exact hrest
      · rfl

/-- What fails in the ending also fails at the end of the text alone. -/
lemma eq_none_of_failsIn (hfail : FailsOn (· <:+ e) k') (hk : Agree e f k' k)
    (prev : Option Char) (groups : List (Nat × Text)) : k ⟨prev, [], groups⟩ = none := by
  have hnil := hk prev [] groups
  rw [hfail _ List.suffix_rfl] at hnil
  exact Option.map_eq_none_iff.mp hnil.symm

/-- Where what follows fails in the ending, it does not matter what a pattern could take of it. -/
lemma agree_of_failsIn (hp : p.hasFinish = false) (hfail : FailsOn (· <:+ e) k')
    (hk : Agree e f k' k) : Agree e f (fun m => matchThen p m k') (fun m => matchThen p m k) := by
  induction p generalizing k' k with
  | empty => exact hk
  | char p =>
    rintro prev (_ | ⟨c, rest⟩) groups
    · exact failsIn_matchThen (char p) hfail ⟨prev, e, groups⟩ List.suffix_rfl
    · dsimp only [matchThen, List.cons_append]
      split
      · exact hk _ rest _
      · rfl
  | run p =>
    refine agree_run_of_end (fun prev groups => ?_) hk
    rw [eq_none_of_failsIn hfail hk]
    exact failsIn_matchThen (run p) hfail ⟨prev, e, groups⟩ List.suffix_rfl
  | shortRun p =>
    refine agree_shortRun_of_end (fun prev groups => ?_) hk
    rw [eq_none_of_failsIn hfail hk]
    exact failsIn_matchThen (shortRun p) hfail ⟨prev, e, groups⟩ List.suffix_rfl
  | seq first second ihFirst ihSecond =>
    rw [hasFinish, Bool.or_eq_false_iff] at hp
    exact ihFirst hp.1 (failsIn_matchThen second hfail) (ihSecond hp.2 hfail hk)
  | alt first second ihFirst ihSecond =>
    rw [hasFinish, Bool.or_eq_false_iff] at hp
    exact agree_alt (ihFirst hp.1 hfail hk) (ihSecond hp.2 hfail hk)
  | star p ih =>
    intro prev t groups
    refine agree_repeated (FailsOn (· <:+ e)) (fun hfail hk => ih hp hfail hk) (fun length fuel => ?_)
      hk (Nat.le_refl _) (Nat.le_refl _)
    intro m' hm'
    dsimp only
    split
    · exact failsOn_repeated (fun hk => failsIn_matchThen p hk) hfail fuel m' hm'
    · rfl
  | group number p ih =>
    intro prev t groups
    refine ih hp ?_ (agree_group number hk t) prev t groups
    exact fun m' hm' => hfail _ hm'
  | edge =>
    rintro prev (_ | ⟨c, rest⟩) groups
    · have hshort : matchThen edge ⟨prev, [], groups⟩ k = none := by
        rw [matchThen, eq_none_of_failsIn hfail hk, ite_self]
      dsimp only
      rw [hshort]
      exact failsIn_matchThen edge hfail ⟨prev, e, groups⟩ List.suffix_rfl
    · change (if isEdge prev (some c) = true then k' ⟨prev, c :: rest ++ e, groups⟩ else none) =
        (if isEdge prev (some c) = true then k ⟨prev, c :: rest, groups⟩ else none).map f
      rw [hk prev (c :: rest) groups]
      split
      · rfl
      · rfl
  | finish => cases hp

/-- What a pattern takes when nothing of the ending is taken. -/
lemma agree_run {p : Char → Bool} (hp : ∀ c ∈ e, p c = false) (hk : Agree e f k' k) :
    Agree e f (fun m => matchThen (run p) m k') (fun m => matchThen (run p) m k) := by
  refine agree_run_of_end (fun prev groups => ?_) hk
  have hnil := hk prev [] groups
  cases e with
  | nil => exact hnil
  | cons c rest =>
    rw [longest, if_neg (by simp [hp c List.mem_cons_self])]
    exact hnil

lemma agree_shortRun {p : Char → Bool} (hp : ∀ c ∈ e, p c = false) (hk : Agree e f k' k) :
    Agree e f (fun m => matchThen (shortRun p) m k') (fun m => matchThen (shortRun p) m k) := by
  refine agree_shortRun_of_end (fun prev groups => ?_) hk
  have hnil := hk prev [] groups
  cases e with
  | nil => exact hnil
  | cons c rest =>
    rw [List.nil_append] at hnil
    rw [shortest, if_neg (by simp [hp c List.mem_cons_self]), hnil]
    cases k ⟨prev, [], groups⟩ with
    | none => rfl
    | some a => rfl

lemma seals_char {p : Char → Bool} (hp : ∀ c ∈ e, p c = false) (hk : Agree e f k' k) :
    FailsOn (· <:+ e) (fun m => matchThen (char p) m k') ∧
      Agree e f (fun m => matchThen (char p) m k') (fun m => matchThen (char p) m k) := by
  have hfail : FailsOn (· <:+ e) fun m => matchThen (char p) m k' := by
    rintro ⟨prev, _ | ⟨c, rest⟩, groups⟩ hm
    · rfl
    · exact if_neg (by simp [hp c (hm.subset List.mem_cons_self)])
  refine ⟨hfail, ?_⟩
  rintro prev (_ | ⟨c, rest⟩) groups
  · exact hfail ⟨prev, e, groups⟩ List.suffix_rfl
  · dsimp only [matchThen, List.cons_append]
    split
    · exact hk _ rest _
    · rfl

/-- An opening is no part of a word, so it ends one where the end of the text does. -/
lemma isEdge_opened (he : ∀ c ∈ e, isOpening c = true) (prev : Option Char) (t : Text) :
    isEdge prev (t ++ e).head? = isEdge prev t.head? := by
  cases t with
  | nil =>
    cases e with
    | nil => rfl
    | cons c rest => simp [isEdge, isWordChar_of_isOpening (he c List.mem_cons_self)]
  | cons c rest => rfl

/-- A pattern that seals fails in an opening, whatever follows. It agrees with itself on texts with an
opening and without, and so does every pattern that keeps out of openings. -/
lemma agree_of_opening (he : ∀ c ∈ e, isOpening c = true) (p : Pattern)
    {k' : Matching → Option α} {k : Matching → Option β} (hk : Agree e f k' k) :
    (p.seals = true → FailsOn (· <:+ e) (fun m => matchThen p m k') ∧
      Agree e f (fun m => matchThen p m k') (fun m => matchThen p m k)) ∧
    (p.keeps = true → Agree e f (fun m => matchThen p m k') (fun m => matchThen p m k)) := by
  have havoids {p : Char → Bool} (hp : avoidsOpening p = true) : ∀ c ∈ e, p c = false :=
    fun c hc => avoidsOpening_apply hp (he c hc)
  induction p generalizing k' k with
  | empty => exact ⟨nofun, fun _ => hk⟩
  | char p => exact ⟨fun hp => seals_char (havoids hp) hk, fun hp => (seals_char (havoids hp) hk).2⟩
  | run p => exact ⟨nofun, fun hp => agree_run (havoids hp) hk⟩
  | shortRun p => exact ⟨nofun, fun hp => agree_shortRun (havoids hp) hk⟩
  | seq first second ihFirst ihSecond =>
    have hright (hfirst : first.hasFinish = false) (hsecond : second.seals = true) :
        FailsOn (· <:+ e) (fun m => matchThen (seq first second) m k') ∧
          Agree e f (fun m => matchThen (seq first second) m k')
            (fun m => matchThen (seq first second) m k) := by
      obtain ⟨hfail, hagree⟩ := (ihSecond hk).1 hsecond
      exact ⟨failsIn_matchThen first hfail, agree_of_failsIn (p := first) hfirst hfail hagree⟩
    rw [seals, keeps]
    simp only [Bool.or_eq_true, Bool.and_eq_true, Bool.not_eq_true']
    constructor
    · rintro (⟨hfirst, hsecond⟩ | ⟨hfirst, hsecond⟩)
      · exact hright hfirst hsecond
      · exact (ihFirst ((ihSecond hk).2 hsecond)).1 hfirst
    · rintro (⟨hfirst, hsecond⟩ | ⟨hfirst, hsecond⟩)
      · exact (hright hfirst hsecond).2
      · exact (ihFirst ((ihSecond hk).2 hsecond)).2 hfirst
  | alt first second ihFirst ihSecond =>
    rw [seals, keeps]
    simp only [Bool.and_eq_true]
    refine ⟨fun ⟨hfirst, hsecond⟩ => ?_, fun ⟨hfirst, hsecond⟩ =>
      agree_alt ((ihFirst hk).2 hfirst) ((ihSecond hk).2 hsecond)⟩
    obtain ⟨hfail, hagree⟩ := (ihFirst hk).1 hfirst
    obtain ⟨hfail', hagree'⟩ := (ihSecond hk).1 hsecond
    refine ⟨fun m hm => ?_, agree_alt hagree hagree'⟩
    have hnone : matchThen first m k' = none := hfail m hm
    dsimp only [matchThen]
    rw [hnone]
    exact hfail' m hm
  | star p ih =>
    refine ⟨nofun, fun hp prev t groups => ?_⟩
    exact agree_repeated (fun _ => True) (fun _ hk => (ih hk).2 hp) (fun _ _ => trivial) hk
      (Nat.le_refl _) (Nat.le_refl _)
  | group number p ih =>
    refine ⟨fun hp => ⟨fun m hm => ?_, fun prev t groups => ?_⟩, fun hp prev t groups => ?_⟩
    · exact ((ih (agree_group_of_suffix number hk hm)).1 hp).1 m hm
    · exact ((ih (agree_group number hk t)).1 hp).2 prev t groups
    · exact (ih (agree_group number hk t)).2 hp prev t groups
  | edge =>
    refine ⟨nofun, fun _ prev t groups => ?_⟩
    dsimp only [matchThen]
    rw [isEdge_opened he, hk prev t groups]
    split
    · rfl
    · rfl
  | finish => exact ⟨nofun, nofun⟩

end

/-! ## Whole matches -/

/-- What is done behind a match may be done as part of it. -/
lemma map_matchThen (f : β → α) (p : Pattern) (m : Matching) (k : Matching → Option β) :
    (matchThen p m k).map f = matchThen p m fun m' => (k m').map f := by
  induction p generalizing m k with
  | empty => rfl
  | char p =>
    obtain ⟨prev, _ | ⟨c, rest⟩, groups⟩ := m
    · rfl
    · dsimp only [matchThen]
      split
      · rfl
      · rfl
  | run p =>
    obtain ⟨prev, rest, groups⟩ := m
    dsimp only [matchThen]
    induction rest generalizing prev with
    | nil => rfl
    | cons c rest ih =>
      rw [longest, longest]
      split
      · rw [← ih]
        cases longest p (some c) groups k rest with
        | none => rfl
        | some a => rfl
      · rfl
  | shortRun p =>
    obtain ⟨prev, rest, groups⟩ := m
    dsimp only [matchThen]
    induction rest generalizing prev with
    | nil => rfl
    | cons c rest ih =>
      rw [shortest, shortest]
      cases k ⟨prev, c :: rest, groups⟩ with
      | some a => rfl
      | none =>
        dsimp only [Option.map_none]
        split
        · exact ih (some c)
        · rfl
  | seq first second ihFirst ihSecond =>
    dsimp only [matchThen]
    rw [ihFirst]
    simp only [ihSecond]
  | alt first second ihFirst ihSecond =>
    dsimp only [matchThen]
    rw [← ihFirst, ← ihSecond]
    cases matchThen first m k with
    | none => rfl
    | some a => rfl
  | star p ih =>
    dsimp only [matchThen]
    induction m.rest.length generalizing m with
    | zero => rfl
    | succ fuel ihFuel =>
      rw [repeated, repeated]
      have hbody := ih m fun m' => if m'.rest.length < m.rest.length then
        repeated (matchThen p) k fuel m' else none
      simp only [apply_ite (Option.map f), ihFuel, Option.map_none] at hbody
      rw [← hbody]
      cases matchThen p m fun m' =>
          if m'.rest.length < m.rest.length then repeated (matchThen p) k fuel m' else none with
      | none => rfl
      | some a => rfl
  | group number p ih => exact ih m _
  | edge =>
    dsimp only [matchThen]
    split
    · rfl
    · rfl
  | finish =>
    dsimp only [matchThen]
    split
    · rfl
    · rfl

section

variable {k : Matching → Option α}

lemma isSome_matchThen (hp : p.isTotal = true) (hk : ∀ m, (k m).isSome = true) (m : Matching) :
    (matchThen p m k).isSome = true := by
  induction p generalizing m k with
  | empty => exact hk m
  | char p => cases hp
  | run p =>
    obtain ⟨prev, rest, groups⟩ := m
    dsimp only [matchThen]
    induction rest generalizing prev with
    | nil => exact hk _
    | cons c rest ih =>
      rw [longest]
      split
      · split
        · rfl
        · exact hk _
      · exact hk _
  | shortRun p =>
    obtain ⟨prev, rest, groups⟩ := m
    dsimp only [matchThen]
    induction rest generalizing prev with
    | nil => exact hk _
    | cons c rest ih =>
      rw [shortest]
      split
      · rfl
      · next hnone =>
        have hsome := hk ⟨prev, c :: rest, groups⟩
        rw [hnone] at hsome
        cases hsome
  | seq first second ihFirst ihSecond =>
    rw [isTotal, Bool.and_eq_true] at hp
    exact ihFirst hp.1 (ihSecond hp.2 hk) m
  | alt first second ihFirst ihSecond =>
    rw [isTotal, Bool.or_eq_true] at hp
    dsimp only [matchThen]
    split
    · rfl
    · next hnone =>
      rcases hp with hfirst | hsecond
      · have hsome := ihFirst hfirst hk m
        rw [hnone] at hsome
        cases hsome
      · exact ihSecond hsecond hk m
  | star p ih =>
    dsimp only [matchThen]
    cases m.rest.length with
    | zero => exact hk m
    | succ fuel =>
      rw [repeated]
      split
      · rfl
      · exact hk m
  | group number p ih => exact ih hp (fun m' => hk _) m
  | edge => cases hp
  | finish => cases hp

/-- What never fails does not change the match before it. -/
lemma matchThen_eq_bind (hk : ∀ m, (k m).isSome = true) (p : Pattern) (m : Matching) :
    matchThen p m k = (matchThen p m some).bind k := by
  have hget : k = fun m => (some m).map fun m => (k m).get (hk m) := by
    funext m
    rw [Option.map_some, Option.some_get]
  conv_lhs => rw [hget, ← map_matchThen]
  cases matchThen p m some with
  | none => rfl
  | some m' => exact Option.some_get (hk m')

end

/-- Where the end of a pattern matches everything, the rest decides whether a text starts with it. -/
lemma startsText_seq {last : Pattern} (h : last.isTotal = true) (p : Pattern) (t : Text) :
    (seq p last).startsText t = p.startsText t := by
  have hsome : ∀ m, (matchThen last m some).isSome = true := isSome_matchThen h fun _ => rfl
  have hbind : (seq p last).matchStart? t = (p.matchStart? t).bind fun m => matchThen last m some :=
    matchThen_eq_bind hsome p ⟨none, t, []⟩
  rw [startsText, startsText, hbind]
  cases p.matchStart? t with
  | none => rfl
  | some m => exact hsome m

/-- The match of a pattern that keeps out of openings, in a text with one behind it. -/
lemma matchStart?_opened (hp : p.keeps = true) (he : ∀ c ∈ e, isOpening c = true) (t : Text) :
    p.matchStart? (t ++ e) = (p.matchStart? t).map fun m => { m with rest := m.rest ++ e } := by
  have hsome : Agree e (fun m : Matching => { m with rest := m.rest ++ e }) some some :=
    fun _ _ _ => rfl
  exact (agree_of_opening he p hsome).2 hp none t []

lemma startsText_opened (hp : p.keeps = true) (he : ∀ c ∈ e, isOpening c = true) (t : Text) :
    p.startsText (t ++ e) = p.startsText t := by
  rw [startsText, matchStart?_opened hp he, Option.isSome_map, startsText]

/-- Where the end of a pattern matches everything, what precedes it decides. -/
lemma startsText_seq_opened {p last : Pattern} (hp : p.keeps = true) (hlast : last.isTotal = true)
    (he : ∀ c ∈ e, isOpening c = true) (t : Text) :
    (seq p last).startsText (t ++ e) = (seq p last).startsText t := by
  rw [startsText_seq hlast, startsText_seq hlast, startsText_opened hp he]

/-! ## Patterns that may take some of an opening -/

/-- A way to go on that is the same at the end of a text and everywhere in an ending. -/
structure Steady (e : Text) (k : Matching → Option α) : Prop where
  agree : ∀ prev t groups, k ⟨prev, t ++ e, groups⟩ = k ⟨prev, t, groups⟩
  ends : ∀ prev rest groups, rest <:+ e → k ⟨prev, rest, groups⟩ = k ⟨none, [], groups⟩

section

variable {k : Matching → Option α}

lemma Steady.run (hk : Steady e k) (p : Char → Bool) :
    Steady e fun m => matchThen (run p) m k := by
  have hends (prev : Option Char) (rest : Text) (groups : List (Nat × Text)) (hrest : rest <:+ e) :
      longest p prev groups k rest = k ⟨none, [], groups⟩ := by
    induction rest generalizing prev with
    | nil => exact hk.ends prev [] groups hrest
    | cons c rest ih =>
      rw [longest, ih (some c) ((List.suffix_cons c rest).trans hrest), hk.ends prev _ groups hrest]
      split
      · cases k ⟨none, [], groups⟩ with
        | none => rfl
        | some a => rfl
      · rfl
  refine ⟨fun prev t groups => ?_, fun prev rest groups hrest => hends prev rest groups hrest⟩
  dsimp only [matchThen]
  induction t generalizing prev with
  | nil =>
    rw [List.nil_append, hends prev e groups List.suffix_rfl, longest]
    exact (hk.ends prev [] groups (List.nil_suffix)).symm
  | cons c rest ih =>
    have hhere := hk.agree prev (c :: rest) groups
    rw [List.cons_append] at hhere ⊢
    rw [longest, longest, ih, hhere]

/-- What an optional piece begins with seals it off. -/
lemma Steady.opt (he : ∀ c ∈ e, isOpening c = true) (first : Pattern) {second : Pattern}
    (hfirst : first.seals = true) (hsecond : Steady e fun m => matchThen second m k)
    (hk : Steady e k) : Steady e fun m => matchThen (opt (seq first second)) m k := by
  have hagree : Agree e id (fun m => matchThen second m k) (fun m => matchThen second m k) := by
    intro prev t groups
    rw [Option.map_id]
    exact hsecond.agree prev t groups
  obtain ⟨hfail, hbegin⟩ := (agree_of_opening he first hagree).1 hfirst
  constructor
  · intro prev t groups
    have hpiece := hbegin prev t groups
    rw [Option.map_id] at hpiece
    dsimp only [id_eq] at hpiece
    dsimp only [Pattern.opt, matchThen]
    rw [hpiece, hk.agree prev t groups]
  · intro prev rest groups hrest
    have hnone := hfail ⟨prev, rest, groups⟩ hrest
    have hnone' := hfail ⟨none, [], groups⟩ List.nil_suffix
    dsimp only at hnone hnone'
    dsimp only [Pattern.opt, matchThen]
    rw [hnone, hnone']
    exact hk.ends prev rest groups hrest

end

end Pattern
end Marginalia
