import Marginalia.Proofs.ArgumentReading
import Mathlib.Data.Option.Basic

/-!
# Reading a call

One reader looks for the closing parenthesis of a call, another for the commas between its arguments.
`CallReading` does what both do in one pass over the text behind the opening parenthesis.
-/

namespace Marginalia.Repair

open Text

/-- A call that is being read. -/
structure CallReading where
  code : CodeState
  /-- The parentheses that are open, that of the call among them. None are when the call is closed,
  and then nothing more is read. -/
  parens : Nat
  argument : ArgumentReading
  /-- The arguments before the one that is being read, blank ones apart. -/
  count : Nat
  /-- Whether one of them is starred or given by name. -/
  special : Bool
deriving Repr, DecidableEq

namespace CallReading

/-- Behind the opening parenthesis. -/
def start : CallReading := ⟨.start, 1, .fresh, 0, false⟩

/-- Takes the argument that is being read for complete. -/
def endArgument (r : CallReading) : CallReading :=
  { r with
    argument := .fresh
    count := r.count + r.argument.started.toNat
    special := r.special || r.argument.isSpecial }

/-- Whether a character is the parenthesis that closes the call. -/
def closesAt (r : CallReading) (c : Char) : Bool :=
  (r.code.step c).2.isSome && c == ')' && r.parens == 1

/-- Whether a character is a comma between arguments. -/
def separatesAt (r : CallReading) (c : Char) : Bool :=
  (r.code.step c).2 == some 0 && c == ','

/-- The number of open parentheses after a character. -/
def parensAfter (r : CallReading) (c : Char) : Nat :=
  if (r.code.step c).2.isNone then r.parens
  else if c == '(' then r.parens + 1
  else if c == ')' then r.parens - 1
  else r.parens

def step (r : CallReading) (c : Char) : CallReading :=
  let code := (r.code.step c).1
  if r.parens = 0 then r
  else if r.closesAt c then { r.endArgument with code, parens := 0 }
  else if r.separatesAt c then { r.endArgument with code }
  else { r with
    code
    parens := r.parensAfter c
    argument := r.argument.step ((r.code.step c).2 == some 0) c }

def run (r : CallReading) (t : Text) : CallReading := t.foldl step r

@[simp] lemma run_nil (r : CallReading) : r.run [] = r := rfl

@[simp] lemma run_cons (r : CallReading) (c : Char) (t : Text) :
    r.run (c :: t) = (r.step c).run t := rfl

lemma run_append (r : CallReading) (t t' : Text) : r.run (t ++ t') = (r.run t).run t' :=
  List.foldl_append

lemma step_of_closed {r : CallReading} (h : r.parens = 0) (c : Char) : r.step c = r := by
  simp [step, h]

lemma run_of_closed {r : CallReading} (h : r.parens = 0) (t : Text) : r.run t = r := by
  induction t with
  | nil => rfl
  | cons c rest ih => rw [run_cons, step_of_closed h, ih]

lemma parensAfter_ne_zero {r : CallReading} (h : r.parens ≠ 0) {c : Char}
    (hc : r.closesAt c = false) : r.parensAfter c ≠ 0 := by
  unfold parensAfter
  split
  · exact h
  · rename_i hsome
    split
    · omega
    · split
      · rename_i hparen
        have hone : r.parens ≠ 1 := by
          intro hone
          simp_all [closesAt]
        omega
      · exact h

lemma parens_step_eq_zero_iff {r : CallReading} (h : r.parens ≠ 0) (c : Char) :
    (r.step c).parens = 0 ↔ r.closesAt c = true := by
  cases hc : r.closesAt c with
  | true => simp [step, h, hc]
  | false =>
    cases hs : r.separatesAt c with
    | true => simp [step, h, hc, hs, endArgument]
    | false => simp [step, h, hc, hs, parensAfter_ne_zero h hc]

lemma parens_step {r : CallReading} (h : r.parens ≠ 0) {c : Char} (hc : r.closesAt c = false) :
    (r.step c).parens = r.parensAfter c := by
  cases hs : r.separatesAt c with
  | true =>
    obtain rfl : c = ',' := by simp_all [separatesAt]
    simp [step, h, hc, hs, endArgument, parensAfter]
  | false => simp [step, h, hc, hs]

lemma code_step {r : CallReading} (h : r.parens ≠ 0) (c : Char) :
    (r.step c).code = (r.code.step c).1 := by
  simp only [step, if_neg h]
  split
  · rfl
  · split <;> rfl

/-- While the call is open, its code is read. -/
lemma code_run {r : CallReading} {t : Text} (h : (r.run t).parens ≠ 0) :
    (r.run t).code = r.code.run t := by
  induction t generalizing r with
  | nil => rfl
  | cons c rest ih =>
    have hr : r.parens ≠ 0 := by
      intro hr
      rw [run_of_closed hr] at h
      exact h hr
    rw [run_cons, ih h, code_step hr, CodeState.run_cons]

/-! The closing parenthesis is the one that `splitAtClose?` finds. -/

lemma splitAtClose?_cons {r : CallReading} (h : r.parens ≠ 0) (c : Char) (t : Text) :
    splitAtClose? '(' ')' r.code r.parens (c :: t) =
      if r.closesAt c then some ([], c :: t)
      else (splitAtClose? '(' ')' (r.step c).code (r.step c).parens t).map
        fun (head, tail) => (c :: head, tail) := by
  rw [splitAtClose?, code_step h]
  cases hd : (r.code.step c).2 with
  | none =>
    have hc : r.closesAt c = false := by simp [closesAt, hd]
    simp [hc, parens_step h hc, parensAfter, hd]
  | some depth =>
    by_cases hopen : c = '('
    · subst hopen
      have hc : r.closesAt '(' = false := by simp [closesAt]
      simp [hc, parens_step h hc, parensAfter, hd]
    · by_cases hclose : c = ')'
      · subst hclose
        by_cases hone : r.parens = 1
        · simp [closesAt, hd, hone]
        · have hc : r.closesAt ')' = false := by simp [closesAt, hone]
          have hpos : r.parens - 1 ≠ 0 := by omega
          simp [hc, parens_step h hc, parensAfter, hd, hpos]
      · have hc : r.closesAt c = false := by simp [closesAt, hclose]
        simp [hc, parens_step h hc, parensAfter, hd, hopen, hclose]

lemma splitAtClose?_eq_some_iff {r : CallReading} (h : r.parens ≠ 0) (t inside tail : Text) :
    splitAtClose? '(' ')' r.code r.parens t = some (inside, tail) ↔
      ∃ after, tail = ')' :: after ∧ t = inside ++ ')' :: after ∧ (r.run inside).parens ≠ 0 ∧
        (r.run (inside ++ [')'])).parens = 0 := by
  induction t generalizing r inside with
  | nil => simp [splitAtClose?]
  | cons c rest ih =>
    rw [splitAtClose?_cons h]
    by_cases hc : r.closesAt c = true
    · have hclosed : (r.step c).parens = 0 := (parens_step_eq_zero_iff h c).mpr hc
      have hparen : c = ')' := by simp_all [closesAt]
      rw [if_pos hc]
      constructor
      · intro heq
        obtain ⟨rfl, rfl⟩ : [] = inside ∧ c :: rest = tail := by simpa using heq
        exact ⟨rest, by rw [hparen], by rw [hparen]; rfl, h, by simpa [hparen] using hclosed⟩
      · rintro ⟨after, rfl, ht, hopen, -⟩
        cases inside with
        | nil => rw [ht]; rfl
        | cons d inside =>
          obtain ⟨rfl, -⟩ : c = d ∧ rest = inside ++ ')' :: after := by simpa using ht
          rw [run_cons, run_of_closed hclosed] at hopen
          exact absurd hclosed hopen
    · have hstep : (r.step c).parens ≠ 0 := by rwa [Ne, parens_step_eq_zero_iff h]
      rw [if_neg hc]
      constructor
      · intro heq
        obtain ⟨⟨head, tail'⟩, hsplit, hpair⟩ := Option.map_eq_some_iff.mp heq
        obtain ⟨rfl, rfl⟩ : c :: head = inside ∧ tail' = tail := by simpa using hpair
        obtain ⟨after, htail, hrest, hopen, hclosed⟩ := (ih hstep head).mp hsplit
        exact ⟨after, htail, by rw [hrest]; rfl, hopen, hclosed⟩
      · rintro ⟨after, rfl, ht, hopen, hclosed⟩
        cases inside with
        | nil =>
          obtain ⟨rfl, -⟩ : c = ')' ∧ rest = after := by simpa using ht
          exact absurd hclosed hstep
        | cons d inside =>
          obtain ⟨rfl, hrest⟩ : c = d ∧ rest = inside ++ ')' :: after := by simpa using ht
          have hsplit := (ih hstep inside).mpr ⟨after, rfl, hrest, hopen, hclosed⟩
          rw [hsplit]
          rfl

lemma splitAtClose?_eq_none_iff {r : CallReading} (h : r.parens ≠ 0) (t : Text) :
    splitAtClose? '(' ')' r.code r.parens t = none ↔ (r.run t).parens ≠ 0 := by
  induction t generalizing r with
  | nil => simp [splitAtClose?, h]
  | cons c rest ih =>
    rw [splitAtClose?_cons h]
    by_cases hc : r.closesAt c = true
    · have hclosed : (r.step c).parens = 0 := (parens_step_eq_zero_iff h c).mpr hc
      simp [hc, run_of_closed hclosed, hclosed]
    · have hstep : (r.step c).parens ≠ 0 := by rwa [Ne, parens_step_eq_zero_iff h]
      simp [hc, ih hstep]

lemma bracketed?_paren (t : Text) : bracketed? ('(' :: t) =
    (splitAtClose? '(' ')' start.code start.parens t).map
      fun (head, tail) => (head, tail.drop 1) := by
  have hsplit : splitAtPartner? ('(' :: t) =
      (splitAtClose? '(' ')' start.code start.parens t).map
        fun (head, tail) => ('(' :: head, tail) := by
    have hcongr : splitAtClose? '(' ')' ⟨none, false, 1⟩ 1 t =
        splitAtClose? '(' ')' start.code start.parens t :=
      splitAtClose?_congr '(' ')' (by rfl) (by rfl) 1 t
    rw [← hcongr]
    rfl
  rw [bracketed?, hsplit, Option.map_map]
  rfl

/-- What stands between the parentheses of a call, and what follows it. -/
lemma bracketed?_eq_some_iff (t inside after : Text) :
    bracketed? ('(' :: t) = some (inside, after) ↔ t = inside ++ ')' :: after ∧
      (start.run inside).parens ≠ 0 ∧ (start.run (inside ++ [')'])).parens = 0 := by
  have hopen : start.parens ≠ 0 := Nat.one_ne_zero
  rw [bracketed?_paren, Option.map_eq_some_iff]
  constructor
  · rintro ⟨⟨head, tail⟩, hsplit, hpair⟩
    obtain ⟨after', rfl, ht, hrest⟩ := (splitAtClose?_eq_some_iff hopen t head tail).mp hsplit
    obtain ⟨rfl, rfl⟩ : head = inside ∧ after' = after := by simpa using hpair
    exact ⟨ht, hrest⟩
  · rintro ⟨ht, hrest⟩
    exact ⟨(inside, ')' :: after),
      (splitAtClose?_eq_some_iff hopen t inside _).mpr ⟨after, rfl, ht, hrest⟩, rfl⟩

lemma bracketed?_eq_none_iff (t : Text) :
    bracketed? ('(' :: t) = none ↔ (start.run t).parens ≠ 0 := by
  rw [bracketed?_paren, Option.map_eq_none_iff]
  exact splitAtClose?_eq_none_iff Nat.one_ne_zero t

/-! The arguments are the pieces that `splitTopLevel` finds. -/

lemma closesAt_of_open {r : CallReading} {c : Char} (h : (r.step c).parens ≠ 0) :
    r.parens ≠ 0 ∧ r.closesAt c = false := by
  have hr : r.parens ≠ 0 := by
    intro hr
    rw [step_of_closed hr] at h
    exact h hr
  refine ⟨hr, ?_⟩
  rwa [Ne, parens_step_eq_zero_iff hr, Bool.not_eq_true] at h

lemma open_of_run {r : CallReading} {t : Text} (h : (r.run t).parens ≠ 0) : r.parens ≠ 0 := by
  intro hr
  rw [run_of_closed hr] at h
  exact h hr

lemma step_separator {r : CallReading} {c : Char} (h : (r.step c).parens ≠ 0)
    (hs : r.separatesAt c = true) : r.step c = { r.endArgument with code := (r.code.step c).1 } := by
  obtain ⟨hr, hc⟩ := closesAt_of_open h
  simp [step, hr, hc, hs]

lemma step_inside {r : CallReading} {c : Char} (h : (r.step c).parens ≠ 0)
    (hs : r.separatesAt c = false) : r.step c = { r with
      code := (r.code.step c).1
      parens := r.parensAfter c
      argument := r.argument.step ((r.code.step c).2 == some 0) c } := by
  obtain ⟨hr, hc⟩ := closesAt_of_open h
  simp [step, hr, hc, hs]

lemma endArgument_run {r : CallReading} (hr : r.code.Sound) {t : Text}
    (h : (r.run t).parens ≠ 0) :
    (r.run t).endArgument.count = r.count
      + (r.argument.read r.code (piecesFrom ',' r.code t).1).started.toNat
      + (piecesFrom ',' r.code t).2.countP
        (fun piece => (ArgumentReading.fresh.read .start piece).started) ∧
    (r.run t).endArgument.special = (r.special
      || (r.argument.read r.code (piecesFrom ',' r.code t).1).isSpecial
      || (piecesFrom ',' r.code t).2.any
        (fun piece => (ArgumentReading.fresh.read .start piece).isSpecial)) := by
  induction t generalizing r with
  | nil => simp [piecesFrom, endArgument, ArgumentReading.read]
  | cons c rest ih =>
    have hopen : (r.step c).parens ≠ 0 := open_of_run h
    have hcode : (r.step c).code = (r.code.step c).1 := code_step (closesAt_of_open hopen).1 c
    have hi := ih (by rw [hcode]; exact hr.step c) h
    rw [hcode] at hi
    rw [run_cons, hi.1, hi.2]
    cases hs : r.separatesAt c with
    | true =>
      obtain ⟨htop, hcomma⟩ : (r.code.step c).2 = some 0 ∧ c = ',' := by
        simpa [separatesAt] using hs
      have hstart : (r.code.step c).1 = .start :=
        hr.step_separator htop (by rw [hcomma]; decide)
      rw [piecesFrom_separator hs, step_separator hopen hs, hstart]
      constructor
      · simp only [endArgument, ArgumentReading.read, List.countP_cons]
        cases (ArgumentReading.fresh.read .start (piecesFrom ',' .start rest).1).started <;>
          simp [Nat.add_assoc, Nat.add_comm]
      · simp [endArgument, ArgumentReading.read, Bool.or_assoc]
    | false =>
      rw [piecesFrom_inside hs, step_inside hopen hs]
      exact ⟨rfl, rfl⟩

end CallReading

/-- The arguments between the parentheses of a call, blank ones apart. -/
def argumentsOf (inside : Text) : List Text :=
  (splitTopLevel ',' inside).filter fun a => !a.isEmpty

def isSpecialArgument (argument : Text) : Bool :=
  argument.startsWith "*" || isKeywordArgument argument

lemma argumentsOf_eq (inside : Text) :
    argumentsOf inside = ((rawPieces ',' inside).map trim).filter fun a => !a.isEmpty := by
  by_cases hblank : inside.isAllBlank = true
  · have hraw : rawPieces ',' inside = [inside] := by
      rw [rawPieces, piecesFrom_blanks (by decide) hblank]
    simp [argumentsOf, splitTopLevel, hblank, hraw, (trim_eq_nil_iff inside).mpr hblank]
  · simp [argumentsOf, splitTopLevel, hblank]

namespace CallReading

/-- At the end of what stands between the parentheses, the arguments have been counted. -/
lemma endArgument_run_start {inside : Text} (h : (start.run inside).parens ≠ 0) :
    (start.run inside).endArgument.count = (argumentsOf inside).length ∧
      (start.run inside).endArgument.special = (argumentsOf inside).any isSpecialArgument := by
  obtain ⟨hcount, hspecial⟩ := endArgument_run CodeState.sound_start h
  have hpieces : rawPieces ',' inside = (piecesFrom ',' start.code inside).1 ::
    (piecesFrom ',' start.code inside).2 := rfl
  have hstarted : ∀ piece : Text,
      (ArgumentReading.fresh.read .start piece).started = !(trim piece).isEmpty := by
    intro piece
    rw [ArgumentReading.started_read, Bool.eq_iff_iff]
    simp [ArgumentReading.fresh, trim_eq_nil_iff]
  have hsame : ∀ piece : Text, (ArgumentReading.fresh.read .start piece).isSpecial =
      isSpecialArgument (trim piece) := ArgumentReading.isSpecial_read_fresh
  rw [hcount, hspecial, argumentsOf_eq, hpieces]
  constructor
  · rw [← List.countP_eq_length_filter, List.countP_map, List.countP_cons]
    simp only [start, hstarted, Function.comp_def, Nat.zero_add]
    by_cases hempty : trim (piecesFrom ',' .start inside).1 = []
    · simp [hempty]
    · simp [hempty, Nat.add_comm]
  · have hblank : ∀ a : Text, (!a.isEmpty && isSpecialArgument a) = isSpecialArgument a := by
      intro a
      cases a <;> rfl
    simp only [List.any_filter, hblank, List.any_map, List.any_cons, hsame, start]
    rfl

lemma run_close {inside : Text} (h : (start.run inside).parens ≠ 0)
    (hc : (start.run (inside ++ [')'])).parens = 0) (after : Text) :
    start.run (inside ++ ')' :: after) = { (start.run inside).endArgument with
      code := ((start.run inside).code.step ')').1
      parens := 0 } := by
  rw [run_append, run_cons, run_nil] at hc
  have hcloses : (start.run inside).closesAt ')' = true := (parens_step_eq_zero_iff h _).mp hc
  rw [run_append, run_cons, run_of_closed hc]
  simp [step, h, hcloses]

/-- Whether a call turned out to be one that lacks arguments. -/
def Lacks (r : CallReading) (required : Nat) : Prop :=
  r.parens = 0 ∧ r.special = false ∧ r.count < required

lemma lacks_iff (t : Text) (required : Nat) : (start.run t).Lacks required ↔
    ∃ inside after, bracketed? ('(' :: t) = some (inside, after) ∧
      (argumentsOf inside).any isSpecialArgument = false ∧
      (argumentsOf inside).length < required := by
  constructor
  · rintro ⟨hparens, hspecial, hcount⟩
    cases hb : bracketed? ('(' :: t) with
    | none => exact absurd hparens ((bracketed?_eq_none_iff t).mp hb)
    | some pair =>
      obtain ⟨inside, after⟩ := pair
      obtain ⟨ht, hopen, hclosed⟩ := (bracketed?_eq_some_iff t inside after).mp hb
      have harguments := endArgument_run_start hopen
      rw [ht, run_close hopen hclosed] at hspecial hcount
      exact ⟨inside, after, rfl, harguments.2 ▸ hspecial, harguments.1 ▸ hcount⟩
  · rintro ⟨inside, after, hb, hspecial, hcount⟩
    obtain ⟨ht, hopen, hclosed⟩ := (bracketed?_eq_some_iff t inside after).mp hb
    have harguments := endArgument_run_start hopen
    rw [ht, run_close hopen hclosed]
    exact ⟨rfl, harguments.2.trans hspecial, lt_of_eq_of_lt harguments.1 hcount⟩

end CallReading

lemma startsWith_paren_iff (t : Text) : t.startsWith "(" = true ↔ ∃ rest, t = '(' :: rest := by
  cases t with
  | nil => simp [startsWith, after?]
  | cons c rest =>
    by_cases hc : c = '('
    · subst hc
      simp [startsWith, after?]
    · simp [startsWith, after?, hc, Ne.symm hc]

/-- The call that stands at a place and lacks arguments. -/
lemma shortCallAt?_eq_some_iff (arities : Arities) (prev : Option Char) (t : Text)
    (call : ShortCall) : shortCallAt? arities prev t = some call ↔
      (isFresh prev = true ∧ prev ≠ some '.') ∧ ∃ rest required inside after,
        name? t = some (call.name, '(' :: rest) ∧ arities.lookup call.name = some required ∧
        bracketed? ('(' :: rest) = some (inside, after) ∧
        (argumentsOf inside).any isSpecialArgument = false ∧
        (argumentsOf inside).length < required ∧
        call = ⟨call.name, call.name ++ "(", argumentsOf inside, ')' :: after,
          required - (argumentsOf inside).length⟩ := by
  unfold shortCallAt?
  simp only [Option.bind_eq_bind, Option.bind_eq_some_iff, Option.guard_eq_some', startsWith_paren_iff,
    Prod.exists, Bool.and_eq_true, bne_iff_ne, Bool.not_eq_true']
  constructor
  · rintro ⟨-, hfresh, name, _, hname, -, ⟨rest, rfl⟩, required, hrequired, inside, after, hb, -,
      hspecial, -, hcount, hcall⟩
    obtain rfl := Option.some.inj hcall
    exact ⟨hfresh, rest, required, inside, after, hname, hrequired, hb, hspecial, hcount, rfl⟩
  · rintro ⟨hfresh, rest, required, inside, after, hname, hrequired, hb, hspecial, hcount, hcall⟩
    exact ⟨(), hfresh, call.name, _, hname, (), ⟨rest, rfl⟩, required, hrequired, inside, after, hb,
      (), hspecial, (), hcount, congrArg some hcall.symm⟩

/-- A call lacks arguments exactly when its reading says so. -/
lemma shortCallAt?_isSome_iff (arities : Arities) (prev : Option Char) (t : Text) :
    (shortCallAt? arities prev t).isSome = true ↔ (isFresh prev = true ∧ prev ≠ some '.') ∧
      ∃ name rest required, name? t = some (name, '(' :: rest) ∧
        arities.lookup name = some required ∧ (CallReading.start.run rest).Lacks required := by
  rw [Option.isSome_iff_exists]
  constructor
  · rintro ⟨call, h⟩
    obtain ⟨hfresh, rest, required, inside, after, hname, hrequired, hb, hspecial, hcount, -⟩ :=
      (shortCallAt?_eq_some_iff arities prev t call).mp h
    exact ⟨hfresh, call.name, rest, required, hname, hrequired,
      (CallReading.lacks_iff rest required).mpr ⟨inside, after, hb, hspecial, hcount⟩⟩
  · rintro ⟨hfresh, name, rest, required, hname, hrequired, hlacks⟩
    obtain ⟨inside, after, hb, hspecial, hcount⟩ := (CallReading.lacks_iff rest required).mp hlacks
    exact ⟨⟨name, name ++ "(", argumentsOf inside, ')' :: after,
        required - (argumentsOf inside).length⟩,
      (shortCallAt?_eq_some_iff arities prev t _).mpr
        ⟨hfresh, rest, required, inside, after, hname, hrequired, hb, hspecial, hcount, rfl⟩⟩

end Marginalia.Repair
