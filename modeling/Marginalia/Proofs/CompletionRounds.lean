import Marginalia.Proofs.CompletedCall
import Marginalia.Proofs.Names
import Mathlib.Logic.Relation

/-!
# Rounds of completion

In every round the first call that lacks arguments is completed. Calls left of it are looked at again
and still do not lack arguments, so the next round goes on behind the call that was completed or, if
the arguments of that call left a bracket open, picks the same call again.
-/

namespace Marginalia.Repair

open Text

/-- Where the first call that lacks arguments stands. -/
structure Picked (prev : Option Char) (code : Text) (call : ShortCall)
    (before inside after : Text) : Prop where
  code : code = before ++ (call.name ++ '(' :: (inside ++ ')' :: after))
  head : call.head = before ++ (call.name ++ ['('])
  arguments : call.arguments = argumentsOf inside
  tail : call.tail = ')' :: after
  missing : call.missing ≠ 0
  fresh : isFresh (before.getLast?.or prev) = true

lemma Picked.completed {prev : Option Char} {code : Text} {call : ShortCall}
    {before inside after : Text} (h : Picked prev code call before inside after) :
    call.completed =
      before ++ (call.name ++ '(' :: (filled inside call.missing ++ ')' :: after)) := by
  simp [ShortCall.completed, filled, h.head, h.arguments, h.tail]

lemma shortCallAt?_picked {arities : Arities} {prev : Option Char} {code : Text}
    {call : ShortCall} (h : shortCallAt? arities prev code = some call) :
    ∃ inside after, Picked prev code call [] inside after := by
  obtain ⟨⟨hfresh, -⟩, rest, required, inside, after, hname, -, hb, -, hcount, hcall⟩ :=
    (shortCallAt?_eq_some_iff arities prev code call).mp h
  obtain ⟨hrest, -⟩ := (CallReading.bracketed?_eq_some_iff rest inside after).mp hb
  refine ⟨inside, after, ?_, ?_, ?_, ?_, ?_, hfresh⟩
  · rw [(name?_word _ _ hname).1, hrest]
    rfl
  · rw [hcall]
    rfl
  · rw [hcall]
  · rw [hcall]
  · rw [hcall]
    exact Nat.sub_ne_zero_of_lt hcount

/-- The first call that lacks arguments stands at the beginning or is found from the next character
on. -/
lemma shortCall?_cases {arities : Arities} {prev : Option Char} {code : Text} {call : ShortCall}
    (h : shortCall? arities prev code = some call) : shortCallAt? arities prev code = some call ∨
      ∃ c rest later, code = c :: rest ∧ shortCallAt? arities prev code = none ∧
        shortCall? arities (some c) rest = some later ∧
        call = { later with head := c :: later.head } := by
  cases code with
  | nil => simp [shortCall?] at h
  | cons c rest =>
    rw [shortCall?] at h
    cases hat : shortCallAt? arities prev (c :: rest) with
    | some here =>
      rw [hat] at h
      exact .inl h
    | none =>
      rw [hat] at h
      obtain ⟨later, hlater, hcall⟩ := Option.map_eq_some_iff.mp h
      exact .inr ⟨c, rest, later, rfl, rfl, hlater, hcall.symm⟩

lemma shortCall?_of_later {arities : Arities} {prev : Option Char} {c : Char} {rest : Text}
    (h : shortCallAt? arities prev (c :: rest) = none) : shortCall? arities prev (c :: rest) =
      (shortCall? arities (some c) rest).map
        fun later => { later with head := c :: later.head } := by
  rw [shortCall?, h]

lemma shortCall?_picked {arities : Arities} {prev : Option Char} {code : Text} {call : ShortCall}
    (h : shortCall? arities prev code = some call) :
    ∃ before inside after, Picked prev code call before inside after := by
  induction code generalizing prev call with
  | nil => simp [shortCall?] at h
  | cons c rest ih =>
    obtain hat | ⟨c', rest', later, hcode, -, hlater, rfl⟩ := shortCall?_cases h
    · obtain ⟨inside, after, hpicked⟩ := shortCallAt?_picked hat
      exact ⟨[], inside, after, hpicked⟩
    · obtain ⟨rfl, rfl⟩ : c = c' ∧ rest = rest' := by simpa using hcode
      obtain ⟨before, inside, after, hpicked⟩ := ih hlater
      refine ⟨c :: before, inside, after, ?_, ?_, hpicked.arguments, hpicked.tail,
        hpicked.missing, ?_⟩
      · rw [hpicked.code]
        rfl
      · show c :: later.head = _
        rw [hpicked.head]
        rfl
      · have hfresh := hpicked.fresh
        rw [List.getLast?_cons]
        cases hlast : before.getLast? <;> simp_all

/-- A call left of one that is completed does not come to lack arguments. -/
lemma shortCallAt?_filled {arities : Arities} {prev : Option Char} {before : Text} {d : Char}
    (hlast : before.getLast? = some d) (hd : isWordChar d = false) (name inside after : Text)
    {missing : Nat} (hm : missing ≠ 0)
    (h : shortCallAt? arities prev (before ++ (name ++ '(' :: (inside ++ ')' :: after))) = none) :
    shortCallAt? arities prev
      (before ++ (name ++ '(' :: (filled inside missing ++ ')' :: after))) = none := by
  by_contra hsome
  rw [← Ne, Option.ne_none_iff_isSome, shortCallAt?_isSome_iff] at hsome
  obtain ⟨hfresh, outer, rest, required, hname, hrequired, hlacks⟩ := hsome
  have hold : (shortCallAt? arities prev
      (before ++ (name ++ '(' :: (inside ++ ')' :: after)))).isSome = true := by
    rw [shortCallAt?_isSome_iff]
    refine ⟨hfresh, outer, ?_⟩
    obtain ⟨-, hnone⟩ | ⟨outer', tail, htail, hbefore, hnew⟩ :=
      name?_append hlast hd (name ++ '(' :: (filled inside missing ++ ')' :: after))
    · rw [hnone] at hname
      cases hname
    · obtain ⟨rfl, hrest⟩ : outer' = outer ∧
          tail ++ (name ++ '(' :: (filled inside missing ++ ')' :: after)) = '(' :: rest := by
        simpa [hnew] using hname
      obtain ⟨c, between, rfl⟩ := List.exists_cons_of_ne_nil htail
      obtain ⟨rfl, rfl⟩ : c = '(' ∧
          between ++ (name ++ '(' :: (filled inside missing ++ ')' :: after)) = rest := by
        simpa using hrest
      refine ⟨between ++ (name ++ '(' :: (inside ++ ')' :: after)), required, ?_, hrequired, ?_⟩
      · obtain ⟨hnone, -⟩ | ⟨outer'', tail', -, hbefore', hnew'⟩ :=
          name?_append hlast hd (name ++ '(' :: (inside ++ ')' :: after))
        · rw [hnone] at hbefore
          cases hbefore
        · obtain ⟨rfl, rfl⟩ : outer'' = outer' ∧ tail' = '(' :: between := by
            simpa [hbefore] using hbefore'.symm
          exact hnew'
      · rw [← List.append_assoc] at hlacks ⊢
        exact CallReading.lacks_of_lacks_filled hm hlacks
  rw [h] at hold
  exact Bool.noConfusion hold

/-- A completed call whose arguments are balanced does not lack arguments. -/
lemma shortCallAt?_completed_of_balanced {arities : Arities} {prev : Option Char} {code : Text}
    {call : ShortCall} (h : shortCallAt? arities prev code = some call) (hb : call.IsBalanced) :
    shortCallAt? arities prev call.completed = none := by
  obtain ⟨-, rest, required, inside, after, hname, hrequired, hbracket, -, hcount, hcall⟩ :=
    (shortCallAt?_eq_some_iff arities prev code call).mp h
  obtain ⟨-, hopen, hclosed⟩ := (CallReading.bracketed?_eq_some_iff rest inside after).mp hbracket
  obtain ⟨-, c, w, hcw, hc, hw⟩ := name?_word _ _ hname
  have hcompleted : call.completed = c :: w ++
      '(' :: (filled inside (required - (argumentsOf inside).length) ++ ')' :: after) := by
    rw [hcall, ← hcw]
    simp [ShortCall.completed, filled]
  have hstart : (CallReading.start.run inside).code = .start := by
    rw [CallReading.code_eq_start_iff hopen hclosed]
    rw [hcall] at hb
    exact hb
  by_contra hsome
  rw [← Ne, Option.ne_none_iff_isSome, shortCallAt?_isSome_iff, hcompleted,
    name?_cons_append hc hw] at hsome
  obtain ⟨-, name', rest', required', hname', hrequired', hlacks⟩ := hsome
  obtain ⟨rfl, rfl⟩ : c :: w = name' ∧
      filled inside (required - (argumentsOf inside).length) ++ ')' :: after = rest' := by
    simpa using hname'
  obtain rfl : required = required' := by
    rw [hcw, hrequired'] at hrequired
    exact (Option.some.inj hrequired).symm
  exact CallReading.not_lacks_filled hopen hclosed hstart hcount after hlacks

/-- A completed call whose arguments leave a bracket open lacks as many as before. -/
lemma shortCallAt?_completed_of_unbalanced {arities : Arities} {prev : Option Char} {code : Text}
    {call : ShortCall} (h : shortCallAt? arities prev code = some call) (hb : ¬call.IsBalanced) :
    ∃ arguments, shortCallAt? arities prev call.completed = some { call with arguments } ∧
      ¬({ call with arguments } : ShortCall).IsBalanced := by
  obtain ⟨hfresh, rest, required, inside, after, hname, hrequired, hbracket, hspecial, hcount,
    hcall⟩ := (shortCallAt?_eq_some_iff arities prev code call).mp h
  obtain ⟨-, hopen, hclosed⟩ := (CallReading.bracketed?_eq_some_iff rest inside after).mp hbracket
  obtain ⟨-, c, w, hcw, hc, hw⟩ := name?_word _ _ hname
  let text := filled inside (required - (argumentsOf inside).length)
  have hcompleted : call.completed = c :: w ++ '(' :: (text ++ ')' :: after) := by
    rw [hcall, ← hcw]
    simp [ShortCall.completed, filled, text]
  have hstart : (CallReading.start.run inside).code ≠ .start := by
    rw [Ne, CallReading.code_eq_start_iff hopen hclosed]
    rw [hcall] at hb
    exact hb
  have hrun : CallReading.start.run text = CallReading.start.run inside :=
    CallReading.run_filled_open hopen hclosed hstart (Nat.sub_ne_zero_of_lt hcount)
  have hopen' : (CallReading.start.run text).parens ≠ 0 := by rwa [hrun]
  have hclosed' : (CallReading.start.run (text ++ [')'])).parens = 0 := by
    rw [CallReading.run_append] at hclosed ⊢
    rwa [hrun]
  obtain ⟨hlength, hany⟩ := CallReading.endArgument_run_start hopen
  obtain ⟨hlength', hany'⟩ := CallReading.endArgument_run_start hopen'
  rw [hrun, hlength] at hlength'
  rw [hrun, hany, hspecial] at hany'
  refine ⟨argumentsOf text, ?_, ?_⟩
  · rw [shortCallAt?_eq_some_iff, hcompleted, name?_cons_append hc hw]
    refine ⟨hfresh, text ++ ')' :: after, required, text, after, ?_, hrequired, ?_, hany'.symm, ?_,
      ?_⟩
    · rw [hcw]
    · exact (CallReading.bracketed?_eq_some_iff _ _ _).mpr ⟨rfl, hopen', hclosed'⟩
    · rw [← hlength']
      exact hcount
    · rw [hcall, hlength']
  · intro hb'
    have hzero : (CallReading.start.run text).code = .start :=
      (CallReading.code_eq_start_iff hopen' hclosed').mpr hb'
    rw [hrun] at hzero
    exact hstart hzero

lemma shortCallAt?_of_not_fresh {arities : Arities} {d : Char} (hd : isWordChar d = true)
    (t : Text) : shortCallAt? arities (some d) t = none := by
  by_contra hsome
  rw [← Ne, Option.ne_none_iff_isSome, shortCallAt?_isSome_iff] at hsome
  simp [isFresh, hd] at hsome

/-- Behind a name and its parenthesis. -/
lemma head_behind_name {arities : Arities} {d : Char} (hd : isWordChar d = true) {w : Text}
    (hw : w.all isWordChar = true) {t : Text} {call : ShortCall}
    (h : shortCall? arities (some d) (w ++ '(' :: t) = some call) :
    ∃ between, call.head = w ++ '(' :: (between ++ ['(']) := by
  induction w generalizing d call with
  | nil =>
    have hskip : shortCallAt? arities (some d) ('(' :: t) = none :=
      shortCallAt?_of_not_fresh hd _
    rw [List.nil_append, shortCall?_of_later hskip] at h
    obtain ⟨later, hlater, rfl⟩ := Option.map_eq_some_iff.mp h
    obtain ⟨before, inside, after, hpicked⟩ := shortCall?_picked hlater
    refine ⟨before ++ later.name, ?_⟩
    simp [hpicked.head]
  | cons e w ih =>
    rw [List.all_cons, Bool.and_eq_true] at hw
    have hskip : shortCallAt? arities (some d) (e :: (w ++ '(' :: t)) = none :=
      shortCallAt?_of_not_fresh hd _
    rw [List.cons_append, shortCall?_of_later hskip] at h
    obtain ⟨later, hlater, rfl⟩ := Option.map_eq_some_iff.mp h
    obtain ⟨between, hbetween⟩ := ih hw.1 hw.2 hlater
    exact ⟨between, by simp [hbetween]⟩

/-- The character before a call that is found from the next character on belongs to no word. -/
lemma Picked.getLast?_cons {c : Char} {rest : Text} {call : ShortCall} {before inside after : Text}
    (h : Picked (some c) rest call before inside after) :
    ∃ d, (c :: before).getLast? = some d ∧ isWordChar d = false := by
  have hfresh := h.fresh
  rw [List.getLast?_cons]
  cases hlast : before.getLast? with
  | none =>
    rw [hlast] at hfresh
    exact ⟨c, rfl, by simpa [isFresh] using hfresh⟩
  | some d =>
    rw [hlast] at hfresh
    exact ⟨d, rfl, by simpa [isFresh] using hfresh⟩

/-- Where no call lacks arguments, none does once a call further on is completed. -/
lemma shortCallAt?_cons_completed {arities : Arities} {prev : Option Char} {c : Char} {rest : Text}
    {call : ShortCall} (hnone : shortCallAt? arities prev (c :: rest) = none)
    (h : shortCall? arities (some c) rest = some call) :
    shortCallAt? arities prev (c :: call.completed) = none := by
  obtain ⟨before, inside, after, hpicked⟩ := shortCall?_picked h
  obtain ⟨d, hlast, hd⟩ := hpicked.getLast?_cons
  rw [hpicked.code, ← List.cons_append] at hnone
  rw [hpicked.completed, ← List.cons_append]
  exact shortCallAt?_filled hlast hd call.name inside after hpicked.missing hnone

/-- Once a call with balanced arguments is completed, the next call is found behind its
parenthesis. -/
theorem next_of_balanced {arities : Arities} {prev : Option Char} {code : Text}
    {call next : ShortCall} (h : shortCall? arities prev code = some call) (hb : call.IsBalanced)
    (hn : shortCall? arities prev call.completed = some next) :
    ∃ between, next.head = call.head ++ (between ++ ['(']) := by
  induction code generalizing prev call next with
  | nil => simp [shortCall?] at h
  | cons c rest ih =>
    obtain hat | ⟨c', rest', later, hcode, hnone, hlater, rfl⟩ := shortCall?_cases h
    · obtain ⟨-, rest', required, inside, after, hname, -⟩ :=
        (shortCallAt?_eq_some_iff arities prev _ call).mp hat
      obtain ⟨inside, after, hpicked⟩ := shortCallAt?_picked hat
      obtain ⟨-, d, w, hdw, hd, hw⟩ := name?_word _ _ hname
      have hhere := shortCallAt?_completed_of_balanced hat hb
      rw [hpicked.completed, hdw, List.nil_append, List.cons_append] at hhere hn
      rw [shortCall?_of_later hhere] at hn
      obtain ⟨later, hlater, rfl⟩ := Option.map_eq_some_iff.mp hn
      obtain ⟨between, hbetween⟩ := head_behind_name (isWordChar_of_isNameStart hd) hw hlater
      exact ⟨between, by simp [hbetween, hpicked.head, hdw]⟩
    · obtain ⟨rfl, rfl⟩ : c = c' ∧ rest = rest' := by simpa using hcode
      have hcompleted : ({ later with head := c :: later.head } : ShortCall).completed =
          c :: later.completed := rfl
      rw [hcompleted, shortCall?_of_later (shortCallAt?_cons_completed hnone hlater)] at hn
      obtain ⟨next', hnext, rfl⟩ := Option.map_eq_some_iff.mp hn
      obtain ⟨between, hbetween⟩ := ih hlater hb hnext
      exact ⟨between, by simp [hbetween]⟩

/-- A call whose arguments leave a bracket open is picked again as soon as it is completed, and its
arguments still leave a bracket open. -/
theorem next_of_unbalanced {arities : Arities} {prev : Option Char} {code : Text}
    {call : ShortCall} (h : shortCall? arities prev code = some call) (hb : ¬call.IsBalanced) :
    ∃ arguments, shortCall? arities prev call.completed = some { call with arguments } ∧
      ¬({ call with arguments } : ShortCall).IsBalanced := by
  induction code generalizing prev call with
  | nil => simp [shortCall?] at h
  | cons c rest ih =>
    obtain hat | ⟨c', rest', later, hcode, hnone, hlater, rfl⟩ := shortCall?_cases h
    · obtain ⟨arguments, hagain, hopen⟩ := shortCallAt?_completed_of_unbalanced hat hb
      refine ⟨arguments, ?_, hopen⟩
      cases hcompleted : call.completed with
      | nil =>
        rw [hcompleted] at hagain
        simp [shortCallAt?_eq_some_iff, name?] at hagain
      | cons d t =>
        rw [hcompleted] at hagain
        rw [shortCall?, hagain]
    · obtain ⟨rfl, rfl⟩ : c = c' ∧ rest = rest' := by simpa using hcode
      obtain ⟨arguments, hagain, hopen⟩ := ih hlater hb
      refine ⟨arguments, ?_, hopen⟩
      have hcompleted : ({ later with head := c :: later.head } : ShortCall).completed =
          c :: later.completed := rfl
      rw [hcompleted, shortCall?_of_later (shortCallAt?_cons_completed hnone hlater), hagain]
      rfl

end Marginalia.Repair
