import Mathlib.Data.List.Infix
import Marginalia.Text.Pattern

/-!
# Places that matches reach

A pattern takes characters from the front of a text and goes on behind them. Which characters these
may be, and which groups it may have kept, is told from the pattern.
-/

namespace Marginalia.Pattern

/-- The characters that a pattern may take. -/
def takes : Pattern → Char → Bool
  | char p, c | run p, c | shortRun p, c => p c
  | seq first second, c | alt first second, c => first.takes c || second.takes c
  | star p, c | group _ p, c => p.takes c
  | _, _ => false

/-- Whether a pattern may take nothing. -/
def skips : Pattern → Bool
  | char _ => false
  | seq first second => first.skips && second.skips
  | alt first second => first.skips || second.skips
  | group _ p => p.skips
  | _ => true

/-- The characters that a pattern may take first. -/
def starts : Pattern → Char → Bool
  | char p, c | run p, c | shortRun p, c => p c
  | seq first second, c => first.starts c || first.skips && second.starts c
  | alt first second, c => first.starts c || second.starts c
  | star p, c | group _ p, c => p.starts c
  | _, _ => false

lemma append_eq_seq (p q : Pattern) : p ++ q = seq p q := rfl

/-- The numbers of the groups in a pattern. -/
def marks : Pattern → List Nat
  | seq first second | alt first second => first.marks ++ second.marks
  | star p => p.marks
  | group number p => number :: p.marks
  | _ => []

variable {α : Type} {p : Pattern} {m : Matching}

/-- A match goes on from a place: the pattern took what stands before it, and kept its own groups. -/
structure Reaches (p : Pattern) (m m' : Matching) : Prop where
  taken : ∃ taken, m.rest = taken ++ m'.rest ∧ ∀ c ∈ taken, p.takes c = true
  groups : ∃ kept, m'.groups = kept ++ m.groups ∧ ∀ entry ∈ kept, entry.1 ∈ p.marks

lemma Reaches.refl (p : Pattern) (m : Matching) : p.Reaches m m :=
  ⟨⟨[], rfl, List.forall_mem_nil _⟩, ⟨[], rfl, List.forall_mem_nil _⟩⟩

lemma Reaches.trans {p q r : Pattern} {m m' m'' : Matching} (h : p.Reaches m m')
    (h' : q.Reaches m' m'') (htakes : ∀ c, p.takes c = true ∨ q.takes c = true → r.takes c = true)
    (hmarks : ∀ n, n ∈ p.marks ∨ n ∈ q.marks → n ∈ r.marks) : r.Reaches m m'' := by
  obtain ⟨taken, hrest, htaken⟩ := h.taken
  obtain ⟨taken', hrest', htaken'⟩ := h'.taken
  obtain ⟨kept, hgroups, hkept⟩ := h.groups
  obtain ⟨kept', hgroups', hkept'⟩ := h'.groups
  refine ⟨⟨taken ++ taken', by rw [hrest, hrest', List.append_assoc], fun c hc => ?_⟩,
    ⟨kept' ++ kept, by rw [hgroups', hgroups, List.append_assoc], fun entry hentry => ?_⟩⟩
  · rcases List.mem_append.mp hc with hc | hc
    · exact htakes c (.inl (htaken c hc))
    · exact htakes c (.inr (htaken' c hc))
  · rcases List.mem_append.mp hentry with hentry | hentry
    · exact hmarks _ (.inr (hkept' entry hentry))
    · exact hmarks _ (.inl (hkept entry hentry))

lemma Reaches.mono {p r : Pattern} {m m' : Matching} (h : p.Reaches m m')
    (htakes : ∀ c, p.takes c = true → r.takes c = true) (hmarks : p.marks ⊆ r.marks) :
    r.Reaches m m' :=
  (Reaches.refl r m).trans h (fun c hc => hc.elim id (htakes c)) (fun _ hn => hn.elim id (hmarks ·))

/-- Without groups a pattern keeps those that there are. -/
lemma Reaches.groups_eq {m m' : Matching} (h : p.Reaches m m') (hp : p.marks = []) :
    m'.groups = m.groups := by
  obtain ⟨kept, hkept, hmarks⟩ := h.groups
  cases kept with
  | nil => exact hkept
  | cons entry kept =>
    have hentry := hmarks entry List.mem_cons_self
    rw [hp] at hentry
    cases hentry

section

variable {k : Matching → Option α} {a : α}

lemma reaches_char {p : Char → Bool} (h : matchThen (char p) m k = some a) :
    ∃ c m', m.rest = c :: m'.rest ∧ p c = true ∧ m'.groups = m.groups ∧ k m' = some a := by
  obtain ⟨prev, _ | ⟨c, rest⟩, groups⟩ := m
  · cases h
  · dsimp only [matchThen] at h
    split at h
    · next hc => exact ⟨c, ⟨some c, rest, groups⟩, rfl, hc, rfl, h⟩
    · cases h

/-- Some characters of a class, then the rest. -/
lemma reaches_run {p : Char → Bool} (h : matchThen (run p) m k = some a) :
    ∃ taken m', m.rest = taken ++ m'.rest ∧ taken.all p = true ∧ m'.groups = m.groups ∧
      k m' = some a := by
  obtain ⟨prev, rest, groups⟩ := m
  dsimp only [matchThen] at h ⊢
  induction rest generalizing prev with
  | nil => exact ⟨[], _, rfl, rfl, rfl, h⟩
  | cons c rest ih =>
    rw [longest] at h
    split at h
    · next hc =>
      split at h
      · next hmore =>
        rw [h] at hmore
        obtain ⟨taken, m', hrest, htaken, hgroups, hk⟩ := ih (some c) hmore
        exact ⟨c :: taken, m', by rw [hrest, List.cons_append], by rw [List.all_cons, hc, htaken]; rfl,
          hgroups, hk⟩
      · exact ⟨[], _, rfl, rfl, rfl, h⟩
    · exact ⟨[], _, rfl, rfl, rfl, h⟩

lemma reaches_shortRun {p : Char → Bool} (h : matchThen (shortRun p) m k = some a) :
    ∃ taken m', m.rest = taken ++ m'.rest ∧ taken.all p = true ∧ m'.groups = m.groups ∧
      k m' = some a := by
  obtain ⟨prev, rest, groups⟩ := m
  dsimp only [matchThen] at h ⊢
  induction rest generalizing prev with
  | nil => exact ⟨[], _, rfl, rfl, rfl, h⟩
  | cons c rest ih =>
    rw [shortest] at h
    split at h
    · next hhere =>
      rw [h] at hhere
      exact ⟨[], _, rfl, rfl, rfl, hhere⟩
    · split at h
      · next hc =>
        obtain ⟨taken, m', hrest, htaken, hgroups, hk⟩ := ih (some c) h
        exact ⟨c :: taken, m', by rw [hrest, List.cons_append], by rw [List.all_cons, hc, htaken]; rfl,
          hgroups, hk⟩
      · cases h

lemma reaches_repeated (hbody : ∀ {m : Matching} {k : Matching → Option α} {a : α},
      matchThen p m k = some a → ∃ m', p.Reaches m m' ∧ k m' = some a)
    {fuel : Nat} (h : repeated (matchThen p) k fuel m = some a) :
    ∃ m', (star p).Reaches m m' ∧ k m' = some a := by
  induction fuel generalizing m with
  | zero => exact ⟨m, .refl _ m, h⟩
  | succ fuel ih =>
    rw [repeated] at h
    split at h
    · next hmore =>
      rw [h] at hmore
      obtain ⟨m', hm', hk⟩ := hbody hmore
      split at hk
      · obtain ⟨m'', hm'', hk⟩ := ih hk
        exact ⟨m'', hm'.trans hm'' (fun c hc => hc.elim id id) (fun n hn => hn.elim id id), hk⟩
      · cases hk
    · exact ⟨m, .refl _ m, h⟩

/-- A match goes on from a place that its pattern reaches. -/
lemma exists_reached (h : matchThen p m k = some a) : ∃ m', p.Reaches m m' ∧ k m' = some a := by
  induction p generalizing m k a with
  | empty => exact ⟨m, .refl _ m, h⟩
  | char p =>
    obtain ⟨c, m', hrest, hc, hgroups, hk⟩ := reaches_char h
    exact ⟨m', ⟨⟨[c], hrest, List.forall_mem_singleton.mpr hc⟩, [], hgroups, List.forall_mem_nil _⟩, hk⟩
  | run p =>
    obtain ⟨taken, m', hrest, htaken, hgroups, hk⟩ := reaches_run h
    exact ⟨m', ⟨⟨taken, hrest, List.all_eq_true.mp htaken⟩, [], hgroups, List.forall_mem_nil _⟩, hk⟩
  | shortRun p =>
    obtain ⟨taken, m', hrest, htaken, hgroups, hk⟩ := reaches_shortRun h
    exact ⟨m', ⟨⟨taken, hrest, List.all_eq_true.mp htaken⟩, [], hgroups, List.forall_mem_nil _⟩, hk⟩
  | seq first second ihFirst ihSecond =>
    obtain ⟨m', hm', hsecond⟩ := ihFirst h
    obtain ⟨m'', hm'', hk⟩ := ihSecond hsecond
    exact ⟨m'', hm'.trans hm'' (fun c => by simp [takes]) (fun n => by simp [marks]), hk⟩
  | alt first second ihFirst ihSecond =>
    dsimp only [matchThen] at h
    split at h
    · next hfirst =>
      rw [h] at hfirst
      obtain ⟨m', hm', hk⟩ := ihFirst hfirst
      exact ⟨m', hm'.mono (fun c hc => by simp [takes, hc]) (by simp [marks]), hk⟩
    · obtain ⟨m', hm', hk⟩ := ihSecond h
      exact ⟨m', hm'.mono (fun c hc => by simp [takes, hc]) (by simp [marks]), hk⟩
  | star p ih => exact reaches_repeated ih h
  | group number p ih =>
    obtain ⟨m', hm', hk⟩ := ih h
    obtain ⟨kept, hgroups, hkept⟩ := hm'.groups
    let piece := m.rest.take (m.rest.length - m'.rest.length)
    refine ⟨{ m' with groups := (number, piece) :: m'.groups }, ⟨hm'.taken, ?_⟩, hk⟩
    refine ⟨(number, piece) :: kept, by rw [hgroups]; rfl, ?_⟩
    rw [List.forall_mem_cons]
    exact ⟨List.mem_cons_self, fun entry hentry => List.mem_cons_of_mem _ (hkept entry hentry)⟩
  | edge =>
    dsimp only [matchThen] at h
    split at h
    · exact ⟨m, .refl _ m, h⟩
    · cases h
  | finish =>
    dsimp only [matchThen] at h
    split at h
    · exact ⟨m, .refl _ m, h⟩
    · cases h

/-- A match takes one of the characters that its pattern starts with, or nothing. -/
lemma starts_or_skips (h : matchThen p m k = some a) :
    (∃ c rest, m.rest = c :: rest ∧ p.starts c = true) ∨
      p.skips = true ∧ ∃ m', m'.rest = m.rest ∧ k m' = some a := by
  induction p generalizing m k a with
  | empty => exact .inr ⟨rfl, m, rfl, h⟩
  | char p =>
    obtain ⟨c, m', hrest, hc, -, -⟩ := reaches_char h
    exact .inl ⟨c, m'.rest, hrest, hc⟩
  | run p =>
    obtain ⟨taken, m', hrest, htaken, -, hk⟩ := reaches_run h
    cases taken with
    | nil => exact .inr ⟨rfl, m', hrest.symm, hk⟩
    | cons c taken => exact .inl ⟨c, taken ++ m'.rest, hrest, List.all_eq_true.mp htaken c List.mem_cons_self⟩
  | shortRun p =>
    obtain ⟨taken, m', hrest, htaken, -, hk⟩ := reaches_shortRun h
    cases taken with
    | nil => exact .inr ⟨rfl, m', hrest.symm, hk⟩
    | cons c taken => exact .inl ⟨c, taken ++ m'.rest, hrest, List.all_eq_true.mp htaken c List.mem_cons_self⟩
  | seq first second ihFirst ihSecond =>
    rcases ihFirst h with ⟨c, rest, hrest, hc⟩ | ⟨hskips, m', hrest, hsecond⟩
    · exact .inl ⟨c, rest, hrest, by rw [starts, hc, Bool.true_or]⟩
    · rcases ihSecond hsecond with ⟨c, rest, hrest', hc⟩ | ⟨hskips', m'', hrest', hk⟩
      · exact .inl ⟨c, rest, hrest.symm.trans hrest', by rw [starts, hskips, hc, Bool.true_and, Bool.or_true]⟩
      · exact .inr ⟨by rw [skips, hskips, hskips']; rfl, m'', hrest'.trans hrest, hk⟩
  | alt first second ihFirst ihSecond =>
    dsimp only [matchThen] at h
    split at h
    · next hfirst =>
      rw [h] at hfirst
      rcases ihFirst hfirst with ⟨c, rest, hrest, hc⟩ | ⟨hskips, hk⟩
      · exact .inl ⟨c, rest, hrest, by rw [starts, hc, Bool.true_or]⟩
      · exact .inr ⟨by rw [skips, hskips, Bool.true_or], hk⟩
    · rcases ihSecond h with ⟨c, rest, hrest, hc⟩ | ⟨hskips, hk⟩
      · exact .inl ⟨c, rest, hrest, by rw [starts, hc, Bool.or_true]⟩
      · exact .inr ⟨by rw [skips, hskips, Bool.or_true], hk⟩
  | star p ih =>
    dsimp only [matchThen] at h
    cases hfuel : m.rest.length with
    | zero =>
      rw [hfuel] at h
      exact .inr ⟨rfl, m, rfl, h⟩
    | succ fuel =>
      rw [hfuel, repeated] at h
      split at h
      · next hmore =>
        rcases ih hmore with ⟨c, rest, hrest, hc⟩ | ⟨-, m', hrest, hk⟩
        · exact .inl ⟨c, rest, hrest, hc⟩
        · -- A repetition takes a character.
          rw [hrest, if_neg (Nat.lt_irrefl _)] at hk
          cases hk
      · exact .inr ⟨rfl, m, rfl, h⟩
  | group number p ih =>
    rcases ih h with hstarts | ⟨hskips, m', hrest, hk⟩
    · exact .inl hstarts
    · let piece := m.rest.take (m.rest.length - m'.rest.length)
      exact .inr ⟨hskips, { m' with groups := (number, piece) :: m'.groups }, hrest, hk⟩
  | edge =>
    dsimp only [matchThen] at h
    split at h
    · exact .inr ⟨rfl, m, rfl, h⟩
    · cases h
  | finish =>
    dsimp only [matchThen] at h
    split at h
    · exact .inr ⟨rfl, m, rfl, h⟩
    · cases h

/-- A pattern that takes something starts with one of its characters. -/
lemma exists_start (hp : p.skips = false) (h : matchThen p m k = some a) :
    ∃ c rest, m.rest = c :: rest ∧ p.starts c = true := by
  rcases starts_or_skips h with hstarts | ⟨hskips, -⟩
  · exact hstarts
  · rw [hp] at hskips
    cases hskips

lemma matchStart?_cons_eq_none (hp : p.skips = false) {c : Char} (hc : p.starts c = false)
    (t : Text) : p.matchStart? (c :: t) = none := by
  rw [Option.eq_none_iff_forall_ne_some]
  intro m hm
  have hmatch : matchThen p ⟨none, c :: t, []⟩ some = some m := hm
  obtain ⟨d, rest, hrest, hd⟩ := exists_start hp hmatch
  obtain rfl : c = d := (List.cons.inj hrest).1
  rw [hc] at hd
  cases hd

lemma reaches_lit {w : Text} (h : matchThen (lit w) m k = some a) :
    ∃ m', m.rest = w ++ m'.rest ∧ m'.groups = m.groups ∧ k m' = some a := by
  induction w generalizing m with
  | nil => exact ⟨m, rfl, rfl, h⟩
  | cons c w ih =>
    cases w with
    | nil =>
      obtain ⟨d, m', hrest, hd, hgroups, hk⟩ := reaches_char h
      obtain rfl : d = c := beq_iff_eq.mp hd
      exact ⟨m', hrest, hgroups, hk⟩
    | cons c' w =>
      have hcons : matchThen (char (· == c)) m (fun m' => matchThen (lit (c' :: w)) m' k) = some a := h
      obtain ⟨d, m', hrest, hd, hgroups, hmore⟩ := reaches_char hcons
      obtain rfl : d = c := beq_iff_eq.mp hd
      obtain ⟨m'', hrest', hgroups', hk⟩ := ih hmore
      exact ⟨m'', by rw [hrest, hrest']; rfl, hgroups'.trans hgroups, hk⟩

lemma reaches_opt (h : matchThen (opt p) m k = some a) : matchThen p m k = some a ∨ k m = some a := by
  dsimp only [opt, matchThen] at h
  split at h
  · next hsome =>
    rw [h] at hsome
    exact .inl hsome
  · exact .inr h

end

end Marginalia.Pattern
