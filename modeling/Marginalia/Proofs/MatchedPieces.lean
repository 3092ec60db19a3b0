import Marginalia.Proofs.Pieces
import Marginalia.Text.Pattern

/-!
# Pieces that patterns match

However a pattern matches a text, it goes through the text from the front. So what is left of the
text is an end of it, and each group keeps a piece of it.
-/

namespace Marginalia

/-- A match that stands in a text: its rest is an end of the text and its groups are pieces of it. -/
structure Matching.Within (t : Text) (m : Matching) : Prop where
  rest : m.rest <:+ t
  groups : ∀ entry ∈ m.groups, entry.2 <:+: t

namespace Pattern

variable {α : Type} {t : Text}

lemma longest_within {p : Char → Bool} {prev : Option Char} {groups : List (Nat × Text)}
    {k : Matching → Option α} {rest : Text} {a : α} (hm : Matching.Within t ⟨prev, rest, groups⟩)
    (h : longest p prev groups k rest = some a) : ∃ m, m.Within t ∧ k m = some a := by
  induction rest generalizing prev with
  | nil => exact ⟨_, hm, h⟩
  | cons c rest ih =>
    rw [longest] at h
    split at h
    · have hrest : Matching.Within t ⟨some c, rest, groups⟩ :=
        ⟨(List.suffix_cons c rest).trans hm.rest, hm.groups⟩
      split at h
      · next hlonger =>
        rw [h] at hlonger
        exact ih hrest hlonger
      · exact ⟨_, hm, h⟩
    · exact ⟨_, hm, h⟩

lemma shortest_within {p : Char → Bool} {prev : Option Char} {groups : List (Nat × Text)}
    {k : Matching → Option α} {rest : Text} {a : α} (hm : Matching.Within t ⟨prev, rest, groups⟩)
    (h : shortest p prev groups k rest = some a) : ∃ m, m.Within t ∧ k m = some a := by
  induction rest generalizing prev with
  | nil => exact ⟨_, hm, h⟩
  | cons c rest ih =>
    rw [shortest] at h
    split at h
    · next hhere =>
      rw [h] at hhere
      exact ⟨_, hm, hhere⟩
    · split at h
      · exact ih ⟨(List.suffix_cons c rest).trans hm.rest, hm.groups⟩ h
      · cases h

lemma repeated_within {body : Matching → (Matching → Option α) → Option α}
    (hbody : ∀ {m : Matching} {k : Matching → Option α} {a : α}, m.Within t →
      body m k = some a → ∃ m', m'.Within t ∧ k m' = some a)
    {k : Matching → Option α} {fuel : Nat} {m : Matching} {a : α} (hm : m.Within t)
    (h : repeated body k fuel m = some a) : ∃ m', m'.Within t ∧ k m' = some a := by
  induction fuel generalizing m a with
  | zero => exact ⟨m, hm, h⟩
  | succ fuel ih =>
    rw [repeated] at h
    split at h
    · next hmore =>
      rw [h] at hmore
      obtain ⟨m', hm', hk⟩ := hbody hm hmore
      split at hk
      · exact ih hm' hk
      · cases hk
    · exact ⟨m, hm, h⟩

/-- A match goes on from a place in the text that it started in. -/
lemma matchThen_within {p : Pattern} {m : Matching} {k : Matching → Option α} {a : α}
    (hm : m.Within t) (h : matchThen p m k = some a) : ∃ m', m'.Within t ∧ k m' = some a := by
  -- What follows varies too: the first part of a sequence is followed by the second.
  induction p generalizing m k a with
  | empty => exact ⟨m, hm, h⟩
  | char p =>
    rw [matchThen] at h
    split at h
    · cases h
    · next c rest hrest =>
      split at h
      · have hsuffix := hm.rest
        rw [hrest] at hsuffix
        exact ⟨m.step c rest, ⟨(List.suffix_cons c rest).trans hsuffix, hm.groups⟩, h⟩
      · cases h
  | run p => exact longest_within hm h
  | shortRun p => exact shortest_within hm h
  | seq first second ihFirst ihSecond =>
    obtain ⟨m', hm', hk⟩ := ihFirst hm h
    exact ihSecond hm' hk
  | alt first second ihFirst ihSecond =>
    rw [matchThen] at h
    split at h
    · next hfirst =>
      rw [h] at hfirst
      exact ihFirst hm hfirst
    · exact ihSecond hm h
  | star p ih => exact repeated_within ih hm h
  | group number p ih =>
    obtain ⟨m', hm', hk⟩ := ih hm h
    -- The group keeps what was taken from its start to its end.
    let piece := m.rest.take (m.rest.length - m'.rest.length)
    refine ⟨{ m' with groups := (number, piece) :: m'.groups }, ⟨hm'.rest, ?_⟩, hk⟩
    intro entry hentry
    rcases List.mem_cons.mp hentry with rfl | hentry
    · exact (List.take_prefix _ _).isInfix.trans hm.rest.isInfix
    · exact hm'.groups entry hentry
  | edge =>
    rw [matchThen] at h
    split at h
    · exact ⟨m, hm, h⟩
    · cases h
  | finish =>
    rw [matchThen] at h
    split at h
    · exact ⟨m, hm, h⟩
    · cases h

lemma matchAt_within {p : Pattern} {prev : Option Char} {m : Matching}
    (h : p.matchAt prev t = some m) : m.Within t := by
  have hstart : Matching.Within t ⟨prev, t, []⟩ := ⟨List.suffix_rfl, List.forall_mem_nil _⟩
  obtain ⟨m', hm', hk⟩ := matchThen_within hstart h
  exact Option.some.inj hk ▸ hm'

lemma findFrom?_within {p : Pattern} {prev : Option Char} {before : Text} {m : Matching}
    (h : p.findFrom? prev t = some (before, m)) : m.Within t := by
  induction t generalizing prev before with
  | nil =>
    obtain ⟨m', hm', heq⟩ := Option.map_eq_some_iff.mp h
    obtain ⟨-, rfl⟩ := Prod.mk.inj heq
    exact matchAt_within hm'
  | cons c rest ih =>
    rw [findFrom?] at h
    split at h
    · next hhere =>
      obtain ⟨-, rfl⟩ := Prod.mk.inj (Option.some.inj h)
      exact matchAt_within hhere
    · obtain ⟨⟨before', m'⟩, hm', heq⟩ := Option.map_eq_some_iff.mp h
      obtain ⟨-, rfl⟩ := Prod.mk.inj heq
      have hwithin := ih hm'
      exact ⟨hwithin.rest.trans (List.suffix_cons c rest), fun entry hentry =>
        (hwithin.groups entry hentry).trans (List.suffix_cons c rest).isInfix⟩

end Pattern

namespace Matching.Within

variable {t : Text} {m : Matching}

lemma group?_isInfix (h : m.Within t) {number : Nat} {piece : Text}
    (hpiece : m.group? number = some piece) : piece <:+: t := by
  obtain ⟨before, behind, hgroups, -⟩ := List.lookup_eq_some_iff.mp hpiece
  exact h.groups (number, piece) (by simp [hgroups])

lemma group_isInfix (h : m.Within t) (number : Nat) : m.group number <:+: t := by
  unfold Matching.group
  cases hpiece : m.group? number with
  | none => exact List.nil_infix
  | some piece => exact h.group?_isInfix hpiece

end Matching.Within

end Marginalia
