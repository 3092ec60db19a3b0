import Mathlib.Tactic.Lemma
import Marginalia.Braced.Scanner

/-!
# What may be found

A line of code is classified by trying readings in order. A property of everything that can be found
is proved reading by reading, with one lemma for each way in which readings are put together.
-/

namespace Marginalia.Braced

open Text

/-- What is found, if anything is, has a property. -/
def Finds (p : Classified → Prop) (found : Option Classified) : Prop := ∀ c ∈ found, p c

section

variable {p : Classified → Prop} {form : Pattern} {code : Text}

lemma finds_none : Finds p none := by rintro _ ⟨⟩

@[simp] lemma finds_some_iff {c : Classified} : Finds p (some c) ↔ p c := by
  simp [Finds]

lemma finds_some {c : Classified} (h : p c) : Finds p (some c) := finds_some_iff.mpr h

lemma finds_ite {holds : Prop} [Decidable holds] {found found' : Option Classified}
    (h : Finds p found) (h' : Finds p found') : Finds p (if holds then found else found') := by
  split
  · exact h
  · exact h'

lemma finds_cases {holds : Prop} [Decidable holds] {found found' : Option Classified}
    (h : holds → Finds p found) (h' : Finds p found') :
    Finds p (if holds then found else found') := by
  split
  · next hholds => exact h hholds
  · exact h'

lemma finds_or {found found' : Option Classified} (h : Finds p found) (h' : Finds p found') :
    Finds p (found.or found') := by
  intro c hc
  rcases Option.or_eq_some_iff.mp hc with hfound | ⟨-, hfound⟩
  · exact h c hfound
  · exact h' c hfound

lemma finds_guard {holds : Prop} [Decidable holds] {found : Option Classified}
    (h : holds → Finds p found) : Finds p (if holds then found else none) := by
  split
  · next hholds => exact h hholds
  · exact finds_none

lemma finds_firstOf {readings : List (Unit → Option Classified)}
    (h : ∀ reading ∈ readings, Finds p (reading ())) : Finds p (firstOf readings) := by
  intro c hc
  obtain ⟨reading, hreading, hc⟩ := List.exists_of_findSome?_eq_some hc
  exact h reading hreading c hc

lemma finds_map {α : Type} {o : Option α} {found : α → Classified} (h : ∀ m ∈ o, p (found m)) :
    Finds p (o.map found) := by
  intro c hc
  obtain ⟨m, hm, rfl⟩ := Option.map_eq_some_iff.mp hc
  exact h m hm

lemma finds_bind {α : Type} {o : Option α} {found : α → Option Classified}
    (h : ∀ m ∈ o, Finds p (found m)) : Finds p (o.bind found) := by
  intro c hc
  obtain ⟨m, hm, hc⟩ := Option.bind_eq_some_iff.mp hc
  exact h m hm c hc

end

/-- A for loop counts or goes over something. -/
lemma forHeader_cases (header : Text) : forHeader header = .countingLoop (trim header) ∨
    ∃ target iterable, forHeader header = .forLoop target iterable false := by
  unfold forHeader
  dsimp only
  split
  · exact .inl rfl
  · split
    · next target iterable _ => exact .inr ⟨_, _, rfl⟩
    · split
      · next target tail _ =>
        split
        · exact .inl rfl
        · exact .inr ⟨_, _, rfl⟩
      · exact .inl rfl

end Marginalia.Braced
