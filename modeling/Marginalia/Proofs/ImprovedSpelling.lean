import Marginalia.Proofs.Substituted
import Marginalia.Repair.Spelling

/-!
# Spelling improves texts

An entity weighs far less than what it stands for, because of its semicolon. A misspelt word weighs
less than its correction or has more bad pairs.
-/

namespace Marginalia.Repair

open Text

lemma entityRule_eq (b : Before) (t : Text) : entityRule b t =
    (entities.find? fun pair => t.startsWith pair.1).bind fun pair =>
      if pair.2 == "&" && completesEntity (t.drop pair.1.length) then none
      else some (pair.1.length, pair.2) := by
  unfold entityRule
  split
  · next entity plain hfound =>
    have hpair : (entities.find? fun pair => t.startsWith pair.1) = some (entity, plain) := hfound
    rw [hpair]
    rfl
  · next hfound =>
    have hnone : (entities.find? fun pair => t.startsWith pair.1) = none := hfound
    rw [hnone]
    rfl

lemma exists_entity {b : Before} {t new : Text} {n : Nat} (h : entityRule b t = some (n, new)) :
    ∃ pair ∈ entities, t.startsWith pair.1 = true ∧ n = pair.1.length ∧ new = pair.2 := by
  rw [entityRule_eq] at h
  obtain ⟨pair, hpair, hplain⟩ := Option.bind_eq_some_iff.mp h
  split at hplain
  · cases hplain
  · obtain ⟨rfl, rfl⟩ := Prod.mk.inj (Option.some.inj hplain)
    have hstarts := List.find?_some hpair
    exact ⟨pair, List.mem_of_find?_eq_some hpair, hstarts, rfl, rfl⟩

lemma gains_entityRule : Rule.Gains entityRule := by
  intro b t n new hr
  obtain ⟨entity, hentity, hstarts, rfl, rfl⟩ := exists_entity hr
  obtain ⟨rest, rfl⟩ := (startsWith_iff t entity.1).mp hstarts
  have htable : ∀ pair ∈ entities, pair.1 ≠ [] ∧ weight pair.1 < weight pair.2 := by decide
  obtain ⟨hne, hlt⟩ := htable entity hentity
  exact ⟨entity.1, rest, rfl, rfl, hne, .inr hlt⟩

lemma decodeEntities_improved (t : Text) : Improved t (decodeEntities t) := by
  rcases (substituted_substitute gains_entityRule.takes t).of_gains gains_entityRule with heq | hlt
  · exact .inl heq
  · exact .of_weight hlt

lemma eq_of_word {old new : Text} {b : Before} {t : Text} {n : Nat} {put : Text}
    (h : Rule.word old new b t = some (n, put)) :
    ∃ rest, t = old ++ rest ∧ n = old.length ∧ put = new ∧ continuesWord rest = false := by
  rw [Rule.word] at h
  split at h
  · next hc =>
    obtain ⟨rfl, rfl⟩ := Prod.mk.inj (Option.some.inj h)
    simp only [Bool.and_eq_true, Bool.not_eq_true'] at hc
    obtain ⟨rest, rfl⟩ := (startsWith_iff t old).mp hc.1.2
    rw [List.drop_left] at hc
    exact ⟨rest, rfl, rfl, rfl, hc.2⟩
  · cases h

lemma tidies_word {old new : Text} (h : tidies old new = true) : (Rule.word old new).Tidies := by
  intro b t n put hr
  obtain ⟨rest, ht, hn, rfl, hstop⟩ := eq_of_word hr
  exact ⟨old, rest, ht, hn, h, .inr hstop⟩

lemma gains_word {old new : Text} (hne : old ≠ []) (h : weight old < weight new) :
    (Rule.word old new).Gains := by
  intro b t n put hr
  obtain ⟨rest, ht, hn, rfl, -⟩ := eq_of_word hr
  exact ⟨old, rest, ht, hn, hne, .inr h⟩

lemma correct_improved {o : Outcome} {typo : Text × Text} (h : typo ∈ typos) :
    Improved o.text (correct o typo).text := by
  have htable : ∀ typo ∈ typos, tidies typo.1 typo.2 = true ∨
      typo.1 ≠ [] ∧ weight typo.1 < weight typo.2 := by decide
  rw [correct]
  cases hs : o.text.substitute? (.word typo.1 typo.2) with
  | none => exact .refl _
  | some text =>
    rcases htable typo h with htidy | ⟨hne, hlt⟩
    · obtain ⟨hweight, hbad⟩ := (tidies_word htidy).substitute? hs
      exact .inr (.inr ⟨hweight, .inl (hbad none)⟩)
    · exact .of_weight ((gains_word hne hlt).substitute? hs)

lemma spelling_improved (t : Text) : Improved t (spelling t).text := by
  have hfold : ∀ (table : List (Text × Text)) (o : Outcome), (∀ typo ∈ table, typo ∈ typos) →
      Improved o.text (table.foldl correct o).text := by
    intro table
    induction table with
    | nil => exact fun o _ => .refl _
    | cons typo rest ih =>
      intro o hmem
      exact (correct_improved (hmem typo List.mem_cons_self)).trans
        (ih _ fun typo htypo => hmem typo (List.mem_cons_of_mem _ htypo))
  unfold spelling
  generalize ht : typos = table at hfold ⊢
  have hrest := hfold table
    ⟨decodeEntities t, if decodeEntities t = t then [] else [.entities]⟩ fun _ h => h
  exact (decodeEntities_improved t).trans hrest

end Marginalia.Repair
