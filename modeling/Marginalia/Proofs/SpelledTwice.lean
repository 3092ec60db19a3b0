import Marginalia.Proofs.DecodedEntities
import Marginalia.Proofs.HonestReport
import Marginalia.Proofs.SpelledLines

/-!
# Spelling twice

No correction shares a character with a misspelling, an entity or its name, so none makes a
misspelling, or something to decode, out of itself and the text around it. Spelling is therefore done
after one run.
-/

namespace Marginalia

open Text

namespace Repair

/-- The misspellings as marks, and what is put for them. -/
def typoMarks : List (Mark × Text) := typos.map fun typo => (.word typo.1, typo.2)

lemma settled_typoMarks : Settled typoMarks := by decide +kernel

lemma mem_typoMarks {typo : Text × Text} (h : typo ∈ typos) :
    (.word typo.1, typo.2) ∈ typoMarks := List.mem_map_of_mem h

lemma spell_eq (t : Text) : spell t = (decodeEntities t).exchangeAll typoMarks := by
  rw [spell, exchangeAll, typoMarks, List.foldl_map]
  simp only [Rule.word_eq_mark]

/-- What a correction has to do with entities: it shares no character with one, and a misspelling
none with a name. -/
lemma entities_apart {typo : Text × Text} (htypo : typo ∈ typos) :
    ∀ pair ∈ entities, Mark.Apart ⟨typo.2, true, true⟩ (.anywhere pair.1) ∧
      Mark.fits (.word typo.1) (.anywhere (entityName pair)) = false ∧
      Mark.overlaps (.anywhere (entityName pair)) (.word typo.1) = false := by
  have htable : ∀ typo ∈ typos, ∀ pair ∈ entities,
      Mark.Apart ⟨typo.2, true, true⟩ (.anywhere pair.1) ∧
      Mark.fits (.word typo.1) (.anywhere (entityName pair)) = false ∧
      Mark.overlaps (.anywhere (entityName pair)) (.word typo.1) = false := by decide +kernel
  exact htable typo htypo

section

variable {t out : Text}

/-- A correction leaves nothing to decode where there was nothing. -/
lemma Decoded.substitute {typo : Text × Text} (htypo : typo ∈ typos) (h : Decoded t) :
    Decoded (t.substitute (.mark (.word typo.1) typo.2)) := by
  have halike := (settled_typoMarks _ (mem_typoMarks htypo)).1
  intro pair hmem front rest hout
  obtain ⟨front', rest', rest'', rfl, hrest, -, -, hbehind⟩ :=
    (substituted_mark halike t).stood halike (entities_apart htypo pair hmem).1
      (by rw [entity_eq hmem]; exact List.cons_ne_nil _ _) rfl hout
      (Mark.standsAt_iff.mpr ⟨rest, rfl, nofun, nofun⟩)
  obtain rfl := List.append_cancel_left hrest
  obtain ⟨hamp, hcompletes⟩ := h pair hmem front' rest' rfl
  refine ⟨hamp, ?_⟩
  -- The name behind the ampersand is kept.
  obtain ⟨other, hother, more, rfl⟩ := completesEntity_iff.mp hcompletes
  obtain ⟨-, hfits, hinside⟩ := entities_apart htypo other hother
  obtain ⟨more', rfl⟩ := hbehind.exists_kept_piece hfits hinside
  exact completesEntity_iff.mpr ⟨other, hother, more', rfl⟩

lemma decoded_spell (t : Text) : Decoded (spell t) := by
  have hfold : ∀ (fixes : List (Text × Text)) (t : Text), (∀ typo ∈ fixes, typo ∈ typos) →
      Decoded t → Decoded (t.exchangeAll (fixes.map fun typo => (.word typo.1, typo.2))) := by
    intro fixes
    induction fixes with
    | nil => exact fun _ _ ht => ht
    | cons typo fixes ih =>
      intro t hfixes ht
      obtain ⟨htypo, hfixes⟩ := List.forall_mem_cons.mp hfixes
      exact ih _ hfixes (ht.substitute htypo)
  rw [spell_eq]
  exact hfold typos _ (fun _ hmem => hmem) (decoded_decodeEntities t)

lemma spell_spell (t : Text) : spell (spell t) = spell t := by
  rw [spell_eq (spell t), (decoded_spell t).decodeEntities_eq, spell_eq]
  exact settled_typoMarks.exchangeAll_exchangeAll _

end

/-- What spelling looks for: misspelt words, and entities wherever they stand. -/
def spellingMarks : List Mark :=
  (typos.map fun typo => .word typo.1) ++ entities.map fun pair => .anywhere pair.1

lemma apart_spellingMarks {typo : Text × Text} (htypo : typo ∈ typos) {m : Mark}
    (hm : m ∈ spellingMarks) : Mark.Apart ⟨typo.2, true, true⟩ m ∧ m.text ≠ [] := by
  obtain ⟨halike, hapart⟩ := settled_typoMarks _ (mem_typoMarks htypo)
  rcases List.mem_append.mp hm with hm | hm
  · obtain ⟨other, hother, rfl⟩ := List.mem_map.mp hm
    have hmem := mem_typoMarks hother
    exact ⟨hapart _ hmem, (settled_typoMarks _ hmem).1.1.1⟩
  · obtain ⟨pair, hpair, rfl⟩ := List.mem_map.mp hm
    refine ⟨(entities_apart htypo pair hpair).1, ?_⟩
    show pair.1 ≠ []
    rw [entity_eq hpair]
    exact List.cons_ne_nil _ _

/-- Spelling a second time does nothing, and neither does decoding: the entities that are left in
decoded text are ampersands before what would complete one. A correction makes no misspelling and no
entity: one that stands in the corrected text stood there before, and is not the one corrected. -/
theorem spelling_twice (text : Text) :
    spelling (spelling text).text = ⟨(spelling text).text, []⟩ ∧
    decodeEntities (decodeEntities text) = decodeEntities text ∧
    Decoded (decodeEntities text) ∧
    ∀ typo ∈ typos, ∀ m ∈ spellingMarks, ∀ front rest,
      m.StandsIn (text.substitute (.word typo.1 typo.2)) front rest →
      m ≠ .word typo.1 ∧ ∃ front' rest', m.StandsIn text front' rest' ∧
        rest = substituteFrom (.word typo.1 typo.2) (placeBehind (front' ++ m.text)) 0 rest' := by
  have htext : (spelling (spelling text).text).text = (spelling text).text := by
    rw [spelling_text, spelling_text, spell_spell]
  have hchanges : (spelling (spelling text).text).changes = [] :=
    not_not.mp fun hne => (spelling_altered_iff _).mpr hne htext
  have hdecoded := decoded_decodeEntities text
  refine ⟨Outcome.eq_unchanged_iff.mpr ⟨htext, hchanges⟩, hdecoded.decodeEntities_eq, hdecoded, ?_⟩
  intro typo htypo m hm front rest hstands
  obtain ⟨hapart, hne⟩ := apart_spellingMarks htypo hm
  rw [Rule.word_eq_mark] at hstands ⊢
  exact exists_standsIn (settled_typoMarks _ (mem_typoMarks htypo)).1 hapart hne hstands

end Repair
end Marginalia
