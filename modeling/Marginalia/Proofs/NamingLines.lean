import Marginalia.Naming.Intent
import Marginalia.Naming.Known
import Marginalia.Proofs.Fields
import Marginalia.Proofs.OneLine

/-!
# What names tell is on one line

The words of an identifier are runs of letters and digits, so whatever a description takes from a name
is on one line; the rest of it comes from tables.
-/

namespace Marginalia

/-! Lower case. -/

lemma ofNat_ne_newline {n : Nat} (h : 10 < n) : Char.ofNat n ≠ '\n' := by
  intro heq
  have hnat : (Char.ofNat n).toNat = 10 := by rw [heq]; rfl
  by_cases hv : n.isValidChar
  · have hn : (Char.ofNat n).toNat = n := by
      unfold Char.ofNat
      rw [dif_pos hv]
      rfl
    omega
  · have hzero : Char.ofNat n = '\x00' := by
      unfold Char.ofNat
      rw [dif_neg hv]
      rfl
    rw [hzero] at heq
    exact absurd heq (by decide)

lemma toLower_image : ∀ entry ∈ CharTable.toLower, 10 < entry.2.2.2 := by decide +kernel

lemma lowerAscii_ne_newline {c : Char} (h : c ≠ '\n') : lowerAscii c ≠ '\n' := by
  rw [lowerAscii]
  split
  · rename_i hupper
    apply ofNat_ne_newline
    simp only [Bool.and_eq_true, decide_eq_true_eq] at hupper
    have hA : ('A' : Char).toNat = 65 := rfl
    have hle : ('A' : Char).toNat ≤ c.toNat := hupper.1
    omega
  · exact h

lemma oneLine_lowerChar {c : Char} (h : c ≠ '\n') : OneLine (lowerChar c) := by
  rw [lowerChar]
  split
  · simpa using lowerAscii_ne_newline h
  · split
    · decide
    · split
      · rename_i first _ _ image hfind
        have hmem := List.mem_of_find?_eq_some hfind
        have himage : 10 < image := toLower_image _ hmem
        simpa using ofNat_ne_newline (Nat.lt_add_right (c.toNat - first) himage)
      · simpa using h

lemma oneLine_lowerAfter {t : Text} (h : OneLine t) (passed : Text) :
    OneLine (Text.lowerAfter passed t) := by
  induction t generalizing passed with
  | nil => simp [Text.lowerAfter]
  | cons c rest ih =>
    rw [oneLine_cons] at h
    rw [Text.lowerAfter, oneLine_append]
    refine ⟨?_, ih h.2 _⟩
    split
    · split <;> decide
    · exact oneLine_lowerChar h.1

lemma OneLine.lower {t : Text} (h : OneLine t) : OneLine (Text.lower t) := oneLine_lowerAfter h []

/-! Words. -/

namespace Naming

lemma mem_humpsAfter (prev : Char) (t : Text) {c : Char} :
    (c ∈ (humpsAfter prev t).1 → c ∈ t) ∧
      ∀ word ∈ (humpsAfter prev t).2, c ∈ word → c ∈ t := by
  induction t generalizing prev with
  | nil => simp [humpsAfter]
  | cons d rest ih =>
    obtain ⟨hword, hwords⟩ := ih d
    rw [humpsAfter]
    by_cases hstart : startsWord prev d rest.head? = true
    · simp only [if_pos hstart, List.mem_cons, forall_eq_or_imp]
      exact ⟨nofun, fun hc => hc.imp_right hword, fun word hmem hc => .inr (hwords word hmem hc)⟩
    · simp only [if_neg hstart, List.mem_cons]
      exact ⟨fun hc => hc.imp_right hword, fun word hmem hc => .inr (hwords word hmem hc)⟩

lemma mem_humps {t word : Text} (h : word ∈ humps t) {c : Char} (hc : c ∈ word) : c ∈ t := by
  cases t with
  | nil => simp [humps] at h
  | cons d rest =>
    obtain ⟨hword, hwords⟩ := mem_humpsAfter d rest (c := c)
    simp only [humps, List.mem_cons] at h
    obtain rfl | h := h
    · exact List.mem_cons.mpr ((List.mem_cons.mp hc).imp_right hword)
    · exact List.mem_cons_of_mem _ (hwords word h hc)

/-- The words of an identifier are on one line, whatever the identifier is. -/
lemma oneLine_splitIdentifier {name word : Text} (h : word ∈ splitIdentifier name) :
    OneLine word := by
  simp only [splitIdentifier, List.mem_map, List.mem_flatMap] at h
  obtain ⟨hump, ⟨field, hfield, hhump⟩, rfl⟩ := h
  apply OneLine.lower
  intro hmem
  have hsep := Text.not_separator_of_mem_fields hfield (mem_humps hhump hmem)
  exact absurd hsep (by decide)

lemma mem_of_afterOpening {opening words rest : List Text} (h : afterOpening? opening words = some rest)
    {word : Text} (hw : word ∈ rest) : word ∈ words := by
  induction opening generalizing words with
  | nil =>
    obtain rfl : words = rest := by simpa [afterOpening?] using h
    exact hw
  | cons o opening ih =>
    cases words with
    | nil => simp [afterOpening?] at h
    | cons w words =>
      rw [afterOpening?] at h
      split at h
      · exact List.mem_cons_of_mem _ (ih h)
      · cases h

/-- Whether what a template says around its object is on one line. -/
def Template.OneLine : Template → Prop
  | .around before after => Marginalia.OneLine before ∧ Marginalia.OneLine after
  | .fixed text => Marginalia.OneLine text

instance (t : Template) : Decidable t.OneLine :=
  match t with
  | .around _ _ => inferInstanceAs (Decidable (_ ∧ _))
  | .fixed text => inferInstanceAs (Decidable (Marginalia.OneLine text))

lemma oneLine_fill {t : Template} (ht : t.OneLine) {object : Text} (ho : OneLine object) :
    OneLine (t.fill object) := by
  cases t with
  | around before after =>
    rw [Template.fill, oneLine_append, oneLine_append]
    exact ⟨⟨ht.1, ho⟩, ht.2⟩
  | fixed text => exact ht

lemma oneLine_openings : ∀ o ∈ openings, o.template.OneLine := by
  simp only [openings, List.forall_mem_cons, Template.OneLine]
  and_intros
  all_goals first | exact oneLine_literal (by decide) | exact List.forall_mem_nil _

lemma oneLine_defaultObject (i : Intent) : OneLine i.defaultObject := by
  cases i <;> exact oneLine_literal (by decide)

lemma oneLine_keywords : ∀ entry ∈ keywords, OneLine entry.2.2 := by
  simp only [keywords, List.forall_mem_cons]
  and_intros
  all_goals first | exact oneLine_literal (by decide) | exact List.forall_mem_nil _

/-- A description by the words of a name is on one line. -/
lemma oneLine_classify {name : Text} {found : Classification} (h : classify? name = some found) :
    OneLine found.description := by
  rw [classify?, classifyWords?] at h
  cases ho : opening? (splitIdentifier name) with
  | some pair =>
    obtain ⟨o, object⟩ := pair
    rw [ho] at h
    obtain rfl := Option.some.inj h
    apply OneLine.trimEnd
    obtain ⟨o', hmem, hfits⟩ := List.exists_of_findSome?_eq_some ho
    obtain ⟨rest, hrest, hpair⟩ := Option.map_eq_some_iff.mp hfits
    obtain ⟨rfl, rfl⟩ : o' = o ∧ Text.join " " rest = object := by simpa using hpair
    have hobject : OneLine (Text.join " " rest) := by
      rw [Text.oneLine_join (by decide)]
      intro word hword
      exact oneLine_splitIdentifier (mem_of_afterOpening hrest hword)
    apply oneLine_fill (oneLine_openings o' hmem)
    split
    · exact oneLine_defaultObject o'.intent
    · exact hobject
  | none =>
    rw [ho] at h
    obtain ⟨⟨hints, intent, description⟩, hfind, rfl⟩ := Option.map_eq_some_iff.mp h
    exact oneLine_keywords _ (List.mem_of_find?_eq_some hfind)

lemma mem_of_lookup {table : List (Text × Text)} {name text : Text}
    (h : table.lookup name = some text) : (name, text) ∈ table := by
  rw [List.lookup_eq_some_iff] at h
  obtain ⟨before, after, rfl, -⟩ := h
  simp

lemma oneLine_specialName {l : Language} {name text : Text} (h : specialName? l name = some text) :
    OneLine text := by
  have htable : ∀ entry ∈ specialNames l, OneLine entry.2 := by
    cases l <;> simp only [specialNames, pythonNames, javascriptNames, cNames, List.forall_mem_cons]
    all_goals and_intros
    all_goals first | exact oneLine_literal (by decide) | exact List.forall_mem_nil _
  exact htable _ (mem_of_lookup h)

lemma oneLine_classRole {name role : Text} (h : classRole? name = some role) : OneLine role := by
  have htable : ∀ entry ∈ classRoles, OneLine entry.2 := by decide
  obtain ⟨entry, hfind, rfl⟩ := Option.map_eq_some_iff.mp h
  exact htable entry (List.mem_of_find?_eq_some hfind)

end Naming
end Marginalia
