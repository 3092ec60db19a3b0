import Marginalia.Proofs.Completions
import Marginalia.Proofs.Fields
import Marginalia.Proofs.NestedCalls

/-!
# Occurrences of words

A word occurs in a text where it stands between characters that are no word characters, or at a
margin. The searches that go through all places of a text, and the search for a word among the words
of a text, are described by occurrences.
-/

namespace Marginalia.Repair

open Text

/-- A run of word characters. -/
def IsWord (word : Text) : Prop := word ≠ [] ∧ word.all isWordChar = true

/-- A place where a word occurs in a text: what stands before it and what follows it. -/
structure OccursAt (word t front after : Text) : Prop where
  split : t = front ++ (word ++ after)
  fresh : isFresh (lastOf none front) = true
  ends : continuesWord after = false

variable {word t front after : Text}

lemma IsName.isWord (h : IsName word) : IsWord word := by
  obtain ⟨c, tail, rfl, hc, htail⟩ := h
  exact ⟨List.cons_ne_nil c tail, by rw [List.all_cons, isWordChar_of_isNameStart hc, htail]; rfl⟩

lemma IsWord.eq_cons (h : IsWord word) :
    ∃ c tail, word = c :: tail ∧ isBlank c = false ∧ isWordChar c = true := by
  obtain ⟨c, tail, rfl⟩ := List.exists_cons_of_ne_nil h.1
  have hc := List.all_eq_true.mp h.2 c List.mem_cons_self
  exact ⟨c, tail, rfl, isBlank_of_isWordChar hc, hc⟩

lemma IsWord.not_mem (h : IsWord word) {c : Char} (hc : isWordChar c = false) : c ∉ word := by
  intro hmem
  rw [List.all_eq_true.mp h.2 c hmem] at hc
  cases hc

/-! ## Places -/

lemma anyPlace_iff {p : Option Char → Text → Bool} {prev : Option Char} :
    anyPlace p prev t = true ↔
      ∃ front rest, t = front ++ rest ∧ rest ≠ [] ∧ p (lastOf prev front) rest = true := by
  induction t generalizing prev with
  | nil =>
    refine ⟨nofun, ?_⟩
    rintro ⟨front, rest, ht, hrest, -⟩
    exact absurd (List.append_eq_nil_iff.mp ht.symm).2 hrest
  | cons c t ih =>
    rw [anyPlace, Bool.or_eq_true, ih]
    constructor
    · rintro (hhere | ⟨front, rest, rfl, hrest, hp⟩)
      · exact ⟨[], c :: t, rfl, List.cons_ne_nil c t, hhere⟩
      · exact ⟨c :: front, rest, rfl, hrest, by rwa [lastOf_cons]⟩
    · rintro ⟨front, rest, ht, hrest, hp⟩
      cases front with
      | nil =>
        obtain rfl : c :: t = rest := ht
        exact .inl hp
      | cons d front =>
        obtain ⟨rfl, rfl⟩ := List.cons.inj ht
        rw [lastOf_cons] at hp
        exact .inr ⟨front, rest, rfl, hrest, hp⟩

/-- Behind a character that belongs to no word, and blanks, a word starts as a whole. -/
lemma isFresh_behind {c : Char} {gap : Text} (hc : isWordChar c = false)
    (hgap : gap.isAllBlank = true) (prev : Option Char) (lead : Text) :
    isFresh (lastOf prev (lead ++ c :: gap)) = true := by
  have hall : ∀ d ∈ c :: gap, isWordChar d = false := by
    intro d hd
    obtain rfl | hd := List.mem_cons.mp hd
    · exact hc
    · exact isWordChar_of_isBlank (List.all_eq_true.mp hgap d hd)
  have hlast := hall _ (List.getLast_mem (List.cons_ne_nil c gap))
  rw [lastOf_append, lastOf_of_ne_nil _ (List.cons_ne_nil c gap),
    List.getLast?_eq_some_getLast (List.cons_ne_nil c gap)]
  simp [isFresh, hlast]

/-! ## The words of a text -/

section

variable {p : Char → Bool}

/-- Whether a run of characters that are no separators is a field of a text. -/
def IsField (p : Char → Bool) (field t : Text) : Prop :=
  ∃ front after, t = front ++ (field ++ after) ∧ (∀ c ∈ front.getLast?, p c = true) ∧
    ∀ c ∈ after.head?, p c = true

variable {field : Text}

lemma isField_separator {c : Char} (hc : p c = true) (hne : field ≠ [])
    (hfield : ∀ c ∈ field, p c = false) {t : Text} :
    IsField p field (c :: t) ↔ IsField p field t := by
  constructor
  · rintro ⟨front, after, ht, hfront, hafter⟩
    cases front with
    | nil =>
      obtain ⟨d, field, rfl⟩ := List.exists_cons_of_ne_nil hne
      obtain ⟨rfl, -⟩ := List.cons.inj ht
      rw [hfield c List.mem_cons_self] at hc
      cases hc
    | cons d front =>
      obtain ⟨rfl, rfl⟩ := List.cons.inj ht
      refine ⟨front, after, rfl, fun e he => hfront e ?_, hafter⟩
      rw [List.getLast?_cons, Option.mem_def.mp he]
      rfl
  · rintro ⟨front, after, rfl, hfront, hafter⟩
    refine ⟨c :: front, after, rfl, fun e he => ?_, hafter⟩
    rw [List.getLast?_cons] at he
    cases hlast : front.getLast? with
    | none =>
      rw [hlast] at he
      obtain rfl : c = e := Option.some.inj he
      exact hc
    | some d =>
      rw [hlast] at he
      obtain rfl : d = e := Option.some.inj he
      exact hfront d hlast

lemma isField_run {run rest : Text} (hne : field ≠ []) (hfield : ∀ c ∈ field, p c = false)
    (hrun : ∀ c ∈ run, p c = false) (hrest : ∀ c ∈ rest.head?, p c = true) (hstart : run ≠ []) :
    IsField p field (run ++ rest) ↔ field = run ∨ IsField p field rest := by
  constructor
  · rintro ⟨front, after, h, hfront, hafter⟩
    obtain ⟨more, rfl, rfl⟩ | ⟨more, rfl, hmore⟩ := List.append_eq_append_iff.mp h
    · refine .inr ⟨more, after, rfl, fun c hc => hfront c ?_, hafter⟩
      rw [List.getLast?_append, Option.mem_def.mp hc]
      rfl
    · rcases List.eq_nil_or_concat' front with rfl | ⟨front, c, rfl⟩
      · exact .inl (run_eq hfield hafter hrun hrest hmore)
      · have hc := hfront c (by simp)
        rw [hrun c (by simp)] at hc
        cases hc
  · rintro (rfl | ⟨front, after, rfl, hfront, hafter⟩)
    · exact ⟨[], rest, rfl, nofun, hrest⟩
    · refine ⟨run ++ front, after, (List.append_assoc ..).symm, fun c hc => ?_, hafter⟩
      cases hlast : front.getLast? with
      | none =>
        obtain rfl := List.getLast?_eq_none_iff.mp hlast
        obtain ⟨d, field, rfl⟩ := List.exists_cons_of_ne_nil hne
        have hd := hrest d rfl
        rw [hfield d List.mem_cons_self] at hd
        cases hd
      | some d =>
        rw [List.getLast?_append, hlast] at hc
        obtain rfl : d = c := Option.some.inj hc
        exact hfront d hlast

/-- The fields of a text are its longest runs between separators. -/
lemma mem_fields_iff (hne : field ≠ []) (hfield : ∀ c ∈ field, p c = false) (t : Text) :
    field ∈ fields p t ↔ IsField p field t := by
  induction t using fields_induction (p := p) with
  | nil =>
    refine ⟨nofun, ?_⟩
    rintro ⟨front, after, ht, -⟩
    exact absurd (List.append_eq_nil_iff.mp (List.append_eq_nil_iff.mp ht.symm).2).1 hne
  | separator c t hc ih => rw [fields_separator hc, isField_separator hc hne hfield, ih]
  | run run rest hstart hrun hrest ih =>
    rw [fields_run hstart hrun hrest, List.mem_cons, isField_run hne hfield hrun hrest hstart, ih]

end

/-- A text has a word where the word occurs in it. -/
lemma hasWord_iff (h : IsWord word) :
    hasWord word t = true ↔ ∃ front after, OccursAt word t front after := by
  have hchars : ∀ c ∈ word, (! isWordChar c) = false := by
    simpa using List.all_eq_true.mp h.2
  rw [hasWord, List.contains_iff_mem, mem_fields_iff h.1 hchars]
  constructor
  · rintro ⟨front, after, ht, hfront, hafter⟩
    refine ⟨front, after, ht, ?_, ?_⟩
    · cases hlast : front.getLast? with
      | none => simp [lastOf, isFresh, hlast]
      | some c => simpa [lastOf, isFresh, hlast] using hfront c hlast
    · cases hhead : after.head? with
      | none => simp [continuesWord, hhead]
      | some c => simpa [continuesWord, hhead] using hafter c hhead
  · rintro ⟨front, after, ht, hfront, hafter⟩
    refine ⟨front, after, ht, fun c hc => ?_, fun c hc => ?_⟩
    · simpa [lastOf, isFresh, Option.mem_def.mp hc] using hfront
    · simpa [continuesWord, Option.mem_def.mp hc] using hafter

/-! ## Occurrences that can be counted -/

/-- Whether a word occurs in a text behind so many characters. -/
def occursBehind (word t : Text) (n : Nat) : Bool :=
  isFresh (lastOf none (t.take n)) && (after? word (t.drop n)).any (! continuesWord ·)

lemma OccursAt.occursBehind (h : OccursAt word t front after) :
    occursBehind word t front.length = true := by
  obtain ⟨rfl, hfresh, hends⟩ := h
  have hafter : after? word (word ++ after) = some after := (after?_eq_some_iff _ _ _).mpr rfl
  simp [Repair.occursBehind, hfresh, hends, hafter]

/-- A word that occurs once in a text occurs where it was found. -/
lemma OccursAt.eq_of_only (h : OccursAt word t front after) {n : Nat}
    (honly : ∀ m ≤ t.length, Repair.occursBehind word t m = true → m = n) :
    front = t.take n ∧ after = t.drop (n + word.length) := by
  have hplace := h.occursBehind
  obtain ⟨rfl, -, -⟩ := h
  rw [← honly front.length (by simp) hplace]
  exact ⟨by simp, by simp⟩

end Marginalia.Repair
