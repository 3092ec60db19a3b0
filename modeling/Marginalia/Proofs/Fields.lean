import Mathlib.Tactic.Lemma
import Mathlib.Data.List.Basic
import Mathlib.Data.List.TakeWhile
import Marginalia.Text.Words

/-!
# Fields of a text

A text is a sequence of separators and of runs without separators. Its fields are the runs, and what
holds of fields is proved along this sequence.
-/

namespace Marginalia.Text

variable {p : Char → Bool}

/-- A text that starts with no separator starts with a run of others, up to a separator or its
end. -/
lemma exists_run {c : Char} (hc : p c = false) (t : Text) : ∃ run rest, c :: t = run ++ rest ∧
    run ≠ [] ∧ (∀ d ∈ run, p d = false) ∧ ∀ d ∈ rest.head?, p d = true := by
  refine ⟨c :: t.takeWhile (! p ·), t.dropWhile (! p ·), ?_, List.cons_ne_nil _ _, ?_, ?_⟩
  · rw [List.cons_append, List.takeWhile_append_dropWhile]
  · intro d hd
    obtain rfl | hd := List.mem_cons.mp hd
    · exact hc
    · simpa using List.mem_takeWhile_imp hd
  · intro d hd
    have hhead := List.head?_dropWhile_not (! p ·) t
    rw [Option.mem_def.mp hd] at hhead
    simpa using hhead

/-- A text splits in one way into a run and what starts with a separator. -/
lemma run_eq {run rest run' rest' : Text} (hrun : ∀ c ∈ run, p c = false)
    (hrest : ∀ c ∈ rest.head?, p c = true) (hrun' : ∀ c ∈ run', p c = false)
    (hrest' : ∀ c ∈ rest'.head?, p c = true) (h : run ++ rest = run' ++ rest') : run = run' := by
  have htake : ∀ run rest : Text, (∀ c ∈ run, p c = false) → (∀ c ∈ rest.head?, p c = true) →
      (run ++ rest).takeWhile (! p ·) = run := by
    intro run rest hrun hrest
    have hstop : rest.takeWhile (! p ·) = [] := by
      cases rest with
      | nil => rfl
      | cons c rest => simp [hrest c rfl]
    rw [List.takeWhile_append_of_pos (by simpa using hrun), hstop, List.append_nil]
  rw [← htake run rest hrun hrest, h, htake run' rest' hrun' hrest']

/-- A text splits in one way into a word and what does not continue it. -/
lemma word_unique {word word' rest rest' : Text} (hword : word.all isWordChar = true)
    (hrest : continuesWord rest = false) (hword' : word'.all isWordChar = true)
    (hrest' : continuesWord rest' = false) (h : word ++ rest = word' ++ rest') : word = word' := by
  have hhead : ∀ t : Text, continuesWord t = false → ∀ c ∈ t.head?, (! isWordChar c) = true := by
    intro t ht c hc
    simpa [continuesWord, Option.mem_def.mp hc] using ht
  exact run_eq (p := fun c => ! isWordChar c) (by simpa using hword) (hhead _ hrest)
    (by simpa using hword') (hhead _ hrest') h

/-- A text is taken apart into separators and runs without separators, each of which ends at a
separator or with the text. -/
lemma fields_induction {motive : Text → Prop} (nil : motive [])
    (separator : ∀ c t, p c = true → motive t → motive (c :: t))
    (run : ∀ run rest, run ≠ [] → (∀ c ∈ run, p c = false) → (∀ c ∈ rest.head?, p c = true) →
      motive rest → motive (run ++ rest)) (t : Text) : motive t := by
  induction hn : t.length using Nat.strong_induction_on generalizing t with
  | h n ih =>
    subst hn
    cases t with
    | nil => exact nil
    | cons c t =>
      cases hc : p c with
      | true => exact separator c t hc (ih _ (Nat.lt_succ_self _) t rfl)
      | false =>
        obtain ⟨first, rest, ht, hne, hfirst, hrest⟩ := exists_run hc t
        have hlength : rest.length < (c :: t).length := by
          have hpos := List.length_pos_of_ne_nil hne
          rw [ht, List.length_append]
          omega
        rw [ht]
        exact run first rest hne hfirst hrest (ih _ hlength rest rfl)

lemma fields_separator {c : Char} (hc : p c = true) (t : Text) :
    fields p (c :: t) = fields p t := by
  cases t <;> simp [fields, hc]

/-- A run of characters that a separator follows is a field of its own. -/
lemma fields_run {run rest : Text} (hne : run ≠ []) (hrun : ∀ c ∈ run, p c = false)
    (hrest : ∀ c ∈ rest.head?, p c = true) : fields p (run ++ rest) = run :: fields p rest := by
  induction run with
  | nil => exact absurd rfl hne
  | cons c run ih =>
    have hc : ¬p c = true := by simp [hrun c List.mem_cons_self]
    cases run with
    | nil =>
      cases rest with
      | nil => simp [fields, hc]
      | cons d rest =>
        have hd : p d = true := hrest d rfl
        simp [fields, hc, hd]
    | cons d run =>
      have hd : ¬p d = true := by simp [hrun d (List.mem_cons_of_mem c List.mem_cons_self)]
      have hfirst := ih (List.cons_ne_nil d run) fun e he => hrun e (List.mem_cons_of_mem c he)
      rw [List.cons_append, List.cons_append, fields, if_neg hc, if_neg hd, ← List.cons_append,
        hfirst]

lemma not_separator_of_mem_fields {t field : Text} (h : field ∈ fields p t) {c : Char}
    (hc : c ∈ field) : p c = false := by
  induction t using fields_induction (p := p) with
  | nil => cases h
  | separator d t hd ih =>
    rw [fields_separator hd] at h
    exact ih h
  | run run rest hne hrun hrest ih =>
    rw [fields_run hne hrun hrest] at h
    obtain rfl | h := List.mem_cons.mp h
    · exact hrun c hc
    · exact ih h

/-- The fields hold all characters but the separators. -/
lemma flatten_fields (t : Text) : (fields p t).flatten = t.filter (! p ·) := by
  induction t using fields_induction (p := p) with
  | nil => rfl
  | separator c t hc ih => simp [fields_separator hc, hc, ih]
  | run run rest hne hrun hrest ih =>
    have hall : run.filter (! p ·) = run := List.filter_eq_self.mpr (by simpa using hrun)
    rw [fields_run hne hrun hrest, List.flatten_cons, ih, List.filter_append, hall]

end Marginalia.Text
