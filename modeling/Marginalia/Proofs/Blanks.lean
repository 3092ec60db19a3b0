import Marginalia.Text.Code
import Mathlib.Tactic.Lemma
import Mathlib.Data.List.Basic

/-!
# Blank margins

A text is its trimmed form between two runs of blanks, and the trimmed form starts and ends with a
character that is not blank. What reads blanks without noticing them reads a text and its trimmed
form alike.
-/

namespace Marginalia

lemma ne_of_isBlank {c d : Char} (hc : isBlank c = true) (hd : isBlank d = false) : c ≠ d := by
  intro h
  rw [h, hd] at hc
  exact Bool.noConfusion hc

lemma not_mem_of_isAllBlank {t : Text} {c : Char} (ht : t.isAllBlank = true)
    (hc : isBlank c = false) : c ∉ t := fun hmem =>
  ne_of_isBlank (List.all_eq_true.mp ht c hmem) hc rfl

namespace Text

/-- What `dropEnd` takes away is a run of characters of the class. -/
lemma dropEnd_append (p : Char → Bool) (t : Text) :
    ∃ margin, t = dropEnd p t ++ margin ∧ margin.all p = true := by
  induction t with
  | nil => exact ⟨[], rfl, rfl⟩
  | cons c rest ih =>
    obtain ⟨margin, hrest, hmargin⟩ := ih
    cases hd : dropEnd p rest with
    | nil =>
      rw [hd, List.nil_append] at hrest
      by_cases hc : p c = true
      · refine ⟨c :: margin, ?_, by simp [hc, hmargin]⟩
        simp only [dropEnd, hd, if_pos hc, List.nil_append]
        rw [hrest]
      · refine ⟨margin, ?_, hmargin⟩
        simp only [dropEnd, hd, if_neg hc, List.singleton_append]
        rw [hrest]
    | cons d kept =>
      refine ⟨margin, ?_, hmargin⟩
      have hstep : dropEnd p (c :: rest) = c :: d :: kept := by simp [dropEnd, hd]
      rw [hstep, hrest, hd]
      rfl

lemma dropEnd_dropEnd (p : Char → Bool) (t : Text) : dropEnd p (dropEnd p t) = dropEnd p t := by
  induction t with
  | nil => rfl
  | cons c rest ih =>
    cases hd : dropEnd p rest with
    | nil => by_cases hc : p c = true <;> simp [dropEnd, hd, hc]
    | cons d kept =>
      rw [hd] at ih
      have hstep : dropEnd p (c :: rest) = c :: d :: kept := by simp [dropEnd, hd]
      rw [hstep, dropEnd, ih]

lemma dropEnd_eq_nil_iff (p : Char → Bool) (t : Text) : dropEnd p t = [] ↔ t.all p = true := by
  induction t with
  | nil => simp [dropEnd]
  | cons c rest ih =>
    cases hd : dropEnd p rest with
    | nil =>
      rw [hd] at ih
      by_cases hc : p c = true
      · simp [dropEnd, hd, hc, ← ih]
      · simp [dropEnd, hd, hc]
    | cons d kept =>
      have hrest : ¬rest.all p = true := by simpa [hd] using ih
      have hstep : dropEnd p (c :: rest) = c :: d :: kept := by simp [dropEnd, hd]
      rw [hstep, List.all_cons, Bool.and_eq_true]
      simp [hrest]

lemma dropEnd_of_not {p : Char → Bool} {head : Text} (h : ∀ c ∈ head, p c = false) (t : Text) :
    dropEnd p (head ++ t) = head ++ dropEnd p t := by
  induction head with
  | nil => rfl
  | cons c rest ih =>
    rw [List.forall_mem_cons] at h
    rw [List.cons_append, dropEnd, ih h.2, List.cons_append]
    split
    · next hnil => rw [hnil, if_neg (ne_true_of_eq_false h.1)]
    · rfl

lemma dropEnd_append_of_ne_nil {p : Char → Bool} {t : Text} (h : dropEnd p t ≠ []) (front : Text) :
    dropEnd p (front ++ t) = front ++ dropEnd p t := by
  induction front with
  | nil => rfl
  | cons c front ih =>
    rw [List.cons_append, dropEnd, ih]
    split
    · next hnil => exact absurd (List.append_eq_nil_iff.mp hnil).2 h
    · rfl

lemma head?_dropEnd {p : Char → Bool} {t : Text} (h : dropEnd p t ≠ []) :
    (dropEnd p t).head? = t.head? := by
  cases t with
  | nil => rfl
  | cons c rest =>
    cases hd : dropEnd p rest with
    | nil =>
      by_cases hc : p c = true
      · exact absurd (by simp [dropEnd, hd, hc]) h
      · simp [dropEnd, hd, hc]
    | cons d kept => simp [dropEnd, hd]

/-- A text is its trimmed form between two runs of blanks. -/
lemma trim_append (t : Text) : ∃ front back : Text, t = front ++ trim t ++ back ∧
    front.isAllBlank = true ∧ back.isAllBlank = true := by
  obtain ⟨back, hback, hall⟩ := dropEnd_append isBlank (trimStart t)
  refine ⟨t.takeWhile isBlank, back, ?_, ?_, hall⟩
  · rw [List.append_assoc]
    calc t = t.takeWhile isBlank ++ trimStart t := List.takeWhile_append_dropWhile.symm
      _ = t.takeWhile isBlank ++ (trim t ++ back) := by rw [trim, trimEnd, ← hback]
  · exact List.all_takeWhile

lemma trim_eq_nil_iff (t : Text) : trim t = [] ↔ t.isAllBlank = true := by
  rw [trim, trimEnd, dropEnd_eq_nil_iff]
  constructor
  · intro h
    have happ : t = t.takeWhile isBlank ++ trimStart t := List.takeWhile_append_dropWhile.symm
    rw [isAllBlank, happ, List.all_append, h, Bool.and_true]
    exact List.all_takeWhile
  · intro h
    exact List.all_eq_true.mpr fun c hc =>
      List.all_eq_true.mp h c ((List.dropWhile_suffix isBlank).subset hc)

/-- The trimmed form of a text starts with a character that is not blank. -/
lemma head?_trim {t : Text} {c : Char} (h : (trim t).head? = some c) : isBlank c = false := by
  have hne : trim t ≠ [] := by
    intro hnil
    simp [hnil] at h
  have hstart : (trimStart t).head? = some c := by
    rw [← h]
    exact (head?_dropEnd hne).symm
  have hdrop := List.head?_dropWhile_not isBlank t
  rw [show t.dropWhile isBlank = trimStart t from rfl, hstart] at hdrop
  exact hdrop

end Text
end Marginalia
