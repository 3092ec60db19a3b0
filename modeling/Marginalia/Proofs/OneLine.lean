import Marginalia.Proofs.Blanks
import Marginalia.Text.Letters

/-!
# Texts on one line

A text is on one line if it has no newline. The lines of a text are such texts, and what is put
together from them by lines is taken apart into them again.
-/

namespace Marginalia

/-- A text without a newline. -/
def OneLine (t : Text) : Prop := '\n' ∉ t

instance (t : Text) : Decidable (OneLine t) := inferInstanceAs (Decidable ('\n' ∉ t))

@[simp] lemma oneLine_nil : OneLine [] := by simp [OneLine]

@[simp] lemma oneLine_cons {c : Char} {t : Text} : OneLine (c :: t) ↔ c ≠ '\n' ∧ OneLine t := by
  simp [OneLine, eq_comm]

@[simp] lemma oneLine_append {t t' : Text} : OneLine (t ++ t') ↔ OneLine t ∧ OneLine t' := by
  simp [OneLine, not_or]

/-- A literal is the list of its characters, which is quicker to look through than its bytes. -/
lemma oneLine_literal {t : Text} (h : '\n' ∉ t) : OneLine (String.ofList t).toList := by
  rwa [OneLine, String.toList_ofList]

lemma OneLine.subset {t t' : Text} (h : OneLine t) (hs : ∀ c ∈ t', c ∈ t) : OneLine t' :=
  fun hmem => h (hs _ hmem)

namespace Text

/-! The lines of a text. -/

lemma splitOn_ne_nil (sep : Char) (t : Text) : splitOn sep t ≠ [] := by
  cases t with
  | nil => exact List.cons_ne_nil _ _
  | cons c rest =>
    rw [splitOn]
    split
    · exact List.cons_ne_nil _ _
    · split <;> exact List.cons_ne_nil _ _

lemma join_splitOn (sep : Char) (t : Text) : join [sep] (splitOn sep t) = t := by
  induction t with
  | nil => rfl
  | cons c rest ih =>
    cases hs : splitOn sep rest with
    | nil => exact absurd hs (splitOn_ne_nil sep rest)
    | cons piece pieces =>
      rw [hs] at ih
      rw [splitOn, hs]
      split
      · next hc =>
        rw [join, ih, hc]
        · rfl
        · exact List.cons_ne_nil _ _
      · cases pieces with
        | nil => exact congrArg (c :: ·) ih
        | cons p ps => exact congrArg (c :: ·) ih

lemma splitOn_append_sep (sep : Char) (t t' : Text) :
    splitOn sep (t ++ sep :: t') = splitOn sep t ++ splitOn sep t' := by
  induction t with
  | nil => simp [splitOn]
  | cons c rest ih =>
    by_cases hc : c = sep
    · simp [splitOn, hc, ih]
    · rw [List.cons_append, splitOn, splitOn, if_neg hc, if_neg hc, ih]
      cases hs : splitOn sep rest with
      | nil => exact absurd hs (splitOn_ne_nil sep rest)
      | cons piece pieces => rfl

lemma splitOn_of_not_mem {sep : Char} {t : Text} (h : sep ∉ t) : splitOn sep t = [t] := by
  induction t with
  | nil => rfl
  | cons c rest ih =>
    simp only [List.mem_cons, not_or] at h
    rw [splitOn, if_neg (Ne.symm h.1), ih h.2]

lemma not_mem_of_mem_splitOn {sep : Char} {t piece : Text} (h : piece ∈ splitOn sep t) :
    sep ∉ piece := by
  induction t generalizing piece with
  | nil =>
    obtain rfl : piece = [] := by simpa [splitOn] using h
    simp
  | cons c rest ih =>
    rw [splitOn] at h
    by_cases hc : c = sep
    · rw [if_pos hc, List.mem_cons] at h
      obtain rfl | h := h
      · simp
      · exact ih h
    · rw [if_neg hc] at h
      cases hs : splitOn sep rest with
      | nil => exact absurd hs (splitOn_ne_nil sep rest)
      | cons first pieces =>
        rw [hs] at h ih
        simp only [List.mem_cons] at h
        obtain rfl | h := h
        · have hfirst := ih List.mem_cons_self
          simp [hfirst, Ne.symm hc]
        · exact ih (List.mem_cons_of_mem _ h)

lemma oneLine_of_mem_lines {t line : Text} (h : line ∈ t.lines) : OneLine line :=
  not_mem_of_mem_splitOn h

lemma lines_of_oneLine {t : Text} (h : OneLine t) : t.lines = [t] := splitOn_of_not_mem h

lemma lines_ne_nil (t : Text) : t.lines ≠ [] := splitOn_ne_nil '\n' t

lemma unlines_lines (t : Text) : unlines t.lines = t := join_splitOn '\n' t

/-- The lines of texts that are put together by lines are the lines of each. -/
lemma lines_unlines {ts : List Text} (h : ts ≠ []) : (unlines ts).lines = ts.flatMap lines := by
  induction ts with
  | nil => exact absurd rfl h
  | cons t rest ih =>
    cases rest with
    | nil => simp [unlines, join]
    | cons u rest =>
      have hjoin : unlines (t :: u :: rest) = t ++ '\n' :: unlines (u :: rest) := by
        simp [unlines, join]
      rw [hjoin, lines, splitOn_append_sep, List.flatMap_cons]
      exact congrArg (splitOn '\n' t ++ ·) (ih (List.cons_ne_nil _ _))

lemma oneLine_join {sep : Text} (hsep : OneLine sep) {pieces : List Text} :
    OneLine (join sep pieces) ↔ ∀ p ∈ pieces, OneLine p := by
  induction pieces with
  | nil => simp [join]
  | cons p rest ih =>
    cases rest with
    | nil => simp [join]
    | cons q rest =>
      rw [join, oneLine_append, oneLine_append, ih, List.forall_mem_cons]
      · simp [hsep]
      · exact List.cons_ne_nil _ _

end Text

lemma OneLine.indentation {t : Text} (h : OneLine t) : OneLine t.indentation :=
  h.subset fun _ hc => (List.takeWhile_sublist _).subset hc

lemma OneLine.trimStart {t : Text} (h : OneLine t) : OneLine (Text.trimStart t) :=
  h.subset fun _ hc => (List.dropWhile_suffix _).subset hc

lemma OneLine.trimEnd {t : Text} (h : OneLine t) : OneLine (Text.trimEnd t) := by
  obtain ⟨margin, ht, -⟩ := Text.dropEnd_append isBlank t
  rw [ht, oneLine_append] at h
  exact h.1

lemma OneLine.trim {t : Text} (h : OneLine t) : OneLine (Text.trim t) := by
  obtain ⟨front, back, ht, -⟩ := Text.trim_append t
  rw [ht, oneLine_append, oneLine_append] at h
  exact h.1.2

lemma OneLine.truncate {t : Text} (h : OneLine t) (max : Nat) : OneLine (Text.truncate max t) := by
  rw [Text.truncate]
  split
  · exact h
  · exact oneLine_append.mpr ⟨h.subset fun c hc => List.mem_of_mem_take hc, by decide⟩

end Marginalia
