import Marginalia.Proofs.OneLine
import Marginalia.Proofs.Substituted
import Marginalia.Repair.Draft
import Mathlib.Data.List.Forall2

/-!
# Improvement line by line

Most passes go through a text line by line and mend the code of some lines. Such a pass improves the
text if it improves each line, and a line is improved if its code becomes heavier.
-/

namespace Marginalia

namespace Repair

/-! Code that becomes heavier, or stays. -/

/-- Code that was mended to something heavier, or not at all. -/
def Heavier (code code' : Text) : Prop := code' = code ∨ weight code < weight code'

lemma Heavier.refl (code : Text) : Heavier code code := .inl rfl

lemma Heavier.trans {a b c : Text} (h : Heavier a b) (h' : Heavier b c) : Heavier a c := by
  obtain rfl | h := h
  · exact h'
  · obtain rfl | h' := h'
    · exact .inr h
    · exact .inr (by omega)

/-- A revision that makes code heavier wherever it applies. -/
def Enriches (revision : Text → Option Text) : Prop :=
  ∀ code code', revision code = some code' → weight code < weight code'

lemma Draft.mend_heavier {revision : Text → Option Text} (h : Enriches revision) (d : Draft)
    (fix : Fix) : Heavier d.code (d.mend fix revision).code := by
  rw [Draft.mend]
  cases hr : revision d.code with
  | none => exact .refl d.code
  | some code => exact .inr (h _ _ hr)

@[simp] lemma Draft.ofCode_code (code : Text) : (Draft.ofCode code).code = code := rfl

@[simp] lemma Draft.advise_code (d : Draft) (advice : Advice) (reason : Text → Bool) :
    (d.advise advice reason).code = d.code := by
  rw [Draft.advise]
  split <;> rfl

/-! Lines whose code was mended. -/

lemma Site.code_append_tail (s : Site) : s.code ++ s.tail = s.line := splitComment_append s.line

/-- A line was revised to a better one, or left. -/
def Site.ImprovedBy (s : Site) (r : Revised) : Prop := Improved s.line r.line

lemma Site.improvedBy_same (s : Site) : s.ImprovedBy (.same s) := .refl s.line

lemma Site.improvedBy_ofDraft {s : Site} {d : Draft} (h : Heavier s.code d.code) :
    s.ImprovedBy (.ofDraft s d) := by
  have hline := s.code_append_tail
  unfold Site.ImprovedBy Revised.ofDraft
  rw [← hline]
  obtain heq | hlt := h
  · exact .inl (by rw [heq])
  · refine .of_weight ?_
    simp only [weight_append]
    omega

/-! Texts whose lines were revised. -/

lemma LayoutState.length_layout (s : LayoutState) (lines : List Text) :
    (s.layout lines).length = lines.length := by
  induction lines generalizing s with
  | nil => rfl
  | cons line rest ih => simp [LayoutState.layout, ih]

lemma Site.numbered_lines (n : Nat) (lines : List (LineInfo × Text)) :
    (Site.numbered n lines).map (·.line) = lines.map (·.2) := by
  induction lines generalizing n with
  | nil => rfl
  | cons pair rest ih => simp [Site.numbered, ih]

lemma Site.ofLines_lines (lines : List Text) : (Site.ofLines lines).map (·.line) = lines := by
  rw [Site.ofLines, Site.numbered_lines]
  exact List.map_snd_zip (Nat.le_of_eq (LayoutState.length_layout .start lines).symm)

lemma Site.oneLine_of_mem {text : Text} {s : Site} (h : s ∈ Site.ofLines text.lines) :
    OneLine s.line := by
  have hmem : s.line ∈ (Site.ofLines text.lines).map (·.line) := List.mem_map_of_mem h
  rw [Site.ofLines_lines] at hmem
  exact Text.oneLine_of_mem_lines hmem

/-- The revision of a text improves it if it improves each line. -/
lemma Revised.improved {text : Text} {revised : List Revised}
    (h : List.Forall₂ Site.ImprovedBy (Site.ofLines text.lines) revised) :
    Improved text (Revised.outcome revised).text := by
  have hlines : List.Forall₂ Improved text.lines (revised.map (·.line)) := by
    rw [← Site.ofLines_lines text.lines]
    exact List.forall₂_map_left_iff.mpr (List.forall₂_map_right_iff.mpr h)
  have hunlines := Improved.unlines hlines
  rwa [Text.unlines_lines] at hunlines

lemma visit_forall₂ {σ α : Type} {step : σ → Site → σ × α} {r : Site → α → Prop}
    {sites : List Site} (h : ∀ s, ∀ site ∈ sites, r site (step s site).2) (s : σ) :
    List.Forall₂ r sites (visit step s sites) := by
  induction sites generalizing s with
  | nil => exact .nil
  | cons site rest ih =>
    exact .cons (h s site List.mem_cons_self)
      (ih (fun s site hsite => h s site (List.mem_cons_of_mem _ hsite)) _)

/-- A visit improves a text if each step improves the line it comes to. -/
lemma visit_improved {σ : Type} {step : σ → Site → σ × Revised}
    (h : ∀ (s : σ) (site : Site), OneLine site.line → site.ImprovedBy (step s site).2) (s : σ) (text : Text) :
    Improved text (Revised.outcome (visit step s (Site.ofLines text.lines))).text :=
  Revised.improved (visit_forall₂ (fun s site hsite => h s site (Site.oneLine_of_mem hsite)) s)

lemma reviseSites_improved {applies : Site → Bool} {draft : Text → Draft}
    (h : ∀ code, Heavier code (draft code).code) (text : Text) :
    Improved text (reviseSites applies draft text).text := by
  refine Revised.improved (List.forall₂_map_right_iff.mpr (List.forall₂_same.mpr fun s _ => ?_))
  split
  · exact Site.improvedBy_ofDraft (h s.code)
  · exact s.improvedBy_same

end Repair

lemma Rule.Gains.enriches {rule : Rule} (h : rule.Gains) :
    Repair.Enriches (Text.substitute? rule) := fun _ _ hcode => h.substitute? hcode

end Marginalia
