import Marginalia.Proofs.ImprovedLines
import Marginalia.Proofs.ImprovedSpelling
import Marginalia.Proofs.MendedCode
import Marginalia.Proofs.Names
import Marginalia.Proofs.ReindentTwice
import Mathlib.Data.List.Find

/-!
# Spelling line by line

What spelling exchanges lies between blanks. So a text is spelt by spelling what stands before and
behind each of its blanks, and in particular by spelling each of its lines.
-/

namespace Marginalia

open Text Repair

namespace Text

lemma continuesWord_append_blank {d : Char} (hd : isBlank d = true) (t rest : Text) :
    continuesWord (t ++ d :: rest) = continuesWord t := by
  cases t with
  | nil => simp [continuesWord, isWordChar_of_isBlank hd]
  | cons c t => rfl

end Text

/-! Rules that stop at blanks. -/

/-- A rule that reads neither a blank nor anything behind one, and of what stands before a place
only whether a word may start there. -/
def Rule.StopsAtBlanks (rule : Rule) : Prop :=
  ∀ (b b' : Before) (t : Text) (d : Char) (rest : Text), b.fresh = b'.fresh → isBlank d = true →
    rule b (t ++ d :: rest) = rule b' t

lemma Before.fresh_steps {b b' : Before} (h : b.fresh = b'.fresh) (t : Text) :
    (t.foldl Before.step b).fresh = (t.foldl Before.step b').fresh := by
  induction t generalizing b b' with
  | nil => exact h
  | cons c rest ih => exact ih rfl

lemma Before.fresh_step_blank (b : Before) {d : Char} (hd : isBlank d = true) :
    (b.step d).fresh = Before.start.fresh := by
  have hword := isWordChar_of_isBlank hd
  simp [Before.fresh, Before.step, Before.start, isFresh, hword]

namespace Rule.StopsAtBlanks

variable {rule : Rule}

lemma congr (h : rule.StopsAtBlanks) {b b' : Before} (hb : b.fresh = b'.fresh) (t : Text) :
    rule b t = rule b' t := by
  rw [← h b' b t ' ' [] hb.symm (by decide), ← h b' b' t ' ' [] rfl (by decide)]

lemma substituteFrom_congr (h : rule.StopsAtBlanks) (htakes : rule.Takes) {b b' : Before}
    (hb : b.fresh = b'.fresh) (t : Text) :
    substituteFrom rule b 0 t = substituteFrom rule b' 0 t := by
  have hsub := substituted_substituteFrom htakes b t
  generalize substituteFrom rule b 0 t = out at hsub ⊢
  induction hsub generalizing b' with
  | nil _ => rfl
  | @keep b c rest out hr _ ih =>
    have hstep : (b.step c).fresh = (b'.step c).fresh := rfl
    rw [h.congr hb] at hr
    rw [substituteFrom, hr, ih hstep]
  | @swap b old new rest out hne hr _ ih =>
    rw [h.congr hb] at hr
    rw [substituteFrom_swap hne hr, ih (Before.fresh_steps hb old)]

/-- What stands before a blank and what stands behind it are gone through apart. -/
lemma substituteFrom_append (h : rule.StopsAtBlanks) (htakes : rule.Takes) (b : Before) (t : Text)
    {d : Char} (hd : isBlank d = true) (rest : Text) :
    substituteFrom rule b 0 (t ++ d :: rest) =
      substituteFrom rule b 0 t ++ d :: substituteFrom rule .start 0 rest := by
  have hsub := substituted_substituteFrom htakes b t
  generalize substituteFrom rule b 0 t = out at hsub ⊢
  induction hsub with
  | nil b =>
    have hnone : rule b (d :: rest) = none := by
      rw [show d :: rest = [] ++ d :: rest from rfl, h b b [] d rest rfl hd]
      cases hr : rule b [] with
      | none => rfl
      | some pair =>
        obtain ⟨old, rest', ht, -, hne⟩ := htakes b [] pair.1 pair.2 hr
        exact absurd (List.append_eq_nil_iff.mp ht.symm).1 hne
    rw [List.nil_append, List.nil_append, substituteFrom, hnone]
    simp only
    rw [h.substituteFrom_congr htakes (b.fresh_step_blank hd)]
  | @keep b c t out hr _ ih =>
    rw [← h b b (c :: t) d rest rfl hd] at hr
    rw [List.cons_append] at hr ⊢
    rw [substituteFrom, hr, ih]
    rfl
  | @swap b old new t out hne hr _ ih =>
    rw [← h b b (old ++ t) d rest rfl hd, List.append_assoc] at hr
    rw [List.append_assoc, substituteFrom_swap hne hr, ih, List.append_assoc]

lemma substitute_append (h : rule.StopsAtBlanks) (htakes : rule.Takes) (t : Text) {d : Char}
    (hd : isBlank d = true) (rest : Text) :
    substitute rule (t ++ d :: rest) = substitute rule t ++ d :: substitute rule rest :=
  h.substituteFrom_append htakes .start t hd rest

/-- Blanks at the end of a text stay where they are. -/
lemma substitute_append_blanks (h : rule.StopsAtBlanks) (htakes : rule.Takes) (t : Text)
    {margin : Text} (hmargin : margin.isAllBlank = true) :
    substitute rule (t ++ margin) = substitute rule t ++ margin := by
  induction margin generalizing t with
  | nil => rw [List.append_nil, List.append_nil]
  | cons d margin ih =>
    rw [isAllBlank, List.all_cons, Bool.and_eq_true] at hmargin
    have hnil : substitute rule margin = margin := ih [] hmargin.2
    rw [h.substitute_append htakes t hmargin.1, hnil]

/-- The lines of a text are gone through apart. -/
lemma lines_substitute (h : rule.StopsAtBlanks) (htakes : rule.Takes) (hline : rule.KeepsLine)
    (t : Text) : (substitute rule t).lines = t.lines.map (substitute rule) := by
  have hjoin : ∀ lines : List Text, lines ≠ [] →
      substitute rule (unlines lines) = unlines (lines.map (substitute rule)) := by
    intro lines
    induction lines with
    | nil => exact fun hne => absurd rfl hne
    | cons line rest ih =>
      intro _
      cases rest with
      | nil => rfl
      | cons next rest =>
        rw [List.map_cons, List.map_cons, unlines_cons_cons, unlines_cons_cons,
          h.substitute_append htakes line (by decide), ih (List.cons_ne_nil _ _), List.map_cons]
  conv_lhs => rw [← unlines_lines t, hjoin _ (lines_ne_nil t)]
  refine lines_unlines_of_oneLine (by simp [lines_ne_nil]) fun line hmem => ?_
  obtain ⟨line', hmem', rfl⟩ := List.mem_map.mp hmem
  exact hline.substitute htakes (oneLine_of_mem_lines hmem')

end Rule.StopsAtBlanks

namespace Repair

/-! The rules of spelling. -/

/-- A text without blanks. -/
def BlankFree (t : Text) : Prop := (t.all fun c => !isBlank c) = true

instance (t : Text) : Decidable (BlankFree t) :=
  inferInstanceAs (Decidable ((t.all fun c => !isBlank c) = true))

lemma BlankFree.not_mem {t : Text} (h : BlankFree t) {d : Char} (hd : isBlank d = true) :
    d ∉ t := by
  intro hmem
  have hnot := List.all_eq_true.mp h d hmem
  rw [hd] at hnot
  exact Bool.noConfusion hnot

lemma BlankFree.drop {t : Text} (h : BlankFree t) (n : Nat) : BlankFree (t.drop n) :=
  List.all_eq_true.mpr fun c hc => List.all_eq_true.mp h c (List.mem_of_mem_drop hc)

lemma blankFree_entities : ∀ pair ∈ entities, BlankFree pair.1 := by decide

lemma stopsAtBlanks_entityRule : Rule.StopsAtBlanks entityRule := by
  intro b b' t d rest _ hd
  have hstarts : ∀ pair ∈ entities, startsWith (t ++ d :: rest) pair.1 = startsWith t pair.1 :=
    fun pair hpair => startsWith_append_stop ((blankFree_entities pair hpair).not_mem hd) t rest
  have hfind : (entities.find? fun pair => startsWith (t ++ d :: rest) pair.1) =
      entities.find? fun pair => startsWith t pair.1 := List.find?_congr hstarts
  rw [entityRule_eq, entityRule_eq, hfind]
  cases hf : entities.find? fun pair => startsWith t pair.1 with
  | none => rfl
  | some pair =>
    obtain ⟨entity, plain⟩ := pair
    have hsome := List.find?_some hf
    obtain ⟨behind, rfl⟩ := (startsWith_iff t entity).mp hsome
    have hcompletes : completesEntity (behind ++ d :: rest) = completesEntity behind := by
      rw [completesEntity, completesEntity, Bool.eq_iff_iff, List.any_eq_true, List.any_eq_true]
      refine exists_congr fun pair => and_congr_right fun hpair => ?_
      have hdrop : BlankFree (pair.1.drop 1) := (blankFree_entities pair hpair).drop 1
      exact Bool.eq_iff_iff.mp (startsWith_append_stop (hdrop.not_mem hd) behind rest)
    simp only [Option.bind_some, List.append_assoc, List.drop_left, hcompletes]

lemma stopsAtBlanks_word {old new : Text} (hold : BlankFree old) :
    (Rule.word old new).StopsAtBlanks := by
  intro b b' t d rest hb hd
  have hstarts := startsWith_append_stop (hold.not_mem hd) t rest
  rw [Rule.word, Rule.word, hstarts, hb]
  by_cases hs : startsWith t old = true
  · obtain ⟨behind, rfl⟩ := (startsWith_iff t old).mp hs
    rw [List.append_assoc, List.drop_left, List.drop_left, continuesWord_append_blank hd]
  · simp [hs]

lemma keepsLine_entityRule : Rule.KeepsLine entityRule := by
  intro b t n new hr _
  have htable : ∀ pair ∈ entities, OneLine pair.2 := by decide
  obtain ⟨pair, hpair, -, -, rfl⟩ := exists_entity hr
  exact htable pair hpair

/-! Spelling as a function on texts. -/

/-- A text with its entities decoded and its misspellings corrected. -/
def spell (t : Text) : Text :=
  typos.foldl (fun t typo => t.substitute (.word typo.1 typo.2)) (decodeEntities t)

lemma substitute_of_changed? {rule : Rule} {t : Text} :
    substitute rule t = (substitute? rule t).getD t := by
  rw [substitute?, changed?]
  split
  · next h => rw [h, Option.getD_none]
  · rfl

lemma correct_text (o : Outcome) (typo : Text × Text) :
    (correct o typo).text = o.text.substitute (.word typo.1 typo.2) := by
  rw [correct, substitute_of_changed?]
  cases o.text.substitute? (.word typo.1 typo.2) <;> rfl

lemma foldl_correct_text (table : List (Text × Text)) (o : Outcome) :
    (table.foldl correct o).text =
      table.foldl (fun t typo => t.substitute (.word typo.1 typo.2)) o.text := by
  induction table generalizing o with
  | nil => rfl
  | cons typo rest ih => rw [List.foldl_cons, List.foldl_cons, ih, correct_text]

lemma spelling_text (t : Text) : (spelling t).text = spell t := by
  rw [spelling, foldl_correct_text, spell]

/-- What holds of every rule of spelling. -/
lemma typos_rules {typo : Text × Text} (h : typo ∈ typos) :
    (Rule.word typo.1 typo.2).StopsAtBlanks ∧ (Rule.word typo.1 typo.2).Takes ∧
      (Rule.word typo.1 typo.2).KeepsLine := by
  have htable : ∀ typo ∈ typos, BlankFree typo.1 ∧ typo.1 ≠ [] ∧ OneLine typo.2 := by decide
  obtain ⟨hblank, hne, hone⟩ := htable typo h
  refine ⟨stopsAtBlanks_word hblank, fun b t n new hr => ?_, ?_⟩
  · obtain ⟨rest, ht, hn, -, -⟩ := eq_of_word hr
    exact ⟨typo.1, rest, ht, hn, hne⟩
  · refine Rule.keepsLine_of_put typo.2 hone fun b t n new hr => ?_
    obtain ⟨rest, -, -, hnew, -⟩ := eq_of_word hr
    exact hnew

/-- The lines of a text are spelt apart. -/
lemma lines_spell (t : Text) : (spell t).lines = t.lines.map spell := by
  have hfold : ∀ (table : List (Text × Text)) (t : Text), (∀ typo ∈ table, typo ∈ typos) →
      (table.foldl (fun t typo => t.substitute (.word typo.1 typo.2)) t).lines =
        t.lines.map fun line =>
          table.foldl (fun t typo => t.substitute (.word typo.1 typo.2)) line := by
    intro table
    induction table with
    | nil => exact fun t _ => (List.map_id' t.lines).symm
    | cons typo rest ih =>
      intro t hmem
      obtain ⟨hstops, htakes, hline⟩ := typos_rules (hmem typo List.mem_cons_self)
      rw [List.foldl_cons, ih _ fun typo htypo => hmem typo (List.mem_cons_of_mem _ htypo),
        hstops.lines_substitute htakes hline, List.map_map]
      rfl
  have hdecode : (decodeEntities t).lines = t.lines.map decodeEntities :=
    stopsAtBlanks_entityRule.lines_substitute gains_entityRule.takes keepsLine_entityRule t
  unfold spell
  generalize typos = table at hfold ⊢
  rw [hfold table _ fun _ h => h, hdecode, List.map_map]
  rfl

end Repair
end Marginalia
