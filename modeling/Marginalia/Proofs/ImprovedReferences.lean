import Marginalia.Proofs.ImprovedLines
import Marginalia.Repair.References

/-!
# Mended references improve texts

What replaces a piece of code weighs more, or is tidier. An assignment that is turned around weighs
the same and has the same pairs of letters, but its dot comes to stand before the equality sign.
-/

namespace Marginalia

open Text Repair

/-- A tidying rule that leaves the last character of each piece keeps that of the text. -/
lemma Substituted.getLast? {rule : Rule} (hrule : ∀ b t n new, rule b t = some (n, new) →
    ∃ old rest, t = old ++ rest ∧ n = old.length ∧ old.getLast? = new.getLast?)
    {b : Before} {t out : Text} (h : Substituted rule b t out) : out.getLast? = t.getLast? := by
  induction h with
  | nil => rfl
  | keep _ _ ih => rw [List.getLast?_cons, List.getLast?_cons, ih]
  | swap _ hr _ ih =>
    obtain ⟨old, rest, ht, hn, hlast⟩ := hrule _ _ _ _ hr
    obtain ⟨rfl, rfl⟩ := List.append_inj ht hn
    rw [List.getLast?_append, List.getLast?_append, ih, hlast]

namespace Repair

/-- Code became better than it was, whatever stands behind it on its line. -/
def BetterBefore (code code' : Text) : Prop :=
  ∀ tail, Improved (code ++ tail) (code' ++ tail)

lemma BetterBefore.refl (code : Text) : BetterBefore code code := fun _ => .refl _

lemma BetterBefore.trans {a b c : Text} (h : BetterBefore a b) (h' : BetterBefore b c) :
    BetterBefore a c := fun tail => (h tail).trans (h' tail)

lemma BetterBefore.of_weight {code code' : Text} (h : weight code < weight code') :
    BetterBefore code code' := fun tail => .of_weight (by
  rw [weight_append, weight_append]
  omega)

lemma eq_of_callRule {old new : Text} {b : Before} {t : Text} {n : Nat} {put : Text}
    (h : callRule old new b t = some (n, put)) :
    ∃ rest, t = old ++ rest ∧ n = old.length ∧ put = new := by
  rw [callRule] at h
  split at h
  · exact eq_of_freshLiteral h
  · exact eq_of_replaced id h

lemma substitute_callRule_better {old new code code' : Text} (hmem : (old, new) ∈ callFixes)
    (h : substitute? (callRule old new) code = some code') : BetterBefore code code' := by
  have htable : ∀ fix ∈ callFixes, fix.1 ≠ [] ∧ (weight fix.1 < weight fix.2 ∨
      tidies fix.1 fix.2 = true ∧ fix.1.getLast? = fix.2.getLast?) := by decide
  obtain ⟨hne, hgain | ⟨htidy, hlast⟩⟩ := htable _ hmem
  · have hgains : (callRule old new).Gains := by
      intro b t n put hr
      obtain ⟨rest, ht, hn, rfl⟩ := eq_of_callRule hr
      exact ⟨old, rest, ht, hn, hne, .inr hgain⟩
    exact .of_weight (hgains.substitute? h)
  · have htidies : (callRule old new).Tidies := by
      intro b t n put hr
      obtain ⟨rest, ht, hn, rfl⟩ := eq_of_callRule hr
      exact ⟨old, rest, ht, hn, htidy, .inl hlast⟩
    have hend : code'.getLast? = code.getLast? := by
      obtain ⟨rfl, -⟩ := eq_of_changed? h
      refine Substituted.getLast? (fun b t n put hr => ?_)
        (substituted_substitute htidies.takes code)
      obtain ⟨rest, ht, hn, rfl⟩ := eq_of_callRule hr
      exact ⟨old, rest, ht, hn, hlast⟩
    obtain ⟨hweight, hbad⟩ := htidies.substitute? h
    intro tail
    right
    right
    refine ⟨by rw [weight_append, weight_append, hweight], .inl ?_⟩
    rw [badness_append, badness_append, lastOf, lastOf, hend]
    have hfewer := hbad none
    omega

/-! Assignments that are turned around. -/

lemma not_mem_of_all {p : Char → Bool} {t : Text} {d : Char} (h : t.all p = true)
    (hd : p d = false) : d ∉ t := by
  intro hmem
  rw [List.all_eq_true.mp h d hmem] at hd
  cases hd

/-- A character that is in no bad pair. -/
def isGap (c : Char) : Bool := badPairs.all fun pair => pair.1 != c && pair.2 != c

lemma isGap_of_isBlank {c : Char} (hc : isBlank c = true) : isGap c = true := by
  have hletters : ∀ pair ∈ badPairs, isBlank pair.1 = false ∧ isBlank pair.2 = false := by decide
  refine List.all_eq_true.mpr fun pair hpair => ?_
  obtain ⟨hfirst, hsecond⟩ := hletters pair hpair
  simp [Ne.symm (ne_of_isBlank hc hfirst), Ne.symm (ne_of_isBlank hc hsecond)]

lemma badPair_gap {c : Char} (hc : isGap c = true) (a : Option Char) :
    badPair a (some c) = 0 ∧ badPair (some c) a = 0 := by
  have hne : ∀ pair ∈ badPairs, pair.1 ≠ c ∧ pair.2 ≠ c := by
    intro pair hpair
    simpa using List.all_eq_true.mp hc pair hpair
  cases a with
  | none => exact ⟨rfl, rfl⟩
  | some a =>
    have hleft : (a, c) ∉ badPairs := fun hmem => (hne _ hmem).2 rfl
    have hright : (c, a) ∉ badPairs := fun hmem => (hne _ hmem).1 rfl
    exact ⟨by simp [badPair, hleft], by simp [badPair, hright]⟩

lemma badness_gap {gap : Text} (hgap : gap.all isGap = true) (hne : gap ≠ []) (prev : Option Char)
    (t : Text) : badness prev (gap ++ t) = badness none t := by
  induction gap generalizing prev with
  | nil => exact absurd rfl hne
  | cons c rest ih =>
    rw [List.all_cons, Bool.and_eq_true] at hgap
    rw [List.cons_append, badness, (badPair_gap hgap.1 prev).1, Nat.zero_add]
    cases rest with
    | nil =>
      cases t with
      | nil => rfl
      | cons d t =>
        have hpair := (badPair_gap hgap.1 (some d)).2
        show badPair (some c) (some d) + badness (some d) t = 0 + badness (some d) t
        rw [hpair]
    | cons d rest => exact ih hgap.2 (List.cons_ne_nil d rest) (some c)

lemma badness_gap_start {gap : Text} (hgap : gap.all isGap = true) (t : Text) :
    badness none (gap ++ t) = badness none t := by
  cases gap with
  | nil => rfl
  | cons c rest => exact badness_gap hgap (List.cons_ne_nil c rest) none t

/-- The bad pairs of a text are those on either side of a gap. -/
lemma badness_around {gap : Text} (hgap : gap.all isGap = true) (hne : gap ≠ [])
    (prev : Option Char) (a b : Text) :
    badness prev (a ++ (gap ++ b)) = badness prev a + badness none b := by
  rw [badness_append, badness_gap hgap hne]

lemma all_isGap_of_isAllBlank {t : Text} (h : t.isAllBlank = true) : t.all isGap = true :=
  List.all_eq_true.mpr fun c hc => isGap_of_isBlank (List.all_eq_true.mp h c hc)

/-! Assignments that are turned around. -/

lemma ne_nil_of_name? {t name rest : Text} (h : name? t = some (name, rest)) : name ≠ [] := by
  rintro rfl
  cases t with
  | nil => cases h
  | cons c t =>
    rw [name?] at h
    split at h
    · cases h
    · cases h

lemma eq_of_turnAssignment? {code code' : Text} (h : turnAssignment? code = some code') :
    ∃ name gap gap' : Text, (name ≠ [] ∧ name.all isWordChar = true) ∧ gap.isAllBlank = true ∧
      gap'.isAllBlank = true ∧
      code = code.indentation ++ (name ++ (gap ++ ("=" ++ (gap' ++ ("self." ++ name))))) ∧
      code' = code.indentation ++ ("self." ++ (name ++ (" = " ++ name))) := by
  simp only [turnAssignment?, assigned?, Option.bind_eq_bind, Option.bind_eq_some_iff,
    Prod.exists] at h
  obtain ⟨name, value, ⟨name', rest, hname, value', hvalue, hpair⟩, rest', hself, field, after,
    hfield, h⟩ := h
  obtain ⟨hn, hv⟩ := Prod.mk.inj (Option.some.inj hpair)
  rw [hn] at hname
  rw [hv] at hvalue
  split at h
  · next hc =>
    simp only [Bool.and_eq_true, List.isEmpty_iff, beq_iff_eq] at hc
    obtain ⟨hafter, hsame⟩ := hc
    rw [hafter, ← hsame] at hfield
    obtain ⟨hstart, hword⟩ := eq_of_name? hname
    have hrest' : rest' = name := (eq_of_name? hfield).1.trans (List.append_nil name)
    refine ⟨name, indentation rest, indentation value, ⟨ne_nil_of_name? hname, hword⟩,
      isAllBlank_indentation rest, isAllBlank_indentation value, ?_, ?_⟩
    · rw [← hrest', ← eq_of_afterBlanksAnd? hself, hrest', ← eq_of_afterBlanksAnd? hvalue, ← hstart]
      exact trimStart_append code
    · rw [← Option.some.inj h, ← hsame]
      simp only [List.append_assoc]
  · cases h

lemma turnAssignment_better {code code' : Text} (hone : OneLine code)
    (h : turnAssignment? code = some code') (tail : Text) :
    Better (code ++ tail) (code' ++ tail) := by
  obtain ⟨name, gap, gap', ⟨-, hname⟩, hgap, hgap', hcode, hcode'⟩ := eq_of_turnAssignment? h
  have hindent := isAllBlank_indentation code
  generalize code.indentation = indent at *
  subst hcode hcode'
  right
  have hbefore : (indent ++ (name ++ (gap ++ ("=" ++ (gap' ++ ("self." ++ name)))))) ++ tail =
      indent ++ (name ++ ((gap ++ ("=" ++ gap')) ++ ("self" ++ ("." ++ (name ++ tail))))) := by simp
  have hafter : (indent ++ ("self." ++ (name ++ (" = " ++ name)))) ++ tail =
      indent ++ ("self" ++ ("." ++ (name ++ (" = " ++ (name ++ tail))))) := by simp
  rw [hbefore, hafter]
  simp only [oneLine_append] at hone
  obtain ⟨-, hnameLine, -, -, hgapLine, -⟩ := hone
  refine ⟨?_, .inr ⟨?_, ?_⟩⟩
  · have hsign : weight (" = " : Text) = weight ("=" : Text) := rfl
    simp only [weight_append, weight_blanks hindent, weight_blanks hgap, weight_blanks hgap', hsign]
    omega
  · have hsign : (gap ++ ("=" ++ gap') : Text).all isGap = true := by
      rw [List.all_append, List.all_append, all_isGap_of_isAllBlank hgap,
        all_isGap_of_isAllBlank hgap']
      decide
    rw [badness_gap_start (all_isGap_of_isAllBlank hindent),
      badness_gap_start (all_isGap_of_isAllBlank hindent), badness_around hsign (by simp),
      badness_around (by decide) (by decide), badness_around (by decide) (by decide),
      badness_around (by decide) (by decide)]
    omega
  · have hblank : ∀ {t : Text}, t.isAllBlank = true → '=' ∉ t := fun ht =>
      not_mem_of_all ht (by decide)
    have hsign : '=' ∉ name := not_mem_of_all hname (by decide)
    have hrest : dotsBehind (name ++ tail) = dotsBehind tail := dotsBehind_append hsign tail
    have hline : dotsOnLine (name ++ tail) = dotsOnLine tail :=
      dotsOnLine_append (not_mem_of_all hname (by decide)) hnameLine tail
    have hturned : dotsBehind (indent ++ ("self" ++ ("." ++ (name ++ (" = " ++ (name ++ tail)))))) =
        dotsOnLine tail + dotsBehind tail := by
      rw [dotsBehind_append (hblank hindent), dotsBehind_append (by decide),
        dotsBehind_append (by decide), dotsBehind_append hsign, ← hrest, ← hline]
      have hblankLine := dotsOnLine_append (a := [' ']) (by decide) (by decide) (name ++ tail)
      show 0 + (dotsOnLine ([' '] ++ (name ++ tail)) + (0 + dotsBehind (name ++ tail))) = _
      rw [hblankLine]
      omega
    have hfirst : dotsBehind (indent ++ (name ++ ((gap ++ ("=" ++ gap')) ++
        ("self" ++ ("." ++ (name ++ tail)))))) = dotsOnLine tail + 1 + dotsBehind tail := by
      have hparts : (gap ++ ("=" ++ gap')) ++ ("self" ++ ("." ++ (name ++ tail))) =
          gap ++ ('=' :: (gap' ++ ("self" ++ ('.' :: (name ++ tail))))) := by simp
      have hdots : dotsOnLine (gap' ++ ("self" ++ ('.' :: (name ++ tail)))) =
          dotsOnLine tail + 1 := by
        rw [dotsOnLine_append (not_mem_of_all hgap' (by decide)) hgapLine,
          dotsOnLine_append (by decide) (by decide), ← hline]
        simp [dotsOnLine]
      rw [dotsBehind_append (hblank hindent), dotsBehind_append hsign, hparts,
        dotsBehind_append (hblank hgap), dotsBehind, if_pos rfl, hdots,
        dotsBehind_append (hblank hgap'), dotsBehind_append (by decide), dotsBehind,
        if_neg (by decide), hrest]
      omega
    rw [hturned, hfirst]
    omega

/-! Lines and texts. -/

lemma mend_better {revision : Text → Option Text} {d : Draft}
    (h : ∀ code', revision d.code = some code' → BetterBefore d.code code') (fix : Fix) :
    BetterBefore d.code (d.mend fix revision).code := by
  rw [Draft.mend]
  cases hr : revision d.code with
  | none => exact .refl _
  | some code' => exact h code' hr

lemma referenceDraft_better {code : Text} (hone : OneLine code) (inInitializer : Bool) :
    BetterBefore code (referenceDraft inInitializer code).code := by
  have hfold : ∀ (table : List (Text × Text)) (d : Draft), (∀ fix ∈ table, fix ∈ callFixes) →
      BetterBefore d.code (table.foldl (fun d fix =>
        d.mend (.replaced fix.1 fix.2) (substitute? (callRule fix.1 fix.2))) d).code := by
    intro table
    induction table with
    | nil => exact fun d _ => .refl _
    | cons fix rest ih =>
      intro d hmem
      have hfix : BetterBefore d.code
          (d.mend (.replaced fix.1 fix.2) (substitute? (callRule fix.1 fix.2))).code :=
        mend_better (fun code' h => substitute_callRule_better (hmem fix List.mem_cons_self) h) _
      exact hfix.trans (ih _ fun fix hfix => hmem fix (List.mem_cons_of_mem _ hfix))
  unfold referenceDraft
  generalize callFixes = table at hfold ⊢
  cases inInitializer with
  | false => exact hfold table (.ofCode code) fun _ h => h
  | true =>
    have hturn : BetterBefore code ((Draft.ofCode code).mend .assignmentOrder turnAssignment?).code :=
      mend_better (d := .ofCode code) (fun _ h tail => .inr (turnAssignment_better hone h tail)) _
    exact hturn.trans (hfold table _ fun _ h => h)

lemma references_improved (text : Text) : Improved text (references text).text := by
  refine visit_improved (fun inInitializer site hone => ?_) false text
  unfold referenceStep
  split
  · have hline := site.code_append_tail
    have hcode : OneLine site.code := by
      rw [← hline, oneLine_append] at hone
      exact hone.1
    have hbetter (inInitializer : Bool) := referenceDraft_better hcode inInitializer site.tail
    simp only [hline] at hbetter
    exact hbetter _
  · exact site.improvedBy_same

end Repair
end Marginalia
