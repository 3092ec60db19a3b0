import Marginalia.Proofs.Cuts
import Marginalia.Proofs.OneLine
import Marginalia.Proofs.Weight
import Marginalia.Text.Substitution

/-!
# Substitution as an improvement

A substitution keeps some characters and exchanges pieces of text. It improves the text if each
exchange makes a piece heavier, or else rids it of bad pairs without making new ones where the piece
meets its neighbours.
-/

namespace Marginalia

open Text Repair

/-- A text that follows what a rule knows, and what a substitution makes of it. -/
inductive Substituted (rule : Rule) : Before → Text → Text → Prop
  | nil (b : Before) : Substituted rule b [] []
  | keep {b : Before} {c : Char} {rest out : Text} (h : rule b (c :: rest) = none)
    (hrest : Substituted rule (b.step c) rest out) : Substituted rule b (c :: rest) (c :: out)
  | swap {b : Before} {old new rest out : Text} (hne : old ≠ [])
    (h : rule b (old ++ rest) = some (old.length, new))
    (hrest : Substituted rule (old.foldl Before.step b) rest out) :
    Substituted rule b (old ++ rest) (new ++ out)

/-- A rule that only takes what is there, and something whenever it applies. -/
def Rule.Takes (rule : Rule) : Prop :=
  ∀ b t n new, rule b t = some (n, new) → ∃ old rest, t = old ++ rest ∧ n = old.length ∧ old ≠ []

lemma substituteFrom_skip (rule : Rule) (b : Before) (skip : Nat) (t : Text) :
    substituteFrom rule b skip t =
      substituteFrom rule ((t.take skip).foldl Before.step b) 0 (t.drop skip) := by
  induction t generalizing b skip with
  | nil => cases skip <;> simp [substituteFrom]
  | cons c rest ih =>
    cases skip with
    | zero => rfl
    | succ skip => exact ih (b.step c) skip

lemma substituteFrom_swap {rule : Rule} {b : Before} {old new rest : Text} (hne : old ≠ [])
    (h : rule b (old ++ rest) = some (old.length, new)) :
    substituteFrom rule b 0 (old ++ rest) =
      new ++ substituteFrom rule (old.foldl Before.step b) 0 rest := by
  obtain ⟨c, old, rfl⟩ := List.exists_cons_of_ne_nil hne
  rw [List.cons_append] at h ⊢
  rw [substituteFrom, h]
  simp only [List.length_cons, Nat.add_sub_cancel]
  rw [substituteFrom_skip, List.take_left, List.drop_left]
  rfl

lemma substituted_substituteFrom {rule : Rule} (hrule : rule.Takes) (b : Before) (t : Text) :
    Substituted rule b t (substituteFrom rule b 0 t) := by
  induction hn : t.length using Nat.strongRecOn generalizing b t with
  | _ n ih =>
    cases t with
    | nil => exact .nil b
    | cons c rest =>
      cases hr : rule b (c :: rest) with
      | none =>
        have hkeep : substituteFrom rule b 0 (c :: rest) =
            c :: substituteFrom rule (b.step c) 0 rest := by rw [substituteFrom, hr]
        rw [hkeep]
        exact .keep hr (ih rest.length (by simp [← hn]) _ _ rfl)
      | some pair =>
        obtain ⟨length, new⟩ := pair
        obtain ⟨old, rest', ht, rfl, hne⟩ := hrule b _ _ _ hr
        rw [ht] at hr hn ⊢
        rw [substituteFrom_swap hne hr]
        refine .swap hne hr (ih rest'.length ?_ _ _ rfl)
        have hpos : 0 < old.length := List.length_pos_iff.mpr hne
        rw [← hn, List.length_append]
        omega

lemma substituted_substitute {rule : Rule} (hrule : rule.Takes) (t : Text) :
    Substituted rule .start t (substitute rule t) :=
  substituted_substituteFrom hrule .start t

/-- A rule that makes what it exchanges heavier. -/
def Rule.Gains (rule : Rule) : Prop :=
  ∀ b t n new, rule b t = some (n, new) →
    ∃ old rest, t = old ++ rest ∧ n = old.length ∧ old ≠ [] ∧ (new = old ∨ weight old < weight new)

lemma Rule.Gains.takes {rule : Rule} (h : rule.Gains) : rule.Takes := fun b t n new hr => by
  obtain ⟨old, rest, ht, hn, hne, -⟩ := h b t n new hr
  exact ⟨old, rest, ht, hn, hne⟩

lemma Substituted.of_gains {rule : Rule} (hrule : rule.Gains) {b : Before} {t out : Text}
    (h : Substituted rule b t out) : out = t ∨ weight t < weight out := by
  induction h with
  | nil b => exact .inl rfl
  | keep _ _ ih =>
    rcases ih with rfl | ih
    · exact .inl rfl
    · right
      simp only [weight_cons]
      omega
  | swap hne hr hrest ih =>
    obtain ⟨old, rest, ht, hn, -, hgain⟩ := hrule _ _ _ _ hr
    obtain ⟨rfl, rfl⟩ := List.append_inj ht hn
    simp only [weight_append]
    rcases hgain with rfl | hgain
    · rcases ih with rfl | ih
      · exact .inl rfl
      · right
        omega
    · rcases ih with rfl | ih
      · right
        omega
      · right
        omega

lemma eq_of_changed? {old new t : Text} (h : changed? old new = some t) : t = new ∧ new ≠ old := by
  rw [changed?] at h
  split at h
  · cases h
  · next hne => exact ⟨(Option.some.inj h).symm, hne⟩

/-- A substitution that gains makes the text heavier where it applies. -/
lemma Rule.Gains.substitute? {rule : Rule} (h : rule.Gains) {t t' : Text}
    (ht : substitute? rule t = some t') : weight t < weight t' := by
  obtain ⟨rfl, hne⟩ := eq_of_changed? ht
  exact ((substituted_substitute h.takes t).of_gains h).resolve_left hne

/-- Whether a correction leaves the weight as it is, and the characters that the neighbours on its
left meet, but has fewer bad pairs; it makes none with what may follow. -/
def tidies (old new : Text) : Bool :=
  weight old == weight new && old.head? == new.head? && old.head?.isSome
    && decide (badness none new < badness none old)
    && (old.getLast? == new.getLast? || new.getLast? != some 'u')

/-- A rule that exchanges a piece for a tidier one. Where these end in different characters no word
goes on behind them. -/
def Rule.Tidies (rule : Rule) : Prop :=
  ∀ b t n new, rule b t = some (n, new) → ∃ old rest, t = old ++ rest ∧ n = old.length ∧
    tidies old new = true ∧ (old.getLast? = new.getLast? ∨ continuesWord rest = false)

lemma ne_nil_of_tidies {old new : Text} (h : tidies old new = true) : old ≠ [] ∧ new ≠ [] := by
  simp only [tidies, Bool.and_eq_true, beq_iff_eq] at h
  obtain ⟨⟨⟨⟨-, hhead⟩, hsome⟩, -⟩, -⟩ := h
  constructor
  · rintro rfl
    exact absurd hsome (by decide)
  · rintro rfl
    rw [hhead] at hsome
    exact absurd hsome (by decide)

lemma Rule.Tidies.takes {rule : Rule} (h : rule.Tidies) : rule.Takes := fun b t n new hr => by
  obtain ⟨old, rest, ht, hn, htidy, -⟩ := h b t n new hr
  exact ⟨old, rest, ht, hn, (ne_nil_of_tidies htidy).1⟩

lemma badPair_of_not_wordChar {a : Option Char} (ha : a ≠ some 'u') {d : Char}
    (hd : isWordChar d = false) : badPair a (some d) = 0 := by
  cases a with
  | none => rfl
  | some a =>
    have hnot : (a, d) ∉ badPairs := by
      intro hmem
      have hall : ∀ pair ∈ badPairs, isWordChar pair.2 = true ∨ pair.1 = 'u' := by decide
      rcases hall _ hmem with hword | hu
      · rw [hd] at hword
        cases hword
      · exact ha (congrArg some hu)
    simp [badPair, hnot]

lemma badness_eq_of_ne_nil (prev : Option Char) {t : Text} (h : t ≠ []) :
    badness prev t = badPair prev t.head? + badness none t := by
  obtain ⟨c, rest, rfl⟩ := List.exists_cons_of_ne_nil h
  simp [badness, badPair]

lemma lastOf_of_ne_nil (prev : Option Char) {t : Text} (h : t ≠ []) :
    lastOf prev t = t.getLast? := by
  rw [lastOf, List.getLast?_eq_some_getLast h]
  rfl

lemma Substituted.of_tidies {rule : Rule} (hrule : rule.Tidies) {b : Before} {t out : Text}
    (h : Substituted rule b t out) : weight t = weight out ∧ ∀ prev prev' : Option Char,
      (∀ d ∈ t.head?, badPair prev' (some d) ≤ badPair prev (some d)) →
        badness prev' out ≤ badness prev t ∧ (out = t ∨ badness prev' out < badness prev t) := by
  induction h with
  | nil b => exact ⟨rfl, fun _ _ _ => ⟨Nat.le_refl _, .inl rfl⟩⟩
  | @keep b c rest out _ _ ih =>
    obtain ⟨hweight, ih⟩ := ih
    refine ⟨by rw [weight_cons, weight_cons, hweight], fun prev prev' hprev => ?_⟩
    obtain ⟨hle, hlt⟩ := ih (some c) (some c) fun _ _ => Nat.le_refl _
    have hpair := hprev c rfl
    simp only [badness]
    refine ⟨by omega, ?_⟩
    rcases hlt with rfl | hlt
    · exact .inl rfl
    · right
      omega
  | @swap b old new rest out hne hr hrest ih =>
    obtain ⟨hweight, ih⟩ := ih
    obtain ⟨old', rest', ht, hn, htidy, hend⟩ := hrule _ _ _ _ hr
    obtain ⟨rfl, rfl⟩ := List.append_inj ht hn
    have hnew := (ne_nil_of_tidies htidy).2
    simp only [tidies, Bool.and_eq_true, Bool.or_eq_true, beq_iff_eq, bne_iff_ne,
      decide_eq_true_eq] at htidy
    obtain ⟨⟨⟨⟨hw, hhead⟩, -⟩, hfewer⟩, hlast⟩ := htidy
    refine ⟨by rw [weight_append, weight_append, hw, hweight], fun prev prev' hprev => ?_⟩
    have hmeet : badPair prev' new.head? ≤ badPair prev old.head? := by
      rw [← hhead]
      obtain ⟨c, old, rfl⟩ := List.exists_cons_of_ne_nil hne
      exact hprev c rfl
    have hrest : ∀ d ∈ rest.head?, badPair new.getLast? (some d) ≤ badPair old.getLast? (some d) := by
      intro d hd
      rcases hend with heq | hstop
      · exact Nat.le_of_eq (by rw [heq])
      · rcases hlast with heq | hu
        · exact Nat.le_of_eq (by rw [heq])
        · have hword : isWordChar d = false := by
            rw [continuesWord, Option.mem_def.mp hd] at hstop
            simpa using hstop
          rw [badPair_of_not_wordChar hu hword]
          exact Nat.zero_le _
    obtain ⟨hle, -⟩ := ih _ _ hrest
    simp only [badness_append, lastOf_of_ne_nil _ hne, lastOf_of_ne_nil _ hnew,
      badness_eq_of_ne_nil prev hne, badness_eq_of_ne_nil prev' hnew]
    exact ⟨by omega, .inr (by omega)⟩

/-- A substitution that tidies makes the text better where it applies. -/
lemma Rule.Tidies.substitute? {rule : Rule} (h : rule.Tidies) {t t' : Text}
    (ht : substitute? rule t = some t') : weight t = weight t' ∧
      ∀ prev, badness prev t' < badness prev t := by
  obtain ⟨rfl, hne⟩ := eq_of_changed? ht
  obtain ⟨hweight, hbad⟩ := (substituted_substitute h.takes t).of_tidies h
  exact ⟨hweight, fun prev => (hbad prev prev fun _ _ => Nat.le_refl _).2.resolve_left hne⟩

/-! Rules that replace a piece of text. -/

lemma eq_of_replaced {c : Bool} {old new t put : Text} {n : Nat}
    (hc : c = true → t.startsWith old = true)
    (h : (if c then some (old.length, new) else none) = some (n, put)) :
    ∃ rest, t = old ++ rest ∧ n = old.length ∧ put = new := by
  split at h
  · next hholds =>
    obtain ⟨rfl, rfl⟩ := Prod.mk.inj (Option.some.inj h)
    obtain ⟨rest, ht⟩ := (startsWith_iff t old).mp (hc hholds)
    exact ⟨rest, ht, rfl, rfl⟩
  · cases h

lemma eq_of_freshLiteral {old new t put : Text} {b : Before} {n : Nat}
    (h : Rule.freshLiteral old new b t = some (n, put)) :
    ∃ rest, t = old ++ rest ∧ n = old.length ∧ put = new :=
  eq_of_replaced (fun hc => ((Bool.and_eq_true _ _).mp hc).2) h

/-- A piece that a rule took from the start of a text, up to what follows it. -/
lemma length_of_taken (old rest : Text) : (old ++ rest).length - rest.length = old.length := by
  rw [List.length_append, Nat.add_sub_cancel]

/-! Substitutions on one line. -/

/-- A rule that puts no newline in the place of a piece without one. -/
def Rule.KeepsLine (rule : Rule) : Prop :=
  ∀ b t n new, rule b t = some (n, new) → OneLine (t.take n) → OneLine new

lemma Substituted.oneLine {rule : Rule} (hrule : rule.KeepsLine) {b : Before} {t out : Text}
    (h : Substituted rule b t out) (ht : OneLine t) : OneLine out := by
  induction h with
  | nil => exact ht
  | keep _ _ ih =>
    rw [oneLine_cons] at ht ⊢
    exact ⟨ht.1, ih ht.2⟩
  | swap _ hr _ ih =>
    rw [oneLine_append] at ht ⊢
    refine ⟨hrule _ _ _ _ hr ?_, ih ht.2⟩
    rw [List.take_left]
    exact ht.1

lemma Rule.KeepsLine.substitute {rule : Rule} (hrule : rule.KeepsLine) (htakes : rule.Takes)
    {t : Text} (ht : OneLine t) : OneLine (t.substitute rule) :=
  (substituted_substitute htakes t).oneLine hrule ht

/-- A rule that always puts the same text, which is on one line. -/
lemma Rule.keepsLine_of_put {rule : Rule} (put : Text) (hput : OneLine put)
    (h : ∀ b t n new, rule b t = some (n, new) → new = put) : rule.KeepsLine := by
  intro b t n new hr _
  rw [h b t n new hr]
  exact hput

end Marginalia
