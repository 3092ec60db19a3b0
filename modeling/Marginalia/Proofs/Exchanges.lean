import Marginalia.Proofs.Literals
import Marginalia.Proofs.Substituted

/-!
# What a substitution exchanges

A substitution keeps the literals of a text exactly if each of its exchanges keeps the characters in
literals of the piece that is exchanged, provided that exchanges leave a reader where it was and that
those which do change such characters all push a sum over them in one direction.
-/

namespace Marginalia

open Text

/-- A piece of a text and what takes its place, with what is known about the text before. -/
structure Exchange where
  before : Before
  old : Text
  new : Text
deriving Repr, DecidableEq

/-- Whether a piece has the same characters in literals as what takes its place. -/
def Exchange.KeepsLiterals (e : Exchange) : Prop :=
  literalChars e.before.code e.old = literalChars e.before.code e.new

namespace Text

/-- What a substitution exchanges in a text of which the first `skip` characters have been taken. -/
def exchangesFrom (rule : Rule) (b : Before) : Nat → Text → List Exchange
  | _, [] => []
  | skip + 1, c :: rest => exchangesFrom rule (b.step c) skip rest
  | 0, c :: rest =>
    match rule b (c :: rest) with
    | some (length, new) =>
      ⟨b, (c :: rest).take length, new⟩ :: exchangesFrom rule (b.step c) (length - 1) rest
    | none => exchangesFrom rule (b.step c) 0 rest

/-- What a substitution exchanges in a text, from the left. -/
def exchanges (rule : Rule) (t : Text) : List Exchange := exchangesFrom rule .start 0 t

end Text

variable {rule : Rule} {b : Before}

lemma Before.code_foldl (b : Before) (t : Text) : (t.foldl Before.step b).code = b.code.run t := by
  induction t generalizing b with
  | nil => rfl
  | cons c rest ih => exact ih (b.step c)

lemma exchangesFrom_skip (rule : Rule) (b : Before) (skip : Nat) (t : Text) :
    exchangesFrom rule b skip t =
      exchangesFrom rule ((t.take skip).foldl Before.step b) 0 (t.drop skip) := by
  induction t generalizing b skip with
  | nil => cases skip <;> simp [exchangesFrom]
  | cons c rest ih =>
    cases skip with
    | zero => rfl
    | succ skip => exact ih (b.step c) skip

lemma exchangesFrom_keep {c : Char} {rest : Text} (h : rule b (c :: rest) = none) :
    exchangesFrom rule b 0 (c :: rest) = exchangesFrom rule (b.step c) 0 rest := by
  rw [exchangesFrom, h]

lemma exchangesFrom_swap {old new rest : Text} (hne : old ≠ [])
    (h : rule b (old ++ rest) = some (old.length, new)) :
    exchangesFrom rule b 0 (old ++ rest) =
      ⟨b, old, new⟩ :: exchangesFrom rule (old.foldl Before.step b) 0 rest := by
  obtain ⟨c, old, rfl⟩ := List.exists_cons_of_ne_nil hne
  rw [List.cons_append] at h ⊢
  rw [exchangesFrom, h]
  simp only [List.length_cons, Nat.add_sub_cancel, List.take_succ_cons, List.take_left]
  rw [exchangesFrom_skip, List.take_left, List.drop_left]
  rfl

/-- The rule applies where something is exchanged. -/
lemma Substituted.applies {t out : Text} (h : Substituted rule b t out) (hb : b.code.Sound) :
    ∀ e ∈ exchangesFrom rule b 0 t, e.before.code.Sound ∧
      ∃ rest, rule e.before (e.old ++ rest) = some (e.old.length, e.new) := by
  induction h with
  | nil => simp [exchangesFrom]
  | keep hnone _ ih =>
    rw [exchangesFrom_keep hnone]
    exact ih (hb.step _)
  | @swap b old new rest out hne hr _ ih =>
    rw [exchangesFrom_swap hne hr, List.forall_mem_cons]
    refine ⟨⟨hb, rest, hr⟩, ih ?_⟩
    rw [Before.code_foldl]
    exact hb.run old

lemma applies_of_mem_exchanges (hrule : rule.Takes) {t : Text} {e : Exchange}
    (he : e ∈ exchanges rule t) : e.before.code.Sound ∧
      ∃ rest, rule e.before (e.old ++ rest) = some (e.old.length, e.new) :=
  (substituted_substitute hrule t).applies CodeState.sound_start e he

/-- A rule whose exchanges leave a reader of the text where it was, and raise what the characters in
literals count if they do not keep them. -/
def Rule.Raises (f : Char → Int) (rule : Rule) : Prop :=
  ∀ b t n new, b.code.Sound → rule b t = some (n, new) → ∃ old rest, t = old ++ rest ∧
    n = old.length ∧ old ≠ [] ∧ (b.code.run new).Agree (b.code.run old) ∧
    (literalChars b.code old = literalChars b.code new ∨
      literalSum f b.code old < literalSum f b.code new)

variable {f : Char → Int}

/-- A substitution keeps the characters in literals if each exchange does, and raises what they count
otherwise. -/
lemma Substituted.literals_cases (hrule : rule.Raises f) {t out : Text}
    (h : Substituted rule b t out) (hb : b.code.Sound) :
    ((∀ e ∈ exchangesFrom rule b 0 t, e.KeepsLiterals) ∧
      literalChars b.code t = literalChars b.code out) ∨
    ((¬∀ e ∈ exchangesFrom rule b 0 t, e.KeepsLiterals) ∧
      literalSum f b.code t < literalSum f b.code out) := by
  induction h with
  | nil => exact .inl ⟨by simp [exchangesFrom], rfl⟩
  | @keep b c rest out hnone _ ih =>
    have hcons : ∀ t : Text, literalChars b.code (c :: t) =
        literalChars b.code [c] ++ literalChars (b.step c).code t := fun t =>
      literalChars_append b.code [c] t
    have hsum : ∀ t : Text, literalSum f b.code (c :: t) =
        literalSum f b.code [c] + literalSum f (b.step c).code t := fun t =>
      literalSum_append f b.code [c] t
    rw [exchangesFrom_keep hnone, hcons rest, hcons out, hsum rest, hsum out,
      List.append_cancel_left_eq, Int.add_lt_add_iff_left]
    exact ih (hb.step c)
  | @swap b old new rest out hne hr _ ih =>
    obtain ⟨old', rest', ht, hn, -, hagree, hpiece⟩ := hrule _ _ _ _ hb hr
    obtain ⟨rfl, rfl⟩ := List.append_inj ht hn
    rw [Before.code_foldl] at ih
    rw [exchangesFrom_swap hne hr, List.forall_mem_cons, literalChars_append, literalChars_append,
      literalSum_append, literalSum_append, literalChars_congr hagree, literalSum_congr f hagree]
    have hrest := ih (hb.run old)
    by_cases hkeeps : (⟨b, old, new⟩ : Exchange).KeepsLiterals
    · have hsum : literalSum f b.code old = literalSum f b.code new := by
        rw [literalSum, show literalChars b.code old = _ from hkeeps]
        rfl
      rw [hsum, show literalChars b.code old = _ from hkeeps, List.append_cancel_left_eq,
        Int.add_lt_add_iff_left]
      simpa only [hkeeps, true_and] using hrest
    · have hlt := hpiece.resolve_left hkeeps
      right
      refine ⟨fun hall => hkeeps hall.1, ?_⟩
      rcases hrest with ⟨-, heq⟩ | ⟨-, hlater⟩
      · have hsame : literalSum f (b.code.run old) rest = literalSum f (b.code.run old) out := by
          rw [literalSum, heq]
          rfl
        omega
      · omega

lemma Rule.Raises.literals_cases (hrule : rule.Raises f) (htakes : rule.Takes) (t : Text) :
    ((∀ e ∈ exchanges rule t, e.KeepsLiterals) ∧ literals (substitute rule t) = literals t) ∨
    ((¬∀ e ∈ exchanges rule t, e.KeepsLiterals) ∧
      literalSum f .start t < literalSum f .start (substitute rule t)) := by
  have hcases := (substituted_substitute htakes t).literals_cases hrule CodeState.sound_start
  rw [literals_eq_iff]
  exact hcases.imp_left fun h => ⟨h.1, h.2.symm⟩

lemma literalSum_eq_of_literals {t t' : Text} (h : literals t = literals t') :
    literalSum f .start t = literalSum f .start t' := by
  rw [literalSum, (literals_eq_iff t t').mp h]
  rfl

/-- A substitution by such a rule keeps the literals of a text exactly if every exchange keeps the
characters in literals. -/
lemma Rule.Raises.literals_substitute_iff (hrule : rule.Raises f) (htakes : rule.Takes) (t : Text) :
    literals (substitute rule t) = literals t ↔ ∀ e ∈ exchanges rule t, e.KeepsLiterals := by
  rcases hrule.literals_cases htakes t with ⟨hall, heq⟩ | ⟨hnot, hlt⟩
  · exact ⟨fun _ => hall, fun _ => heq⟩
  · refine ⟨fun heq => ?_, fun hall => absurd hall hnot⟩
    rw [literalSum_eq_of_literals heq] at hlt
    exact absurd hlt (Int.lt_irrefl _)

end Marginalia
