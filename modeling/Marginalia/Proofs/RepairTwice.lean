import Marginalia.Proofs.ImprovedLogic
import Marginalia.Proofs.ImprovedPitfalls
import Marginalia.Proofs.ImprovedSpelling
import Marginalia.Proofs.ReindentTwice
import Marginalia.Repair

/-!
# Repairing twice

No pass of repair undoes what another one did, so repair leaves a text alone exactly when each of its
passes does. Repairing a text that was repaired already is therefore done for nothing exactly when
no pass finds anything left in it; that is not always so.
-/

namespace Marginalia.Repair

/-- One text is not worse than another. -/
def NotWorse (a b : Text) : Prop := Better a b ∨ Even a b

lemma NotWorse.refl (a : Text) : NotWorse a a := .inr ⟨rfl, rfl, rfl⟩

lemma NotWorse.trans {a b c : Text} (h : NotWorse a b) (h' : NotWorse b c) : NotWorse a c := by
  unfold NotWorse Better Even at *
  omega

lemma Improved.notWorse {a b : Text} (h : Improved a b) : NotWorse a b := by
  obtain rfl | h := h
  · exact .refl _
  · exact .inl h

/-- What was improved and is not worse than before is the same. -/
lemma Improved.eq {a b : Text} (h : Improved a b) (h' : NotWorse b a) : b = a := by
  obtain heq | h := h
  · exact heq
  · unfold NotWorse Better Even at *
    omega

lemma shape_text (text : Text) : (shape text).text =
    (reindent (printing (headers text).text).text).text := by
  simp only [shape, Outcome.andThen]

lemma reshape_succ_text (rounds : Nat) (text : Text) : (reshape (rounds + 1) text).text =
    if (shape text).text = text then (shape text).text
    else (reshape rounds (shape text).text).text := by
  rw [reshape]
  simp only [Outcome.andThen]
  split <;> rfl

lemma shape_notWorse (text : Text) : NotWorse text (shape text).text := by
  rw [shape_text]
  exact ((headers_improved text).notWorse.trans (printing_improved _).notWorse).trans
    (.inr (reindent_even _))

lemma reshape_notWorse (rounds : Nat) (text : Text) : NotWorse text (reshape rounds text).text := by
  induction rounds generalizing text with
  | zero => exact .refl text
  | succ rounds ih =>
    rw [reshape_succ_text]
    split
    · exact shape_notWorse text
    · exact (shape_notWorse text).trans (ih _)

/-- Where the shape of a text makes it no better, only its indentation is rebuilt. -/
lemma shape_of_notWorse {text : Text} (h : NotWorse (shape text).text text) :
    (headers text).text = text ∧ (printing text).text = text ∧
      (shape text).text = (reindent text).text := by
  rw [shape_text] at h ⊢
  have hindent : NotWorse (printing (headers text).text).text text :=
    NotWorse.trans (.inr (reindent_even _)) h
  have hheaders : (headers text).text = text :=
    (headers_improved text).eq ((printing_improved _).notWorse.trans hindent)
  rw [hheaders] at hindent ⊢
  have hprinting : (printing text).text = text := (printing_improved text).eq hindent
  exact ⟨rfl, hprinting, by rw [hprinting]⟩

lemma reshape_of_notWorse {rounds : Nat} {text : Text}
    (h : NotWorse (reshape (rounds + 1) text).text text) :
    (headers text).text = text ∧ (printing text).text = text ∧
      (reshape (rounds + 1) text).text = (reindent text).text := by
  induction rounds generalizing text with
  | zero =>
    have hreshape : (reshape (0 + 1) text).text = (shape text).text := by
      rw [reshape_succ_text, reshape, ite_self]
    rw [hreshape] at h ⊢
    exact shape_of_notWorse h
  | succ rounds ih =>
    rw [reshape_succ_text] at h ⊢
    split at h
    · next hstill =>
      rw [if_pos hstill]
      exact shape_of_notWorse h
    · next hmoved =>
      rw [if_neg hmoved]
      -- The first round made the text no better, nor did the others make it so.
      obtain ⟨hheaders, hprinting, hshape⟩ :=
        shape_of_notWorse ((reshape_notWorse (rounds + 1) _).trans h)
      obtain ⟨-, -, hrest⟩ := ih (h.trans (shape_notWorse text))
      rw [hshape, reindent_reindent] at hrest
      rw [hshape]
      exact ⟨hheaders, hprinting, hrest⟩

lemma repair?_text (text : Text) : (repair? text).map (·.text) =
    (pitfalls? (reshape shapeRounds (references (spelling text).text).text).text).map fun o =>
      (logic o.text).text := by
  simp only [repair?, Outcome.andThen, Option.map_map, Function.comp_def]

/-- Repair leaves a text alone exactly when every pass does. -/
theorem repair?_fixed_iff (text : Text) : (repair? text).map (·.text) = some text ↔
    ∀ p : Pass, (p.run? text).map (·.text) = some text := by
  rw [repair?_text]
  constructor
  · intro h
    obtain ⟨o, hpitfalls, hlogic⟩ := Option.map_eq_some_iff.mp h
    have hreshape := reshape_notWorse shapeRounds (references (spelling text).text).text
    have hrest := ((pitfalls?_improved hpitfalls).notWorse.trans (logic_improved o.text).notWorse)
    rw [hlogic] at hrest
    have hspelling : (spelling text).text = text :=
      (spelling_improved text).eq
        ((references_improved _).notWorse.trans (hreshape.trans hrest))
    rw [hspelling] at hreshape hrest hpitfalls
    have hreferences : (references text).text = text :=
      (references_improved text).eq (hreshape.trans hrest)
    rw [hreferences] at hreshape hrest hpitfalls
    obtain ⟨hheaders, hprinting, hrounds⟩ := reshape_of_notWorse hrest
    have hindent : (reshape shapeRounds text).text = (reindent text).text := hrounds
    have htext : o.text = (reshape shapeRounds text).text :=
      (pitfalls?_improved hpitfalls).eq ((logic_improved o.text).notWorse.trans (by
        rw [hlogic]
        exact hreshape))
    have hlast : text = o.text := by
      have hback := (logic_improved o.text).eq (by rw [hlogic, htext]; exact hreshape)
      rw [← hback, hlogic]
    rw [← htext, ← hlast] at hindent hpitfalls
    rw [← hlast] at hlogic
    intro p
    cases p with
    | spelling => exact congrArg some hspelling
    | references => exact congrArg some hreferences
    | headers => exact congrArg some hheaders
    | printing => exact congrArg some hprinting
    | indentation => exact congrArg some hindent.symm
    | pitfalls =>
      rw [Pass.run?, hpitfalls, Option.map_some, ← hlast]
    | logic => exact congrArg some hlogic
  · intro h
    have hspelling : (spelling text).text = text := Option.some.inj (h .spelling)
    have hreferences : (references text).text = text := Option.some.inj (h .references)
    have hheaders : (headers text).text = text := Option.some.inj (h .headers)
    have hprinting : (printing text).text = text := Option.some.inj (h .printing)
    have hindent : (reindent text).text = text := Option.some.inj (h .indentation)
    have hlogic : (logic text).text = text := Option.some.inj (h .logic)
    obtain ⟨o, hpitfalls, htext⟩ := Option.map_eq_some_iff.mp (h .pitfalls)
    have hshape : (shape text).text = text := by rw [shape_text, hheaders, hprinting, hindent]
    have hreshape : (reshape shapeRounds text).text = text := by
      rw [shapeRounds, reshape_succ_text, if_pos hshape, hshape]
    rw [Pass.run?] at hpitfalls
    rw [hspelling, hreferences, hreshape, hpitfalls, Option.map_some, htext, hlogic]

/-- Repairing a repaired text does nothing exactly when no pass finds anything in it. -/
theorem repair_twice_iff (text : Text) :
    ((repair? text).bind fun o => (repair? o.text).map (·.text)) = (repair? text).map (·.text) ↔
      ∀ o ∈ repair? text, ∀ p : Pass, (p.run? o.text).map (·.text) = some o.text := by
  cases hrepair : repair? text with
  | none => simp
  | some o =>
    rw [Option.bind_some, Option.map_some, repair?_fixed_iff]
    constructor
    · intro h o' ho'
      cases ho'
      exact h
    · intro h
      exact h o rfl

/-- Pitfalls takes a subscript under a condition for a store. It is a lookup once logic has doubled
the sign, and the next repair finds it. -/
theorem repair_mends_again :
    ((repair? "if mydict['a'] = 1:\n    pass\n").map (·.text) =
      some "if mydict['a'] == 1:\n    pass\n") ∧
    ((repair? "if mydict['a'] == 1:\n    pass\n").map (·.text) =
      some "if mydict.get('a') == 1:\n    pass\n") := by
  decide +kernel

end Marginalia.Repair
