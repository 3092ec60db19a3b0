import Marginalia.Braced.Scanner
import Marginalia.Proofs.CodeScan

/-!
# Braces that are passed

The braces of a line open and close blocks in the order in which they stand in its code. What is
remembered of an open brace may be anything that is told from the text before it: the kind of its
block, or the place itself. The brace that a line leaves open last is on top, whatever stood before.
-/

namespace Marginalia

namespace Text

/-- The characters of a text outside literals. -/
def codeText (s : CodeState) : Text → Text
  | [] => []
  | c :: rest =>
    if (s.step c).2.isSome then c :: codeText (s.step c).1 rest else codeText (s.step c).1 rest

/-- The braces that are open behind some code where `n` of them are open before it; nothing if more
are closed. -/
def openBraces? (n : Nat) : Text → Option Nat
  | [] => some n
  | c :: rest =>
    if c == '{' then openBraces? (n + 1) rest
    else if c == '}' then if n = 0 then none else openBraces? (n - 1) rest
    else openBraces? n rest

lemma codeText_append (s : CodeState) (t t' : Text) :
    codeText s (t ++ t') = codeText s t ++ codeText (s.run t) t' := by
  induction t generalizing s with
  | nil => rfl
  | cons c rest ih =>
    rw [List.cons_append, codeText, codeText, CodeState.run_cons, ih]
    split <;> rfl

lemma codeText_brace {s : CodeState} (hs : s.quote = none) (t : Text) :
    codeText s ('{' :: t) = '{' :: codeText (s.step '{').1 t := by
  have hcode : (s.step '{').2.isSome = true := by simp [CodeState.step, hs, isQuote, isOpener]
  rw [codeText, if_pos hcode]

/-- Passes the braces of a text over a stack. An opening brace puts on top what `push` tells of the
text before it, and a closing brace takes the top away. -/
def passStack {α : Type} (push : Text → α) (s : CodeState) (before : Text) (stack : List α) :
    Text → List α
  | [] => stack
  | c :: rest =>
    let stack :=
      if (s.step c).2.isSome then
        if c == '{' then push before :: stack else if c == '}' then stack.drop 1 else stack
      else stack
    passStack push (s.step c).1 (before ++ [c]) stack rest

section

variable {α β : Type} {push : Text → α} {s : CodeState} {before : Text} {stack : List α}

lemma passStack_append (t t' : Text) : passStack push s before stack (t ++ t') =
    passStack push (s.run t) (before ++ t) (passStack push s before stack t) t' := by
  induction t generalizing s before stack with
  | nil => rw [List.append_nil]; rfl
  | cons c rest ih =>
    rw [List.cons_append, passStack, passStack, ih, List.append_assoc]
    rfl

lemma passStack_brace (hs : s.quote = none) (t : Text) :
    passStack push s before stack ('{' :: t) =
      passStack push (s.step '{').1 (before ++ ['{']) (push before :: stack) t := by
  have hcode : (s.step '{').2.isSome = true := by simp [CodeState.step, hs, isQuote, isOpener]
  rw [passStack, if_pos hcode]
  rfl

lemma map_passStack (f : α → β) (t : Text) : (passStack push s before stack t).map f =
    passStack (f ∘ push) s before (stack.map f) t := by
  induction t generalizing s before stack with
  | nil => rfl
  | cons c rest ih =>
    rw [passStack, passStack, ih]
    congr 1
    split
    · split
      · rfl
      · split
        · exact List.map_drop
        · rfl
    · rfl

/-- What is on the stack was there before, or was put there by a brace of the text. -/
lemma mem_passStack {t : Text} {x : α} (h : x ∈ passStack push s before stack t) :
    x ∈ stack ∨ ∃ front back, t = front ++ '{' :: back ∧
      ((s.run front).step '{').2.isSome = true ∧ x = push (before ++ front) := by
  induction t generalizing s before stack with
  | nil => exact .inl h
  | cons c rest ih =>
    rw [passStack] at h
    rcases ih h with hstack | ⟨front, back, rfl, hcode, rfl⟩
    · split at hstack
      · next hcode =>
        split at hstack
        · next hbrace =>
          rw [beq_iff_eq] at hbrace
          subst hbrace
          rcases List.mem_cons.mp hstack with rfl | hold
          · exact .inr ⟨[], rest, rfl, hcode, by rw [List.append_nil]⟩
          · exact .inl hold
        · split at hstack
          · exact .inl (List.mem_of_mem_drop hstack)
          · exact .inl hstack
      · exact .inl hstack
    · exact .inr ⟨c :: front, back, rfl, hcode, by rw [List.append_assoc]; rfl⟩

/-- Braces close the blocks they opened before they close others. -/
lemma exists_passStack_append {n m : Nat} {t : Text} (h : openBraces? n (codeText s t) = some m)
    (new : List α) (hnew : new.length = n) : ∃ new' : List α, new'.length = m ∧
      ∀ base, passStack push s before (new ++ base) t = new' ++ base := by
  induction t generalizing s before new n with
  | nil => exact ⟨new, hnew.trans (Option.some.inj h), fun _ => rfl⟩
  | cons c rest ih =>
    rw [codeText] at h
    simp only [passStack]
    split at h
    · next hcode =>
      rw [openBraces?] at h
      simp only [hcode, if_true]
      split at h
      · next hopen =>
        simp only [hopen, if_true]
        exact ih h (push before :: new) (by simp [hnew])
      · next hopen =>
        simp only [hopen]
        split at h
        · next hclose =>
          simp only [hclose, if_true]
          obtain ⟨hn, hrest⟩ := Option.ite_none_left_eq_some.mp h
          cases new with
          | nil => exact absurd hnew.symm hn
          | cons top new => exact ih hrest new (by simp [← hnew])
        · next hclose =>
          simp only [hclose]
          exact ih h new hnew
    · next hcode =>
      simp only [hcode]
      exact ih h new hnew

/-- Text that closes the braces it opens, and no others, leaves the stack as it was. -/
lemma passStack_balanced {t : Text} (h : openBraces? 0 (codeText s t) = some 0) :
    passStack push s before stack t = stack := by
  obtain ⟨new, hnew, hpass⟩ : ∃ new : List α, new.length = 0 ∧
      ∀ base, passStack push s before ([] ++ base) t = new ++ base :=
    exists_passStack_append h [] rfl
  rw [List.length_eq_zero_iff.mp hnew] at hpass
  exact hpass stack

/-- The brace that is left open last is on top. -/
lemma head?_passStack {front back : Text} (hfront : (s.run front).quote = none)
    (hback : openBraces? 0 (codeText ((s.run front).step '{').1 back) = some 0) :
    (passStack push s before stack (front ++ '{' :: back)).head? = some (push (before ++ front)) := by
  rw [passStack_append, passStack_brace hfront, passStack_balanced hback]
  rfl

end

end Text
end Marginalia
