import Mathlib.Data.List.Induction
import Marginalia.Proofs.ClosedBlocks
import Marginalia.Proofs.ReadLines

/-!
# Open braces

The braces that lines leave open, each told by its place: the line it stands on and what stands
before it there. The stack of blocks is this stack of places, each with the kind that its place
gives it: a brace that is the first of its line has the kind of the line, or of the header above that
still waits for a brace, and any other brace has no special kind.
-/

namespace Marginalia.Braced

open Text

/-- An open brace, by its line (the first one has number zero) and the text before it in the body of
that line. -/
structure Opening where
  line : Nat
  before : Text
deriving Repr, DecidableEq

/-- What is known from reading lines for their comments and braces alone. -/
structure Reading where
  inComment : Bool
  line : Nat
  opened : List Opening

namespace Reading

/-- Before the first line. -/
def start : Reading := ⟨false, 0, []⟩

/-- Reads one line: its leading braces close, and the others open and close in order. -/
def step (r : Reading) (raw : Text) : Reading :=
  match readLine r.inComment raw with
  | (none, open_) => ⟨open_, r.line + 1, r.opened⟩
  | (some code, open_) => ⟨open_, r.line + 1,
      passStack (Opening.mk r.line) .start [] (r.opened.drop (closers code)) (bodyOf code)⟩

/-- Behind some lines. -/
def of (lines : List Text) : Reading := lines.foldl step start

lemma of_concat (lines : List Text) (raw : Text) : of (lines ++ [raw]) = (of lines).step raw :=
  List.foldl_concat step start raw lines

lemma line_of (lines : List Text) : (of lines).line = lines.length := by
  induction lines using List.reverseRecOn with
  | nil => rfl
  | append_singleton lines raw ih =>
    rw [of_concat, step, List.length_append, ← ih]
    split <;> rfl

end Reading

/-- The code that is read of a line. -/
def codeAt (lines : List Text) (n : Nat) : Option Text :=
  lines[n]?.bind fun raw => (readLine (Reading.of (lines.take n)).inComment raw).1

/-- What a line is found to be. -/
def foundAt? (l : Language) (lines : List Text) (n : Nat) : Option Classified :=
  (codeAt lines n).bind ((Scanner.start.after l (lines.take n)).found? l)

/-- The kind of block that an open brace belongs to. -/
def kindOf (l : Language) (lines : List Text) (o : Opening) : BlockKind :=
  kindBehind (((foundAt? l lines o.line).map (·.2)).or
    (Scanner.start.after l (lines.take o.line)).pending) o.before

variable {l : Language} {lines : List Text} {raw code : Text}

/-! ## Lines before a line -/

lemma codeAt_take {j n : Nat} (h : j < n) : codeAt (lines.take n) j = codeAt lines j := by
  rw [codeAt, codeAt, List.getElem?_take_of_lt h, List.take_take, Nat.min_eq_left (Nat.le_of_lt h)]

lemma foundAt?_take {j n : Nat} (h : j < n) : foundAt? l (lines.take n) j = foundAt? l lines j := by
  rw [foundAt?, foundAt?, codeAt_take h, List.take_take, Nat.min_eq_left (Nat.le_of_lt h)]

lemma codeAt_concat {j : Nat} (h : j < lines.length) :
    codeAt (lines ++ [raw]) j = codeAt lines j := by
  have htake : codeAt ((lines ++ [raw]).take lines.length) j = codeAt (lines ++ [raw]) j :=
    codeAt_take h
  rwa [List.take_left, eq_comm] at htake

lemma foundAt?_concat {j : Nat} (h : j < lines.length) :
    foundAt? l (lines ++ [raw]) j = foundAt? l lines j := by
  have htake : foundAt? l ((lines ++ [raw]).take lines.length) j =
      foundAt? l (lines ++ [raw]) j :=
    foundAt?_take h
  rwa [List.take_left, eq_comm] at htake

lemma codeAt_length (lines : List Text) (raw : Text) : codeAt (lines ++ [raw]) lines.length =
    (readLine (Reading.of lines).inComment raw).1 := by
  rw [codeAt, List.getElem?_concat_length, List.take_left]
  rfl

lemma foundAt?_length (l : Language) (lines : List Text) (raw : Text) :
    foundAt? l (lines ++ [raw]) lines.length =
    (readLine (Reading.of lines).inComment raw).1.bind ((Scanner.start.after l lines).found? l) := by
  rw [foundAt?, codeAt_length, List.take_left]

lemma lt_length_of_codeAt {n : Nat} (h : codeAt lines n = some code) : n < lines.length := by
  obtain ⟨raw, hraw, -⟩ := Option.bind_eq_some_iff.mp h
  exact (List.getElem?_eq_some_iff.mp hraw).1

/-! ## The scanner and the reading -/

namespace Scanner

lemma after_concat (s : Scanner) : s.after l (lines ++ [raw]) = ((s.after l lines).feed l raw).1 :=
  after_append s lines [raw]

lemma inComment_after (l : Language) (lines : List Text) :
    (start.after l lines).inComment = (Reading.of lines).inComment := by
  induction lines using List.reverseRecOn with
  | nil => rfl
  | append_singleton lines raw ih =>
    rw [after_concat, inComment_feed, ih, Reading.of_concat, Reading.step]
    split
    · next h => rw [h]
    · next h => rw [h]

end Scanner

lemma mem_opened_concat {o : Opening} (h : o ∈ (Reading.of (lines ++ [raw])).opened) :
    o ∈ (Reading.of lines).opened ∨
      ∃ code, (readLine (Reading.of lines).inComment raw).1 = some code ∧ o.line = lines.length ∧
        o ∈ passStack (Opening.mk lines.length) .start []
          ((Reading.of lines).opened.drop (closers code)) (bodyOf code) := by
  rw [Reading.of_concat, Reading.step, Reading.line_of] at h
  split at h
  · exact .inl h
  · next code opened hread =>
    rcases mem_passStack h with hold | ⟨front, back, -, -, rfl⟩
    · exact .inl (List.mem_of_mem_drop hold)
    · exact .inr ⟨code, by rw [hread], rfl, h⟩

lemma line_lt_of_mem_opened {o : Opening} (h : o ∈ (Reading.of lines).opened) :
    o.line < lines.length := by
  induction lines using List.reverseRecOn with
  | nil => cases h
  | append_singleton lines raw ih =>
    rw [List.length_append, List.length_singleton]
    rcases mem_opened_concat h with hold | ⟨code, -, hline, -⟩
    · exact Nat.lt_succ_of_lt (ih hold)
    · rw [hline]
      exact Nat.lt_succ_self _

/-- An open brace stands in the code that is read of its line, and what follows it there leaves it
open, whatever is open before that line. -/
lemma exists_line_of_mem_opened {o : Opening} (h : o ∈ (Reading.of lines).opened) :
    ∃ code base, codeAt lines o.line = some code ∧ (∀ x ∈ base, x.line < o.line) ∧
      o ∈ passStack (Opening.mk o.line) .start [] base (bodyOf code) := by
  induction lines using List.reverseRecOn with
  | nil => cases h
  | append_singleton lines raw ih =>
    rcases mem_opened_concat h with hold | ⟨code, hread, hline, hpass⟩
    · rw [codeAt_concat (line_lt_of_mem_opened hold)]
      exact ih hold
    · refine ⟨code, _, ?_, fun x hx => ?_, hline ▸ hpass⟩
      · rw [hline, codeAt_length, hread]
      · rw [hline]
        exact line_lt_of_mem_opened (List.mem_of_mem_drop hx)

lemma kindOf_concat {o : Opening} (h : o.line < lines.length) :
    kindOf l (lines ++ [raw]) o = kindOf l lines o := by
  rw [kindOf, kindOf, foundAt?_concat h, List.take_append_of_le_length (Nat.le_of_lt h)]

/-- The blocks that lines leave open are the braces they leave open, each with the kind that its place
gives it. -/
theorem blocks_after (l : Language) (lines : List Text) : (Scanner.start.after l lines).blocks =
    (Reading.of lines).opened.map (kindOf l lines) := by
  induction lines using List.reverseRecOn with
  | nil => rfl
  | append_singleton lines raw ih =>
    have hold (opened : List Opening) (h : ∀ o ∈ opened, o ∈ (Reading.of lines).opened) :
        opened.map (kindOf l (lines ++ [raw])) = opened.map (kindOf l lines) :=
      List.map_congr_left fun o ho => kindOf_concat (line_lt_of_mem_opened (h o ho))
    rw [Scanner.after_concat, Reading.of_concat, Reading.step, Reading.line_of]
    cases hread : readLine (Reading.of lines).inComment raw with
    | mk code? opened =>
      have hfeed := hread
      rw [← Scanner.inComment_after l] at hfeed
      cases code? with
      | none =>
        rw [Scanner.feed_unread hfeed]
        exact ih.trans (hold _ fun _ h => h).symm
      | some code =>
        have hfound : foundAt? l (lines ++ [raw]) lines.length =
            (Scanner.start.after l lines).found? l code := by
          rw [foundAt?_length, hread]
          rfl
        -- The braces of the new line get the kind that the scanner gives them there.
        have hkind : kindOf l (lines ++ [raw]) ∘ Opening.mk lines.length =
            kindBehind ((Scanner.start.after l lines).firstKind l code) := by
          funext before
          rw [Function.comp_apply, kindOf, hfound, List.take_left]
          rfl
        dsimp only
        rw [Scanner.blocks_feed hfeed, map_passStack, hkind, List.map_drop, hold _ fun _ h => h, ← ih]

/-! ## Headers whose brace is still to come -/

/-- The header of a kind on line `m` still waits for its brace at line `n`: it holds no brace, no
semicolon ends it, and nothing is read of the lines between. -/
def Awaits (l : Language) (lines : List Text) (m n : Nat) (kind : BlockKind) : Prop :=
  m < n ∧ ∃ code, codeAt lines m = some code ∧ (∃ node, foundAt? l lines m = some (node, kind)) ∧
    '{' ∉ codeText .start (bodyOf code) ∧ (bodyOf code).endsWith ";" = false ∧
    ∀ j, m < j → j < n → codeAt lines j = none

lemma awaits_take {m n : Nat} {kind : BlockKind} :
    Awaits l (lines.take n) m n kind ↔ Awaits l lines m n kind := by
  refine and_congr_right fun hm => ?_
  rw [codeAt_take hm, foundAt?_take hm]
  refine exists_congr fun code => and_congr_right fun _ => and_congr_right fun _ =>
    and_congr_right fun _ => and_congr_right fun _ => forall_congr' fun j => forall_congr' fun _ =>
    forall_congr' fun hj => ?_
  rw [codeAt_take hj]

lemma awaits_concat {m : Nat} {kind : BlockKind} :
    Awaits l (lines ++ [raw]) m lines.length kind ↔ Awaits l lines m lines.length kind := by
  rw [← awaits_take, List.take_left]

/-- The header that is kept behind some lines is the last one that still waits for its brace. -/
lemma pending_after_iff (l : Language) (lines : List Text) (kind : BlockKind) :
    (Scanner.start.after l lines).pending = some kind ↔
    ∃ m, Awaits l lines m lines.length kind := by
  induction lines using List.reverseRecOn with
  | nil => simp [Scanner.after, Scanner.start, Awaits]
  | append_singleton lines raw ih =>
    rw [Scanner.after_concat, List.length_append, List.length_singleton]
    have hcode := codeAt_length lines raw
    have hfound := foundAt?_length l lines raw
    cases hread : readLine (Reading.of lines).inComment raw with
    | mk code? opened =>
      have hfeed := hread
      rw [← Scanner.inComment_after l] at hfeed
      rw [hread] at hcode hfound
      cases code? with
      | none =>
        -- Nothing is read of the line, so the same header waits, one line longer.
        rw [Scanner.feed_unread hfeed, ih]
        refine exists_congr fun m => ⟨fun h => ?_, fun h => ?_⟩
        · obtain ⟨hm, code, hat, hnode, hbrace, hsemi, hbetween⟩ := awaits_concat.mpr h
          refine ⟨Nat.lt_succ_of_lt hm, code, hat, hnode, hbrace, hsemi, fun j hj hlt => ?_⟩
          rcases Nat.lt_succ_iff_lt_or_eq.mp hlt with hlt | rfl
          · exact hbetween j hj hlt
          · exact hcode
        · obtain ⟨hm, code, hat, hnode, hbrace, hsemi, hbetween⟩ := h
          have hlt : m < lines.length := by
            refine Nat.lt_of_le_of_ne (Nat.lt_succ_iff.mp hm) ?_
            rintro rfl
            rw [hcode] at hat
            cases hat
          exact awaits_concat.mp
            ⟨hlt, code, hat, hnode, hbrace, hsemi, fun j hj hjn => hbetween j hj (Nat.lt_succ_of_lt hjn)⟩
      | some code =>
        rw [Scanner.pending_feed hfeed]
        constructor
        · intro h
          obtain ⟨hnot, hkind⟩ := Option.ite_none_left_eq_some.mp h
          obtain ⟨⟨node, kind'⟩, hnode, rfl⟩ := Option.map_eq_some_iff.mp hkind
          rw [not_or, Bool.not_eq_true] at hnot
          exact ⟨lines.length, Nat.lt_succ_self _, code, hcode, ⟨node, hfound.trans hnode⟩, hnot.1,
            hnot.2, fun j hj hlt => absurd hj (Nat.not_lt_of_le (Nat.lt_succ_iff.mp hlt))⟩
        · rintro ⟨m, hm, code', hat, ⟨node, hnode⟩, hbrace, hsemi, hbetween⟩
          -- Code is read of the line, so no header above waits any longer.
          have hlast : m = lines.length := by
            rcases Nat.lt_succ_iff_lt_or_eq.mp hm with hlt | heq
            · have hnone := hbetween lines.length hlt (Nat.lt_succ_self _)
              rw [hcode] at hnone
              cases hnone
            · exact heq
          subst hlast
          obtain rfl := Option.some.inj (hcode.symm.trans hat)
          have hnode' := hfound.symm.trans hnode
          rw [Option.bind_some] at hnode'
          rw [if_neg (not_or.mpr ⟨hbrace, Bool.not_eq_true _ ▸ hsemi⟩), hnode']
          rfl

/-- An open brace is the first one behind a header of a kind: the first of its line, which is of that
kind, or is nothing of its own below a header of that kind that waits for its brace. -/
def FirstBehind (l : Language) (lines : List Text) (o : Opening) (kind : BlockKind) : Prop :=
  '{' ∉ codeText .start o.before ∧ ((∃ node, foundAt? l lines o.line = some (node, kind)) ∨
    foundAt? l lines o.line = none ∧ ∃ m, Awaits l lines m o.line kind)

/-- The blocks of a special kind are those whose brace is the first one behind a header of that
kind. -/
lemma kindOf_eq_iff {o : Opening} {kind : BlockKind} (hkind : kind ≠ .other)
    (ho : o.line ≤ lines.length) : kindOf l lines o = kind ↔ FirstBehind l lines o kind := by
  have hpending := pending_after_iff l (lines.take o.line) kind
  rw [List.length_take, Nat.min_eq_left ho] at hpending
  simp only [awaits_take] at hpending
  rw [FirstBehind, ← hpending, kindOf, kindBehind]
  by_cases hbrace : '{' ∈ codeText .start o.before
  · simp [hbrace, hkind.symm]
  · rw [if_neg hbrace]
    cases hfound : foundAt? l lines o.line with
    | none =>
      cases (Scanner.start.after l (lines.take o.line)).pending with
      | none => simp [hbrace, hkind.symm]
      | some waiting => simp [hbrace]
    | some found =>
      obtain ⟨node, found⟩ := found
      simp [hbrace]

end Marginalia.Braced
