import Marginalia.Proofs.LiteralLayout
import Marginalia.Repair.Indentation

/-!
# Nested blocks

The stack of columns that `Nesting` keeps is a parser in disguise. What it lets pass are the sources
whose statements form one block: a run of statements at one column in which every statement that
opens a block is followed by a deeper one.
-/

namespace Marginalia.Repair

/-- A statement among blocks. -/
structure Entry where
  column : Nat
  /-- Whether the line that ends the statement opens a block. -/
  opens : Bool
deriving Repr, DecidableEq

/-- Whether the first line that ends a statement opens a block. -/
def endOpens (lines : List (LineInfo × Text)) : Bool :=
  (lines.find? fun (info, _) => info.endsStatement).any fun (_, line) => opensBlock line

/-- The statements of a source, in order. -/
def entries : List (LineInfo × Text) → List Entry
  | [] => []
  | (info, line) :: rest =>
    if info.role = .statement then ⟨columns line, endOpens ((info, line) :: rest)⟩ :: entries rest
    else entries rest

/-- Whether statements, behind which others follow, are one block at a column. A statement that
opens a block needs one, unless it is the last of the source; no other statement has one. -/
inductive IsBlock : Nat → List Entry → List Entry → Prop
  | plain (column : Nat) (after : List Entry) : IsBlock column [⟨column, false⟩] after
  | plainCons {column : Nat} {more after : List Entry} (hmore : IsBlock column more after) :
    IsBlock column (⟨column, false⟩ :: more) after
  | header {column inner : Nat} {body after : List Entry} (hdeeper : column < inner)
    (hbody : IsBlock inner body after) : IsBlock column (⟨column, true⟩ :: body) after
  | headerCons {column inner : Nat} {body more after : List Entry} (hdeeper : column < inner)
    (hbody : IsBlock inner body (more ++ after)) (hmore : IsBlock column more after) :
    IsBlock column (⟨column, true⟩ :: (body ++ more)) after
  | lastHeader (column : Nat) : IsBlock column [⟨column, true⟩] []

lemma IsBlock.head {column : Nat} {block after : List Entry} (h : IsBlock column block after) :
    ∃ opens rest, block = ⟨column, opens⟩ :: rest := by
  cases h with
  | plain => exact ⟨_, _, rfl⟩
  | plainCons => exact ⟨_, _, rfl⟩
  | header => exact ⟨_, _, rfl⟩
  | headerCons => exact ⟨_, _, rfl⟩
  | lastHeader => exact ⟨_, _, rfl⟩

namespace Nesting

/-- Whether every statement fits a block. -/
def admits (n : Nesting) : List Entry → Bool
  | [] => true
  | e :: rest =>
    match n.enter? e.column with
    | some blocks => admits ⟨blocks, e.opens⟩ rest
    | none => false

/-! ## One statement -/

section

variable {top column : Nat} {blocks : List Nat} {opens : Bool} {rest : List Entry}

lemma admits_same :
    admits ⟨top :: blocks, false⟩ (⟨top, opens⟩ :: rest) = admits ⟨top :: blocks, opens⟩ rest := by
  simp [admits, enter?]

lemma admits_deeper (h : top < column) :
    admits ⟨top :: blocks, false⟩ (⟨column, opens⟩ :: rest) = false := by
  simp [admits, enter?, h]

/-- A statement left of a block has left it. -/
lemma admits_left (h : column < top) : admits ⟨top :: blocks, false⟩ (⟨column, opens⟩ :: rest) =
    (!blocks.isEmpty && admits ⟨blocks, false⟩ (⟨column, opens⟩ :: rest)) := by
  cases blocks with
  | nil => simp [admits, enter?, h, Nat.not_lt.mpr (Nat.le_of_lt h)]
  | cons next blocks =>
    by_cases hnext : next < column
    · have hdrop : ((next :: blocks).dropWhile fun c => decide (c > column)) = next :: blocks := by
        simp [Nat.not_lt.mpr (Nat.le_of_lt hnext)]
      simp [admits, enter?, h, Nat.not_lt.mpr (Nat.le_of_lt h), hnext, Nat.ne_of_lt hnext,
        Nat.not_lt.mpr (Nat.le_of_lt hnext)]
    · simp [admits, enter?, h, Nat.not_lt.mpr (Nat.le_of_lt h), hnext]

/-- Behind a header a statement has to open a block, and is then its first one. -/
lemma admits_expected : admits ⟨top :: blocks, true⟩ (⟨column, opens⟩ :: rest) =
    (decide (top < column) && admits ⟨column :: top :: blocks, false⟩ (⟨column, opens⟩ :: rest)) := by
  rw [admits_same]
  by_cases h : top < column
  · simp [admits, enter?, h, Nat.not_le.mpr h]
  · simp [admits, enter?, h, Nat.not_lt.mp h]

end

/-! ## Blocks are admitted -/

/-- What may follow a block may follow a block inside it. -/
lemma admits_inner {column inner : Nat} (h : column < inner) {blocks : List Nat}
    {after : List Entry} (hafter : admits ⟨column :: blocks, false⟩ after = true) :
    admits ⟨inner :: column :: blocks, false⟩ after = true := by
  cases after with
  | nil => rfl
  | cons e rest =>
    obtain ⟨c, opens⟩ := e
    have hle : c ≤ column := by
      by_contra hlt
      rw [admits_deeper (Nat.not_le.mp hlt)] at hafter
      cases hafter
    rw [admits_left (Nat.lt_of_le_of_lt hle h), hafter]
    rfl

lemma admits_block {column : Nat} {block after : List Entry} (h : IsBlock column block after)
    (blocks : List Nat) (hafter : admits ⟨column :: blocks, false⟩ after = true) :
    admits ⟨column :: blocks, false⟩ (block ++ after) = true := by
  -- A nested block starts where its header expects it.
  have hnested {column inner : Nat} {body after : List Entry} (hdeeper : column < inner)
      (hbody : IsBlock inner body after) (blocks : List Nat)
      (hadmits : admits ⟨inner :: column :: blocks, false⟩ (body ++ after) = true) :
      admits ⟨column :: blocks, true⟩ (body ++ after) = true := by
    obtain ⟨opens, rest, rfl⟩ := hbody.head
    rw [List.cons_append] at hadmits ⊢
    rw [admits_expected, hadmits, decide_eq_true hdeeper]
    rfl
  induction h generalizing blocks with
  | plain column after =>
    rw [List.singleton_append, admits_same]
    exact hafter
  | plainCons _ ih =>
    rw [List.cons_append, admits_same]
    exact ih blocks hafter
  | header hdeeper hbody ih =>
    rw [List.cons_append, admits_same]
    exact hnested hdeeper hbody blocks (ih _ (admits_inner hdeeper hafter))
  | headerCons hdeeper hbody _ ihbody ihmore =>
    rw [List.cons_append, List.append_assoc, admits_same]
    exact hnested hdeeper hbody blocks (ihbody _ (admits_inner hdeeper (ihmore blocks hafter)))
  | lastHeader column =>
    rw [List.singleton_append, admits_same]
    rfl

/-! ## What is admitted is a block -/

/-- Statements that are admitted inside a block start with that block, and those behind it are
admitted outside. -/
lemma exists_block {column : Nat} {blocks : List Nat} {opens : Bool} {rest : List Entry}
    (h : admits ⟨column :: blocks, false⟩ (⟨column, opens⟩ :: rest) = true) :
    ∃ block after, ⟨column, opens⟩ :: rest = block ++ after ∧ IsBlock column block after ∧
      (after = [] ∨ blocks ≠ [] ∧ admits ⟨blocks, false⟩ after = true) := by
  induction hn : rest.length using Nat.strongRecOn generalizing column blocks opens rest with
  | _ n ih =>
    rw [admits_same] at h
    cases opens with
    | false =>
      cases rest with
      | nil => exact ⟨[⟨column, false⟩], [], rfl, .plain column [], .inl rfl⟩
      | cons next rest =>
        obtain ⟨c, opens⟩ := next
        rcases Nat.lt_trichotomy c column with hlt | rfl | hgt
        · rw [admits_left hlt, Bool.and_eq_true, Bool.not_eq_true', List.isEmpty_eq_false_iff] at h
          exact ⟨[⟨column, false⟩], _, rfl, .plain column _, .inr h⟩
        · obtain ⟨block, after, hsplit, hblock, hafter⟩ := ih rest.length (by simp [← hn]) h rfl
          exact ⟨⟨c, false⟩ :: block, after, by rw [hsplit]; rfl, .plainCons hblock, hafter⟩
        · rw [admits_deeper hgt] at h
          cases h
    | true =>
      cases rest with
      | nil => exact ⟨[⟨column, true⟩], [], rfl, .lastHeader column, .inl rfl⟩
      | cons next rest =>
        obtain ⟨inner, opens⟩ := next
        rw [admits_expected, Bool.and_eq_true, decide_eq_true_iff] at h
        obtain ⟨hdeeper, h⟩ := h
        obtain ⟨body, behind, hsplit, hbody, hbehind⟩ := ih rest.length (by simp [← hn]) h rfl
        have hnested : IsBlock column (⟨column, true⟩ :: body) behind := .header hdeeper hbody
        -- Behind the nested block this one goes on, or ends.
        rcases hbehind with rfl | ⟨-, hbehind⟩
        · exact ⟨_, [], by rw [hsplit]; rfl, hnested, .inl rfl⟩
        · cases behind with
          | nil => exact ⟨_, [], by rw [hsplit]; rfl, hnested, .inl rfl⟩
          | cons e behind =>
            obtain ⟨c, opens'⟩ := e
            rcases Nat.lt_trichotomy c column with hlt | rfl | hgt
            · rw [admits_left hlt, Bool.and_eq_true, Bool.not_eq_true',
                List.isEmpty_eq_false_iff] at hbehind
              exact ⟨_, _, by rw [hsplit]; rfl, hnested, .inr hbehind⟩
            · have hlength := congrArg List.length hsplit
              simp only [List.length_cons, List.length_append] at hlength hn
              obtain ⟨more, after, hmore, hblock, hafter⟩ :=
                ih behind.length (by omega) hbehind rfl
              rw [hmore] at hbody hsplit
              exact ⟨⟨c, true⟩ :: (body ++ more), after, by simp [hsplit],
                .headerCons hdeeper hbody hblock, hafter⟩
            · rw [admits_deeper hgt] at hbehind
              cases hbehind

lemma admits_start_iff (es : List Entry) :
    start.admits es = true ↔ es = [] ∨ ∃ column, IsBlock column es [] := by
  constructor
  · intro h
    cases es with
    | nil => exact .inl rfl
    | cons e rest =>
      obtain ⟨column, opens⟩ := e
      have hfirst : admits ⟨[column], false⟩ (⟨column, opens⟩ :: rest) = true := by
        rw [admits_same]
        exact h
      obtain ⟨block, after, hsplit, hblock, rfl | ⟨hne, -⟩⟩ := exists_block hfirst
      · rw [List.append_nil] at hsplit
        exact .inr ⟨column, hsplit ▸ hblock⟩
      · exact absurd rfl hne
  · rintro (rfl | ⟨column, hblock⟩)
    · rfl
    · have h := admits_block hblock [] rfl
      obtain ⟨opens, rest, rfl⟩ := hblock.head
      rw [List.append_nil, admits_same] at h
      exact h

end Nesting

/-! ## Lines -/

namespace LayoutState

lemma isComplete_start : start.isComplete = true := rfl

/-- A line inside a statement ends it if nothing is left open. -/
lemma endsStatement_step {s : LayoutState} (line : Text)
    (h : s.isComplete = false ∨ (s.step line).2.role = .statement) :
    (s.step line).2.endsStatement = (s.step line).1.isComplete := by
  cases hs : s.triple with
  | some q => simp only [step, hs]
  | none =>
    cases hr : s.roleOf line with
    | statement => simp only [step, hs, hr]
    | continuation => simp only [step, hs, hr]
    | stringBody => simp only [step, hs, hr]
    | blank => simpa [step, hs, hr] using h.symm
    | comment => simpa [step, hs, hr] using h.symm

end LayoutState

namespace Nesting

/-- Lines fit their blocks if their statements do. Inside a statement, what counts is whether the
line that will end it opens a block. -/
lemma isBroken_layout (s : LayoutState) (n : Nesting) (lines : List Text) :
    n.isBroken ((s.layout lines).zip lines) =
      !(if s.isComplete then n else ⟨n.open_, endOpens ((s.layout lines).zip lines)⟩).admits
        (entries ((s.layout lines).zip lines)) := by
  induction lines generalizing s n with
  | nil => simp [LayoutState.layout, isBroken, entries, admits]
  | cons line rest ih =>
    rw [LayoutState.layout, List.zip_cons_cons, isBroken]
    cases hs : s.isComplete with
    | true =>
      obtain rfl := LayoutState.eq_start_of_isComplete hs
      rcases LayoutState.step_start_cases line with hrole | hskip | hskip
      · have hends := LayoutState.endsStatement_step line (.inr hrole)
        rw [if_pos rfl, entries, if_pos hrole, admits, step?, hrole]
        simp only
        cases n.enter? (columns line) with
        | none => rfl
        | some blocks =>
          simp only [Option.map_some]
          rw [ih, ← hends]
          cases he : (LayoutState.start.step line).2.endsStatement <;>
            simp [endOpens, he]
      · simp [step?, hskip, ih, entries, hs]
      · simp [step?, hskip, ih, entries, hs]
    | false =>
      have hrole : (s.step line).2.role ≠ .statement := by
        intro hrole
        rw [LayoutState.eq_start_of_statement hrole, LayoutState.isComplete_start] at hs
        cases hs
      have hends := LayoutState.endsStatement_step line (.inl hs)
      have hstep : n.step? (s.step line).2 line =
          some (if (s.step line).2.endsStatement then { n with expected := opensBlock line } else n) := by
        cases hr : (s.step line).2.role <;> simp_all [step?]
      rw [hstep, entries, if_neg hrole]
      simp only
      rw [ih, ← hends]
      cases he : (s.step line).2.endsStatement <;> simp [endOpens, he]

end Nesting

/-- The indentation of a text is broken unless its statements form one block, or it has none. -/
theorem indentationBroken_eq_false_iff (lines : List Text) : indentationBroken lines = false ↔
    entries ((layout lines).zip lines) = [] ∨
      ∃ column, IsBlock column (entries ((layout lines).zip lines)) [] := by
  rw [indentationBroken, layout, Nesting.isBroken_layout, LayoutState.isComplete_start,
    ← Nesting.admits_start_iff]
  simp

end Marginalia.Repair
