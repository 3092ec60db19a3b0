import Marginalia.Proofs.FoundKinds
import Marginalia.Proofs.OpenBraces

/-!
# Branches that are nested

A branch or switch is reported nested if a block of control is open where it stands. Which braces
make such a block is told by their places: the kind of a header goes to the first brace behind it, so
a header whose first brace is not the one of its body labels another block, and its body has no kind.
-/

namespace Marginalia

/-- Kinds of parts that say whether they are nested. -/
def NodeKind.isBranch : NodeKind → Bool
  | .conditional .. | .switch .. => true
  | _ => false

namespace Braced

open Text

/-! ## Where branches are found -/

section

variable {l : Language} {s : Scanner} {code : Text} {afterClose : Bool}

/-- What is found says nothing about nesting. -/
def NoBranch (c : Classified) : Prop := c.1.isBranch = false

lemma isBranch_forHeader (header : Text) : (forHeader header).isBranch = false := by
  rcases forHeader_cases header with h | ⟨target, iterable, h⟩
  · rw [h]; rfl
  · rw [h]; rfl

lemma noBranch_scriptDefinition : Finds NoBranch (scriptDefinition s code) := by
  refine finds_firstOf ?_
  simp only [List.forall_mem_cons]
  exact ⟨finds_map fun _ _ => rfl, finds_map fun _ _ => rfl, finds_map fun _ _ => rfl,
    finds_map fun _ _ => rfl, finds_map fun _ _ => rfl, finds_map fun _ _ => rfl,
    finds_ite (finds_some rfl) finds_none,
    finds_ite (finds_bind fun _ _ => finds_ite (finds_some rfl) finds_none) finds_none,
    finds_map fun _ _ => rfl, List.forall_mem_nil _⟩

lemma noBranch_scriptModule : Finds NoBranch (scriptModule s code) := by
  refine finds_firstOf ?_
  simp only [List.forall_mem_cons]
  exact ⟨finds_map fun _ _ => rfl, finds_map fun _ _ => rfl, finds_map fun _ _ => rfl,
    finds_map fun _ _ => rfl, List.forall_mem_nil _⟩

lemma noBranch_compiledDefinition : Finds NoBranch (compiledDefinition code) := by
  refine finds_firstOf ?_
  simp only [List.forall_mem_cons]
  refine ⟨finds_map fun _ _ => rfl, finds_map fun _ _ => rfl, finds_map fun _ _ => rfl,
    finds_map fun _ _ => rfl, finds_map fun _ _ => rfl, finds_ite finds_none (finds_map fun _ _ => rfl),
    finds_map fun _ _ => rfl, finds_map fun _ _ => rfl, finds_map fun m _ => ?_, finds_map fun _ _ => rfl,
    List.forall_mem_nil _⟩
  dsimp only [NoBranch]
  split <;> rfl

lemma noBranch_compiledConstructor : Finds NoBranch (compiledConstructor s code) :=
  finds_ite (finds_bind fun _ _ => finds_ite (finds_some rfl) (finds_ite (finds_some rfl) finds_none))
    finds_none

lemma noBranch_compiledLibraryCall : Finds NoBranch (compiledLibraryCall code) := by
  intro c hc
  obtain ⟨⟨function, base⟩, -, hc⟩ := List.exists_of_findSome?_eq_some hc
  obtain ⟨found, -, rfl⟩ := Option.map_eq_some_iff.mp hc
  rfl

/-- A line that starts with `if` or is a switch says whether it is nested. -/
def TellsNesting (code : Text) (kind : NodeKind) (nested : Bool) : Prop :=
  (∃ condition, kind = .conditional condition nested) ∧ elseIfForm.startsText code = false ∨
    ∃ subject, kind = .switch subject nested

lemma TellsNesting.isBranch {kind : NodeKind} {nested : Bool} (h : TellsNesting code kind nested) :
    kind.isBranch = true := by
  rcases h with ⟨⟨condition, rfl⟩, -⟩ | ⟨subject, rfl⟩
  · rfl
  · rfl

/-- What is found says that it is nested exactly if a block of control is open. -/
def NestedInControl (s : Scanner) (code : Text) (c : Classified) : Prop :=
  ∀ nested, TellsNesting code c.1 nested → nested = s.inControl

lemma NoBranch.nestedInControl {c : Classified} (h : NoBranch c) : NestedInControl s code c := by
  intro nested hnested
  rw [NoBranch, hnested.isBranch] at h
  cases h

lemma nestedInControl_control : Finds (NestedInControl s code) (classifyControl s code afterClose) := by
  have hother {kind : NodeKind} {block : BlockKind} (h : kind.isBranch = false) :
      Finds (NestedInControl s code) (some (kind, block)) :=
    finds_some (NoBranch.nestedInControl h)
  unfold classifyControl
  by_cases helse : elseIfForm.startsText code = true
  · rw [if_pos helse]
    refine finds_some fun nested hnested => ?_
    rcases hnested with ⟨-, hnot⟩ | ⟨subject, hswitch⟩
    · rw [helse] at hnot
      cases hnot
    · cases hswitch
  · rw [if_neg helse]
    refine finds_ite (finds_some fun nested hnested => ?_) (finds_ite (hother rfl)
      (finds_ite (hother (isBranch_forHeader _)) (finds_ite (finds_ite finds_none (hother rfl))
      (finds_ite (hother rfl) (finds_ite (finds_some fun nested hnested => ?_) ?_)))))
    · rcases hnested with ⟨⟨condition, hkind⟩, -⟩ | ⟨subject, hswitch⟩
      · exact (NodeKind.conditional.inj hkind).2.symm
      · cases hswitch
    · rcases hnested with ⟨⟨condition, hkind⟩, -⟩ | ⟨subject, hswitch⟩
      · cases hkind
      · exact (NodeKind.switch.inj hswitch).2.symm
    · split
      · exact hother rfl
      · refine finds_ite (hother rfl) (finds_ite (hother rfl) (finds_ite (hother rfl)
          (finds_ite (hother rfl) ?_)))
        split
        · exact hother rfl
        · exact finds_map fun _ _ => NoBranch.nestedInControl rfl

lemma nestedInControl_classify : Finds (NestedInControl s code) (classify l s code afterClose) := by
  have hother {found : Option Classified} (h : Finds NoBranch found) :
      Finds (NestedInControl s code) found :=
    fun c hc => (h c hc).nestedInControl
  have hscript : Finds (NestedInControl s code) (classifyScript s code afterClose) := by
    refine finds_firstOf ?_
    simp only [List.forall_mem_cons]
    exact ⟨hother noBranch_scriptDefinition, nestedInControl_control, hother noBranch_scriptModule,
      List.forall_mem_nil _⟩
  refine finds_ite finds_none ?_
  cases l with
  | python => exact hscript
  | javascript => exact hscript
  | c =>
    refine finds_firstOf ?_
    simp only [List.forall_mem_cons]
    exact ⟨hother noBranch_compiledDefinition,
      hother (finds_bind fun _ _ => finds_ite finds_none (finds_some rfl)),
      hother noBranch_compiledConstructor, hother (finds_ite (finds_map fun _ _ => rfl) finds_none),
      nestedInControl_control, hother noBranch_compiledLibraryCall, List.forall_mem_nil _⟩

/-! ## The kinds of blocks -/

variable {lines : List Text} {raw : Text} {opened : Bool}

/-- A block of control is open before the body of a line if some brace that is open there is the first
one behind a branch, a loop or a switch. -/
lemma inControl_iff : ((Scanner.start.after l lines).closeBlocks (closers code)).inControl = true ↔
    ∃ o ∈ (Reading.of lines).opened.drop (closers code), FirstBehind l lines o .control := by
  rw [Scanner.inControl, Scanner.closeBlocks_blocks, blocks_after, ← List.map_drop,
    List.contains_iff_mem, List.mem_map]
  refine exists_congr fun o => and_congr_right fun ho => kindOf_eq_iff (by decide) ?_
  exact Nat.le_of_lt (line_lt_of_mem_opened (List.mem_of_mem_drop ho))

/-- A line of a kind that leaves a brace open puts this kind on top of the blocks exactly if no brace
opens before that one on the line (or the kind is no special one). So a line that starts with `if`, or a
switch, is reported nested exactly if some brace that is open before it is the first one behind
a branch, a loop or a switch, which need not be the brace of its body. -/
theorem kind_on_top_iff_first_brace {node : NodeKind} {kind : BlockKind}
    (hread : readLine (Scanner.start.after l lines).inComment raw = (some code, opened))
    (hfound : (Scanner.start.after l lines).found? l code = some (node, kind)) :
    ((Scanner.start.after l lines).feed l raw).2 = some node ∧
    (∀ before after, bodyOf code = before ++ '{' :: after →
      (CodeState.start.run before).quote = none →
      openBraces? 0 (codeText ((CodeState.start.run before).step '{').1 after) = some 0 →
      (((Scanner.start.after l lines).feed l raw).1.blocks.head? = some kind ↔
        kind = .other ∨ '{' ∉ codeText .start before)) ∧
    ∀ nested, TellsNesting (bodyOf code) node nested →
      (nested = true ↔
        ∃ o ∈ (Reading.of lines).opened.drop (closers code), FirstBehind l lines o .control) := by
  refine ⟨?_, fun before after hbody hquote hafter => ?_, fun nested hnested => ?_⟩
  · rw [Scanner.node_feed hread, hfound]
    rfl
  · have hfirst : (Scanner.start.after l lines).firstKind l code = some kind := by
      rw [Scanner.firstKind, hfound]
      rfl
    rw [Scanner.blocks_feed hread, hbody, head?_passStack hquote hafter, hfirst, kindBehind,
      List.nil_append, Option.some_inj]
    by_cases hbrace : '{' ∈ codeText .start before
    · rw [if_pos hbrace, eq_comm]
      simp [hbrace]
    · rw [if_neg hbrace]
      simp [hbrace]
  · rw [nestedInControl_classify _ hfound nested hnested]
    exact inControl_iff

/-- The brace below the header of a loop is the first one behind it, so a branch in the loop is
reported nested. -/
theorem kind_on_top_below_loop :
    let lines : List Text := ["while (a)", "", "\x7b", "x = \x7b"]
    let raw : Text := "\x7d if (b) \x7b"
    readLine (Scanner.start.after .javascript lines).inComment raw = (some raw, false) ∧
      (Scanner.start.after .javascript lines).found? .javascript raw =
        some (.conditional "b" true, .control) ∧
      ((Scanner.start.after .javascript lines).feed .javascript raw).1.blocks.head? = some .control ∧
      ∃ o ∈ (Reading.of lines).opened.drop 1, FirstBehind .javascript lines o .control := by
  intro lines raw
  have hread : readLine (Scanner.start.after .javascript lines).inComment raw = (some raw, false) := by
    decide +kernel
  have hfound : (Scanner.start.after .javascript lines).found? .javascript raw =
      some (.conditional "b" true, .control) := by
    decide +kernel
  obtain ⟨-, htop, hnested⟩ := kind_on_top_iff_first_brace hread hfound
  refine ⟨hread, hfound, ?_, ?_⟩
  · exact (htop "if (b) " [] (by decide) (by decide) (by decide)).mpr (.inr (by decide))
  · exact (hnested true (.inl ⟨⟨"b", rfl⟩, by decide⟩)).mp rfl

/-- The first brace of this branch is that of an argument. The brace of its body, which stands outside
the brackets and is the one left open, has no kind, and the branch inside is not reported nested. -/
theorem branch_body_without_kind :
    let line : Text := "if (f(\x7b\x7d)) \x7b"
    let fed := (Scanner.start.feed .javascript line).1
    Scanner.start.found? .javascript line =
        some (.conditional "f(\x7b\x7d)" false, .control) ∧
      (CodeState.start.run "if (f(\x7b\x7d)) ").depth = 0 ∧
      openBraces? 0 (codeText .start line) = some 1 ∧
      fed.blocks = [.other] ∧
      (fed.feed .javascript "if (b) \x7b").2 = some (.conditional "b" false) := by
  intro line fed
  exact ⟨by decide +kernel, by decide +kernel, by decide +kernel, by decide +kernel,
    by decide +kernel⟩

end

end Braced
end Marginalia
