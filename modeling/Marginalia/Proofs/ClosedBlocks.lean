import Marginalia.Proofs.Cuts
import Marginalia.Proofs.ScannedLines

/-!
# Closed blocks

A line that holds nothing but closing braces, and the mark that may end their statement, opens
nothing and is nothing. When it leaves no block open the scanner is back at the start, so what
follows is scanned as if it stood alone.
-/

namespace Marginalia

/-- The part, some lines further down. -/
def Node.lowered (lines : Nat) (node : Node) : Node :=
  .mk node.kind (node.line + lines) node.children

namespace Text

lemma cut?_of_not_mem {m : Char} {mark t : Text} (h : m ∉ t) : cut? (m :: mark) t = none := by
  induction t with
  | nil => rfl
  | cons c rest ih =>
    obtain ⟨hc, hrest⟩ := not_or.mp (List.mem_cons.not.mp h)
    simp [cut?, after?, hc, ih hrest]

lemma trimEnd_trim (t : Text) : trimEnd (trim t) = trim t := dropEnd_dropEnd isBlank _

end Text

namespace Braced

open Text Pattern

/-! ## Lines that no form fits -/

/-- The forms of control flow. -/
def controlForms : List Pattern :=
  [elseIfForm, ifForm, elseForm, forForm, whileForm, doForm, switchForm, caseForm, defaultForm,
    tryForm, catchForm, finallyForm, returnForm, throwForm]

/-- The forms of scripts. -/
def scriptForms : List Pattern :=
  [scriptClass, scriptInterface, scriptType, scriptEnum, scriptFunction, scriptArrow,
    scriptConstructor, scriptMethod, scriptRequire, scriptImportFrom, scriptImport,
    scriptExportDefault, scriptExportList]

/-- The forms of compiled sources, library calls apart. -/
def compiledForms : List Pattern :=
  [includeForm, defineForm, directiveForm, namespaceForm, usingForm, classForm, typedefRecordForm,
    typedefForm, recordForm, templateForm, functionForm, constructorForm, globalForm]

/-- A text that none of some forms fits. -/
def FitsNone (forms : List Pattern) (code : Text) : Prop :=
  ∀ form ∈ forms, form.matchStart? code = none

instance (forms : List Pattern) (code : Text) : Decidable (FitsNone forms code) :=
  decidable_of_iff (∀ form ∈ forms, form.startsText code = false) <| by
    simp [FitsNone, startsText]

variable {l : Language} {s : Scanner} {code : Text} {afterClose : Bool}

lemma classifyControl_of_fitsNone (h : FitsNone controlForms code) :
    classifyControl s code afterClose = none := by
  simp only [FitsNone, controlForms, List.forall_mem_cons, List.not_mem_nil, IsEmpty.forall_iff,
    implies_true, and_true] at h
  simp [classifyControl, startsText, h]

lemma classifyScript_of_fitsNone (hcontrol : FitsNone controlForms code)
    (hscript : FitsNone scriptForms code) : classifyScript s code afterClose = none := by
  simp only [FitsNone, scriptForms, List.forall_mem_cons, List.not_mem_nil, IsEmpty.forall_iff,
    implies_true, and_true] at hscript
  simp [classifyScript, scriptDefinition, scriptModule, firstOf, startsText, hscript,
    classifyControl_of_fitsNone hcontrol]

lemma classifyCompiled_of_fitsNone (hcontrol : FitsNone controlForms code)
    (hcompiled : FitsNone compiledForms code) (hcall : compiledLibraryCall code = none) :
    classifyCompiled s code afterClose = none := by
  simp only [FitsNone, compiledForms, List.forall_mem_cons, List.not_mem_nil, IsEmpty.forall_iff,
    implies_true, and_true] at hcompiled
  simp [classifyCompiled, compiledDefinition, compiledFunction, compiledConstructor, compiledGlobal,
    firstOf, hcompiled, hcall, classifyControl_of_fitsNone hcontrol]

/-! ## Lines that close -/

/-- What may stand behind closing braces: nothing, or the end of the statement around them. -/
def closings : List Text := ["", ";", ")", ");"]

/-- A line of closing braces and, it may be, the end of the statement around them. -/
def IsClosing (line : Text) : Prop :=
  ∃ n, ∃ ending ∈ closings, trim line = List.replicate (n + 1) '}' ++ ending

lemma fitsNone_closing : ∀ ending ∈ closings,
    FitsNone controlForms ending ∧ FitsNone scriptForms ending ∧ FitsNone compiledForms ending ∧
      compiledLibraryCall ending = none := by
  decide +kernel

lemma classify_closing {ending : Text} (h : ending ∈ closings) :
    classify l s ending afterClose = none := by
  obtain ⟨hcontrol, hscript, hcompiled, hcall⟩ := fitsNone_closing ending h
  unfold classify
  by_cases htrivial : isTrivial ending = true
  · rw [if_pos htrivial]
  · rw [if_neg htrivial]
    cases l with
    | c => exact classifyCompiled_of_fitsNone hcontrol hcompiled hcall
    | python => exact classifyScript_of_fitsNone hcontrol hscript
    | javascript => exact classifyScript_of_fitsNone hcontrol hscript

lemma slash_not_mem_closing {n : Nat} {ending : Text} (h : ending ∈ closings) :
    '/' ∉ List.replicate (n + 1) '}' ++ ending := by
  have hending : ∀ ending ∈ closings, '/' ∉ ending := by decide
  rw [List.mem_append, not_or]
  exact ⟨fun hmem => absurd (List.eq_of_mem_replicate hmem) (by decide), hending ending h⟩

lemma codeOf_closing {line : Text} (h : IsClosing line) : codeOf (trim line) = (trim line, false) := by
  obtain ⟨n, ending, hending, hline⟩ := h
  have hslash : '/' ∉ trim line := hline ▸ slash_not_mem_closing hending
  have hcode : codePart "//" (trim line) = trim line := by
    have hsplit : splitAtCode? (fun _ t => t.startsWith "//") .start (trim line) = none :=
      splitAtCode?_of_not_mem hslash .start
    rw [codePart_eq rfl, hsplit]
    exact trimEnd_trim line
  have hcut : cut? "/*" (trim line) = none := cut?_of_not_mem hslash
  simp only [codeOf, hcode, hcut]

namespace Scanner

/-- Braces that leave no block open leave no class either. -/
lemma foldl_closeBlock {braces : Text} (hne : braces ≠ [])
    (h : (braces.foldl (fun s _ => s.closeBlock) s).blocks = []) :
    braces.foldl (fun s _ => s.closeBlock) s =
      { start with pending := s.pending, inComment := s.inComment } := by
  -- The last brace decides: with the last block it takes the name of the class.
  induction braces generalizing s with
  | nil => exact absurd rfl hne
  | cons c rest ih =>
    cases rest with
    | nil =>
      have hblocks : s.blocks.tail = [] := by simpa [closeBlock] using h
      simp [closeBlock, start, hblocks]
    | cons d rest => exact ih (s := s.closeBlock) (List.cons_ne_nil _ _) h

lemma trackBraces_closing {ending : Text} (h : ending ∈ closings) :
    s.trackBraces none ending = { s with pending := none } := by
  simp only [closings, List.mem_cons, List.not_mem_nil, or_false] at h
  rcases h with rfl | rfl | rfl | rfl <;> rfl

/-- A line of closing braces that leaves no block open brings the scanner back to the start. -/
lemma feed_closing {line : Text} (hcode : s.inComment = false) (h : IsClosing line)
    (hblocks : (s.feed l line).1.blocks = []) : s.feed l line = (start, none) := by
  have hcodeOf := codeOf_closing h
  obtain ⟨n, ending, hending, hline⟩ := h
  have hbrace : ∀ c ∈ List.replicate (n + 1) '}', isBeforeBody c = true := by
    intro c hc
    rw [List.eq_of_mem_replicate hc]
    decide
  have hnot : ending.takeWhile isBeforeBody = [] ∧ ending.dropWhile isBeforeBody = ending := by
    have hclosings : ∀ ending ∈ closings,
        ending.takeWhile isBeforeBody = [] ∧ ending.dropWhile isBeforeBody = ending := by decide
    exact hclosings ending hending
  -- The braces stand before the body of the line, and the ending is its body.
  have hleading : (trim line).takeWhile isBeforeBody = List.replicate (n + 1) '}' := by
    rw [hline, List.takeWhile_append_of_pos hbrace, hnot.1, List.append_nil]
  have hbody : (trim line).dropWhile isBeforeBody = ending := by
    rw [hline, List.dropWhile_append_of_pos hbrace, hnot.2]
  have hbraces : (List.replicate (n + 1) '}').filter (· == '}') = List.replicate (n + 1) '}' :=
    List.filter_eq_self.mpr fun c hc => by simp [List.eq_of_mem_replicate hc]
  have hfeed : s.feed l line = feedCode l s (trim line) := by
    have hcons : trim line = '}' :: (List.replicate n '}' ++ ending) := hline
    rw [feed, hcode, hcodeOf, hcons]
    rfl
  -- The braces close blocks. The ending is classified as nothing, and opens and closes nothing.
  have hresult : s.feed l line =
      ({ (List.replicate (n + 1) '}').foldl (fun s _ => s.closeBlock) s with pending := none },
        none) := by
    rw [hfeed, feedCode, hleading, hbody, hbraces]
    simp only [classify_closing hending, Option.map_none, trackBraces_closing hending]
  rw [hresult] at hblocks ⊢
  rw [foldl_closeBlock (by simp) hblocks, hcode]
  rfl

/-! ## Scanning on -/

lemma after_append (s : Scanner) (front rest : List Text) :
    s.after l (front ++ rest) = (s.after l front).after l rest :=
  List.foldl_append

lemma steps_cons (s : Scanner) (line : Nat) (raw : Text) (rest : List Text) :
    s.steps l line (raw :: rest) =
      (s.feed l raw).2.map (Node.leaf · line) :: (s.feed l raw).1.steps l (line + 1) rest := rfl

lemma steps_append (s : Scanner) (line : Nat) (front rest : List Text) :
    s.steps l line (front ++ rest) =
      s.steps l line front ++ (s.after l front).steps l (line + front.length) rest := by
  induction front generalizing s line with
  | nil => rfl
  | cons raw front ih =>
    rw [List.cons_append, steps_cons, steps_cons, ih, List.cons_append, List.length_cons,
      Nat.add_assoc, Nat.add_comm 1]
    rfl

lemma steps_lowered (s : Scanner) (line lines : Nat) (rest : List Text) :
    s.steps l (line + lines) rest = (s.steps l line rest).map (Option.map (Node.lowered lines)) := by
  induction rest generalizing s line with
  | nil => rfl
  | cons raw rest ih =>
    rw [steps_cons, steps_cons, Nat.add_right_comm, ih, List.map_cons, Option.map_map]
    rfl

end Scanner

/-- The nodes of some lines, which are numbered from one. -/
def nodesOf (l : Language) (lines : List Text) : List Node :=
  (Scanner.start.steps l 1 lines).filterMap id

/-- Lines that end with nothing but closing braces outside a block comment, and leave no block open,
bring the scanner back to the start: no block, no header whose brace is still to come, no comment
and no class. What follows them is scanned as if it stood alone, further down. -/
theorem scan_restarts_behind_closed {front : List Text} {last : Text}
    (hcode : (Scanner.start.after l front).inComment = false) (hlast : IsClosing last)
    (hblocks : (Scanner.start.after l (front ++ [last])).blocks = []) :
    Scanner.start.after l (front ++ [last]) = Scanner.start ∧
      ∀ rest, nodesOf l (front ++ [last] ++ rest) = nodesOf l (front ++ [last]) ++
        (nodesOf l rest).map (Node.lowered (front ++ [last]).length) := by
  have hstep : Scanner.start.after l (front ++ [last]) =
      ((Scanner.start.after l front).feed l last).1 := Scanner.after_append _ front [last]
  have hstart : Scanner.start.after l (front ++ [last]) = Scanner.start := by
    rw [hstep] at hblocks ⊢
    rw [Scanner.feed_closing hcode hlast hblocks]
  refine ⟨hstart, fun rest => ?_⟩
  rw [nodesOf, Scanner.steps_append, hstart, Scanner.steps_lowered, List.filterMap_append,
    List.filterMap_map, nodesOf, nodesOf, List.map_filterMap]
  rfl

/-- The class of a header without brace and the branch in its method are both forgotten. -/
theorem scan_restarts_behind_box :
    let front : List Text := ["class Box", "  \x7b", "  area() \x7b", "    if (x)"]
    let last : Text := "  \x7d\x7d);"
    (Scanner.start.after .javascript front).inComment = false ∧ IsClosing last ∧
      Scanner.start.after .javascript front =
        ⟨[.functionBody, .classBody], some .control, false, some "Box"⟩ ∧
      Scanner.start.after .javascript (front ++ [last]) = Scanner.start ∧
        ∀ rest, nodesOf .javascript (front ++ [last] ++ rest) =
          nodesOf .javascript (front ++ [last]) ++ (nodesOf .javascript rest).map (Node.lowered 5) := by
  have hlast : IsClosing "  \x7d\x7d);" := ⟨1, ");", by decide, by decide⟩
  refine ⟨by decide +kernel, hlast, by decide +kernel, ?_⟩
  exact scan_restarts_behind_closed (by decide +kernel) hlast (by decide +kernel)

end Braced
end Marginalia
