import Marginalia.Commentary.Remark
import Marginalia.Proofs.NamingLines
import Mathlib.Data.Option.Basic

/-!
# What sentences show of a source

A sentence is made of fixed words and of pieces of the source that it shows, some of them cut short.
It is on one line exactly when all of these pieces are. Which pieces are shown is said here without
the sentence.
-/

namespace Marginalia

namespace Sentence

/-- What the sentence about a callable shows. -/
def shownOfCallable (c : Callable) (l : Language) : List Text :=
  match c.flavor with
  | .constructor => if (Naming.specialName? l c.name).isSome then [] else c.owner.toList
  | .destructor => c.owner.toList
  | .prototype => [c.name]
  | _ =>
    if (Naming.specialName? l c.name).isSome || (Naming.classify? c.name).isSome then []
    else [c.name]

lemma oneLine_plainCallable (name : Text) (l : Language) : OneLine (plainCallable name l) ↔
    ∀ piece ∈ (if (Naming.specialName? l name).isSome || (Naming.classify? name).isSome then []
      else [name]), OneLine piece := by
  rw [plainCallable]
  cases hs : Naming.specialName? l name with
  | some known => simpa using Naming.oneLine_specialName hs
  | none =>
    cases hc : Naming.classify? name with
    | some found => simpa using Naming.oneLine_classify hc
    | none => simp +decide

lemma oneLine_callable (c : Callable) (l : Language) :
    OneLine (callable c l) ↔ ∀ piece ∈ shownOfCallable c l, OneLine piece := by
  cases hf : c.flavor with
  | constructor =>
    cases hs : Naming.specialName? l c.name with
    | some known => simpa [callable, shownOfCallable, hf, hs] using Naming.oneLine_specialName hs
    | none => cases ho : c.owner <;> simp +decide [callable, shownOfCallable, hf, hs, ho]
  | destructor => cases ho : c.owner <;> simp +decide [callable, shownOfCallable, hf, ho]
  | prototype => simp +decide [callable, shownOfCallable, hf]
  | function => simpa [callable, shownOfCallable, hf] using oneLine_plainCallable c.name l
  | method => simpa [callable, shownOfCallable, hf] using oneLine_plainCallable c.name l
  | arrow => simpa [callable, shownOfCallable, hf] using oneLine_plainCallable c.name l

/-- What the sentence about a class shows. -/
def shownOfClass (name : Text) (bases : List Text) : List Text :=
  name :: if (Naming.classRole? name).isSome then [] else bases.take 1

lemma oneLine_classDef (name : Text) (bases : List Text) :
    OneLine (classDef name bases) ↔ ∀ piece ∈ shownOfClass name bases, OneLine piece := by
  cases hr : Naming.classRole? name with
  | some role => simp +decide [classDef, shownOfClass, hr, Naming.oneLine_classRole hr]
  | none => cases bases <;> simp +decide [classDef, shownOfClass, hr]

/-- What the sentence about an import shows. -/
def shownOfImports (module : Text) (names : List Text) (selective : Bool) : List Text :=
  module :: if selective && names.length == 1 then names else []

lemma oneLine_imports (module : Text) (names : List Text) (selective : Bool) :
    OneLine (imports module names selective) ↔
      ∀ piece ∈ shownOfImports module names selective, OneLine piece := by
  cases selective with
  | false => simp +decide [imports, shownOfImports]
  | true =>
    match names with
    | [] => simp +decide [imports, shownOfImports]
    | [only] => simp +decide [imports, shownOfImports, and_comm]
    | _ :: _ :: _ => simp +decide [imports, shownOfImports]

/-- What the sentence about a loop over a collection shows. -/
def shownOfForLoop (target iterable : Text) : List Text :=
  if (IterableForm.ofText? iterable).isSome
      || (targetSentence? (Naming.splitIdentifier target)).isSome then []
  else [target.trim]

lemma oneLine_forLoop (target iterable : Text) :
    OneLine (forLoop target iterable) ↔ ∀ piece ∈ shownOfForLoop target iterable, OneLine piece := by
  cases hf : IterableForm.ofText? iterable with
  | some form =>
    have hform : OneLine form.sentence := by cases form <;> exact oneLine_literal (by decide)
    simpa [forLoop, shownOfForLoop, hf] using hform
  | none =>
    cases ht : targetSentence? (Naming.splitIdentifier target) with
    | some sentence =>
      have htable : ∀ entry ∈ targetSentences, OneLine entry.2 := by
        simp only [targetSentences, List.forall_mem_cons]
        and_intros
        all_goals first | exact oneLine_literal (by decide) | exact List.forall_mem_nil _
      obtain ⟨entry, hfind, rfl⟩ := Option.map_eq_some_iff.mp ht
      simpa [forLoop, shownOfForLoop, hf, ht] using htable entry (List.mem_of_find?_eq_some hfind)
    | none => simp +decide [forLoop, shownOfForLoop, hf, ht]

/-- What the sentence about a counting loop shows. -/
def shownOfCountingLoop (header : Text) : List Text :=
  [(boundedCount? header).getD (quoted header)]

lemma oneLine_countingLoop (header : Text) :
    OneLine (countingLoop header) ↔ ∀ piece ∈ shownOfCountingLoop header, OneLine piece := by
  cases hb : boundedCount? header <;> simp +decide [countingLoop, shownOfCountingLoop, hb]

lemma oneLine_whileLoop (condition : Text) : OneLine (whileLoop condition) := by
  unfold whileLoop
  split <;> exact oneLine_literal (by decide)

/-- What the sentence for a form of condition shows: the sides of a comparison for equality. -/
def shownOfForm (form : ConditionForm) (c : Condition) : List Text :=
  let comparison? : Option Comparison :=
    match form with
    | .equality => some .equal
    | .inequality => some .unequal
    | _ => none
  match comparison?.bind c.sides? with
  | some (left, right) => [left, right]
  | none => []

/-- What the sentence about a branch shows. -/
def shownOfConditional (condition : Text) : List Text :=
  match ConditionForm.first? (.ofText condition) with
  | some (form, _) => shownOfForm form (.ofText condition)
  | none => []

lemma oneLine_when {holds : Bool} {text sentence : Text}
    (h : ConditionForm.when holds text = some sentence) (ht : OneLine text) : OneLine sentence := by
  rw [ConditionForm.when] at h
  split at h
  · rwa [← Option.some.inj h]
  · cases h

lemma oneLine_conditionForm {form : ConditionForm} {c : Condition} {sentence : Text}
    (h : form.sentence? c = some sentence) :
    OneLine sentence ↔ ∀ piece ∈ shownOfForm form c, OneLine piece := by
  have hfixed : shownOfForm form c = [] → OneLine sentence →
      (OneLine sentence ↔ ∀ piece ∈ shownOfForm form c, OneLine piece) := by
    intro hnone hline
    simp [hnone, hline]
  cases form with
  | equality =>
    obtain ⟨⟨left, right⟩, hsides, rfl⟩ := Option.map_eq_some_iff.mp h
    simp +decide [shownOfForm, hsides]
  | inequality =>
    obtain ⟨⟨left, right⟩, hsides, rfl⟩ := Option.map_eq_some_iff.mp h
    simp +decide [shownOfForm, hsides]
  | nullCheck =>
    simp only [ConditionForm.sentence?] at h
    split at h
    · split at h <;> exact hfixed rfl (Option.some.inj h ▸ oneLine_literal (by decide))
    · cases h
  | length =>
    simp only [ConditionForm.sentence?] at h
    split at h
    · split at h
      · exact hfixed rfl (Option.some.inj h ▸ oneLine_literal (by decide))
      · split at h <;> exact hfixed rfl (Option.some.inj h ▸ oneLine_literal (by decide))
    · cases h
  | boolLiteral =>
    simp only [ConditionForm.sentence?] at h
    split at h
    · exact hfixed rfl (Option.some.inj h ▸ oneLine_literal (by decide))
    · split at h
      · exact hfixed rfl (Option.some.inj h ▸ oneLine_literal (by decide))
      · cases h
  | _ => exact hfixed rfl (oneLine_when h (oneLine_literal (by decide)))

lemma oneLine_conditional (condition : Text) :
    OneLine (conditional condition) ↔ ∀ piece ∈ shownOfConditional condition, OneLine piece := by
  rw [conditional, shownOfConditional]
  cases hf : ConditionForm.first? (.ofText condition) with
  | none => simp +decide
  | some pair =>
    obtain ⟨form, hmem, hform⟩ := List.exists_of_findSome?_eq_some hf
    obtain ⟨sentence, hsentence, rfl⟩ := Option.map_eq_some_iff.mp hform
    exact oneLine_conditionForm hsentence

/-- What the sentence about a block that holds resources shows. -/
def shownOfWith (items : List Text) : List Text :=
  if items.any (fun item => item.hasPart "open(")
      || items.any (fun item => Text.hasPart item.lower "lock") then []
  else [quoted (items.headD [])]

lemma oneLine_withBlock (items : List Text) (isAsync : Bool) :
    OneLine (withBlock items isAsync) ↔ ∀ piece ∈ shownOfWith items, OneLine piece := by
  have hresources : resources items =
      if items.any (fun item => item.hasPart "open(") then
        ("Open the file and close it automatically when done" : Text)
      else if items.any (fun item => Text.hasPart item.lower "lock") then
        "Hold the lock while this block runs"
      else "Use " ++ quoted (items.headD []) ++ " as a managed resource, released on exit" := rfl
  rw [shownOfWith]
  generalize items.any (fun item => item.hasPart "open(") = opens at hresources ⊢
  generalize items.any (fun item => Text.hasPart item.lower "lock") = locks at hresources ⊢
  cases isAsync with
  | false => cases opens <;> cases locks <;> simp +decide [withBlock, hresources]
  | true =>
    have hlower : lowerFirst (("Use " : Text) ++ quoted (items.headD []) ++
        " as a managed resource, released on exit") =
        "use " ++ quoted (items.headD []) ++ " as a managed resource, released on exit" := rfl
    cases opens with
    | true => cases locks <;> simp +decide [withBlock, hresources]
    | false =>
      cases locks with
      | true => simp +decide [withBlock, hresources]
      | false =>
        simp only [withBlock, hresources, Bool.false_eq_true, if_false, if_true, hlower]
        simp +decide

/-- What the sentence about a try block shows. -/
def shownOfTry (handlers : List Text) (catchesAll : Bool) : List Text :=
  if !catchesAll && handlers.length == 1 then handlers else []

lemma oneLine_handling (handlers : List Text) (catchesAll : Bool) :
    OneLine (handling handlers catchesAll) ↔
      ∀ piece ∈ shownOfTry handlers catchesAll, OneLine piece := by
  cases catchesAll with
  | true =>
    change OneLine ("Try to run code and catch all errors" : Text) ↔ _
    simp [shownOfTry]
  | false =>
    match handlers with
    | [] =>
      change OneLine ("Try to run code and catch any errors" : Text) ↔ _
      simp [shownOfTry]
    | [only] =>
      change OneLine (("Try to run code and catch " : Text) ++ only ++ " errors if they occur") ↔ _
      simp +decide [shownOfTry]
    | _ :: _ :: _ =>
      change OneLine ("Try to run code and handle any errors that might happen" : Text) ↔ _
      simp [shownOfTry]

lemma oneLine_tryBlock (handlers : List Text) (catchesAll hasFinally : Bool) :
    OneLine (tryBlock handlers catchesAll hasFinally) ↔
      ∀ piece ∈ shownOfTry handlers catchesAll, OneLine piece := by
  rw [← oneLine_handling]
  cases hasFinally with
  | false => exact Iff.rfl
  | true =>
    change OneLine (handling handlers catchesAll ++ ", always running the cleanup step") ↔ _
    simp +decide

lemma oneLine_catchClause (error : Option Text) :
    OneLine (catchClause error) ↔ ∀ piece ∈ error.toList, OneLine piece := by
  have hfixed : OneLine ("Handle errors raised in the try block" : Text) := oneLine_literal (by decide)
  match error with
  | none => exact iff_of_true hfixed nofun
  | some [] => exact iff_of_true hfixed (by simp)
  | some (c :: rest) =>
    change OneLine (("Handle " : Text) ++ (c :: rest) ++ " raised in the try block") ↔ _
    simp +decide only [oneLine_append, Option.toList_some, List.forall_mem_singleton, true_and,
      and_true]

lemma oneLine_raises (exception : Option Text) :
    OneLine (raises exception) ↔ ∀ piece ∈ (exception.map quoted).toList, OneLine piece := by
  cases exception with
  | none =>
    have hfixed : OneLine ("Re-raise current exception" : Text) := oneLine_literal (by decide)
    exact iff_of_true hfixed nofun
  | some raised =>
    change OneLine (("Raise exception: " : Text) ++ quoted raised) ↔ _
    simp +decide

lemma oneLine_asserts (test : Text) (message : Option Text) : OneLine (asserts test message) ↔
    ∀ piece ∈ quoted test :: (message.map quoted).toList, OneLine piece := by
  cases message with
  | none =>
    change OneLine (("Make sure " : Text) ++ quoted test ++ " holds" ++ ([] : Text)) ↔ _
    simp +decide
  | some told =>
    change OneLine
      (("Make sure " : Text) ++ quoted test ++ " holds" ++ ((", failing with " : Text) ++ quoted told)) ↔ _
    simp +decide

/-- Whether the sentence about a return tells the value that is returned. -/
def tellsValue (value : Text) : Bool :=
  (["None", "null", "undefined", ""] : List Text).contains value
    || ((["True", "False", "true", "false"] : List Text).contains value
    || ((["self", "this", "*this"] : List Text).contains value
    || (value.startsWith "\x7b" || value.startsWith "[")))

/-- What the sentence about a return shows: the function, where the value is not told. -/
def shownOfReturns (value function : Option Text) : List Text :=
  if tellsValue ((value.map Text.trim).getD "None") then [] else function.toList

lemma oneLine_returns (value function : Option Text) :
    OneLine (returns value function) ↔ ∀ piece ∈ shownOfReturns value function, OneLine piece := by
  have htells (h : tellsValue ((value.map Text.trim).getD "None") = true) :
      ∀ piece ∈ shownOfReturns value function, OneLine piece := by
    rw [shownOfReturns, if_pos h]
    exact nofun
  have hsilent (h : tellsValue ((value.map Text.trim).getD "None") = false) :
      shownOfReturns value function = function.toList := by
    rw [shownOfReturns, if_neg (ne_true_of_eq_false h)]
  have hbooleans : ∀ b ∈ (["True", "False", "true", "false"] : List Text), OneLine b := by decide +kernel
  simp only [returns]
  split
  · next h => exact iff_of_true (oneLine_literal (by decide)) (htells (by rw [tellsValue, h]; rfl))
  · next hnone =>
    split
    · next h =>
      refine iff_of_true ?_ (htells (by rw [tellsValue, h, Bool.true_or, Bool.or_true]))
      exact oneLine_append.mpr ⟨by decide +kernel, hbooleans _ (List.contains_iff_mem.mp h)⟩
    · next hbool =>
      split
      · next h =>
        refine iff_of_true (oneLine_literal (by decide)) (htells ?_)
        rw [tellsValue, h, Bool.true_or, Bool.or_true, Bool.or_true]
      · next hself =>
        split
        · next h =>
          refine iff_of_true (oneLine_literal (by decide)) (htells ?_)
          rw [tellsValue, h, Bool.or_true, Bool.or_true, Bool.or_true]
        · next hopens =>
          have hopens := eq_false_of_ne_true hopens
          rw [hsilent (by rw [tellsValue, eq_false_of_ne_true hnone, eq_false_of_ne_true hbool,
            eq_false_of_ne_true hself, hopens]; rfl)]
          cases function with
          | none => exact iff_of_true (oneLine_literal (by decide)) nofun
          | some f =>
            change OneLine (("Return the result of " : Text) ++ f) ↔ _
            simp

lemma oneLine_plainAssignment (target value : Text) :
    OneLine (plainAssignment target value) ↔ OneLine target := by
  unfold plainAssignment
  split
  · simp
  · split
    · simp
    · split <;> simp

lemma oneLine_assignment (targets : List Text) (value : Text) (shape : ValueShape) :
    OneLine (assignment targets value shape) ↔ ∀ piece ∈ targets, OneLine piece := by
  have hjoin : OneLine (Text.join ", " targets) ↔ ∀ piece ∈ targets, OneLine piece :=
    Text.oneLine_join (by decide +kernel)
  rw [← hjoin]
  cases shape with
  | call =>
    change OneLine (("Store result of function call in " : Text) ++ Text.join ", " targets) ↔ _
    simp
  | list =>
    change OneLine (if value.trim == ("[]" : Text) then
      ("Initialize empty list " : Text) ++ Text.join ", " targets
      else ("Initialize " : Text) ++ Text.join ", " targets ++ " as list") ↔ _
    split <;> simp
  | dict =>
    change OneLine (if value.trim == ("\x7b\x7d" : Text) then
      ("Initialize empty dictionary " : Text) ++ Text.join ", " targets
      else ("Initialize " : Text) ++ Text.join ", " targets ++ " as dictionary") ↔ _
    split <;> simp
  | lambda =>
    change OneLine (("Define inline function " : Text) ++ Text.join ", " targets) ↔ _
    simp
  | comprehension =>
    change OneLine (("Build " : Text) ++ Text.join ", " targets ++ " using comprehension") ↔ _
    simp
  | other => exact oneLine_plainAssignment _ _

lemma oneLine_augmentedAssignment (target operator value : Text) :
    OneLine (augmentedAssignment target operator value) ↔
      ∀ piece ∈ [target, quoted value], OneLine piece := by
  have hverb : OneLine (updateVerb operator) := by
    unfold updateVerb
    repeat' split
    all_goals decide
  simp [augmentedAssignment, hverb]

/-- What the sentence about a call of a library function shows. -/
def shownOfLibraryCall (function : Text) (argument : Option Text) : List Text :=
  match Naming.libraryCalls.lookup function, argument with
  | none, _ => [function]
  | some _, some arg =>
    if (["malloc", "calloc", "free"] : List Text).contains function && !arg.isEmpty then
      [function, arg]
    else []
  | some _, none => []

lemma oneLine_libraryCall (function : Text) (argument : Option Text) :
    OneLine (libraryCall function argument) ↔
      ∀ piece ∈ shownOfLibraryCall function argument, OneLine piece := by
  have htable : ∀ entry ∈ Naming.libraryCalls, OneLine entry.2 := by
    simp only [Naming.libraryCalls, List.forall_mem_cons]
    and_intros
    all_goals first | exact oneLine_literal (by decide) | exact List.forall_mem_nil _
  cases hl : Naming.libraryCalls.lookup function with
  | none => simp [libraryCall, Naming.libraryCall?, shownOfLibraryCall, hl]
  | some base =>
    have hbase : OneLine base := htable _ (Naming.mem_of_lookup hl)
    cases argument with
    | none => simp [libraryCall, Naming.libraryCall?, shownOfLibraryCall, hl, hbase]
    | some arg =>
      simp only [libraryCall, Naming.libraryCall?, shownOfLibraryCall, hl]
      split <;> simp [hbase]

/-! Sentences about declarations. -/

/-- What the sentence about an interface shows. -/
def shownOfInterface (name : Text) (bases : Option Text) : List Text :=
  name :: (bases.map Text.trim).toList

lemma oneLine_interface (name : Text) (bases : Option Text) :
    OneLine (interface name bases) ↔ ∀ piece ∈ shownOfInterface name bases, OneLine piece := by
  cases bases with
  | none =>
    change OneLine (("Describe the shape of " : Text) ++ name ++ " objects") ↔ _
    simp [shownOfInterface]
  | some parent =>
    change OneLine (("Describe the " : Text) ++ name ++ " interface, extending " ++ parent.trim) ↔ _
    simp [shownOfInterface]

/-- What the sentence about a structure or union shows. -/
def shownOfRecord (keyword name : Text) : List Text :=
  if name.isEmpty then [lastPart keyword] else [name, lastPart keyword]

lemma oneLine_record (keyword name : Text) :
    OneLine (record keyword name) ↔ ∀ piece ∈ shownOfRecord keyword name, OneLine piece := by
  unfold record shownOfRecord
  split <;> simp

lemma oneLine_exports (item : Text) (isDefault : Bool) :
    OneLine (exports item isDefault) ↔ OneLine (item.truncate 50) := by
  unfold exports
  split <;> simp

lemma oneLine_includes (header : Text) (isSystem : Bool) :
    OneLine (includes header isSystem) ↔ OneLine header := by
  cases isSystem with
  | true =>
    change OneLine (("Include the " : Text) ++ "system" ++ " header " ++ header) ↔ _
    simp
  | false =>
    change OneLine (("Include the " : Text) ++ "local" ++ " header " ++ header) ↔ _
    simp

/-- What the sentence about a macro shows. -/
def shownOfMacro (name : Text) (params value : Option Text) : List Text :=
  name :: (params.or value).toList

lemma oneLine_macroDef (name : Text) (params value : Option Text) :
    OneLine (macroDef name params value) ↔
      ∀ piece ∈ shownOfMacro name params value, OneLine piece := by
  cases params with
  | some params =>
    change OneLine (("Define macro function " : Text) ++ name ++ "(" ++ params ++ ")") ↔ _
    simp [shownOfMacro]
  | none =>
    cases value with
    | none =>
      change OneLine (("Define macro " : Text) ++ name) ↔ _
      simp [shownOfMacro]
    | some value =>
      change OneLine (("Define macro " : Text) ++ name ++ " as " ++ value) ↔ _
      simp [shownOfMacro]

/-- What the sentence about a directive shows. -/
def shownOfPreprocessor (directive argument : Text) : List Text :=
  if (["ifdef", "ifndef", "if", "elif", "pragma"] : List Text).contains directive then [argument]
  else if (["else", "endif"] : List Text).contains directive then []
  else [Text.trimEnd (("Preprocessor directive: #" : Text) ++ directive ++ " " ++ argument)]

lemma oneLine_preprocessor (directive argument : Text) :
    OneLine (preprocessor directive argument) ↔
      ∀ piece ∈ shownOfPreprocessor directive argument, OneLine piece := by
  by_cases hifdef : directive = "ifdef"
  · subst hifdef
    simp +decide [preprocessor, shownOfPreprocessor]
  by_cases hifndef : directive = "ifndef"
  · subst hifndef
    simp +decide [preprocessor, shownOfPreprocessor]
  by_cases hif : directive = "if"
  · subst hif
    simp +decide [preprocessor, shownOfPreprocessor]
  by_cases helif : directive = "elif"
  · subst helif
    simp +decide [preprocessor, shownOfPreprocessor]
  by_cases helse : directive = "else"
  · subst helse
    simp +decide [preprocessor, shownOfPreprocessor]
  by_cases hendif : directive = "endif"
  · subst hendif
    simp +decide [preprocessor, shownOfPreprocessor]
  by_cases hpragma : directive = "pragma"
  · subst hpragma
    simp +decide [preprocessor, shownOfPreprocessor]
  simp only [preprocessor, shownOfPreprocessor, beq_iff_eq, List.contains_iff_mem, List.mem_cons,
    List.not_mem_nil, hifdef, hifndef, hif, helif, helse, hendif, hpragma, or_false, if_false,
    forall_eq]

lemma oneLine_namespaceDef (name : Text) (isUse : Bool) :
    OneLine (namespaceDef name isUse) ↔ OneLine name := by
  cases isUse <;> simp [namespaceDef]

/-- What the sentence about a global variable shows. -/
def shownOfGlobal (declaration name : Text) (value : Option Text) : List Text :=
  declaration :: name :: value.toList

lemma oneLine_globalVariable (declaration name : Text) (value : Option Text) :
    OneLine (globalVariable declaration name value) ↔
      ∀ piece ∈ shownOfGlobal declaration name value, OneLine piece := by
  cases value with
  | none =>
    change OneLine (("Declare global " : Text) ++ declaration ++ " " ++ name) ↔ _
    simp [shownOfGlobal]
  | some value =>
    change OneLine
      (("Global " : Text) ++ declaration ++ " " ++ name ++ " initialised to " ++ value) ↔ _
    simp [shownOfGlobal]

lemma oneLine_case (label : Option Text) :
    OneLine (case label) ↔ ∀ piece ∈ (label.map quoted).toList, OneLine piece := by
  cases label with
  | none =>
    change OneLine ("Handle any value not matched by the cases above" : Text) ↔ _
    simp
  | some label =>
    change OneLine (("Handle the case where the value is " : Text) ++ quoted label) ↔ _
    simp

end Sentence

namespace Commentary

/-- The pieces of the source that the sentence about a part shows, cut as they are shown. `function`
is the innermost function around the part. -/
def shown (l : Language) (function : Option Text) : NodeKind → List Text
  | .function c => Sentence.shownOfCallable c l
  | .classDef name bases _ => Sentence.shownOfClass name bases
  | .interface name bases => Sentence.shownOfInterface name bases
  | .typeAlias name definition => [name, definition]
  | .enumeration name => [name]
  | .record keyword name => Sentence.shownOfRecord keyword name
  | .forLoop target iterable _ => Sentence.shownOfForLoop target iterable
  | .countingLoop header => Sentence.shownOfCountingLoop header
  | .conditional condition _ => Sentence.shownOfConditional condition
  | .switch subject _ => [Sentence.quoted subject]
  | .case label => (label.map Sentence.quoted).toList
  | .withBlock items _ => Sentence.shownOfWith items
  | .tryBlock handlers catchesAll _ _ => Sentence.shownOfTry handlers catchesAll
  | .catchClause error => error.toList
  | .imports module names selective _ => Sentence.shownOfImports module names selective
  | .exports item _ => [item.truncate 50]
  | .includes header _ => [header]
  | .macroDef name params value => Sentence.shownOfMacro name params value
  | .preprocessor directive argument => Sentence.shownOfPreprocessor directive argument
  | .namespaceDef name _ => [name]
  | .template params => [params]
  | .globalVariable declaration name value => Sentence.shownOfGlobal declaration name value
  | .returns value => Sentence.shownOfReturns value function
  | .raises exception => (exception.map Sentence.quoted).toList
  | .asserts test message => Sentence.quoted test :: (message.map Sentence.quoted).toList
  | .assignment targets _ _ => targets
  | .augmentedAssignment target _ value => [target, Sentence.quoted value]
  | .libraryCall name argument => Sentence.shownOfLibraryCall name argument
  | _ => []

lemma oneLine_structuralSentence {l : Language} {kind : NodeKind} {text : Text}
    (h : structuralSentence? l kind = some text) (function : Option Text) :
    OneLine text ↔ ∀ piece ∈ shown l function kind, OneLine piece := by
  cases kind with
  | function c => exact Option.some.inj h ▸ Sentence.oneLine_callable c l
  | classDef name bases _ => exact Option.some.inj h ▸ Sentence.oneLine_classDef name bases
  | interface name bases => exact Option.some.inj h ▸ Sentence.oneLine_interface name bases
  | typeAlias name definition =>
    rw [← Option.some.inj h]
    change OneLine (("Define " : Text) ++ name ++ " as an alias for " ++ definition) ↔
      ∀ piece ∈ [name, definition], OneLine piece
    simp
  | enumeration name =>
    rw [← Option.some.inj h]
    change OneLine (("List the allowed values of " : Text) ++ name) ↔ ∀ piece ∈ [name], OneLine piece
    simp
  | record keyword name => exact Option.some.inj h ▸ Sentence.oneLine_record keyword name
  | forLoop target iterable _ =>
    exact Option.some.inj h ▸ Sentence.oneLine_forLoop target iterable
  | countingLoop header => exact Option.some.inj h ▸ Sentence.oneLine_countingLoop header
  | whileLoop condition =>
    exact Option.some.inj h ▸ iff_of_true (Sentence.oneLine_whileLoop condition) nofun
  | doWhile => exact Option.some.inj h ▸ iff_of_true (oneLine_literal (by decide)) nofun
  | conditional condition nested =>
    cases nested with
    | true => cases h
    | false => exact Option.some.inj h ▸ Sentence.oneLine_conditional condition
  | switch subject nested =>
    cases nested with
    | true => cases h
    | false =>
      rw [← Option.some.inj h]
      change OneLine (("Choose a branch based on the value of " : Text) ++ Sentence.quoted subject) ↔
        ∀ piece ∈ [Sentence.quoted subject], OneLine piece
      simp
  | withBlock items isAsync => exact Option.some.inj h ▸ Sentence.oneLine_withBlock items isAsync
  | tryBlock handlers catchesAll _ hasFinally =>
    exact Option.some.inj h ▸ Sentence.oneLine_tryBlock handlers catchesAll hasFinally
  | catchClause error => exact Option.some.inj h ▸ Sentence.oneLine_catchClause error
  | finallyClause => exact Option.some.inj h ▸ iff_of_true (oneLine_literal (by decide)) nofun
  | imports module names selective topLevel =>
    cases topLevel with
    | false => cases h
    | true => exact Option.some.inj h ▸ Sentence.oneLine_imports module names selective
  | exports item isDefault =>
    rw [← Option.some.inj h, Sentence.oneLine_exports]
    exact List.forall_mem_singleton.symm
  | includes header isSystem =>
    rw [← Option.some.inj h, Sentence.oneLine_includes]
    exact List.forall_mem_singleton.symm
  | macroDef name params value =>
    exact Option.some.inj h ▸ Sentence.oneLine_macroDef name params value
  | preprocessor directive argument =>
    exact Option.some.inj h ▸ Sentence.oneLine_preprocessor directive argument
  | namespaceDef name isUse =>
    rw [← Option.some.inj h, Sentence.oneLine_namespaceDef]
    exact List.forall_mem_singleton.symm
  | template params =>
    rw [← Option.some.inj h]
    change OneLine (("Generic definition over " : Text) ++ params) ↔
      ∀ piece ∈ [params], OneLine piece
    simp
  | _ => cases h

lemma oneLine_detailSentence {l : Language} {function : Option Text} {kind : NodeKind}
    {rank : Rank} {text : Text} (h : detailSentence? function kind = some (rank, text)) :
    OneLine text ↔ ∀ piece ∈ shown l function kind, OneLine piece := by
  cases kind with
  | case label =>
    obtain ⟨-, rfl⟩ := Prod.mk.inj (Option.some.inj h)
    exact Sentence.oneLine_case label
  | globalVariable declaration name value =>
    obtain ⟨-, rfl⟩ := Prod.mk.inj (Option.some.inj h)
    exact Sentence.oneLine_globalVariable declaration name value
  | returns value =>
    obtain ⟨-, rfl⟩ := Prod.mk.inj (Option.some.inj h)
    exact Sentence.oneLine_returns value function
  | raises exception =>
    obtain ⟨-, rfl⟩ := Prod.mk.inj (Option.some.inj h)
    exact Sentence.oneLine_raises exception
  | asserts test message =>
    obtain ⟨-, rfl⟩ := Prod.mk.inj (Option.some.inj h)
    exact Sentence.oneLine_asserts test message
  | libraryCall name argument =>
    obtain ⟨-, rfl⟩ := Prod.mk.inj (Option.some.inj h)
    exact Sentence.oneLine_libraryCall name argument
  | assignment targets value shape =>
    obtain ⟨-, rfl⟩ := Prod.mk.inj (Option.some.inj h)
    exact Sentence.oneLine_assignment targets value shape
  | augmentedAssignment target operator value =>
    obtain ⟨-, rfl⟩ := Prod.mk.inj (Option.some.inj h)
    exact Sentence.oneLine_augmentedAssignment target operator value
  | _ => cases h

/-- A sentence is on one line exactly when every piece of the source that it shows is. -/
theorem oneLine_sentence {l : Language} {v : Verbosity} {function : Option Text} {kind : NodeKind}
    {rank : Rank} {text : Text} (h : sentence? l v function kind = some (rank, text)) :
    OneLine text ↔ ∀ piece ∈ shown l function kind, OneLine piece := by
  unfold sentence? at h
  cases hs : structuralSentence? l kind with
  | some found =>
    rw [hs] at h
    obtain ⟨-, rfl⟩ := Prod.mk.inj (Option.some.inj h)
    exact oneLine_structuralSentence hs function
  | none =>
    rw [hs] at h
    cases v with
    | structural => cases h
    | detailed => exact oneLine_detailSentence h

end Commentary
end Marginalia
