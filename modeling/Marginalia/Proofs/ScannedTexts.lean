import Marginalia.Proofs.FoundKinds
import Marginalia.Proofs.KindLines
import Marginalia.Proofs.ScannedLines

/-!
# Scanned parts on one line

A line is classified by its code, and what it is found to be holds pieces of that code and the name
of the class around it, which a line before has given. So every part of a scanned source holds texts
on one line, however the source is broken into lines.
-/

namespace Marginalia

open Text

/-! ## Pieces of a line -/

lemma oneLine_getD {t? : Option Text} {t : Text} (h? : ∀ t ∈ t?.toList, OneLine t)
    (h : OneLine t) : OneLine (t?.getD t) := by
  cases t? with
  | none => exact h
  | some t => exact h? t (by simp)

namespace OneLine

variable {t : Text} {form : Pattern} {m : Matching}

lemma group (h : OneLine t) (hm : m ∈ form.matchStart? t) (number : Nat) : OneLine (m.group number) :=
  h.piece ((Pattern.matchAt_within hm).group_isInfix number)

lemma group? (h : OneLine t) (hm : m ∈ form.matchStart? t) (number : Nat) :
    ∀ piece ∈ (m.group? number).toList, OneLine piece :=
  fun _ hpiece => h.piece ((Pattern.matchAt_within hm).group?_isInfix (Option.mem_toList.mp hpiece))

lemma firstGroup? (h : OneLine t) : ∀ inside ∈ (Text.firstGroup? t).toList, OneLine inside :=
  fun _ hinside => h.piece (infix_of_firstGroup? (Option.mem_toList.mp hinside))

lemma withoutSemicolons (h : OneLine t) : OneLine (Braced.withoutSemicolons t) :=
  (h.piece (dropEnd_isPrefix _ t).isInfix).trim

lemma groupOf (h : OneLine t) : OneLine (Braced.groupOf t) :=
  (oneLine_getD h.firstGroup? oneLine_nil).trim

lemma paramsOf (h : OneLine t) : ∀ param ∈ Braced.paramsOf t, OneLine param := by
  unfold Braced.paramsOf
  split
  · next inside hinside =>
    intro param hparam
    have hpiece := infix_of_mem_splitTopLevel (List.mem_of_mem_filter hparam)
    exact h.piece (hpiece.trans (infix_of_firstGroup? hinside))
  · exact List.forall_mem_nil _

lemma withoutDeclaration (h : OneLine t) : OneLine (Braced.withoutDeclaration t) := by
  refine (oneLine_getD ?_ h.trim).trim
  intro rest hrest
  obtain ⟨head, -, hrest⟩ := List.exists_of_findSome?_eq_some (Option.mem_toList.mp hrest)
  exact h.trim.piece (suffix_of_after? hrest).isInfix

end OneLine

lemma Text.oneLine_squash (t : Text) : OneLine (squash t) := by
  refine (oneLine_join (by decide)).mpr fun word hword hnewline => ?_
  exact absurd (not_separator_of_mem_fields hword hnewline) (by decide)

namespace Braced

variable {l : Language} {s : Scanner} {code : Text}

lemma oneLine_cutQualifier {name owner? rest : _} (h : OneLine name)
    (hcut : cutQualifier name = (owner?, rest)) :
    (∀ owner ∈ owner?.toList, OneLine owner) ∧ OneLine rest := by
  unfold cutQualifier at hcut
  split at hcut
  · next last qualifier hname =>
    obtain ⟨rfl, rfl⟩ := Prod.mk.inj hcut
    have hreverse := oneLine_reverse.mpr h
    rw [eq_of_cut? hname, oneLine_append, oneLine_append] at hreverse
    simp [hreverse]
  · obtain ⟨rfl, rfl⟩ := Prod.mk.inj hcut
    exact ⟨List.forall_mem_nil _, h⟩

lemma onOneLine_forHeader (h : OneLine code) : (forHeader code).OnOneLine := by
  have hcounting : (NodeKind.countingLoop code.trim).OnOneLine := by
    simpa [NodeKind.OnOneLine, NodeKind.texts] using h.trim
  unfold forHeader
  dsimp only
  split
  · exact hcounting
  · split
    · next target iterable hcut =>
      obtain ⟨sep, -, hcut⟩ := List.exists_of_findSome?_eq_some hcut
      rw [eq_of_cut? hcut, oneLine_append, oneLine_append] at h
      simp [NodeKind.OnOneLine, NodeKind.texts, h.1.1.withoutDeclaration, h.2.trim]
    · split
      · next target tail hcut =>
        split
        · exact hcounting
        · rw [eq_of_splitAtCode? hcut, oneLine_append] at h
          have hiterable : OneLine (tail.drop 1) := h.2.piece (List.drop_suffix 1 tail).isInfix
          have htarget : OneLine (lastWord (withoutDeclaration target)) :=
            h.1.withoutDeclaration.takeEnd _
          exact List.forall_mem_cons.mpr ⟨htarget, List.forall_mem_singleton.mpr hiterable.trim⟩
      · exact hcounting

/-! ## Classification -/

/-- The class that a scanner is in has its name on one line. -/
def Scanner.OnOneLine (s : Scanner) : Prop := ∀ name ∈ s.className.toList, OneLine name

/-- If a line is classified, what it is found to be holds texts on one line. -/
def OnOneLine (found : Option Classified) : Prop :=
  ∀ classified ∈ found, classified.1.OnOneLine

@[simp] lemma onOneLine_none : OnOneLine none := by rintro _ ⟨⟩

@[simp] lemma onOneLine_some {classified : Classified} :
    OnOneLine (some classified) ↔ classified.1.OnOneLine := by
  simp [OnOneLine]

lemma onOneLine_control (h : OneLine code) (afterClose : Bool) :
    OnOneLine (classifyControl s code afterClose) := by
  have hgroup {kind : NodeKind} {block : BlockKind} (hkind : kind.texts = [groupOf code]) :
      OnOneLine (some (kind, block)) := by
    rw [onOneLine_some, NodeKind.OnOneLine, hkind]
    exact List.forall_mem_singleton.mpr h.groupOf
  have hsilent {kind : NodeKind} {block : BlockKind} (hkind : kind.texts = []) :
      OnOneLine (some (kind, block)) := by
    rw [onOneLine_some, NodeKind.OnOneLine, hkind]
    exact List.forall_mem_nil _
  unfold classifyControl
  -- In the order in which the forms are tried, those without texts closed at once.
  refine finds_ite (hgroup rfl) (finds_ite (hgroup rfl) (finds_ite (hsilent rfl)
    (finds_ite ?_ (finds_ite (finds_ite onOneLine_none (hgroup rfl))
    (finds_ite (hsilent rfl) (finds_ite (hgroup rfl) ?_))))))
  · exact onOneLine_some.mpr (onOneLine_forHeader h.groupOf)
  · split
    · next m hm =>
      have hlabel := h.group hm 1
      simpa [NodeKind.OnOneLine, NodeKind.texts] using hlabel
    · refine finds_ite (hsilent rfl) (finds_ite (hsilent rfl) (finds_ite ?_
        (finds_ite (hsilent rfl) ?_)))
      · exact onOneLine_some.mpr (oneLine_map OneLine.trim h.firstGroup?)
      · split
        · next m hm =>
          have hvalue := (h.group hm 1).withoutSemicolons
          simp only [finds_some_iff, NodeKind.OnOneLine, NodeKind.texts]
          split
          · exact List.forall_mem_nil _
          · simpa using hvalue.truncate 50
        · refine finds_map fun m hm => ?_
          simpa [NodeKind.OnOneLine, NodeKind.texts] using (h.group hm 1).withoutSemicolons

lemma onOneLine_scriptCallable (h : OneLine code) {name : Text} (hname : OneLine name)
    (isAsync : Bool) (flavor : Flavor) {owner : Option Text}
    (howner : ∀ name ∈ owner.toList, OneLine name) :
    (scriptCallable code name isAsync flavor owner).1.OnOneLine := by
  simp only [scriptCallable, NodeKind.OnOneLine, NodeKind.texts, List.append_nil, List.cons_append,
    List.forall_mem_cons, List.forall_mem_append]
  exact ⟨hname, h.paramsOf, howner⟩

lemma onOneLine_scriptDefinition (h : OneLine code)
    (hs : s.OnOneLine) : OnOneLine (scriptDefinition s code) := by
  refine finds_firstOf ?_
  simp only [List.forall_mem_cons]
  refine ⟨finds_map fun m hm => ?_, finds_map fun m hm => ?_, finds_map fun m hm => ?_,
    finds_map fun m hm => ?_, finds_map fun m hm => ?_, finds_map fun m hm => ?_,
    finds_ite ?_ onOneLine_none, finds_ite (finds_bind fun m hm => ?_) onOneLine_none,
    finds_map fun m hm => ?_, List.forall_mem_nil _⟩
  · simp only [NodeKind.OnOneLine, NodeKind.texts, List.append_nil, List.forall_mem_cons,
      List.forall_mem_append]
    refine ⟨h.group hm 1, h.group? hm 2, fun mixin hmixin => ?_⟩
    cases hgroup : m.group? 3 with
    | none => simp [hgroup] at hmixin
    | some mixins =>
      have hmixins : OneLine mixins := h.group? hm 3 mixins (by simp [hgroup])
      rw [hgroup] at hmixin
      exact hmixins.piece (infix_of_mem_splitTopLevel hmixin)
  · simp only [NodeKind.OnOneLine, NodeKind.texts, List.forall_mem_cons]
    exact ⟨h.group hm 1, oneLine_map OneLine.trim (h.group? hm 2)⟩
  · simp [NodeKind.OnOneLine, NodeKind.texts, h.group hm 1,
      (h.group hm 2).withoutSemicolons.truncate 50]
  · simp [NodeKind.OnOneLine, NodeKind.texts, h.group hm 1]
  · exact onOneLine_scriptCallable h (h.group hm 2) _ _ (List.forall_mem_nil _)
  · exact onOneLine_scriptCallable h (h.group hm 1) _ _ (List.forall_mem_nil _)
  · exact onOneLine_some.mpr (onOneLine_scriptCallable h (by decide) _ _ hs)
  · refine finds_ite ?_ onOneLine_none
    exact onOneLine_some.mpr (onOneLine_scriptCallable h (h.group hm 2) _ _ hs)
  · simp [NodeKind.OnOneLine, NodeKind.texts, h.group hm 1, h.group hm 2]

lemma onOneLine_scriptModule (h : OneLine code) : OnOneLine (scriptModule s code) := by
  refine finds_firstOf ?_
  simp only [List.forall_mem_cons]
  refine ⟨finds_map fun m hm => ?_, finds_map fun m hm => ?_, finds_map fun m hm => ?_,
    finds_map fun m hm => ?_, List.forall_mem_nil _⟩
  · simp [NodeKind.OnOneLine, NodeKind.texts, h.group hm 1, h.group hm 2]
  · simp [NodeKind.OnOneLine, NodeKind.texts, h.group hm 1]
  · simp [NodeKind.OnOneLine, NodeKind.texts, (h.group hm 1).withoutSemicolons]
  · simp [NodeKind.OnOneLine, NodeKind.texts, (h.group hm 1).trim]

lemma onOneLine_compiledDefinition (h : OneLine code) : OnOneLine (compiledDefinition code) := by
  refine finds_firstOf ?_
  simp only [List.forall_mem_cons]
  refine ⟨finds_map fun m hm => ?_, finds_map fun m hm => ?_, finds_map fun m hm => ?_,
    finds_map fun m hm => ?_, finds_map fun m hm => ?_,
    finds_ite onOneLine_none (finds_map fun m hm => ?_), finds_map fun m hm => ?_,
    finds_map fun m hm => ?_, finds_map fun m hm => ?_, finds_map fun m hm => ?_,
    List.forall_mem_nil _⟩
  · simp [NodeKind.OnOneLine, NodeKind.texts, h.group hm 2]
  · simp only [NodeKind.OnOneLine, NodeKind.texts, List.cons_append, List.forall_mem_cons,
      List.forall_mem_append]
    refine ⟨h.group hm 1, h.group? hm 3, ?_⟩
    split
    · exact List.forall_mem_nil _
    · simpa using (h.group hm 4).trim.truncate 40
  · simp [NodeKind.OnOneLine, NodeKind.texts, h.group hm 1, (h.group hm 2).trim]
  · simp [NodeKind.OnOneLine, NodeKind.texts, h.group hm 1]
  · simp [NodeKind.OnOneLine, NodeKind.texts, h.group hm 1]
  · simp only [NodeKind.OnOneLine, NodeKind.texts, List.append_nil, List.forall_mem_cons]
    exact ⟨h.group hm 1, h.group? hm 2⟩
  · simp [NodeKind.OnOneLine, NodeKind.texts, h.group hm 1, h.group hm 2]
  · simp [NodeKind.OnOneLine, NodeKind.texts, h.group hm 1, h.group hm 2]
  · dsimp only
    split <;> simp [NodeKind.OnOneLine, NodeKind.texts, h.group hm 1, h.group hm 2]
  · simp [NodeKind.OnOneLine, NodeKind.texts, (h.group hm 1).trim]

lemma onOneLine_compiledFunction (h : OneLine code) : OnOneLine (compiledFunction code) := by
  refine finds_bind fun m hm => finds_ite onOneLine_none ?_
  obtain ⟨howner, hname⟩ := oneLine_cutQualifier (h.group hm 3) rfl
  simp only [finds_some_iff, NodeKind.OnOneLine, NodeKind.texts, List.append_nil, List.cons_append,
    List.forall_mem_cons, List.forall_mem_append]
  exact ⟨hname, h.paramsOf, howner⟩

lemma onOneLine_compiledConstructor (h : OneLine code)
    (hs : s.OnOneLine) : OnOneLine (compiledConstructor s code) := by
  refine finds_ite (finds_bind fun m hm => ?_) onOneLine_none
  have hclassified (flavor : Flavor) : OnOneLine (some (.function
      ⟨m.group 1, paramsOf code, [], false, flavor, some (s.className.getD [])⟩, .functionBody)) := by
    simp only [onOneLine_some, NodeKind.OnOneLine, NodeKind.texts, List.append_nil,
      List.cons_append, List.forall_mem_cons, List.forall_mem_append]
    refine ⟨h.group hm 1, h.paramsOf, ?_⟩
    simpa using oneLine_getD hs oneLine_nil
  exact finds_ite (hclassified _) (finds_ite (hclassified _) onOneLine_none)

lemma onOneLine_compiledGlobal (h : OneLine code) : OnOneLine (compiledGlobal s code) := by
  refine finds_ite (finds_map fun m hm => ?_) onOneLine_none
  simp only [NodeKind.OnOneLine, NodeKind.texts, List.forall_mem_cons]
  have hshort {value : Text} (hvalue : OneLine value) : OneLine (value.trim.truncate 40) :=
    hvalue.trim.truncate 40
  exact ⟨oneLine_squash _, h.group hm 2, oneLine_map hshort (h.group? hm 4)⟩

lemma onOneLine_compiledLibraryCall (h : OneLine code) :
    OnOneLine (compiledLibraryCall code) := by
  intro classified hfound
  obtain ⟨⟨name, base⟩, hentry, hfound⟩ := List.exists_of_findSome?_eq_some hfound
  obtain ⟨⟨before, m⟩, -, rfl⟩ := Option.map_eq_some_iff.mp hfound
  have hnames : ∀ entry ∈ Naming.libraryCalls, OneLine entry.1 := by decide
  have hcall : OneLine (code.drop before.length) := h.piece (List.drop_suffix _ code).isInfix
  simp only [NodeKind.OnOneLine, NodeKind.texts, List.forall_mem_cons]
  exact ⟨hnames _ hentry, oneLine_map OneLine.trim hcall.firstGroup?⟩

/-- What a line of code is found to be holds texts on one line. -/
lemma onOneLine_classify (h : OneLine code) (hs : s.OnOneLine) (afterClose : Bool) :
    OnOneLine (classify l s code afterClose) := by
  refine finds_ite onOneLine_none ?_
  have hscript : OnOneLine (classifyScript s code afterClose) := by
    refine finds_firstOf ?_
    simp only [List.forall_mem_cons]
    exact ⟨onOneLine_scriptDefinition h hs, onOneLine_control h afterClose,
      onOneLine_scriptModule h, List.forall_mem_nil _⟩
  cases l with
  | python => exact hscript
  | javascript => exact hscript
  | c =>
    refine finds_firstOf ?_
    simp only [List.forall_mem_cons]
    exact ⟨onOneLine_compiledDefinition h, onOneLine_compiledFunction h,
      onOneLine_compiledConstructor h hs, onOneLine_compiledGlobal h,
      onOneLine_control h afterClose, onOneLine_compiledLibraryCall h, List.forall_mem_nil _⟩

/-! ## Scanning -/

namespace Scanner

lemma OnOneLine.closeBlock (hs : s.OnOneLine) : s.closeBlock.OnOneLine := by
  unfold OnOneLine Scanner.closeBlock
  dsimp only
  split
  · exact hs
  · exact List.forall_mem_nil _

lemma OnOneLine.closeBlocks {α : Type} (hs : s.OnOneLine) (braces : List α) :
    (braces.foldl (fun s _ => s.closeBlock) s).OnOneLine :=
  List.foldlRecOn braces _ hs fun _ hs _ _ => hs.closeBlock

lemma OnOneLine.passBraces (hs : s.OnOneLine) (first : Option BlockKind) (opened : Bool)
    (chars : List CodeChar) : (s.passBraces first opened chars).1.OnOneLine := by
  induction chars generalizing s first opened with
  | nil => exact hs
  | cons c rest ih =>
    rw [Scanner.passBraces]
    split
    · exact ih (s := s.openBlock _) hs none true
    · split
      · exact ih hs.closeBlock first opened
      · exact ih hs first opened

lemma OnOneLine.trackBraces (hs : s.OnOneLine) (opens : Option BlockKind) (body : Text) :
    (s.trackBraces opens body).OnOneLine := by
  have hpassed := passBraces (s := ⟨s.blocks, none, s.inComment, s.className⟩) hs (opens.or s.pending) false
    (codeChars body)
  unfold Scanner.trackBraces
  dsimp only
  split
  · exact hpassed
  · exact hpassed

lemma onOneLine_feedCode (h : OneLine code) (hs : s.OnOneLine) :
    (s.feedCode l code).1.OnOneLine ∧ ∀ kind ∈ (s.feedCode l code).2, kind.OnOneLine := by
  have hbody : OneLine (code.dropWhile isBeforeBody) := h.piece (List.dropWhile_suffix _).isInfix
  have hclosed := hs.closeBlocks ((code.takeWhile isBeforeBody).filter (· == '}'))
  have hfound := onOneLine_classify (l := l) hbody hclosed (code.head? == some '}')
  refine ⟨OnOneLine.trackBraces ?_ _ _, fun kind hkind => ?_⟩
  · split
    · next name bases decorators block hclass =>
      have hname : OneLine name := hfound _ hclass name List.mem_cons_self
      simpa [OnOneLine] using hname
    · exact hclosed
  · obtain ⟨classified, hclassified, rfl⟩ := Option.map_eq_some_iff.mp hkind
    exact hfound classified hclassified

lemma oneLine_codeOf {stripped : Text} (h : OneLine stripped) : OneLine (codeOf stripped).1 := by
  have hcode : OneLine (codePart "//" stripped) := h.piece (codePart_isPrefix _ _).isInfix
  unfold codeOf
  dsimp only
  split
  · next before behind hcut =>
    rw [eq_of_cut? hcut, oneLine_append, oneLine_append] at hcode
    exact hcode.1.1.trimEnd
  · exact hcode

/-- A line keeps the name of the class on one line, and what it is found to be holds texts on one
line. -/
lemma onOneLine_feed {raw : Text} (h : OneLine raw) (hs : s.OnOneLine) :
    (s.feed l raw).1.OnOneLine ∧ ∀ kind ∈ (s.feed l raw).2, kind.OnOneLine := by
  have hcode : OneLine (codeOf raw.trim).1 := oneLine_codeOf h.trim
  have hnone : ∀ kind ∈ (none : Option NodeKind), kind.OnOneLine := by rintro _ ⟨⟩
  unfold feed
  dsimp only
  split
  · split <;> exact ⟨hs, hnone⟩
  · split
    · exact ⟨hs, hnone⟩
    · split
      · split <;> exact ⟨hs, hnone⟩
      · refine onOneLine_feedCode hcode ?_
        split <;> exact hs

lemma onOneLine_after {lines : List Text} (h : ∀ line ∈ lines, OneLine line) (hs : s.OnOneLine) :
    (s.after l lines).OnOneLine :=
  List.foldlRecOn lines _ hs fun _ hs raw hraw => (onOneLine_feed (h raw hraw) hs).1

end Scanner

/-- Every part of a scanned source holds texts on one line. -/
theorem onOneLine_of_mem_scan {source : Text} {node : Node} (h : node ∈ scan l source) :
    node.kind.OnOneLine := by
  obtain ⟨n, raw, kind, hraw, hkind, rfl⟩ := Scanner.exists_line_of_mem_scan h
  have hlines : ∀ line ∈ source.lines, OneLine line := fun _ => oneLine_of_mem_lines
  have hstart : Scanner.start.OnOneLine := List.forall_mem_nil _
  have hbefore : (Scanner.start.after l (source.lines.take n)).OnOneLine :=
    Scanner.onOneLine_after (fun line hline => hlines line (List.mem_of_mem_take hline)) hstart
  exact (Scanner.onOneLine_feed (hlines raw (List.mem_of_getElem? hraw)) hbefore).2 kind hkind

end Braced
end Marginalia
