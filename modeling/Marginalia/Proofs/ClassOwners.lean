import Mathlib.Data.List.TakeDrop
import Marginalia.Proofs.FoundKinds
import Marginalia.Proofs.OpenBraces

/-!
# Owners of methods

The scanner of scripts remembers one name of a class, that of the last header it has read, beside the
stack of blocks. A method is found where the innermost block is the body of a class, and is given this
name: its class, unless the body of that class holds a later header with another name.
-/

namespace Marginalia

/-- Parts that define a class or something that can be called. -/
def NodeKind.isDefinition : NodeKind → Bool
  | .function _ | .classDef .. => true
  | _ => false

namespace Braced

open Text Pattern

/-- The name of the class whose header a line of code is. -/
def classHeader? (code : Text) : Option Text :=
  (scriptClass.matchStart? (bodyOf code)).map (·.group 1)

/-- The name of the class whose header stands on a line. -/
def classAt (lines : List Text) (n : Nat) : Option Text := (codeAt lines n).bind classHeader?

/-- The names of the classes whose headers stand on line `n` or further down. -/
def classesFrom (n : Nat) (lines : List Text) : List Text :=
  ((List.range lines.length).drop n).filterMap (classAt lines)

section

variable {s : Scanner} {code : Text} {afterClose : Bool}

/-! ## What is found in a script -/

/-- What is found is no definition and opens no class. -/
def IsPlain (c : Classified) : Prop := c.1.isDefinition = false ∧ c.2 ≠ .classBody

/-- What is found begins no class, and is a method only inside one, whose name it is given. -/
def BeginsNoClass (s : Scanner) (c : Classified) : Prop :=
  c.2 ≠ .classBody ∧ (∀ name bases decorators, c.1 ≠ .classDef name bases decorators) ∧
    ∀ f, c.1 = .function f → f.flavor = .method ∨ f.flavor = .constructor →
      s.inClass = true ∧ f.owner = s.className

lemma IsPlain.beginsNoClass {c : Classified} (h : IsPlain c) : BeginsNoClass s c := by
  obtain ⟨hkind, hblock⟩ := h
  refine ⟨hblock, fun name bases decorators hclass => ?_, fun f hf _ => ?_⟩
  · rw [hclass] at hkind
    cases hkind
  · rw [hf] at hkind
    cases hkind

lemma isPlain_control : Finds IsPlain (classifyControl s code afterClose) := by
  have hother {kind : NodeKind} (h : kind.isDefinition = false) :
      Finds IsPlain (some (kind, .other)) :=
    finds_some ⟨h, nofun⟩
  have hcontrol {kind : NodeKind} (h : kind.isDefinition = false) :
      Finds IsPlain (some (kind, .control)) :=
    finds_some ⟨h, nofun⟩
  have hfor : (forHeader (groupOf code)).isDefinition = false := by
    rcases forHeader_cases (groupOf code) with h | ⟨target, iterable, h⟩
    · rw [h]; rfl
    · rw [h]; rfl
  unfold classifyControl
  refine finds_ite (hcontrol rfl) (finds_ite (hcontrol rfl) (finds_ite (hcontrol rfl)
    (finds_ite (hcontrol hfor) (finds_ite (finds_ite finds_none (hcontrol rfl))
    (finds_ite (hcontrol rfl) (finds_ite (hcontrol rfl) ?_))))))
  split
  · exact hother rfl
  · refine finds_ite (hother rfl) (finds_ite (hother rfl) (finds_ite (hother rfl)
      (finds_ite (hother rfl) ?_)))
    split
    · exact hother rfl
    · exact finds_map fun _ _ => ⟨rfl, nofun⟩

lemma isPlain_scriptModule : Finds IsPlain (scriptModule s code) := by
  have hplain {kind : NodeKind} (h : kind.isDefinition = false) : IsPlain (kind, .other) :=
    ⟨h, nofun⟩
  refine finds_firstOf ?_
  simp only [List.forall_mem_cons]
  exact ⟨finds_map fun _ _ => hplain rfl, finds_map fun _ _ => hplain rfl,
    finds_map fun _ _ => hplain rfl, finds_map fun _ _ => hplain rfl, List.forall_mem_nil _⟩

/-- Something that can be called and stands outside classes. -/
lemma beginsNoClass_callable {name : Text} {isAsync : Bool} {flavor : Flavor}
    (h : flavor ≠ .method ∧ flavor ≠ .constructor) :
    BeginsNoClass s (scriptCallable code name isAsync flavor none) := by
  refine ⟨nofun, fun _ _ _ => nofun, ?_⟩
  rintro f ⟨⟩ hflavor
  exact absurd hflavor (not_or.mpr h)

/-- A method or constructor. -/
lemma beginsNoClass_method {name : Text} {isAsync : Bool} {flavor : Flavor}
    (h : s.inClass = true) :
    BeginsNoClass s (scriptCallable code name isAsync flavor s.className) := by
  refine ⟨nofun, fun _ _ _ => nofun, ?_⟩
  rintro f ⟨⟩ -
  exact ⟨h, rfl⟩

lemma beginsNoClass_scriptDefinition (h : scriptClass.matchStart? code = none) :
    Finds (BeginsNoClass s) (scriptDefinition s code) := by
  have hplain {kind : NodeKind} {block : BlockKind} (hkind : kind.isDefinition = false)
      (hblock : block ≠ .classBody) : BeginsNoClass s (kind, block) :=
    IsPlain.beginsNoClass ⟨hkind, hblock⟩
  refine finds_firstOf ?_
  simp only [List.forall_mem_cons, h, Option.map_none]
  exact ⟨finds_none, finds_map fun _ _ => hplain rfl (by decide),
    finds_map fun _ _ => hplain rfl (by decide), finds_map fun _ _ => hplain rfl (by decide),
    finds_map fun _ _ => beginsNoClass_callable (by decide),
    finds_map fun _ _ => beginsNoClass_callable (by decide),
    finds_guard fun hin => finds_some (beginsNoClass_method (Bool.and_eq_true_iff.mp hin).1),
    finds_guard fun hin => finds_bind fun _ _ =>
      finds_ite (finds_some (beginsNoClass_method hin)) finds_none,
    finds_map fun _ _ => hplain rfl (by decide), List.forall_mem_nil _⟩

lemma isTrivial_of_classHeader {name : Text} (h : classHeader? code = some name) :
    isTrivial (bodyOf code) = false := by
  have htrivial : ∀ body ∈ (["", "\x7b", "\x7d", "\x7d;", ");", "];", "\x7d)", "\x7d);"] : List Text),
      scriptClass.matchStart? body = none := by
    decide +kernel
  obtain ⟨m, hmatch, -⟩ := Option.map_eq_some_iff.mp h
  rw [isTrivial, Bool.eq_false_iff, ne_eq, List.contains_iff_mem]
  intro hmem
  rw [htrivial _ hmem] at hmatch
  cases hmatch

lemma found?_of_classHeader {name : Text} (h : classHeader? code = some name) :
    ∃ bases, s.found? .javascript code = some (.classDef name bases [], .classBody) := by
  have htrivial := isTrivial_of_classHeader h
  obtain ⟨m, hmatch, rfl⟩ := Option.map_eq_some_iff.mp h
  refine ⟨(m.group? 2).toList ++ ((m.group? 3).map (splitTopLevel ',')).getD [], ?_⟩
  simp only [Scanner.found?, classify, htrivial, Bool.false_eq_true, if_false, classifyScript,
    scriptDefinition, firstOf, List.findSome?_cons, hmatch, Option.map_some]

lemma found?_of_not_classHeader (h : classHeader? code = none) :
    Finds (BeginsNoClass (s.closeBlocks (closers code))) (s.found? .javascript code) := by
  have hother {found : Option Classified} (h : Finds IsPlain found) :
      Finds (BeginsNoClass (s.closeBlocks (closers code))) found :=
    fun c hc => (h c hc).beginsNoClass
  refine finds_ite finds_none (finds_firstOf ?_)
  simp only [List.forall_mem_cons]
  exact ⟨beginsNoClass_scriptDefinition (Option.map_eq_none_iff.mp h), hother isPlain_control,
    hother isPlain_scriptModule, List.forall_mem_nil _⟩

/-- A method is found inside a class, and its owner is the name that is remembered. -/
lemma inClass_of_method {c : Callable} {block : BlockKind}
    (h : s.found? .javascript code = some (.function c, block))
    (hmethod : c.flavor = .method ∨ c.flavor = .constructor) :
    (s.closeBlocks (closers code)).inClass = true ∧
      c.owner = (s.closeBlocks (closers code)).className := by
  cases hclass : classHeader? code with
  | some name =>
    obtain ⟨bases, hfound⟩ := found?_of_classHeader (s := s) hclass
    rw [h] at hfound
    cases hfound
  | none => exact (found?_of_not_classHeader hclass _ h).2.2 c rfl hmethod

lemma className_atBody : (s.atBody .javascript code).className =
    (classHeader? code).or (s.closeBlocks (closers code)).className := by
  rw [Scanner.atBody]
  cases hclass : classHeader? code with
  | some name =>
    obtain ⟨bases, hfound⟩ := found?_of_classHeader (s := s) hclass
    rw [hfound]
    rfl
  | none =>
    split
    · next name bases decorators block hfound =>
      exact absurd rfl ((found?_of_not_classHeader hclass _ hfound).2.1 name bases decorators)
    · rfl

end

/-! ## The class that is remembered -/

variable {lines : List Text} {raw code name : Text}

lemma classesFrom_concat : classesFrom 0 (lines ++ [raw]) =
    classesFrom 0 lines ++ (classAt (lines ++ [raw]) lines.length).toList := by
  have hold : (List.range lines.length).filterMap (classAt (lines ++ [raw])) =
      (List.range lines.length).filterMap (classAt lines) := by
    refine List.filterMap_congr fun n hn => ?_
    rw [classAt, classAt, codeAt_concat (List.mem_range.mp hn)]
  rw [classesFrom, classesFrom, List.length_append, List.length_singleton, List.range_succ,
    List.drop_zero, List.drop_zero, List.filterMap_append, hold, List.filterMap_cons,
    List.filterMap_nil]
  cases classAt (lines ++ [raw]) lines.length <;> rfl

/-- The last class of all is the last one below a header, or that of the header itself. -/
lemma getLast?_classesFrom {n : Nat} (h : classAt lines n = some name) :
    (classesFrom 0 lines).getLast? = some ((classesFrom (n + 1) lines).getLast?.getD name) := by
  obtain ⟨code, hcode, -⟩ := Option.bind_eq_some_iff.mp h
  have hn : n < (List.range lines.length).length := by
    rw [List.length_range]
    exact lt_length_of_codeAt hcode
  have hsplit : List.range lines.length = (List.range lines.length).take n ++
      n :: (List.range lines.length).drop (n + 1) := by
    conv_lhs => rw [← List.take_append_drop n (List.range lines.length)]
    rw [List.drop_eq_getElem_cons hn, List.getElem_range]
  rw [classesFrom, List.drop_zero, hsplit, List.filterMap_append, List.filterMap_cons_some h,
    List.getLast?_append, List.getLast?_cons, Option.some_or]
  rfl

/-- The name that the scanner of scripts remembers is that of the last header it has read. -/
theorem className_after (lines : List Text) :
    (Scanner.start.after .javascript lines).className = none ∨
    (Scanner.start.after .javascript lines).className = (classesFrom 0 lines).getLast? := by
  induction lines using List.reverseRecOn with
  | nil => exact .inl rfl
  | append_singleton lines raw ih =>
    rw [Scanner.after_concat, classesFrom_concat, classAt, codeAt_length,
      ← Scanner.inComment_after .javascript]
    cases hread : readLine (Scanner.start.after .javascript lines).inComment raw with
    | mk code? opened =>
      cases code? with
      | none =>
        rw [Scanner.feed_unread hread]
        simpa using ih
      | some code =>
        rcases Scanner.className_feed (l := .javascript) hread with hnone | hbody
        · exact .inl hnone
        · rw [hbody, className_atBody, Option.bind_some]
          cases classHeader? code with
          | some name =>
            rw [Option.toList_some, List.getLast?_concat]
            exact .inr rfl
          | none =>
            rw [Option.toList_none, List.append_nil, Option.none_or]
            rcases Scanner.closeBlocks_className (closers code) with hnone | hkept
            · exact .inl hnone
            · rw [hkept]
              exact ih

/-- Where a name is still remembered behind closing braces, it is that of the last header. -/
lemma className_closeBlocks {n : Nat}
    (h : ((Scanner.start.after .javascript lines).closeBlocks n).className.isSome = true) :
    ((Scanner.start.after .javascript lines).closeBlocks n).className =
      (classesFrom 0 lines).getLast? := by
  rcases Scanner.closeBlocks_className (s := Scanner.start.after .javascript lines) n with hnone | hkept
  · rw [hnone] at h
    cases h
  · rw [hkept] at h ⊢
    rcases className_after lines with hnone | hlast
    · rw [hnone] at h
      cases h
    · exact hlast

/-! ## The owners of methods -/

/-- An open brace begins the body of a class: it is the first one of the header, outside all
brackets. -/
def BeginsClass (lines : List Text) (o : Opening) (name : Text) : Prop :=
  ∃ code after, codeAt lines o.line = some code ∧ classHeader? code = some name ∧
    bodyOf code = o.before ++ '{' :: after ∧ CodeState.start.run o.before = .start ∧
    '{' ∉ codeText .start o.before

/-- The body of each class begins on the line of its header, with a brace outside all brackets and
behind braces that are closed. -/
def ClassBodiesOnLine (lines : List Text) : Prop :=
  ∀ n code name, codeAt lines n = some code → classHeader? code = some name →
    ∃ before after, bodyOf code = before ++ '{' :: after ∧ CodeState.start.run before = .start ∧
      openBraces? 0 (codeText .start before) = some 0

lemma BeginsClass.classAt {o : Opening} (h : BeginsClass lines o name) :
    classAt lines o.line = some name := by
  obtain ⟨code, after, hcode, hclass, -⟩ := h
  rw [Braced.classAt, hcode, Option.bind_some, hclass]

/-- Only headers of classes open bodies of classes. -/
lemma exists_classHeader {n : Nat} {node : NodeKind} (hcode : codeAt lines n = some code)
    (hfound : foundAt? .javascript lines n = some (node, .classBody)) :
    ∃ name, classHeader? code = some name := by
  rw [← Option.ne_none_iff_exists']
  intro hnone
  rw [foundAt?, hcode, Option.bind_some] at hfound
  exact (found?_of_not_classHeader hnone _ hfound).1 rfl

/-- A header whose brace is on its line does not wait for one. -/
lemma not_awaits_classBody {m n : Nat} (hclasses : ClassBodiesOnLine lines) :
    ¬Awaits .javascript lines m n .classBody := by
  rintro ⟨-, code, hcode, ⟨node, hfound⟩, hbrace, -⟩
  obtain ⟨name, hclass⟩ := exists_classHeader hcode hfound
  obtain ⟨before, after, hbody, hstart, -⟩ := hclasses m code name hcode hclass
  rw [hbody, codeText_append, hstart, codeText_brace rfl] at hbrace
  exact hbrace (List.mem_append_right _ List.mem_cons_self)

/-- An open brace of the kind of class bodies begins a class. -/
lemma exists_beginsClass {o : Opening} (hclasses : ClassBodiesOnLine lines)
    (ho : o ∈ (Reading.of lines).opened) (hfirst : FirstBehind .javascript lines o .classBody) :
    ∃ name, BeginsClass lines o name := by
  obtain ⟨code, base, hcode, hbase, hpass⟩ := exists_line_of_mem_opened ho
  obtain ⟨hbrace, ⟨node, hfound⟩ | ⟨-, m, hwaits⟩⟩ := hfirst
  · obtain ⟨name, hclass⟩ := exists_classHeader hcode hfound
    obtain ⟨before, after, hbody, hstart, hbalanced⟩ := hclasses o.line code name hcode hclass
    -- What stands before the brace of the body closes what it opens, and of the braces behind it
    -- none is the first one.
    have hbefore : o.before = before := by
      rw [hbody, passStack_append, passStack_balanced hbalanced, hstart, passStack_brace rfl] at hpass
      rcases mem_passStack hpass with hstack | ⟨front, back, -, -, heq⟩
      · rcases List.mem_cons.mp hstack with heq | hold
        · exact congrArg Opening.before heq
        · exact absurd (hbase o hold) (Nat.lt_irrefl _)
      · refine absurd ?_ hbrace
        rw [congrArg Opening.before heq, List.nil_append, List.append_assoc, codeText_append, hstart,
          List.singleton_append, codeText_brace rfl]
        exact List.mem_append_right _ List.mem_cons_self
    refine ⟨name, code, after, hcode, hclass, ?_, ?_, hbrace⟩
    · rw [hbefore, hbody]
    · rw [hbefore, hstart]
  · exact absurd hwaits (not_awaits_classBody hclasses)

/-- A method or constructor of a script stands in the class whose body begins with the innermost open
brace. Its owner is the last class whose header stands below the header of this one, if any does, and
only otherwise this class itself; so the owner is right exactly if no header of another name has come
last in the body. -/
theorem owner_iff_last_class {c : Callable} (hclasses : ClassBodiesOnLine lines)
    (hfed : ((Scanner.start.after .javascript lines).feed .javascript raw).2 = some (.function c))
    (hmethod : c.flavor = .method ∨ c.flavor = .constructor) :
    ∃ code o name, (readLine (Reading.of lines).inComment raw).1 = some code ∧
      ((Reading.of lines).opened.drop (closers code)).head? = some o ∧ BeginsClass lines o name ∧
      c.owner = some ((classesFrom (o.line + 1) lines).getLast?.getD name) ∧
      (c.owner = some name ↔ ∀ last ∈ (classesFrom (o.line + 1) lines).getLast?, last = name) := by
  obtain ⟨code, opened, hread⟩ := Scanner.exists_read_of_node hfed
  rw [Scanner.node_feed hread] at hfed
  obtain ⟨⟨node, block⟩, hfound, hnode⟩ := Option.map_eq_some_iff.mp hfed
  obtain rfl : node = .function c := hnode
  obtain ⟨hin, howner⟩ := inClass_of_method hfound hmethod
  obtain ⟨hname, htop⟩ := Bool.and_eq_true_iff.mp hin
  -- The innermost block is the body of a class.
  rw [beq_iff_eq, Scanner.closeBlocks_blocks, blocks_after, ← List.map_drop, List.head?_map,
    Option.map_eq_some_iff] at htop
  obtain ⟨o, hhead, hkind⟩ := htop
  have ho : o ∈ (Reading.of lines).opened := List.mem_of_mem_drop (List.mem_of_mem_head? hhead)
  obtain ⟨name, hbegins⟩ := exists_beginsClass hclasses ho
    ((kindOf_eq_iff (by decide) (Nat.le_of_lt (line_lt_of_mem_opened ho))).mp hkind)
  have hlast : c.owner = some ((classesFrom (o.line + 1) lines).getLast?.getD name) := by
    rw [howner, className_closeBlocks hname, getLast?_classesFrom hbegins.classAt]
  refine ⟨code, o, name, ?_, hhead, hbegins, hlast, ?_⟩
  · rw [← Scanner.inComment_after .javascript, hread]
  · rw [hlast, Option.some_inj]
    cases (classesFrom (o.line + 1) lines).getLast? with
    | none => simp
    | some last => simp

/-- A class inside a method of another one is the owner of its own method. -/
theorem owner_in_nested_class :
    let lines : List Text := ["class A \x7b", "m() \x7b", "class B \x7b"]
    let method : Callable := ⟨"n", [], [], false, .method, some "B"⟩
    ClassBodiesOnLine lines ∧
      ((Scanner.start.after .javascript lines).feed .javascript "n() \x7b").2 =
        some (.function method) ∧
      ∃ o name, (Reading.of lines).opened.head? = some o ∧ BeginsClass lines o name ∧
        ∀ last ∈ (classesFrom (o.line + 1) lines).getLast?, last = name := by
  intro lines method
  have hclasses : ClassBodiesOnLine lines := by
    intro n code name hcode hclass
    have hn : n < 3 := lt_length_of_codeAt hcode
    obtain rfl | rfl | rfl : n = 0 ∨ n = 1 ∨ n = 2 := by omega
    · obtain rfl : "class A \x7b" = code := Option.some.inj (Eq.trans (by decide +kernel) hcode)
      exact ⟨"class A ", [], by decide, by decide, by decide⟩
    · obtain rfl : "m() \x7b" = code := Option.some.inj (Eq.trans (by decide +kernel) hcode)
      cases (show classHeader? "m() \x7b" = none by decide +kernel).symm.trans hclass
    · obtain rfl : "class B \x7b" = code := Option.some.inj (Eq.trans (by decide +kernel) hcode)
      exact ⟨"class B ", [], by decide, by decide, by decide⟩
  have hfed : ((Scanner.start.after .javascript lines).feed .javascript "n() \x7b").2 =
      some (.function method) := by
    decide +kernel
  obtain ⟨code, o, name, hread, hhead, hbegins, howner, hiff⟩ :=
    owner_iff_last_class hclasses hfed (.inl rfl)
  obtain rfl : "n() \x7b" = code := Option.some.inj (Eq.trans (by decide +kernel) hread)
  obtain rfl : ⟨2, "class B "⟩ = o := Option.some.inj (Eq.trans (by decide +kernel) hhead)
  obtain rfl : "B" = name := Option.some.inj (Eq.trans (by decide +kernel) hbegins.classAt)
  exact ⟨hclasses, hfed, _, _, hhead, hbegins, hiff.mp rfl⟩

/-- Behind a class inside a method, the other methods of the class around it have the wrong owner. -/
theorem owner_behind_nested_class :
    let lines : List Text := ["class A \x7b", "m() \x7b", "class B \x7b", "\x7d", "\x7d"]
    let method : Text := "n() \x7b"
    (Reading.of (lines ++ [method, "\x7d", "\x7d"])).opened = [] ∧
      (Reading.of lines).opened = [⟨0, "class A "⟩] ∧ classAt lines 0 = some "A" ∧
      ((Scanner.start.after .javascript lines).feed .javascript method).2 =
        some (.function ⟨"n", [], [], false, .method, some "B"⟩) := by
  intro lines method
  exact ⟨by decide +kernel, by decide +kernel, by decide +kernel, by decide +kernel⟩

end Braced
end Marginalia
