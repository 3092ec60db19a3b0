import Marginalia.Proofs.OpenedHeaders

/-!
# Headers of scripts

The header of a script is found to be the same thing with an opening behind it and without. Only one
word makes a difference: in a class, what looks like a loop over awaited values is a method of that
name as soon as its body begins.
-/

namespace Marginalia.Braced

open Pattern Text

variable {e b t : Text}

/-- What may stand before the name of a method. -/
def methodStart : Pattern :=
  star (oneOf ["public", "private", "protected", "readonly"] ++ gap) ++ opt ("static" ++ gap)
    ++ opt (group 1 ("async" ++ gap)) ++ opt (oneOf ["get", "set"] ++ gap) ++ opt "*" ++ blanks

/-- What stands behind the name, up to its parameters. -/
def methodEnd : Pattern := blanks ++ opt ("<" ++ run1 (isNot '>') ++ ">") ++ blanks ++ "("

lemma matchThen_scriptMethod {α : Type} (m : Matching) (k : Matching → Option α) :
    matchThen scriptMethod m k = matchThen methodStart m fun m =>
      matchThen (group 2 word) m fun m => matchThen methodEnd m k := rfl

/-- The words of control flow are taken for names of methods. -/
lemma BeginsWith.matchThen_methodStart {word : Text} (h : BeginsWith word t) {α : Type}
    (k : Matching → Option α) : matchThen methodStart ⟨none, t, []⟩ k = k ⟨none, t, []⟩ := by
  obtain ⟨rest, rfl, -, -⟩ := h.rest
  have hknown := h.known
  simp only [controlWords, List.mem_cons, List.not_mem_nil, or_false] at hknown
  rcases hknown with rfl | rfl | rfl | rfl | rfl | rfl
  · rfl
  · rfl
  · rfl
  · rfl
  · rfl
  · rfl

lemma BeginsWith.all_word {word : Text} (h : BeginsWith word t) : word.all isWordChar = true := by
  have hwords : controlWords.all (fun word => word.all isWordChar) = true := by decide
  exact List.all_eq_true.mp hwords word h.known

/-- The name of a method ends where its word does. -/
lemma continuesWord_of_methodEnd {α : Type} {m : Matching} {k : Matching → Option α} {a : α}
    (h : matchThen methodEnd m k = some a) : continuesWord m.rest = false := by
  have hblanks : matchThen blanks m (fun m => matchThen (opt ("<" ++ run1 (isNot '>') ++ ">")) m
    fun m => matchThen blanks m fun m => matchThen (lit ['(']) m k) = some a := h
  obtain ⟨gap, m₁, hrest, hgap, -, hmore⟩ := reaches_run hblanks
  rcases reaches_opt hmore with hangle | hparen
  · have hlit : matchThen (lit ['<']) m₁ (fun m => matchThen (run1 (isNot '>')) m fun m =>
      matchThen (lit ['>']) m fun m => matchThen blanks m fun m =>
        matchThen (lit ['(']) m k) = some a := hangle
    obtain ⟨m₂, hrest₁, -, -⟩ := reaches_lit hlit
    rw [hrest, hrest₁]
    exact continuesWord_blanks_cons hgap (by decide) m₂.rest
  · obtain ⟨gap', rest, hrest₁, hgap'⟩ := reaches_paren hparen
    rw [hrest, hrest₁, ← List.append_assoc]
    refine continuesWord_blanks_cons ?_ (by decide) rest
    rw [isAllBlank] at hgap' ⊢
    rw [List.all_append, hgap, hgap']
    rfl

/-- A method whose name would be such a word has this name. -/
lemma BeginsWith.group_scriptMethod {word : Text} (h : BeginsWith word t) {m : Matching}
    (hm : scriptMethod.matchStart? t = some m) : m.group 2 = word := by
  have hname : matchThen (group 2 Pattern.word) ⟨none, t, []⟩
      (fun m => matchThen methodEnd m some) = some m := by
    change matchThen scriptMethod ⟨none, t, []⟩ some = some m at hm
    rwa [matchThen_scriptMethod, h.matchThen_methodStart] at hm
  have hword : matchThen Pattern.word ⟨none, t, []⟩ (fun m' => matchThen methodEnd
    { m' with groups := (2, t.take (t.length - m'.rest.length)) :: m'.groups } some) = some m := hname
  obtain ⟨m', hreach, hend⟩ := exists_reached hword
  obtain ⟨m'', hreach', heq⟩ := exists_reached hend
  obtain rfl : m'' = m := Option.some.inj heq
  obtain ⟨taken, hrest, htaken⟩ := hreach.taken
  obtain ⟨rest, ht, hends, -⟩ := h.rest
  have hall : taken.all isWordChar = true :=
    List.all_eq_true.mpr fun c hc => by simpa [Pattern.word, run1, takes] using htaken c hc
  have hsplit : t = taken ++ m'.rest := hrest
  obtain rfl : word = taken := word_unique h.all_word hends hall (continuesWord_of_methodEnd hend)
    (ht.symm.trans hsplit)
  have hpiece : t.take (t.length - m'.rest.length) = word := by
    rw [hsplit, List.length_append, Nat.add_sub_cancel, List.take_left]
  rw [Matching.group, Matching.group?, hreach'.groups_eq rfl, hpiece]
  rfl

/-- The reading of methods. -/
def methodReading (s : Scanner) (code : Text) : Option Classified :=
  if s.inClass then
    (scriptMethod.matchStart? code).bind fun m =>
      if bodyFollows ('(' :: m.rest) && !notCallable.contains (m.group 2) then
        some (scriptCallable code (m.group 2) (m.group? 1).isSome .method s.className)
      else none
  else none

lemma BeginsWith.classifyScript_eq {word : Text} (h : BeginsWith word t) (s : Scanner)
    (afterClose : Bool) : classifyScript s t afterClose =
      (methodReading s t).or ((classifyControl s t afterClose).or (scriptModule s t)) := by
  have hnone : ∀ form ∈ otherForms, form.matchStart? t = none := h.fitsNone
  simp only [otherForms, List.forall_mem_cons] at hnone
  simp only [classifyScript, scriptDefinition, firstOf_cons, firstOf_nil, startsText, hnone,
    Option.map_none, Option.none_or, Option.isSome_none, Bool.and_false, Bool.false_eq_true, if_false,
    Option.or_none]
  rfl

/-- Whether a text is the head of a method that looks like a loop over awaited values. -/
def joinsAwait (t : Text) : Bool :=
  match after? "forawait" t with
  | some rest => bodyFollows (trimStart rest)
  | none => false

lemma methodReading_eq_none (h : '{' ∉ t) (s : Scanner) : methodReading s t = none := by
  unfold methodReading
  split
  · rw [Option.bind_eq_none_iff]
    intro m hm
    have hrest : '{' ∉ '(' :: m.rest := by
      rw [List.mem_cons, not_or]
      exact ⟨by decide, fun hmem => h ((matchAt_within hm).rest.subset hmem)⟩
    rw [bodyFollows_eq_false hrest, Bool.false_and]
    rfl
  · rfl

lemma exists_callable_of_methodReading {s : Scanner} {c : Classified}
    (h : methodReading s t = some c) : ∃ method, c = (.function method, .functionBody) := by
  unfold methodReading at h
  split at h
  · obtain ⟨m, -, hm⟩ := Option.bind_eq_some_iff.mp h
    split at hm
    · exact ⟨_, (Option.some.inj hm).symm⟩
    · cases hm
  · cases h

lemma longest_append {α : Type} {p : Char → Bool} {k : Matching → Option α} {a : α}
    {taken rest : Text} {groups : List (Nat × Text)} (htaken : taken.all p = true)
    (hrest : ∀ c ∈ rest.head?, p c = false) (hk : ∀ prev, k ⟨prev, rest, groups⟩ = some a)
    (prev : Option Char) : longest p prev groups k (taken ++ rest) = some a := by
  induction taken generalizing prev with
  | nil =>
    cases rest with
    | nil => exact hk prev
    | cons c rest =>
      rw [List.nil_append, longest, if_neg (by simp [hrest c rfl])]
      exact hk prev
  | cons c taken ih =>
    rw [List.all_cons, Bool.and_eq_true] at htaken
    rw [List.cons_append, longest, if_pos htaken.1, ih htaken.2 (some c)]

/-- The one word that is a name for a method. -/
lemma matchStart?_joined {gap : Text} (hgap : gap.isAllBlank = true) (rest : Text) :
    scriptMethod.matchStart? ("forawait" ++ (gap ++ '(' :: rest)) =
      some ⟨some '(', rest, [(2, "forawait")]⟩ := by
  have hbegin : BeginsWith "forawait" ("forawait" ++ (gap ++ '(' :: rest)) :=
    beginsWith_of_paren (by decide) hgap rest
  have hblank : ∀ c ∈ ('(' :: rest).head?, isBlank c = false := by
    rintro c ⟨⟩
    decide
  have hends : ∀ c ∈ (gap ++ '(' :: rest).head?, isWordChar c = false := by
    intro c hc
    have hcontinues := continuesWord_blanks_cons hgap (c := '(') (by decide) rest
    rwa [continuesWord, Option.mem_def.mp hc] at hcontinues
  have hend (prev : Option Char) (groups : List (Nat × Text)) :
      matchThen methodEnd ⟨prev, gap ++ '(' :: rest, groups⟩ some = some ⟨some '(', rest, groups⟩ :=
    longest_append hgap hblank (fun _ => rfl) prev
  let t : Text := "forawait" ++ (gap ++ '(' :: rest)
  have hpiece : t.take (t.length - (gap ++ '(' :: rest).length) = "forawait" := by
    rw [List.length_append, Nat.add_sub_cancel, List.take_left]
  let next (m : Matching) : Option Matching := matchThen methodEnd
    { m with groups := (2, t.take (t.length - m.rest.length)) :: m.groups } some
  have hnext (prev : Option Char) : next ⟨prev, gap ++ '(' :: rest, []⟩ =
      some ⟨some '(', rest, [(2, "forawait")]⟩ := by
    dsimp only [next]
    rw [hpiece]
    exact hend prev _
  have hword : matchThen (group 2 Pattern.word) ⟨none, t, []⟩ (fun m => matchThen methodEnd m some) =
      if isWordChar 'f' then longest isWordChar (some 'f') [] next ("orawait" ++ (gap ++ '(' :: rest))
      else none := rfl
  change matchThen scriptMethod ⟨none, t, []⟩ some = _
  rw [matchThen_scriptMethod, hbegin.matchThen_methodStart, hword, if_pos (by decide)]
  exact longest_append (by decide) hends hnext (some 'f')

/-- The other words are names of nothing. -/
lemma BeginsWith.of_ne {word : Text} (h : BeginsWith word t) (hne : word ≠ "forawait") :
    word ∈ notCallable ∧ joinsAwait t = false := by
  obtain ⟨rest, rfl, hends, -⟩ := h.rest
  have hknown := h.known
  simp only [controlWords, List.mem_cons, List.not_mem_nil, or_false] at hknown
  rcases hknown with rfl | rfl | rfl | rfl | rfl | rfl
  · exact ⟨by decide, rfl⟩
  · exact ⟨by decide, rfl⟩
  · refine ⟨by decide, ?_⟩
    cases rest with
    | nil => rfl
    | cons c rest =>
      have hc : 'a' ≠ c := by
        rintro rfl
        have ha : isWordChar 'a' = true := by decide
        exact Bool.false_ne_true (hends.symm.trans ha)
      have hafter : after? "forawait" ("for" ++ c :: rest) = none := if_neg hc
      rw [joinsAwait, hafter]
  · exact ⟨by decide, rfl⟩
  · exact ⟨by decide, rfl⟩
  · exact absurd rfl hne

/-- Of the words of control flow only one is a name for a method. -/
lemma BeginsWith.isSome_methodReading {word : Text} (h : BeginsWith word t) (s : Scanner) :
    (methodReading s t).isSome = (s.inClass && joinsAwait t) := by
  unfold methodReading
  cases s.inClass with
  | false => rfl
  | true =>
    rw [if_pos rfl, Bool.true_and]
    by_cases hword : word = "forawait"
    · subst hword
      obtain ⟨gap, rest, rfl, hgap⟩ := h.joined rfl
      have hstart : trimStart (gap ++ '(' :: rest) = '(' :: rest := by
        rw [trimStart, List.dropWhile_append_of_pos (List.all_eq_true.mp hgap)]
        rfl
      have hjoins : joinsAwait ("forawait" ++ (gap ++ '(' :: rest)) =
          bodyFollows (trimStart (gap ++ '(' :: rest)) := rfl
      rw [hstart] at hjoins
      rw [matchStart?_joined hgap, hjoins, Option.bind_some]
      dsimp only
      cases bodyFollows ('(' :: rest) with
      | false => rfl
      | true => rfl
    · obtain ⟨hcallable, hjoins⟩ := h.of_ne hword
      rw [hjoins, Option.isSome_eq_false_iff, Option.isNone_iff_eq_none, Option.bind_eq_none_iff]
      intro m hm
      have hname : notCallable.contains (m.group 2) = true := by
        rw [h.group_scriptMethod hm]
        exact List.contains_iff_mem.mpr hcallable
      rw [hname, Bool.not_true, Bool.and_false]
      rfl

/-- A text behind what exports it. -/
def Exported (t rest : Text) : Prop :=
  t = rest ∨ ∃ gap : Text, t = "export" ++ (gap ++ rest) ∧ gap.isAllBlank = true

lemma exists_exported {α : Type} {k : Matching → Option α} {a : α}
    (h : matchThen (opt ("export" ++ gap)) ⟨none, t, []⟩ k = some a) :
    ∃ m, Exported t m.rest ∧ k m = some a := by
  rcases reaches_opt h with hexport | hk
  · have hlit : matchThen (lit "export") ⟨none, t, []⟩ (fun m => matchThen (char isBlank) m fun m =>
      matchThen blanks m k) = some a := hexport
    obtain ⟨m₁, hrest, -, hchar⟩ := reaches_lit hlit
    obtain ⟨c, m₂, hrest₁, hc, -, hmore⟩ := reaches_char hchar
    obtain ⟨more, m₃, hrest₂, hblank, -, hk⟩ := reaches_run hmore
    refine ⟨m₃, .inr ⟨c :: more, ?_, ?_⟩, hk⟩
    · rw [List.cons_append, ← hrest₂, ← hrest₁]
      exact hrest
    · rw [isAllBlank, List.all_cons, hc, hblank]
      rfl
  · exact ⟨_, .inl rfl, hk⟩

lemma Exported.append {rest : Text} (h : Exported t rest) (e : Text) : Exported (t ++ e) (rest ++ e) := by
  rcases h with rfl | ⟨gap, rfl, hgap⟩
  · exact .inl rfl
  · exact .inr ⟨gap, by simp only [List.append_assoc], hgap⟩

lemma Exported.head_unique {c d : Char} {rest rest' : Text} (h : Exported t (c :: rest))
    (h' : Exported t (d :: rest')) (hc : isBlank c = false ∧ c ≠ 'e')
    (hd : isBlank d = false ∧ d ≠ 'e') : c = d := by
  have htrim {c : Char} {gap rest : Text} (hgap : gap.isAllBlank = true) (hc : isBlank c = false) :
      trimStart (gap ++ c :: rest) = c :: rest := by
    rw [trimStart, List.dropWhile_append_of_pos (List.all_eq_true.mp hgap), List.dropWhile_cons, hc]
    rfl
  rcases h with rfl | ⟨gap, rfl, hgap⟩
  · rcases h' with heq | ⟨gap', heq, -⟩
    · exact (List.cons.inj heq).1
    · exact absurd (List.cons.inj heq).1 hc.2
  · rcases h' with heq | ⟨gap', heq, hgap'⟩
    · exact absurd (List.cons.inj heq).1.symm hd.2
    · have hrest := congrArg trimStart (List.append_cancel_left heq)
      rw [htrim hgap hc.1, htrim hgap' hd.1] at hrest
      exact (List.cons.inj hrest).1

/-- The definitions that may be exported, behind the word for it. -/
def typeRest : Pattern :=
  "type" ++ gap ++ group 1 word ++ anglesOrNone ++ blanks ++ "=" ++ blanks ++ group 2 restOfLine1
    ++ finish

def functionRest : Pattern :=
  opt ("default" ++ gap) ++ opt (group 1 ("async" ++ gap)) ++ "function" ++ blanks ++ opt "*" ++ blanks
    ++ group 2 word ++ blanks ++ opt ("<" ++ run1 (isNot '>') ++ ">") ++ blanks ++ "("

def arrowRest : Pattern :=
  declarator ++ gap ++ group 1 word ++ blanks ++ opt (":" ++ run1 (isNot '=')) ++ "=" ++ blanks
    ++ opt (group 2 ("async" ++ gap)) ++ alt ("(" ++ run (isNot ')') ++ ")") word ++ blanks
    ++ opt (":" ++ blanks ++ shortRun1 (isNot '=')) ++ blanks ++ "=>"

/-- A definition behind the word that exports it starts with one of its characters. -/
lemma exists_exportedStart {p : Pattern} (hp : p.skips = false) {m : Matching}
    (h : matchThen (opt ("export" ++ gap)) ⟨none, t, []⟩ (fun m => matchThen p m some) = some m) :
    ∃ c rest, Exported t (c :: rest) ∧ p.starts c = true := by
  obtain ⟨m', hexported, hmatch⟩ := exists_exported h
  obtain ⟨c, rest, hrest, hc⟩ := exists_start hp hmatch
  exact ⟨c, rest, hrest ▸ hexported, hc⟩

/-- The forms of functions of scripts. -/
def functionForms : List Pattern := [scriptFunction, scriptArrow, scriptConstructor]

lemma keeps_functionForms : functionForms.all keeps = true := by decide

lemma exported_of_functionForms {form : Pattern} (hform : form ∈ functionForms)
    (h : form.startsText t = true) :
    ∃ c rest, Exported t (c :: rest) ∧ c ∈ ['d', 'a', 'f', 'c', 'l', 'v'] := by
  obtain ⟨m, hm⟩ := Option.isSome_iff_exists.mp h
  simp only [functionForms, List.mem_cons, List.not_mem_nil, or_false] at hform
  rcases hform with rfl | rfl | rfl
  · obtain ⟨c, rest, hrest, hc⟩ := exists_exportedStart (p := functionRest) rfl hm
    refine ⟨c, rest, hrest, ?_⟩
    have hcs : c = 'd' ∨ c = 'a' ∨ c = 'f' := by
      simpa [functionRest, append_eq_seq, starts, skips, Pattern.opt, lit, or_assoc] using hc
    rcases hcs with rfl | rfl | rfl
    · decide
    · decide
    · decide
  · obtain ⟨c, rest, hrest, hc⟩ := exists_exportedStart (p := arrowRest) rfl hm
    refine ⟨c, rest, hrest, ?_⟩
    have hcs : c = 'c' ∨ c = 'l' ∨ c = 'v' := by
      simpa [arrowRest, declarator, append_eq_seq, starts, skips, oneOf, lit] using hc
    rcases hcs with rfl | rfl | rfl
    · decide
    · decide
    · decide
  · obtain ⟨c, rest, hrest, hc⟩ := exists_start (p := scriptConstructor) rfl hm
    refine ⟨c, rest, .inl hrest, ?_⟩
    obtain rfl : c = 'c' := by
      simpa [scriptConstructor, append_eq_seq, starts, skips, lit] using hc
    decide

/-- A function of a script does not become an alias of a type by what stands behind it. -/
lemma scriptType_eq_none {form : Pattern} (hform : form ∈ functionForms)
    (h : form.startsText b = true) (e : Text) : scriptType.matchStart? (b ++ e) = none := by
  rw [Option.eq_none_iff_forall_ne_some]
  intro m hm
  obtain ⟨c, rest, hc, hmem⟩ := exported_of_functionForms hform h
  obtain ⟨d, rest', hd, hstart⟩ := exists_exportedStart (p := typeRest) rfl hm
  obtain rfl : d = 't' := by
    simpa [typeRest, append_eq_seq, starts, skips, lit] using hstart
  have hkinds : (['d', 'a', 'f', 'c', 'l', 'v'].all fun c =>
    !isBlank c && c != 'e' && c != 't') = true := by decide
  obtain ⟨hblank, hne, hne'⟩ : isBlank c = false ∧ c ≠ 'e' ∧ c ≠ 't' := by
    simpa [and_assoc] using List.all_eq_true.mp hkinds c hmem
  exact hne' ((hc.append e).head_unique hd ⟨hblank, hne⟩ (by decide))

/-- Headers of a script are functions, or begin with a word of control flow. -/
lemma script_header (hb : '{' ∉ b) (s : Scanner) (afterClose : Bool) :
    Finds (fun c => c.1.isHeader = true → (∃ form ∈ functionForms, form.startsText b = true) ∨
      ∃ word, BeginsWith word b) (classifyScript s b afterClose) := by
  have hform {form : Pattern} (hform : form ∈ functionForms) {m : Matching}
      (hm : m ∈ form.matchStart? b) : ∃ form ∈ functionForms, form.startsText b = true :=
    ⟨form, hform, Option.isSome_iff_exists.mpr ⟨m, hm⟩⟩
  refine finds_firstOf ?_
  simp only [List.forall_mem_cons]
  refine ⟨finds_firstOf ?_, ?_, finds_firstOf ?_, List.forall_mem_nil _⟩
  · simp only [List.forall_mem_cons]
    refine ⟨finds_map fun _ _ => nofun, finds_map fun _ _ => nofun, finds_map fun _ _ => nofun,
      finds_map fun _ _ => nofun,
      finds_map fun m hm _ => .inl (hform (by simp [functionForms]) hm),
      finds_map fun m hm _ => .inl (hform (by simp [functionForms]) hm),
      finds_guard fun h => finds_some fun _ => .inl ⟨scriptConstructor, by simp [functionForms], ?_⟩,
      ?_, finds_map fun _ _ => nofun, List.forall_mem_nil _⟩
    · exact (Bool.and_eq_true_iff.mp h).2
    · have hmethod := methodReading_eq_none hb s
      unfold methodReading at hmethod
      rw [hmethod]
      exact finds_none
  · intro c hc hheader
    obtain ⟨-, form, hform, hmatch⟩ := exists_headerForm s b afterClose c hc hheader
    exact .inr (exists_beginsWith hform hmatch)
  · simp only [List.forall_mem_cons]
    exact ⟨finds_map fun _ _ => nofun, finds_map fun _ _ => nofun, finds_map fun _ _ => nofun,
      finds_map fun _ _ => nofun, List.forall_mem_nil _⟩

lemma finds_scriptModule (s : Scanner) (t : Text) :
    Finds (fun c => c.1.isHeader = false) (scriptModule s t) := by
  refine finds_firstOf ?_
  simp only [List.forall_mem_cons]
  exact ⟨finds_map fun _ _ => rfl, finds_map fun _ _ => rfl, finds_map fun _ _ => rfl,
    finds_map fun _ _ => rfl, List.forall_mem_nil _⟩

lemma keeps_angles : anglesOrNone.keeps = true := by decide

/-- A class up to the names that stand behind a word for them. -/
def classHead : Pattern :=
  opt ("export" ++ gap) ++ opt ("default" ++ gap) ++ opt ("abstract" ++ gap) ++ "class" ++ gap
    ++ group 1 word ++ anglesOrNone ++ opt (gap ++ "extends" ++ gap ++ group 2 (run1 isDotted))

lemma keeps_classHead : classHead.keeps = true := by
  have hdotted : avoidsOpening isDotted = true := avoidsOpening_of_forall fun c hc => by
    rw [isDotted, isWordChar_of_isOpening hc, Bool.false_or, beq_eq_false_iff_ne]
    rintro rfl
    cases hc
  have hbase : (opt (gap ++ "extends" ++ gap ++ group 2 (run1 isDotted))).keeps = true :=
    keeps_opt (keeps_of_seals rfl (seals_run1 hdotted))
  exact keeps_seq (keeps_seq (keeps_of_seals rfl seals_word) keeps_angles) hbase

/-- An interface up to the names that stand behind the word for them. -/
def interfaceHead : Pattern :=
  opt ("export" ++ gap) ++ "interface" ++ gap ++ group 1 word ++ anglesOrNone

lemma keeps_interfaceHead : interfaceHead.keeps = true :=
  keeps_seq (keeps_of_seals rfl seals_word) keeps_angles

lemma keeps_scriptEnum : scriptEnum.keeps = true := keeps_of_seals rfl seals_word

/-- Where a body follows no method, what a script is found to be stays with a brace behind it. -/
lemma stays_classifyScript (he : ∀ c ∈ e, isOpening c = true) (hb : '{' ∉ b)
    (hsemicolon : b.endsWith ";" = false) (hsemicolon' : (b ++ e).endsWith ";" = false) {s : Scanner}
    (hjoins : (s.inClass && joinsAwait (b ++ e)) = false) (afterClose : Bool) :
    Stays (classifyScript s b afterClose) (classifyScript s (b ++ e) afterClose) := by
  by_cases hwords : ∃ word, BeginsWith word b
  · obtain ⟨word, hword⟩ := hwords
    have hmethod : methodReading s (b ++ e) = none := by
      rw [← Option.isNone_iff_eq_none, ← Option.isSome_eq_false_iff, ← hjoins]
      exact (hword.append e).isSome_methodReading s
    rw [hword.classifyScript_eq, (hword.append e).classifyScript_eq, methodReading_eq_none hb, hmethod,
      Option.none_or, Option.none_or]
    exact (stays_classifyControl he hsemicolon hsemicolon' s afterClose).or (finds_scriptModule s b)
  · intro c hc hheader
    obtain ⟨form, hform, hmatch⟩ := (script_header hb s afterClose c hc hheader).resolve_right hwords
    have htype := scriptType_eq_none hform hmatch e
    have hclass : scriptClass.startsText (b ++ e) = scriptClass.startsText b :=
      startsText_seq_opened keeps_classHead rfl he b
    have hinterface : scriptInterface.startsText (b ++ e) = scriptInterface.startsText b :=
      startsText_seq_opened keeps_interfaceHead rfl he b
    have henum : scriptEnum.startsText (b ++ e) = scriptEnum.startsText b :=
      startsText_opened keeps_scriptEnum he b
    have hkeeps : ∀ form ∈ functionForms, form.matchStart? (b ++ e) =
        (form.matchStart? b).map fun m => { m with rest := m.rest ++ e } :=
      fun form hform => matchStart?_opened (List.all_eq_true.mp keeps_functionForms form hform) he b
    simp only [functionForms, List.forall_mem_cons] at hkeeps
    obtain ⟨hfunction, harrow, hconstructor, -⟩ := hkeeps
    have hcallable : scriptCallable (b ++ e) = scriptCallable b := by
      funext name isAsync flavor owner
      rw [scriptCallable, scriptCallable, paramsOf_opened he]
    have hcontrol : Finds (fun c => c.1.isHeader = false) (classifyControl s b afterClose) := by
      intro c hc
      by_contra hheader
      rw [Bool.not_eq_false] at hheader
      obtain ⟨-, form, hform, hmatch⟩ := exists_headerForm s b afterClose c hc hheader
      exact hwords (exists_beginsWith hform hmatch)
    have hmethod : Finds (fun c => c.1.isHeader = false) (methodReading s b) := by
      rw [methodReading_eq_none hb]
      exact finds_none
    refine (?_ : Stays _ _) c hc hheader
    simp only [classifyScript, scriptDefinition, firstOf_cons, firstOf_nil, Option.or_none,
      Option.or_assoc, startsText, htype, hfunction, harrow, hconstructor, hcallable, Option.map_map,
      Option.isSome_map, Option.map_none]
    refine (Follows.of_startsText hclass fun _ => rfl).or fun _ => ?_
    refine (Follows.of_startsText hinterface fun _ => rfl).or fun _ => ?_
    refine (Follows.of_none (finds_map fun _ _ => rfl) rfl).or fun _ => ?_
    refine (Follows.of_startsText henum fun _ => rfl).or fun _ => ?_
    refine (Follows.of_eq rfl).or fun _ => (Follows.of_eq rfl).or fun _ =>
      (Follows.of_eq rfl).or fun _ => ?_
    exact Stays.of_finds (finds_or hmethod (finds_or (finds_map fun _ _ => rfl)
      (finds_or hcontrol (finds_scriptModule s b))))

/-- A text that looks like a loop over awaited values is no function. -/
lemma startsText_of_joinsAwait (h : joinsAwait t = true) {form : Pattern}
    (hform : form ∈ functionForms) : form.startsText t = false := by
  unfold joinsAwait at h
  split at h
  · next rest hrest =>
    obtain rfl : t = "forawait" ++ rest := (after?_eq_some_iff _ _ _).mp hrest
    simp only [functionForms, List.mem_cons, List.not_mem_nil, or_false] at hform
    rcases hform with rfl | rfl | rfl
    · rfl
    · rfl
    · rfl
  · cases h

/-- In a class such a loop becomes a method when its body begins. -/
lemma exists_method (he : ∀ c ∈ e, isOpening c = true) (hb : '{' ∉ b) {s : Scanner}
    (hjoins : (s.inClass && joinsAwait (b ++ e)) = true) {afterClose : Bool} {c : Classified}
    (hc : classifyScript s b afterClose = some c) (hheader : c.1.isHeader = true) :
    c.2 = .control ∧ ∃ method, classifyScript s (b ++ e) afterClose =
      some (.function method, .functionBody) := by
  have hforms : ∀ form ∈ functionForms, form.startsText b = false := by
    intro form hform
    have hkeeps := List.all_eq_true.mp keeps_functionForms form hform
    rw [← startsText_opened hkeeps he]
    exact startsText_of_joinsAwait (Bool.and_eq_true_iff.mp hjoins).2 hform
  obtain ⟨word, hword⟩ : ∃ word, BeginsWith word b := by
    rcases script_header hb s afterClose c hc hheader with ⟨form, hform, hmatch⟩ | hword
    · rw [hforms form hform] at hmatch
      cases hmatch
    · exact hword
  constructor
  · rw [hword.classifyScript_eq, methodReading_eq_none hb, Option.none_or, Option.or_eq_some_iff] at hc
    rcases hc with hcontrol | ⟨-, hmodule⟩
    · exact (exists_headerForm s b afterClose c hcontrol hheader).1
    · rw [finds_scriptModule s b c hmodule] at hheader
      cases hheader
  · have hmethod := (hword.append e).isSome_methodReading s
    rw [hjoins, Option.isSome_iff_exists] at hmethod
    obtain ⟨c', hc'⟩ := hmethod
    obtain ⟨method, rfl⟩ := exists_callable_of_methodReading hc'
    exact ⟨method, by rw [(hword.append e).classifyScript_eq, hc', Option.some_or]⟩

end Marginalia.Braced
