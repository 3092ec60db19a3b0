import Marginalia.Proofs.OpenedHeaders

/-!
# Headers of compiled sources

The header of a compiled source is found to be the same thing with an opening behind it and without.
A function may be followed by some words and by a brace or a semicolon, of which only the semicolon
counts.
-/

namespace Marginalia.Braced

open Pattern Text

variable {e b t : Text}

/-- A function up to its parameters, up to the words behind them, and up to its end. -/
def compiledHead : Pattern :=
  star (functionWord ++ gap)
    ++ group 1 (run1 fun c => isWordChar c || c == ':' || c == '<' || c == '>')
    ++ alt (blanks ++ group 2 (alt (run1 (· == '*')) "&") ++ blanks) gap
    ++ group 3 (run1 fun c => isWordChar c || c == ':' || c == '~')

def compiledParams : Pattern := compiledHead ++ blanks ++ "(" ++ group 4 (run (isNot ')')) ++ ")"

def compiledWords : Pattern := blanks ++ opt ("const" ++ blanks) ++ opt ("override" ++ blanks)

/-- What a function may end with. -/
def compiledEnd : Pattern := opt (group 5 (alt "\x7b" ";"))

/-- What is asked of a match of a function. -/
def functionView (m : Matching) : Text × Text × Bool := (m.group 1, m.group 3, m.group? 5 == some ";")

/-- The same before the end of the function is read. -/
def functionParts (m : Matching) : Text × Text × Bool :=
  (m.group 1, m.group 3, m.rest.head? == some ';')

lemma map_functionView_end {m : Matching} (h : m.group? 5 = none) :
    (matchThen compiledEnd m some).map functionView = some (functionParts m) := by
  obtain ⟨prev, rest, groups⟩ := m
  have hsame : rest.head? ≠ some ';' → some (functionView ⟨prev, rest, groups⟩) =
      some (functionParts ⟨prev, rest, groups⟩) := by
    intro hend
    rw [functionView, functionParts, h, beq_eq_false_iff_ne.mpr hend]
    rfl
  cases rest with
  | nil => exact hsame nofun
  | cons c rest =>
    by_cases hmark : c = '{' ∨ c = ';'
    · have hend : matchThen compiledEnd ⟨prev, c :: rest, groups⟩ some =
          some ⟨some c, rest, (5, [c]) :: groups⟩ := by
        rcases hmark with rfl | rfl
        · simp [compiledEnd, Pattern.opt, matchThen, lit, Matching.step]
        · simp [compiledEnd, Pattern.opt, matchThen, lit, Matching.step]
      have hview : functionView ⟨some c, rest, (5, [c]) :: groups⟩ =
          functionParts ⟨prev, c :: rest, groups⟩ := by
        rcases hmark with rfl | rfl
        · rfl
        · rfl
      rw [hend, Option.map_some, hview]
    · rw [not_or] at hmark
      have hend : matchThen compiledEnd ⟨prev, c :: rest, groups⟩ some =
          some ⟨prev, c :: rest, groups⟩ := by
        simp [compiledEnd, Pattern.opt, matchThen, lit, hmark]
      rw [hend]
      exact hsame (by simpa using hmark.2)

lemma map_functionView (t : Text) : (functionForm.matchStart? t).map functionView =
    matchThen (seq compiledParams compiledWords) ⟨none, t, []⟩ fun m => some (functionParts m) := by
  have htotal : ∀ m, (matchThen compiledEnd m some).isSome = true :=
    isSome_matchThen rfl fun _ => rfl
  have hmatch : functionForm.matchStart? t =
      (matchThen (seq compiledParams compiledWords) ⟨none, t, []⟩ some).bind fun m =>
        matchThen compiledEnd m some := matchThen_eq_bind htotal _ _
  have hparts : (matchThen (seq compiledParams compiledWords) ⟨none, t, []⟩ some).map functionParts =
      matchThen (seq compiledParams compiledWords) ⟨none, t, []⟩ fun m => some (functionParts m) :=
    map_matchThen functionParts _ _ some
  rw [hmatch, ← hparts]
  cases hfound : matchThen (seq compiledParams compiledWords) ⟨none, t, []⟩ some with
  | none => rfl
  | some m =>
    obtain ⟨m', hreach, heq⟩ := exists_reached hfound
    obtain rfl : m' = m := Option.some.inj heq
    refine map_functionView_end ?_
    obtain ⟨kept, hgroups, hkept⟩ := hreach.groups
    rw [Matching.group?, hgroups, List.append_nil, List.lookup_eq_none_iff]
    intro entry hentry
    have hmarks : ∀ n ∈ (seq compiledParams compiledWords).marks, (5 != n) = true := by decide
    exact hmarks entry.1 (hkept entry hentry)

/-- No opening begins with a semicolon, nor does an end of one. -/
lemma steady_functionParts (he : ∀ c ∈ e, isOpening c = true) :
    Steady e fun m => some (functionParts m) := by
  have hends (prev : Option Char) (rest : Text) (groups : List (Nat × Text)) (hrest : rest <:+ e) :
      functionParts ⟨prev, rest, groups⟩ = functionParts ⟨none, [], groups⟩ := by
    have hhead : (rest.head? == some ';') = false := by
      rw [beq_eq_false_iff_ne]
      intro hhead
      have hmem : ';' ∈ e := hrest.subset (List.mem_of_head? hhead)
      exact not_mem_of_opening he (by decide) hmem
    rw [functionParts, hhead]
    rfl
  refine ⟨fun prev t groups => ?_, fun prev rest groups hrest => ?_⟩
  · cases t with
    | nil => exact congrArg some ((hends prev e groups List.suffix_rfl).trans
        (hends prev [] groups List.nil_suffix).symm)
    | cons c t => rfl
  · exact congrArg some (hends prev rest groups hrest)

lemma steady_compiledWords (he : ∀ c ∈ e, isOpening c = true) :
    Steady e fun m => matchThen compiledWords m fun m => some (functionParts m) := by
  have hparts := steady_functionParts he
  have hoverride := Steady.opt he "override" (by decide) (hparts.run isBlank) hparts
  have hconst := Steady.opt he "const" (by decide) (hoverride.run isBlank) hoverride
  exact hconst.run isBlank

/-- The forms of definitions whose matches an opening does not change, nor whether there is one. -/
def keptForms : List Pattern := [includeForm, namespaceForm, usingForm, classForm, typedefForm,
  templateForm, constructorForm]

lemma avoidsOpening_isQualified : avoidsOpening isQualified = true := by
  refine avoidsOpening_of_forall fun c hc => ?_
  rw [isQualified, isWordChar_of_isOpening hc, Bool.false_or, beq_eq_false_iff_ne]
  rintro rfl
  cases hc

lemma keeps_keptForms : ∀ form ∈ keptForms, form.keeps = true := by
  have hqualified : (run1 isQualified).seals = true := seals_run1 avoidsOpening_isQualified
  have hbase : (opt (blanks ++ ":" ++ blanks ++ opt (oneOf ["public", "private", "protected"]) ++ blanks
      ++ group 2 (run1 isQualified))).keeps = true := keeps_opt (keeps_of_seals rfl hqualified)
  simp only [keptForms, List.forall_mem_cons]
  exact ⟨by decide, keeps_of_seals rfl seals_word, keeps_of_seals rfl hqualified,
    keeps_seq (keeps_of_seals rfl seals_word) hbase, by decide, by decide, by decide,
    List.forall_mem_nil _⟩

lemma seals_compiledParams : compiledParams.seals = true := by decide

/-- What a function of a compiled source is found to be stays with an opening behind it. -/
lemma compiledFunction_opened (he : ∀ c ∈ e, isOpening c = true) (t : Text) :
    compiledFunction (t ++ e) = compiledFunction t := by
  have hwords := steady_compiledWords he
  have hagree : Agree e id (fun m => matchThen compiledWords m fun m => some (functionParts m))
      (fun m => matchThen compiledWords m fun m => some (functionParts m)) := by
    intro prev t groups
    rw [Option.map_id]
    exact hwords.agree prev t groups
  have hview : (functionForm.matchStart? (t ++ e)).map functionView =
      (functionForm.matchStart? t).map functionView := by
    rw [map_functionView, map_functionView]
    have hmatch := ((agree_of_opening he compiledParams hagree).1 seals_compiledParams).2 none t []
    rw [Option.map_id] at hmatch
    exact hmatch
  rw [compiledFunction, compiledFunction, paramsOf_opened he]
  cases hm : functionForm.matchStart? t with
  | none =>
    rw [hm, Option.map_none, Option.map_eq_none_iff] at hview
    rw [hview]
  | some m =>
    rw [hm, Option.map_some, Option.map_eq_some_iff] at hview
    obtain ⟨m', hm', heq⟩ := hview
    rw [functionView, functionView, Prod.mk.injEq, Prod.mk.injEq] at heq
    rw [hm', Option.bind_some, Option.bind_some, heq.1, heq.2.1, heq.2.2]

lemma compiledConstructor_opened (he : ∀ c ∈ e, isOpening c = true) (s : Scanner) (t : Text) :
    compiledConstructor s (t ++ e) = compiledConstructor s t := by
  have hkeeps : constructorForm.keeps = true :=
    keeps_keptForms constructorForm (by simp [keptForms])
  rw [compiledConstructor, compiledConstructor, matchStart?_opened hkeeps he, paramsOf_opened he,
    Option.bind_map]
  rfl

/-- The forms of functions of compiled sources. -/
def callableForms : List Pattern := [functionForm, constructorForm]

lemma mem_of_reaches_paren (head : Pattern) {k : Matching → Option Matching} {m : Matching}
    (h : matchThen head ⟨none, t, []⟩ (fun m => matchThen blanks m fun m =>
      matchThen (lit ['(']) m k) = some m) : '(' ∈ t := by
  obtain ⟨m', hreach, hmatch⟩ := exists_reached h
  obtain ⟨taken, hrest, -⟩ := hreach.taken
  obtain ⟨gap, rest, hrest', -⟩ := reaches_paren hmatch
  obtain rfl : t = taken ++ (gap ++ '(' :: rest) := by rw [← hrest']; exact hrest
  exact List.mem_append_right taken (List.mem_append_right gap List.mem_cons_self)

/-- A function has a parenthesis, and does not begin as a directive does. -/
lemma of_callableForms {form : Pattern} (hform : form ∈ callableForms)
    (h : form.startsText t = true) : '(' ∈ t ∧ ∃ c rest, t = c :: rest ∧ c ≠ '#' := by
  obtain ⟨m, hm⟩ := Option.isSome_iff_exists.mp h
  simp only [callableForms, List.mem_cons, List.not_mem_nil, or_false] at hform
  rcases hform with rfl | rfl
  · refine ⟨mem_of_reaches_paren compiledHead hm, ?_⟩
    obtain ⟨c, rest, hrest, hc⟩ := exists_start (p := functionForm) rfl hm
    refine ⟨c, rest, hrest, ?_⟩
    rintro rfl
    exact absurd hc (by decide)
  · refine ⟨mem_of_reaches_paren (group 1 (opt "~" ++ word)) hm, ?_⟩
    obtain ⟨c, rest, hrest, hc⟩ := exists_start (p := constructorForm) rfl hm
    refine ⟨c, rest, hrest, ?_⟩
    rintro rfl
    exact absurd hc (by decide)

/-- A type with members up to its body. -/
def recordStart : Pattern := group 1 recordWord ++ gap ++ group 2 word ++ blanks

/-- What has a parenthesis before its brace is no type with members. -/
lemma recordForm_eq_none (hparen : '(' ∈ b) (hbrace : '{' ∉ b) (e : Text) :
    recordForm.matchStart? (b ++ e) = none := by
  rw [Option.eq_none_iff_forall_ne_some]
  intro m hm
  have hstart : matchThen recordStart ⟨none, b ++ e, []⟩ (fun m =>
    matchThen (opt ("\x7b" ++ restOfLine)) m fun m => matchThen finish m some) = some m := hm
  obtain ⟨m', hreach, hmatch⟩ := exists_reached hstart
  obtain ⟨taken, hrest, htaken⟩ := hreach.taken
  have hout : '(' ∉ taken := fun hmem => absurd (htaken _ hmem) (by decide)
  have hsplit : b ++ e = taken ++ m'.rest := hrest
  obtain ⟨more, htaken, -⟩ | ⟨more, hb, hrest⟩ := List.append_eq_append_iff.mp hsplit
  · exact hout (htaken ▸ List.mem_append_left more hparen)
  · cases more with
    | nil =>
      rw [List.append_nil] at hb
      exact hout (hb ▸ hparen)
    | cons c more =>
      rcases reaches_opt hmatch with hopen | hfinish
      · have hlit : matchThen (lit ['{']) m' (fun m => matchThen restOfLine m fun m =>
          matchThen finish m some) = some m := hopen
        obtain ⟨m'', hrest', -, -⟩ := reaches_lit hlit
        rw [hrest] at hrest'
        obtain rfl : c = '{' := (List.cons.inj hrest').1
        exact hbrace (hb ▸ List.mem_append_right taken List.mem_cons_self)
      · dsimp only [matchThen] at hfinish
        rw [hrest] at hfinish
        cases hfinish

lemma startsText_typedefRecord (he : ∀ c ∈ e, isOpening c = true) (t : Text) :
    typedefRecordForm.startsText (t ++ e) = typedefRecordForm.startsText t := by
  have hname : (group 2 (run isWordChar)).isTotal = true := rfl
  have hblanks : blanks.isTotal = true := rfl
  -- Blanks before the brace are taken, whether there are any or not.
  have htypedef (t : Text) : typedefRecordForm.startsText t =
      ("typedef" ++ gap ++ group 1 recordWord).startsText t :=
    (startsText_seq hname _ t).trans (startsText_seq hblanks _ t)
  rw [htypedef, htypedef]
  exact startsText_opened (by decide) he t

/-- Headers of a compiled source are functions, or begin with a word of control flow. -/
lemma compiled_header (s : Scanner) (t : Text) (afterClose : Bool) :
    Finds (fun c => c.1.isHeader = true → (∃ form ∈ callableForms, form.startsText t = true) ∨
      ∃ word, BeginsWith word t) (classifyCompiled s t afterClose) := by
  have hform {form : Pattern} (hform : form ∈ callableForms) {m : Matching}
      (hm : m ∈ form.matchStart? t) : ∃ form ∈ callableForms, form.startsText t = true :=
    ⟨form, hform, Option.isSome_iff_exists.mpr ⟨m, hm⟩⟩
  refine finds_firstOf ?_
  simp only [List.forall_mem_cons]
  refine ⟨finds_firstOf ?_, ?_, ?_, ?_, ?_, ?_, List.forall_mem_nil _⟩
  · simp only [List.forall_mem_cons]
    refine ⟨finds_map fun _ _ => nofun, finds_map fun _ _ => nofun, finds_map fun _ _ => nofun,
      finds_map fun _ _ => nofun, finds_map fun _ _ => nofun,
      finds_ite finds_none (finds_map fun _ _ => nofun), finds_map fun _ _ => nofun,
      finds_map fun _ _ => nofun, finds_map fun m _ => ?_, finds_map fun _ _ => nofun,
      List.forall_mem_nil _⟩
    dsimp only
    split
    · exact nofun
    · exact nofun
  · exact finds_bind fun m hm => fun _ _ _ => .inl (hform (by simp [callableForms]) hm)
  · exact finds_guard fun _ => finds_bind fun m hm =>
      fun _ _ _ => .inl (hform (by simp [callableForms]) hm)
  · exact finds_guard fun _ => finds_map fun _ _ => nofun
  · intro c hc hheader
    obtain ⟨-, form, hform, hmatch⟩ := exists_headerForm s t afterClose c hc hheader
    exact .inr (exists_beginsWith hform hmatch)
  · intro c hc
    obtain ⟨entry, -, hfound⟩ := List.exists_of_findSome?_eq_some hc
    obtain ⟨found, -, rfl⟩ := Option.map_eq_some_iff.mp hfound
    exact nofun

lemma finds_compiledLibraryCall (t : Text) :
    Finds (fun c => c.1.isHeader = false) (compiledLibraryCall t) := by
  intro c hc
  obtain ⟨entry, -, hfound⟩ := List.exists_of_findSome?_eq_some hc
  obtain ⟨found, -, rfl⟩ := Option.map_eq_some_iff.mp hfound
  rfl

lemma BeginsWith.classifyCompiled_eq {word : Text} (h : BeginsWith word t) (s : Scanner)
    (afterClose : Bool) : classifyCompiled s t afterClose =
      (compiledFunction t).or ((compiledConstructor s t).or
        ((classifyControl s t afterClose).or (compiledLibraryCall t))) := by
  have hnone : ∀ form ∈ otherForms, form.matchStart? t = none := h.fitsNone
  simp only [otherForms, List.forall_mem_cons] at hnone
  simp only [classifyCompiled, compiledDefinition, compiledGlobal, firstOf_cons, firstOf_nil, hnone,
    Option.map_none, Option.none_or, Option.or_none, ite_self]

/-- What a compiled source is found to be stays with an opening behind it. -/
lemma stays_classifyCompiled (he : ∀ c ∈ e, isOpening c = true) (hb : '{' ∉ b)
    (hsemicolon : b.endsWith ";" = false) (hsemicolon' : (b ++ e).endsWith ";" = false) (s : Scanner)
    (afterClose : Bool) :
    Stays (classifyCompiled s b afterClose) (classifyCompiled s (b ++ e) afterClose) := by
  by_cases hwords : ∃ word, BeginsWith word b
  · obtain ⟨word, hword⟩ := hwords
    rw [hword.classifyCompiled_eq, (hword.append e).classifyCompiled_eq, compiledFunction_opened he,
      compiledConstructor_opened he]
    exact (Follows.refl _).or fun _ => (Follows.refl _).or fun _ =>
      (stays_classifyControl he hsemicolon hsemicolon' s afterClose).or (finds_compiledLibraryCall b)
  · intro c hc hheader
    obtain ⟨form, hform, hmatch⟩ := (compiled_header s b afterClose c hc hheader).resolve_right hwords
    obtain ⟨hparen, d, rest, rfl, hd⟩ := of_callableForms hform hmatch
    have hdefine : defineForm.matchStart? (d :: rest ++ e) = none :=
      matchStart?_cons_eq_none rfl (by simpa [defineForm, append_eq_seq, starts, skips, lit]) _
    have hdirective : directiveForm.matchStart? (d :: rest ++ e) = none :=
      matchStart?_cons_eq_none rfl (by simpa [directiveForm, append_eq_seq, starts, skips, lit]) _
    have hrecord := recordForm_eq_none hparen hb e
    have hkeeps : ∀ form ∈ keptForms, form.startsText (d :: rest ++ e) = form.startsText (d :: rest) :=
      fun form hform => startsText_opened (keeps_keptForms form hform) he _
    simp only [keptForms, List.forall_mem_cons] at hkeeps
    obtain ⟨hinclude, hnamespace, husing, hclass, htypedef, htemplate, -⟩ := hkeeps
    have htypedefRecord : typedefRecordForm.startsText (d :: rest ++ e) =
        typedefRecordForm.startsText (d :: rest) := startsText_typedefRecord he _
    have hcontrol : Finds (fun c => c.1.isHeader = false) (classifyControl s (d :: rest) afterClose) := by
      intro c hc
      by_contra hheader
      rw [Bool.not_eq_false] at hheader
      obtain ⟨-, form, hform, hmatch⟩ := exists_headerForm s _ afterClose c hc hheader
      exact hwords (exists_beginsWith hform hmatch)
    refine (?_ : Stays _ _) c hc hheader
    simp only [classifyCompiled, compiledDefinition, firstOf_cons, firstOf_nil, Option.or_none,
      Option.or_assoc, hdefine, hdirective, hrecord, hsemicolon, hsemicolon', Option.map_none,
      compiledFunction_opened he, compiledConstructor_opened he]
    refine (Follows.of_startsText hinclude fun _ => rfl).or fun _ => ?_
    refine (Follows.of_none (finds_map fun _ _ => rfl) rfl).or fun _ => ?_
    refine (Follows.of_none (finds_map fun _ _ => rfl) rfl).or fun _ => ?_
    refine (Follows.of_startsText hnamespace fun _ => rfl).or fun _ => ?_
    refine (Follows.of_startsText husing fun _ => rfl).or fun _ => ?_
    refine (Follows.of_startsText hclass fun _ => rfl).or fun _ => ?_
    refine (Follows.of_startsText htypedefRecord fun _ => rfl).or fun _ => ?_
    refine (Follows.of_startsText htypedef fun _ => rfl).or fun _ => ?_
    refine (Follows.of_none (finds_map fun _ _ => ?_) rfl).or fun _ => ?_
    · dsimp only
      split
      · rfl
      · rfl
    refine (Follows.of_startsText htemplate fun _ => rfl).or fun _ => ?_
    refine (Follows.refl _).or fun _ => (Follows.refl _).or fun _ => ?_
    exact Stays.of_finds (finds_or (finds_guard fun _ => finds_map fun _ _ => rfl)
      (finds_or hcontrol (finds_compiledLibraryCall _)))

end Marginalia.Braced
