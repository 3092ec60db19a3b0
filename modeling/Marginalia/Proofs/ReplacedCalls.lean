import Marginalia.Proofs.KeptLiterals
import Marginalia.Proofs.Marks
import Marginalia.Proofs.SameLayout

/-!
# Replaced calls

What a call is replaced by shares no character with a call that would be replaced, so one round of
replacements is enough. It leaves code of the same layout, and neither makes nor breaks the head of a
function: every piece that is exchanged ends a name, at a dot or a parenthesis.
-/

namespace Marginalia.Repair

open Text

/-! ## Calls as marks -/

/-- Where a call is looked for: one that starts with a letter only at the start of a word. -/
def callMark (old : Text) : Mark := ⟨old, old.head?.any isAlphanumeric, false⟩

/-- The calls that are replaced as marks, and what is put for them. -/
def callMarks : List (Mark × Text) := callFixes.map fun fix => (callMark fix.1, fix.2)

lemma settled_callMarks : Settled callMarks := by decide +kernel

lemma mem_callMarks {fix : Text × Text} (h : fix ∈ callFixes) :
    (callMark fix.1, fix.2) ∈ callMarks := List.mem_map_of_mem h

lemma callRule_eq_mark (old new : Text) : callRule old new = .mark (callMark old) new := by
  have hstarts : ∀ t : Text, t.startsWith old = (after? old t).any fun _ => true := fun t => by
    rw [startsWith]
    cases after? old t <;> rfl
  funext b t
  rw [callRule, callMark, Rule.mark, Mark.standsAt]
  split
  · next halpha => simp [Rule.freshLiteral, Before.fresh, halpha, hstarts]
  · next halpha => simp [Rule.literal, halpha, hstarts]

lemma replaceAll_eq (fixes : List (Text × Text)) (code : Text) :
    replaceAll fixes code = code.exchangeAll (fixes.map fun fix => (callMark fix.1, fix.2)) := by
  induction fixes generalizing code with
  | nil => rfl
  | cons fix fixes ih =>
    rw [replaceAll, ih, callRule_eq_mark]
    rfl

/-- Behind a round of replacements there is nothing to replace. -/
lemma replaceAll_replaceAll (code : Text) :
    replaceAll callFixes (replaceAll callFixes code) = replaceAll callFixes code := by
  rw [replaceAll_eq callFixes (replaceAll _ _), replaceAll_eq]
  exact settled_callMarks.exchangeAll_exchangeAll code

/-- What is made of code by replacing calls has a property that each replacement keeps. -/
lemma replaceAll_induction {p : Text → Prop} {code : Text} (hcode : p code)
    (h : ∀ fix ∈ callFixes, ∀ code, p code → p (substitute (callRule fix.1 fix.2) code)) :
    p (replaceAll callFixes code) := by
  have hfold : ∀ (fixes : List (Text × Text)) (code : Text), (∀ fix ∈ fixes, fix ∈ callFixes) →
      p code → p (replaceAll fixes code) := by
    intro fixes
    induction fixes with
    | nil => exact fun _ _ hcode => hcode
    | cons fix fixes ih =>
      intro code hfixes hcode
      obtain ⟨hfix, hfixes⟩ := List.forall_mem_cons.mp hfixes
      exact ih _ hfixes (h fix hfix code hcode)
  exact hfold callFixes code (fun _ hmem => hmem) hcode

/-! ## Layout -/

lemma keepsLayout_callRule {fix : Text × Text} (h : fix ∈ callFixes) :
    KeepsLayout (callRule fix.1 fix.2) := by
  have htable : ∀ fix ∈ callFixes, IsMute fix.1 ∧ IsMute fix.2 ∧
      bracketsOf fix.1 = bracketsOf fix.2 ∧ endKind fix.1 = endKind fix.2 := by decide
  intro b old rest put hr
  obtain ⟨rest', ht, hlength, rfl⟩ := eq_of_callRule hr
  obtain ⟨rfl, rfl⟩ := List.append_inj ht hlength
  exact htable fix h

lemma sameLayout_replaceAll (code : Text) : SameLayout code (replaceAll callFixes code) := by
  refine replaceAll_induction (.refl code) fun fix hfix code' hcode' => hcode'.trans ?_
  exact (keepsLayout_callRule hfix).sameLayout
    (substituted_substitute (replaces_callRule hfix).takes code') []

lemma sameLayout_turnedCode (inInitializer : Bool) (code : Text) :
    SameLayout code (turnedCode inInitializer code) := by
  rw [turnedCode]
  split
  · cases h : turnAssignment? code with
    | none => exact .refl code
    | some code' =>
      obtain ⟨name, gap, gap', ⟨hne, hname⟩, hgap, hgap', hcode, hcode'⟩ := eq_of_turnAssignment? h
      have hword := isMute_word hname
      have hold : IsMute (name ++ (gap ++ ("=" ++ (gap' ++ ("self." ++ name))))) := by
        simp only [isMute_append]
        exact ⟨hword, isMute_blanks hgap, by decide, isMute_blanks hgap', by decide, hword⟩
      have hnew : IsMute ("self." ++ (name ++ (" = " ++ name))) := by
        simp only [isMute_append]
        exact ⟨by decide, hword, by decide, hword⟩
      have hbrackets := bracketsOf_bare (isBare_of_word hname)
      have hexchange := SameLayout.exchange hold hnew (by
        simp only [bracketsOf_append, bracketsOf_blanks hgap, bracketsOf_blanks hgap', hbrackets]
        rfl) (by simp [hne]) (by
        simp only [← List.append_assoc, endKind_append_of_ne_nil _ hne]) code.indentation []
      simp only [List.append_nil] at hexchange
      rw [Option.getD_some, hcode']
      conv_lhs => rw [hcode]
      exact hexchange
  · exact .refl code

lemma sameLayout_referenceDraft (inInitializer : Bool) (code : Text) :
    SameLayout code (referenceDraft inInitializer code).code := by
  rw [code_referenceDraft]
  exact (sameLayout_turnedCode inInitializer code).trans (sameLayout_replaceAll _)

/-! ## Heads of functions -/

/-- Whether the word a text starts with, possibly empty, is followed by something that is no
blank. -/
def stopsName (t : Text) : Bool := (t.dropWhile isWordChar).head?.any fun c => !isBlank c

lemma exists_of_stopsName {t : Text} (h : stopsName t = true) : ∃ c rest,
    t = firstWord t ++ c :: rest ∧ isWordChar c = false ∧ isBlank c = false := by
  have hsplit : firstWord t ++ t.dropWhile isWordChar = t := List.takeWhile_append_dropWhile
  have hhead := List.head?_dropWhile_not isWordChar t
  rw [stopsName] at h
  cases hrest : t.dropWhile isWordChar with
  | nil =>
    rw [hrest] at h
    cases h
  | cons c rest =>
    rw [hrest] at h hhead hsplit
    exact ⟨c, rest, hsplit.symm, by simpa using hhead, by simpa using h⟩

/-- What a replacement looks for and what it puts, as far as names go: both end a name, and neither
is about initializers. One that starts with a name is looked for at the start of a word only. -/
lemma callFixes_names {fix : Text × Text} (h : fix ∈ callFixes) :
    (stopsName fix.1 = true ∧ stopsName fix.2 = true) ∧
    (fix.1.firstWord ≠ "__init__" ∧ fix.2.firstWord ≠ "__init__") ∧
    (fix.2.firstWord = [] → fix.1.firstWord = []) ∧
    ((callMark fix.1).fresh = false → fix.1.firstWord = []) := by
  have htable : ∀ fix ∈ callFixes,
      (stopsName fix.1 = true ∧ stopsName fix.2 = true) ∧
      (fix.1.firstWord ≠ "__init__" ∧ fix.2.firstWord ≠ "__init__") ∧
      (fix.2.firstWord = [] → fix.1.firstWord = []) ∧
      ((callMark fix.1).fresh = false → fix.1.firstWord = []) := by decide +kernel
  exact htable fix h

lemma all_firstWord (t : Text) : t.firstWord.all isWordChar = true := List.all_takeWhile

lemma DefStart.ends_blank {start : Text} (h : DefStart start) :
    ∃ body c, start = body ++ [c] ∧ isBlank c = true := by
  obtain ⟨margin, async, gap, rfl, -, -, hne, hgap⟩ := h
  obtain ⟨gap, c, rfl⟩ := List.eq_nil_or_concat' gap |>.resolve_left hne
  exact ⟨margin ++ (async ++ ("def" ++ gap)), c, by simp only [List.append_assoc],
    List.all_eq_true.mp hgap c (by simp)⟩

/-- No piece that ends a name starts in front of the name of a function. -/
lemma DefStart.not_piece {head tail piece : Text} (h : DefStart (head ++ tail)) (hne : tail ≠ [])
    (hpiece : stopsName piece = true) (rest rest' : Text) : tail ++ rest ≠ piece ++ rest' := by
  obtain ⟨d, more, hsplit, hword, hblank⟩ := exists_of_stopsName hpiece
  obtain ⟨body, c, hstart, hc⟩ := h.ends_blank
  obtain ⟨tail, e, rfl⟩ := List.eq_nil_or_concat' tail |>.resolve_left hne
  obtain ⟨-, he⟩ := List.append_inj' ((List.append_assoc head tail [e]).trans hstart) rfl
  obtain rfl : e = c := by simpa using he
  -- The last blank is no part of the word, and what follows the word stands not in front of it.
  have hnot : e ∉ firstWord piece := fun hmem => by
    have hchar := List.all_eq_true.mp (all_firstWord piece) e hmem
    rw [isWordChar_of_isBlank hc] at hchar
    cases hchar
  have hout : d ∉ tail ++ [e] := (isBare_append.mp h.isBare).2.not_mem hblank hword
  intro heq
  rw [hsplit, List.append_assoc (firstWord piece)] at heq
  rcases List.append_eq_append_iff.mp heq with ⟨k, hk, -⟩ | ⟨k, hk, hd⟩
  · exact hnot (by rw [hk]; simp)
  · cases k with
    | nil => exact hnot (by rw [List.append_nil] at hk; rw [← hk]; simp)
    | cons d' k =>
      obtain ⟨rfl, -⟩ := List.cons.inj hd
      exact hout (by rw [hk]; simp)

section

variable {fix : Text × Text} {b : Before} {t out start : Text}

lemma exists_kept_start (hfix : fix ∈ callFixes) (hstart : DefStart start)
    (h : Substituted (callRule fix.1 fix.2) b (start ++ t) out) : ∃ out', out = start ++ out' ∧
      Substituted (callRule fix.1 fix.2) (start.foldl Before.step b) t out' := by
  refine h.exists_kept fun head c tail hsplit => ?_
  rw [hsplit] at hstart
  refine Option.eq_none_iff_forall_ne_some.mpr ?_
  rintro ⟨n, put⟩ hr
  obtain ⟨rest, ht, -⟩ := eq_of_callRule hr
  exact hstart.not_piece (List.cons_ne_nil c tail) (callFixes_names hfix).1.1 t rest ht

lemma exists_of_kept_start (hfix : fix ∈ callFixes) (hstart : DefStart start)
    (h : Substituted (callRule fix.1 fix.2) b t (start ++ out)) : ∃ t', t = start ++ t' ∧
      Substituted (callRule fix.1 fix.2) (start.foldl Before.step b) t' out := by
  obtain ⟨t', ht, hrest, -⟩ := h.exists_of_kept <| by
    intro head tail old put t' out' hsplit htail hr _
    obtain ⟨-, -, -, rfl⟩ := eq_of_callRule hr
    rw [hsplit] at hstart
    exact hstart.not_piece htail (callFixes_names hfix).1.2 out out'
  exact ⟨t', ht, hrest⟩

lemma substituted_callRule_continuesWord (hfix : fix ∈ callFixes)
    (h : Substituted (callRule fix.1 fix.2) b t out) : continuesWord out = continuesWord t := by
  rw [callRule_eq_mark] at h
  exact h.continuesWord_eq (settled_callMarks _ (mem_callMarks hfix)).1

/-- A name that starts with a piece is its first word. -/
lemma eq_firstWord_of_callRule (hfix : fix ∈ callFixes) {name rest behind : Text}
    (hname : name.all isWordChar = true) (hrest : continuesWord rest = false)
    (h : name ++ rest = fix.1 ++ behind) : name = fix.1.firstWord := by
  obtain ⟨d, more, hsplit, hd, -⟩ := exists_of_stopsName (callFixes_names hfix).1.1
  rw [hsplit, List.append_assoc] at h
  have hends : continuesWord (d :: (more ++ behind)) = false := hd
  exact word_unique hname hrest (all_firstWord fix.1) hends h

/-- Inside a name no piece starts: behind a word character no word does, and a piece without one
starts with no word character. -/
lemma callRule_inside_name (hfix : fix ∈ callFixes) {head : Text} {e c : Char}
    (he : isWordChar e = true) (hc : isWordChar c = true) (t : Text) :
    callRule fix.1 fix.2 ((head ++ [e]).foldl Before.step b) (c :: t) = none := by
  obtain ⟨⟨hstops, -⟩, -, -, hfresh⟩ := callFixes_names hfix
  obtain ⟨d, more, hsplit, hd, -⟩ := exists_of_stopsName hstops
  refine Option.eq_none_iff_forall_ne_some.mpr ?_
  rintro ⟨n, put⟩ hr
  obtain ⟨behind, ht, -⟩ := eq_of_callRule hr
  cases hmark : (callMark fix.1).fresh with
  | true =>
    rw [callRule_eq_mark] at hr
    obtain ⟨-, -, hstarts, -⟩ := Mark.standsAt_iff.mp (Rule.mark_eq_some hr).1
    have hprev := hstarts hmark
    rw [prev_foldl_step, lastOf_append] at hprev
    simp [lastOf, isFresh, he] at hprev
  | false =>
    rw [hsplit, hfresh hmark] at ht
    obtain ⟨rfl, -⟩ := List.cons.inj ht
    rw [hc] at hd
    cases hd

/-- A name that starts with a piece is exchanged as a whole, any other name is kept. -/
lemma exists_name (hfix : fix ∈ callFixes) {name rest : Text} (hne : name ≠ [])
    (hname : name.all isWordChar = true) (hrest : continuesWord rest = false)
    (h : Substituted (callRule fix.1 fix.2) b (name ++ rest) out) :
    ∃ name' rest', out = name' ++ rest' ∧ name' ≠ [] ∧ name'.all isWordChar = true ∧
      continuesWord rest' = false ∧ (name' = "__init__" ↔ name = "__init__") := by
  obtain ⟨⟨-, hstops⟩, ⟨hold, hnew⟩, hempty, -⟩ := callFixes_names hfix
  cases hr : callRule fix.1 fix.2 b (name ++ rest) with
  | some pair =>
    obtain ⟨n, put⟩ := pair
    obtain ⟨behind, ht, rfl, rfl⟩ := eq_of_callRule hr
    have hword := eq_firstWord_of_callRule hfix hname hrest ht
    obtain ⟨d, more, hsplit, hd, -⟩ := exists_of_stopsName hstops
    have hout := h.eq
    rw [ht] at hr hout
    rw [substituteFrom_swap (replaces_callRule hfix).ne_nil.1 hr, hsplit,
      List.append_assoc] at hout
    refine ⟨fix.2.firstWord, _, hout.symm, fun hnil => hne (hword.trans (hempty hnil)),
      all_firstWord _, hd, ?_⟩
    rw [hword]
    exact iff_of_false hnew hold
  | none =>
    obtain ⟨out', rfl, hbehind⟩ := h.exists_kept <| by
      intro head c tail hsplit
      rcases List.eq_nil_or_concat' head with rfl | ⟨head, e, rfl⟩
      · rw [hsplit] at hr
        exact hr
      · rw [hsplit] at hname
        simp only [List.all_append, List.all_cons, List.all_nil, Bool.and_true,
          Bool.and_eq_true] at hname
        obtain ⟨⟨-, he⟩, hc, -⟩ := hname
        exact callRule_inside_name hfix he hc _
    exact ⟨name, out', rfl, hne, hname,
      (substituted_callRule_continuesWord hfix hbehind).trans hrest, Iff.rfl⟩

end

lemma exists_word?_of_continuesWord {t : Text} (h : continuesWord t = true) :
    ∃ word rest, word? t = some (word, rest) := by
  cases t with
  | nil => cases h
  | cons c t => exact ⟨_, _, if_pos h⟩

/-- For the head of a function: whether that is an initializer. -/
def namesInitializer? (t : Text) : Option Bool :=
  (functionName? t).map fun (name, _) => name == "__init__"

lemma namesInitializer?_substitute {fix : Text × Text} (hfix : fix ∈ callFixes) (code : Text) :
    namesInitializer? (substitute (callRule fix.1 fix.2) code) = namesInitializer? code := by
  have h := substituted_substitute (replaces_callRule hfix).takes code
  rw [namesInitializer?, namesInitializer?]
  cases hcode : functionName? code with
  | some pair =>
    obtain ⟨name, rest⟩ := pair
    obtain ⟨start, hstart, hne, hname, hrest, rfl⟩ := functionName?_eq_some_iff.mp hcode
    obtain ⟨out, hout, hbehind⟩ := exists_kept_start hfix hstart h
    obtain ⟨name', rest', rfl, hne', hname', hrest', hsame⟩ :=
      exists_name hfix hne hname hrest hbehind
    rw [hout, functionName?_eq_some_iff.mpr ⟨start, hstart, hne', hname', hrest', rfl⟩]
    have hbeq : (name' == "__init__") = (name == "__init__") := by
      rw [Bool.eq_iff_iff, beq_iff_eq, beq_iff_eq]
      exact hsame
    simp only [Option.map_some, hbeq]
  | none =>
    cases hout : functionName? (substitute (callRule fix.1 fix.2) code) with
    | none => rfl
    | some pair =>
      obtain ⟨name, rest⟩ := pair
      obtain ⟨start, hstart, hne, hname, -, hsplit⟩ := functionName?_eq_some_iff.mp hout
      rw [hsplit] at h
      obtain ⟨t, rfl, hbehind⟩ := exists_of_kept_start hfix hstart h
      obtain ⟨c, name, rfl⟩ := List.exists_cons_of_ne_nil hne
      rw [List.all_cons, Bool.and_eq_true] at hname
      have hword : continuesWord t = true :=
        (substituted_callRule_continuesWord hfix hbehind).symm.trans hname.1
      obtain ⟨name, rest, hname⟩ := exists_word?_of_continuesWord hword
      obtain ⟨hne, hall, hrest, rfl⟩ := word?_eq_some_iff.mp hname
      rw [functionName?_eq_some_iff.mpr ⟨start, hstart, hne, hall, hrest, rfl⟩] at hcode
      cases hcode

lemma namesInitializer?_replaceAll (code : Text) :
    namesInitializer? (replaceAll callFixes code) = namesInitializer? code :=
  replaceAll_induction (p := fun code' => namesInitializer? code' = namesInitializer? code) rfl
    fun _ hfix code' hcode' => (namesInitializer?_substitute hfix code').trans hcode'

end Marginalia.Repair
