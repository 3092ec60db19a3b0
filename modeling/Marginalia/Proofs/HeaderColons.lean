import Marginalia.Proofs.FunctionHeads
import Marginalia.Proofs.RecodedLines

/-!
# Colons of headers

The colon of a header is one outside literals and brackets that does not start `:=`. Whether a
header has it is read from the first colon out there alone. So a header in which `:=` comes first
gets a further colon with every run, and so does one without any whose code ends inside a literal or
a bracket. All other headers are settled by one run.
-/

namespace Marginalia.Repair

open Text

/-! ## Colons outside literals and brackets -/

/-- A colon of code that stands outside literals and brackets, with what is before and behind it. -/
def TopColon (code head rest : Text) : Prop :=
  code = head ++ ':' :: rest ∧ CodeState.start.run head = .start

/-- Code that has the colon of a header. -/
def HasColon (code : Text) : Prop := ∃ head rest, TopColon code head rest ∧ rest.head? ≠ some '='

/-- Code whose first colon is the colon of a header. -/
def ShowsColon (code : Text) : Prop :=
  ∃ head rest, TopColon code head rest ∧ rest.head? ≠ some '=' ∧
    ∀ head' rest', TopColon code head' rest' → head.length ≤ head'.length

/-- Code that has its colon after a run: the first one is the colon of a header, or there is none
and one behind the code is outside literals and brackets. -/
def SettlesColon (code : Text) : Prop :=
  ShowsColon code ∨ (∀ head rest, ¬TopColon code head rest) ∧ CodeState.start.run code = .start

lemma oneChar_top (target : Char) :
    OneChar fun depth t => depth == 0 && t.head? == some target := fun _ _ _ _ => rfl

lemma splitTopLevel?_append (t more : Text) : splitTopLevel? ':' (t ++ more) =
    match splitTopLevel? ':' t with
    | some (head, tail) => some (head, tail ++ more)
    | none => (splitAtCode? (fun depth t => depth == 0 && t.head? == some ':')
        (CodeState.start.run t) more).map fun (head, tail) => (t ++ head, tail) :=
  splitAtCode?_append (oneChar_top ':') .start t more

lemma TopColon.split {code head rest : Text} (h : TopColon code head rest)
    (hfirst : splitTopLevel? ':' head = none) :
    splitTopLevel? ':' code = some (head, ':' :: rest) := by
  obtain ⟨rfl, hstart⟩ := h
  rw [splitTopLevel?_append, hfirst, hstart]
  show some (head ++ [], ':' :: rest) = _
  rw [List.append_nil]

lemma TopColon.split_ne_none {code head rest : Text} (h : TopColon code head rest) :
    splitTopLevel? ':' code ≠ none := by
  cases hhead : splitTopLevel? ':' head with
  | none =>
    rw [h.split hhead]
    exact Option.some_ne_none _
  | some pair =>
    rw [h.1, splitTopLevel?_append, hhead]
    exact Option.some_ne_none _

lemma topColon_of_split {code head tail : Text} (h : splitTopLevel? ':' code = some (head, tail)) :
    ∃ rest, tail = ':' :: rest ∧ TopColon code head rest ∧
      ∀ head' rest', TopColon code head' rest' → head.length ≤ head'.length := by
  have hcode := eq_of_splitAtCode? h
  obtain ⟨hnone, c, rest, depth, rfl, hstep, hstop⟩ := of_splitAtCode? (oneChar_top ':') h
  rw [Bool.and_eq_true, beq_iff_eq, beq_iff_eq, List.head?_cons, Option.some.injEq] at hstop
  obtain ⟨rfl, rfl⟩ := hstop
  have hquote : (CodeState.start.run head).quote = none :=
    CodeState.quote_of_isSome_step (by rw [hstep]; rfl)
  have hdepth := hstep
  rw [CodeState.step_plain_code hquote (by decide), Option.some.injEq] at hdepth
  refine ⟨rest, rfl, ⟨hcode, (CodeState.sound_start.run head).eq_start hquote hdepth⟩, ?_⟩
  rintro head' rest' ⟨hcode', hstart'⟩
  by_contra hlt
  -- An earlier colon would be in the text before the first one.
  obtain ⟨more, hmore⟩ : ∃ more, head = head' ++ ':' :: more := by
    rcases List.append_eq_append_iff.mp (hcode.symm.trans hcode') with
      ⟨between, rfl, -⟩ | ⟨between, rfl, hbetween⟩
    · exact absurd (by simp) hlt
    · cases between with
      | nil => exact absurd (by simp) hlt
      | cons d more =>
        obtain ⟨rfl, -⟩ := List.cons.inj hbetween
        exact ⟨more, rfl⟩
  exact TopColon.split_ne_none ⟨hmore, hstart'⟩ hnone

lemma split_eq_none_iff {code : Text} :
    splitTopLevel? ':' code = none ↔ ∀ head rest, ¬TopColon code head rest := by
  refine ⟨fun h head rest htop => htop.split_ne_none h, fun h => ?_⟩
  cases hs : splitTopLevel? ':' code with
  | none => rfl
  | some pair =>
    obtain ⟨rest, -, htop, -⟩ := topColon_of_split hs
    exact absurd htop (h _ _)

lemma startsWith_equals (t : Text) : t.startsWith "=" = true ↔ t.head? = some '=' := by
  rw [startsWith_iff]
  cases t with
  | nil => simp
  | cons c t => simp

lemma hasHeaderColon_of_split {code head rest : Text}
    (h : splitTopLevel? ':' code = some (head, ':' :: rest)) :
    hasHeaderColon code = true ↔ rest.head? ≠ some '=' := by
  rw [hasHeaderColon, h]
  show (!rest.startsWith "=") = true ↔ _
  rw [Bool.not_eq_true', Bool.eq_false_iff, Ne, startsWith_equals]

lemma hasHeaderColon_of_split_none {code : Text} (h : splitTopLevel? ':' code = none) :
    hasHeaderColon code = false := by
  rw [hasHeaderColon, h]

/-- The colon of a header is seen if it is the first one. -/
lemma hasHeaderColon_iff {code : Text} : hasHeaderColon code = true ↔ ShowsColon code := by
  constructor
  · intro h
    cases hs : splitTopLevel? ':' code with
    | none => exact absurd (hasHeaderColon_of_split_none hs) (by rw [h]; exact Bool.noConfusion)
    | some pair =>
      obtain ⟨rest, htail, htop, hfirst⟩ := topColon_of_split hs
      rw [show pair = (pair.1, ':' :: rest) from Prod.ext rfl htail] at hs
      exact ⟨_, rest, htop, (hasHeaderColon_of_split hs).mp h, hfirst⟩
  · rintro ⟨head, rest, htop, hne, hfirst⟩
    refine (hasHeaderColon_of_split (htop.split ?_)).mpr hne
    rw [split_eq_none_iff]
    rintro head' rest' ⟨hhead, hstart⟩
    have hlength := hfirst head' (rest' ++ ':' :: rest) ⟨by rw [htop.1, hhead]; simp, hstart⟩
    rw [hhead, List.length_append, List.length_cons] at hlength
    omega

/-- With a colon behind it code has that one, if it is closed, and those it had. -/
lemma topColon_concat {code head rest : Text} : TopColon (code ++ [':']) head rest ↔
    (head = code ∧ rest = [] ∧ CodeState.start.run code = .start) ∨
      ∃ more, rest = more ++ [':'] ∧ TopColon code head more := by
  constructor
  · rintro ⟨hcode, hstart⟩
    rcases List.append_eq_append_iff.mp hcode with ⟨between, rfl, hlast⟩ | ⟨between, rfl, hlast⟩
    · cases between with
      | nil =>
        obtain ⟨-, rfl⟩ := List.cons.inj hlast
        rw [List.append_nil] at hstart
        exact .inl ⟨List.append_nil code, rfl, hstart⟩
      | cons d between =>
        have hlength := congrArg List.length hlast
        simp at hlength
    · cases between with
      | nil =>
        obtain ⟨-, rfl⟩ := List.cons.inj hlast
        exact .inl ⟨(List.append_nil head).symm, rfl, by rwa [List.append_nil]⟩
      | cons d more =>
        obtain ⟨rfl, rfl⟩ := List.cons.inj hlast
        exact .inr ⟨more, rfl, rfl, hstart⟩
  · rintro (⟨rfl, rfl, hstart⟩ | ⟨more, rfl, rfl, hstart⟩)
    · exact ⟨rfl, hstart⟩
    · exact ⟨by simp, hstart⟩

/-- A colon behind code is that of a header if there is none in it, and the code is closed. -/
lemma showsColon_concat {code : Text} (h : ¬ShowsColon code) : ShowsColon (code ++ [':']) ↔
    (∀ head rest, ¬TopColon code head rest) ∧ CodeState.start.run code = .start := by
  constructor
  · rintro ⟨head, rest, htop, hne, hfirst⟩
    rcases topColon_concat.mp htop with ⟨rfl, rfl, hstart⟩ | ⟨more, rfl, hmore⟩
    · refine ⟨fun head' rest' htop' => ?_, hstart⟩
      have hlength := hfirst head' _ (topColon_concat.mpr (.inr ⟨rest', rfl, htop'⟩))
      rw [htop'.1, List.length_append, List.length_cons] at hlength
      omega
    · refine absurd ⟨head, more, hmore, ?_, fun head' rest' htop' => ?_⟩ h
      · cases more with
        | nil => exact nofun
        | cons c more => exact hne
      · exact hfirst head' _ (topColon_concat.mpr (.inr ⟨rest', rfl, htop'⟩))
  · rintro ⟨hnone, hstart⟩
    refine ⟨code, [], topColon_concat.mpr (.inl ⟨rfl, rfl, hstart⟩), nofun, ?_⟩
    intro head' rest' htop'
    rcases topColon_concat.mp htop' with ⟨rfl, -, -⟩ | ⟨more, -, hmore⟩
    · exact Nat.le_refl _
    · exact absurd hmore (hnone _ _)

lemma not_topColon_of_not_mem {code : Text} (h : ':' ∉ code) (head rest : Text) :
    ¬TopColon code head rest := by
  rintro ⟨rfl, -⟩
  exact absurd (by simp) h

lemma showsColon_of_not_mem {code : Text} (h : ':' ∉ code)
    (hclosed : CodeState.start.run code = .start) : ShowsColon (code ++ [':']) := by
  have hnone := not_topColon_of_not_mem h
  exact (showsColon_concat fun ⟨_, _, htop, _⟩ => hnone _ _ htop).mpr ⟨hnone, hclosed⟩

/-! ## A colon behind code -/

lemma trimStart_colon (t : Text) : trimStart (t ++ [':']) = trimStart t ++ [':'] := by
  rw [trimStart, trimStart, List.dropWhile_append]
  split
  · next hnil =>
    rw [List.isEmpty_iff.mp hnil]
    rfl
  · rfl

lemma trimEnd_colon (t : Text) : trimEnd (t ++ [':']) = t ++ [':'] := by
  induction t with
  | nil => rfl
  | cons c rest ih =>
    rw [trimEnd] at ih
    rw [trimEnd, List.cons_append, dropEnd, ih]
    cases rest <;> rfl

lemma startsWithOneOf_colon (words : List Text) (t : Text) :
    startsWithOneOf words (t ++ [':']) = startsWithOneOf words t := by
  have hword : firstWord (t ++ [':']) = firstWord t := by
    rw [firstWord, firstWord, List.takeWhile_append]
    split
    · next hall =>
      have hcolon : [':'].takeWhile isWordChar = [] := rfl
      rw [hcolon, List.append_nil]
      exact ((List.takeWhile_prefix isWordChar).eq_of_length hall).symm
    · rfl
  rw [startsWithOneOf, hword, startsWithOneOf]

lemma isHeader_colon (code : Text) : isHeader (code ++ [':']) = isHeader code := by
  have hgap : ∀ t : Text, afterGap? (t ++ [':']) = (afterGap? t).map (· ++ [':']) := by
    intro t
    cases t with
    | nil => rfl
    | cons c t =>
      rw [List.cons_append, afterGap?, afterGap?]
      split
      · rw [trimStart_colon]
        rfl
      · rfl
  unfold isHeader
  simp only [trimStart_colon, startsWithOneOf_colon]
  rw [after?_append_stop (by decide)]
  cases after? "async" code.trimStart with
  | none => rfl
  | some rest =>
    simp only [Option.map_some, Option.bind_some, hgap, Option.map_map]
    cases afterGap? rest with
    | none => rfl
    | some rest =>
      simp only [Option.map_some, Option.getD_some, Function.comp, startsWithOneOf_colon]

/-! ## Functions without parameters -/

lemma FunctionHead.addParentheses? {head : Text} (h : FunctionHead head) {rest : Text}
    (hrest : continuesWord rest = false) : addParentheses? (head ++ rest) =
      if trimStart rest = [] ∨ trimStart rest = [':'] then some (head ++ "()" ++ trimStart rest)
      else none := by
  obtain ⟨name, hname⟩ := h.functionName? hrest
  simp only [Repair.addParentheses?, hname, Option.bind_eq_bind, Option.bind_some, before_append,
    Bool.or_eq_true, List.isEmpty_iff, beq_iff_eq]
  rfl

lemma functionHead_of_addParentheses? {code code' : Text} (h : addParentheses? code = some code') :
    ∃ head rest, FunctionHead head ∧ continuesWord rest = false ∧ code = head ++ rest ∧
      (trimStart rest = [] ∨ trimStart rest = [':']) := by
  have hcode := h
  simp only [addParentheses?, Option.bind_eq_bind, Option.bind_eq_some_iff, Prod.exists] at hcode
  obtain ⟨name, rest, hname, -⟩ := hcode
  obtain ⟨head, hhead, hrest, rfl⟩ := functionHead_of_functionName? hname
  refine ⟨head, rest, hhead, hrest, rfl, ?_⟩
  by_contra hnot
  rw [hhead.addParentheses? hrest, if_neg hnot] at h
  cases h

lemma addParentheses?_colon {code : Text} (h : addParentheses? code = none) :
    addParentheses? (code ++ [':']) = none := by
  cases hsome : addParentheses? (code ++ [':']) with
  | none => rfl
  | some code' =>
    obtain ⟨head, rest, hhead, hrest, hcode, htrim⟩ := functionHead_of_addParentheses? hsome
    rcases List.eq_nil_or_concat rest with rfl | ⟨rest, d, rfl⟩
    · have hmem : ':' ∈ head := by
        rw [← List.append_nil head, ← hcode]
        simp
      exact absurd hmem (hhead.isBare.not_mem (by decide) (by decide))
    · rw [List.concat_eq_append] at hcode hrest htrim
      rw [← List.append_assoc] at hcode
      obtain ⟨rfl, hd⟩ := List.append_inj' hcode rfl
      obtain rfl := (List.cons.inj hd).1
      have hcontinues : continuesWord rest = false := by
        cases rest with
        | nil => rfl
        | cons c rest => exact hrest
      have hblank : trimStart rest = [] := by
        rw [trimStart_colon] at htrim
        simpa using htrim
      rw [hhead.addParentheses? hcontinues, if_pos (.inl hblank)] at h
      cases h

/-! ## Drafts of headers -/

lemma run_bare {head : Text} (h : IsBare head) : CodeState.start.run head = .start := by
  induction head with
  | nil => rfl
  | cons c rest ih =>
    have hplain := List.all_eq_true.mp h.isPlain c List.mem_cons_self
    rw [CodeState.run_cons, CodeState.step_plain_start hplain]
    exact ih fun d hd => h d (List.mem_cons_of_mem _ hd)

/-- The head of a function with an empty list of parameters and a colon. -/
def withParameters (head : Text) : Text := head ++ ['(', ')'] ++ [':']

lemma not_mem_parameters {head : Text} (h : IsBare head) : ':' ∉ head ++ ['(', ')'] := by
  simp [h.not_mem (c := ':') (by decide) (by decide)]

lemma showsColon_withParameters {head : Text} (h : IsBare head) :
    ShowsColon (withParameters head) := by
  refine showsColon_of_not_mem (not_mem_parameters h) ?_
  rw [CodeState.run_append, run_bare h]
  rfl

lemma mend_addColon?_code (d : Draft) : (d.mend .colon addColon?).code =
    if hasHeaderColon d.code then d.code else d.code ++ [':'] := by
  unfold Draft.mend addColon?
  cases hasHeaderColon d.code <;> rfl

lemma FunctionHead.headerDraft {head : Text} (h : FunctionHead head) {rest : Text}
    (hrest : continuesWord rest = false) (htrim : trimStart rest = [] ∨ trimStart rest = [':']) :
    (headerDraft (head ++ rest)).code = withParameters head := by
  rw [Repair.headerDraft, if_pos (h.isHeader rest), mend_addColon?_code]
  have hcode : ((Draft.ofCode (head ++ rest)).mend .parentheses Repair.addParentheses?).code =
      head ++ ['(', ')'] ++ trimStart rest := by
    simp only [Draft.mend, Draft.ofCode, h.addParentheses? hrest, if_pos htrim]
    rfl
  rw [hcode]
  obtain hnil | hcolon := htrim
  · have hnone := hasHeaderColon_of_split_none
      (split_eq_none_iff.mpr (not_topColon_of_not_mem (not_mem_parameters h.isBare)))
    rw [hnil, List.append_nil, hnone]
    rfl
  · rw [hcolon]
    exact if_pos (hasHeaderColon_iff.mpr (showsColon_withParameters h.isBare))

lemma headerDraft_of_none {code : Text} (hheader : isHeader code = true)
    (hnone : addParentheses? code = none) :
    (headerDraft code).code = if hasHeaderColon code then code else code ++ [':'] := by
  rw [headerDraft, if_pos hheader, mend_addColon?_code]
  simp only [Draft.mend, Draft.ofCode, hnone]

/-- What becomes of the code of a header. -/
inductive Completed (code : Text) : Text → Prop where
  | parameters {head rest : Text} (function : FunctionHead head)
      (hrest : continuesWord rest = false) (htrim : trimStart rest = [] ∨ trimStart rest = [':'])
      (hcode : code = head ++ rest) : Completed code (withParameters head)
  | same (hnone : addParentheses? code = none) (hshows : ShowsColon code) : Completed code code
  | colon (hnone : addParentheses? code = none) (hhides : ¬ShowsColon code) :
      Completed code (code ++ [':'])

lemma completed_headerDraft {code : Text} (hheader : isHeader code = true) :
    Completed code (headerDraft code).code := by
  cases hsome : addParentheses? code with
  | some code' =>
    obtain ⟨head, rest, hhead, hrest, rfl, htrim⟩ := functionHead_of_addParentheses? hsome
    rw [hhead.headerDraft hrest htrim]
    exact .parameters hhead hrest htrim rfl
  | none =>
    rw [headerDraft_of_none hheader hsome]
    by_cases hcolon : hasHeaderColon code = true
    · rw [if_pos hcolon]
      exact .same hsome (hasHeaderColon_iff.mp hcolon)
    · rw [if_neg hcolon]
      exact .colon hsome fun hshows => hcolon (hasHeaderColon_iff.mpr hshows)

lemma FunctionHead.bare_or_colon {head rest : Text} (h : FunctionHead head)
    (htrim : trimStart rest = [] ∨ trimStart rest = [':']) :
    IsBare (head ++ rest) ∨ ∃ t, IsBare t ∧ head ++ rest = t ++ [':'] := by
  have hrest := trimStart_append rest
  have hbare : IsBare (head ++ rest.indentation) :=
    isBare_append.mpr ⟨h.isBare, isBare_of_isAllBlank (isAllBlank_indentation rest)⟩
  obtain hnil | hcolon := htrim
  · rw [hnil, List.append_nil] at hrest
    rw [hrest]
    exact .inl hbare
  · rw [hcolon] at hrest
    refine .inr ⟨_, hbare, ?_⟩
    rw [List.append_assoc, ← hrest]

lemma showsColon_bare {t : Text} (h : IsBare t) : ShowsColon (t ++ [':']) :=
  showsColon_of_not_mem (h.not_mem (by decide) (by decide)) (run_bare h)

/-- A header keeps its colons if the first one is that of the header. -/
lemma count_colon_iff {code : Text} (hheader : isHeader code = true) (hhas : HasColon code) :
    (headerDraft code).code.count ':' = code.count ':' ↔ ShowsColon code := by
  have hcompleted := completed_headerDraft hheader
  generalize (headerDraft code).code = code' at hcompleted
  cases hcompleted with
  | @parameters head rest function hrest htrim hcode =>
    subst hcode
    have hhead : head.count ':' = 0 :=
      List.count_eq_zero.mpr (function.isBare.not_mem (by decide) (by decide))
    obtain hbare | ⟨t, hbare, heq⟩ := function.bare_or_colon htrim
    · obtain ⟨head', rest', htop, -⟩ := hhas
      exact absurd htop (not_topColon_of_not_mem (hbare.not_mem (by decide) (by decide)) _ _)
    · have ht : t.count ':' = 0 := List.count_eq_zero.mpr (hbare.not_mem (by decide) (by decide))
      rw [heq]
      refine iff_of_true ?_ (showsColon_bare hbare)
      simp [withParameters, hhead, ht]
  | same hnone hshows => exact iff_of_true rfl hshows
  | colon hnone hhides => exact iff_of_false (by simp) hhides

/-- A header is left by a second run if it settled. -/
lemma headerDraft_twice_iff {code : Text} (hheader : isHeader code = true) :
    (headerDraft (headerDraft code).code).code = (headerDraft code).code ↔ SettlesColon code := by
  have hcompleted := completed_headerDraft hheader
  generalize (headerDraft code).code = code' at hcompleted
  cases hcompleted with
  | @parameters head rest function hrest htrim hcode =>
    subst hcode
    have hsame : (headerDraft (withParameters head)).code = withParameters head := by
      have hcontinues : continuesWord ['(', ')', ':'] = false := rfl
      have hcode : withParameters head = head ++ ['(', ')', ':'] := List.append_assoc _ _ _
      have hnone : addParentheses? (withParameters head) = none := by
        rw [hcode, function.addParentheses? hcontinues]
        exact if_neg (by decide)
      have hhead : isHeader (withParameters head) = true := by
        rw [hcode]
        exact function.isHeader _
      rw [headerDraft_of_none hhead hnone]
      exact if_pos (hasHeaderColon_iff.mpr (showsColon_withParameters function.isBare))
    refine iff_of_true hsame ?_
    obtain hbare | ⟨t, hbare, heq⟩ := function.bare_or_colon htrim
    · exact .inr ⟨not_topColon_of_not_mem (hbare.not_mem (by decide) (by decide)), run_bare hbare⟩
    · rw [heq]
      exact .inl (showsColon_bare hbare)
  | same hnone hshows =>
    rw [headerDraft_of_none hheader hnone, if_pos (hasHeaderColon_iff.mpr hshows)]
    exact iff_of_true rfl (.inl hshows)
  | colon hnone hhides =>
    have hheader' : isHeader (code ++ [':']) = true := (isHeader_colon code).trans hheader
    rw [headerDraft_of_none hheader' (addParentheses?_colon hnone), SettlesColon,
      ← showsColon_concat hhides, ← @hasHeaderColon_iff (code ++ [':'])]
    split
    · next hcolon => exact iff_of_true rfl (.inr hcolon)
    · next hcolon => exact iff_of_false (by simp) (not_or.mpr ⟨hhides, hcolon⟩)

/-! ## Lines of headers -/

lemma Completed.recodes {line code' : Text} (h : Completed (codeOfLine line) code') :
    Recodes (codeOfLine line) code' := by
  cases h with
  | @parameters head rest function hrest htrim hcode =>
    refine ⟨noComment_of_not_mem ?_ _, trimEnd_colon _, fun _ => ?_⟩
    · simp [withParameters, function.isBare.not_mem (c := '#') (by decide) (by decide)]
    · rw [withParameters, CodeState.run_append, CodeState.run_append, run_bare function.isBare]
      rfl
  | same hnone hshows => exact ⟨noComment_codeOfLine line, trimEnd_codeOfLine line, id⟩
  | colon hnone hhides =>
    refine ⟨?_, trimEnd_colon _, fun hquote => ?_⟩
    · rw [splitAtCode?_append_eq_none_iff oneChar_startsComment]
      exact ⟨noComment_codeOfLine line, noComment_of_not_mem (by decide) _⟩
    · rw [CodeState.run_append, CodeState.run_cons, CodeState.run_nil,
        CodeState.step_plain_code hquote (by decide)]
      exact hquote

lemma countCode_colon {p : Char → Bool} (hp : p ':' = false) (code : Text) :
    countCode p (code ++ [':']) = countCode p code := by
  have hfrom : ∀ (t : Text) (s : CodeState) (i : Nat),
      (codeCharsFrom s i (t ++ [':'])).countP (fun c => p c.char) =
        (codeCharsFrom s i t).countP fun c => p c.char := by
    intro t
    induction t with
    | nil =>
      intro s i
      simp only [List.nil_append, codeCharsFrom]
      cases (s.step ':').2 with
      | none => rfl
      | some depth => simp [hp]
    | cons c rest ih =>
      intro s i
      simp only [List.cons_append, codeCharsFrom]
      cases (s.step c).2 with
      | none => exact ih _ _
      | some depth => simp only [List.countP_cons, ih]
  exact hfrom code .start 0

lemma openedTriple?_append {more : Text} (hdouble : '"' ∉ more) (hsingle : '\'' ∉ more)
    (code : Text) : openedTriple? (code ++ more) = openedTriple? code := by
  simp only [openedTriple?, leavesOpen, List.find?_cons, List.find?_nil,
    countTriples_append hdouble, countTriples_append hsingle]

/-- A colon behind code changes nothing for the lines below, but that it ends a backslash. -/
lemma afterCode_colon (s : LayoutState) (code : Text) :
    s.afterCode (code ++ [':']) = { s.afterCode code with backslash := false } := by
  have hend : (code ++ [':']).endsWith "\\" = false := by
    simp [endsWith, startsWith, after?]
  simp only [LayoutState.afterCode, countCode_colon (p := isOpener) rfl,
    countCode_colon (p := isCloser) rfl, hend, @openedTriple?_append [':'] (by decide) (by decide)]

lemma afterCode_withParameters {head : Text} (h : IsBare head) :
    LayoutState.start.afterCode (withParameters head) = .start := by
  have hplain := List.all_eq_true.mp h.isPlain
  have hopener : countCode isOpener (head ++ ['(', ')']) = 1 :=
    countCode_plain h.isPlain (fun c hc => by
      have hc := hplain c hc
      simp only [isPlain, Bool.and_eq_true, Bool.not_eq_true'] at hc
      exact hc.1.1.2) _
  have hcloser : countCode isCloser (head ++ ['(', ')']) = 1 :=
    countCode_plain h.isPlain (fun c hc => by
      have hc := hplain c hc
      simp only [isPlain, Bool.and_eq_true, Bool.not_eq_true'] at hc
      exact hc.1.2) _
  have htriple : openedTriple? (head ++ ['(', ')']) = none := by
    have hquote : ∀ q, isBlank q = false → isWordChar q = false → q ∉ ['(', ')'] →
        q ∉ head ++ ['(', ')'] := fun q hblank hword hq hmem =>
      (List.mem_append.mp hmem).elim (h.not_mem hblank hword) hq
    exact openedTriple?_append (hquote _ (by decide) (by decide) (by decide))
      (hquote _ (by decide) (by decide) (by decide)) []
  rw [withParameters, afterCode_colon, LayoutState.afterCode, hopener, hcloser, htriple]
  rfl

lemma Completed.afterCode {code code' : Text} (h : Completed code code')
    (hcode : LayoutState.start.afterCode code = .start) :
    LayoutState.start.afterCode code' = .start := by
  cases h with
  | parameters function => exact afterCode_withParameters function.isBare
  | same => exact hcode
  | colon =>
    rw [afterCode_colon, hcode]
    rfl

lemma Completed.ne_nil {code code' : Text} (h : Completed code code') (hne : code ≠ []) :
    code' ≠ [] := by
  cases h with
  | parameters => simp [withParameters]
  | same => exact hne
  | colon => simp

lemma revisedLine_of_not_header {line : Text} (h : isHeader (codeOfLine line) = false) :
    revisedLine headerDraft line = line := by
  rw [revisedLine, headerDraft, h]
  exact splitComment_append line

lemma keepsWhole_headerDraft : KeepsWhole headerDraft := by
  intro line hline
  cases hheader : isHeader (codeOfLine line) with
  | false => rw [revisedLine_of_not_header hheader, hline]
  | true =>
    have hcompleted := completed_headerDraft hheader
    have hne : codeOfLine line ≠ [] := by
      intro hnil
      rw [hnil] at hheader
      exact absurd hheader (by decide)
    have hcode : codeOfLine (revisedLine headerDraft line) = (headerDraft (codeOfLine line)).code :=
      hcompleted.recodes.code_eq
    rw [LayoutState.step_of_code hne] at hline
    rw [LayoutState.step_of_code (hcode ▸ hcompleted.ne_nil hne), hcode,
      hcompleted.afterCode (Prod.mk.inj hline).1]
    rfl

lemma silent_headerDraft : Silent headerDraft := by
  intro code hsame
  cases hheader : isHeader code with
  | false =>
    rw [headerDraft, hheader]
    rfl
  | true =>
    cases hsome : addParentheses? code with
    | some code' =>
      obtain ⟨head, rest, hhead, hrest, rfl, htrim⟩ := functionHead_of_addParentheses? hsome
      rw [hhead.headerDraft hrest htrim, withParameters, List.append_assoc] at hsame
      rw [← List.append_cancel_left hsame] at htrim
      exact absurd htrim (by decide)
    | none =>
      have hdraft : headerDraft code = (Draft.ofCode code).mend .colon addColon? := by
        rw [headerDraft, if_pos hheader]
        simp only [Draft.mend, Draft.ofCode, hsome]
      rw [hdraft, mend_addColon?_code] at hsame
      rw [hdraft, Draft.mend]
      cases hcolon : hasHeaderColon code with
      | true => simp only [Draft.ofCode, addColon?, hcolon, if_true]
      | false => exact absurd hsame (by simp [Draft.ofCode, hcolon])

/-- A line of a text, counted from zero, that is the header of a block and ends with its line. -/
def HeaderAt (text : Text) (k : Nat) (line : Text) : Prop :=
  text.lines[k]? = some line ∧ (layout text.lines)[k]? = some ⟨.statement, true⟩ ∧
    isHeader (codeOfLine line) = true

/-- A header that has its colon gets no other one exactly if no `:=` hides it. A second run leaves a
text alone, without a word, exactly if each of its headers has its colon after one. -/
theorem headers_colon_iff (text : Text) :
    (∀ k line, HeaderAt text k line → HasColon (codeOfLine line) →
      ∃ line', (headers text).text.lines[k]? = some line' ∧
        (line'.count ':' = line.count ':' ↔ ShowsColon (codeOfLine line))) ∧
    (headers (headers text).text = ⟨(headers text).text, []⟩ ↔
      ∀ k line, HeaderAt text k line → SettlesColon (codeOfLine line)) := by
  have hone : ∀ code, OneLine code → OneLine (headerDraft code).code := fun code h =>
    (headerDraft_tells h).oneLine
  constructor
  · rintro k line ⟨hline, hwhole, hheader⟩ hhas
    refine ⟨revisedLine headerDraft line, ?_, ?_⟩
    · rw [headers, lines_reviseSites hone, getElem?_revisedLines, hline, Option.map_some]
      exact congrArg some (if_pos hwhole)
    · have hcount : line.count ':' =
          (codeOfLine line).count ':' + (splitComment line).2.count ':' := by
        conv_lhs => rw [← splitComment_append line, List.count_append]
        rfl
      rw [hcount, revisedLine, List.count_append, Nat.add_right_cancel_iff]
      exact count_colon_iff hheader hhas
  · refine (reviseSites_twice_iff hone silent_headerDraft keepsWhole_headerDraft text).trans ?_
    constructor
    · rintro h k line ⟨hline, hwhole, hheader⟩
      have hrecodes := (completed_headerDraft hheader).recodes
      exact (headerDraft_twice_iff hheader).mp
        (hrecodes.revisedLine_twice_iff.mp (h k line hline hwhole))
    · intro h k line hline hwhole
      cases hheader : isHeader (codeOfLine line) with
      | false => rw [revisedLine_of_not_header hheader, revisedLine_of_not_header hheader]
      | true =>
        have hrecodes := (completed_headerDraft hheader).recodes
        exact hrecodes.revisedLine_twice_iff.mpr
          ((headerDraft_twice_iff hheader).mpr (h k line ⟨hline, hwhole, hheader⟩))

/-- Behind `:=` the colon of a header is not seen: each run adds one. -/
theorem headers_colon_behind_assignment :
    HeaderAt "if x := f():\n    pass" 0 "if x := f():" ∧ HasColon (codeOfLine "if x := f():") ∧
      (headers "if x := f():\n    pass").text = "if x := f()::\n    pass" ∧
      (headers (headers "if x := f():\n    pass").text).text = "if x := f():::\n    pass" := by
  refine ⟨⟨by decide, by decide, by decide⟩, ⟨"if x := f()", "", ⟨by decide, by decide⟩, nofun⟩, ?_⟩
  decide

end Marginalia.Repair
