import Marginalia.Proofs.Fields
import Marginalia.Proofs.FirstMarks
import Marginalia.Proofs.FoundKinds
import Marginalia.Proofs.LongerTexts
import Marginalia.Proofs.ReachedPlaces

/-!
# Headers and what they open

What a header is found to be stays with an opening behind it if its readings do: each of them applies
to both lines or to none, up to the one that finds the header. For branches, loops and switches this
is shown here. They begin with a word that no definition begins with.
-/

namespace Marginalia

/-- Headers whose bodies stand in braces: functions, branches, loops and switches. -/
def NodeKind.isHeader : NodeKind → Bool
  | .function _ | .conditional .. | .forLoop .. | .countingLoop _ | .whileLoop _ | .switch .. => true
  | _ => false

namespace Braced

open Pattern Text

variable {e b t : Text}

/-! ## Parentheses in longer texts -/

lemma splitAtChar?_append {c : Char} (he : c ∉ e) (t : Text) : splitAtChar? c (t ++ e) =
    (splitAtChar? c t).map fun (head, tail) => (head, tail ++ e) := by
  induction t with
  | nil =>
    rw [List.nil_append, splitAtChar?, Option.map_none, Option.eq_none_iff_forall_ne_some]
    rintro ⟨head, tail⟩ hsplit
    obtain ⟨-, rest, rfl, rfl⟩ := splitAtChar?_eq_some_iff.mp hsplit
    exact he (List.mem_append_right head List.mem_cons_self)
  | cons d t ih =>
    rw [List.cons_append, splitAtChar?, splitAtChar?]
    split
    · rfl
    · rw [ih, Option.map_map, Option.map_map]
      rfl

lemma splitAtClose?_eq_none {closer : Char} (he : closer ∉ e) (opener : Char) (s : CodeState) (count : Nat) :
    splitAtClose? opener closer s count e = none := by
  induction e generalizing s count with
  | nil => rfl
  | cons d e ih =>
    rw [List.mem_cons, not_or] at he
    have hd : ¬(d == closer) = true := fun heq => he.1 (beq_iff_eq.mp heq).symm
    rw [splitAtClose?]
    simp only [ih he.2, hd, Option.map_none]
    split
    · rfl
    · split
      · rfl
      · rfl

lemma splitAtClose?_append {closer : Char} (he : closer ∉ e) (opener : Char) (s : CodeState)
    (count : Nat) (t : Text) : splitAtClose? opener closer s count (t ++ e) =
      (splitAtClose? opener closer s count t).map fun (head, tail) => (head, tail ++ e) := by
  induction t generalizing s count with
  | nil => exact splitAtClose?_eq_none he opener s count
  | cons d t ih =>
    rw [List.cons_append, splitAtClose?, splitAtClose?]
    simp only [ih, Option.map_map]
    split
    · rw [Option.map_map]
      rfl
    · split
      · rw [Option.map_map]
        rfl
      · split
        · split
          · rfl
          · rw [Option.map_map]
            rfl
        · rw [Option.map_map]
          rfl

/-- What stands in the first parentheses does not change with what follows, unless that holds
parentheses. -/
lemma firstGroup?_append (hopen : '(' ∉ e) (hclose : ')' ∉ e) (t : Text) :
    firstGroup? (t ++ e) = firstGroup? t := by
  rw [firstGroup?, firstGroup?, splitAtChar?_append hopen]
  cases hsplit : splitAtChar? '(' t with
  | none => rfl
  | some pair =>
    obtain ⟨head, tail⟩ := pair
    obtain ⟨-, rest, rfl, -⟩ := splitAtChar?_eq_some_iff.mp hsplit
    have hpartner : splitAtPartner? ('(' :: rest ++ e) =
        (splitAtPartner? ('(' :: rest)).map fun (head, tail) => (head, tail ++ e) :=
      splitAtClose?_append hclose '(' .start 0 ('(' :: rest)
    simp only [Option.map_some, Option.bind_some, bracketed?]
    rw [hpartner]
    cases splitAtPartner? ('(' :: rest) with
    | none => rfl
    | some split => rfl

lemma not_mem_of_opening (he : ∀ c ∈ e, isOpening c = true) {c : Char} (hc : isOpening c = false) :
    c ∉ e := by
  intro hmem
  rw [he c hmem] at hc
  cases hc

lemma firstGroup?_opened (he : ∀ c ∈ e, isOpening c = true) (t : Text) :
    firstGroup? (t ++ e) = firstGroup? t :=
  firstGroup?_append (not_mem_of_opening he (by decide)) (not_mem_of_opening he (by decide)) t

lemma paramsOf_opened (he : ∀ c ∈ e, isOpening c = true) (t : Text) :
    paramsOf (t ++ e) = paramsOf t := by
  rw [paramsOf, paramsOf, firstGroup?_opened he]

lemma groupOf_opened (he : ∀ c ∈ e, isOpening c = true) (t : Text) : groupOf (t ++ e) = groupOf t := by
  rw [groupOf, groupOf, firstGroup?_opened he]

/-- Without a brace no body follows. -/
lemma bodyFollows_eq_false (h : '{' ∉ t) : bodyFollows t = false := by
  rw [bodyFollows]
  split
  · rfl
  · next inside behind hbracket =>
    have hrest : '{' ∉ trimStart behind := fun hmem =>
      h ((infix_of_bracketed? hbracket).2.subset ((List.dropWhile_suffix isBlank).subset hmem))
    have hpart : (trimStart behind).hasPart "\x7b" = false := by
      rw [Bool.eq_false_iff, ne_eq, hasPart_iff (by decide)]
      exact fun hin => hrest (hin.subset List.mem_cons_self)
    have hstart : (trimStart behind).startsWith "\x7b" = false := by
      rw [Bool.eq_false_iff, ne_eq, startsWith_iff]
      rintro ⟨rest, heq⟩
      exact hrest (heq ▸ List.mem_append_left _ List.mem_cons_self)
    dsimp only
    rw [hstart, hpart, Bool.and_false, Bool.false_and, Bool.or_false]

/-! ## Readings of a header -/

/-- What a line is found to be, if that is a header, is what another line is found to be. -/
def Stays (found found' : Option Classified) : Prop :=
  ∀ c, found = some c → c.1.isHeader = true → found' = some c

/-- Another reading applies where a reading does and finds the same header. -/
structure Follows (found found' : Option Classified) : Prop where
  none : found = none → found' = none
  stays : Stays found found'

section

variable {found : Option Classified}

lemma Follows.refl (found : Option Classified) : Follows found found :=
  ⟨id, fun _ h _ => h⟩

lemma Follows.of_eq {found' : Option Classified} (h : found' = found) : Follows found found' := by
  rw [h]
  exact .refl found

lemma Stays.of_finds {found' : Option Classified} (h : Finds (fun c => c.1.isHeader = false) found) :
    Stays found found' := by
  intro c hc hheader
  rw [h c hc] at hheader
  cases hheader

lemma Follows.of_none {found' : Option Classified} (h : Finds (fun c => c.1.isHeader = false) found)
    (h' : found' = Option.none) : Follows found found' :=
  ⟨fun _ => h', .of_finds h⟩

/-- A reading that finds no headers is followed where its form matches in both lines or in none. -/
lemma Follows.of_startsText {form : Pattern} {find find' : Matching → Classified}
    (hform : form.startsText t = form.startsText b) (hfind : ∀ m, (find m).1.isHeader = false) :
    Follows ((form.matchStart? b).map find) ((form.matchStart? t).map find') := by
  refine ⟨fun hnone => ?_, .of_finds (finds_map fun m _ => hfind m)⟩
  rw [Option.map_eq_none_iff] at hnone ⊢
  rw [startsText, startsText, hnone] at hform
  exact Option.isNone_iff_eq_none.mp (Option.isSome_eq_false_iff.mp hform)

lemma firstOf_cons (r : Unit → Option Classified) (rs : List (Unit → Option Classified)) :
    firstOf (r :: rs) = (r ()).or (firstOf rs) := by
  rw [firstOf, List.findSome?_cons]
  cases r () with
  | none => rfl
  | some c => rfl

lemma firstOf_nil : firstOf [] = none := rfl

variable {found' rest rest' : Option Classified}

/-- A header that is found among readings stays if the readings before are followed. -/
lemma Follows.or (h : Follows found found') (hrest : found = Option.none → Stays rest rest') :
    Stays (found.or rest) (found'.or rest') := by
  intro c hc hheader
  cases hfound : found with
  | none =>
    rw [hfound, Option.none_or] at hc
    rw [h.none hfound, Option.none_or]
    exact hrest hfound c hc hheader
  | some c' =>
    rw [hfound, Option.some_or] at hc
    rw [h.stays c (hfound.trans hc) hheader, Option.some_or]

lemma Stays.or (h : Stays found found') (hrest : Finds (fun c => c.1.isHeader = false) rest) :
    Stays (found.or rest) (found'.or rest') := by
  intro c hc hheader
  cases hfound : found with
  | none =>
    rw [hfound, Option.none_or] at hc
    exact Stays.of_finds hrest c hc hheader
  | some c' =>
    rw [hfound, Option.some_or] at hc
    rw [h c (hfound.trans hc) hheader, Option.some_or]

end

/-! ## Words of control flow -/

/-- The words that branches, loops and switches begin with. -/
def controlWords : List Text := ["if", "else", "for", "while", "switch", "forawait"]

/-- A text begins with such a word, and a parenthesis opens behind it; right behind it, if that is the
word that is made of two. -/
structure BeginsWith (word t : Text) : Prop where
  known : word ∈ controlWords
  rest : ∃ rest, t = word ++ rest ∧ continuesWord rest = false ∧ '(' ∈ rest
  joined : word = "forawait" →
    ∃ gap rest, t = word ++ (gap ++ '(' :: rest) ∧ gap.isAllBlank = true

lemma BeginsWith.append {word : Text} (h : BeginsWith word b) (e : Text) :
    BeginsWith word (b ++ e) := by
  refine ⟨h.known, ?_, fun hword => ?_⟩
  · obtain ⟨rest, rfl, hends, hparen⟩ := h.rest
    refine ⟨rest ++ e, List.append_assoc _ _ _, ?_, List.mem_append_left e hparen⟩
    cases rest with
    | nil => cases hparen
    | cons c rest => exact hends
  · obtain ⟨gap, rest, rfl, hgap⟩ := h.joined hword
    exact ⟨gap, rest ++ e, by simp only [List.append_assoc, List.cons_append], hgap⟩

/-- The forms that match no text with such a word, told by two characters. -/
def otherForms : List Pattern :=
  [scriptClass, scriptInterface, scriptType, scriptEnum, scriptFunction, scriptArrow,
    scriptConstructor, scriptRequire, includeForm, defineForm, directiveForm, namespaceForm, usingForm,
    classForm, typedefRecordForm, typedefForm, recordForm, templateForm, globalForm, doForm]

lemma BeginsWith.fitsNone {word : Text} (h : BeginsWith word t) :
    ∀ form ∈ otherForms, form.matchStart? t = none := by
  have hnone : (otherForms.all fun form => (form.matchStart? t).isNone) = true := by
    obtain ⟨rest, rfl, -, -⟩ := h.rest
    have hknown := h.known
    simp only [controlWords, List.mem_cons, List.not_mem_nil, or_false] at hknown
    rcases hknown with rfl | rfl | rfl | rfl | rfl | rfl
    · rfl
    · rfl
    · rfl
    · rfl
    · rfl
    · rfl
  intro form hform
  exact Option.isNone_iff_eq_none.mp (List.all_eq_true.mp hnone form hform)

lemma BeginsWith.startsText_eq_false {word : Text} (h : BeginsWith word t) {form : Pattern}
    (hform : form ∈ otherForms) : form.startsText t = false := by
  rw [startsText, h.fitsNone form hform]
  rfl

section

variable {α : Type} {m : Matching} {k : Matching → Option α} {a : α}

lemma reaches_paren (h : matchThen blanks m (fun m => matchThen (lit ['(']) m k) = some a) :
    ∃ gap rest, m.rest = gap ++ '(' :: rest ∧ gap.isAllBlank = true := by
  obtain ⟨gap, m', hrest, hgap, -, hparen⟩ := reaches_run h
  obtain ⟨m'', hrest', -, -⟩ := reaches_lit hparen
  exact ⟨gap, m''.rest, by rw [hrest, hrest']; rfl, hgap⟩

end

lemma beginsWith_of_paren {word gap : Text} (hword : word ∈ controlWords)
    (hgap : gap.isAllBlank = true) (rest : Text) : BeginsWith word (word ++ (gap ++ '(' :: rest)) where
  known := hword
  rest := ⟨_, rfl, continuesWord_blanks_cons hgap (by decide) rest,
    List.mem_append_right gap List.mem_cons_self⟩
  joined := fun _ => ⟨gap, rest, rfl, hgap⟩

/-- The forms of branches, loops and switches that are a word and a parenthesis. -/
lemma beginsWith_of_form (word : Text) (hword : word ∈ controlWords)
    (h : (lit word ++ blanks ++ lit ['(']).startsText t = true) : BeginsWith word t := by
  obtain ⟨m, hm⟩ := Option.isSome_iff_exists.mp h
  have hlit : matchThen (lit word) ⟨none, t, []⟩
    (fun m => matchThen blanks m fun m => matchThen (lit ['(']) m some) = some m := hm
  obtain ⟨m', hrest, -, hparen⟩ := reaches_lit hlit
  obtain ⟨gap, rest, hrest', hgap⟩ := reaches_paren hparen
  obtain rfl : t = word ++ (gap ++ '(' :: rest) := by rw [← hrest']; exact hrest
  exact beginsWith_of_paren hword hgap rest

lemma beginsWith_of_elseIf (h : elseIfForm.startsText t = true) : BeginsWith "else" t := by
  obtain ⟨m, hm⟩ := Option.isSome_iff_exists.mp h
  have hlit : matchThen (lit "else") ⟨none, t, []⟩ (fun m => matchThen (char isBlank) m fun m =>
    matchThen blanks m fun m => matchThen (lit "if") m fun m =>
      matchThen blanks m fun m => matchThen (lit ['(']) m some) = some m := hm
  obtain ⟨m₁, hrest, -, hgap⟩ := reaches_lit hlit
  obtain ⟨c, m₂, hrest₁, hc, -, hblanks⟩ := reaches_char hgap
  obtain ⟨more, m₃, hrest₂, -, -, hword⟩ := reaches_run hblanks
  obtain ⟨m₄, hrest₃, -, hparen⟩ := reaches_lit hword
  obtain ⟨gap, rest, hrest₄, -⟩ := reaches_paren hparen
  refine ⟨by decide, ⟨m₁.rest, hrest, ?_, ?_⟩, nofun⟩
  · rw [hrest₁]
    exact isWordChar_of_isBlank hc
  · rw [hrest₁, hrest₂, hrest₃, hrest₄]
    simp

/-- A loop over awaited values may be written as one word. -/
lemma beginsWith_of_for (h : forForm.startsText t = true) : BeginsWith "for" t ∨
    ∃ gap rest, t = "forawait" ++ (gap ++ '(' :: rest) ∧ gap.isAllBlank = true := by
  obtain ⟨m, hm⟩ := Option.isSome_iff_exists.mp h
  have hlit : matchThen (lit "for") ⟨none, t, []⟩ (fun m => matchThen blanks m fun m =>
    matchThen (opt ("await" ++ blanks)) m fun m => matchThen (lit ['(']) m some) = some m := hm
  obtain ⟨m₁, hrest, -, hgap⟩ := reaches_lit hlit
  obtain ⟨gap, m₂, hrest₁, hblank, -, hmore⟩ := reaches_run hgap
  obtain rfl : t = "for" ++ (gap ++ m₂.rest) := by rw [← hrest₁]; exact hrest
  rcases reaches_opt hmore with hawait | hparen
  · have hlit : matchThen (lit "await") m₂
      (fun m => matchThen blanks m fun m => matchThen (lit ['(']) m some) = some m := hawait
    obtain ⟨m₃, hrest₂, -, hparen⟩ := reaches_lit hlit
    obtain ⟨gap', rest, hrest₃, hblank'⟩ := reaches_paren hparen
    rw [hrest₂, hrest₃]
    cases gap with
    | nil => exact .inr ⟨gap', rest, rfl, hblank'⟩
    | cons c gap =>
      refine .inl ⟨by decide, ⟨_, rfl, ?_, by simp⟩, nofun⟩
      exact isWordChar_of_isBlank (List.all_eq_true.mp hblank c List.mem_cons_self)
  · obtain ⟨m₃, hrest₂, -, -⟩ := reaches_lit hparen
    rw [hrest₂]
    exact .inl (beginsWith_of_paren (by decide) hblank m₃.rest)

/-! ## Branches, loops and switches -/

/-- The forms of the headers among the statements of all languages. -/
def headerForms : List Pattern := [elseIfForm, ifForm, forForm, whileForm, switchForm]

lemma keeps_headerForms : (elseForm :: headerForms).all keeps = true := by decide

lemma exists_beginsWith {form : Pattern} (hform : form ∈ headerForms)
    (h : form.startsText t = true) : ∃ word, BeginsWith word t := by
  simp only [headerForms, List.mem_cons, List.not_mem_nil, or_false] at hform
  rcases hform with rfl | rfl | rfl | rfl | rfl
  · exact ⟨_, beginsWith_of_elseIf h⟩
  · exact ⟨_, beginsWith_of_form "if" (by decide) h⟩
  · rcases beginsWith_of_for h with h | ⟨gap, rest, rfl, hgap⟩
    · exact ⟨_, h⟩
    · exact ⟨_, beginsWith_of_paren (by decide) hgap rest⟩
  · exact ⟨_, beginsWith_of_form "while" (by decide) h⟩
  · exact ⟨_, beginsWith_of_form "switch" (by decide) h⟩

lemma exists_headerForm (s : Scanner) (t : Text) (afterClose : Bool) :
    Finds (fun c => c.1.isHeader = true →
        c.2 = .control ∧ ∃ form ∈ headerForms, form.startsText t = true)
      (classifyControl s t afterClose) := by
  unfold classifyControl
  refine finds_cases (fun h => finds_some fun _ => ⟨rfl, _, by simp [headerForms], h⟩) ?_
  refine finds_cases (fun h => finds_some fun _ => ⟨rfl, _, by simp [headerForms], h⟩) ?_
  refine finds_ite (finds_some nofun) ?_
  refine finds_cases (fun h => finds_some fun _ => ⟨rfl, _, by simp [headerForms], h⟩) ?_
  refine finds_cases (fun h => finds_ite finds_none
    (finds_some fun _ => ⟨rfl, _, by simp [headerForms], h⟩)) ?_
  refine finds_ite (finds_some nofun) ?_
  refine finds_cases (fun h => finds_some fun _ => ⟨rfl, _, by simp [headerForms], h⟩) ?_
  split
  · exact finds_some nofun
  · refine finds_ite (finds_some nofun) (finds_ite (finds_some nofun)
      (finds_ite (finds_some nofun) (finds_ite (finds_some nofun) ?_)))
    split
    · exact finds_some nofun
    · exact finds_map fun _ _ => nofun

lemma stays_classifyControl (he : ∀ c ∈ e, isOpening c = true) (hb : b.endsWith ";" = false)
    (hbe : (b ++ e).endsWith ";" = false) (s : Scanner) (afterClose : Bool) :
    Stays (classifyControl s b afterClose) (classifyControl s (b ++ e) afterClose) := by
  intro c hc hheader
  obtain ⟨-, form, hform, hmatch⟩ := exists_headerForm s b afterClose c hc hheader
  obtain ⟨word, hword⟩ := exists_beginsWith hform hmatch
  have hdo : doForm.startsText b = false := hword.startsText_eq_false (by simp [otherForms])
  have hdo' : doForm.startsText (b ++ e) = false :=
    (hword.append e).startsText_eq_false (by simp [otherForms])
  have hforms : ∀ form ∈ elseForm :: headerForms, form.startsText (b ++ e) = form.startsText b :=
    fun form hform => startsText_opened (List.all_eq_true.mp keeps_headerForms form hform) he b
  simp only [headerForms, List.forall_mem_cons] at hforms
  obtain ⟨helse, helseIf, hif, hfor, hwhile, hswitch, -⟩ := hforms
  unfold classifyControl at hc ⊢
  rw [hdo, hb] at hc
  rw [helseIf, hif, helse, hfor, hwhile, hswitch, hdo', hbe, groupOf_opened he]
  simp only [Bool.and_false, Bool.false_and, Bool.false_eq_true, if_false] at hc ⊢
  by_cases h₁ : elseIfForm.startsText b = true
  · rwa [if_pos h₁] at hc ⊢
  by_cases h₂ : ifForm.startsText b = true
  · rwa [if_neg h₁, if_pos h₂] at hc ⊢
  by_cases h₃ : elseForm.startsText b = true
  · rwa [if_neg h₁, if_neg h₂, if_pos h₃] at hc ⊢
  by_cases h₄ : forForm.startsText b = true
  · rwa [if_neg h₁, if_neg h₂, if_neg h₃, if_pos h₄] at hc ⊢
  by_cases h₅ : whileForm.startsText b = true
  · rwa [if_neg h₁, if_neg h₂, if_neg h₃, if_neg h₄, if_pos h₅] at hc ⊢
  by_cases h₆ : switchForm.startsText b = true
  · rwa [if_neg h₁, if_neg h₂, if_neg h₃, if_neg h₄, if_neg h₅, if_pos h₆] at hc ⊢
  simp only [headerForms, List.mem_cons, List.not_mem_nil, or_false] at hform
  rcases hform with rfl | rfl | rfl | rfl | rfl
  · exact absurd hmatch h₁
  · exact absurd hmatch h₂
  · exact absurd hmatch h₄
  · exact absurd hmatch h₅
  · exact absurd hmatch h₆

end Braced
end Marginalia
