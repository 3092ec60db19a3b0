import Marginalia.Proofs.ExchangedPieces

/-!
# Comparisons with `None`

A comparison with `None` that was exchanged is none any more, and no exchange makes another one:
what is put in its place starts with a blank and a word, and so neither goes on with a sign nor
completes a comparison around it. For the same reason it makes no function lack its parameters.
-/

namespace Marginalia.Repair

open Text

/-- A text, read from a state, without comparisons with `None` outside literals. -/
def SparesNone (sign : Text) (s : CodeState) : Text → Prop
  | [] => True
  | c :: rest => (s.quote.isSome = false → ¬ComparesNone sign (c :: rest)) ∧
      SparesNone sign (s.step c).1 rest

lemma SparesNone.of_append {sign : Text} {s : CodeState} {head t : Text}
    (h : SparesNone sign s (head ++ t)) : SparesNone sign (s.run head) t := by
  induction head generalizing s with
  | nil => exact h
  | cons c rest ih => exact ih h.2

lemma substitute_of_spares {sign new t : Text} (h : SparesNone sign .start t) :
    substitute (noneRule sign new) t = t := by
  have hfrom : ∀ (t : Text) (b : Before), SparesNone sign b.code t →
      substituteFrom (noneRule sign new) b 0 t = t := by
    intro t
    induction t with
    | nil => exact fun _ _ => rfl
    | cons c rest ih =>
      intro b h
      have hnone : noneRule sign new b (c :: rest) = none := noneRule_eq_none_iff.mpr h.1
      rw [substituteFrom, hnone, ih (b.step c) h.2]
  exact hfrom t .start h

/-! ## What an exchange leaves -/

section

variable {sign new sign' new' : Text}

/-- Whether every part of a piece that goes to its end holds a word, and no sign before it. -/
def isWordy : Text → Bool
  | [] => true
  | c :: rest => (trimStart (c :: rest)).head?.any isWordChar && isWordy rest

/-- No comparison starts in such a piece. -/
lemma sparesNone_wordy {piece : Text} (hpiece : isWordy piece = true) (hsign : NoneTest sign new)
    {s : CodeState} {out : Text} (h : SparesNone sign (s.run piece) out) :
    SparesNone sign s (piece ++ out) := by
  induction piece generalizing s with
  | nil => exact h
  | cons c rest ih =>
    rw [isWordy, Bool.and_eq_true] at hpiece
    obtain ⟨hword, hrest⟩ := hpiece
    refine ⟨fun _ hcompares => ?_, ih hrest h⟩
    obtain ⟨behind, _, hbehind, -, -⟩ := hcompares
    have hblank : isAllBlank (c :: rest) = false := by
      by_contra hblank
      rw [Bool.not_eq_false] at hblank
      rw [trimStart_of_isAllBlank hblank] at hword
      cases hword
    have htrim : trimStart (c :: rest ++ out) = sign ++ behind :=
      (after?_eq_some_iff _ _ _).mp hbehind
    rw [trimStart_margin hblank] at htrim
    cases hstart : trimStart (c :: rest) with
    | nil =>
      rw [hstart] at hword
      cases hword
    | cons d more =>
      rw [hstart] at hword htrim
      cases hsign
      · obtain ⟨rfl, -⟩ := List.cons.inj htrim
        cases hword
      · obtain ⟨rfl, -⟩ := List.cons.inj htrim
        cases hword

/-- An exchange leaves no comparison of its own kind, and makes none of the other kind. -/
lemma Exchanged.sparesNone {s : CodeState} {pieces : List (Text × Text)} (h : NoneTest sign new)
    (h' : NoneTest sign' new') (hpieces : Exchanged sign new s pieces)
    (hspares : sign' = sign ∨ SparesNone sign' s (olds pieces)) :
    SparesNone sign' s (news pieces) := by
  induction hpieces with
  | nil => trivial
  | @keep s c pieces hnone hrest ih =>
    refine ⟨fun hquoted hout => ?_, ih (hspares.imp_right fun hspares => hspares.2)⟩
    have hback := (Exchanged.keep hnone hrest).comparesNone_of_news h h' hout
    obtain rfl | hspares := hspares
    · exact hnone (Option.isNone_iff_eq_none.mp (Option.isSome_eq_false_iff.mp hquoted)) hback
    · exact hspares.1 hquoted hback
  | @test s gap gap' pieces hquote hgap hgap' hends hrest ih =>
    obtain ⟨hold, hempty, hnew, hempty'⟩ := h.piece hgap hgap'
    have hwordy : isWordy new = true := by cases h <;> decide
    refine sparesNone_wordy hwordy h' ?_
    rw [run_of_no_brackets hquote hnew hempty']
    refine ih (hspares.imp_right fun hspares => ?_)
    have hbehind := hspares.of_append
    rwa [run_of_no_brackets hquote hold hempty] at hbehind

lemma sparesNone_substitute (h : NoneTest sign new) (h' : NoneTest sign' new') {code : Text}
    (hspares : sign' = sign ∨ SparesNone sign' .start code) :
    SparesNone sign' .start (substitute (noneRule sign new) code) := by
  obtain ⟨pieces, hpieces, rfl, hnews⟩ := exists_exchanged h code
  rw [hnews]
  exact hpieces.sparesNone h h' hspares

end

/-! ## Parameters that are lacking -/

/-- A front part of the outcome that does not end inside what was put, and does not hold it, was
there before. -/
lemma exchanged_front {sign new t out rest : Text} {b : Before}
    (h : Substituted (noneRule sign new) b t out) (front : Text) (hout : out = front ++ rest)
    (hend : ∀ c, front.getLast? = some c → c ∉ new) (hpiece : ¬new <:+: front) :
    ∃ rest', t = front ++ rest' := by
  induction h generalizing front with
  | nil => exact ⟨[], by rw [(List.append_eq_nil_iff.mp hout.symm).1]; rfl⟩
  | @keep b c t out _ _ ih =>
    cases front with
    | nil => exact ⟨_, rfl⟩
    | cons d front =>
      obtain ⟨rfl, rfl⟩ := List.cons.inj hout
      have hend' : ∀ e, front.getLast? = some e → e ∉ new := fun e he => by
        refine hend e ?_
        rw [List.getLast?_cons, he]
        rfl
      have hpiece' : ¬new <:+: front := fun hin =>
        hpiece (hin.trans (List.suffix_cons c front).isInfix)
      obtain ⟨rest', rfl⟩ := ih front rfl hend' hpiece'
      exact ⟨rest', rfl⟩
  | @swap b old put t out _ hr _ _ =>
    obtain ⟨-, rfl, -⟩ := eq_of_noneRule hr
    cases hlast : front.getLast? with
    | none => exact ⟨_, by rw [List.getLast?_eq_none_iff.mp hlast]; rfl⟩
    | some c =>
      rcases List.append_eq_append_iff.mp hout with ⟨more, rfl, -⟩ | ⟨more, hput, -⟩
      · exact absurd (List.prefix_append put more).isInfix hpiece
      · refine absurd ?_ (hend c hlast)
        rw [hput]
        exact List.mem_append_left _ (List.mem_of_getLast? hlast)

/-- No test for `None` stands in the head of a function up to its parameters. -/
lemma not_infix_of_function {function tail more : Text} (hfunction : FunctionHead function)
    (htail : 'N' ∉ tail) (hmore : 'N' ∈ more) :
    ¬(' ' :: 'i' :: 's' :: ' ' :: more) <:+: function ++ tail := by
  obtain ⟨start, name, ⟨margin, async, gap, rfl, hmargin, hasync, -, hgap⟩, -, hname, rfl⟩ :=
    hfunction
  have hblank : ∀ t : Text, t.isAllBlank = true → 'i' ∉ t := fun _ ht =>
    not_mem_of_isAllBlank ht (by decide)
  have hasyncMark : 'i' ∉ async := by
    obtain rfl | ⟨gap, rfl, -, hgap⟩ := hasync
    · exact List.not_mem_nil
    · exact List.mem_append.not.mpr (not_or.mpr ⟨by decide, hblank gap hgap⟩)
  have hstart : 'i' ∉ margin ++ (async ++ ("def" ++ gap)) := by
    simp only [List.mem_append, not_or]
    exact ⟨hblank margin hmargin, hasyncMark, by decide, hblank gap hgap⟩
  have hspace : ' ' ∉ name := fun hmem => by
    have hword := List.all_eq_true.mp hname ' ' hmem
    cases hword
  generalize margin ++ (async ++ ("def" ++ gap)) = start at hstart
  rintro ⟨front, back, heq⟩
  have hword : (front ++ [' ', 'i', 's']) ++ (' ' :: (more ++ back)) =
      (start ++ name) ++ tail := by simpa using heq
  rcases List.append_eq_append_iff.mp hword with ⟨between, hhead, hbehind⟩ | ⟨between, -, hbehind⟩
  · cases between with
    | nil => exact htail (by rw [show tail = _ from hbehind.symm]; simp [hmore])
    | cons c between =>
      obtain ⟨rfl, -⟩ := List.cons.inj hbehind
      -- The blank before `None` would be in the name, or the letters before it in front of that.
      have hhead' : start ++ name = (front ++ [' ']) ++ ('i' :: 's' :: ' ' :: between) := by
        simpa using hhead
      rcases List.append_eq_append_iff.mp hhead' with ⟨more', -, hname'⟩ | ⟨more', hstart', hname'⟩
      · exact hspace (by rw [hname']; simp)
      · cases more' with
        | nil => exact hspace (by rw [show name = _ from hname'.symm]; simp)
        | cons d more' =>
          obtain ⟨rfl, -⟩ := List.cons.inj hname'
          exact hstart (by rw [hstart']; simp)
  · exact htail (by rw [hbehind]; simp [hmore])

/-- An exchange leaves no function without parameters that had any. -/
lemma missingReceiver?_of_exchanged {above : List Text} {sign more t out : Text} {b : Before}
    {receiver : Receiver}
    (h : Substituted (noneRule sign (' ' :: 'i' :: 's' :: ' ' :: more)) b t out)
    (hmore : 'N' ∈ more ∧ ')' ∉ more) (hout : missingReceiver? above out = some receiver) :
    missingReceiver? above t = some receiver := by
  cases hempty : emptyParameters? out with
  | none => simp [missingReceiver?, hempty] at hout
  | some pair =>
    obtain ⟨head, after⟩ := pair
    obtain ⟨function, gap, gap', hfunction, hgap, hgap', rfl, rfl⟩ :=
      emptyParameters?_eq_some_iff.mp hempty
    have htail : 'N' ∉ gap ++ ("(" ++ (gap' ++ ")")) := by
      have hblank : ∀ t : Text, t.isAllBlank = true → 'N' ∉ t := fun _ ht =>
        not_mem_of_isAllBlank ht (by decide)
      simp only [List.mem_append, not_or]
      exact ⟨hblank gap hgap, by decide, hblank gap' hgap', by decide⟩
    have hfront : ∀ rest : Text, (function ++ gap) ++ ("(" ++ (gap' ++ (")" ++ rest))) =
        (function ++ (gap ++ ("(" ++ (gap' ++ ")")))) ++ rest := fun rest => by
      simp only [List.append_assoc]
    have hend : ∀ c, (function ++ (gap ++ ("(" ++ (gap' ++ ")")))).getLast? = some c →
        c ∉ ' ' :: 'i' :: 's' :: ' ' :: more := by
      intro c hc
      obtain rfl : c = ')' := by
        simp only [← List.append_assoc] at hc
        exact (Option.some.inj (List.getLast?_concat.symm.trans hc)).symm
      simpa using hmore.2
    obtain ⟨rest, ht⟩ := exchanged_front h _ (hfront after) hend
      (not_infix_of_function hfunction htail hmore.1)
    have hempty' : emptyParameters? t = some (function ++ gap, rest) :=
      emptyParameters?_eq_some_iff.mpr
        ⟨function, gap, gap', hfunction, hgap, hgap', rfl, ht.trans (hfront rest).symm⟩
    have hblank : (function ++ (gap ++ ("(" ++ (gap' ++ ")")))).isAllBlank = false := by
      simp [isAllBlank, isBlank]
    have hcolumn : t.column = column ((function ++ gap) ++ ("(" ++ (gap' ++ (")" ++ after)))) := by
      rw [ht, hfront, column, column, indentation_margin hblank, indentation_margin hblank]
    simp only [missingReceiver?, hempty, Option.bind_eq_bind, Option.bind_some] at hout
    simp only [missingReceiver?, hempty', hcolumn, Option.bind_eq_bind, Option.bind_some]
    exact hout

/-- What stands before the first occurrence of a character, and behind it, is determined. -/
lemma eq_of_first {c : Char} {head head' tail tail' : Text} (hhead : c ∉ head) (hhead' : c ∉ head')
    (h : head ++ c :: tail = head' ++ c :: tail') : tail = tail' := by
  rcases List.append_eq_append_iff.mp h with ⟨more, rfl, hmore⟩ | ⟨more, rfl, hmore⟩
  · cases more with
    | nil => exact (List.cons.inj hmore).2
    | cons d more =>
      obtain ⟨rfl, -⟩ := List.cons.inj hmore
      exact absurd (by simp) hhead'
  · cases more with
    | nil => exact (List.cons.inj hmore).2.symm
    | cons d more =>
      obtain ⟨rfl, -⟩ := List.cons.inj hmore
      exact absurd (by simp) hhead

lemma emptyParameters?_received {function gap : Text} (hfunction : FunctionHead function)
    (hgap : gap.isAllBlank = true) (receiver : Receiver) (after : Text) :
    emptyParameters? (function ++ gap ++ ("(" ++ (receiver.name ++ (")" ++ after)))) = none := by
  by_contra hsome
  obtain ⟨⟨head, after'⟩, hempty⟩ := Option.ne_none_iff_exists'.mp hsome
  obtain ⟨function', gap₁, gap₂, hfunction', hgap₁, hgap₂, rfl, heq⟩ :=
    emptyParameters?_eq_some_iff.mp hempty
  have hopen : ∀ {function gap : Text}, FunctionHead function → gap.isAllBlank = true →
      '(' ∉ function ++ gap := fun hfunction hgap =>
    (isBare_append.mpr ⟨hfunction.isBare, isBare_of_isAllBlank hgap⟩).not_mem (by decide)
      (by decide)
  have hinside : receiver.name ++ (")" ++ after) = gap₂ ++ (")" ++ after') :=
    eq_of_first (hopen hfunction hgap) (hopen hfunction' hgap₁) heq
  cases gap₂ with
  | nil => cases receiver <;> cases hinside
  | cons c gap₂ =>
    rw [isAllBlank, List.all_cons, Bool.and_eq_true] at hgap₂
    cases receiver with
    | self =>
      obtain ⟨rfl, -⟩ := List.cons.inj hinside
      exact absurd hgap₂.1 (by decide)
    | cls =>
      obtain ⟨rfl, -⟩ := List.cons.inj hinside
      exact absurd hgap₂.1 (by decide)

/-- A receiver is put into the empty parentheses of the function that lacks it. -/
lemma exists_mendReceiver {above : List Text} {d : Draft} {receiver : Receiver}
    (h : missingReceiver? above d.code = some receiver) :
    ∃ function gap gap' after, FunctionHead function ∧ gap.isAllBlank = true ∧
      d.code = function ++ gap ++ ("(" ++ (gap' ++ (")" ++ after))) ∧
      (mendReceiver above d).code = function ++ gap ++ ("(" ++ (receiver.name ++ (")" ++ after))) := by
  cases hempty : emptyParameters? d.code with
  | none => simp [missingReceiver?, hempty] at h
  | some pair =>
    obtain ⟨head, after⟩ := pair
    obtain ⟨function, gap, gap', hfunction, hgap, -, rfl, hcode⟩ :=
      emptyParameters?_eq_some_iff.mp hempty
    refine ⟨function, gap, gap', after, hfunction, hgap, hcode, ?_⟩
    rw [mendReceiver, h]
    simp only [Draft.mend, addReceiver?, hempty, Option.map_some, List.append_assoc]

/-- A function that got a receiver lacks none. -/
lemma missingReceiver?_mendReceiver (above : List Text) (d : Draft) :
    missingReceiver? above (mendReceiver above d).code = none := by
  cases hmissing : missingReceiver? above d.code with
  | none => rwa [mendReceiver, hmissing]
  | some receiver =>
    obtain ⟨function, gap, gap', after, hfunction, hgap, -, hcode⟩ := exists_mendReceiver hmissing
    rw [hcode, missingReceiver?, emptyParameters?_received hfunction hgap]
    rfl

lemma code_logicDraft (above : List Text) (code : Text) : (logicDraft above code).code =
    substitute (noneRule "!=" " is not None") (substitute (noneRule "==" " is None")
      (mendReceiver above
        ((Draft.ofCode code).mend .conditionAssignment compareInCondition?)).code) := by
  unfold logicDraft
  simp only [Draft.advise_code, code_mend_substitute?]

/-- Mended code has no comparisons with `None` outside literals. -/
lemma sparesNone_logicDraft (above : List Text) (code : Text) :
    SparesNone "==" .start (logicDraft above code).code ∧
      SparesNone "!=" .start (logicDraft above code).code := by
  rw [code_logicDraft]
  exact ⟨sparesNone_substitute .unequal .equal
    (.inr (sparesNone_substitute .equal .equal (.inl rfl))),
    sparesNone_substitute .unequal .unequal (.inl rfl)⟩

/-- Mended code lacks no receiver. -/
lemma missingReceiver?_logicDraft (above : List Text) (code : Text) :
    missingReceiver? above (logicDraft above code).code = none := by
  have hisNone : (noneRule "==" " is None").Gains := gains_noneRule (by decide) (by decide)
  have hisNotNone : (noneRule "!=" " is not None").Gains := gains_noneRule (by decide) (by decide)
  by_contra hsome
  obtain ⟨receiver, hsome⟩ := Option.ne_none_iff_exists'.mp hsome
  rw [code_logicDraft] at hsome
  have hmiddle := missingReceiver?_of_exchanged (substituted_substitute hisNotNone.takes _)
    (by decide) hsome
  have hback := missingReceiver?_of_exchanged (substituted_substitute hisNone.takes _)
    (by decide) hmiddle
  rw [missingReceiver?_mendReceiver] at hback
  cases hback

/-- Mended code is mended no further, but for assignments that are left in its condition. -/
lemma logicDraft_twice_iff (above : List Text) (code : Text) :
    (logicDraft above (logicDraft above code).code).code = (logicDraft above code).code ↔
      compareInCondition? (logicDraft above code).code = none := by
  constructor
  · intro hsame
    cases hcompare : compareInCondition? (logicDraft above code).code with
    | none => rfl
    | some code' =>
      have hlt := enriches_compareInCondition? _ _ hcompare
      have hheavier := compared_heavier above (logicDraft above code).code
      rw [hsame] at hheavier
      simp only [Draft.mend, Draft.ofCode, hcompare] at hheavier
      rcases hheavier with heq | hmore
      · rw [heq] at hlt
        exact absurd hlt (Int.lt_irrefl _)
      · exact absurd (Int.lt_trans hlt hmore) (Int.lt_irrefl _)
  · intro hcompare
    have hspares := sparesNone_logicDraft above code
    have hreceiver := missingReceiver?_logicDraft above code
    generalize (logicDraft above code).code = code' at hcompare hspares hreceiver
    obtain ⟨hequal, hunequal⟩ := hspares
    have hmended : (Draft.ofCode code').mend .conditionAssignment compareInCondition? =
        Draft.ofCode code' := by
      simp only [Draft.mend, Draft.ofCode, hcompare]
    have hkept : mendReceiver above (Draft.ofCode code') = Draft.ofCode code' := by
      simp only [mendReceiver, Draft.ofCode, hreceiver]
    rw [code_logicDraft, hmended, hkept, Draft.ofCode, substitute_of_spares hequal,
      substitute_of_spares hunequal]

end Marginalia.Repair
