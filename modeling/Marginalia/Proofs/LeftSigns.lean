import Marginalia.Proofs.ConditionSigns
import Marginalia.Proofs.NoneComparisons

/-!
# Signs that exchanges leave

The exchange of a comparison with `None` takes its sign away and puts a blank there. If the sign
follows an equality sign or a condition word directly, the next run finds a lone equality sign, or
a condition, that was none before. Other lone signs in conditions were doubled before the exchanges.
-/

namespace Marginalia.Repair

open Text

section

variable {sign new : Text} {s : CodeState} {pieces before behind : List (Text × Text)}

/-! ## Signs and colons between pieces -/

/-- An equality sign that is alone when the comparisons with `None` were exchanged. -/
def LaterSign (sign t head : Text) : Prop :=
  ∃ rest, t = head ++ '=' :: rest ∧ CodeState.start.run head = .start ∧
    (lastOf none head).any joinsEquality = false ∧
    (rest.head? = some '=' → ComparesNone sign rest)

/-- Code whose first colon is that of a header when the comparisons with `None` were exchanged. -/
def LaterShows (sign t : Text) : Prop :=
  ∃ head rest, TopColon t head rest ∧ (rest.head? = some '=' → ComparesNone sign rest) ∧
    ∀ head' rest', TopColon t head' rest' → head.length ≤ head'.length

/-- A place that the condition reaches when the comparisons with `None` were exchanged. -/
def LaterReached (sign t head : Text) : Prop :=
  LaterShows sign t → ∀ head' rest', TopColon t head' rest' → head.length < head'.length

lemma laterSign_append {head rest : Text} : LaterSign sign (head ++ '=' :: rest) head ↔
    CodeState.start.run head = .start ∧ (lastOf none head).any joinsEquality = false ∧
      (rest.head? = some '=' → ComparesNone sign rest) := by
  constructor
  · rintro ⟨rest', heq, hlater⟩
    obtain ⟨-, rfl⟩ := List.cons.inj (List.append_cancel_left heq)
    exact hlater
  · exact fun hlater => ⟨rest, rfl, hlater⟩

/-- What stands behind a character that is kept outside literals. -/
lemma Exchanged.head_behind_iff (h : NoneTest sign new) {c : Char} (hc : isQuote c = false)
    (hpieces : Exchanged sign new .start (before ++ ([c], [c]) :: behind))
    (hstart : CodeState.start.run (olds before) = .start) :
    (news behind).head? = some '=' ↔
      (olds behind).head? = some '=' ∧ ¬ComparesNone sign (olds behind) := by
  have hrest := (hpieces.split h).1.of_kept h
  rw [hstart] at hrest
  exact hrest.head_iff h (CodeState.step_unquoted rfl hc).1

lemma Exchanged.loneSign_iff (h : NoneTest sign new)
    (hpieces : Exchanged sign new .start (before ++ (['='], ['=']) :: behind)) :
    LoneSign (news (before ++ (['='], ['=']) :: behind)) (news before) ↔
      LaterSign sign (olds (before ++ (['='], ['=']) :: behind)) (olds before) := by
  obtain ⟨-, hrun, hlast⟩ := hpieces.split h
  rw [news_append, news_cons, olds_append, olds_cons]
  simp only [List.singleton_append, loneSign_append, laterSign_append, true_and, hrun, hlast]
  refine and_congr_right fun hstart => and_congr_right fun _ => ?_
  rw [ne_eq, hpieces.head_behind_iff h (by decide) hstart, not_and_not_right]

lemma Exchanged.topColon_iff (h : NoneTest sign new)
    (hpieces : Exchanged sign new .start (before ++ ([':'], [':']) :: behind)) :
    TopColon (news (before ++ ([':'], [':']) :: behind)) (news before) (news behind) ↔
      TopColon (olds (before ++ ([':'], [':']) :: behind)) (olds before) (olds behind) := by
  have hrun := (hpieces.split h).2.1
  simp [TopColon, hrun]

lemma Exchanged.exists_of_topColon_news (h : NoneTest sign new)
    (hpieces : Exchanged sign new .start pieces) {head rest : Text}
    (htop : TopColon (news pieces) head rest) : ∃ before behind,
      pieces = before ++ ([':'], [':']) :: behind ∧ head = news before ∧ rest = news behind ∧
        TopColon (olds pieces) (olds before) (olds behind) := by
  have hcolon : ':' ∉ new := by cases h <;> decide
  obtain ⟨before, behind, rfl, rfl, rfl⟩ := hpieces.exists_of_news hcolon htop.1
  exact ⟨before, behind, rfl, rfl, rfl, (hpieces.topColon_iff h).mp htop⟩

lemma Exchanged.exists_of_topColon_olds (h : NoneTest sign new)
    (hpieces : Exchanged sign new .start pieces) {head rest : Text}
    (htop : TopColon (olds pieces) head rest) : ∃ before behind,
      pieces = before ++ ([':'], [':']) :: behind ∧ head = olds before ∧ rest = olds behind ∧
        TopColon (news pieces) (news before) (news behind) := by
  have hcolon : ':' ∉ sign := by cases h <;> decide
  have hblank : ∀ t : Text, t.isAllBlank = true → ':' ∉ t := fun _ ht =>
    not_mem_of_isAllBlank ht (by decide)
  obtain ⟨before, behind, rfl, rfl, rfl⟩ :=
    hpieces.exists_of_olds htop.1 fun gap gap' front back hgap hgap' hold => by
      have hmem : ':' ∈ gap ++ (sign ++ (gap' ++ "None")) := by
        rw [hold]
        simp
      simp only [List.mem_append, hblank gap hgap, hcolon, hblank gap' hgap', false_or] at hmem
      exact absurd hmem (by decide)
  exact ⟨before, behind, rfl, rfl, rfl, (hpieces.topColon_iff h).mpr htop⟩

lemma Exchanged.showsColon_iff (h : NoneTest sign new)
    (hpieces : Exchanged sign new .start pieces) :
    ShowsColon (news pieces) ↔ LaterShows sign (olds pieces) := by
  constructor
  · rintro ⟨head, rest, htop, hne, hfirst⟩
    obtain ⟨before, behind, hsplit, rfl, rfl, holds⟩ := hpieces.exists_of_topColon_news h htop
    refine ⟨olds before, olds behind, holds, ?_, ?_⟩
    · subst hsplit
      rwa [ne_eq, hpieces.head_behind_iff h (by decide) holds.2, not_and_not_right] at hne
    · intro head' rest' htop'
      obtain ⟨before', behind', hsplit', rfl, rfl, hnews⟩ := hpieces.exists_of_topColon_olds h htop'
      have hle := hfirst _ _ hnews
      have hlt := hpieces.length_lt_iff h hsplit' hsplit
      omega
  · rintro ⟨head, rest, htop, hne, hfirst⟩
    obtain ⟨before, behind, hsplit, rfl, rfl, hnews⟩ := hpieces.exists_of_topColon_olds h htop
    refine ⟨news before, news behind, hnews, ?_, ?_⟩
    · subst hsplit
      rwa [ne_eq, hpieces.head_behind_iff h (by decide) htop.2, not_and_not_right]
    · intro head' rest' htop'
      obtain ⟨before', behind', hsplit', rfl, rfl, holds⟩ :=
        hpieces.exists_of_topColon_news h htop'
      have hle := hfirst _ _ holds
      have hlt := hpieces.length_lt_iff h hsplit' hsplit
      omega

lemma Exchanged.reached_iff (h : NoneTest sign new) (hpieces : Exchanged sign new .start pieces)
    (hsplit : pieces = before ++ behind) :
    Reached (news pieces) (news before) ↔ LaterReached sign (olds pieces) (olds before) := by
  rw [Reached, LaterReached, hpieces.showsColon_iff h]
  refine imp_congr_right fun _ =>
    ⟨fun hreached head rest htop => ?_, fun hreached head rest htop => ?_⟩
  · obtain ⟨before', behind', hsplit', rfl, rfl, hnews⟩ := hpieces.exists_of_topColon_olds h htop
    exact (hpieces.length_lt_iff h hsplit hsplit').mp (hreached _ _ hnews)
  · obtain ⟨before', behind', hsplit', rfl, rfl, holds⟩ := hpieces.exists_of_topColon_news h htop
    exact (hpieces.length_lt_iff h hsplit hsplit').mpr (hreached _ _ holds)

/-- Where an equality sign stands in a comparison: behind the first character of its sign, or at
its start. -/
lemma NoneTest.equality (h : NoneTest sign new) {gap gap' front back : Text}
    (hgap : gap.isAllBlank = true) (hgap' : gap'.isAllBlank = true)
    (hsplit : gap ++ (sign ++ (gap' ++ "None")) = front ++ '=' :: back) :
    (∃ c, joinsEquality c = true ∧ front = gap ++ [c]) ∨
      (sign = "==" ∧ back = '=' :: (gap' ++ "None")) := by
  obtain ⟨c, hc, rfl, hsign⟩ : ∃ c, joinsEquality c = true ∧ sign = [c, '='] ∧
      (c = '=' → sign = "==") := by
    cases h
    · exact ⟨'=', rfl, rfl, fun _ => rfl⟩
    · exact ⟨'!', rfl, rfl, nofun⟩
  have hblank : ∀ t : Text, t.isAllBlank = true → '=' ∉ t := fun _ ht =>
    not_mem_of_isAllBlank ht (by decide)
  rcases List.append_eq_append_iff.mp hsplit with ⟨more, rfl, hmore⟩ | ⟨more, rfl, hmore⟩
  · rcases more with _ | ⟨d, _ | ⟨e, more⟩⟩
    · obtain ⟨rfl, rfl⟩ := List.cons.inj hmore
      exact .inr ⟨hsign rfl, rfl⟩
    · obtain ⟨rfl, -⟩ := List.cons.inj hmore
      exact .inl ⟨c, hc, rfl⟩
    · have hbehind : gap' ++ "None" = more ++ '=' :: back :=
        (List.cons.inj (List.cons.inj hmore).2).2
      have hmem : '=' ∈ gap' ++ ("None" : Text) := by
        rw [hbehind]
        simp
      rw [List.mem_append] at hmem
      exact absurd (hmem.resolve_left (hblank gap' hgap')) (by decide)
  · cases more with
    | nil =>
      obtain ⟨rfl, rfl⟩ := List.cons.inj hmore
      exact .inr ⟨hsign rfl, rfl⟩
    | cons d more =>
      obtain ⟨rfl, -⟩ := List.cons.inj hmore
      exact absurd (by simp) (hblank _ hgap)

/-- A sign that will be alone belongs to no comparison. -/
lemma Exchanged.exists_of_laterSign (h : NoneTest sign new)
    (hpieces : Exchanged sign new .start pieces) {head : Text}
    (hlater : LaterSign sign (olds pieces) head) :
    ∃ before behind, pieces = before ++ (['='], ['=']) :: behind ∧ head = olds before := by
  obtain ⟨rest, heq, -, hlast, hnext⟩ := hlater
  obtain ⟨before, behind, hsplit, hhead, -⟩ :=
    hpieces.exists_of_olds heq fun gap gap' front back hgap hgap' hold hfront hback => by
      obtain ⟨c, hc, rfl⟩ | ⟨rfl, rfl⟩ := h.equality hgap hgap' hold
      · obtain ⟨lead, rfl⟩ := hfront
        simp [lastOf, List.getLast?_append, hc] at hlast
      · obtain ⟨more, rfl⟩ := hback
        obtain ⟨behind, -, hsign, -⟩ := hnext rfl
        have hbehind : gap' ++ "None" ++ more = '=' :: behind :=
          (List.cons.inj ((after?_eq_some_iff _ _ _).mp hsign)).2
        cases gap' with
        | nil => exact absurd (List.cons.inj hbehind).1 (by decide)
        | cons d gap' =>
          obtain ⟨rfl, -⟩ := List.cons.inj hbehind
          exact absurd (List.all_eq_true.mp hgap' '=' List.mem_cons_self) (by decide)
  exact ⟨before, behind, hsplit, hhead⟩

/-- Behind the exchanges a condition has a lone sign where one was before, or one was left. -/
lemma Exchanged.exists_lone_iff (h : NoneTest sign new)
    (hpieces : Exchanged sign new .start pieces) :
    (∃ head, LoneSign (news pieces) head ∧ Reached (news pieces) head) ↔
      ∃ head, LaterSign sign (olds pieces) head ∧ LaterReached sign (olds pieces) head := by
  have hequals : '=' ∉ new := by cases h <;> decide
  constructor
  · rintro ⟨head, hlone, hreached⟩
    obtain ⟨rest, heq, -⟩ := id hlone
    obtain ⟨before, behind, rfl, rfl, -⟩ := hpieces.exists_of_news hequals heq
    exact ⟨olds before, (hpieces.loneSign_iff h).mp hlone, (hpieces.reached_iff h rfl).mp hreached⟩
  · rintro ⟨head, hlater, hreached⟩
    obtain ⟨before, behind, rfl, rfl⟩ := hpieces.exists_of_laterSign h hlater
    exact ⟨news before, (hpieces.loneSign_iff h).mpr hlater,
      (hpieces.reached_iff h rfl).mpr hreached⟩

/-! ## Condition words between pieces -/

/-- Code that starts with a condition word, and what follows the word. -/
def StartsCondition (code rest : Text) : Prop :=
  ∃ margin word : Text, margin.isAllBlank = true ∧ word ∈ conditionWords ∧
    code = margin ++ (word ++ rest)

lemma isSome_afterConditionWord?_iff {code : Text} : (afterConditionWord? code).isSome = true ↔
    ∃ rest, StartsCondition code rest ∧ rest.head?.any isBlank = true := by
  have hgap : ∀ rest : Text, (afterGap? rest).isSome = rest.head?.any isBlank := by
    intro rest
    cases rest with
    | nil => rfl
    | cons c rest =>
      rw [afterGap?]
      split
      · next hc => exact hc.symm
      · next hc => exact (Bool.eq_false_iff.mpr hc).symm
  have hafter : ∀ word ∈ conditionWords, ∀ rest : Text, afterBlanksAnd? word code = some rest ↔
      ∃ margin : Text, margin.isAllBlank = true ∧ code = margin ++ (word ++ rest) := by
    have hwords : ∀ word ∈ conditionWords, word.head?.any (! isBlank ·) = true := by decide
    intro word hword rest
    cases word with
    | nil => exact absurd hword (by decide)
    | cons c word => exact afterBlanksAnd?_cons_iff (by simpa using hwords _ hword) word
  rw [afterConditionWord?, List.findSome?_isSome_iff]
  constructor
  · rintro ⟨word, hword, hsome⟩
    obtain ⟨rest, hrest⟩ := Option.isSome_iff_exists.mp hsome
    obtain ⟨behind, hbehind, hblank⟩ := Option.bind_eq_some_iff.mp hrest
    obtain ⟨margin, hmargin, rfl⟩ := (hafter word hword behind).mp hbehind
    refine ⟨behind, ⟨margin, word, hmargin, hword, rfl⟩, ?_⟩
    rw [← hgap, hblank]
    rfl
  · rintro ⟨rest, ⟨margin, word, hmargin, hword, rfl⟩, hblank⟩
    refine ⟨word, hword, ?_⟩
    rw [(hafter word hword rest).mpr ⟨margin, hmargin, rfl⟩, Option.bind_some, hgap, hblank]

lemma isBare_condition {margin word : Text} (hmargin : margin.isAllBlank = true)
    (hword : word ∈ conditionWords) : word.all isWordChar = true ∧ IsBare (margin ++ word) := by
  have hletters : ∀ word ∈ conditionWords, word.all isWordChar = true := by decide
  exact ⟨hletters word hword, isBare_append.mpr ⟨isBare_of_isAllBlank hmargin,
    isBare_of_word (hletters word hword)⟩⟩

/-- Condition words stay where they are. -/
lemma Exchanged.startsCondition_iff (h : NoneTest sign new)
    (hpieces : Exchanged sign new .start pieces) {p q : Text → Prop}
    (hpq : ∀ before behind, pieces = before ++ behind →
      CodeState.start.run (olds before) = .start → (q (news behind) ↔ p (olds behind))) :
    (∃ rest, StartsCondition (news pieces) rest ∧ q rest) ↔
      ∃ rest, StartsCondition (olds pieces) rest ∧ p rest := by
  constructor
  · rintro ⟨rest, ⟨margin, word, hmargin, hword, hsplit⟩, hq⟩
    have hunput : Unput rest (margin ++ word) := by
      have hwords : ∀ word ∈ conditionWords,
          ' ' ∉ word ∧ ¬['i', 's'] <+: word ∧ 2 ≤ word.length := by decide
      obtain ⟨hspace, hnot, hlength⟩ := hwords word hword
      refine (unput_blanks hmargin fun hput => hnot ?_).append (unput_of_not_mem hspace)
      exact List.prefix_of_prefix_length_le hput (List.prefix_append word rest) hlength
    obtain ⟨before, behind, hparts, holds, hnews, rfl⟩ :=
      hpieces.exists_of_unput h hunput (hsplit.trans (List.append_assoc ..).symm)
    have hrun : CodeState.start.run (olds before) = .start := by
      rw [holds, run_bare (isBare_condition hmargin hword).2]
    refine ⟨olds behind, ⟨margin, word, hmargin, hword, ?_⟩, (hpq _ _ hparts hrun).mp hq⟩
    rw [hparts, olds_append, holds, List.append_assoc]
  · rintro ⟨rest, ⟨margin, word, hmargin, hword, hsplit⟩, hp⟩
    have hletters := (isBare_condition hmargin hword).1
    have hclear : Clear sign rest (margin ++ word) := by
      have hfirst := clear_word h hletters rest
      refine (clear_blanks hmargin ?_).append hfirst
      cases word with
      | nil => exact absurd hword (by decide)
      | cons c word => exact hfirst.1
    obtain ⟨before, behind, hparts, holds, hnews, rfl⟩ :=
      hpieces.exists_of_clear h hclear (hsplit.trans (List.append_assoc ..).symm)
    have hrun : CodeState.start.run (olds before) = .start := by
      rw [holds, run_bare (isBare_condition hmargin hword).2]
    refine ⟨news behind, ⟨margin, word, hmargin, hword, ?_⟩, (hpq _ _ hparts hrun).mpr hp⟩
    rw [hparts, news_append, hnews, List.append_assoc]

end

/-! ## Conditions with signs left -/

/-- A character that is neither blank nor of a word stands behind a text of such ones. -/
lemma exists_behind_bare {lead t head rest : Text} {c : Char} (hlead : IsBare lead)
    (hblank : isBlank c = false) (hword : isWordChar c = false)
    (hsplit : lead ++ t = head ++ c :: rest) : ∃ head', head = lead ++ head' ∧
      t = head' ++ c :: rest := by
  rcases List.append_eq_append_iff.mp hsplit with ⟨more, rfl, rfl⟩ | ⟨more, rfl, hmore⟩
  · exact ⟨more, rfl, rfl⟩
  · cases more with
    | nil => exact ⟨[], by simp, hmore.symm⟩
    | cons d more =>
      obtain ⟨rfl, -⟩ := List.cons.inj hmore
      exact absurd (by simp) (hlead.not_mem hblank hword)

lemma loneSign_bare {lead t head : Text} (hlead : IsBare lead) :
    LoneSign (lead ++ t) (lead ++ head) ↔ LoneSign t head := by
  have hjoins : ∀ c ∈ lead, joinsEquality c = false := by
    intro c hc
    by_contra hjoins
    rw [Bool.not_eq_false] at hjoins
    have hsign : isBlank c = false ∧ isWordChar c = false := by
      have hsigns : ['=', '!', '<', '>', ':'].all
          (fun d => isBlank d == false && isWordChar d == false) = true := by decide
      simpa using List.all_eq_true.mp hsigns c (by simpa [joinsEquality] using hjoins)
    exact hlead.not_mem hsign.1 hsign.2 hc
  have hlast : (lastOf none (lead ++ head)).any joinsEquality =
      (lastOf none head).any joinsEquality := by
    cases hhead : head.getLast? with
    | some c => simp [lastOf, List.getLast?_append, hhead]
    | none =>
      cases hend : lead.getLast? with
      | none => simp [lastOf, List.getLast?_append, hhead, hend]
      | some c =>
        simp [lastOf, List.getLast?_append, hhead, hend, hjoins c (List.mem_of_getLast? hend)]
  simp only [LoneSign, CodeState.run_append, run_bare hlead, hlast, List.append_assoc,
    List.append_cancel_left_eq]

lemma topColon_bare {lead t head rest : Text} (hlead : IsBare lead) :
    TopColon (lead ++ t) (lead ++ head) rest ↔ TopColon t head rest := by
  rw [TopColon, TopColon, CodeState.run_append, run_bare hlead, List.append_assoc,
    List.append_cancel_left_eq]

lemma exists_of_topColon_bare {lead t head rest : Text} (hlead : IsBare lead)
    (htop : TopColon (lead ++ t) head rest) : ∃ head', head = lead ++ head' ∧
      TopColon t head' rest := by
  obtain ⟨head', rfl, -⟩ := exists_behind_bare hlead (by decide) (by decide) htop.1
  exact ⟨head', rfl, (topColon_bare hlead).mp htop⟩

lemma reached_bare {lead t head : Text} (hlead : IsBare lead) :
    Reached (lead ++ t) (lead ++ head) ↔ Reached t head := by
  have hshows : ShowsColon (lead ++ t) ↔ ShowsColon t := by
    constructor
    · rintro ⟨colon, rest, htop, hne, hfirst⟩
      obtain ⟨colon, rfl, htop'⟩ := exists_of_topColon_bare hlead htop
      refine ⟨colon, rest, htop', hne, fun head' rest' hother => ?_⟩
      simpa using hfirst _ _ ((topColon_bare hlead).mpr hother)
    · rintro ⟨colon, rest, htop, hne, hfirst⟩
      refine ⟨lead ++ colon, rest, (topColon_bare hlead).mpr htop, hne,
        fun head' rest' hother => ?_⟩
      obtain ⟨head', rfl, hother'⟩ := exists_of_topColon_bare hlead hother
      simpa using hfirst _ _ hother'
  rw [Reached, Reached, hshows]
  refine imp_congr_right fun _ => ⟨fun h colon rest htop => ?_, fun h colon rest htop => ?_⟩
  · simpa using h _ _ ((topColon_bare hlead).mpr htop)
  · obtain ⟨colon, rfl, htop'⟩ := exists_of_topColon_bare hlead htop
    simpa using h _ _ htop'

/-- There is a sign to be doubled if the code has a condition and a lone sign that it reaches. -/
lemma exists_compared_iff (code : Text) : (∃ head, Compared code head) ↔
    (afterConditionWord? code).isSome = true ∧ ∃ head, LoneSign code head ∧ Reached code head := by
  cases ht : afterConditionWord? code with
  | none =>
    refine iff_of_false ?_ fun h => nomatch h.1
    rintro ⟨head, lead, t, head', -, hsome, -⟩
    rw [ht] at hsome
    cases hsome
  | some t =>
    obtain ⟨lead, rfl, hlead⟩ := afterConditionWord?_bare ht
    constructor
    · rintro ⟨head, hcompared⟩
      obtain ⟨lead', t', head', heq, ht', rfl, hlone, hreached⟩ := hcompared
      obtain rfl : t = t' := Option.some.inj (ht.symm.trans ht')
      obtain rfl : lead = lead' := List.append_cancel_right heq
      exact ⟨rfl, lead ++ head', (loneSign_bare hlead).mpr hlone, (reached_bare hlead).mpr hreached⟩
    · rintro ⟨-, head, hlone, hreached⟩
      obtain ⟨rest, heq, -⟩ := id hlone
      obtain ⟨head', rfl, -⟩ := exists_behind_bare hlead (by decide) (by decide) heq
      exact ⟨lead ++ head', (compared_iff rfl ht).mpr
        ⟨(loneSign_bare hlead).mp hlone, (reached_bare hlead).mp hreached⟩⟩

/-- Code whose comparisons with `None` hide a condition or a lone equality sign in it: it starts
with a condition word and a blank or such a comparison, and the condition reaches an equality sign
that stands alone, or directly before a test for equality. -/
def LeavesSign (code : Text) : Prop :=
  (∃ rest, StartsCondition code rest ∧ ((rest.head?.any isBlank = true ∨ ComparesNone "==" rest) ∨
    ComparesNone "!=" rest)) ∧
  ∃ head, LaterSign "==" code head ∧ LaterReached "==" code head

/-- Behind an equality sign no test for inequality starts. -/
lemma not_comparesNone_equals {rest : Text} (heq : rest.head? = some '=') :
    ¬ComparesNone "!=" rest := by
  rintro ⟨behind, -, hsign, -⟩
  obtain ⟨rest, rfl⟩ := List.head?_eq_some_iff.mp heq
  cases hsign

lemma laterSign_unequal {t head : Text} : LaterSign "!=" t head ↔ LoneSign t head := by
  refine exists_congr fun rest => and_congr_right fun _ => and_congr_right fun _ =>
    and_congr_right fun _ => ?_
  exact forall_congr' fun heq => iff_false_intro (not_comparesNone_equals heq)

lemma laterReached_unequal {t head : Text} : LaterReached "!=" t head ↔ Reached t head := by
  have hshows : LaterShows "!=" t ↔ ShowsColon t := by
    refine exists_congr fun colon => exists_congr fun rest => and_congr_right fun _ =>
      and_congr_left fun _ => ?_
    exact forall_congr' fun heq => iff_false_intro (not_comparesNone_equals heq)
  rw [LaterReached, Reached, hshows]

/-- Where signs are left behind the exchanges of both kinds of tests. -/
lemma exists_compared_exchanged_iff (code : Text) :
    (∃ head, Compared (substitute (noneRule "!=" " is not None")
      (substitute (noneRule "==" " is None") code)) head) ↔ LeavesSign code := by
  obtain ⟨equal, hequal, rfl, hcode⟩ := exists_exchanged .equal code
  obtain ⟨unequal, hunequal, hmiddle, hout⟩ := exists_exchanged .unequal (news equal)
  rw [hcode]
  rw [hout, exists_compared_iff, isSome_afterConditionWord?_iff,
    hunequal.exists_lone_iff .unequal]
  have hstarts : (∃ rest, StartsCondition (news unequal) rest ∧ rest.head?.any isBlank = true) ↔
      ∃ rest, StartsCondition (olds unequal) rest ∧
        (rest.head?.any isBlank = true ∨ ComparesNone "!=" rest) :=
    hunequal.startsCondition_iff .unequal fun before behind hsplit hrun => by
      subst hsplit
      have hrest := (hunequal.split .unequal).1
      rw [hrun] at hrest
      exact hrest.blank_iff .unequal rfl
  have hstarts' : (∃ rest, StartsCondition (news equal) rest ∧
        (rest.head?.any isBlank = true ∨ ComparesNone "!=" rest)) ↔
      ∃ rest, StartsCondition (olds equal) rest ∧
        ((rest.head?.any isBlank = true ∨ ComparesNone "==" rest) ∨ ComparesNone "!=" rest) :=
    hequal.startsCondition_iff .equal fun before behind hsplit hrun => by
      subst hsplit
      have hrest := (hequal.split .equal).1
      rw [hrun] at hrest
      exact or_congr (hrest.blank_iff .equal rfl) hrest.unequal_iff
  simp only [hstarts, ← hmiddle, hstarts', laterSign_unequal, laterReached_unequal,
    hequal.exists_lone_iff .equal]
  rfl

/-- The head of a function starts with no condition word. -/
lemma not_startsCondition_of_function {function rest rest' : Text}
    (hfunction : FunctionHead function) : ¬StartsCondition (function ++ rest) rest' := by
  obtain ⟨start, name, ⟨margin, async, gap, rfl, hmargin, hasync, -⟩, -, -, rfl⟩ := hfunction
  rintro ⟨margin', word, hmargin', hword, heq⟩
  have hfirst : ∀ word ∈ conditionWords,
      word.head?.any (fun c => !isBlank c && c != 'a' && c != 'd') = true := by decide
  cases word with
  | nil => exact absurd hword (by decide)
  | cons c word =>
    have hc : isBlank c = false ∧ c ≠ 'a' ∧ c ≠ 'd' := by
      simpa [and_assoc] using hfirst _ hword
    have htrim := congrArg trimStart heq
    rw [List.cons_append, trimStart_blanks_cons hmargin' hc.1] at htrim
    simp only [List.append_assoc] at htrim
    rw [trimStart_blanks hmargin, hasync.trimStart] at htrim
    obtain rfl | ⟨gap', rfl, -⟩ := hasync
    · exact hc.2.2 (List.cons.inj htrim).1.symm
    · exact hc.2.1 (List.cons.inj htrim).1.symm

/-- A function has no condition, with and without a receiver. -/
lemma leavesSign_mendReceiver (above : List Text) (d : Draft) :
    LeavesSign (mendReceiver above d).code ↔ LeavesSign d.code := by
  have hfunction : ∀ {function rest : Text}, FunctionHead function →
      ¬LeavesSign (function ++ rest) := fun h hleaves =>
    let ⟨_, hstarts, _⟩ := hleaves.1
    not_startsCondition_of_function h hstarts
  cases hmissing : missingReceiver? above d.code with
  | none => rw [mendReceiver, hmissing]
  | some receiver =>
    obtain ⟨function, gap, gap', after, hhead, -, hcode, hcode'⟩ := exists_mendReceiver hmissing
    rw [hcode, hcode', List.append_assoc, List.append_assoc]
    exact iff_of_false (hfunction hhead) (hfunction hhead)

/-- Of the logic of some code nothing but signs that the exchanges left is mended again. -/
lemma exists_compared_logicDraft_iff (above : List Text) (code : Text) :
    (∃ head, Compared (logicDraft above code).code head) ↔
      LeavesSign ((compareInCondition? code).getD code) := by
  have hdoubled : ((Draft.ofCode code).mend .conditionAssignment compareInCondition?).code =
      (compareInCondition? code).getD code := by
    simp only [Draft.mend, Draft.ofCode]
    cases compareInCondition? code <;> rfl
  rw [code_logicDraft, exists_compared_exchanged_iff, leavesSign_mendReceiver, hdoubled]

end Marginalia.Repair
