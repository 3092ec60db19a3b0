import Marginalia.Proofs.LogicTwice

/-!
# Receivers

Whether a function without parameters is a method is told by looking a few lines back for the line
of a class that is indented less. Nothing that stands between is looked at: the methods of the class
are found, and so are functions inside of them.
-/

namespace Marginalia.Repair

open Text

/-! ## Functions without parameters -/

lemma afterConditionWord?_start {code t : Text} (h : afterConditionWord? code = some t) :
    ∃ lead, code = lead ++ t ∧ ∀ rest, ∃ rest', StartsCondition (lead ++ rest) rest' := by
  obtain ⟨word, hmem, hword⟩ := List.exists_of_findSome?_eq_some h
  obtain ⟨behind, hbehind, hgap⟩ := Option.bind_eq_some_iff.mp hword
  obtain ⟨gap, rfl, -⟩ := eq_of_afterGap? hgap
  refine ⟨code.indentation ++ (word ++ gap), ?_, fun rest => ⟨gap ++ rest, code.indentation, word,
    isAllBlank_indentation code, hmem, by simp only [List.append_assoc]⟩⟩
  conv_lhs => rw [eq_of_afterBlanksAnd? hbehind]
  simp only [List.append_assoc]

lemma emptyParameters?_condition {code rest : Text} (h : StartsCondition code rest) :
    emptyParameters? code = none := by
  refine Option.eq_none_iff_forall_ne_some.mpr ?_
  rintro ⟨head, after⟩ hempty
  obtain ⟨function, gap, gap', hfunction, -, -, rfl, rfl⟩ := emptyParameters?_eq_some_iff.mp hempty
  rw [List.append_assoc] at h
  exact not_startsCondition_of_function hfunction h

/-- Where a condition is mended there is no function. -/
lemma emptyParameters?_of_compared {code code' : Text} (h : compareInCondition? code = some code') :
    emptyParameters? code = none ∧ emptyParameters? code' = none := by
  simp only [compareInCondition?, Option.bind_eq_bind, Option.bind_eq_some_iff] at h
  obtain ⟨t, ht, h⟩ := h
  obtain ⟨lead, rfl, hlead⟩ := afterConditionWord?_start ht
  obtain ⟨rfl, -⟩ := eq_of_changed? h
  rw [before_append, List.append_assoc]
  obtain ⟨_, hcode⟩ := hlead t
  obtain ⟨_, hcode'⟩ := hlead (doubleEquality .start none (splitCondition t).1 ++
    (splitCondition t).2)
  exact ⟨emptyParameters?_condition hcode, emptyParameters?_condition hcode'⟩

/-- The receiver that the decorators right above a function ask for; none for a static method. -/
def askedReceiver? (above : List Text) : Option Receiver :=
  decoratedReceiver? ((above.map trim).takeWhile fun l => l.startsWith "@")

/-- Among the nearest lines above is that of a class, left of a column. -/
def SeesClass (above : List Text) (column : Nat) : Prop :=
  ∃ l ∈ above.take classLookback, isClassLine l = true ∧ l.column < column

lemma missingReceiver?_eq_some_iff {above : List Text} {code : Text} {receiver : Receiver} :
    missingReceiver? above code = some receiver ↔ (emptyParameters? code).isSome = true ∧
      askedReceiver? above = some receiver ∧ SeesClass above code.column := by
  simp only [missingReceiver?, askedReceiver?, SeesClass, Option.bind_eq_bind,
    Option.bind_eq_some_iff, Option.guard_eq_some', List.any_eq_true, Bool.and_eq_true,
    decide_eq_true_eq, Option.isSome_iff_exists, exists_and_right, pure, Option.some.injEq,
    exists_const]
  constructor
  · rintro ⟨hempty, receiver', hreceiver, hclass, rfl⟩
    exact ⟨hempty, hreceiver, hclass⟩
  · rintro ⟨hempty, hreceiver, hclass⟩
    exact ⟨hempty, receiver, hreceiver, hclass, rfl⟩

/-! ## Mended code -/

/-- The code in which receivers are looked for. -/
lemma missingReceiver?_compared (above : List Text) (code : Text) :
    missingReceiver? above
        ((Draft.ofCode code).mend .conditionAssignment compareInCondition?).code =
      missingReceiver? above code := by
  rw [Draft.mend]
  cases h : compareInCondition? (Draft.ofCode code).code with
  | none => rfl
  | some code' =>
    obtain ⟨hcode, hcode'⟩ := emptyParameters?_of_compared h
    have hcode : emptyParameters? code = none := hcode
    simp only [missingReceiver?, hcode, hcode', Option.bind_eq_bind, Option.bind_none]

lemma fixed_mem_mend {d : Draft} {fix fix' : Fix} {revision : Text → Option Text} :
    .fixed fix' ∈ (d.mend fix revision).findings ↔
      .fixed fix' ∈ d.findings ∨ fix' = fix ∧ (revision d.code).isSome = true := by
  rw [Draft.mend]
  cases revision d.code <;> simp

lemma fixed_mem_advise {d : Draft} {fix : Fix} {advice : Advice} {reason : Text → Bool} :
    .fixed fix ∈ (d.advise advice reason).findings ↔ .fixed fix ∈ d.findings := by
  rw [Draft.advise]
  split <;> simp

/-- A receiver is reported exactly where one is missing. -/
lemma receiver_mem_logicDraft {above : List Text} {code : Text} {receiver : Receiver} :
    .fixed (.receiver receiver) ∈ (logicDraft above code).findings ↔
      missingReceiver? above code = some receiver := by
  have hreceiver : ∀ d : Draft, .fixed (.receiver receiver) ∉ d.findings →
      (.fixed (.receiver receiver) ∈ (mendReceiver above d).findings ↔
        missingReceiver? above d.code = some receiver) := by
    intro d hd
    rw [mendReceiver]
    cases hmissing : missingReceiver? above d.code with
    | none => simp [hd]
    | some receiver' =>
      have hempty := (missingReceiver?_eq_some_iff.mp hmissing).1
      simp [fixed_mem_mend, hd, addReceiver?, hempty, eq_comm]
  rw [← missingReceiver?_compared, ← hreceiver]
  · simp [logicDraft, fixed_mem_advise, fixed_mem_mend]
  · simp [fixed_mem_mend, Draft.ofCode]

/-- In a text that ends in no blank, the first character that is none comes before its end. -/
lemma exists_trimStart_append {t : Text} (h : t.getLast?.any (! isBlank ·) = true) (rest : Text) :
    ∃ c tail, c ∈ t ∧ trimStart (t ++ rest) = c :: tail := by
  obtain ⟨e, hlast, he⟩ := (Option.any_eq_true _ _).mp h
  have hsolid : t.isAllBlank = false := Bool.eq_false_iff.mpr fun hall => by
    rw [List.all_eq_true.mp hall e (List.mem_of_getLast? hlast)] at he
    cases he
  rw [trimStart_margin hsolid]
  cases hstart : trimStart t with
  | nil =>
    have happ := trimStart_append t
    rw [hstart, List.append_nil] at happ
    rw [happ, isAllBlank_indentation] at hsolid
    cases hsolid
  | cons c tail =>
    have hsuffix : c :: tail <:+ t := hstart ▸ List.dropWhile_suffix isBlank
    exact ⟨c, tail ++ rest, hsuffix.subset List.mem_cons_self, rfl⟩

/-- No comparison starts in a front part without its sign that ends in no blank. -/
lemma clear_of_not_mem {sign new front rest : Text} (h : NoneTest sign new)
    (hfront : '=' ∉ front ∧ '!' ∉ front) (hend : front.getLast?.any (! isBlank ·) = true) :
    Clear sign rest front := by
  induction front with
  | nil => trivial
  | cons c front ih =>
    obtain ⟨hequal, hbang⟩ := hfront
    refine ⟨?_, ?_⟩
    · obtain ⟨d, tail, hmem, hstart⟩ := exists_trimStart_append hend rest
      refine Option.eq_none_iff_forall_ne_some.mpr fun behind hbehind => ?_
      rw [afterBlanksAnd?, ← List.cons_append, hstart, after?_eq_some_iff] at hbehind
      cases h
      · obtain ⟨rfl, -⟩ := List.cons.inj hbehind
        exact hequal hmem
      · obtain ⟨rfl, -⟩ := List.cons.inj hbehind
        exact hbang hmem
    · cases front with
      | nil => trivial
      | cons d front =>
        exact ih ⟨fun hmem => hequal (List.mem_cons_of_mem c hmem),
          fun hmem => hbang (List.mem_cons_of_mem c hmem)⟩ (by simpa using hend)

lemma exists_kept_front {sign new front rest : Text} (h : NoneTest sign new)
    (hfront : '=' ∉ front ∧ '!' ∉ front) (hend : front.getLast?.any (! isBlank ·) = true) :
    ∃ rest', substitute (noneRule sign new) (front ++ rest) = front ++ rest' := by
  obtain ⟨pieces, hpieces, holds, hnews⟩ := exists_exchanged h (front ++ rest)
  obtain ⟨before, behind, rfl, -, hbefore, -⟩ :=
    hpieces.exists_of_clear h (clear_of_not_mem h hfront hend) holds.symm
  exact ⟨news behind, by rw [hnews, news_append, hbefore]⟩

/-- Behind receivers, what is mended keeps the head of a function and what is in its parentheses. -/
lemma exists_kept_head {function gap inside : Text} (hfunction : FunctionHead function)
    (hgap : gap.isAllBlank = true) (hinside : IsBare inside) (after : Text) :
    ∃ after', substitute (noneRule "!=" " is not None") (substitute (noneRule "==" " is None")
        (function ++ gap ++ ("(" ++ (inside ++ (")" ++ after))))) =
      function ++ gap ++ ("(" ++ (inside ++ (")" ++ after'))) := by
  have hassoc : ∀ after : Text, function ++ gap ++ ("(" ++ (inside ++ (")" ++ after))) =
      (function ++ gap ++ ("(" ++ (inside ++ ")"))) ++ after := fun after => by
    simp only [List.append_assoc]
  have hsign : ∀ c, isBlank c = false → isWordChar c = false → c ∉ ("()" : Text) →
      c ∉ function ++ gap ++ ("(" ++ (inside ++ ")")) := by
    intro c hblank hword hparen
    obtain ⟨hopen, hclose⟩ : c ≠ '(' ∧ c ≠ ')' := by simpa using hparen
    have hbare := isBare_append.mpr ⟨hfunction.isBare, isBare_of_isAllBlank hgap⟩
    refine List.not_mem_append (hbare.not_mem hblank hword) (List.not_mem_append ?_
      (List.not_mem_append (hinside.not_mem hblank hword) ?_))
    · simpa using hopen
    · simpa using hclose
  have hend : (function ++ gap ++ ("(" ++ (inside ++ ")"))).getLast?.any (! isBlank ·) = true := by
    simp only [← List.append_assoc]
    rw [show (")" : Text) = [')'] from rfl, List.getLast?_concat]
    decide
  have hfront := And.intro (hsign '=' (by decide) (by decide) (by decide))
    (hsign '!' (by decide) (by decide) (by decide))
  rw [hassoc]
  obtain ⟨middle, hmiddle⟩ := exists_kept_front .equal hfront hend
  obtain ⟨after', hafter⟩ := exists_kept_front .unequal hfront hend
  exact ⟨after', by rw [hmiddle, hafter, hassoc]⟩

lemma isBare_name (receiver : Receiver) : IsBare receiver.name :=
  isBare_of_word (by cases receiver <;> decide)

section

variable {above : List Text} {code head after : Text}

/-- The code of a function is mended by giving it a receiver and by exchanging comparisons. -/
lemma code_logicDraft_function (h : emptyParameters? code = some (head, after)) :
    (logicDraft above code).code =
      substitute (noneRule "!=" " is not None") (substitute (noneRule "==" " is None")
        (mendReceiver above (.ofCode code)).code) := by
  have hmended : (Draft.ofCode code).mend .conditionAssignment compareInCondition? =
      .ofCode code := by
    rw [Draft.mend]
    cases hcompare : compareInCondition? (Draft.ofCode code).code with
    | none => rfl
    | some code' =>
      have hnone := (emptyParameters?_of_compared hcompare).1
      rw [Draft.ofCode_code, h] at hnone
      cases hnone
  rw [code_logicDraft, hmended]

/-- The receiver that is missing is put into the empty parentheses. -/
lemma exists_received {receiver : Receiver} (h : emptyParameters? code = some (head, after))
    (hmissing : missingReceiver? above code = some receiver) : ∃ after',
      (logicDraft above code).code = head ++ ("(" ++ (receiver.name ++ (")" ++ after'))) := by
  obtain ⟨function, gap, gap', hfunction, hgap, -, rfl, -⟩ := emptyParameters?_eq_some_iff.mp h
  have hcode : (mendReceiver above (.ofCode code)).code =
      function ++ gap ++ ("(" ++ (receiver.name ++ (")" ++ after))) := by
    rw [mendReceiver, Draft.ofCode_code, hmissing]
    simp only [Draft.mend, Draft.ofCode_code, addReceiver?, h, Option.map_some, List.append_assoc]
  rw [code_logicDraft_function h, hcode]
  exact exists_kept_head hfunction hgap (isBare_name receiver) after

/-- A function that lacks no receiver stays without parameters. -/
lemma exists_unreceived (h : emptyParameters? code = some (head, after))
    (hmissing : missingReceiver? above code = none) :
    ∃ after', emptyParameters? (logicDraft above code).code = some (head, after') := by
  obtain ⟨function, gap, gap', hfunction, hgap, hgap', rfl, hempty⟩ :=
    emptyParameters?_eq_some_iff.mp h
  have hcode : (mendReceiver above (.ofCode code)).code =
      function ++ gap ++ ("(" ++ (gap' ++ (")" ++ after))) := by
    rw [mendReceiver, Draft.ofCode_code, hmissing]
    exact hempty
  obtain ⟨after', hafter⟩ :=
    exists_kept_head hfunction hgap (isBare_of_isAllBlank hgap') after
  rw [← hcode, ← code_logicDraft_function h] at hafter
  exact ⟨after', emptyParameters?_eq_some_iff.mpr
    ⟨function, gap, gap', hfunction, hgap, hgap', rfl, hafter⟩⟩

/-- Code that lacks no receiver is mended like code with nothing above. -/
lemma code_logicDraft_nil (hmissing : missingReceiver? above code = none) :
    (logicDraft above code).code = (logicDraft [] code).code := by
  have hnil : missingReceiver? [] code = none := by
    refine Option.eq_none_iff_forall_ne_some.mpr fun receiver h => ?_
    obtain ⟨l, hl, -⟩ := (missingReceiver?_eq_some_iff.mp h).2.2
    exact absurd hl (by simp)
  rw [code_logicDraft, code_logicDraft]
  simp only [mendReceiver, missingReceiver?_compared, hmissing, hnil]

end

/-! ## Lines -/

lemma getElem?_visit {σ α : Type} (step : σ → Site → σ × α) (s : σ) (sites : List Site) (k : Nat) :
    (visit step s sites)[k]? = sites[k]?.map fun site =>
      (step ((sites.take k).foldl (fun s site => (step s site).1) s) site).2 := by
  induction sites generalizing s k with
  | nil => rfl
  | cons site rest ih =>
    cases k with
    | zero => rfl
    | succ k => simp only [visit, List.getElem?_cons_succ, List.take_succ_cons, List.foldl_cons, ih]

/-- The state of mending holds the lines as they were left. -/
lemma foldl_logicStep (above : List Text) (sites : List Site) (k : Nat) :
    (sites.take k).foldl (fun above site => (logicStep above site).1) above =
      (((visit logicStep above sites).map (·.line)).take k).reverse ++ above := by
  induction sites generalizing above k with
  | nil => simp [visit]
  | cons site rest ih =>
    cases k with
    | zero => rfl
    | succ k =>
      rw [List.take_succ_cons, List.foldl_cons, ih, visit, List.map_cons, List.take_succ_cons,
        List.reverse_cons, List.append_assoc]
      rfl

lemma getElem?_ofLines {lines : List Text} {k : Nat} {site : Site}
    (h : (Site.ofLines lines)[k]? = some site) : site.number = k + 1 ∧
      lines[k]? = some site.line ∧ (layout lines)[k]? = some site.info := by
  have hpairs := congrArg (·[k]?) (Site.numbered_pairs 1 ((layout lines).zip lines))
  rw [Site.ofLines] at h
  simp only [List.getElem?_map, h, Option.map_some] at hpairs
  obtain ⟨hinfo, hline⟩ := List.getElem?_zip_eq_some.mp hpairs.symm
  exact ⟨(Site.number_of_getElem? h).trans (Nat.add_comm 1 k), hline, hinfo⟩

/-- The lines above a line, nearest first, as mending leaves them. -/
def leftAbove (text : Text) (k : Nat) : List Text := ((logic text).text.lines.take k).reverse

/-- A function on a line, counted from zero, is given a receiver. -/
def GivesReceiver (text : Text) (k : Nat) (receiver : Receiver) : Prop :=
  .atLine (.fixed (.receiver receiver)) (k + 1) ∈ (logic text).changes

/-- A line is mended below the lines as they were left. -/
lemma getElem?_visit_logicStep (text : Text) (k : Nat) :
    (visit logicStep [] (Site.ofLines text.lines))[k]? =
      (Site.ofLines text.lines)[k]?.map fun site => (logicStep (leftAbove text k) site).2 := by
  rw [getElem?_visit, foldl_logicStep, List.append_nil, leftAbove, logic,
    lines_outcome (visit_logicStep_revisedTo text)]

lemma exists_site {text line : Text} {k : Nat} (h : text.lines[k]? = some line) :
    ∃ site, (Site.ofLines text.lines)[k]? = some site ∧ site.line = line ∧
      (site.isStatement = true ↔ StatementAt .start text.lines k line) := by
  have hline := congrArg (·[k]?) (Site.ofLines_lines text.lines)
  simp only [List.getElem?_map, h, Option.map_eq_some_iff] at hline
  obtain ⟨site, hsite, rfl⟩ := hline
  have hinfo : (LayoutState.start.layout text.lines)[k]? = some site.info :=
    (getElem?_ofLines hsite).2.2
  refine ⟨site, hsite, rfl, ?_⟩
  rw [StatementAt, hinfo, Option.map_some, Option.some.injEq, and_iff_right h]
  exact beq_iff_eq

lemma findings_logicStep {above : List Text} {site : Site} {finding : Finding} :
    finding ∈ (logicStep above site).2.findings ↔
      site.isStatement = true ∧ finding ∈ (logicDraft above site.code).findings := by
  rw [logicStep]
  by_cases hs : site.isStatement = true
  · simp [hs, Revised.ofDraft]
  · simp [hs, Revised.same]

lemma number_logicStep (above : List Text) (site : Site) :
    (logicStep above site).2.number = site.number := by
  rw [logicStep]
  simp only
  split <;> rfl

/-- A receiver is given on the line of a statement that lacks one. -/
lemma givesReceiver_iff_missing {text : Text} {k : Nat} {receiver : Receiver} :
    GivesReceiver text k receiver ↔ ∃ line, StatementAt .start text.lines k line ∧
      missingReceiver? (leftAbove text k) (codeOfLine line) = some receiver := by
  rw [GivesReceiver, logic, mem_changes_iff]
  simp only [getElem?_visit_logicStep, Option.map_eq_some_iff]
  constructor
  · rintro ⟨i, r, ⟨site, hsite, rfl⟩, hfinding, hnumber⟩
    obtain ⟨hplace, hline, -⟩ := getElem?_ofLines hsite
    rw [number_logicStep, hplace] at hnumber
    obtain rfl : i = k := Nat.succ.inj hnumber
    obtain ⟨hs, hfinding⟩ := findings_logicStep.mp hfinding
    obtain ⟨site', hsite', -, hstatement⟩ := exists_site hline
    obtain rfl : site' = site := Option.some.inj (hsite'.symm.trans hsite)
    exact ⟨_, hstatement.mp hs, receiver_mem_logicDraft.mp hfinding⟩
  · rintro ⟨line, hline, hmissing⟩
    obtain ⟨site, hsite, rfl, hstatement⟩ := exists_site hline.1
    exact ⟨k, _, ⟨site, hsite, rfl⟩,
      findings_logicStep.mpr ⟨hstatement.mpr hline, receiver_mem_logicDraft.mpr hmissing⟩,
      (number_logicStep _ site).trans (getElem?_ofLines hsite).1⟩

lemma getElem?_lines_logic {text : Text} {k : Nat} {site : Site}
    (hsite : (Site.ofLines text.lines)[k]? = some site) : (logic text).text.lines[k]? =
      some (if site.isStatement then revisedLine (logicDraft (leftAbove text k)) site.line
        else site.line) := by
  have hvisit := getElem?_visit_logicStep text k
  rw [logic, lines_outcome (visit_logicStep_revisedTo text), List.getElem?_map, hvisit, hsite,
    Option.map_some, Option.map_some, logicStep]
  by_cases hs : site.isStatement = true
  · simp only [hs, if_true]
    rfl
  · simp only [hs]
    rfl

/-- The code of a statement is mended below the lines as they were left. -/
lemma codeOfLine_logic {text line : Text} {k : Nat} (h : StatementAt .start text.lines k line) :
    ∃ line', (logic text).text.lines[k]? = some line' ∧
      codeOfLine line' = (logicDraft (leftAbove text k) (codeOfLine line)).code := by
  obtain ⟨site, hsite, rfl, hstatement⟩ := exists_site h.1
  refine ⟨revisedLine (logicDraft (leftAbove text k)) site.line, ?_,
    (sameLayout_logicDraft (leftAbove text k) (codeOfLine site.line)).recodes.code_eq⟩
  rw [getElem?_lines_logic hsite, if_pos (hstatement.mpr h)]

/-- A line that starts no statement is left as it is. -/
lemma getElem?_logic_of_not_statement {text line : Text} {k : Nat}
    (hline : text.lines[k]? = some line) (h : ¬StatementAt .start text.lines k line) :
    (logic text).text.lines[k]? = some line := by
  obtain ⟨site, hsite, rfl, hstatement⟩ := exists_site hline
  rw [getElem?_lines_logic hsite, if_neg fun hs => h (hstatement.mp hs)]

/-! ## Classes -/

/-- A line at a column is directly in the body of a class: of the nearest statements above it, the
last one to the left is the line of a class. -/
def StandsInClass (lines : List Text) (k column : Nat) : Prop :=
  ∃ j line, j < k ∧ k ≤ j + classLookback ∧ StatementAt .start lines j line ∧
    isClassLine line = true ∧ line.column < column ∧
    ∀ i between, j < i → i < k → StatementAt .start lines i between → column ≤ between.column

lemma mem_take_reverse_take {lines : List Text} {j k n : Nat} {line : Text}
    (hline : lines[j]? = some line) (hk : k ≤ lines.length) (hj : j < k) (hn : k ≤ j + n) :
    line ∈ ((lines.take k).reverse).take n := by
  have hlength : (lines.take k).length = k := List.length_take_of_le hk
  refine List.mem_of_getElem? (i := k - 1 - j) ?_
  rw [List.getElem?_take_of_lt (by omega), List.getElem?_reverse (by omega), hlength,
    show k - 1 - (k - 1 - j) = j by omega, List.getElem?_take_of_lt hj, hline]

lemma StandsInClass.seesClass {lines : List Text} {k column : Nat} (hk : k ≤ lines.length)
    (h : StandsInClass lines k column) : SeesClass ((lines.take k).reverse) column := by
  obtain ⟨j, line, hj, hnear, hstatement, hclass, hcolumn, -⟩ := h
  exact ⟨line, mem_take_reverse_take hstatement.1 hk hj hnear, hclass, hcolumn⟩

/-! ## Functions that are given a receiver -/

/-- A receiver is given to the functions without parameters that have the line of a class, indented
less, among the ten lines above, whatever else stands there, and are not static. It is put into the
parentheses; other statements are mended as if nothing stood above, and other lines are left as they
are. So a function directly in the body of a class is given one unless it is static. -/
theorem receiver_given_iff (text : Text) :
    (∀ k receiver, GivesReceiver text k receiver ↔ ∃ line, StatementAt .start text.lines k line ∧
      (emptyParameters? (codeOfLine line)).isSome = true ∧
      askedReceiver? (leftAbove text k) = some receiver ∧
      SeesClass (leftAbove text k) (codeOfLine line).column) ∧
    (∀ k line, StatementAt .start text.lines k line →
      ∃ line', (logic text).text.lines[k]? = some line' ∧
        (∀ receiver, GivesReceiver text k receiver → ∃ head after after',
          emptyParameters? (codeOfLine line) = some (head, after) ∧
          codeOfLine line' = head ++ ("(" ++ (receiver.name ++ (")" ++ after')))) ∧
        ((∀ receiver, ¬GivesReceiver text k receiver) →
          codeOfLine line' = (logicDraft [] (codeOfLine line)).code ∧
          ∀ head after, emptyParameters? (codeOfLine line) = some (head, after) →
            ∃ after', emptyParameters? (codeOfLine line') = some (head, after'))) ∧
    (∀ k line, text.lines[k]? = some line → ¬StatementAt .start text.lines k line →
      (logic text).text.lines[k]? = some line) ∧
    (∀ k line receiver, StatementAt .start text.lines k line →
      (emptyParameters? (codeOfLine line)).isSome = true →
      StandsInClass (logic text).text.lines k (codeOfLine line).column →
      askedReceiver? (leftAbove text k) = some receiver → GivesReceiver text k receiver) := by
  have hgives : ∀ k line, StatementAt .start text.lines k line → ∀ receiver,
      GivesReceiver text k receiver ↔
        missingReceiver? (leftAbove text k) (codeOfLine line) = some receiver := by
    intro k line hline receiver
    rw [givesReceiver_iff_missing]
    refine ⟨fun ⟨line', hline', hmissing⟩ => ?_, fun hmissing => ⟨line, hline, hmissing⟩⟩
    obtain rfl : line' = line := Option.some.inj (hline'.1.symm.trans hline.1)
    exact hmissing
  refine ⟨fun k receiver => ?_, fun k line hline => ?_,
    fun k line hline h => getElem?_logic_of_not_statement hline h,
    fun k line receiver hline hempty hclass hasked => ?_⟩
  · simp only [givesReceiver_iff_missing, missingReceiver?_eq_some_iff]
  · obtain ⟨line', hline', hcode⟩ := codeOfLine_logic hline
    refine ⟨line', hline', fun receiver hgiven => ?_, fun hnone => ?_⟩
    · have hmissing := (hgives k line hline receiver).mp hgiven
      obtain ⟨⟨head, after⟩, hempty⟩ :=
        Option.isSome_iff_exists.mp (missingReceiver?_eq_some_iff.mp hmissing).1
      obtain ⟨after', hafter⟩ := exists_received hempty hmissing
      exact ⟨head, after, after', hempty, hcode.trans hafter⟩
    · have hmissing : missingReceiver? (leftAbove text k) (codeOfLine line) = none :=
        Option.eq_none_iff_forall_ne_some.mpr fun receiver hmissing =>
          hnone receiver ((hgives k line hline receiver).mpr hmissing)
      refine ⟨hcode.trans (code_logicDraft_nil hmissing), fun head after hempty => ?_⟩
      rw [hcode]
      exact exists_unreceived hempty hmissing
  · have hlength : k ≤ (logic text).text.lines.length := by
      obtain ⟨hk, -⟩ := List.getElem?_eq_some_iff.mp hline.1
      rw [@Pass.length_lines .logic text (logic text) rfl]
      exact hk.le
    exact (hgives k line hline receiver).mpr
      (missingReceiver?_eq_some_iff.mpr ⟨hempty, hasked, hclass.seesClass hlength⟩)

/-- A function inside of a method is taken for a method itself. -/
theorem receiver_given_inside_method :
    logic "class A:\n  def m(self):\n    def h(): pass" =
      ⟨"class A:\n  def m(self):\n    def h(self): pass",
        [.atLine (.fixed (.receiver .self)) 3]⟩ ∧
    ¬∀ text k receiver line, GivesReceiver text k receiver →
      StatementAt .start text.lines k line →
      (emptyParameters? (codeOfLine line)).isSome = true ∧
        StandsInClass text.lines k (codeOfLine line).column := by
  have hlogic : logic "class A:\n  def m(self):\n    def h(): pass" =
      ⟨"class A:\n  def m(self):\n    def h(self): pass",
        [.atLine (.fixed (.receiver .self)) 3]⟩ := by decide +kernel
  refine ⟨hlogic, fun h => ?_⟩
  have hgiven : GivesReceiver "class A:\n  def m(self):\n    def h(): pass" 2 .self := by
    rw [GivesReceiver, hlogic]
    exact List.mem_singleton_self _
  obtain ⟨-, j, line, hj, -, hline, hclass, -, hbetween⟩ := h _ 2 .self "    def h(): pass" hgiven
    ⟨by decide +kernel, by decide +kernel⟩
  -- The method is nearer than the class, and no class.
  have hmethod : StatementAt .start (lines "class A:\n  def m(self):\n    def h(): pass") 1
      "  def m(self):" := ⟨by decide +kernel, by decide +kernel⟩
  obtain rfl | rfl : j = 0 ∨ j = 1 := by omega
  · exact absurd (hbetween 1 _ (by omega) (by omega) hmethod) (by decide +kernel)
  · obtain rfl := Option.some.inj (hline.1.symm.trans hmethod.1)
    revert hclass
    decide +kernel

end Marginalia.Repair
