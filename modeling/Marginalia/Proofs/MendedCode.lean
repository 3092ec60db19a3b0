import Marginalia.Proofs.ImprovedLogic
import Marginalia.Proofs.ImprovedPitfalls
import Marginalia.Proofs.ImprovedReferences
import Marginalia.Proofs.ImprovedSpelling
import Marginalia.Proofs.Pieces

/-!
# Mended code

Every revision of a line of code leaves it on one line and makes it better, whatever stands behind
the code. So a draft, which is a chain of revisions, reports a fix exactly if its code is no longer
the code of the line.
-/

namespace Marginalia

open Text Repair

/-! Pieces of texts on one line. -/

lemma OneLine.before {t : Text} (h : OneLine t) (rest : Text) : OneLine (Repair.before t rest) :=
  h.subset fun _ hc => List.mem_of_mem_take hc

namespace Repair

/-- A revision that leaves code on one line. -/
def KeepsLine (revision : Text → Option Text) : Prop :=
  ∀ code code', OneLine code → revision code = some code' → OneLine code'

lemma keepsLine_substitute? {rule : Rule} (hrule : rule.KeepsLine) (htakes : rule.Takes) :
    KeepsLine (substitute? rule) := by
  intro code code' hone h
  obtain ⟨rfl, -⟩ := eq_of_changed? h
  exact hrule.substitute htakes hone

/-! References. -/

lemma keepsLine_turnAssignment? : KeepsLine turnAssignment? := by
  intro code code' hone h
  obtain ⟨name, gap, gap', -, -, -, hcode, rfl⟩ := eq_of_turnAssignment? h
  have hindent := hone.indentation
  rw [hcode] at hone
  simp only [oneLine_append] at hone ⊢
  obtain ⟨-, hname, -⟩ := hone
  exact ⟨hindent, by decide, hname, by decide, hname⟩

lemma takes_callRule {old new : Text} (hne : old ≠ []) : (callRule old new).Takes := by
  intro b t n put hr
  obtain ⟨rest, ht, hn, -⟩ := eq_of_callRule hr
  exact ⟨old, rest, ht, hn, hne⟩

lemma keepsLine_callRule {old new : Text} (h : (old, new) ∈ callFixes) :
    KeepsLine (substitute? (callRule old new)) := by
  have htable : ∀ fix ∈ callFixes, fix.1 ≠ [] ∧ OneLine fix.2 := by decide
  obtain ⟨hne, hone⟩ := htable _ h
  refine keepsLine_substitute? (Rule.keepsLine_of_put new hone fun b t n put hr => ?_)
    (takes_callRule hne)
  obtain ⟨rest, -, -, hput⟩ := eq_of_callRule hr
  exact hput

/-! Headers and print statements. -/

lemma keepsLine_addParentheses? : KeepsLine addParentheses? := by
  intro code code' hone h
  simp only [addParentheses?, Option.bind_eq_bind, Option.bind_eq_some_iff, Prod.exists] at h
  obtain ⟨name, rest, hname, h⟩ := h
  split at h
  · obtain ⟨head, hcode⟩ := functionName?_suffix hname
    have hrest : OneLine rest := by
      rw [hcode, oneLine_append] at hone
      exact hone.2
    rw [← Option.some.inj h, oneLine_append, oneLine_append]
    exact ⟨⟨hone.before rest, by decide⟩, hrest.trimStart⟩
  · cases h

lemma keepsLine_addColon? : KeepsLine addColon? := by
  intro code code' hone h
  rw [addColon?] at h
  split at h
  · cases h
  · rw [← Option.some.inj h, oneLine_append]
    exact ⟨hone, by decide⟩

lemma oneLine_callArguments {args : Text} (h : OneLine args) : OneLine (callArguments args) := by
  rw [callArguments]
  split
  · have hdrop : OneLine args.dropLast := h.subset fun _ hc => (List.dropLast_sublist _).subset hc
    exact oneLine_append.mpr ⟨hdrop.trimEnd, by decide⟩
  · exact h

lemma keepsLine_printCall? : KeepsLine printCall? := by
  intro code code' hone h
  have hindent := hone.indentation
  simp only [printCall?, Option.bind_eq_bind, Option.bind_eq_some_iff] at h
  obtain ⟨rest, hrest, h⟩ := h
  rw [eq_of_afterBlanksAnd? hrest] at hone
  simp only [oneLine_append] at hone
  obtain ⟨-, -, hrest⟩ := hone
  cases rest with
  | nil =>
    rw [← Option.some.inj h, oneLine_append]
    exact ⟨hindent, by decide⟩
  | cons c args =>
    simp only at h
    split at h
    · rw [← Option.some.inj h]
      simp only [oneLine_append]
      exact ⟨⟨⟨hindent, by decide⟩, oneLine_callArguments hrest.trim⟩, by decide⟩
    · cases h

/-! Pitfalls. -/

lemma keepsLine_clockRule : clockRule.KeepsLine := by
  refine Rule.keepsLine_of_put "time.time()" (by decide) fun b t n new hr => ?_
  obtain ⟨rest, -, -, hnew⟩ := eq_of_freshLiteral hr
  exact hnew

lemma keepsLine_rangeRule : rangeRule.KeepsLine := by
  intro b t n new hr hone
  obtain ⟨gap, plain, gap₁, gap₂, gap₃, rest, -, ht, hn, rfl⟩ := eq_of_rangeRule hr
  rw [ht, hn, List.take_left] at hone
  simp only [oneLine_append] at hone ⊢
  obtain ⟨-, -, -, hplain, -⟩ := hone
  exact ⟨⟨by decide, hplain⟩, by decide⟩

lemma keepsLine_keyRule : keyRule.KeepsLine := by
  intro b t n new hr hone
  simp only [keyRule, Option.bind_eq_bind, Option.bind_eq_some_iff, Option.guard_eq_some',
    Prod.exists] at hr
  obtain ⟨-, -, name, key, after, hread, hr⟩ := hr
  obtain ⟨gap, gap', -, -, rfl⟩ := eq_of_keyRead? hread
  rw [length_of_taken, List.take_left] at hr
  split at hr
  · obtain ⟨rfl, rfl⟩ := Prod.mk.inj (Option.some.inj hr)
    rw [List.take_left] at hone
    simp only [oneLine_append] at hone ⊢
    obtain ⟨hname, -, -, hkey, -⟩ := hone
    exact ⟨⟨⟨hname, by decide⟩, hkey⟩, by decide⟩
  · obtain ⟨rfl, rfl⟩ := Prod.mk.inj (Option.some.inj hr)
    rwa [List.take_left] at hone

lemma keepsLine_guardKeys? : KeepsLine guardKeys? := by
  intro code code' hone h
  rw [guardKeys?] at h
  split at h
  · cases h
  · exact keepsLine_substitute? keepsLine_keyRule gains_keyRule.takes _ _ hone h

lemma oneLine_convertOperand (texts : List Text) {piece : Text} (h : OneLine piece) :
    OneLine (convertOperand texts piece) := by
  rw [convertOperand]
  split
  · have hdrop : OneLine (piece.drop (trimEnd piece).length) :=
      h.subset fun _ hc => List.mem_of_mem_drop hc
    simp only [oneLine_append]
    exact ⟨⟨⟨⟨h.indentation, by decide⟩, h.trim⟩, by decide⟩, hdrop⟩
  · exact h

/-- Pieces that stay on one line leave the text that they are joined to on one line. -/
lemma oneLine_join_map (sep : Char) (hsep : sep ≠ '\n') {f : Text → Text}
    (hf : ∀ piece, OneLine piece → OneLine (f piece)) {t : Text} (h : OneLine t) :
    OneLine (join [sep] ((rawPieces sep t).map f)) := by
  have hone : OneLine [sep] := oneLine_cons.mpr ⟨hsep, oneLine_nil⟩
  rw [oneLine_join hone]
  intro piece hpiece
  obtain ⟨raw, hraw, rfl⟩ := List.mem_map.mp hpiece
  exact hf raw (h.piece (infix_of_mem_rawPieces hraw))

lemma oneLine_convertArguments (texts : List Text) {arguments : Text} (h : OneLine arguments) :
    OneLine (convertArguments texts arguments) := by
  refine oneLine_join_map ',' (by decide) (fun argument hargument => ?_) h
  rw [convertArgument]
  split
  · exact oneLine_join_map '+' (by decide) (fun _ => oneLine_convertOperand texts) hargument
  · exact hargument

lemma keepsLine_convertPrinted? (texts : List Text) : KeepsLine (convertPrinted? texts) := by
  intro code code' hone h
  obtain ⟨head, inside, after, rfl, rfl, -⟩ := eq_of_convertPrinted? h
  simp only [oneLine_append] at hone ⊢
  obtain ⟨hhead, hprint, hinside, hafter⟩ := hone
  exact ⟨hhead, hprint, oneLine_convertArguments texts hinside, hafter⟩

lemma keepsLine_convertInput? (later : List (LineInfo × Text)) :
    KeepsLine (convertInput? later) := by
  intro code code' hone h
  obtain ⟨head, inside, after, -, rfl, rfl⟩ := eq_of_convertInput? h
  simp only [oneLine_append] at hone ⊢
  obtain ⟨hhead, -, -, hinside, -⟩ := hone
  exact ⟨hhead, by decide, hinside, by decide⟩

lemma oneLine_of_quotedNumber? {t digits : Text} (hone : OneLine t)
    (h : quotedNumber? t = some digits) : OneLine digits := by
  cases t with
  | nil => cases h
  | cons q rest =>
    rw [quotedNumber?] at h
    split at h
    · simp only at h
      split at h
      · rw [← Option.some.inj h]
        exact (oneLine_cons.mp hone).2.subset fun _ hc => (List.dropLast_sublist _).subset hc
      · cases h
    · cases h

lemma keepsLine_incrementByNumber? : KeepsLine incrementByNumber? := by
  intro code code' hone h
  have hindent := hone.indentation
  simp only [incrementByNumber?, Option.bind_eq_bind, Option.bind_eq_some_iff, Prod.exists,
    Option.guard_eq_some'] at h
  obtain ⟨path, value, hpath, digits, hdigits, -, -, h⟩ := h
  obtain ⟨gap, -, hcode⟩ := eq_of_assignedPath? hpath
  rw [hcode] at hone
  simp only [oneLine_append] at hone
  obtain ⟨-, hpathLine, -, -, hvalue⟩ := hone
  rw [← Option.some.inj h]
  simp only [oneLine_append]
  exact ⟨⟨⟨hindent, hpathLine⟩, by decide⟩, oneLine_of_quotedNumber? hvalue.trimStart hdigits⟩

lemma oneLine_filled {inside : Text} (h : OneLine inside) (missing : Nat) :
    OneLine (filled inside missing) := by
  rw [filled, oneLine_join (by decide)]
  intro argument hmem
  rcases List.mem_append.mp hmem with hargument | hnone
  · rw [argumentsOf_eq] at hargument
    obtain ⟨piece, hpiece, rfl⟩ := List.mem_map.mp (List.mem_of_mem_filter hargument)
    exact (h.piece (infix_of_mem_rawPieces hpiece)).trim
  · rw [List.eq_of_mem_replicate hnone]
    decide

lemma Picked.oneLine {prev : Option Char} {code : Text} {call : ShortCall}
    {before inside after : Text} (h : Picked prev code call before inside after)
    (hone : OneLine code) : OneLine call.completed := by
  rw [h.code] at hone
  rw [h.completed]
  simp only [oneLine_append, oneLine_cons] at hone ⊢
  obtain ⟨hbefore, hname, hopen, hinside, hclose, hafter⟩ := hone
  exact ⟨hbefore, hname, hopen, oneLine_filled hinside call.missing, hclose, hafter⟩

/-- Completed calls leave code on one line, and make it heavier exactly if there are any. -/
lemma completeCallsWithin_told {arities : Arities} {fuel : Nat} {code code' : Text}
    {added : List (Text × Nat)} (hone : OneLine code)
    (h : completeCallsWithin arities fuel code = some (added, code')) :
    OneLine code' ∧ (added = [] ∧ code' = code ∨ added ≠ [] ∧ weight code < weight code') := by
  induction fuel generalizing code added with
  | zero =>
    rw [completeCallsWithin] at h
    cases hc : shortCall? arities none code with
    | none =>
      rw [hc] at h
      obtain ⟨rfl, rfl⟩ := Prod.mk.inj (Option.some.inj h)
      exact ⟨hone, .inl ⟨rfl, rfl⟩⟩
    | some call =>
      rw [hc] at h
      cases h
  | succ fuel ih =>
    rw [completeCallsWithin] at h
    cases hc : shortCall? arities none code with
    | none =>
      rw [hc] at h
      obtain ⟨rfl, rfl⟩ := Prod.mk.inj (Option.some.inj h)
      exact ⟨hone, .inl ⟨rfl, rfl⟩⟩
    | some call =>
      rw [hc] at h
      obtain ⟨⟨added', code''⟩, hrest, heq⟩ := Option.map_eq_some_iff.mp h
      obtain ⟨rfl, rfl⟩ := Prod.mk.inj heq
      obtain ⟨before, inside, after, hpicked⟩ := shortCall?_picked hc
      have hlt := hpicked.weight_lt
      obtain ⟨hline, htold⟩ := ih (hpicked.oneLine hone) hrest
      refine ⟨hline, .inr ⟨List.cons_ne_nil _ _, ?_⟩⟩
      rcases htold with ⟨-, heq⟩ | ⟨-, hmore⟩
      · rw [heq]
        exact hlt
      · omega

/-! Logic. -/

lemma oneLine_doubleEquality (s : CodeState) (prev : Option Char) {t : Text} (h : OneLine t) :
    OneLine (doubleEquality s prev t) := by
  induction t generalizing s prev with
  | nil => exact h
  | cons c rest ih =>
    obtain ⟨hc, hrest⟩ := oneLine_cons.mp h
    have hdoubled := ih (s.step c).1 (some c) hrest
    rw [doubleEquality]
    split
    · simp only [oneLine_cons]
      exact ⟨by decide, by decide, hdoubled⟩
    · exact oneLine_cons.mpr ⟨hc, hdoubled⟩

lemma keepsLine_compareInCondition? : KeepsLine compareInCondition? := by
  intro code code' hone h
  obtain ⟨head, condition, tail, rfl, rfl, -⟩ := eq_of_compareInCondition? h
  simp only [oneLine_append] at hone ⊢
  obtain ⟨hhead, hcondition, htail⟩ := hone
  exact ⟨hhead, oneLine_doubleEquality _ _ hcondition, htail⟩

lemma keepsLine_addReceiver? (receiver : Receiver) : KeepsLine (addReceiver? receiver) := by
  intro code code' hone h
  obtain ⟨head, gap, gap', after, -, -, rfl, rfl⟩ := eq_of_addReceiver? h
  have hname : OneLine receiver.name := by cases receiver <;> decide
  simp only [oneLine_append] at hone ⊢
  obtain ⟨hhead, hgap, hopen, -, hclose, hafter⟩ := hone
  exact ⟨hhead, hgap, hopen, hname, hclose, hafter⟩

lemma keepsLine_noneRule {sign new : Text} (hnew : OneLine new) :
    (noneRule sign new).KeepsLine := by
  exact Rule.keepsLine_of_put new hnew fun b t n put hr => (eq_of_noneRule hr).2.1

/-! Drafts. -/

lemma code_mend_substitute? (rule : Rule) (fix : Fix) (d : Draft) :
    (d.mend fix (substitute? rule)).code = substitute rule d.code := by
  rw [Draft.mend, substitute?, changed?]
  split
  · next code hc =>
    split at hc
    · cases hc
    · exact (Option.some.inj hc).symm
  · next hc =>
    split at hc
    · next heq => exact heq.symm
    · cases hc

/-- A revision that leaves code on one line and makes it better, whatever stands behind it. -/
def Mends (revision : Text → Option Text) : Prop :=
  ∀ code code', OneLine code → revision code = some code' →
    OneLine code' ∧ ∀ tail, Better (code ++ tail) (code' ++ tail)

lemma Better.of_weight {code code' : Text} (h : weight code < weight code') (tail : Text) :
    Better (code ++ tail) (code' ++ tail) := by
  left
  rw [weight_append, weight_append]
  omega

lemma Mends.of_enriches {revision : Text → Option Text} (hweight : Enriches revision)
    (hline : KeepsLine revision) : Mends revision := fun code code' hone h =>
  ⟨hline code code' hone h, Better.of_weight (hweight code code' h)⟩

lemma mends_turnAssignment? : Mends turnAssignment? := fun code code' hone h =>
  ⟨keepsLine_turnAssignment? code code' hone h, turnAssignment_better hone h⟩

lemma mends_callRule {old new : Text} (hmem : (old, new) ∈ callFixes) :
    Mends (substitute? (callRule old new)) := by
  intro code code' hone h
  refine ⟨keepsLine_callRule hmem code code' hone h, fun tail => ?_⟩
  obtain ⟨-, hne⟩ := eq_of_changed? h
  rcases substitute_callRule_better hmem h tail with heq | hbetter
  · obtain ⟨rfl, -⟩ := eq_of_changed? h
    exact absurd (List.append_cancel_right heq) hne
  · exact hbetter

lemma mends_noneRule {sign new : Text} (hsign : sign ≠ [])
    (hweight : weight sign + weight ("None" : Text) < weight new) (hnew : OneLine new) :
    Mends (substitute? (noneRule sign new)) :=
  .of_enriches (gains_noneRule hsign hweight).enriches
    (keepsLine_substitute? (keepsLine_noneRule hnew) (gains_noneRule hsign hweight).takes)

/-- A draft of code on one line that reports a fix exactly if its code became better. -/
structure Draft.Tells (d : Draft) (code : Text) : Prop where
  oneLine : OneLine d.code
  told : (d.code = code ∧ ∀ fix, .fixed fix ∉ d.findings) ∨
    ((∀ tail, Better (code ++ tail) (d.code ++ tail)) ∧ ∃ fix, .fixed fix ∈ d.findings)

lemma Draft.tells_ofCode {code : Text} (h : OneLine code) : (Draft.ofCode code).Tells code :=
  ⟨h, .inl ⟨rfl, fun _ => List.not_mem_nil⟩⟩

/-- A draft that goes on from another one to better code, and reports that. -/
lemma Draft.Tells.further {d d' : Draft} {code : Text} (h : d.Tells code) (hone : OneLine d'.code)
    (hbetter : ∀ tail, Better (d.code ++ tail) (d'.code ++ tail))
    (hfix : ∃ fix, .fixed fix ∈ d'.findings) : d'.Tells code := by
  refine ⟨hone, .inr ⟨fun tail => ?_, hfix⟩⟩
  rcases h.told with ⟨heq, -⟩ | ⟨hfirst, -⟩
  · rw [← heq]
    exact hbetter tail
  · exact (hfirst tail).trans (hbetter tail)

lemma Draft.Tells.mend {d : Draft} {code : Text} (h : d.Tells code)
    {revision : Text → Option Text} (hrevision : Mends revision) (fix : Fix) :
    (d.mend fix revision).Tells code := by
  rw [Draft.mend]
  cases hr : revision d.code with
  | none => exact h
  | some code' =>
    obtain ⟨hone, hbetter⟩ := hrevision _ _ h.oneLine hr
    exact h.further hone hbetter ⟨fix, by simp⟩

lemma Draft.Tells.advise {d : Draft} {code : Text} (h : d.Tells code) (advice : Advice)
    (reason : Text → Bool) : (d.advise advice reason).Tells code := by
  have hfixed : ∀ fix, Finding.fixed fix ∈ (d.advise advice reason).findings ↔
      Finding.fixed fix ∈ d.findings := by
    intro fix
    rw [Draft.advise]
    split
    · simp
    · exact Iff.rfl
  refine ⟨?_, ?_⟩
  · rw [Draft.advise_code]
    exact h.oneLine
  · simp only [Draft.advise_code, hfixed]
    exact h.told

lemma referenceDraft_tells {code : Text} (hone : OneLine code) (inInitializer : Bool) :
    (referenceDraft inInitializer code).Tells code := by
  have hfold : ∀ (table : List (Text × Text)) (d : Draft), (∀ fix ∈ table, fix ∈ callFixes) →
      d.Tells code → (table.foldl (fun d fix =>
        d.mend (.replaced fix.1 fix.2) (substitute? (callRule fix.1 fix.2))) d).Tells code := by
    intro table
    induction table with
    | nil => exact fun d _ hd => hd
    | cons fix rest ih =>
      intro d hmem hd
      have hfix := hd.mend (mends_callRule (hmem fix List.mem_cons_self)) (.replaced fix.1 fix.2)
      exact ih _ (fun fix hfix => hmem fix (List.mem_cons_of_mem _ hfix)) hfix
  have hstart := Draft.tells_ofCode hone
  unfold referenceDraft
  generalize callFixes = table at hfold ⊢
  cases inInitializer with
  | false => exact hfold table _ (fun _ h => h) hstart
  | true =>
    exact hfold table _ (fun _ h => h) (hstart.mend mends_turnAssignment? .assignmentOrder)

lemma headerDraft_tells {code : Text} (hone : OneLine code) : (headerDraft code).Tells code := by
  have hparentheses : Mends addParentheses? :=
    .of_enriches enriches_addParentheses? keepsLine_addParentheses?
  have hcolon : Mends addColon? := .of_enriches enriches_addColon? keepsLine_addColon?
  unfold headerDraft
  split
  · exact ((Draft.tells_ofCode hone).mend hparentheses _).mend hcolon _
  · exact Draft.tells_ofCode hone

lemma printDraft_tells {code : Text} (hone : OneLine code) : (printDraft code).Tells code :=
  (Draft.tells_ofCode hone).mend (.of_enriches enriches_printCall? keepsLine_printCall?) _

lemma pitfallDraft?_tells {arities : Arities} {texts : List Text}
    {later : List (LineInfo × Text)} {code : Text} {d : Draft} (hone : OneLine code)
    (h : pitfallDraft? arities texts later code = some d) : d.Tells code := by
  have hclock : Mends (substitute? clockRule) := .of_enriches gains_clockRule.enriches
    (keepsLine_substitute? keepsLine_clockRule gains_clockRule.takes)
  have hprinted : Mends (convertPrinted? texts) :=
    .of_enriches (enriches_convertPrinted? texts) (keepsLine_convertPrinted? texts)
  have hinput : Mends (convertInput? later) :=
    .of_enriches (enriches_convertInput? later) (keepsLine_convertInput? later)
  have hrange : Mends (substitute? rangeRule) := .of_enriches gains_rangeRule.enriches
    (keepsLine_substitute? keepsLine_rangeRule gains_rangeRule.takes)
  have hkeys : Mends guardKeys? := .of_enriches enriches_guardKeys? keepsLine_guardKeys?
  have hincrement : Mends incrementByNumber? :=
    .of_enriches enriches_incrementByNumber? keepsLine_incrementByNumber?
  have hmended := ((((((Draft.tells_ofCode hone).mend hclock .clock).mend hprinted
    .textConversion).mend hinput .numberConversion).mend hrange .rangeEnd).mend hkeys
    .keyRead).mend hincrement .increment
  unfold pitfallDraft? completeArguments? at h
  split at h
  · exact Option.some.inj h ▸ hmended
  · obtain ⟨⟨added, code'⟩, hcalls, rfl⟩ := Option.map_eq_some_iff.mp h
    obtain ⟨hline, ⟨rfl, heq⟩ | ⟨hadded, hlt⟩⟩ := completeCallsWithin_told hmended.oneLine hcalls
    · simpa [heq] using hmended
    · obtain ⟨call, rest, rfl⟩ := List.exists_cons_of_ne_nil hadded
      exact hmended.further hline (Better.of_weight hlt) ⟨.arguments call.1 call.2, by simp⟩

lemma logicDraft_tells {code : Text} (hone : OneLine code) (above : List Text) :
    (logicDraft above code).Tells code := by
  have hcondition : Mends compareInCondition? :=
    .of_enriches enriches_compareInCondition? keepsLine_compareInCondition?
  have hisNone : Mends (substitute? (noneRule "==" " is None")) :=
    mends_noneRule (by decide) (by decide) (by decide)
  have hisNotNone : Mends (substitute? (noneRule "!=" " is not None")) :=
    mends_noneRule (by decide) (by decide) (by decide)
  have hcompared := (Draft.tells_ofCode hone).mend hcondition .conditionAssignment
  have hreceived : ∀ d : Draft, d.Tells code → (mendReceiver above d).Tells code := by
    intro d hd
    unfold mendReceiver
    split
    · next receiver _ =>
      exact hd.mend (.of_enriches (enriches_addReceiver? receiver) (keepsLine_addReceiver? receiver)) _
    · exact hd
  unfold logicDraft
  exact (((((hreceived _ hcompared).mend hisNone _).mend hisNotNone _).advise _ _).advise _ _).advise
    _ _

end Repair
end Marginalia
