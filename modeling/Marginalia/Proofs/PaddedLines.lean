import Marginalia.Proofs.Margins
import Marginalia.Proofs.RevisedLines

/-!
# Lines with margins

A pass that goes through the lines of a text makes of lines with margins of blanks what it makes of
the lines without, each with its margin, and reports the same fixes. Advice is left out: whether
a line of the one word `for` starts a loop depends on a blank behind it.
-/

namespace Marginalia.Repair

open Text

/-! Lists with a margin for each place. -/

/-- Lists whose elements are related, each pair under the margin in its place. -/
inductive Along {α β : Type} (r : Text → α → β → Prop) : List Text → List α → List β → Prop
  | nil : Along r [] [] []
  | cons {margin : Text} {margins : List Text} {a : α} {as : List α} {b : β} {bs : List β}
    (h : r margin a b) (hrest : Along r margins as bs) :
    Along r (margin :: margins) (a :: as) (b :: bs)

namespace Along

variable {α β γ δ : Type} {r : Text → α → β → Prop} {margins : List Text} {as : List α} {bs : List β}

lemma map {r' : Text → γ → δ → Prop} {f : α → γ} {g : β → δ}
    (hr : ∀ margin a b, r margin a b → r' margin (f a) (g b)) (h : Along r margins as bs) :
    Along r' margins (as.map f) (bs.map g) := by
  induction h with
  | nil => exact .nil
  | cons h _ ih => exact .cons (hr _ _ _ h) ih

lemma forall₂ (r' : α → β → Prop) (hr : ∀ margin a b, r margin a b → r' a b)
    (h : Along r margins as bs) : List.Forall₂ r' as bs := by
  induction h with
  | nil => exact .nil
  | cons h _ ih => exact .cons (hr _ _ _ h) ih

lemma map_eq {f : α → γ} {g : β → γ} (hr : ∀ margin a b, r margin a b → g b = f a)
    (h : Along r margins as bs) : bs.map g = as.map f := by
  induction h with
  | nil => rfl
  | cons h _ ih => rw [List.map_cons, List.map_cons, ih, hr _ _ _ h]

lemma length_eq (h : Along r margins as bs) :
    margins.length = as.length ∧ as.length = bs.length := by
  induction h with
  | nil => exact ⟨rfl, rfl⟩
  | cons _ _ ih =>
    simp only [List.length_cons, Nat.add_right_cancel_iff]
    exact ih

end Along

/-! Lines, sites and revised lines with margins. -/

/-- A line, and the same with a margin. -/
structure PaddedLine (margin line line' : Text) : Prop where
  blank : margin.isAllBlank = true
  oneLine : OneLine line'
  line : line' = line ++ margin

lemma PaddedLine.oneLine_both {margin line line' : Text} (h : PaddedLine margin line line') :
    OneLine line ∧ OneLine margin := by
  rw [← oneLine_append, ← h.line]
  exact h.oneLine

/-- A line with its layout, and the same with a margin. -/
structure PaddedPair (margin : Text) (p p' : LineInfo × Text) : Prop where
  line : PaddedLine margin p.2 p'.2
  info : p'.1 = p.1
  code : p.1.role = .statement ∨ p.1.role = .continuation → p.2.isAllBlank = false

/-- A line among others, and the same where lines have margins. -/
structure Site.PaddedBy (margin : Text) (s s' : Site) : Prop where
  pair : PaddedPair margin (s.info, s.line) (s'.info, s'.line)
  number : s'.number = s.number
  later : lookahead s'.later = lookahead s.later

/-- Whether something was mended. -/
def Finding.isFix : Finding → Bool
  | .fixed _ => true
  | .advised _ => false

/-- A revised line, and the same with a margin. -/
structure Revised.PaddedBy (margin : Text) (r r' : Revised) : Prop where
  line : PaddedLine margin r.line r'.line
  number : r'.number = r.number
  fixes : r'.findings.filter Finding.isFix = r.findings.filter Finding.isFix

lemma along_layout {s : LayoutState} (hs : s.Quoted) {margins lines lines' : List Text}
    (h : Along PaddedLine margins lines lines') :
    Along PaddedPair margins ((s.layout lines).zip lines) ((s.layout lines').zip lines') := by
  induction h generalizing s with
  | nil => exact .nil
  | @cons margin margins line rest line' rest' hline _ ih =>
    have hstep : s.step line' = s.step line := by
      rw [hline.line]
      exact LayoutState.step_margin hs hline.blank line
    rw [LayoutState.layout, LayoutState.layout, hstep]
    exact .cons ⟨hline, rfl, LayoutState.not_blank_of_role⟩ (ih (hs.step line))

/-- The code of lines with certain roles. -/
lemma codes_eq {p : LineInfo → Bool} {margins : List Text} {lines lines' : List (LineInfo × Text)}
    (h : Along PaddedPair margins lines lines') :
    (lines'.filter fun l => p l.1).map (fun l => codeOfLine l.2) =
      (lines.filter fun l => p l.1).map fun l => codeOfLine l.2 := by
  induction h with
  | nil => rfl
  | @cons margin margins l rest l' rest' hl _ ih =>
    have hcode : codeOfLine l'.2 = codeOfLine l.2 := by
      rw [hl.line.line]
      exact codeOfLine_margin hl.line.blank l.2
    rw [List.filter_cons, List.filter_cons, hl.info]
    split
    · rw [List.map_cons, List.map_cons, hcode, ih]
    · exact ih

lemma lookahead_eq {margins : List Text} {lines lines' : List (LineInfo × Text)}
    (h : Along PaddedPair margins lines lines') : lookahead lines' = lookahead lines := by
  have hcodes := codes_eq (p := fun info => info.role == .statement || info.role == .continuation) h
  unfold lookahead
  rw [List.map_take, List.map_take]
  exact congrArg (List.take inputLookahead) hcodes

lemma along_numbered (n : Nat) {margins : List Text} {lines lines' : List (LineInfo × Text)}
    (h : Along PaddedPair margins lines lines') :
    Along Site.PaddedBy margins (Site.numbered n lines) (Site.numbered n lines') := by
  induction h generalizing n with
  | nil => exact .nil
  | cons hl hrest ih => exact .cons ⟨hl, rfl, lookahead_eq hrest⟩ (ih (n + 1))

lemma along_ofLines {margins lines lines' : List Text} (h : Along PaddedLine margins lines lines') :
    Along Site.PaddedBy margins (Site.ofLines lines) (Site.ofLines lines') :=
  along_numbered 1 (along_layout LayoutState.quoted_start h)

namespace Site.PaddedBy

variable {margin : Text} {s s' : Site}

lemma role_eq (h : s.PaddedBy margin s') : s'.info = s.info := h.pair.info

lemma line_eq (h : s.PaddedBy margin s') : s'.line = s.line ++ margin := h.pair.line.line

lemma oneLine (h : s.PaddedBy margin s') : OneLine s.line := h.pair.line.oneLine_both.1

lemma isStatement_eq (h : s.PaddedBy margin s') : s'.isStatement = s.isStatement := by
  rw [Site.isStatement, Site.isStatement, h.role_eq]

lemma isWholeStatement_eq (h : s.PaddedBy margin s') :
    s'.isWholeStatement = s.isWholeStatement := by
  rw [Site.isWholeStatement, Site.isWholeStatement, h.isStatement_eq, h.role_eq]

lemma code_eq (h : s.PaddedBy margin s') : s'.code = s.code := by
  rw [Site.code, h.line_eq, splitComment_margin h.pair.line.blank]
  rfl

lemma tail_eq (h : s.PaddedBy margin s') : s'.tail = s.tail ++ margin := by
  rw [Site.tail, h.line_eq, splitComment_margin h.pair.line.blank]
  rfl

lemma same (h : s.PaddedBy margin s') : (Revised.same s).PaddedBy margin (.same s') :=
  ⟨h.pair.line, h.number, rfl⟩

lemma ofDraft (h : s.PaddedBy margin s') {d d' : Draft} (hone : OneLine d.code)
    (hcode : d'.code = d.code)
    (hfixes : d'.findings.filter Finding.isFix = d.findings.filter Finding.isFix) :
    (Revised.ofDraft s d).PaddedBy margin (.ofDraft s' d') := by
  have hline : (Revised.ofDraft s' d').line = (Revised.ofDraft s d).line ++ margin := by
    show d'.code ++ s'.tail = d.code ++ s.tail ++ margin
    rw [hcode, h.tail_eq, List.append_assoc]
  have htail : OneLine s.tail := by
    have hs := h.oneLine
    rw [← s.code_append_tail, oneLine_append] at hs
    exact hs.2
  refine ⟨⟨h.pair.line.blank, ?_, hline⟩, h.number, hfixes⟩
  rw [hline, oneLine_append]
  exact ⟨oneLine_append.mpr ⟨hone, htail⟩, h.pair.line.oneLine_both.2⟩

end Site.PaddedBy

/-! Visits. -/

lemma along_visit {σ α : Type} {step : σ → Site → σ × α} (rσ : σ → σ → Prop)
    (r : Text → α → α → Prop)
    (hstep : ∀ margin a a' s s', rσ a a' → Site.PaddedBy margin s s' →
      rσ (step a s).1 (step a' s').1 ∧ r margin (step a s).2 (step a' s').2)
    {margins : List Text} {sites sites' : List Site} (h : Along Site.PaddedBy margins sites sites')
    {a a' : σ} (ha : rσ a a') : Along r margins (visit step a sites) (visit step a' sites') := by
  induction h generalizing a a' with
  | nil => exact .nil
  | cons hs _ ih =>
    obtain ⟨hstate, hresult⟩ := hstep _ _ _ _ _ ha hs
    exact .cons hresult (ih hstate)

/-- A visit whose state does not notice margins. -/
lemma along_visit_same {σ α : Type} {step : σ → Site → σ × α} (r : Text → α → α → Prop)
    (hstep : ∀ margin a s s', Site.PaddedBy margin s s' →
      (step a s).1 = (step a s').1 ∧ r margin (step a s).2 (step a s').2)
    {margins : List Text} {sites sites' : List Site} (h : Along Site.PaddedBy margins sites sites')
    (a : σ) : Along r margins (visit step a sites) (visit step a sites') := by
  refine along_visit Eq r (fun margin a a' s s' ha hs => ?_) h rfl
  rw [← ha]
  exact hstep margin a s s' hs

/-- A revised line and the same with a margin, if there is any. -/
def PaddedResult (margin : Text) (o o' : Option Revised) : Prop :=
  o = none ∧ o' = none ∨ ∃ r r', o = some r ∧ o' = some r' ∧ r.PaddedBy margin r'

lemma along_mapM_id {margins : List Text} {rs rs' : List (Option Revised)}
    (h : Along PaddedResult margins rs rs') :
    rs.mapM id = none ∧ rs'.mapM id = none ∨ ∃ revised revised', rs.mapM id = some revised ∧
      rs'.mapM id = some revised' ∧ Along Revised.PaddedBy margins revised revised' := by
  induction h with
  | nil => exact .inr ⟨[], [], rfl, rfl, .nil⟩
  | @cons margin margins o rs o' rs' ho _ ih =>
    simp only [List.mapM_cons, id_eq, Option.bind_eq_bind]
    rcases ho with ⟨rfl, rfl⟩ | ⟨r, r', rfl, rfl, hr⟩
    · exact .inl ⟨rfl, rfl⟩
    · rcases ih with ⟨hnone, hnone'⟩ | ⟨revised, revised', hsome, hsome', hrest⟩
      · rw [hnone, hnone']
        exact .inl ⟨rfl, rfl⟩
      · rw [hsome, hsome']
        exact .inr ⟨r :: revised, r' :: revised', rfl, rfl, .cons hr hrest⟩

/-! The passes, line by line. -/

lemma referenceStep_padded {margin : Text} {s s' : Site} (inInitializer : Bool)
    (h : s.PaddedBy margin s') :
    (referenceStep inInitializer s).1 = (referenceStep inInitializer s').1 ∧
      (referenceStep inInitializer s).2.PaddedBy margin (referenceStep inInitializer s').2 := by
  have hname : (functionName? s'.line).map (·.1) = (functionName? s.line).map (·.1) := by
    rw [h.line_eq]
    exact functionName?_margin h.pair.line.blank s.line
  have hdraft : ∀ b, (Revised.ofDraft s (referenceDraft b s.code)).PaddedBy margin
      (.ofDraft s' (referenceDraft b s'.code)) := by
    intro b
    rw [h.code_eq]
    exact h.ofDraft (referenceDraft_tells (Site.oneLine_code h.oneLine) b).oneLine rfl rfl
  unfold referenceStep
  rw [h.isStatement_eq]
  split
  · cases hfound : functionName? s.line with
    | none =>
      rw [hfound, Option.map_none, Option.map_eq_none_iff] at hname
      rw [hname]
      exact ⟨rfl, hdraft _⟩
    | some found =>
      obtain ⟨name, rest⟩ := found
      rw [hfound, Option.map_some, Option.map_eq_some_iff] at hname
      obtain ⟨⟨name', rest'⟩, hfound', rfl⟩ := hname
      rw [hfound']
      exact ⟨rfl, hdraft _⟩
  · exact ⟨rfl, h.same⟩

lemma reviseSites_padded {applies : Site → Bool} {draft : Text → Draft}
    (happlies : ∀ margin s s', Site.PaddedBy margin s s' → applies s' = applies s)
    (hdraft : ∀ code, OneLine code → OneLine (draft code).code) {margins : List Text}
    {sites sites' : List Site} (h : Along Site.PaddedBy margins sites sites') :
    Along Revised.PaddedBy margins
      (sites.map fun s => if applies s then .ofDraft s (draft s.code) else .same s)
      (sites'.map fun s => if applies s then .ofDraft s (draft s.code) else .same s) := by
  refine h.map fun margin s s' hs => ?_
  rw [happlies margin s s' hs]
  split
  · rw [hs.code_eq]
    exact hs.ofDraft (hdraft _ (Site.oneLine_code hs.oneLine)) rfl rfl
  · exact hs.same

lemma pitfallStep_padded (arities : Arities) {margin : Text} {s s' : Site} (texts : List Text)
    (h : s.PaddedBy margin s') :
    (pitfallStep arities texts s).1 = (pitfallStep arities texts s').1 ∧
      PaddedResult margin (pitfallStep arities texts s).2 (pitfallStep arities texts s').2 := by
  have hinput : convertInput? s'.later = convertInput? s.later := by
    funext code
    rw [convertInput?, convertInput?, h.later]
  have hdraft : pitfallDraft? arities texts s'.later s'.code =
      pitfallDraft? arities texts s.later s.code := by
    rw [pitfallDraft?, pitfallDraft?, hinput, h.code_eq]
  unfold pitfallStep
  rw [h.isStatement_eq, hdraft]
  split
  · cases hd : pitfallDraft? arities texts s.later s.code with
    | none => exact ⟨rfl, .inl ⟨rfl, rfl⟩⟩
    | some d =>
      have hone := (pitfallDraft?_tells (Site.oneLine_code h.oneLine) hd).oneLine
      exact ⟨rfl, .inr ⟨_, _, rfl, rfl, h.ofDraft hone rfl rfl⟩⟩
  · exact ⟨rfl, .inr ⟨_, _, rfl, rfl, h.same⟩⟩

lemma aritiesOf_padded {margins lines lines' : List Text}
    (h : Along PaddedLine margins lines lines') : aritiesOf lines' = aritiesOf lines := by
  have hfold (lines : List Text) : aritiesOf lines =
      (((((layout lines).zip lines).filter fun l => l.1.role == .statement).map
        fun l => codeOfLine l.2).foldl (fun found => arityStep found.1 found.2) (none, [])).2 := by
    rw [List.foldl_map]
    rfl
  have hcodes : (((layout lines').zip lines').filter fun l => l.1.role == .statement).map
      (fun l => codeOfLine l.2) =
      (((layout lines).zip lines).filter fun l => l.1.role == .statement).map
        fun l => codeOfLine l.2 :=
    codes_eq (p := fun info => info.role == .statement) (along_layout LayoutState.quoted_start h)
  rw [hfold, hfold, hcodes]

/-! Logic. -/

/-- A class line is read alike with a margin, and so is its column. -/
lemma isClassLine_column {line line' : Text} (h : Trail line line') (n : Nat) :
    (isClassLine line' && decide (line'.column < n)) =
      (isClassLine line && decide (line.column < n)) := by
  obtain ⟨margin, hmargin, rfl⟩ := h
  rw [isClassLine_margin hmargin]
  cases hclass : isClassLine line with
  | false => rfl
  | true =>
    have hline : line.isAllBlank = false := by
      by_contra hblank
      rw [Bool.not_eq_false] at hblank
      rw [isClassLine, afterBlanksAnd?, trimStart_of_isAllBlank hblank] at hclass
      exact Bool.noConfusion hclass
    rw [column_margin hline]

lemma missingReceiver?_padded {above above' : List Text} (h : List.Forall₂ Trail above above')
    (code : Text) : missingReceiver? above' code = missingReceiver? above code := by
  have hmap : ∀ {β : Type} (f : Text → β), (∀ line line', Trail line line' → f line' = f line) →
      above'.map f = above.map f := by
    intro β f hf
    induction h with
    | nil => rfl
    | cons hline _ ih => rw [List.map_cons, List.map_cons, ih, hf _ _ hline]
  have htrim : above'.map trim = above.map trim := hmap trim fun line line' hline => by
    obtain ⟨margin, hmargin, rfl⟩ := hline
    exact trim_margin hmargin line
  have hany : ∀ above : List Text, ((above.take classLookback).any fun l =>
      isClassLine l && l.column < code.column) =
      ((above.map fun l => isClassLine l && decide (l.column < code.column)).take
        classLookback).any id := by
    intro above
    rw [← List.map_take, List.any_map]
    rfl
  have hclass := hmap (fun l => isClassLine l && decide (l.column < code.column))
    fun line line' hline => isClassLine_column hline _
  unfold missingReceiver?
  rw [htrim, hany, hany, hclass]

lemma Draft.advise_fixes (d : Draft) (advice : Advice) (reason : Text → Bool) :
    (d.advise advice reason).findings.filter Finding.isFix = d.findings.filter Finding.isFix := by
  rw [Draft.advise]
  split
  · rw [List.filter_append]
    exact List.append_nil _
  · rfl

lemma logicDraft_padded {above above' : List Text} (h : List.Forall₂ Trail above above')
    (code : Text) : (logicDraft above' code).code = (logicDraft above code).code ∧
      (logicDraft above' code).findings.filter Finding.isFix =
        (logicDraft above code).findings.filter Finding.isFix := by
  have hreceiver : mendReceiver above' = mendReceiver above := by
    funext d
    rw [mendReceiver, mendReceiver, missingReceiver?_padded h]
  unfold logicDraft
  simp only [Draft.advise_code, Draft.advise_fixes, hreceiver, and_self]

lemma logicStep_padded {margin : Text} {s s' : Site} {above above' : List Text}
    (habove : List.Forall₂ Trail above above') (h : s.PaddedBy margin s') :
    List.Forall₂ Trail (logicStep above s).1 (logicStep above' s').1 ∧
      (logicStep above s).2.PaddedBy margin (logicStep above' s').2 := by
  have hrevised : (logicStep above s).2.PaddedBy margin (logicStep above' s').2 := by
    unfold logicStep
    simp only [h.isStatement_eq, h.code_eq]
    split
    · obtain ⟨hcode, hfixes⟩ := logicDraft_padded habove s.code
      exact h.ofDraft (logicDraft_tells (Site.oneLine_code h.oneLine) above).oneLine hcode hfixes
    · exact h.same
  have hline : Trail (logicStep above s).2.line (logicStep above' s').2.line :=
    ⟨margin, hrevised.line.blank, hrevised.line.line⟩
  exact ⟨.cons hline habove, hrevised⟩

/-! Indentation. -/

lemma startStatement_margin {margin line : Text} (hmargin : margin.isAllBlank = true)
    (hline : line.isAllBlank = false) (l : Level) :
    l.startStatement (line ++ margin) =
      ((l.startStatement line).1, (l.startStatement line).2 ++ margin) := by
  have hword : ∀ words, startsWithOneOf words (trimStart line ++ margin) =
      startsWithOneOf words (trimStart line) := by
    intro words
    rw [startsWithOneOf, startsWithOneOf, firstWord_margin hmargin]
  unfold Level.startStatement
  simp only [trimStart_margin hline, indentation_margin hline, hword, List.append_assoc]

lemma shifted_margin {line : Text} (hline : line.isAllBlank = false) (margin : Text) (shift : Int) :
    Level.shifted (line ++ margin) shift = Level.shifted line shift ++ margin := by
  unfold Level.shifted
  split
  · rw [List.append_assoc]
  · rw [indentation_margin hline, trimStart_margin hline, List.append_assoc]

lemma endStatement_margin {margin : Text} (hmargin : margin.isAllBlank = true) (l : Level)
    (line : Text) : l.endStatement (line ++ margin) = l.endStatement line := by
  rw [Level.endStatement, Level.endStatement, codeOfLine_margin hmargin]

lemma lineOf_margin {margin : Text} {s s' : Site} (l : Level) (h : s.PaddedBy margin s') :
    l.lineOf s'.info.role s'.line = l.lineOf s.info.role s.line ++ margin := by
  rw [h.role_eq, h.line_eq]
  cases hrole : s.info.role with
  | statement =>
    have hline := h.pair.code (.inl hrole)
    exact congrArg Prod.snd (startStatement_margin h.pair.line.blank hline l)
  | continuation => exact shifted_margin (h.pair.code (.inr hrole)) margin l.shift
  | _ => rfl

lemma levelStep_padded {margin : Text} {s s' : Site} (l : Level) (h : s.PaddedBy margin s') :
    (l.step s).1 = (l.step s').1 ∧ (l.step s).2.PaddedBy margin (l.step s').2 := by
  have hblank := h.pair.line.blank
  have hline := lineOf_margin l h
  have hafter : l.after s'.info s'.line = l.after s.info s.line := by
    have hstarted : (if s.info.role = .statement then (l.startStatement (s.line ++ margin)).1
        else l) = if s.info.role = .statement then (l.startStatement s.line).1 else l := by
      split
      · next hrole =>
        have hcode : s.line.isAllBlank = false := h.pair.code (.inl hrole)
        rw [startStatement_margin hblank hcode]
      · rfl
    unfold Level.after
    rw [hline, h.role_eq, h.line_eq]
    simp only [hstarted, endStatement_margin hblank]
  obtain ⟨hstate, hleft⟩ := l.step_eq s
  obtain ⟨hstate', hright⟩ := l.step_eq s'
  refine ⟨by rw [hstate, hstate', hafter], ?_⟩
  have hlines : (l.step s').2.line = (l.step s).2.line ++ margin := by rw [hleft, hright, hline]
  have hfindings : ∀ s : Site, (l.step s).2.findings =
      if (l.step s).2.line = s.line then [] else [.fixed .indentation] := by
    intro s
    unfold Level.step
    cases s.info.role <;> rfl
  have hnumber : ∀ s : Site, (l.step s).2.number = s.number := by
    intro s
    unfold Level.step
    cases s.info.role <;> rfl
  refine ⟨⟨hblank, ?_, hlines⟩, ?_, ?_⟩
  · rw [hlines, oneLine_append]
    exact ⟨(levelStep_revisedTo l h.oneLine).oneLine, h.pair.line.oneLine_both.2⟩
  · rw [hnumber, hnumber, h.number]
  · rw [hfindings, hfindings, hlines, h.line_eq]
    simp only [List.append_cancel_right_eq]

lemma isBroken_padded {margins : List Text} {lines lines' : List (LineInfo × Text)}
    (h : Along PaddedPair margins lines lines') (n : Nesting) :
    n.isBroken lines' = n.isBroken lines := by
  induction h generalizing n with
  | nil => rfl
  | @cons margin margins p rest p' rest' hp _ ih =>
    obtain ⟨info, line⟩ := p
    obtain ⟨info', line'⟩ := p'
    obtain ⟨hline, hinfo, hcode⟩ := hp
    obtain rfl : info' = info := hinfo
    obtain rfl : line' = line ++ margin := hline.line
    have hstep : n.step? info' (line ++ margin) = n.step? info' line := by
      unfold Nesting.step?
      rw [opensBlock_margin hline.blank]
      cases hrole : info'.role with
      | statement =>
        have hcolumns := columns_margin (hcode (.inl hrole)) margin
        simp only [hcolumns]
      | _ => rfl
    rw [Nesting.isBroken, Nesting.isBroken, hstep]
    cases n.step? info' line with
    | none => rfl
    | some n' => exact ih n'

lemma indentationBroken_padded {margins lines lines' : List Text}
    (h : Along PaddedLine margins lines lines') :
    indentationBroken lines' = indentationBroken lines :=
  isBroken_padded (along_layout LayoutState.quoted_start h) .start

end Marginalia.Repair
