import Marginalia.Proofs.MendedCode
import Marginalia.Proofs.RepairTwice
import Marginalia.Proofs.SpelledLines

/-!
# Lines in their places

Repair puts every line back where it was. Spelling apart, a pass leaves a line or makes another one
of it, and says so in its report; apart from spelling and indentation, all that a pass alters is the
code of statements.
-/

namespace Marginalia.Repair

open Text

/-- A line of which at most the code is altered, and only if it is a statement. -/
def Framed (info : LineInfo) (line line' : Text) : Prop :=
  if info.role = .statement then ∃ code', line' = code' ++ (splitComment line).2 else line' = line

/-- A line that is left on one line in its place, with a fix reported exactly if it is altered. -/
structure Site.RevisedTo (s : Site) (r : Revised) : Prop where
  number : r.number = s.number
  oneLine : OneLine r.line
  told : r.line ≠ s.line ↔ ∃ fix, .fixed fix ∈ r.findings

/-- A line of which at most the code is revised. -/
structure Site.MendedTo (s : Site) (r : Revised) : Prop extends s.RevisedTo r where
  framed : Framed s.info s.line r.line

/-! One line. -/

lemma Site.mendedTo_same {s : Site} (h : OneLine s.line) : s.MendedTo (.same s) := by
  refine ⟨⟨rfl, h, ?_⟩, ?_⟩
  · simp [Revised.same]
  · unfold Framed
    split
    · exact ⟨s.code, s.code_append_tail.symm⟩
    · rfl

lemma Site.mendedTo_ofDraft {s : Site} {d : Draft} (h : OneLine s.line)
    (hs : s.isStatement = true) (hd : d.Tells s.code) : s.MendedTo (.ofDraft s d) := by
  have hline := s.code_append_tail
  have htail : OneLine s.tail := by
    rw [← hline, oneLine_append] at h
    exact h.2
  refine ⟨⟨rfl, oneLine_append.mpr ⟨hd.oneLine, htail⟩, ?_⟩, ?_⟩
  · show d.code ++ s.tail ≠ s.line ↔ ∃ fix, .fixed fix ∈ d.findings
    rw [← hline]
    rcases hd.told with ⟨hsame, hnone⟩ | ⟨hbetter, hfix⟩
    · have hleft : d.code ++ s.tail = s.code ++ s.tail := by rw [hsame]
      exact ⟨fun hne => absurd hleft hne, fun ⟨fix, hfix⟩ => absurd hfix (hnone fix)⟩
    · refine ⟨fun _ => hfix, fun _ heq => ?_⟩
      have hirrefl := hbetter s.tail
      rw [heq] at hirrefl
      exact Better.irrefl _ hirrefl
  · have hrole : s.info.role = .statement := eq_of_beq hs
    rw [Framed, if_pos hrole]
    exact ⟨d.code, rfl⟩

lemma Site.oneLine_code {s : Site} (h : OneLine s.line) : OneLine s.code := by
  rw [← s.code_append_tail, oneLine_append] at h
  exact h.1

lemma referenceStep_mendedTo (inInitializer : Bool) {s : Site} (h : OneLine s.line) :
    s.MendedTo (referenceStep inInitializer s).2 := by
  unfold referenceStep
  split
  · next hs => exact Site.mendedTo_ofDraft h hs (referenceDraft_tells (Site.oneLine_code h) _)
  · exact Site.mendedTo_same h

lemma logicStep_mendedTo (above : List Text) {s : Site} (h : OneLine s.line) :
    s.MendedTo (logicStep above s).2 := by
  unfold logicStep
  simp only
  split
  · next hs => exact Site.mendedTo_ofDraft h hs (logicDraft_tells (Site.oneLine_code h) above)
  · exact Site.mendedTo_same h

lemma pitfallStep_mendedTo {arities : Arities} {texts : List Text} {s : Site} {r : Revised}
    (h : OneLine s.line) (hr : (pitfallStep arities texts s).2 = some r) : s.MendedTo r := by
  unfold pitfallStep at hr
  split at hr
  · next hs =>
    cases hd : pitfallDraft? arities texts s.later s.code with
    | none =>
      rw [hd] at hr
      cases hr
    | some d =>
      rw [hd] at hr
      rw [← Option.some.inj hr]
      exact Site.mendedTo_ofDraft h hs (pitfallDraft?_tells (Site.oneLine_code h) hd)
  · rw [← Option.some.inj hr]
    exact Site.mendedTo_same h

lemma levelStep_revisedTo (l : Level) {s : Site} (h : OneLine s.line) :
    s.RevisedTo (l.step s).2 := by
  have hline := (l.step_eq s).2
  refine ⟨?_, ?_, ?_⟩
  · unfold Level.step
    cases s.info.role <;> rfl
  · rw [hline]
    exact oneLine_lineOf l s.info.role h
  · rw [l.step_findings]
    split
    · next heq => simp [heq]
    · next hne => simp [hne]

/-! Texts. -/

/-- An outcome whose lines came from those of a text one by one. -/
def LineByLine (r : Site → Revised → Prop) (text : Text) (o : Outcome) : Prop :=
  ∃ revised, List.Forall₂ r (Site.ofLines text.lines) revised ∧ o = Revised.outcome revised

lemma LineByLine.imp {r r' : Site → Revised → Prop} (h : ∀ s rev, r s rev → r' s rev) {text : Text}
    {o : Outcome} (ho : LineByLine r text o) : LineByLine r' text o := by
  obtain ⟨revised, hrevised, rfl⟩ := ho
  exact ⟨revised, hrevised.imp h, rfl⟩

lemma lineByLine_visit {σ : Type} {step : σ → Site → σ × Revised} {r : Site → Revised → Prop}
    (h : ∀ s site, OneLine site.line → r site (step s site).2) (s : σ) (text : Text) :
    LineByLine r text (Revised.outcome (visit step s (Site.ofLines text.lines))) :=
  ⟨_, visit_forall₂ (fun s site hsite => h s site (Site.oneLine_of_mem hsite)) s, rfl⟩

lemma lineByLine_reviseSites {applies : Site → Bool} {draft : Text → Draft}
    (happlies : ∀ s, applies s = true → s.isStatement = true)
    (h : ∀ code, OneLine code → (draft code).Tells code) (text : Text) :
    LineByLine Site.MendedTo text (reviseSites applies draft text) := by
  refine ⟨_, List.forall₂_map_right_iff.mpr (List.forall₂_same.mpr fun s hs => ?_), rfl⟩
  have hone := Site.oneLine_of_mem hs
  split
  · next hap => exact Site.mendedTo_ofDraft hone (happlies s hap) (h _ (Site.oneLine_code hone))
  · exact Site.mendedTo_same hone

lemma lineByLine_pitfalls? {text : Text} {o : Outcome} (h : pitfalls? text = some o) :
    LineByLine Site.MendedTo text o := by
  obtain ⟨revised, hrevised, rfl⟩ := Option.map_eq_some_iff.mp h
  have hsteps : List.Forall₂ (fun (s : Site) o => ∀ r, o = some r → s.MendedTo r)
      (Site.ofLines text.lines)
      (visit (pitfallStep (aritiesOf text.lines)) [] (Site.ofLines text.lines)) :=
    visit_forall₂ (fun _ _ hsite _ hr => pitfallStep_mendedTo (Site.oneLine_of_mem hsite) hr) []
  have hlines := forall₂_trans (t := Site.MendedTo) (fun _ _ r hs hr => hs r hr) hsteps
    (forall₂_of_mapM_id hrevised)
  exact ⟨revised, hlines, rfl⟩

lemma lineByLine_reindent (text : Text) : LineByLine Site.RevisedTo text (reindent text) := by
  rw [reindent]
  split
  · exact lineByLine_visit (fun l s hone => levelStep_revisedTo l (s := s) hone) .start text
  · -- Unbroken indentation is as if every line had been left alone.
    refine ⟨(Site.ofLines text.lines).map .same, ?_, ?_⟩
    · refine List.forall₂_map_right_iff.mpr (List.forall₂_same.mpr fun s hs => ?_)
      exact (Site.mendedTo_same (Site.oneLine_of_mem hs)).toRevisedTo
    · have hlines : ((Site.ofLines text.lines).map Revised.same).map (·.line) = text.lines := by
        rw [List.map_map]
        exact Site.ofLines_lines text.lines
      have hfindings : ((Site.ofLines text.lines).map Revised.same).flatMap (fun r =>
          r.findings.map fun f => Change.atLine f r.number) = [] := by
        rw [List.flatMap_eq_nil_iff]
        intro r hr
        obtain ⟨s, -, rfl⟩ := List.mem_map.mp hr
        rfl
      rw [Revised.outcome, hlines, hfindings, unlines_lines]

/-- Apart from spelling and indentation, a pass alters nothing but the code of statements. -/
lemma Pass.lineByLine_run? {p : Pass} (hspelling : p ≠ .spelling) (hindent : p ≠ .indentation)
    {text : Text} {o : Outcome} (h : p.run? text = some o) : LineByLine Site.MendedTo text o := by
  have hwhole : ∀ s : Site, s.isWholeStatement = true → s.isStatement = true := fun s hs =>
    ((Bool.and_eq_true _ _).mp hs).1
  cases p with
  | spelling => exact absurd rfl hspelling
  | indentation => exact absurd rfl hindent
  | references =>
    rw [← Option.some.inj h]
    exact lineByLine_visit (fun b s hone => referenceStep_mendedTo b (s := s) hone) false text
  | headers =>
    rw [← Option.some.inj h]
    exact lineByLine_reviseSites hwhole (fun _ hone => headerDraft_tells hone) text
  | printing =>
    rw [← Option.some.inj h]
    exact lineByLine_reviseSites hwhole (fun _ hone => printDraft_tells hone) text
  | pitfalls => exact lineByLine_pitfalls? h
  | logic =>
    rw [← Option.some.inj h]
    exact lineByLine_visit (fun above s hone => logicStep_mendedTo above (s := s) hone) [] text

lemma Pass.lineByLine_told {p : Pass} (hspelling : p ≠ .spelling) {text : Text} {o : Outcome}
    (h : p.run? text = some o) : LineByLine Site.RevisedTo text o := by
  by_cases hindent : p = .indentation
  · subst hindent
    rw [← Option.some.inj h]
    exact lineByLine_reindent text
  · exact (Pass.lineByLine_run? hspelling hindent h).imp fun _ _ hs => hs.toRevisedTo

/-! The lines of an outcome. -/

lemma length_ofLines (lines : List Text) : (Site.ofLines lines).length = lines.length := by
  calc (Site.ofLines lines).length = ((Site.ofLines lines).map (·.line)).length :=
      (List.length_map _).symm
    _ = lines.length := by rw [Site.ofLines_lines]

lemma forall_of_forall₂ {α β : Type} {r : α → β → Prop} {p : β → Prop} (hp : ∀ a b, r a b → p b)
    {as : List α} {bs : List β} (h : List.Forall₂ r as bs) : ∀ b ∈ bs, p b := by
  induction h with
  | nil => exact fun _ hmem => absurd hmem List.not_mem_nil
  | cons hr _ ih => exact List.forall_mem_cons.mpr ⟨hp _ _ hr, ih⟩

lemma lines_outcome {text : Text} {revised : List Revised}
    (h : List.Forall₂ Site.RevisedTo (Site.ofLines text.lines) revised) :
    (Revised.outcome revised).text.lines = revised.map (·.line) := by
  refine lines_unlines_of_oneLine ?_ fun line hline => ?_
  · intro hnil
    have hlength := h.length_eq
    rw [List.map_eq_nil_iff.mp hnil, length_ofLines] at hlength
    exact lines_ne_nil text (List.length_eq_zero_iff.mp hlength)
  · obtain ⟨r, hr, rfl⟩ := List.mem_map.mp hline
    exact forall_of_forall₂ (fun _ _ hs => hs.oneLine) h r hr

lemma LineByLine.length_lines {text : Text} {o : Outcome} (h : LineByLine Site.RevisedTo text o) :
    o.text.lines.length = text.lines.length := by
  obtain ⟨revised, hrevised, rfl⟩ := h
  rw [lines_outcome hrevised, List.length_map, ← hrevised.length_eq, length_ofLines]

lemma Site.numbered_pairs (n : Nat) (lines : List (LineInfo × Text)) :
    (Site.numbered n lines).map (fun s => (s.info, s.line)) = lines := by
  induction lines generalizing n with
  | nil => rfl
  | cons pair rest ih => rw [Site.numbered, List.map_cons, ih]

lemma LineByLine.framed {text : Text} {o : Outcome} (h : LineByLine Site.MendedTo text o) :
    List.Forall₂ (fun (info, line) line' => Framed info line line')
      ((layout text.lines).zip text.lines) o.text.lines := by
  obtain ⟨revised, hrevised, rfl⟩ := h
  rw [lines_outcome (hrevised.imp fun _ _ hs => hs.toRevisedTo)]
  have hpairs : (Site.ofLines text.lines).map (fun s => (s.info, s.line)) =
      (layout text.lines).zip text.lines := Site.numbered_pairs 1 _
  rw [← hpairs, List.forall₂_map_left_iff, List.forall₂_map_right_iff]
  exact hrevised.imp fun _ _ hs => hs.framed

lemma spelling_length_lines (text : Text) :
    (spelling text).text.lines.length = text.lines.length := by
  rw [spelling_text, lines_spell, List.length_map]

lemma Pass.length_lines {p : Pass} {text : Text} {o : Outcome} (h : p.run? text = some o) :
    o.text.lines.length = text.lines.length := by
  by_cases hspelling : p = .spelling
  · subst hspelling
    rw [← Option.some.inj h]
    exact spelling_length_lines text
  · exact (Pass.lineByLine_told hspelling h).length_lines

lemma shape_length_lines (text : Text) : (shape text).text.lines.length = text.lines.length := by
  have hheaders : (headers text).text.lines.length = text.lines.length :=
    @Pass.length_lines .headers text (headers text) rfl
  have hprinting : ∀ text, (printing text).text.lines.length = text.lines.length := fun text =>
    @Pass.length_lines .printing text (printing text) rfl
  rw [shape_text, (lineByLine_reindent _).length_lines, hprinting, hheaders]

lemma reshape_length_lines (rounds : Nat) (text : Text) :
    (reshape rounds text).text.lines.length = text.lines.length := by
  induction rounds generalizing text with
  | zero => rfl
  | succ rounds ih =>
    rw [reshape_succ_text]
    split
    · exact shape_length_lines text
    · rw [ih, shape_length_lines]

lemma repair?_length_lines {text : Text} {o : Outcome} (h : repair? text = some o) :
    o.text.lines.length = text.lines.length := by
  have htext := repair?_text text
  rw [h, Option.map_some] at htext
  obtain ⟨o', hpitfalls, hlogic⟩ := Option.map_eq_some_iff.mp htext.symm
  have hreferences : ∀ text, (references text).text.lines.length = text.lines.length := fun text =>
    @Pass.length_lines .references text (references text) rfl
  have hlast : ∀ text, (logic text).text.lines.length = text.lines.length := fun text =>
    @Pass.length_lines .logic text (logic text) rfl
  have hmended := (lineByLine_pitfalls? hpitfalls).imp fun _ _ hs => hs.toRevisedTo
  rw [← hlogic, hlast, hmended.length_lines, reshape_length_lines, hreferences,
    spelling_length_lines]

/-- Every pass, and so repair, leaves as many lines as there were. Apart from spelling and
indentation, a pass leaves lines that are no statements as they are, and of the others what stands
behind their code. -/
theorem passes_frame_lines (text : Text) :
    (∀ p : Pass, ∀ o ∈ p.run? text, o.text.lines.length = text.lines.length) ∧
    (∀ o ∈ repair? text, o.text.lines.length = text.lines.length) ∧
    ∀ p : Pass, p ≠ .spelling → p ≠ .indentation → ∀ o ∈ p.run? text,
      List.Forall₂ (fun (info, line) line' => Framed info line line')
        ((layout text.lines).zip text.lines) o.text.lines := by
  refine ⟨fun p o h => ?_, fun o h => ?_, fun p hspelling hindent o h => ?_⟩
  · exact Pass.length_lines (Option.mem_def.mp h)
  · exact repair?_length_lines (Option.mem_def.mp h)
  · exact (Pass.lineByLine_run? hspelling hindent (Option.mem_def.mp h)).framed

/-- A print statement becomes a call; the comment behind it and the line below stay. -/
theorem passes_frame_lines_of_print : ∃ text : Text,
    (∃ o ∈ Pass.run? .printing text, o.text = "print(1)  # one\n  # two" ∧
      o.text.lines.length = text.lines.length ∧
      List.Forall₂ (fun (info, line) line' => Framed info line line')
        ((layout text.lines).zip text.lines) o.text.lines) ∧
    ∃ o ∈ repair? text, o.text.lines.length = text.lines.length := by
  have hrun : Pass.run? .printing "print 1  # one\n  # two" =
      some ⟨"print(1)  # one\n  # two", [.atLine (.fixed .printCall) 1]⟩ := by decide +kernel
  have hrepair : repair? "print 1  # one\n  # two" =
      some ⟨"print(1)  # one\n  # two", [.atLine (.fixed .printCall) 1]⟩ := by decide +kernel
  obtain ⟨hlength, hwhole, hframed⟩ := passes_frame_lines "print 1  # one\n  # two"
  exact ⟨_, ⟨_, hrun, rfl, hlength .printing _ hrun, hframed .printing nofun nofun _ hrun⟩, _,
    hrepair, hwhole _ hrepair⟩

end Marginalia.Repair
