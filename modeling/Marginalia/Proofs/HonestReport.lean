import Marginalia.Proofs.Marks
import Marginalia.Proofs.RevisedLines
import Mathlib.Data.List.Forall2

/-!
# The report is honest

A pass that goes through the lines reports a fix of a line exactly if it alters the line, and
spelling reports something exactly if it alters the text. So a report that holds nothing but advice
is one on a text that stayed what it was. A replacement from a table is told exactly if it applies.
-/

namespace Marginalia.Repair

open Text

/-! Lines and the entries about them. -/

lemma Site.number_of_getElem? {n k : Nat} {lines : List (LineInfo × Text)} {s : Site}
    (h : (Site.numbered n lines)[k]? = some s) : s.number = n + k := by
  induction lines generalizing n k with
  | nil => exact absurd h (by simp [Site.numbered])
  | cons pair rest ih =>
    cases k with
    | zero =>
      rw [Site.numbered, List.getElem?_cons_zero] at h
      rw [← Option.some.inj h, Nat.add_zero]
    | succ k =>
      rw [Site.numbered, List.getElem?_cons_succ] at h
      have hnumber := ih h
      omega

lemma getElem?_of_forall₂ {α β : Type} {r : α → β → Prop} {as : List α} {bs : List β}
    (h : List.Forall₂ r as bs) (k : Nat) : (as[k]? = none ∧ bs[k]? = none) ∨
      ∃ a b, as[k]? = some a ∧ bs[k]? = some b ∧ r a b := by
  induction h generalizing k with
  | nil => exact .inl ⟨rfl, rfl⟩
  | @cons a b as bs hr _ ih =>
    cases k with
    | zero => exact .inr ⟨a, b, rfl, rfl, hr⟩
    | succ k => exact ih k

lemma mem_changes_iff (revised : List Revised) (finding : Finding) (n : Nat) :
    .atLine finding n ∈ (Revised.outcome revised).changes ↔
      ∃ (k : Nat) (r : Revised), revised[k]? = some r ∧ finding ∈ r.findings ∧ r.number = n := by
  simp only [Revised.outcome, List.mem_flatMap, List.mem_map, Change.atLine.injEq]
  constructor
  · rintro ⟨r, hr, finding', hfinding, rfl, rfl⟩
    obtain ⟨k, hk⟩ := List.getElem?_of_mem hr
    exact ⟨k, r, hk, hfinding, rfl⟩
  · rintro ⟨k, r, hk, hfinding, rfl⟩
    exact ⟨r, List.mem_of_getElem? hk, finding, hfinding, rfl, rfl⟩

/-- A line is altered exactly if a fix of it is reported. -/
lemma LineByLine.altered_iff {text : Text} {o : Outcome} (h : LineByLine Site.RevisedTo text o)
    (k : Nat) : o.text.lines[k]? ≠ text.lines[k]? ↔
      ∃ fix, .atLine (.fixed fix) (k + 1) ∈ o.changes := by
  obtain ⟨revised, hrevised, rfl⟩ := h
  -- The entry belongs to the line because lines are numbered in order.
  have hnumber : ∀ i r, revised[i]? = some r → r.number = i + 1 := by
    intro i r hr
    rcases getElem?_of_forall₂ hrevised i with ⟨-, hnone⟩ | ⟨s, r', hs, hr', htold⟩
    · rw [hnone] at hr
      cases hr
    · obtain rfl : r' = r := Option.some.inj (hr'.symm.trans hr)
      have hsite : s.number = 1 + i := Site.number_of_getElem? hs
      rw [htold.number, hsite, Nat.add_comm]
  have hentry : ∀ finding, .atLine finding (k + 1) ∈ (Revised.outcome revised).changes ↔
      ∃ r, revised[k]? = some r ∧ finding ∈ r.findings := by
    intro finding
    rw [mem_changes_iff]
    constructor
    · rintro ⟨i, r, hr, hfinding, hline⟩
      obtain rfl : i = k := by
        have hi := hnumber i r hr
        omega
      exact ⟨r, hr, hfinding⟩
    · rintro ⟨r, hr, hfinding⟩
      exact ⟨k, r, hr, hfinding, hnumber k r hr⟩
  simp only [hentry]
  have hlines : text.lines[k]? = (Site.ofLines text.lines)[k]?.map (·.line) := by
    rw [← List.getElem?_map, Site.ofLines_lines]
  rw [lines_outcome hrevised, List.getElem?_map, hlines]
  rcases getElem?_of_forall₂ hrevised k with ⟨hs, hr⟩ | ⟨s, r, hs, hr, htold⟩
  · rw [hs, hr]
    simp
  · rw [hs, hr, Option.map_some, Option.map_some, Ne, Option.some.injEq]
    exact htold.told.trans (by simp)

/-! Reports without fixes. -/

/-- An outcome whose text is what it was unless something was mended. -/
def Outcome.Honest (o : Outcome) (text : Text) : Prop :=
  (∀ c ∈ o.changes, c.isAdvice = true) → o.text = text

/-- An outcome of nothing at all. -/
lemma Outcome.eq_unchanged_iff {o : Outcome} {text : Text} :
    o = ⟨text, []⟩ ↔ o.text = text ∧ o.changes = [] := by
  cases o
  simp

lemma Outcome.Honest.trans {o o' : Outcome} {text : Text} (h : o.Honest text)
    (h' : o'.Honest o.text) : Outcome.Honest ⟨o'.text, o.changes ++ o'.changes⟩ text := by
  intro hadvice
  have hfirst : o.text = text := h fun c hc => hadvice c (List.mem_append_left _ hc)
  have hsecond : o'.text = o.text := h' fun c hc => hadvice c (List.mem_append_right _ hc)
  exact hsecond.trans hfirst

lemma Outcome.Honest.andThen {o : Outcome} {text : Text} (h : o.Honest text) {next : Text → Outcome}
    (hnext : ∀ text, (next text).Honest text) : (o.andThen next).Honest text :=
  h.trans (hnext o.text)

lemma LineByLine.honest {text : Text} {o : Outcome} (h : LineByLine Site.RevisedTo text o) :
    o.Honest text := by
  intro hadvice
  have hlines : o.text.lines = text.lines := by
    refine List.ext_getElem? fun k => ?_
    by_contra hne
    obtain ⟨fix, hfix⟩ := (h.altered_iff k).mp hne
    exact absurd (hadvice _ hfix) Bool.false_ne_true
  rw [← unlines_lines o.text, hlines, unlines_lines]

/-! Replacements from tables. -/

/-- The rules that put one piece of text for another: those of the tables of misspellings and of code
that no longer works, and those for clocks and ranges. -/
def replacements : List Rule :=
  typos.map (fun typo => .word typo.1 typo.2) ++
    callFixes.map (fun fix => callRule fix.1 fix.2) ++ [clockRule, rangeRule]

lemma not_isPrefix_of_apart {old new t rest : Text} (h : ¬ old <+: new ∧ ¬ new <+: old)
    (ht : t = old ++ rest) : ¬ new <+: t := by
  rintro hnew
  rcases List.prefix_or_prefix_of_prefix hnew ⟨rest, ht.symm⟩ with hprefix | hprefix
  · exact h.2 hprefix
  · exact h.1 hprefix

/-- The range that is put is not there yet: it has no blank behind its first bracket, or else no sign
behind the brackets of the collection. -/
lemma not_isPrefix_of_rangeRule {b : Before} {t new : Text} {n : Nat}
    (h : rangeRule b t = some (n, new)) : ¬ new <+: t := by
  obtain ⟨gap, plain, gap₁, gap₂, gap₃, rest, hblank, ht, -, rfl⟩ := eq_of_rangeRule h
  rintro ⟨more, hput⟩
  have hgaps : gap.isAllBlank = true ∧ gap₁.isAllBlank = true := by
    simp only [isAllBlank_append, Bool.and_eq_true] at hblank
    exact ⟨hblank.1, hblank.2.1⟩
  rw [ht] at hput
  have hopen : ("len(" : Text) ++ (plain ++ ("))" ++ more)) =
      gap ++ ("len(" ++ (plain ++ (")" ++ (gap₁ ++ ("+" ++ (gap₂ ++ ("1" ++ (gap₃ ++ (")" ++ rest))))))))) := by
    refine List.append_cancel_left (?_ : ("range(" : Text) ++ _ = "range(" ++ _)
    simpa using hput
  cases gap with
  | cons d gap =>
    have hd : isBlank d = true := List.all_eq_true.mp hgaps.1 d List.mem_cons_self
    obtain rfl : 'l' = d := (List.cons.inj hopen).1
    exact absurd hd (by decide)
  | nil =>
    have hclose : ')' :: more = gap₁ ++ ("+" ++ (gap₂ ++ ("1" ++ (gap₃ ++ (")" ++ rest))))) := by
      refine List.append_cancel_left (?_ : ("len(" ++ (plain ++ ")") : Text) ++ _ = _ ++ _)
      simpa using hopen
    cases gap₁ with
    | nil => exact absurd (List.cons.inj hclose).1 (by decide)
    | cons d gap₁ =>
      have hd : isBlank d = true := List.all_eq_true.mp hgaps.2 d List.mem_cons_self
      obtain rfl : ')' = d := (List.cons.inj hclose).1
      exact absurd hd (by decide)

/-- A replacement takes what is there and puts something else. -/
lemma takes_and_alters {rule : Rule} (h : rule ∈ replacements) :
    rule.Takes ∧ ∀ b t n new, rule b t = some (n, new) → ¬ new <+: t := by
  have htypos : ∀ typo ∈ typos, typo.1 ≠ [] ∧ ¬ typo.1 <+: typo.2 ∧ ¬ typo.2 <+: typo.1 := by decide
  have hfixes : ∀ fix ∈ callFixes, fix.1 ≠ [] ∧ ¬ fix.1 <+: fix.2 ∧ ¬ fix.2 <+: fix.1 := by decide
  rw [replacements, List.mem_append, List.mem_append, List.mem_map, List.mem_map] at h
  rcases h with (⟨typo, hmem, rfl⟩ | ⟨fix, hmem, rfl⟩) | h
  · obtain ⟨hne, hapart⟩ := htypos typo hmem
    constructor
    · intro b t n new hr
      obtain ⟨rest, ht, hn, -, -⟩ := eq_of_word hr
      exact ⟨_, rest, ht, hn, hne⟩
    · intro b t n new hr
      obtain ⟨rest, ht, -, rfl, -⟩ := eq_of_word hr
      exact not_isPrefix_of_apart hapart ht
  · obtain ⟨hne, hapart⟩ := hfixes fix hmem
    constructor
    · intro b t n new hr
      obtain ⟨rest, ht, hn, -⟩ := eq_of_callRule hr
      exact ⟨_, rest, ht, hn, hne⟩
    · intro b t n new hr
      obtain ⟨rest, ht, -, rfl⟩ := eq_of_callRule hr
      exact not_isPrefix_of_apart hapart ht
  · rcases List.mem_pair.mp h with rfl | rfl
    · refine ⟨gains_clockRule.takes, fun b t n new hr => ?_⟩
      obtain ⟨rest, ht, -, rfl⟩ := eq_of_freshLiteral hr
      exact not_isPrefix_of_apart (by decide) ht
    · exact ⟨gains_rangeRule.takes, fun b t n new => not_isPrefix_of_rangeRule⟩

/-- A replacement gives a result exactly if it applies somewhere in the text. -/
theorem substitute?_isSome_iff {rule : Rule} (h : rule ∈ replacements) (t : Text) :
    (substitute? rule t).isSome = true ↔ ∃ front rest, t = front ++ rest ∧ rest ≠ [] ∧
      (rule (front.foldl Before.step .start) rest).isSome = true := by
  obtain ⟨htakes, halters⟩ := takes_and_alters h
  have hsame : substitute rule t = t ↔ Spares rule .start t :=
    (substituted_substitute htakes t).eq_iff_spares halters
  have hsome : (substitute? rule t).isSome = true ↔ ¬ Spares rule .start t := by
    rw [← hsame, substitute?, changed?]
    by_cases heq : substitute rule t = t <;> simp [heq]
  rw [hsome, spares_iff]
  simp only [not_forall, exists_prop, Option.isSome_iff_ne_none, ne_eq]

/-! Spelling. -/

lemma correct_told (o : Outcome) {typo : Text × Text} (h : typo ∈ typos) :
    correct o typo = o ∨
      Better o.text (correct o typo).text ∧ (correct o typo).changes ≠ [] := by
  have himproved := correct_improved (o := o) h
  unfold correct at himproved ⊢
  cases hs : o.text.substitute? (.word typo.1 typo.2) with
  | none => exact .inl rfl
  | some text =>
    rw [hs] at himproved
    obtain ⟨htext, hne⟩ := eq_of_changed? hs
    rw [← htext] at hne
    exact .inr ⟨himproved.resolve_left hne, by simp⟩

/-- Spelling reports something exactly if it alters the text. -/
lemma spelling_altered_iff (text : Text) :
    (spelling text).text ≠ text ↔ (spelling text).changes ≠ [] := by
  -- No correction takes back what another step did, since each makes the text better.
  have hfold : ∀ (table : List (Text × Text)) (o : Outcome), (∀ typo ∈ table, typo ∈ typos) →
      (o.text = text ∧ o.changes = [] ∨ Better text o.text ∧ o.changes ≠ []) →
      ((table.foldl correct o).text = text ∧ (table.foldl correct o).changes = [] ∨
        Better text (table.foldl correct o).text ∧ (table.foldl correct o).changes ≠ []) := by
    intro table
    induction table with
    | nil => exact fun o _ ho => ho
    | cons typo rest ih =>
      intro o hmem ho
      refine ih _ (fun typo htypo => hmem typo (List.mem_cons_of_mem _ htypo)) ?_
      rcases correct_told o (hmem typo List.mem_cons_self) with hsame | ⟨hbetter, hchanges⟩
      · rw [hsame]
        exact ho
      · right
        rcases ho with ⟨rfl, -⟩ | ⟨hfirst, -⟩
        · exact ⟨hbetter, hchanges⟩
        · exact ⟨hfirst.trans hbetter, hchanges⟩
  have hdecoded : decodeEntities text = text ∧
      (if decodeEntities text = text then [] else [Change.entities]) = [] ∨
      Better text (decodeEntities text) ∧
        (if decodeEntities text = text then [] else [Change.entities]) ≠ [] := by
    rcases decodeEntities_improved text with heq | hbetter
    · exact .inl ⟨heq, if_pos heq⟩
    · have hne : decodeEntities text ≠ text := by
        intro heq
        rw [heq] at hbetter
        exact Better.irrefl text hbetter
      exact .inr ⟨hbetter, by simp [hne]⟩
  have htold : (spelling text).text = text ∧ (spelling text).changes = [] ∨
      Better text (spelling text).text ∧ (spelling text).changes ≠ [] := by
    unfold spelling
    generalize typos = table at hfold ⊢
    exact hfold table _ (fun _ h => h) hdecoded
  rcases htold with ⟨htext, hchanges⟩ | ⟨hbetter, hchanges⟩
  · simp [htext, hchanges]
  · refine ⟨fun _ => hchanges, fun _ heq => ?_⟩
    rw [heq] at hbetter
    exact Better.irrefl text hbetter

lemma spelling_no_advice (text : Text) : ∀ c ∈ (spelling text).changes, c.isAdvice = false := by
  have hfold : ∀ (table : List (Text × Text)) (o : Outcome),
      (∀ c ∈ o.changes, c.isAdvice = false) →
      ∀ c ∈ (table.foldl correct o).changes, c.isAdvice = false := by
    intro table
    induction table with
    | nil => exact fun o ho => ho
    | cons typo rest ih =>
      intro o ho
      refine ih _ ?_
      unfold correct
      split
      · intro c hc
        rcases List.mem_append.mp hc with hc | hc
        · exact ho c hc
        · rw [List.mem_singleton.mp hc]
          rfl
      · exact ho
  unfold spelling
  generalize typos = table
  refine hfold table _ ?_
  split
  · exact fun c hc => absurd hc List.not_mem_nil
  · intro c hc
    rw [List.mem_singleton.mp hc]
    rfl

lemma spelling_honest (text : Text) : (spelling text).Honest text := by
  intro hadvice
  by_contra hne
  obtain ⟨c, hc⟩ := List.exists_mem_of_ne_nil _ ((spelling_altered_iff text).mp hne)
  have hmended := spelling_no_advice text c hc
  rw [hadvice c hc] at hmended
  exact Bool.noConfusion hmended

lemma shape_honest (text : Text) : (shape text).Honest text := by
  have hheaders : (headers text).Honest text :=
    (@Pass.lineByLine_told .headers nofun text (headers text) rfl).honest
  have hprinting : ∀ text, (printing text).Honest text := fun text =>
    (@Pass.lineByLine_told .printing nofun text (printing text) rfl).honest
  exact (hheaders.andThen hprinting).andThen fun text => (lineByLine_reindent text).honest

lemma reshape_honest (rounds : Nat) (text : Text) : (reshape rounds text).Honest text := by
  induction rounds generalizing text with
  | zero => exact fun _ => rfl
  | succ rounds ih =>
    rw [reshape]
    split
    · exact shape_honest text
    · exact (shape_honest text).andThen ih

lemma repair?_honest {text : Text} {o : Outcome} (h : repair? text = some o) : o.Honest text := by
  have hreferences : ∀ text, (references text).Honest text := fun text =>
    (@Pass.lineByLine_told .references nofun text (references text) rfl).honest
  have hlast : ∀ text, (logic text).Honest text := fun text =>
    (@Pass.lineByLine_told .logic nofun text (logic text) rfl).honest
  have hshaped := ((spelling_honest text).andThen hreferences).andThen (reshape_honest shapeRounds)
  unfold repair? at h
  generalize ((spelling text).andThen references).andThen (reshape shapeRounds) = shaped
    at h hshaped
  obtain ⟨o', hpitfalls, rfl⟩ := Option.map_eq_some_iff.mp h
  have hmended := (lineByLine_pitfalls? hpitfalls).imp fun _ _ hs => hs.toRevisedTo
  exact (hshaped.trans hmended.honest).andThen hlast

/-! The report as it is read. -/

/-- Whether a message of the report tells of no fix. -/
def TellsNoFix (message : Text) : Prop :=
  message = "No changes needed" ∨ message.startsWith "Warning: " = true ∨
    message.startsWith "Suggestion: " = true

/-- How messages start that tell of no fix. -/
def noFixStarts : List Text := ["No", "Wa", "Su"]

lemma take_startsWith {message mark : Text} (h : message.startsWith mark = true) {n : Nat}
    (hn : n ≤ mark.length) : message.take n = mark.take n := by
  obtain ⟨rest, rfl⟩ := (startsWith_iff message mark).mp h
  exact List.take_append_of_le_length hn

lemma TellsNoFix.start {message : Text} (h : TellsNoFix message) :
    message.take 2 ∈ noFixStarts := by
  rcases h with rfl | h | h
  · decide +kernel
  · rw [take_startsWith h (by decide +kernel)]
    decide +kernel
  · rw [take_startsWith h (by decide +kernel)]
    decide +kernel

/-- A start that no message has which tells of no fix. -/
def StartsFix (start : Text) : Prop := 2 ≤ start.length ∧ start.take 2 ∉ noFixStarts

instance (start : Text) : Decidable (StartsFix start) :=
  inferInstanceAs (Decidable (2 ≤ start.length ∧ start.take 2 ∉ noFixStarts))

lemma StartsFix.not_tellsNoFix {start : Text} (h : StartsFix start) (rest : Text) :
    ¬TellsNoFix (start ++ rest) := by
  intro hno
  have hmem := hno.start
  rw [List.take_append_of_le_length h.1] at hmem
  exact h.2 hmem

lemma Fix.exists_start (fix : Fix) :
    ∃ start rest : Text, fix.message = start ++ rest ∧ StartsFix start := by
  cases fix with
  | replaced old new =>
    have hmessage : Fix.message (.replaced old new) = "Replaced " ++ old ++ " with " ++ new := rfl
    rw [List.append_assoc, List.append_assoc] at hmessage
    exact ⟨_, _, hmessage, by decide +kernel⟩
  | arguments name missing =>
    have hmessage : Fix.message (.arguments name missing) =
        if missing = 1 then "Added missing argument to " ++ name ++ "()"
        else "Added " ++ Text.ofNat missing ++ " missing arguments to " ++ name ++ "()" := rfl
    split at hmessage
    · rw [List.append_assoc] at hmessage
      exact ⟨_, _, hmessage, by decide +kernel⟩
    · rw [List.append_assoc, List.append_assoc, List.append_assoc] at hmessage
      exact ⟨_, _, hmessage, by decide +kernel⟩
  | receiver r =>
    have hmessage : Fix.message (.receiver r) = "Added missing " ++ r.name ++ " parameter" := rfl
    rw [List.append_assoc] at hmessage
    exact ⟨_, _, hmessage, by decide +kernel⟩
  | _ => exact ⟨_, [], (List.append_nil _).symm, by decide +kernel⟩

lemma not_tellsNoFix_fixed (fix : Fix) (n : Nat) :
    ¬TellsNoFix (Change.message (.atLine (.fixed fix) n)) := by
  obtain ⟨start, rest, hmessage, hstart⟩ := fix.exists_start
  show ¬TellsNoFix (fix.message ++ " at line " ++ Text.ofNat n)
  rw [hmessage, List.append_assoc, List.append_assoc]
  exact hstart.not_tellsNoFix _

lemma isAdvice_of_tellsNoFix {c : Change} (h : TellsNoFix c.message) : c.isAdvice = true := by
  cases c with
  | entities =>
    have hstart : StartsFix "Decoded HTML entities" := by decide +kernel
    have hno := hstart.not_tellsNoFix []
    rw [List.append_nil] at hno
    exact absurd h hno
  | typo wrong right =>
    have hstart : StartsFix "Fixed typo: " := by decide +kernel
    have hmessage : Change.message (.typo wrong right) =
        "Fixed typo: " ++ wrong ++ " → " ++ right := rfl
    rw [hmessage, List.append_assoc, List.append_assoc] at h
    exact absurd h (hstart.not_tellsNoFix _)
  | atLine finding n =>
    cases finding with
    | fixed fix => exact absurd h (not_tellsNoFix_fixed fix n)
    | advised advice => rfl

/-- Apart from spelling, a pass reports a fix of a line exactly if it alters the line, and spelling
reports something exactly if it alters the text. Where the report of repair tells of no fix, the text
is what it was. -/
theorem report_honest (text : Text) :
    (∀ p : Pass, p ≠ .spelling → ∀ o ∈ p.run? text, ∀ k, o.text.lines[k]? ≠ text.lines[k]? ↔
      ∃ c ∈ o.changes, c.isAdvice = false ∧ ∃ finding, c = .atLine finding (k + 1)) ∧
    (∀ o ∈ Pass.run? .spelling text, o.text ≠ text ↔ o.changes ≠ []) ∧
    ∀ o ∈ repair? text, (∀ message ∈ report o.changes, TellsNoFix message) → o.text = text := by
  refine ⟨fun p hspelling o h k => ?_, fun o h => ?_, fun o h hreport => ?_⟩
  · have htold := Pass.lineByLine_told hspelling (Option.mem_def.mp h)
    rw [htold.altered_iff]
    constructor
    · rintro ⟨fix, hfix⟩
      exact ⟨_, hfix, rfl, _, rfl⟩
    · rintro ⟨-, hc, hadvice, finding, rfl⟩
      cases finding with
      | fixed fix => exact ⟨fix, hc⟩
      | advised advice => cases hadvice
  · rw [← Option.some.inj (Option.mem_def.mp h)]
    exact spelling_altered_iff text
  · refine repair?_honest (Option.mem_def.mp h) fun c hc => ?_
    have hne : o.changes.isEmpty = false := by
      rw [List.isEmpty_eq_false_iff]
      exact List.ne_nil_of_mem hc
    refine isAdvice_of_tellsNoFix (hreport _ ?_)
    rw [report, hne, if_neg Bool.false_ne_true]
    exact List.mem_map_of_mem hc

/-- An assignment in a condition and a misspelt word are reported where they stood; a file that is
kept open is only pointed out, and stays. -/
theorem report_honest_of_open_file :
    (∃ o ∈ Pass.run? .logic "if a = 1:",
      ∃ c ∈ o.changes, c.isAdvice = false ∧ ∃ finding, c = .atLine finding 1) ∧
    (∃ o ∈ Pass.run? .spelling "retrn", o.changes ≠ []) ∧
    ∃ o ∈ repair? "f = open(p)", o.text = "f = open(p)" := by
  have hlogic : Pass.run? .logic "if a = 1:" =
      some ⟨"if a == 1:", [.atLine (.fixed .conditionAssignment) 1]⟩ := by decide +kernel
  have hspelling : Pass.run? .spelling "retrn" = some ⟨"return", [.typo "retrn" "return"]⟩ := by
    decide +kernel
  have hrepair : repair? "f = open(p)" =
      some ⟨"f = open(p)", [.atLine (.advised .openFile) 1]⟩ := by decide +kernel
  refine ⟨⟨_, hlogic, ?_⟩, ⟨_, hspelling, ?_⟩, _, hrepair, ?_⟩
  · exact ((report_honest "if a = 1:").1 .logic nofun _ hlogic 0).mp (by decide)
  · exact ((report_honest "retrn").2.1 _ hspelling).mp (by decide)
  · refine (report_honest "f = open(p)").2.2 _ hrepair fun message hmessage => ?_
    rw [List.mem_singleton.mp hmessage]
    exact .inr (.inr (by decide))

end Marginalia.Repair
