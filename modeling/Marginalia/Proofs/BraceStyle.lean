import Marginalia.Proofs.ClosedBlocks
import Marginalia.Proofs.OpenedFunctions
import Marginalia.Proofs.OpenedScripts
import Marginalia.Proofs.QuotedMarks

/-!
# Where the brace of a header stands

The brace of a header ends its line or stands on a line of its own, behind blank lines and comments.
The scanner opens the block at once, or keeps its kind until the brace is read, and in the end it is
the same, with the same node. In the body of a class one header of a script makes a difference: what
looks like a loop over awaited values is a method where the brace ends the line.
-/

namespace Marginalia.Braced

open Pattern Text

variable {e b : Text}

/-! ## The texts of headers -/

/-- A text without braces and quotes that holds no mark of a comment. -/
structure Unmarked (t : Text) : Prop where
  opens : '{' ∉ t
  closes : '}' ∉ t
  unquoted : ∀ c ∈ t, isQuote c = false
  slashes : ¬"//" <:+: t
  comments : ¬"/*" <:+: t

instance (t : Text) : Decidable (Unmarked t) :=
  decidable_of_iff ((t.all fun c => c != '{' && c != '}' && !isQuote c) = true ∧
      ¬"//" <:+: t ∧ ¬"/*" <:+: t) <| by
    rw [List.all_eq_true]
    constructor
    · rintro ⟨hall, hslashes, hcomments⟩
      have hchars : ∀ c ∈ t, c ≠ '{' ∧ c ≠ '}' ∧ isQuote c = false := fun c hc => by
        simpa [and_assoc] using hall c hc
      exact ⟨fun hmem => (hchars _ hmem).1 rfl, fun hmem => (hchars _ hmem).2.1 rfl,
        fun c hc => (hchars c hc).2.2, hslashes, hcomments⟩
    · rintro ⟨hopens, hcloses, hunquoted, hslashes, hcomments⟩
      refine ⟨fun c hc => ?_, hslashes, hcomments⟩
      have hne {d : Char} (hd : d ∉ t) : c ≠ d := fun h => hd (h ▸ hc)
      simp [hne hopens, hne hcloses, hunquoted c hc]

/-- A mark does not reach into what does not hold its last character. -/
lemma infix_of_infix_append {mark : Text} {c : Char} (hc : c ∉ e) (h : mark ++ [c] <:+: b ++ e) :
    mark ++ [c] <:+: b := by
  obtain ⟨front, behind, heq⟩ := h
  obtain ⟨more, hb, -⟩ | ⟨more, hfront, he⟩ := List.append_eq_append_iff.mp heq
  · exact ⟨front, more, hb.symm⟩
  · rcases List.eq_nil_or_concat' more with rfl | ⟨more, d, rfl⟩
    · rw [List.append_nil] at hfront
      exact ⟨front, [], by rw [List.append_nil, hfront]⟩
    · rw [← List.append_assoc, ← List.append_assoc] at hfront
      obtain rfl : c = d := (List.cons.inj (List.append_inj' hfront rfl).2).1
      exact absurd (he ▸ List.mem_append_left behind (List.mem_append_right more List.mem_cons_self)) hc

lemma Unmarked.of_infix {t : Text} (h : Unmarked t) (hin : b <:+: t) : Unmarked b where
  opens := fun hmem => h.opens (hin.subset hmem)
  closes := fun hmem => h.closes (hin.subset hmem)
  unquoted := fun c hc => h.unquoted c (hin.subset hc)
  slashes := fun hmark => h.slashes (hmark.trans hin)
  comments := fun hmark => h.comments (hmark.trans hin)

/-- A brace behind a header follows the header and some blanks. -/
lemma exists_opening {header : Text} (hne : trim header ≠ []) : ∃ gap : Text,
    gap.isAllBlank = true ∧ trim (header ++ " \x7b") = trim header ++ (gap ++ ['{']) := by
  obtain ⟨front, back, heq, hfront, hback⟩ := trim_append header
  refine ⟨back ++ [' '], ?_, ?_⟩
  · rw [isAllBlank] at hback ⊢
    rw [List.all_append, hback]
    rfl
  · obtain ⟨c, rest, hcons⟩ := List.exists_cons_of_ne_nil hne
    have hc : isBlank c = false := head?_trim (by rw [hcons]; rfl)
    have hline : header ++ " \x7b" = front ++ (trim header ++ (back ++ [' '] ++ ['{'])) := by
      conv_lhs => rw [heq]
      simp only [List.append_assoc]
      rfl
    have hstart : trimStart (trim header ++ (back ++ [' '] ++ ['{'])) =
        trim header ++ (back ++ [' '] ++ ['{']) := by
      rw [hcons, List.cons_append]
      exact List.dropWhile_cons_of_neg (by simp [hc])
    have hbrace : dropEnd isBlank ['{'] = ['{'] := by decide
    rw [hline, trim, trimStart_blanks hfront, hstart, trimEnd, ← List.append_assoc,
      dropEnd_append_of_ne_nil (by rw [hbrace]; exact List.cons_ne_nil _ _), hbrace, List.append_assoc]

/-- A line without comments is read as it is. -/
lemma readLine_unmarked {raw : Text} (hne : trim raw ≠ []) (hslashes : ¬"//" <:+: trim raw)
    (hcomments : ¬"/*" <:+: trim raw) : readLine false raw = (some (trim raw), false) := by
  refine readLine_whole hne (fun before hbehind => ?_) hcomments
  obtain ⟨⟨after, heq⟩, -⟩ := hbehind
  exact hslashes ⟨before, after, heq.symm⟩

/-! ## Headers with their brace -/

lemma isTrivial_opened (hb : b ≠ []) (gap : Text) (hopens : '{' ∉ b) :
    isTrivial (b ++ (gap ++ ['{'])) = false := by
  have hends : ∀ t ∈ (["", "\x7b", "\x7d", "\x7d;", ");", "];", "\x7d)", "\x7d);"] : List Text),
      t.getLast? = some '{' → t = ['{'] := by decide
  rw [isTrivial, Bool.eq_false_iff, ne_eq, List.contains_iff_mem]
  intro hmem
  have hbrace := hends _ hmem (by simp)
  obtain ⟨c, rest, rfl⟩ := List.exists_cons_of_ne_nil hb
  obtain rfl : c = '{' := (List.cons.inj hbrace).1
  exact hopens List.mem_cons_self

lemma isOpening_of_gap {gap : Text} (hgap : gap.isAllBlank = true) :
    ∀ c ∈ gap ++ ['{'], isOpening c = true := by
  rw [List.forall_mem_append, List.forall_mem_singleton]
  refine ⟨fun c hc => ?_, rfl⟩
  rw [isOpening, List.all_eq_true.mp hgap c hc, Bool.or_true]

/-- A header with its brace is a header. It is found to be what it is without the brace, unless a loop
over awaited values becomes a method. -/
lemma classify_opened {l : Language} {s : Scanner} {gap : Text} (hgap : gap.isAllBlank = true)
    (hopens : '{' ∉ b) (hsemicolon : b.endsWith ";" = false) {c : Classified}
    (hc : classify l s b false = some c) (hheader : c.1.isHeader = true) :
    ∃ c', classify l s (b ++ (gap ++ ['{'])) false = some c' ∧ c'.1.isHeader = true ∧
      (c' = c ↔ ¬(l ≠ .c ∧ s.inClass = true ∧ joinsAwait (b ++ (gap ++ ['{'])) = true)) := by
  have he := isOpening_of_gap hgap
  have hsemicolon' : (b ++ (gap ++ ['{'])).endsWith ";" = false := by
    rw [show (";" : Text) = [';'] from rfl, endsWith_char, ← List.append_assoc, List.getLast?_concat]
    rfl
  have hne : b ≠ [] := by
    rintro rfl
    cases hc
  have htrivial : ¬isTrivial b = true := by
    intro htrivial
    unfold classify at hc
    rw [if_pos htrivial] at hc
    cases hc
  have htrivial' : ¬isTrivial (b ++ (gap ++ ['{'])) = true := by
    rw [isTrivial_opened hne gap hopens]
    exact Bool.false_ne_true
  unfold classify at hc ⊢
  rw [if_neg htrivial] at hc
  rw [if_neg htrivial']
  have hscript (hc : classifyScript s b false = some c) :
      ∃ c', classifyScript s (b ++ (gap ++ ['{'])) false = some c' ∧ c'.1.isHeader = true ∧
        (c' = c ↔ ¬(s.inClass = true ∧ joinsAwait (b ++ (gap ++ ['{'])) = true)) := by
    cases hjoins : s.inClass && joinsAwait (b ++ (gap ++ ['{'])) with
    | false =>
      refine ⟨c, stays_classifyScript he hopens hsemicolon hsemicolon' hjoins false c hc hheader,
        hheader, iff_of_true rfl ?_⟩
      rw [← Bool.and_eq_true, hjoins]
      exact Bool.false_ne_true
    | true =>
      obtain ⟨hcontrol, method, hmethod⟩ := exists_method he hopens hjoins hc hheader
      refine ⟨_, hmethod, rfl, iff_of_false ?_ (not_not.mpr (Bool.and_eq_true_iff.mp hjoins))⟩
      rintro rfl
      cases hcontrol
  cases l with
  | c => exact ⟨c, stays_classifyCompiled he hopens hsemicolon hsemicolon' s false c hc hheader, hheader,
      iff_of_true rfl fun h => h.1 rfl⟩
  | javascript => simpa using hscript hc
  | python => simpa using hscript hc

namespace Scanner

variable {l : Language} {s : Scanner}

/-! ## Braces of headers -/

/-- Nothing happens up to the first brace. -/
lemma passBraces_unbraced (s : Scanner) (first : Option BlockKind) (opened : Bool) (hopens : '{' ∉ b)
    (hcloses : '}' ∉ b) (hunquoted : ∀ c ∈ b, isQuote c = false) {cs : CodeState}
    (hcs : cs.quote = none) (index : Nat) : ∃ cs' index', cs'.quote = none ∧ ∀ rest,
      s.passBraces first opened (codeCharsFrom cs index (b ++ rest)) =
        s.passBraces first opened (codeCharsFrom cs' index' rest) := by
  induction b generalizing cs index with
  | nil => exact ⟨cs, index, hcs, fun _ => rfl⟩
  | cons c b ih =>
    rw [List.mem_cons, not_or] at hopens hcloses
    rw [List.forall_mem_cons] at hunquoted
    obtain ⟨hquote, hcode⟩ := CodeState.step_unquoted hcs hunquoted.1
    obtain ⟨depth, hdepth⟩ := Option.isSome_iff_exists.mp hcode
    obtain ⟨cs', index', hcs', hpass⟩ := ih hopens.2 hcloses.2 hunquoted.2 hquote (index + c.utf8Size)
    refine ⟨cs', index', hcs', fun rest => ?_⟩
    rw [List.cons_append, codeCharsFrom, hdepth, ← hpass]
    dsimp only
    rw [passBraces, if_neg (by simpa using Ne.symm hopens.1), if_neg (by simpa using Ne.symm hcloses.1)]

/-- A header without its brace leaves the kind of its block pending. -/
lemma trackBraces_header (s : Scanner) (h : Unmarked b) (hsemicolon : b.endsWith ";" = false)
    (kind : BlockKind) : s.trackBraces (some kind) b = { s with pending := some kind } := by
  obtain ⟨cs, index, -, hpass⟩ := passBraces_unbraced { s with pending := none } (some kind) false
    h.opens h.closes h.unquoted (rfl : CodeState.start.quote = none) 0
  have hnone := hpass []
  rw [List.append_nil] at hnone
  have hpassed : passBraces { s with pending := none } ((some kind).or s.pending) false
      (codeChars b) = ({ s with pending := none }, false) := hnone
  rw [trackBraces, hpassed, hsemicolon]
  rfl

/-- The scanner in a block. -/
def inBlock (s : Scanner) (kind : BlockKind) : Scanner :=
  { s with blocks := kind :: s.blocks, pending := none }

/-- A brace opens the block of the header before it, or the pending one. -/
lemma trackBraces_brace (s : Scanner) (h : Unmarked b) {gap : Text} (hgap : gap.isAllBlank = true)
    (opens : Option BlockKind) : s.trackBraces opens (b ++ (gap ++ ['{'])) =
      s.inBlock ((opens.or s.pending).getD .other) := by
  have hblank := List.all_eq_true.mp hgap
  have hnot {c : Char} (hc : isBlank c = false) (hb : c ∉ b) : c ∉ b ++ gap := by
    rw [List.mem_append, not_or]
    exact ⟨hb, not_mem_of_isAllBlank hgap hc⟩
  have hunquoted : ∀ c ∈ b ++ gap, isQuote c = false :=
    List.forall_mem_append.mpr ⟨h.unquoted, fun c hc => isQuote_of_isBlank (hblank c hc)⟩
  obtain ⟨cs, index, hcs, hpass⟩ := passBraces_unbraced { s with pending := none }
    (opens.or s.pending) false (hnot (by decide) h.opens) (hnot (by decide) h.closes) hunquoted
    (rfl : CodeState.start.quote = none) 0
  obtain ⟨depth, hdepth⟩ : ∃ depth, (cs.step '{').2 = some depth :=
    Option.isSome_iff_exists.mp (CodeState.step_unquoted hcs (by decide)).2
  have hbrace := hpass ['{']
  rw [codeCharsFrom, hdepth] at hbrace
  have hpassed : passBraces { s with pending := none } (opens.or s.pending) false
      (codeChars (b ++ (gap ++ ['{']))) = (s.inBlock ((opens.or s.pending).getD .other), true) := by
    rw [← List.append_assoc]
    exact hbrace
  rw [trackBraces, hpassed]
  rfl

/-! ## Lines of headers -/

section

variable {raw : Text} {c : Char} {rest : Text}

lemma atBody_eq {code : Text} (hclosers : closers code = 0)
    (h : ∀ c, s.found? l code = some c → c.1.isHeader = true) : s.atBody l code = s := by
  rw [atBody]
  split
  · next hfound => cases h _ hfound
  · rw [hclosers]
    rfl

/-- What a line is found to be that begins with its body. -/
lemma found?_cons (hc : isBeforeBody c = false) (rest : Text) : closers (c :: rest) = 0 ∧
    bodyOf (c :: rest) = c :: rest ∧ s.found? l (c :: rest) = classify l s (c :: rest) false := by
  have hclosers : closers (c :: rest) = 0 := by
    rw [closers, List.takeWhile_cons_of_neg (by simp [hc])]
    rfl
  have hbody : bodyOf (c :: rest) = c :: rest := List.dropWhile_cons_of_neg (by simp [hc])
  have hbrace : ((c :: rest).head? == some '}') = false := by
    rw [beq_eq_false_iff_ne]
    rintro ⟨⟩
    cases hc
  refine ⟨hclosers, hbody, ?_⟩
  rw [found?, hclosers, hbody, hbrace]
  rfl

/-- A line that is a header or nothing, and has no comment. -/
lemma feed_body (hs : s.inComment = false) (hraw : trim raw = c :: rest)
    (hc : isBeforeBody c = false) (hslashes : ¬"//" <:+: trim raw) (hcomments : ¬"/*" <:+: trim raw)
    {found : Option Classified} (hfound : classify l s (trim raw) false = found)
    (hheader : ∀ c ∈ found, c.1.isHeader = true) :
    s.feed l raw = (s.trackBraces (found.map (·.2)) (trim raw), found.map (·.1)) := by
  have hread : readLine s.inComment raw = (some (trim raw), false) := by
    rw [hs]
    exact readLine_unmarked (hraw ▸ List.cons_ne_nil c rest) hslashes hcomments
  have hsame : { s with inComment := false } = s := by
    rw [← hs]
  rw [hraw] at hfound
  obtain ⟨hclosers, hbody, hcons⟩ := found?_cons (l := l) (s := s) hc rest
  have hfound' : s.found? l (c :: rest) = found := hcons.trans hfound
  rw [feed_read hread, hsame, hraw, feedCode_eq, hfound', hbody,
    atBody_eq hclosers fun c hc => hheader c (hfound'.symm.trans hc)]

end

/-- A line that is blank or a comment. -/
def isGap (raw : Text) : Bool := (trim raw).isEmpty || (trim raw).startsWith "//"

lemma feed_gap (hs : s.inComment = false) {raw : Text} (h : isGap raw = true) :
    s.feed l raw = (s, none) := by
  rw [isGap] at h
  rw [feed, hs, if_neg Bool.false_ne_true]
  exact if_pos h

/-- A brace on a line of its own opens the pending block. -/
lemma feed_brace (hs : s.inComment = false) {raw : Text} (hraw : trim raw = ['{']) :
    s.feed l raw = (s.inBlock (s.pending.getD .other), none) := by
  have hempty : Unmarked [] := by decide
  have hnone : classify l s (trim raw) false = none := by
    rw [hraw]
    rfl
  have hslashes : ¬"//" <:+: trim raw := by
    rw [hraw]
    decide
  have hcomments : ¬"/*" <:+: trim raw := by
    rw [hraw]
    decide
  have hfeed := feed_body hs hraw (by decide) hslashes hcomments hnone nofun
  have hopens : s.trackBraces none ['{'] = s.inBlock (s.pending.getD .other) :=
    trackBraces_brace s hempty (rfl : isAllBlank [] = true) none
  rw [hfeed, hraw]
  exact congrArg (·, none) hopens

/-! ## Headers -/

/-- A line that the scanner takes for a header. -/
structure ReadsHeader (l : Language) (s : Scanner) (header : Text) (c : Classified) : Prop where
  unmarked : Unmarked (trim header)
  begins : ∃ d rest, trim header = d :: rest ∧ isBeforeBody d = false
  found : classify l s (trim header) false = some c
  isHeader : c.1.isHeader = true

variable {header : Text} {c : Classified}

lemma exists_readsHeader (hs : s.inComment = false) (hunmarked : Unmarked header) {kind : NodeKind}
    (hkind : (s.feed l header).2 = some kind) (hheader : kind.isHeader = true) :
    ∃ block, ReadsHeader l s header (kind, block) := by
  have htrim : Unmarked (trim header) := by
    obtain ⟨front, back, heq, -, -⟩ := trim_append header
    exact hunmarked.of_infix ⟨front, back, heq.symm⟩
  cases hcons : trim header with
  | nil =>
    have hread : readLine s.inComment header = (none, false) := by
      rw [hs, readLine, hcons]
      rfl
    rw [feed_unread hread] at hkind
    cases hkind
  | cons d rest =>
    have hd : isBeforeBody d = false := by
      have hblank : isBlank d = false := head?_trim (by rw [hcons]; rfl)
      have hne : d ≠ '}' := by
        rintro rfl
        exact htrim.closes (hcons ▸ List.mem_cons_self)
      rw [isBeforeBody, hblank, Bool.or_false, beq_eq_false_iff_ne]
      exact hne
    have hread : readLine s.inComment header = (some (d :: rest), false) := by
      rw [hs, ← hcons]
      exact readLine_unmarked (hcons ▸ List.cons_ne_nil d rest) htrim.slashes htrim.comments
    rw [node_feed hread, (found?_cons hd rest).2.2, Option.map_eq_some_iff] at hkind
    obtain ⟨⟨kind, block⟩, hfound, rfl⟩ := hkind
    exact ⟨block, htrim, ⟨d, rest, hcons, hd⟩, hcons ▸ hfound, hheader⟩

/-- The nodes of some lines, and the scanner behind them. -/
def reading (l : Language) (s : Scanner) (line : Nat) (lines : List Text) : List Node × Scanner :=
  ((s.steps l line lines).filterMap id, s.after l lines)

section

variable {s' : Scanner} {raw : Text}

lemma reading_of_node {kind : NodeKind} (h : s.feed l raw = (s', some kind)) (line : Nat)
    (rest : List Text) : s.reading l line (raw :: rest) =
      (.leaf kind line :: (s'.reading l (line + 1) rest).1, (s'.reading l (line + 1) rest).2) := by
  rw [reading, steps_cons, after, List.foldl_cons, h]
  rfl

lemma reading_of_none (h : s.feed l raw = (s', none)) (line : Nat) (rest : List Text) :
    s.reading l line (raw :: rest) = s'.reading l (line + 1) rest := by
  rw [reading, steps_cons, after, List.foldl_cons, h]
  rfl

end

/-- Gaps have no nodes and change nothing. -/
lemma reading_gaps (hs : s.inComment = false) {gaps : List Text} (h : ∀ raw ∈ gaps, isGap raw = true)
    (line : Nat) (rest : List Text) :
    s.reading l line (gaps ++ rest) = s.reading l (line + gaps.length) rest := by
  induction gaps generalizing line with
  | nil => rfl
  | cons raw gaps ih =>
    rw [List.forall_mem_cons] at h
    rw [List.cons_append, reading_of_none (feed_gap hs h.1), ih h.2, List.length_cons,
      Nat.add_right_comm, Nat.add_assoc]

/-- A header whose brace stands on a line of its own. -/
lemma ReadsHeader.reading_below (h : ReadsHeader l s header c) (hs : s.inComment = false)
    (hsemicolon : (trim header).endsWith ";" = false) {gaps : List Text}
    (hgaps : ∀ raw ∈ gaps, isGap raw = true) {brace : Text} (hbrace : trim brace = ['{'])
    (line : Nat) :
    s.reading l line (header :: gaps ++ [brace]) = ([.leaf c.1 line], s.inBlock c.2) := by
  obtain ⟨d, rest, hcons, hd⟩ := h.begins
  let pending : Scanner := { s with pending := some c.2 }
  have hpending : pending.inComment = false := hs
  have hheader : s.feed l header = (pending, some c.1) := by
    rw [feed_body hs hcons hd h.unmarked.slashes h.unmarked.comments h.found (by simpa using h.isHeader)]
    exact congrArg (·, some c.1) (trackBraces_header s h.unmarked hsemicolon c.2)
  have hopens : pending.feed l brace = (s.inBlock c.2, none) := feed_brace hpending hbrace
  rw [List.cons_append, reading_of_node hheader, reading_gaps hpending hgaps, reading_of_none hopens]
  rfl

lemma not_infix_opened (mark : Text) {gap : Text} {d : Char} (hd : isOpening d = false)
    (hgap : gap.isAllBlank = true) (h : ¬mark ++ [d] <:+: b) :
    ¬mark ++ [d] <:+: b ++ (gap ++ ['{']) :=
  fun hmark => h (infix_of_infix_append (not_mem_of_opening (isOpening_of_gap hgap) hd) hmark)

/-- A header whose brace ends its line. -/
lemma ReadsHeader.reading_opened (h : ReadsHeader l s header c) (hs : s.inComment = false)
    {gap : Text} (hgap : gap.isAllBlank = true) {raw : Text}
    (hraw : trim raw = trim header ++ (gap ++ ['{'])) {c' : Classified}
    (hc' : classify l s (trim raw) false = some c') (hheader : c'.1.isHeader = true) (line : Nat) :
    s.reading l line [raw] = ([.leaf c'.1 line], s.inBlock c'.2) := by
  obtain ⟨d, rest, hcons, hd⟩ := h.begins
  have hslashes : ¬"//" <:+: trim raw := by
    rw [hraw]
    exact not_infix_opened ['/'] (by decide) hgap h.unmarked.slashes
  have hcomments : ¬"/*" <:+: trim raw := by
    rw [hraw]
    exact not_infix_opened ['/'] (by decide) hgap h.unmarked.comments
  have hbegins : trim raw = d :: (rest ++ (gap ++ ['{'])) := by
    rw [hraw, hcons]
    rfl
  have hfeed : s.feed l raw = (s.inBlock c'.2, some c'.1) := by
    rw [feed_body hs hbegins hd hslashes hcomments hc' (by simpa using hheader), hraw]
    exact congrArg (·, some c'.1) (trackBraces_brace s h.unmarked hgap (some c'.2))
  exact reading_of_node hfeed line []

end Scanner

open Scanner

variable {l : Language} {s : Scanner}

/-- For headers the style of braces makes no difference. A header outside block comments, without
braces, quotes and comments, is read alike with a brace behind it and with one below, unless it is a
header of a script that looks like a loop over awaited values, and a method with the brace behind it,
in the body of a class. -/
theorem brace_below_iff (hs : s.inComment = false) {header : Text} (hunmarked : Unmarked header)
    (hsemicolon : (trim header).endsWith ";" = false) {kind : NodeKind}
    (hkind : (s.feed l header).2 = some kind) (hheader : kind.isHeader = true) {gaps : List Text}
    (hgaps : ∀ raw ∈ gaps, isGap raw = true) {brace : Text} (hbrace : trim brace = "\x7b")
    (line : Nat) :
    s.reading l line [header ++ " \x7b"] = s.reading l line (header :: gaps ++ [brace]) ↔
      ¬(l ≠ .c ∧ s.inClass = true ∧ joinsAwait (trim (header ++ " \x7b")) = true) := by
  obtain ⟨block, h⟩ := exists_readsHeader hs hunmarked hkind hheader
  obtain ⟨gap, hgap, hraw⟩ := exists_opening fun hnil => by
    obtain ⟨d, rest, hcons, -⟩ := h.begins
    exact List.cons_ne_nil d rest (hcons.symm.trans hnil)
  obtain ⟨c', hc', hheader', hiff⟩ := classify_opened hgap h.unmarked.opens hsemicolon h.found h.isHeader
  rw [← hraw] at hc' hiff
  rw [h.reading_below hs hsemicolon hgaps hbrace, h.reading_opened hs hgap hraw hc' hheader', ← hiff]
  obtain ⟨kind', block'⟩ := c'
  simp [Node.leaf, inBlock]

theorem brace_below_main :
    reading .c start 1 ["int main(void) \x7b"] =
      reading .c start 1 ["int main(void)", "", "  // starts here", "\x7b"] := by
  have hunmarked : Unmarked "int main(void)" := by decide +kernel
  have hkind : (start.feed .c "int main(void)").2 =
      some (.function ⟨"main", [], [], false, .function, none⟩) := by decide +kernel
  have hgaps : ∀ raw ∈ (["", "  // starts here"] : List Text), isGap raw = true := by decide +kernel
  have hbrace : trim "\x7b" = "\x7b" := by decide +kernel
  exact (brace_below_iff rfl hunmarked (by decide +kernel) hkind rfl hgaps hbrace 1).mpr
    fun h => h.1 rfl

/-- In a class a loop over awaited values that is written as one word is a loop where the brace stands
below, and a method where it ends the line. -/
theorem brace_below_awaited_loop :
    (start.after .javascript ["class A \x7b"]).inComment = false ∧ Unmarked "forawait(x of y)" ∧
      (trim "forawait(x of y)").endsWith ";" = false ∧
      ((start.after .javascript ["class A \x7b"]).feed .javascript "forawait(x of y)").2 =
        some (.forLoop "x" "y" false) ∧
      ((start.after .javascript ["class A \x7b"]).feed .javascript "forawait(x of y) \x7b").2 =
        some (.function ⟨"forawait", ["x of y"], [], false, .method, some "A"⟩) ∧
      (start.after .javascript ["class A \x7b"]).reading .javascript 2 ["forawait(x of y) \x7b"] ≠
        (start.after .javascript ["class A \x7b"]).reading .javascript 2
          ["forawait(x of y)", "\x7b"] := by
  refine ⟨rfl, by decide +kernel, by decide +kernel, by decide +kernel, by decide +kernel, fun h => ?_⟩
  have hblocks := congrArg (fun read => read.2.blocks) h
  exact absurd hblocks (by decide +kernel)

end Marginalia.Braced
