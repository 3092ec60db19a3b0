import Marginalia.Proofs.PassedBraces

/-!
# What is read of a line

Of each line the scanner of braced sources reads either nothing or some code, and which it is depends
on the block comments alone. What a line of code does to the scanner is said here once: to the open
blocks, to the header whose brace is still to come, and to the name of the class.
-/

namespace Marginalia.Braced

open Text

/-- The code that is read of a line, if any is, and whether a block comment is open behind it. -/
def readLine (inComment : Bool) (raw : Text) : Option Text × Bool :=
  let stripped := trim raw
  if inComment then (none, !stripped.hasPart "*/")
  else if stripped.isEmpty || stripped.startsWith "//" then (none, false)
  else if stripped.startsWith "/*" then (none, !Text.hasPart (stripped.drop 2) "*/")
  else (some (codeOf stripped).1, (codeOf stripped).2)

/-- The closing braces that lead a line of code. -/
def closers (code : Text) : Nat := ((code.takeWhile isBeforeBody).filter (· == '}')).length

/-- What stands behind them. -/
def bodyOf (code : Text) : Text := code.dropWhile isBeforeBody

/-- The kind of block that a brace opens, told from the text before it in the body of its line:
`first` is for the first brace of the line. -/
def kindBehind (first : Option BlockKind) (before : Text) : BlockKind :=
  if '{' ∈ codeText .start before then .other else first.getD .other

namespace Scanner

variable {l : Language} {s : Scanner} {code : Text}

/-- Closes some blocks. -/
def closeBlocks (s : Scanner) : Nat → Scanner
  | 0 => s
  | n + 1 => s.closeBlock.closeBlocks n

/-- What a line of code is found to be. -/
def found? (l : Language) (s : Scanner) (code : Text) : Option Classified :=
  classify l (s.closeBlocks (closers code)) (bodyOf code) (code.head? == some '}')

/-- The kind of block that the first brace of a line opens. -/
def firstKind (l : Language) (s : Scanner) (code : Text) : Option BlockKind :=
  ((s.found? l code).map (·.2)).or s.pending

/-- The scanner that has closed the blocks before the body of a line and knows its class. -/
def atBody (l : Language) (s : Scanner) (code : Text) : Scanner :=
  match s.found? l code with
  | some (.classDef name _ _, _) => { s.closeBlocks (closers code) with className := some name }
  | _ => s.closeBlocks (closers code)

lemma foldl_closeBlock_eq (braces : Text) :
    braces.foldl (fun s _ => s.closeBlock) s = s.closeBlocks braces.length := by
  induction braces generalizing s with
  | nil => rfl
  | cons c rest ih => exact ih

lemma closeBlocks_blocks (n : Nat) : (s.closeBlocks n).blocks = s.blocks.drop n := by
  induction n generalizing s with
  | zero => rfl
  | succ n ih => rw [closeBlocks, ih, closeBlock, List.drop_drop, Nat.add_comm]

lemma closeBlocks_kept (n : Nat) : (s.closeBlocks n).pending = s.pending ∧
    (s.closeBlocks n).inComment = s.inComment := by
  induction n generalizing s with
  | zero => exact ⟨rfl, rfl⟩
  | succ n ih => exact ih

lemma closeBlocks_className (n : Nat) :
    (s.closeBlocks n).className = none ∨ (s.closeBlocks n).className = s.className := by
  induction n generalizing s with
  | zero => exact .inr rfl
  | succ n ih =>
    rcases ih (s := s.closeBlock) with hnone | hkept
    · exact .inl hnone
    · rw [closeBlocks, hkept, closeBlock]
      dsimp only
      split
      · exact .inr rfl
      · exact .inl rfl

lemma atBody_kept (l : Language) (s : Scanner) (code : Text) :
    (s.atBody l code).blocks = s.blocks.drop (closers code) ∧
    (s.atBody l code).pending = s.pending ∧ (s.atBody l code).inComment = s.inComment := by
  rw [← closeBlocks_blocks, ← (closeBlocks_kept (s := s) (closers code)).1,
    ← (closeBlocks_kept (s := s) (closers code)).2, atBody]
  split <;> exact ⟨rfl, rfl, rfl⟩

lemma feedCode_eq : feedCode l s code =
    ((s.atBody l code).trackBraces ((s.found? l code).map (·.2)) (bodyOf code),
      (s.found? l code).map (·.1)) := by
  rw [feedCode, foldl_closeBlock_eq]
  rfl

/-! ## Braces -/

/-- Braces put the kinds of the blocks they open on top of each other. -/
lemma blocks_passBraces_from {cs : CodeState} {index : Nat} {first : Option BlockKind} {opened : Bool}
    {before : Text} (hopened : opened = true ↔ '{' ∈ codeText .start before)
    (hcs : CodeState.start.run before = cs) (t : Text) :
    (s.passBraces (if opened then none else first) opened (codeCharsFrom cs index t)).1.blocks =
      passStack (kindBehind first) cs before s.blocks t := by
  induction t generalizing s cs index opened before with
  | nil => rfl
  | cons c rest ih =>
    have hnext : CodeState.start.run (before ++ [c]) = (cs.step c).1 := by
      rw [CodeState.run_append, hcs]
      rfl
    rw [passStack, codeCharsFrom]
    cases hcode : (cs.step c).2 with
    | none =>
      refine ih ?_ hnext
      rw [hopened, codeText_append, hcs, codeText, hcode]
      simp [codeText]
    | some depth =>
      have hmore : codeText .start (before ++ [c]) = codeText .start before ++ [c] := by
        rw [codeText_append, hcs, codeText, hcode]
        rfl
      simp only [passBraces, Option.isSome_some, if_true]
      by_cases hopen : (c == '{') = true
      · have hkind : (if opened then none else first).getD .other = kindBehind first before := by
          rw [kindBehind]
          cases opened <;> simp_all
        have hbrace : true = true ↔ '{' ∈ codeText .start (before ++ [c]) := by
          rw [hmore, beq_iff_eq.mp hopen]
          simp
        rw [if_pos hopen, if_pos hopen, hkind]
        exact ih hbrace hnext
      · have hsame : opened = true ↔ '{' ∈ codeText .start (before ++ [c]) := by
          have hc : c ≠ '{' := by simpa using hopen
          rw [hopened, hmore]
          simp [Ne.symm hc]
        rw [if_neg hopen, if_neg hopen]
        split
        · exact ih (s := s.closeBlock) hsame hnext
        · exact ih hsame hnext

lemma blocks_passBraces (s : Scanner) (first : Option BlockKind) (body : Text) :
    (s.passBraces first false (codeChars body)).1.blocks =
      passStack (kindBehind first) .start [] s.blocks body := by
  have hpass : (s.passBraces (if false then none else first) false (codeChars body)).1.blocks =
      passStack (kindBehind first) .start [] s.blocks body :=
    blocks_passBraces_from (by simp [codeText]) (CodeState.run_nil .start) body
  exact hpass

lemma opened_passBraces (s : Scanner) (cs : CodeState) (index : Nat) (first : Option BlockKind)
    (opened : Bool) (t : Text) : (s.passBraces first opened (codeCharsFrom cs index t)).2 =
      (opened || decide ('{' ∈ codeText cs t)) := by
  induction t generalizing s cs index first opened with
  | nil => simp [codeCharsFrom, passBraces, codeText]
  | cons c rest ih =>
    rw [codeCharsFrom, codeText]
    cases (cs.step c).2 with
    | none => exact ih _ _ _ _ _
    | some depth =>
      simp only [passBraces, Option.isSome_some, if_true, List.mem_cons]
      by_cases hopen : (c == '{') = true
      · rw [if_pos hopen, ih, beq_iff_eq.mp hopen]
        simp
      · have hc : ¬('{' = c) := fun h => hopen (beq_iff_eq.mpr h.symm)
        rw [if_neg hopen]
        simp only [hc, false_or]
        split
        · exact ih _ _ _ _ _
        · exact ih _ _ _ _ _

/-- Braces touch neither comments nor pending headers, and may clear the name of the class. -/
lemma passBraces_kept (s : Scanner) (first : Option BlockKind) (opened : Bool)
    (chars : List CodeChar) :
    (s.passBraces first opened chars).1.pending = s.pending ∧
      (s.passBraces first opened chars).1.inComment = s.inComment ∧
      ((s.passBraces first opened chars).1.className = none ∨
        (s.passBraces first opened chars).1.className = s.className) := by
  induction chars generalizing s first opened with
  | nil => exact ⟨rfl, rfl, .inr rfl⟩
  | cons c rest ih =>
    rw [passBraces]
    split
    · exact ih (s.openBlock (first.getD .other)) none true
    · split
      · obtain ⟨hpending, hcomment, hname⟩ := ih s.closeBlock first opened
        refine ⟨hpending, hcomment, ?_⟩
        rcases hname with hnone | hkept
        · exact .inl hnone
        · rw [hkept]
          exact closeBlocks_className 1
      · exact ih s first opened

/-! ## What a line of code does -/

lemma trackBraces_eq {opens : Option BlockKind} {body : Text} : s.trackBraces opens body =
    let passed := (passBraces { s with pending := none } (opens.or s.pending) false (codeChars body)).1
    if '{' ∈ codeText .start body ∨ body.endsWith ";" = true then passed
    else { passed with pending := opens } := by
  have hopened := opened_passBraces { s with pending := none } .start 0 (opens.or s.pending) false body
  have hpending := (passBraces_kept { s with pending := none } (opens.or s.pending) false
    (codeChars body)).1
  rw [trackBraces]
  rw [Bool.false_or] at hopened
  generalize hpassed : passBraces { s with pending := none } (opens.or s.pending) false
    (codeChars body) = passed at hpending
  have hsnd : passed.2 = decide ('{' ∈ codeText .start body) := by
    rw [← hpassed]
    exact hopened
  obtain ⟨⟨blocks, pending, inComment, className⟩, opened⟩ := passed
  obtain rfl : pending = none := hpending
  obtain rfl : opened = decide ('{' ∈ codeText .start body) := hsnd
  generalize body.endsWith ";" = semicolon
  by_cases hbrace : '{' ∈ codeText .start body
  · simp [hbrace]
  · cases semicolon <;> cases opens <;> simp [hbrace]

/-- The blocks that are open behind a line of code. -/
lemma blocks_feedCode : (feedCode l s code).1.blocks =
    passStack (kindBehind (s.firstKind l code)) .start [] (s.blocks.drop (closers code))
      (bodyOf code) := by
  obtain ⟨hblocks, hpending, -⟩ := atBody_kept l s code
  have hpass := blocks_passBraces { s.atBody l code with pending := none } (s.firstKind l code)
    (bodyOf code)
  rw [feedCode_eq, trackBraces_eq, hpending, ← hblocks]
  dsimp only
  split
  · exact hpass
  · exact hpass

/-- The header whose brace is still to come behind a line of code. -/
lemma pending_feedCode : (feedCode l s code).1.pending =
    if '{' ∈ codeText .start (bodyOf code) ∨ (bodyOf code).endsWith ";" = true then none
    else (s.found? l code).map (·.2) := by
  rw [feedCode_eq, trackBraces_eq]
  dsimp only
  split
  · exact (passBraces_kept _ _ _ _).1
  · rfl

lemma inComment_feedCode : (feedCode l s code).1.inComment = s.inComment := by
  rw [feedCode_eq, trackBraces_eq]
  dsimp only
  split
  · exact (passBraces_kept _ _ _ _).2.1.trans (atBody_kept l s code).2.2
  · exact (passBraces_kept _ _ _ _).2.1.trans (atBody_kept l s code).2.2

/-- A line of code leaves no name of a class, or the one that its body begins with. -/
lemma className_feedCode : (feedCode l s code).1.className = none ∨
    (feedCode l s code).1.className = (s.atBody l code).className := by
  rw [feedCode_eq, trackBraces_eq]
  dsimp only
  split
  · exact (passBraces_kept _ _ _ _).2.2
  · exact (passBraces_kept _ _ _ _).2.2

/-! ## What a line does -/

/-- One line: either nothing of it is read, or its code is. -/
lemma feed_eq (l : Language) (s : Scanner) (raw : Text) : s.feed l raw =
    match readLine s.inComment raw with
    | (none, opened) => ({ s with inComment := opened }, none)
    | (some code, opened) => feedCode l { s with inComment := opened } code := by
  obtain ⟨blocks, pending, inComment, className⟩ := s
  rw [feed, readLine]
  cases inComment with
  | true =>
    simp only [if_true]
    cases Text.hasPart (trim raw) "*/" <;> rfl
  | false =>
    simp only [Bool.false_eq_true, if_false]
    split
    · rfl
    · split
      · cases Text.hasPart ((trim raw).drop 2) "*/" <;> rfl
      · cases (codeOf (trim raw)).2 <;> rfl

lemma closeBlocks_comment (n : Nat) (opened : Bool) :
    closeBlocks { s with inComment := opened } n = { s.closeBlocks n with inComment := opened } := by
  induction n generalizing s with
  | zero => rfl
  | succ n ih => exact ih (s := s.closeBlock)

/-- Block comments have no part in what a line of code is found to be. -/
lemma found?_comment (opened : Bool) :
    found? l { s with inComment := opened } code = s.found? l code := by
  rw [found?, found?, closeBlocks_comment]
  rfl

lemma atBody_comment (opened : Bool) :
    atBody l { s with inComment := opened } code = { s.atBody l code with inComment := opened } := by
  rw [atBody, atBody, found?_comment, closeBlocks_comment]
  split <;> rfl

lemma passBraces_comment (s : Scanner) (opened : Bool) (first : Option BlockKind) (anyOpen : Bool)
    (chars : List CodeChar) : passBraces { s with inComment := opened } first anyOpen chars =
      ({ (s.passBraces first anyOpen chars).1 with inComment := opened },
        (s.passBraces first anyOpen chars).2) := by
  induction chars generalizing s first anyOpen with
  | nil => rfl
  | cons c rest ih =>
    rw [passBraces, passBraces]
    split
    · exact ih (s.openBlock _) none true
    · split
      · exact ih s.closeBlock first anyOpen
      · exact ih s first anyOpen

/-- Block comments have no part in what a line of code does. -/
lemma feedCode_comment (opened : Bool) : feedCode l { s with inComment := opened } code =
    ({ (feedCode l s code).1 with inComment := opened }, (feedCode l s code).2) := by
  have hpass := passBraces_comment { s.atBody l code with pending := none } opened
    (((s.found? l code).map (·.2)).or (s.atBody l code).pending) false (codeChars (bodyOf code))
  rw [feedCode_eq, feedCode_eq, found?_comment, atBody_comment, trackBraces_eq, trackBraces_eq]
  dsimp only at hpass ⊢
  rw [hpass]
  split <;> rfl

variable {raw : Text} {opened : Bool}

lemma feed_unread (h : readLine s.inComment raw = (none, opened)) :
    s.feed l raw = ({ s with inComment := opened }, none) := by
  rw [feed_eq, h]

lemma feed_read (h : readLine s.inComment raw = (some code, opened)) :
    s.feed l raw = feedCode l { s with inComment := opened } code := by
  rw [feed_eq, h]

/-- A line with a node is one of which some code is read. -/
lemma exists_read_of_node {node : NodeKind} (h : (s.feed l raw).2 = some node) :
    ∃ code opened, readLine s.inComment raw = (some code, opened) := by
  cases hread : readLine s.inComment raw with
  | mk code? opened =>
    cases code? with
    | none =>
      rw [feed_unread hread] at h
      cases h
    | some code => exact ⟨code, opened, rfl⟩

lemma node_feed (h : readLine s.inComment raw = (some code, opened)) :
    (s.feed l raw).2 = (s.found? l code).map (·.1) := by
  rw [feed_read h, feedCode_eq, found?_comment]

lemma blocks_feed (h : readLine s.inComment raw = (some code, opened)) :
    (s.feed l raw).1.blocks = passStack (kindBehind (s.firstKind l code)) .start []
      (s.blocks.drop (closers code)) (bodyOf code) := by
  rw [feed_read h, blocks_feedCode, firstKind, found?_comment]
  rfl

lemma pending_feed (h : readLine s.inComment raw = (some code, opened)) :
    (s.feed l raw).1.pending =
      if '{' ∈ codeText .start (bodyOf code) ∨ (bodyOf code).endsWith ";" = true then none
      else (s.found? l code).map (·.2) := by
  rw [feed_read h, pending_feedCode, found?_comment]

lemma className_feed (h : readLine s.inComment raw = (some code, opened)) :
    (s.feed l raw).1.className = none ∨
      (s.feed l raw).1.className = (s.atBody l code).className := by
  rw [feed_read h, feedCode_comment]
  exact className_feedCode

lemma inComment_feed (l : Language) (s : Scanner) (raw : Text) :
    (s.feed l raw).1.inComment = (readLine s.inComment raw).2 := by
  rw [feed_eq]
  split
  · next opened h => rw [h]
  · next code opened h =>
    rw [h]
    exact inComment_feedCode

/-- Lines of which the same code is read differ only in the comment that they leave open. -/
lemma feed_of_same_code {raw' : Text}
    (h : (readLine s.inComment raw).1 = (readLine s.inComment raw').1) :
    (s.feed l raw).2 = (s.feed l raw').2 ∧ (s.feed l raw).1 =
      { (s.feed l raw').1 with inComment := (readLine s.inComment raw).2 } := by
  obtain ⟨code?, opened, hread⟩ : ∃ code? opened, readLine s.inComment raw = (code?, opened) :=
    ⟨_, _, rfl⟩
  obtain ⟨code?', opened', hread'⟩ : ∃ code? opened, readLine s.inComment raw' = (code?, opened) :=
    ⟨_, _, rfl⟩
  rw [hread, hread'] at h
  obtain rfl : code? = code?' := h
  rw [hread]
  cases code? with
  | none =>
    rw [feed_unread hread, feed_unread hread']
    exact ⟨rfl, rfl⟩
  | some code =>
    rw [feed_read hread, feed_read hread', feedCode_comment opened, feedCode_comment opened']
    exact ⟨rfl, rfl⟩

end Scanner
end Marginalia.Braced
