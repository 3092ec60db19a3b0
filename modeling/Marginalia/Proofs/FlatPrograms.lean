import Marginalia.Proofs.RebuiltLines

/-!
# Programs that lost their indentation

A program is a tree: statements that stand on one line each, and compound ones with a header for each
of their clauses and a body below it. Written with all lines at the first column, a program whose
blocks can be told from the words that lines start with gets its indentation back.
-/

namespace Marginalia.Repair

open Text

/-! ## Lines -/

/-- A line at the first column that is a whole statement, as the layout of lines has it. -/
structure WholeLine (line : Text) : Prop where
  oneLine : OneLine line
  flush : line.indentation = []
  whole : layout [line] = [⟨.statement, true⟩]

/-- A statement that stays in its block. -/
structure SimpleLine (line : Text) : Prop extends WholeLine line where
  noClause : startsWithOneOf clauseWords line = false
  noExit : startsWithOneOf exitWords line = false
  noHeader : (codeOfLine line).endsWith ":" = false

/-- A statement that leaves its block. -/
structure ExitLine (line : Text) : Prop extends WholeLine line where
  exits : startsWithOneOf exitWords line = true
  noHeader : (codeOfLine line).endsWith ":" = false

/-- The header of the first clause of a compound statement, or of a later one. -/
structure HeaderLine (later : Bool) (line : Text) : Prop extends WholeLine line where
  clause : startsWithOneOf clauseWords line = later
  opens : opensBlock line = true

/-! ## Programs -/

/-- A statement of a program. The clauses of a compound statement are headers with their bodies. -/
inductive Stmt where
  | simple (line : Text)
  | exit (line : Text)
  | compound (clauses : List (Text × List Stmt))

mutual

/-- The lines of a statement, each with its level of nesting. -/
def Stmt.leveled (level : Nat) : Stmt → List (Nat × Text)
  | .simple line => [(level, line)]
  | .exit line => [(level, line)]
  | .compound clauses => leveledClauses level clauses

def leveledClauses (level : Nat) : List (Text × List Stmt) → List (Nat × Text)
  | [] => []
  | (header, body) :: rest =>
    (level, header) :: (leveledBody (level + 1) body ++ leveledClauses level rest)

/-- The lines of statements one below the other, each with its level of nesting. -/
def leveledBody (level : Nat) : List Stmt → List (Nat × Text)
  | [] => []
  | s :: rest => s.leveled level ++ leveledBody level rest

end

/-- The text of a program with all lines at the first column. -/
def flattened (program : List Stmt) : Text := unlines ((leveledBody 0 program).map (·.2))

/-- A line with four spaces for each level. -/
def indented (line : Nat × Text) : Text := List.replicate (4 * line.1) ' ' ++ line.2

/-- The text of a program with four spaces for each level of nesting. -/
def printed (program : List Stmt) : Text := unlines ((leveledBody 0 program).map indented)

def Stmt.isExit : Stmt → Bool
  | .exit _ => true
  | _ => false

def Stmt.isCompound : Stmt → Bool
  | .compound _ => true
  | _ => false

mutual

/-- Whether the blocks of a statement can be told from its lines, when some line follows it or none
does: where a line follows, the last body of a compound statement ends in an exit. -/
def Stmt.Told (followed : Prop) : Stmt → Prop
  | .simple line => SimpleLine line
  | .exit line => ExitLine line
  | .compound clauses => ToldClauses followed false clauses

/-- The same of the clauses of a compound statement, the first of which is a later one or not. A body
with a clause behind it does not end in a compound statement. -/
def ToldClauses (followed : Prop) (later : Bool) : List (Text × List Stmt) → Prop
  | [] => False
  | [(header, body)] =>
    HeaderLine later header ∧ body ≠ [] ∧ ToldBody followed body ∧
      (followed → body.getLast?.any Stmt.isExit = true)
  | (header, body) :: next :: rest =>
    HeaderLine later header ∧ body ≠ [] ∧ ToldBody True body ∧
      body.getLast?.any Stmt.isCompound = false ∧ ToldClauses followed true (next :: rest)

/-- The same of statements one below the other. Only the last one is an exit. -/
def ToldBody (followed : Prop) : List Stmt → Prop
  | [] => True
  | [s] => s.Told followed
  | s :: next :: rest => s.Told True ∧ s.isExit = false ∧ ToldBody followed (next :: rest)

end

/-! ## Lines in their places -/

lemma WholeLine.step {line : Text} (h : WholeLine line) :
    LayoutState.start.step line = (.start, ⟨.statement, true⟩) := by
  have hinfo : (LayoutState.start.step line).2 = ⟨.statement, true⟩ := (List.cons.inj h.whole).1
  refine Prod.ext (LayoutState.step_of_ends ?_) hinfo
  rw [hinfo]

lemma WholeLine.trimStart {line : Text} (h : WholeLine line) : trimStart line = line := by
  conv_rhs => rw [trimStart_append line, h.flush, List.nil_append]

/-- The level of a statement that starts with a line at the first column. -/
def Level.entered (l : Level) (line : Text) : Nat :=
  if startsWithOneOf clauseWords line && !l.exited then l.level - 1 else l.level

/-- Where the rebuilding stands after a line that is a whole statement. -/
def Level.past (l : Level) (line : Text) : Level := l.after ⟨.statement, true⟩ line

lemma WholeLine.startStatement {line : Text} (h : WholeLine line) (l : Level) :
    l.startStatement line = (⟨l.entered line, 4 * l.entered line, startsWithOneOf exitWords line,
      l.exited⟩, indented (l.entered line, line)) := by
  simp [Level.startStatement, h.trimStart, h.flush, levelWidth, Level.entered, indented]

lemma WholeLine.endsWith_colon {line : Text} (h : WholeLine line) (n : Nat) :
    (codeOfLine (indented (n, line))).endsWith ":" = (codeOfLine line).endsWith ":" := by
  have htrim : Text.trimStart (codeOfLine (indented (n, line))) = codeOfLine line := by
    rw [trimStart_codeOfLine, indented, trimStart_blanks (isAllBlank_spaces _), h.trimStart]
  rw [trimStart_append (codeOfLine (indented (n, line))), htrim]
  exact endsWith_blanks ':' (by decide) (isAllBlank_indentation _) _

/-- Lines one below the other, each a whole statement, go to their levels. -/
inductive Places : Level → List (Nat × Text) → Level → Prop where
  | nil (l : Level) : Places l [] l
  | cons {l l' : Level} {line : Text} {rest : List (Nat × Text)} (whole : WholeLine line)
      (more : Places (l.past line) rest l') : Places l ((l.entered line, line) :: rest) l'

lemma Places.append {l l' l'' : Level} {lines more : List (Nat × Text)} (h : Places l lines l')
    (hmore : Places l' more l'') : Places l (lines ++ more) l'' := by
  induction h with
  | nil l => exact hmore
  | cons whole _ ih => exact .cons whole (ih hmore)

lemma Places.wholeLine {l l' : Level} {lines : List (Nat × Text)} (h : Places l lines l') :
    ∀ line ∈ lines.map (·.2), WholeLine line := by
  induction h with
  | nil l => exact fun _ hmem => absurd hmem List.not_mem_nil
  | cons whole _ ih => exact List.forall_mem_cons.mpr ⟨whole, ih⟩

lemma Places.rebuilt_eq {l l' : Level} {lines : List (Nat × Text)} (h : Places l lines l') :
    rebuilt .start l (lines.map (·.2)) = lines.map indented := by
  induction h with
  | nil l => rfl
  | @cons l l' line rest whole _ ih =>
    rw [List.map_cons, List.map_cons, rebuilt, whole.step, ← ih, Level.lineOf,
      whole.startStatement]
    rfl

/-! ### One line -/

lemma WholeLine.past {line : Text} (h : WholeLine line) (l : Level) :
    l.past line = (⟨l.entered line, 4 * l.entered line, startsWithOneOf exitWords line,
      l.exited⟩ : Level).endStatement (indented (l.entered line, line)) := by
  simp only [Level.past, Level.after, Level.lineOf, if_true, h.startStatement]

lemma WholeLine.places {line : Text} (h : WholeLine line) {l : Level} {n : Nat}
    (hlevel : l.entered line = n) : Places l [(n, line)] (l.past line) := by
  rw [← hlevel]
  exact .cons h (.nil _)

lemma Level.entered_of_noClause (l : Level) {line : Text}
    (h : startsWithOneOf clauseWords line = false) : l.entered line = l.level := by
  simp [Level.entered, h]

lemma SimpleLine.places {line : Text} (h : SimpleLine line) (l : Level) :
    ∃ l', Places l [(l.level, line)] l' ∧ l'.level = l.level ∧ l'.exited = false := by
  have hlevel := l.entered_of_noClause h.noClause
  refine ⟨_, h.toWholeLine.places hlevel, ?_⟩
  rw [h.past, Level.endStatement, h.endsWith_colon, h.noHeader, h.noExit, hlevel]
  exact ⟨rfl, rfl⟩

lemma ExitLine.noClause {line : Text} (h : ExitLine line) :
    startsWithOneOf clauseWords line = false := by
  have hwords : ∀ word ∈ exitWords, clauseWords.contains word = false := by decide
  exact hwords _ (List.contains_iff_mem.mp h.exits)

lemma ExitLine.places {line : Text} (h : ExitLine line) (l : Level) :
    ∃ l', Places l [(l.level, line)] l' ∧ l'.level = l.level - 1 ∧ l'.exited = true := by
  have hlevel := l.entered_of_noClause h.noClause
  refine ⟨_, h.toWholeLine.places hlevel, ?_⟩
  rw [h.past, Level.endStatement, h.endsWith_colon, h.noHeader, h.exits, hlevel]
  exact ⟨rfl, rfl⟩

/-- Whether a clause on a level may start: at once if it is the first one of its statement, and else
where the clause before it left its block or did not. -/
def Level.Admits (l : Level) (later : Bool) (n : Nat) : Prop :=
  if later then l.level = n ∧ l.exited = true ∨ l.level = n + 1 ∧ l.exited = false else l.level = n

lemma HeaderLine.places {line : Text} {later : Bool} (h : HeaderLine later line) {l : Level}
    {n : Nat} (hl : l.Admits later n) :
    ∃ l', Places l [(n, line)] l' ∧ l'.level = n + 1 := by
  have hlevel : l.entered line = n := by
    rw [Level.entered, h.clause]
    cases later with
    | false => exact hl
    | true =>
      obtain ⟨hlevel, hexited⟩ | ⟨hlevel, hexited⟩ := hl
      · rw [hexited, hlevel]
        rfl
      · rw [hexited, hlevel]
        rfl
  have hcolon : (codeOfLine line).endsWith ":" = true := (Bool.and_eq_true_iff.mp h.opens).1
  refine ⟨_, h.toWholeLine.places hlevel, ?_⟩
  rw [h.past, Level.endStatement, h.endsWith_colon, hcolon, hlevel]
  rfl

/-! ### Statements -/

/-- Where the rebuilding stands after a statement on a level, when some line follows it or none
does. -/
def Stmt.Leaves (followed : Prop) (n : Nat) (l : Level) : Stmt → Prop
  | .simple _ => l.level = n ∧ l.exited = false
  | .exit _ => l.level = n - 1 ∧ l.exited = true
  | .compound _ => followed → l.level = n

lemma Stmt.Leaves.level {s : Stmt} {n : Nat} {l : Level} (h : s.Leaves True n l)
    (hs : s.isExit = false) : l.level = n := by
  cases s with
  | simple line => exact h.1
  | exit line => cases hs
  | compound clauses => exact h trivial

lemma Stmt.Leaves.of_exit {s : Stmt} {followed : Prop} {n : Nat} {l : Level}
    (h : s.Leaves followed n l) (hs : s.isExit = true) : l.level = n - 1 ∧ l.exited = true := by
  cases s with
  | simple line => cases hs
  | exit line => exact h
  | compound clauses => cases hs

/-- Below a body that ends in a line of its own level a further clause may start. -/
lemma Stmt.Leaves.admits {s : Stmt} {n : Nat} {l : Level} (h : s.Leaves True (n + 1) l)
    (hs : s.isCompound = false) : l.Admits true n := by
  cases s with
  | simple line => exact .inr h
  | exit line => exact .inl h
  | compound clauses => cases hs

mutual

/-- The lines of a statement go to their levels, and the lines below find the level they are on. -/
theorem Stmt.places {followed : Prop} {l : Level} : (s : Stmt) → s.Told followed →
    ∃ l', Places l (s.leveled l.level) l' ∧ s.Leaves followed l.level l'
  | .simple line, h => by
    simp only [Stmt.Told] at h
    exact h.places l
  | .exit line, h => by
    simp only [Stmt.Told] at h
    exact h.places l
  | .compound clauses, h => by
    simp only [Stmt.Told] at h
    exact places_clauses clauses h rfl

theorem places_clauses {followed : Prop} {later : Bool} {l : Level} {n : Nat} :
    (clauses : List (Text × List Stmt)) → ToldClauses followed later clauses →
    l.Admits later n → ∃ l', Places l (leveledClauses n clauses) l' ∧ (followed → l'.level = n)
  | [], h, _ => absurd h (by simp [ToldClauses])
  | [(header, body)], h, hl => by
    simp only [ToldClauses] at h
    obtain ⟨hheader, hne, hbody, hends⟩ := h
    obtain ⟨l₁, hfirst, hlevel⟩ := hheader.places hl
    obtain ⟨l', hplaces, hlast⟩ := places_body (l := l₁) body hbody
    rw [hlevel] at hplaces hlast
    refine ⟨l', by simpa [leveledClauses] using hfirst.append hplaces, fun hfollowed => ?_⟩
    -- A line below finds its level because the body was left by an exit.
    have hs := List.getLast?_eq_some_getLast hne
    have hexit : (body.getLast hne).isExit = true := by simpa [hs] using hends hfollowed
    exact ((hlast _ hs).of_exit hexit).1
  | (header, body) :: next :: rest, h, hl => by
    simp only [ToldClauses] at h
    obtain ⟨hheader, hne, hbody, hends, hrest⟩ := h
    obtain ⟨l₁, hfirst, hlevel⟩ := hheader.places hl
    obtain ⟨l₂, hplaces, hlast⟩ := places_body (l := l₁) body hbody
    rw [hlevel] at hplaces hlast
    have hs := List.getLast?_eq_some_getLast hne
    have hcompound : (body.getLast hne).isCompound = false := by simpa [hs] using hends
    obtain ⟨l', hmore, hlevel'⟩ := places_clauses (l := l₂) (next :: rest) hrest
      ((hlast _ hs).admits hcompound)
    refine ⟨l', ?_, hlevel'⟩
    rw [leveledClauses]
    exact hfirst.append (hplaces.append hmore)

theorem places_body {followed : Prop} {l : Level} : (body : List Stmt) → ToldBody followed body →
    ∃ l', Places l (leveledBody l.level body) l' ∧
      ∀ s ∈ body.getLast?, s.Leaves followed l.level l'
  | [], _ => ⟨l, .nil l, by simp⟩
  | [s], h => by
    simp only [ToldBody] at h
    obtain ⟨l', hplaces, hleaves⟩ := s.places (l := l) h
    refine ⟨l', by simpa [leveledBody] using hplaces, by simpa using hleaves⟩
  | s :: next :: rest, h => by
    simp only [ToldBody] at h
    obtain ⟨hs, hexit, hrest⟩ := h
    obtain ⟨l', hplaces, hleaves⟩ := s.places (l := l) hs
    obtain ⟨l'', hmore, hlast⟩ := places_body (l := l') (next :: rest) hrest
    rw [hleaves.level hexit] at hmore hlast
    exact ⟨l'', hplaces.append hmore, by simpa using hlast⟩

end

/-! ## What shows that the indentation is lost -/

lemma columns_flush {line : Text} (h : line.indentation = []) : columns line = 0 := by
  rw [columns, h]
  rfl

/-- At the first column a statement stands in the outermost block, or in none at all. -/
lemma Nesting.enter?_zero {n : Nesting} (h : n.open_ = [] ∨ n.open_ = [0]) :
    n.enter? 0 = if n.open_ = [0] ∧ n.expected = true then none else some [0] := by
  obtain ⟨blocks, expected⟩ := n
  obtain rfl | rfl := h <;> cases expected <;> rfl

lemma Nesting.isBroken_cons {n : Nesting} (hn : n.open_ = [] ∨ n.open_ = [0]) {line : Text}
    (hline : WholeLine line) (rest : List Text) :
    n.isBroken ((layout (line :: rest)).zip (line :: rest)) =
      if n.open_ = [0] ∧ n.expected = true then true
      else isBroken ⟨[0], opensBlock line⟩ ((layout rest).zip rest) := by
  rw [layout, LayoutState.layout, hline.step, List.zip_cons_cons, isBroken, step?,
    columns_flush hline.flush, enter?_zero hn]
  by_cases hexpected : n.open_ = [0] ∧ n.expected = true
  · rw [if_pos hexpected, if_pos hexpected]
    rfl
  · rw [if_neg hexpected, if_neg hexpected, Option.map_some, Bool.true_and]
    rfl

lemma Nesting.isBroken_of_header {n : Nesting} (hn : n.open_ = [] ∨ n.open_ = [0])
    {above : List Text} {header next : Text} {below : List Text}
    (h : ∀ line ∈ above ++ header :: next :: below, WholeLine line)
    (hopens : opensBlock header = true) :
    n.isBroken ((layout (above ++ header :: next :: below)).zip
      (above ++ header :: next :: below)) = true := by
  induction above generalizing n with
  | nil =>
    obtain ⟨hheader, hmore⟩ := List.forall_mem_cons.mp h
    obtain ⟨hnext, -⟩ := List.forall_mem_cons.mp hmore
    rw [List.nil_append, isBroken_cons hn hheader, hopens, isBroken_cons (.inr rfl) hnext,
      if_pos (And.intro rfl rfl), ite_self]
  | cons line rest ih =>
    obtain ⟨hline, hrest⟩ := List.forall_mem_cons.mp h
    rw [List.cons_append, isBroken_cons hn hline, ih (.inr rfl) hrest, ite_self]

/-! ## Programs -/

lemma ToldBody.of_cons {followed : Prop} {s : Stmt} {rest : List Stmt}
    (h : ToldBody followed (s :: rest)) :
    (∃ followed, s.Told followed) ∧ ToldBody followed rest := by
  cases rest with
  | nil => exact ⟨⟨_, by simpa only [ToldBody] using h⟩, by simp only [ToldBody]⟩
  | cons next rest =>
    rw [ToldBody] at h
    exact ⟨⟨_, h.1⟩, h.2.2⟩

lemma Stmt.Told.leveled_ne_nil {followed : Prop} {s : Stmt} (h : s.Told followed) (n : Nat) :
    s.leveled n ≠ [] := by
  cases s with
  | simple line => simp [Stmt.leveled]
  | exit line => simp [Stmt.leveled]
  | compound clauses =>
    cases clauses with
    | nil => exact absurd h (by simp [Stmt.Told, ToldClauses])
    | cons clause rest => simp [Stmt.leveled, leveledClauses]

lemma ToldBody.leveled_ne_nil {followed : Prop} {body : List Stmt} (h : ToldBody followed body)
    (hne : body ≠ []) (n : Nat) : leveledBody n body ≠ [] := by
  obtain ⟨s, rest, rfl⟩ := List.exists_cons_of_ne_nil hne
  obtain ⟨⟨_, hs⟩, -⟩ := h.of_cons
  simp [leveledBody, hs.leveled_ne_nil n]

/-- A compound statement starts with a header and the first line of its body. -/
lemma ToldClauses.first_lines {followed : Prop} {later : Bool} {clauses : List (Text × List Stmt)}
    (h : ToldClauses followed later clauses) (n : Nat) :
    ∃ header next below, leveledClauses n clauses = (n, header) :: next :: below ∧
      opensBlock header = true := by
  cases clauses with
  | nil => exact absurd h (by simp [ToldClauses])
  | cons clause rest =>
    obtain ⟨header, body⟩ := clause
    obtain ⟨hheader, hne, _, hbody⟩ :
        HeaderLine later header ∧ body ≠ [] ∧ ∃ followed, ToldBody followed body := by
      cases rest with
      | nil =>
        simp only [ToldClauses] at h
        exact ⟨h.1, h.2.1, _, h.2.2.1⟩
      | cons next rest =>
        simp only [ToldClauses] at h
        exact ⟨h.1, h.2.1, _, h.2.2.1⟩
    obtain ⟨next, below, hlines⟩ :=
      List.exists_cons_of_ne_nil (hbody.leveled_ne_nil hne (n + 1))
    exact ⟨header, next, below ++ leveledClauses n rest, by rw [leveledClauses, hlines]; rfl,
      hheader.opens⟩

/-- A program has a header with a line below it, or no line of it is indented. -/
lemma header_or_flat {followed : Prop} {program : List Stmt} (h : ToldBody followed program) :
    (∃ above header next below, (leveledBody 0 program).map (·.2) = above ++ header :: next :: below ∧
      opensBlock header = true) ∨
    (leveledBody 0 program).map indented = (leveledBody 0 program).map (·.2) := by
  induction program with
  | nil => exact .inr rfl
  | cons s rest ih =>
    obtain ⟨⟨_, hs⟩, hrest⟩ := h.of_cons
    have hline : ∀ line, (leveledBody 0 (s :: rest)) = (0, line) :: leveledBody 0 rest →
        (∃ above header next below, (leveledBody 0 (s :: rest)).map (·.2) =
          above ++ header :: next :: below ∧ opensBlock header = true) ∨
        (leveledBody 0 (s :: rest)).map indented = (leveledBody 0 (s :: rest)).map (·.2) := by
      intro line hlines
      rw [hlines, List.map_cons, List.map_cons]
      obtain ⟨above, header, next, below, heq, hopens⟩ | hflat := ih hrest
      · exact .inl ⟨line :: above, header, next, below, by rw [heq]; rfl, hopens⟩
      · exact .inr (by rw [hflat]; rfl)
    cases s with
    | simple line => exact hline line (by simp [leveledBody, Stmt.leveled])
    | exit line => exact hline line (by simp [leveledBody, Stmt.leveled])
    | compound clauses =>
      simp only [Stmt.Told] at hs
      obtain ⟨header, next, below, hlines, hopens⟩ := hs.first_lines 0
      refine .inl ⟨[], header, next.2, (below ++ leveledBody 0 rest).map (·.2), ?_, hopens⟩
      rw [leveledBody, Stmt.leveled, hlines]
      rfl

/-- Rebuilding indentation gives a program back that was written with all lines at the first column,
if its blocks can be told. -/
theorem reindent_flattened {program : List Stmt} (h : ToldBody False program) :
    (reindent (flattened program)).text = printed program := by
  by_cases hne : program = []
  · rw [hne]
    decide
  obtain ⟨l', hplaces, -⟩ : ∃ l', Places .start (leveledBody 0 program) l' ∧ _ :=
    places_body program h
  have hlines : (flattened program).lines = (leveledBody 0 program).map (·.2) :=
    lines_unlines_of_oneLine (fun hnil => h.leveled_ne_nil hne 0 (List.map_eq_nil_iff.mp hnil))
      fun line hline => (hplaces.wholeLine line hline).oneLine
  rw [reindent_text, hlines, hplaces.rebuilt_eq]
  -- Without blocks both texts are the same, be the indentation rebuilt or not.
  obtain ⟨above, header, next, below, heq, hopens⟩ | hflat := header_or_flat h
  · have hbroken : indentationBroken ((leveledBody 0 program).map (·.2)) = true := by
      have hwhole := hplaces.wholeLine
      rw [heq] at hwhole
      rw [heq]
      exact Nesting.isBroken_of_header (.inl rfl) hwhole hopens
    rw [if_pos hbroken]
    rfl
  · rw [hflat, flattened, printed, hflat, ite_self]

theorem reindent_flattened_of_definition :
    (reindent ("def f(x):\nif x:\ny = 1\nelse:\nreturn 2\nreturn y\nprint(f(1))" : Text)).text =
      ("def f(x):\n    if x:\n        y = 1\n    else:\n        return 2\n    return y\nprint(f(1))" :
        Text) := by
  have hwhole : ∀ line ∈ (["def f(x):", "if x:", "y = 1", "else:", "return 2", "return y",
      "print(f(1))"] : List Text), WholeLine line := by
    have hline : ∀ line : Text, OneLine line ∧ line.indentation = [] ∧
        layout [line] = [⟨.statement, true⟩] → WholeLine line := fun _ h => ⟨h.1, h.2.1, h.2.2⟩
    exact fun line hmem => hline line (by revert line; decide)
  have hsimple : ∀ line ∈ (["y = 1", "print(f(1))"] : List Text), SimpleLine line := fun line hmem =>
    ⟨hwhole line (by revert line; decide), by revert line; decide, by revert line; decide,
      by revert line; decide⟩
  have hexit : ∀ line ∈ (["return 2", "return y"] : List Text), ExitLine line := fun line hmem =>
    ⟨hwhole line (by revert line; decide), by revert line; decide, by revert line; decide⟩
  have hheader : ∀ line ∈ (["def f(x):", "if x:"] : List Text), HeaderLine false line :=
    fun line hmem => ⟨hwhole line (by revert line; decide), by revert line; decide,
      by revert line; decide⟩
  have helse : HeaderLine true "else:" := ⟨hwhole _ (by decide), by decide, by decide⟩
  have htold : ToldBody False
      [.compound [("def f(x):",
        [.compound [("if x:", [.simple "y = 1"]), ("else:", [.exit "return 2"])],
          .exit "return y"])],
        .simple "print(f(1))"] := by
    simp only [ToldBody, Stmt.Told, ToldClauses]
    exact ⟨⟨hheader _ (by simp), by simp, ⟨⟨hheader _ (by simp), by simp, hsimple _ (by simp), rfl,
      helse, by simp, hexit _ (by simp), fun _ => rfl⟩, rfl, hexit _ (by simp)⟩, fun _ => rfl⟩, rfl,
      hsimple _ (by simp)⟩
  refine (congrArg (fun t => (reindent t).text) ?_).trans ((reindent_flattened htold).trans ?_)
  · decide
  · decide

end Marginalia.Repair
