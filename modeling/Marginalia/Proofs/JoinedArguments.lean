import Marginalia.Proofs.NestedCalls

/-!
# Joined arguments

Arguments that are joined are split into the same arguments again. Each of them is one piece: well
nested, with no comma outside its brackets and no blank margins. Calls inside it count for nothing,
since all their commas stand inside their parentheses.
-/

namespace Marginalia

namespace Text

lemma dropEnd_eq_self {p : Char → Bool} {t : Text} (h : ∀ c, t.getLast? = some c → p c = false) :
    dropEnd p t = t := by
  obtain ⟨margin, ht, hmargin⟩ := dropEnd_append p t
  cases hlast : margin.getLast? with
  | none =>
    rw [List.getLast?_eq_none_iff.mp hlast, List.append_nil] at ht
    exact ht.symm
  | some c =>
    have hblank := List.all_eq_true.mp hmargin c (List.mem_of_getLast? hlast)
    rw [h c (by rw [ht, List.getLast?_append, hlast]; rfl)] at hblank
    exact Bool.noConfusion hblank

lemma getLast?_dropEnd {p : Char → Bool} {t : Text} {c : Char}
    (h : (dropEnd p t).getLast? = some c) : p c = false := by
  induction t with
  | nil => cases h
  | cons d rest ih =>
    cases hd : dropEnd p rest with
    | nil =>
      by_cases hp : p d = true
      · simp [dropEnd, hd, hp] at h
      · obtain rfl : d = c := by simpa [dropEnd, hd, hp] using h
        exact (Bool.not_eq_true _).mp hp
    | cons e kept =>
      have hstep : dropEnd p (d :: rest) = d :: e :: kept := by simp [dropEnd, hd]
      rw [hstep, List.getLast?_cons_cons, ← hd] at h
      exact ih h

section

variable {sep : Char} {s : CodeState} {t t' : Text}

/-- A text without separators, and what goes on behind it, are split together. -/
lemma piecesFrom_append (h : (piecesFrom sep s t).2 = []) (t' : Text) :
    piecesFrom sep s (t ++ t') =
      (t ++ (piecesFrom sep (s.run t) t').1, (piecesFrom sep (s.run t) t').2) := by
  induction t generalizing s with
  | nil => rfl
  | cons c rest ih =>
    cases hc : (s.step c).2 == some 0 && c == sep with
    | true =>
      rw [piecesFrom_separator hc] at h
      cases h
    | false =>
      rw [piecesFrom_inside hc] at h
      rw [List.cons_append, piecesFrom_inside hc, ih h]
      rfl

lemma piecesFrom_append_eq_nil_iff : (piecesFrom sep s (t ++ t')).2 = [] ↔
    (piecesFrom sep s t).2 = [] ∧ (piecesFrom sep (s.run t) t').2 = [] := by
  induction t generalizing s with
  | nil => simp [piecesFrom]
  | cons c rest ih =>
    cases hc : (s.step c).2 == some 0 && c == sep with
    | true =>
      rw [List.cons_append, piecesFrom_separator hc, piecesFrom_separator hc]
      simp
    | false =>
      rw [List.cons_append, piecesFrom_inside hc, piecesFrom_inside hc]
      exact ih

lemma piecesFrom_of_not_mem (h : sep ∉ t) : (piecesFrom sep s t).2 = [] := by
  induction t generalizing s with
  | nil => rfl
  | cons c rest ih =>
    rw [List.mem_cons, not_or] at h
    have hinside : ((s.step c).2 == some 0 && c == sep) = false := by simp [Ne.symm h.1]
    rw [piecesFrom_inside hinside]
    exact ih h.2

lemma piecesFrom_fst (h : (piecesFrom sep s t).2 = []) : (piecesFrom sep s t).1 = t := by
  have hjoin := join_piecesFrom sep s t
  rwa [h] at hjoin

lemma piecesFrom_isPrefix (sep : Char) (s : CodeState) (t : Text) : (piecesFrom sep s t).1 <+: t := by
  have hjoin := join_piecesFrom sep s t
  cases hlater : (piecesFrom sep s t).2 with
  | nil =>
    rw [hlater] at hjoin
    exact ⟨[], by rw [List.append_nil]; exact hjoin⟩
  | cons next later =>
    rw [hlater, join_cons_cons, List.append_assoc] at hjoin
    exact ⟨_, hjoin⟩

lemma piecesFrom_piecesFrom (hsep : isPlain sep = true) (hs : s.Sound) (t : Text) :
    (piecesFrom sep s (piecesFrom sep s t).1).2 = [] ∧
      ∀ piece ∈ (piecesFrom sep s t).2, (piecesFrom sep .start piece).2 = [] := by
  refine piecesFrom_induction hsep (motive := fun s _ piece pieces =>
      (piecesFrom sep s piece).2 = [] ∧ ∀ later ∈ pieces, (piecesFrom sep .start later).2 = [])
    (fun s => ⟨rfl, nofun⟩) (fun rest piece pieces ih => ⟨rfl, List.forall_mem_cons.mpr ih⟩)
    (fun s c rest piece pieces _ hc ih => ?_) hs t
  rw [piecesFrom_inside hc]
  exact ih

/-- Where brackets are open below, nothing is separated. -/
lemma piecesFrom_below (hsep : isPlain sep = true) {due due' : List Char} (base : List Char)
    (hbase : base ≠ []) (hs : s.Sound) (hdepth : s.depth = (due ++ base).length)
    (hdue : dueAfter? s due t = some due') : (piecesFrom sep s t).2 = [] := by
  induction t generalizing s due with
  | nil => rfl
  | cons c rest ih =>
    have hinside : ((s.step c).2 == some 0 && c == sep) = false := by
      by_contra hsome
      rw [Bool.not_eq_false, Bool.and_eq_true, beq_iff_eq, beq_iff_eq] at hsome
      obtain ⟨htop, rfl⟩ := hsome
      have hq : s.quote = none := CodeState.quote_of_isSome_step (by rw [htop]; rfl)
      rw [CodeState.step_plain_code hq hsep] at htop
      have hzero : (due ++ base).length = 0 := by
        rw [← hdepth]
        exact Option.some.inj htop
      exact hbase (List.append_eq_nil_iff.mp (List.length_eq_zero_iff.mp hzero)).2
    rw [piecesFrom_inside hinside]
    rw [dueAfter?] at hdue
    split at hdue
    · next hd =>
      obtain ⟨next, hstep, hrest⟩ := Option.bind_eq_some_iff.mp hdue
      exact ih (hs.step c) (depth_step_of_due (CodeState.quote_of_isSome_step hd) hd hdepth
        (dueStep?_append hstep base)) hrest
    · next hd => exact ih (hs.step c) ((depth_step_literal hd).trans hdepth) hdue

end

end Text

namespace Repair

open Text

section

variable {name inside : Text} {s : CodeState}

lemma callText_append (name inside after more : Text) :
    callText name inside (after ++ more) = callText name inside after ++ more := by
  simp [callText]

/-- The commas of a call stand inside its parentheses. -/
lemma IsName.piecesFrom_callText (h : IsName name) (hinside : WellNested inside) (hs : s.Sound)
    (hq : s.quote = none) (after : Text) :
    (piecesFrom ',' s (callText name inside after)).2 = (piecesFrom ',' s after).2 := by
  have hname : ∀ {s : CodeState}, (piecesFrom ',' s name).2 = [] := by
    obtain ⟨c, w, rfl, hc, hw⟩ := h
    exact piecesFrom_of_not_mem ((isBare_of_word (t := c :: w)
      (by rw [List.all_cons, isWordChar_of_isNameStart hc, hw]; rfl)).not_mem (by decide) (by decide))
  have hopen : (s.step '(').1 = { s with depth := s.depth + 1 } := by
    simp [CodeState.step, hq, isQuote, isOpener]
  have hbelow : (piecesFrom ',' (s.step '(').1 inside).2 = [] := by
    have hdue := hinside.dueAfter? (hs.step '(') (by rw [hopen]; exact hq) []
    refine piecesFrom_below (by decide) (List.replicate (s.depth + 1) ')') (by simp) (hs.step '(') ?_
      hdue
    rw [hopen]
    simp
  have hrun : (s.run name).run ['('] = (s.step '(').1 := by
    rw [(WellNested.of_plain h.isPlain).run_eq hs hq]
    rfl
  have hcall : (piecesFrom ',' s (callText name inside [])).2 = [] := by
    rw [callText, piecesFrom_append_eq_nil_iff, ← List.singleton_append,
      piecesFrom_append_eq_nil_iff, piecesFrom_append_eq_nil_iff, hrun]
    exact ⟨hname, piecesFrom_of_not_mem (by decide), hbelow, piecesFrom_of_not_mem (by decide)⟩
  rw [← List.nil_append after, callText_append, piecesFrom_append hcall,
    h.run_callText hinside hs hq]
  rfl

end

/-! ## Arguments -/

/-- The text of an argument. -/
structure IsArgument (t : Text) : Prop where
  nested : WellNested t
  nonempty : t ≠ []
  starts : ∀ c, t.head? = some c → isBlank c = false
  ends : ∀ c, t.getLast? = some c → isBlank c = false
  single : (piecesFrom ',' .start t).2 = []

lemma IsArgument.trim {t : Text} (h : IsArgument t) : Text.trim t = t := by
  have hstart : trimStart t = t := by
    cases t with
    | nil => rfl
    | cons c rest =>
      exact List.dropWhile_cons_of_neg ((Bool.not_eq_true _).mpr (h.starts c rfl))
  rw [Text.trim, hstart, trimEnd, dropEnd_eq_self h.ends]

lemma isArgument_none : IsArgument ("None" : Text) where
  nested := by decide
  nonempty := by decide
  starts := by
    intro c hc
    obtain rfl : 'N' = c := Option.some.inj hc
    decide
  ends := by
    intro c hc
    obtain rfl : 'e' = c := Option.some.inj hc
    decide
  single := by decide

lemma isArgument_of_mem {inside argument : Text} (h : WellNested inside)
    (hmem : argument ∈ argumentsOf inside) : IsArgument argument := by
  have hnested := wellNested_argumentsOf h argument hmem
  rw [argumentsOf_eq] at hmem
  obtain ⟨hmap, hnonempty⟩ := List.mem_filter.mp hmem
  obtain ⟨piece, hpiece, rfl⟩ := List.mem_map.mp hmap
  have hpieces : ∀ piece ∈ rawPieces ',' inside, (piecesFrom ',' .start piece).2 = [] :=
    List.forall_mem_cons.mpr (piecesFrom_piecesFrom (by decide) CodeState.sound_start inside)
  have hsingle := hpieces piece hpiece
  obtain ⟨front, back, hmargins, hfront, -⟩ := trim_append piece
  rw [hmargins, List.append_assoc, piecesFrom_append_eq_nil_iff, piecesFrom_append_eq_nil_iff,
    CodeState.run_blanks rfl hfront] at hsingle
  exact {
    nested := hnested
    nonempty := by simpa using hnonempty
    starts := fun c hc => head?_trim hc
    ends := fun c hc => getLast?_dropEnd hc
    single := hsingle.2.1 }

/-- Behind an argument and a comma the next one is read from the start. -/
lemma IsArgument.rawPieces_append {t : Text} (h : IsArgument t) (more : Text) :
    rawPieces ',' (t ++ ([',', ' '] ++ more)) =
      t :: (' ' :: (piecesFrom ',' .start more).1) :: (piecesFrom ',' .start more).2 := by
  rw [rawPieces, piecesFrom_append h.single, h.nested.run]
  have hcomma : piecesFrom ',' .start ([',', ' '] ++ more) =
      ([], (' ' :: (piecesFrom ',' .start more).1) :: (piecesFrom ',' .start more).2) := rfl
  rw [hcomma, List.append_nil]

lemma trim_rawPieces_join (argument : Text) (arguments : List Text)
    (h : ∀ a ∈ argument :: arguments, IsArgument a) :
    (rawPieces ',' (join ", " (argument :: arguments))).map trim = argument :: arguments := by
  induction arguments generalizing argument with
  | nil =>
    have hargument := h argument List.mem_cons_self
    have hpieces : rawPieces ',' argument = [argument] :=
      congrArg₂ _ (piecesFrom_fst hargument.single) hargument.single
    rw [join, hpieces, List.map_singleton, hargument.trim]
  | cons next rest ih =>
    rw [List.forall_mem_cons] at h
    have hrest := ih next h.2
    rw [rawPieces, List.map_cons] at hrest
    have hjoin : join ", " (argument :: next :: rest) =
        argument ++ ([',', ' '] ++ join ", " (next :: rest)) := by
      rw [join_cons_cons, List.append_assoc]
      rfl
    rw [hjoin, h.1.rawPieces_append, List.map_cons, List.map_cons, h.1.trim]
    exact congrArg _ hrest

/-- Arguments that are joined are split into the same arguments again. -/
lemma argumentsOf_join {arguments : List Text} (h : ∀ a ∈ arguments, IsArgument a) :
    argumentsOf (join ", " arguments) = arguments := by
  cases arguments with
  | nil => rfl
  | cons argument rest =>
    rw [argumentsOf_eq, trim_rawPieces_join argument rest h, List.filter_eq_self]
    exact fun a ha => by simpa using (h a ha).nonempty

end Repair

end Marginalia
