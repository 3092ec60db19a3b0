import Marginalia.Proofs.Partners

/-!
# Partners and depths

The partner of a bracket is looked for by counting brackets of its kind from there on. A reader of
the whole text counts all brackets, and tells of each the depth at which it stands. In code whose
closing brackets all close the bracket opened last, the partner is the first closing bracket at the
depth of the opening one.
-/

namespace Marginalia.Text

/-- Code in which every closing bracket outside literals closes the bracket that was opened last.
Brackets may be left open at its end, and so may a literal. -/
def NestedSoFar (t : Text) : Prop := (dueAfter? .start [] t).isSome = true

instance (t : Text) : Decidable (NestedSoFar t) := inferInstanceAs (Decidable (_ = true))

/-- The first closing bracket of any kind that stands behind a character of code, at its depth. -/
def closerBehind? (t : Text) (o : CodeChar) : Option CodeChar :=
  (codeChars t).find? fun k => decide (o.index < k.index) && isCloser k.char && k.depth == o.depth

/-- All characters of code in a text that is read from a state stand deeper than `d`. -/
def DeeperThan (d : Nat) (s : CodeState) (t : Text) : Prop :=
  ∀ head c rest e, t = head ++ c :: rest → ((s.run head).step c).2 = some e → d < e

/-- What a search for the bracket that closes one at depth `d` comes to: the bracket stands at that
depth behind a deeper text, or all of the text is deeper. -/
inductive PartnerAt (d : Nat) (closer : Char) (s : CodeState) : Text → Option (Text × Text) → Prop
  | found {mid : Text} (tail : Text) (hmid : DeeperThan d s mid)
    (hdepth : ((s.run mid).step closer).2 = some d) :
    PartnerAt d closer s (mid ++ closer :: tail) (some (mid, closer :: tail))
  | missing {t : Text} (ht : DeeperThan d s t) : PartnerAt d closer s t none

section

variable {d : Nat} {closer c : Char} {s s' : CodeState} {t rest : Text}

lemma deeperThan_nil (d : Nat) (s : CodeState) : DeeperThan d s [] := by
  intro head c rest e heq
  cases head <;> cases heq

lemma DeeperThan.cons (h : DeeperThan d (s.step c).1 rest) (hc : ∀ e, (s.step c).2 = some e → d < e) :
    DeeperThan d s (c :: rest) := by
  intro head k tail e heq hk
  cases head with
  | nil =>
    obtain ⟨rfl, rfl⟩ := List.cons.inj heq
    exact hc e hk
  | cons a head =>
    obtain ⟨rfl, hrest⟩ := List.cons.inj heq
    exact h head k tail e hrest hk

lemma PartnerAt.cons {r : Option (Text × Text)} (h : PartnerAt d closer (s.step c).1 rest r)
    (hc : ∀ e, (s.step c).2 = some e → d < e) :
    PartnerAt d closer s (c :: rest) (r.map fun p => (c :: p.1, p.2)) := by
  cases h with
  | found tail hmid hdepth => exact .found tail (hmid.cons hc) hdepth
  | missing ht => exact .missing (ht.cons hc)

/-- Opening brackets of different kinds are closed by different ones. -/
lemma closerOf?_inj {c c' : Char} (h : closerOf? c = some closer) (h' : closerOf? c' = some closer) :
    c = c' := by
  unfold closerOf? at h h'
  grind

lemma isCloser_of_closerOf? (h : closerOf? c = some closer) : isCloser closer = true := by
  unfold closerOf? at h
  grind [isCloser]

lemma ne_of_isOpener_isCloser {c c' : Char} (h : isOpener c = true) (h' : isCloser c' = true) :
    c ≠ c' := by
  rintro rfl
  simp only [isOpener, Bool.or_eq_true, beq_iff_eq] at h
  obtain (rfl | rfl) | rfl := h
  · exact absurd h' (by decide)
  · exact absurd h' (by decide)
  · exact absurd h' (by decide)

lemma not_isCloser_of_isOpener (h : isOpener c = true) : ¬isCloser c = true :=
  fun hc => ne_of_isOpener_isCloser h hc rfl

/-- At which depth a character of code stands. -/
lemma depth_code (hs : (s.step c).2.isSome = true) :
    (s.step c).2 = some (if isCloser c = true then s.depth - 1 else s.depth) := by
  have hq : s.quote = none := CodeState.quote_of_isSome_step hs
  simp only [CodeState.step, hq] at hs ⊢
  split at hs
  · cases hs
  · next hquote =>
    simp only [hquote, Bool.false_eq_true, if_false]
    by_cases ho : isOpener c = true
    · simp [ho, not_isCloser_of_isOpener ho]
    · by_cases hc : isCloser c = true <;> simp [ho, hc]

end

section

variable {d : Nat} {opener closer c : Char} {s s' : CodeState} {t : Text} {base stack due : List Char}

/-- Brackets of one kind are counted as they come on top of those that are due. -/
lemma countAfter_opener (hopener : closerOf? opener = some closer) {closer' : Char}
    (hc : closerOf? c = some closer') (stack : List Char) :
    countAfter opener closer (stack.count closer + 1) c = (closer' :: stack).count closer + 1 := by
  have ho : isOpener c = true := by rw [← isSome_closerOf?, hc]; rfl
  have hne : c ≠ closer := ne_of_isOpener_isCloser ho (isCloser_of_closerOf? hopener)
  by_cases hco : c = opener
  · subst hco
    obtain rfl : closer' = closer := Option.some.inj (hc.symm.trans hopener)
    rw [countAfter, if_pos rfl, List.count_cons_self]
  · have hother : closer' ≠ closer := by
      rintro rfl
      exact hco (closerOf?_inj hc hopener)
    rw [countAfter, if_neg hco, if_neg hne, List.count_cons_of_ne hother]

lemma countAfter_closer (hopener : closerOf? opener = some closer) (hc : isCloser c = true)
    (stack : List Char) :
    countAfter opener closer ((c :: stack).count closer + 1) c = stack.count closer + 1 := by
  have ho : isOpener opener = true := by rw [← isSome_closerOf?, hopener]; rfl
  rw [countAfter, if_neg (ne_of_isOpener_isCloser ho hc).symm]
  by_cases hne : c = closer
  · subst hne
    rw [if_pos rfl, List.count_cons_self, Nat.add_sub_cancel]
  · rw [if_neg hne, List.count_cons_of_ne hne]

lemma countAfter_other (hopener : closerOf? opener = some closer) (ho : isOpener c = false)
    (hc : isCloser c = false) (count : Nat) : countAfter opener closer count c = count := by
  have hopen : c ≠ opener := by
    rintro rfl
    rw [← isSome_closerOf?, hopener] at ho
    cases ho
  have hclose : c ≠ closer := by
    rintro rfl
    rw [isCloser_of_closerOf? hopener] at hc
    cases hc
  rw [countAfter, if_neg hopen, if_neg hclose]

/-- Behind an opening bracket, the search for its partner follows the brackets that are due: those
of its own kind are counted, and the others have no part in it. `stack` are the closing brackets of
those opened since. -/
lemma partnerAt_splitAtClose? (stack : List Char) (hopener : closerOf? opener = some closer)
    (hs : s.Sound) (hagree : s.Agree s') (hdepth : s.depth = (stack ++ closer :: base).length)
    (h : dueAfter? s (stack ++ closer :: base) t = some due) :
    PartnerAt base.length closer s t
      (splitAtClose? opener closer s' (stack.count closer + 1) t) := by
  have hopen : isOpener opener = true := by rw [← isSome_closerOf?, hopener]; rfl
  induction t generalizing s s' stack with
  | nil => exact .missing (deeperThan_nil _ s)
  | cons c rest ih =>
    have hcode : (s.step c).2.isSome = (s'.step c).2.isSome :=
      (CodeState.step_congr hagree.quote hagree.escaped c).2.2
    rw [dueAfter?] at h
    cases hc : (s.step c).2.isSome with
    | false =>
      rw [hc, if_neg Bool.false_ne_true] at h
      rw [splitAtClose?_skip opener (hcode.symm.trans hc)]
      refine (ih stack (hs.step c) (hagree.step c) ?_ h).cons ?_
      · rw [depth_step_literal (by simp [hc]), hdepth]
      · intro e he
        rw [he] at hc
        cases hc
    | true =>
      rw [hc, if_pos rfl] at h
      obtain ⟨next, hstep, hrest⟩ := Option.bind_eq_some_iff.mp h
      have hnext := depth_step_of_due (CodeState.quote_of_isSome_step hc) hc hdepth hstep
      rw [splitAtClose?_code opener (hcode.symm.trans hc)]
      rw [List.length_append, List.length_cons] at hdepth
      obtain ⟨ho, closer', hc', rfl⟩ | ⟨ho, hcl, hdue⟩ | ⟨ho, hcl, rfl⟩ := dueStep?_cases hstep
      · -- An opening bracket: its closing one comes on top of the stack.
        have hne : c ≠ closer := ne_of_isOpener_isCloser ho (isCloser_of_closerOf? hopener)
        rw [if_neg fun h => hne h.1, countAfter_opener hopener hc']
        refine (ih (closer' :: stack) (hs.step c) (hagree.step c) hnext hrest).cons ?_
        intro e he
        rw [depth_code hc, if_neg (not_isCloser_of_isOpener ho), Option.some.injEq] at he
        omega
      · have hco : c ≠ opener := (ne_of_isOpener_isCloser hopen hcl).symm
        cases stack with
        | nil =>
          -- Nothing was opened since, so this is the partner.
          obtain ⟨rfl, rfl⟩ := List.cons.inj hdue
          rw [if_pos ⟨rfl, hco, Nat.le_refl 1⟩]
          have hmid : DeeperThan base.length s [] := deeperThan_nil _ s
          refine .found rest hmid ?_
          rw [CodeState.run_nil, depth_code hc, if_pos hcl, hdepth, List.length_nil, Nat.zero_add,
            Nat.add_sub_cancel]
        | cons top stack =>
          obtain ⟨rfl, rfl⟩ := List.cons.inj hdue
          have hlater : ¬(top = closer ∧ top ≠ opener ∧ (top :: stack).count closer + 1 ≤ 1) := by
            rintro ⟨rfl, -, hle⟩
            rw [List.count_cons_self] at hle
            omega
          rw [if_neg hlater, countAfter_closer hopener hcl]
          refine (ih stack (hs.step top) (hagree.step top) hnext hrest).cons ?_
          intro e he
          rw [depth_code hc, if_pos hcl, Option.some.injEq] at he
          rw [List.length_cons] at hdepth
          omega
      · have hne : c ≠ closer := by
          rintro rfl
          rw [isCloser_of_closerOf? hopener] at hcl
          cases hcl
        rw [if_neg fun h => hne h.1, countAfter_other hopener ho hcl]
        refine (ih stack (hs.step c) (hagree.step c) hnext hrest).cons ?_
        intro e he
        rw [depth_code hc, if_neg (ne_true_of_eq_false hcl), Option.some.injEq] at he
        omega

/-! ## The first closing bracket at a depth -/

lemma DeeperThan.codeChars (h : DeeperThan d s t) {index : Nat} {k : CodeChar}
    (hk : k ∈ codeCharsFrom s index t) : d < k.depth := by
  obtain ⟨head, rest, ht, -, hdepth⟩ := mem_codeCharsFrom_iff.mp hk
  exact h head k.char rest k.depth ht hdepth

/-- The code of a text around one of its characters. -/
lemma codeChars_around {head rest : Text} {o : CodeChar}
    (ho : o.index = byteLength head)
    (hdepth : ((CodeState.start.run head).step o.char).2 = some o.depth) :
    codeChars (head ++ o.char :: rest) = codeChars head ++ o ::
      codeCharsFrom ((CodeState.start.run head).step o.char).1 (o.index + o.char.utf8Size) rest := by
  rw [codeChars, codeCharsFrom_append, codeCharsFrom, Nat.zero_add, hdepth, ← ho]
  rfl

lemma matchingClose?_opener (hopener : closerOf? opener = some closer) (head rest : Text) :
    matchingClose? (head ++ opener :: rest) (byteLength head) =
      some ((splitAtClose? opener closer (CodeState.start.step opener).1 1 rest).map fun p =>
        byteLength head + opener.utf8Size + byteLength p.1) := by
  rw [matchingClose?_append, splitAtPartner?_opener hopener, Option.map_map]
  refine congrArg some (congrFun (congrArg Option.map (funext fun p => ?_)) _)
  calc byteLength head + byteLength (opener :: p.1)
      = byteLength head + opener.utf8Size + byteLength p.1 := by rw [byteLength_cons, Nat.add_assoc]

/-- A bracket of well-nested code either has its partner behind deeper code, or nothing but deeper code
behind it. -/
lemma partner_cases (h : NestedSoFar t) {o : CodeChar} (ho : o ∈ codeChars t)
    (hopen : isOpener o.char = true) :
    (∃ front between k later, codeChars t = front ++ o :: (between ++ k :: later) ∧
      (∀ m ∈ between, o.depth < m.depth) ∧ closerOf? o.char = some k.char ∧ k.depth = o.depth ∧
      matchingClose? t o.index = some (some k.index)) ∨
    ∃ front later, codeChars t = front ++ o :: later ∧ (∀ m ∈ later, o.depth < m.depth) ∧
      matchingClose? t o.index = some none := by
  obtain ⟨head, rest, rfl, hindex, hat⟩ := mem_codeChars_iff.mp ho
  obtain ⟨closer, hcloser⟩ := Option.isSome_iff_exists.mp ((isSome_closerOf? o.char).trans hopen)
  have hs : (CodeState.start.run head).Sound := CodeState.sound_start.run head
  have hcode : ((CodeState.start.run head).step o.char).2.isSome = true := by rw [hat]; rfl
  have hq : (CodeState.start.run head).quote = none := CodeState.quote_of_isSome_step hcode
  -- The brackets that are due in front of the opening one make up its depth.
  obtain ⟨due, hdue⟩ := Option.isSome_iff_exists.mp h
  rw [dueAfter?_append] at hdue
  obtain ⟨base, hbase, hbehind⟩ := Option.bind_eq_some_iff.mp hdue
  rw [dueAfter?, if_pos hcode, dueStep?_opener hcloser, Option.bind_some] at hbehind
  have hdepth := depth_run_of_due CodeState.sound_start rfl hbase
  have hnext := depth_step_of_due hq hcode hdepth (dueStep?_opener hcloser base)
  have hlength : base.length = o.depth := by
    rw [depth_code hcode, if_neg (not_isCloser_of_isOpener hopen), hdepth] at hat
    exact Option.some.inj hat
  have hpartner := partnerAt_splitAtClose? [] hcloser (hs.step o.char)
    ((hs.agree_start hq).step o.char) hnext hbehind
  have hmatching := matchingClose?_opener hcloser head rest
  rw [codeChars_around hindex hat, hindex]
  rw [hlength, List.count_nil, Nat.zero_add] at hpartner
  generalize splitAtClose? o.char closer (CodeState.start.step o.char).1 1 rest = r
    at hpartner hmatching
  cases hpartner with
  | @found mid tail hmid hclose =>
    have hrest := codeCharsFrom_append ((CodeState.start.run head).step o.char).1
      (byteLength head + o.char.utf8Size) mid (closer :: tail)
    rw [codeCharsFrom, hclose] at hrest
    exact .inl ⟨codeChars head, _, _, _, congrArg (codeChars head ++ o :: ·) hrest,
      fun m hm => hmid.codeChars hm, hcloser, rfl, hmatching⟩
  | missing hrest => exact .inr ⟨codeChars head, _, rfl, fun m hm => hrest.codeChars hm, hmatching⟩

/-! Characters in the order of their offsets, around one of them. -/

section

variable {front later : List CodeChar} {o m : CodeChar}
  (hup : (front ++ o :: later).Pairwise fun k m => k.index < m.index)
  (hm : m ∈ front ++ o :: later)

include hup hm

lemma mem_behind (h : o.index < m.index) : m ∈ later := by
  obtain ⟨-, -, hfront⟩ := List.pairwise_append.mp hup
  rcases List.mem_append.mp hm with hm | hm
  · exact absurd (hfront m hm o List.mem_cons_self) (Nat.lt_asymm h)
  · rcases List.mem_cons.mp hm with rfl | hm
    · exact absurd h (Nat.lt_irrefl _)
    · exact hm

lemma mem_in_front (h : m.index < o.index) : m ∈ front := by
  obtain ⟨-, hlater, -⟩ := List.pairwise_append.mp hup
  rcases List.mem_append.mp hm with hm | hm
  · exact hm
  · rcases List.mem_cons.mp hm with rfl | hm
    · exact absurd h (Nat.lt_irrefl _)
    · exact absurd ((List.pairwise_cons.mp hlater).1 m hm) (Nat.lt_asymm h)

end

/-- In code whose closing brackets all close the bracket opened last, the partner of a bracket is the
first closing bracket behind it at its depth. That is of the same kind, and everything between the
two stands deeper. There is no partner exactly if no closing bracket behind it stands at its
depth. -/
theorem partner_at_depth (t : Text) (h : NestedSoFar t) (o : CodeChar) (ho : o ∈ codeChars t)
    (hopen : isOpener o.char = true) :
    matchingClose? t o.index = some ((closerBehind? t o).map CodeChar.index) ∧
      (∀ k, closerBehind? t o = some k → closerOf? o.char = some k.char ∧
        ∀ m ∈ codeChars t, o.index < m.index → m.index < k.index → o.depth < m.depth) ∧
      (matchingClose? t o.index = some none ↔
        ∀ k ∈ codeChars t, o.index < k.index → isCloser k.char = true → k.depth ≠ o.depth) := by
  have hup : (codeChars t).Pairwise fun k m => k.index < m.index := pairwise_codeCharsFrom _ _ t
  rcases partner_cases h ho hopen with
    ⟨front, between, k, later, ht, hbetween, hkind, hdepth, hmatching⟩ |
      ⟨front, later, ht, hlater, hmatching⟩
  · have hsplit : codeChars t = (front ++ o :: between) ++ k :: later := by
      rw [ht, List.append_assoc, List.cons_append]
    rw [hsplit] at hup
    obtain ⟨hfront, -, hbehind⟩ := List.pairwise_append.mp hup
    have hk : o.index < k.index := hbehind o (by simp) k List.mem_cons_self
    have hclose : isCloser k.char = true := isCloser_of_closerOf? hkind
    have hfirst : closerBehind? t o = some k := by
      refine List.find?_eq_some_iff_append.mpr ⟨by simp [hk, hclose, hdepth], _, later, hsplit,
        fun m hm => ?_⟩
      by_cases hindex : o.index < m.index
      · simp [Nat.ne_of_gt (hbetween m (mem_behind hfront hm hindex))]
      · simp [hindex]
    refine ⟨by rw [hmatching, hfirst]; rfl, ?_, ?_⟩
    · intro k' hk'
      obtain rfl : k = k' := Option.some.inj (hfirst.symm.trans hk')
      refine ⟨hkind, fun m hm hindex hbefore => ?_⟩
      rw [hsplit] at hm
      exact hbetween m (mem_behind hfront (mem_in_front hup hm hbefore) hindex)
    · rw [hmatching]
      exact iff_of_false (by simp) fun hnone => hnone k (by simp [ht]) hk hclose hdepth
  · have hnone : ∀ m ∈ codeChars t, o.index < m.index → m.depth ≠ o.depth := by
      intro m hm hindex
      rw [ht] at hup hm
      exact Nat.ne_of_gt (hlater m (mem_behind hup hm hindex))
    have hfirst : closerBehind? t o = none := by
      refine List.find?_eq_none.mpr fun m hm => ?_
      by_cases hindex : o.index < m.index
      · simp [hnone m hm hindex]
      · simp [hindex]
    rw [hmatching, hfirst]
    exact ⟨rfl, nofun, iff_of_true rfl fun m hm hindex _ => hnone m hm hindex⟩

/-- Brackets inside a literal are no brackets, and the parentheses that stay open do no harm. -/
theorem partner_at_depth_square :
    NestedSoFar "g([é, ')]'], (y" ∧ ⟨2, '[', 1⟩ ∈ codeChars "g([é, ')]'], (y" ∧
      isOpener '[' = true ∧ matchingClose? "g([é, ')]'], (y" 2 = some (some 11) := by
  have hpartner := partner_at_depth "g([é, ')]'], (y" (by decide) ⟨2, '[', 1⟩ (by decide) rfl
  refine ⟨by decide, by decide, rfl, ?_⟩
  rw [hpartner.1]
  decide

end

end Marginalia.Text
