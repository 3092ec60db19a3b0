import Marginalia.Proofs.SameLayout

/-!
# Pieces that are exchanged

Code is cut into its comparisons with `None`, which are exchanged, and the characters that are kept.
What is put for a comparison leaves the reader where he was and ends with the same letter. So
whatever stands between two pieces before stands there behind, and in the same order.
-/

namespace Marginalia.Repair

open Text

/-- A comparison with `None` at the start of a text, perhaps behind blanks. -/
def ComparesNone (sign t : Text) : Prop :=
  ∃ rest rest', afterBlanksAnd? sign t = some rest ∧ afterBlanksAnd? "None" rest = some rest' ∧
    continuesWord rest' = false

lemma noneRule_eq_none_iff {sign new t : Text} {b : Before} :
    noneRule sign new b t = none ↔ (b.quoted = false → ¬ComparesNone sign t) := by
  constructor
  · rintro h hquoted ⟨rest, rest', hsign, hnone, hends⟩
    rw [noneRule, hquoted] at h
    simp only [hsign, hnone, hends, Option.bind_eq_bind, Option.bind_some, Bool.not_false, guard,
      if_true, pure] at h
    cases h
  · intro h
    cases hr : noneRule sign new b t with
    | none => rfl
    | some pair =>
      simp only [noneRule, Option.bind_eq_bind, Option.bind_eq_some_iff,
        Option.guard_eq_some', Bool.not_eq_true'] at hr
      obtain ⟨-, hquoted, rest, hsign, rest', hnone, -, hends, -⟩ := hr
      exact absurd ⟨rest, rest', hsign, hnone, hends⟩ (h hquoted)

/-! ## Pieces -/

/-- A comparison with `None`, and what is put in its place. -/
inductive NoneTest : Text → Text → Prop
  | equal : NoneTest "==" " is None"
  | unequal : NoneTest "!=" " is not None"

/-- The text that some pieces were. -/
def olds (pieces : List (Text × Text)) : Text := pieces.flatMap Prod.fst

/-- The text that some pieces become. -/
def news (pieces : List (Text × Text)) : Text := pieces.flatMap Prod.snd

/-- Pieces of code, read from a state: comparisons with `None` outside literals, with what is put
in their place, and all other characters. -/
inductive Exchanged (sign new : Text) : CodeState → List (Text × Text) → Prop
  | nil (s : CodeState) : Exchanged sign new s []
  | keep {s : CodeState} {c : Char} {pieces : List (Text × Text)}
    (hnone : s.quote = none → ¬ComparesNone sign (c :: olds pieces))
    (hrest : Exchanged sign new (s.step c).1 pieces) : Exchanged sign new s (([c], [c]) :: pieces)
  | test {s : CodeState} {gap gap' : Text} {pieces : List (Text × Text)} (hquote : s.quote = none)
    (hgap : gap.isAllBlank = true) (hgap' : gap'.isAllBlank = true)
    (hends : continuesWord (olds pieces) = false) (hrest : Exchanged sign new s pieces) :
    Exchanged sign new s ((gap ++ (sign ++ (gap' ++ "None")), new) :: pieces)

section

variable {sign new : Text} {s : CodeState} {pieces before behind : List (Text × Text)}

@[simp] lemma olds_cons (piece : Text × Text) (pieces : List (Text × Text)) :
    olds (piece :: pieces) = piece.1 ++ olds pieces := List.flatMap_cons

@[simp] lemma news_cons (piece : Text × Text) (pieces : List (Text × Text)) :
    news (piece :: pieces) = piece.2 ++ news pieces := List.flatMap_cons

@[simp] lemma olds_append (before behind : List (Text × Text)) :
    olds (before ++ behind) = olds before ++ olds behind := List.flatMap_append

@[simp] lemma news_append (before behind : List (Text × Text)) :
    news (before ++ behind) = news before ++ news behind := List.flatMap_append

/-- What stands in a comparison with `None`. -/
lemma NoneTest.piece (h : NoneTest sign new) {gap gap' : Text} (hgap : gap.isAllBlank = true)
    (hgap' : gap'.isAllBlank = true) : IsMute (gap ++ (sign ++ (gap' ++ "None"))) ∧
      bracketsOf (gap ++ (sign ++ (gap' ++ "None"))) = [] ∧ IsMute new ∧ bracketsOf new = [] := by
  have hsign : IsMute sign ∧ bracketsOf sign = [] ∧ IsMute new ∧ bracketsOf new = [] := by
    cases h <;> decide
  refine ⟨?_, ?_, hsign.2.2⟩
  · exact isMute_append.mpr ⟨isMute_blanks hgap, isMute_append.mpr
      ⟨hsign.1, isMute_append.mpr ⟨isMute_blanks hgap', by decide⟩⟩⟩
  · simp only [bracketsOf_append, bracketsOf_blanks hgap, bracketsOf_blanks hgap', hsign.2.1]
    rfl

lemma comparesNone_iff (h : NoneTest sign new) {t : Text} : ComparesNone sign t ↔
    ∃ gap gap' rest : Text, gap.isAllBlank = true ∧ gap'.isAllBlank = true ∧
      continuesWord rest = false ∧ t = gap ++ (sign ++ (gap' ++ "None")) ++ rest := by
  obtain ⟨c, sign, rfl, hc⟩ : ∃ c more, sign = c :: more ∧ isBlank c = false := by
    cases h
    · exact ⟨'=', ['='], rfl, by decide⟩
    · exact ⟨'!', ['='], rfl, by decide⟩
  have hnone (rest behind : Text) : afterBlanksAnd? "None" rest = some behind ↔
      ∃ gap : Text, gap.isAllBlank = true ∧ rest = gap ++ ("None" ++ behind) :=
    afterBlanksAnd?_cons_iff (c := 'N') (by decide) "one"
  constructor
  · rintro ⟨behind, rest, hsign, hbehind, hends⟩
    obtain ⟨gap, hgap, rfl⟩ := (afterBlanksAnd?_cons_iff hc sign).mp hsign
    obtain ⟨gap', hgap', rfl⟩ := (hnone behind rest).mp hbehind
    exact ⟨gap, gap', rest, hgap, hgap', hends, by simp⟩
  · rintro ⟨gap, gap', rest, hgap, hgap', hends, rfl⟩
    exact ⟨gap' ++ ("None" ++ rest), rest,
      (afterBlanksAnd?_cons_iff hc sign).mpr ⟨gap, hgap, by simp⟩,
      (hnone _ rest).mpr ⟨gap', hgap', rfl⟩, hends⟩

lemma comparesNone_test (h : NoneTest sign new) {gap gap' rest : Text}
    (hgap : gap.isAllBlank = true) (hgap' : gap'.isAllBlank = true)
    (hends : continuesWord rest = false) :
    ComparesNone sign (gap ++ (sign ++ (gap' ++ "None")) ++ rest) :=
  (comparesNone_iff h).mpr ⟨gap, gap', rest, hgap, hgap', hends, rfl⟩

lemma exists_pieces (h : NoneTest sign new) {b : Before} {t out : Text}
    (hsub : Substituted (noneRule sign new) b t out) :
    ∃ pieces, Exchanged sign new b.code pieces ∧ t = olds pieces ∧ out = news pieces := by
  induction hsub with
  | nil b => exact ⟨[], .nil b.code, rfl, rfl⟩
  | @keep b c t out hnone _ ih =>
    obtain ⟨pieces, hpieces, rfl, rfl⟩ := ih
    refine ⟨([c], [c]) :: pieces, .keep (fun hquote => ?_) hpieces, rfl, rfl⟩
    refine noneRule_eq_none_iff.mp hnone ?_
    rw [Before.quoted, hquote]
    rfl
  | @swap b old put t out _ hr _ ih =>
    obtain ⟨pieces, hpieces, rfl, rfl⟩ := ih
    obtain ⟨hquoted, rfl, gap, gap', rest', hgap, hgap', hends, ht, hn⟩ := eq_of_noneRule hr
    obtain ⟨rfl, rfl⟩ := List.append_inj ht hn
    have hquote : b.code.quote = none :=
      Option.isNone_iff_eq_none.mp (Option.isSome_eq_false_iff.mp hquoted)
    rw [Before.code_foldl, run_of_no_brackets hquote (h.piece hgap hgap').1
      (h.piece hgap hgap').2.1] at hpieces
    exact ⟨_, .test hquote hgap hgap' hends hpieces, rfl, rfl⟩

/-- Code and what the exchange of its comparisons makes of it, in pieces. -/
lemma exists_exchanged (h : NoneTest sign new) (code : Text) : ∃ pieces,
    Exchanged sign new .start pieces ∧ code = olds pieces ∧
      substitute (noneRule sign new) code = news pieces := by
  have hgains : (noneRule sign new).Gains := by
    cases h <;> exact gains_noneRule (by decide) (by decide)
  exact exists_pieces h (substituted_substitute hgains.takes code)

/-- Between two pieces the text before them and the one they become are read alike. -/
lemma Exchanged.split (h : NoneTest sign new) (hpieces : Exchanged sign new s (before ++ behind)) :
    Exchanged sign new (s.run (olds before)) behind ∧ s.run (news before) = s.run (olds before) ∧
      ∀ prev, lastOf prev (news before) = lastOf prev (olds before) := by
  induction before generalizing s with
  | nil => exact ⟨hpieces, rfl, fun _ => rfl⟩
  | cons piece before ih =>
    cases hpieces with
    | @keep _ c _ hnone hrest =>
      obtain ⟨hbehind, hrun, hlast⟩ := ih hrest
      refine ⟨hbehind, hrun, fun prev => ?_⟩
      rw [olds_cons, news_cons, lastOf_append, lastOf_append, hlast]
    | @test _ gap gap' _ hquote hgap hgap' hends hrest =>
      obtain ⟨hbehind, hrun, hlast⟩ := ih hrest
      obtain ⟨hold, hempty, hnew, hempty'⟩ := h.piece hgap hgap'
      have hend : ∀ prev, lastOf prev new = lastOf prev (gap ++ (sign ++ (gap' ++ "None"))) := by
        have hlast : new.getLast? = some 'e' := by cases h <;> rfl
        intro prev
        simp [lastOf, hlast, List.getLast?_append]
      refine ⟨?_, ?_, fun prev => ?_⟩
      · rwa [olds_cons, CodeState.run_append, run_of_no_brackets hquote hold hempty]
      · rw [olds_cons, news_cons, CodeState.run_append, CodeState.run_append,
          run_of_no_brackets hquote hold hempty, run_of_no_brackets hquote hnew hempty', hrun]
      · rw [olds_cons, news_cons, lastOf_append, lastOf_append, hlast, hend]

/-- A character that is not put anywhere was kept. -/
lemma Exchanged.exists_of_news (hpieces : Exchanged sign new s pieces) {d : Char} (hd : d ∉ new)
    {head rest : Text} (hsplit : news pieces = head ++ d :: rest) :
    ∃ before behind, pieces = before ++ ([d], [d]) :: behind ∧ head = news before ∧
      rest = news behind := by
  induction hpieces generalizing head with
  | nil =>
    cases head <;> cases hsplit
  | @keep s c pieces _ _ ih =>
    cases head with
    | nil =>
      obtain ⟨rfl, rfl⟩ := List.cons.inj hsplit
      exact ⟨[], pieces, rfl, rfl, rfl⟩
    | cons e head =>
      obtain ⟨rfl, hmore⟩ := List.cons.inj hsplit
      obtain ⟨before, behind, rfl, rfl, rfl⟩ := ih hmore
      exact ⟨([c], [c]) :: before, behind, rfl, rfl, rfl⟩
  | @test s gap gap' pieces _ _ _ _ _ ih =>
    rw [news_cons] at hsplit
    obtain ⟨more, rfl, hmore⟩ | ⟨more, (hnew : new = head ++ more), hmore⟩ :=
      List.append_eq_append_iff.mp hsplit
    · obtain ⟨before, behind, rfl, rfl, rfl⟩ := ih hmore
      exact ⟨_ :: before, behind, rfl, rfl, rfl⟩
    · cases more with
      | nil =>
        have hstart : news pieces = [] ++ d :: rest := hmore.symm
        obtain ⟨before, behind, rfl, hbefore, rfl⟩ := ih hstart
        refine ⟨_ :: before, behind, rfl, ?_, rfl⟩
        rw [news_cons, ← hbefore, List.append_nil, hnew, List.append_nil]
      | cons e more =>
        obtain ⟨rfl, -⟩ := List.cons.inj hmore
        exact absurd (by rw [hnew]; simp) hd

/-- A character that belongs to no comparison is kept. -/
lemma Exchanged.exists_of_olds (hpieces : Exchanged sign new s pieces) {d : Char}
    {head rest : Text} (hsplit : olds pieces = head ++ d :: rest)
    (hout : ∀ gap gap' front back : Text, gap.isAllBlank = true → gap'.isAllBlank = true →
      gap ++ (sign ++ (gap' ++ "None")) = front ++ d :: back → front <:+ head → ¬back <+: rest) :
    ∃ before behind, pieces = before ++ ([d], [d]) :: behind ∧ head = olds before ∧
      rest = olds behind := by
  induction hpieces generalizing head with
  | nil =>
    cases head <;> cases hsplit
  | @keep s c pieces _ _ ih =>
    cases head with
    | nil =>
      obtain ⟨rfl, rfl⟩ := List.cons.inj hsplit
      exact ⟨[], pieces, rfl, rfl, rfl⟩
    | cons e head =>
      obtain ⟨rfl, hmore⟩ := List.cons.inj hsplit
      obtain ⟨before, behind, rfl, rfl, rfl⟩ := ih hmore fun gap gap' front back hgap hgap' hold
        hfront => hout gap gap' front back hgap hgap' hold (hfront.trans (List.suffix_cons c head))
      exact ⟨([c], [c]) :: before, behind, rfl, rfl, rfl⟩
  | @test s gap gap' pieces _ hgap hgap' _ _ ih =>
    rw [olds_cons] at hsplit
    have hrest : ∀ head' : Text, head' <:+ head → olds pieces = head' ++ d :: rest →
        ∃ before behind, pieces = before ++ ([d], [d]) :: behind ∧ head' = olds before ∧
          rest = olds behind := fun head' hhead' hsplit' =>
      ih hsplit' fun gap gap' front back hgap hgap' hold hfront =>
        hout gap gap' front back hgap hgap' hold (hfront.trans hhead')
    obtain ⟨more, rfl, hmore⟩ | ⟨more, hold, hmore⟩ := List.append_eq_append_iff.mp hsplit
    · obtain ⟨before, behind, rfl, rfl, rfl⟩ := hrest more (List.suffix_append _ more) hmore
      exact ⟨_ :: before, behind, rfl, rfl, rfl⟩
    · cases more with
      | nil =>
        obtain ⟨before, behind, rfl, hbefore, rfl⟩ := hrest [] (List.nil_suffix) hmore.symm
        refine ⟨_ :: before, behind, rfl, ?_, rfl⟩
        rw [olds_cons, ← hbefore, List.append_nil, hold, List.append_nil]
      | cons e more =>
        obtain ⟨rfl, rfl⟩ := List.cons.inj hmore
        exact absurd (List.prefix_append more _) (hout gap gap' head more hgap hgap' hold
          (List.suffix_refl head))

lemma Exchanged.ne_nil (h : NoneTest sign new) (hpieces : Exchanged sign new s pieces) :
    ∀ piece ∈ pieces, piece.1 ≠ [] ∧ piece.2 ≠ [] := by
  induction hpieces with
  | nil => exact nofun
  | keep _ _ ih => exact List.forall_mem_cons.mpr ⟨⟨by simp, by simp⟩, ih⟩
  | test _ _ _ _ _ ih =>
    have hnew : new ≠ [] := by cases h <;> decide
    exact List.forall_mem_cons.mpr ⟨⟨by simp, hnew⟩, ih⟩

/-- Pieces keep their order. -/
lemma Exchanged.length_lt_iff (h : NoneTest sign new) (hpieces : Exchanged sign new s pieces)
    {before' behind' : List (Text × Text)} (hsplit : pieces = before ++ behind)
    (hsplit' : pieces = before' ++ behind') :
    (news before).length < (news before').length ↔
      (olds before).length < (olds before').length := by
  have hpos : ∀ more : List (Text × Text), more ⊆ pieces →
      (0 < (news more).length ↔ 0 < (olds more).length) := by
    intro more hmore
    cases more with
    | nil => exact Iff.rfl
    | cons piece more =>
      obtain ⟨hold, hnew⟩ := hpieces.ne_nil h piece (hmore List.mem_cons_self)
      have hnew' := List.length_pos_of_ne_nil hnew
      have hold' := List.length_pos_of_ne_nil hold
      rw [news_cons, olds_cons, List.length_append, List.length_append]
      exact iff_of_true (by omega) (by omega)
  rcases List.append_eq_append_iff.mp (hsplit.symm.trans hsplit') with
    ⟨more, rfl, rfl⟩ | ⟨more, rfl, rfl⟩
  · have hmore := hpos more (by rw [hsplit]; simp)
    simpa using hmore
  · rw [news_append, olds_append, List.length_append, List.length_append]
    exact iff_of_false (by omega) (by omega)

/-! ## What follows a piece -/

/-- An equality sign stands behind an exchange where one did before that no comparison starts
with. -/
lemma Exchanged.head_iff (h : NoneTest sign new) (hpieces : Exchanged sign new s pieces)
    (hquote : s.quote = none) : (news pieces).head? = some '=' ↔
      (olds pieces).head? = some '=' ∧ ¬ComparesNone sign (olds pieces) := by
  cases hpieces with
  | nil => exact ⟨nofun, fun heq => nomatch heq.1⟩
  | keep hnone hrest => exact (and_iff_left (hnone hquote)).symm
  | @test _ gap gap' pieces _ hgap hgap' hends hrest =>
    refine iff_of_false ?_ fun hboth => hboth.2 ?_
    · cases h <;> exact nofun
    · rw [olds_cons]
      exact comparesNone_test h hgap hgap' hends

/-- A blank stands behind an exchange where one did before, or where a comparison starts. -/
lemma Exchanged.blank_iff (h : NoneTest sign new) (hpieces : Exchanged sign new s pieces)
    (hquote : s.quote = none) : (news pieces).head?.any isBlank = true ↔
      (olds pieces).head?.any isBlank = true ∨ ComparesNone sign (olds pieces) := by
  cases hpieces with
  | nil =>
    refine ⟨nofun, ?_⟩
    rintro (hblank | ⟨rest, -, hsign, -⟩)
    · cases hblank
    · cases h <;> cases hsign
  | keep hnone hrest => exact (or_iff_left (hnone hquote)).symm
  | @test _ gap gap' pieces _ hgap hgap' hends hrest =>
    refine iff_of_true ?_ (.inr ?_)
    · cases h <;> rfl
    · rw [olds_cons]
      exact comparesNone_test h hgap hgap' hends

/-- Exchanges start and end words where they were. -/
lemma Exchanged.continuesWord_eq (h : NoneTest sign new) (hpieces : Exchanged sign new s pieces) :
    continuesWord (news pieces) = continuesWord (olds pieces) := by
  cases hpieces with
  | nil => rfl
  | keep => rfl
  | @test _ gap _ pieces _ hgap =>
    have hnew : continuesWord (new ++ news pieces) = false := by cases h <;> rfl
    rw [news_cons, olds_cons, hnew, List.append_assoc]
    cases h
    · exact (continuesWord_blanks_cons hgap (c := '=') (by decide) _).symm
    · exact (continuesWord_blanks_cons hgap (c := '!') (by decide) _).symm

/-- Behind a character that is kept the pieces are read on. -/
lemma Exchanged.of_kept (h : NoneTest sign new) {c : Char}
    (hpieces : Exchanged sign new s (([c], [c]) :: pieces)) :
    Exchanged sign new (s.step c).1 pieces := by
  generalize hp : (([c], [c]) : Text × Text) :: pieces = all at hpieces
  cases hpieces with
  | nil => cases hp
  | keep _ hrest =>
    obtain ⟨⟨⟨⟩⟩, rfl⟩ := List.cons.inj hp
    exact hrest
  | test =>
    obtain rfl : [c] = new := congrArg Prod.snd (List.cons.inj hp).1
    cases h

/-! ## Front parts -/

/-- Whether no comparison starts in a front part of a text. -/
def Clear (sign rest : Text) : Text → Prop
  | [] => True
  | c :: front => afterBlanksAnd? sign (c :: (front ++ rest)) = none ∧ Clear sign rest front

lemma Clear.append {sign rest front back : Text} (hfront : Clear sign (back ++ rest) front)
    (hback : Clear sign rest back) : Clear sign rest (front ++ back) := by
  induction front with
  | nil => exact hback
  | cons c front ih =>
    have hassoc : front ++ back ++ rest = front ++ (back ++ rest) := List.append_assoc ..
    refine ⟨?_, ih hfront.2⟩
    show afterBlanksAnd? sign (c :: (front ++ back ++ rest)) = none
    rw [hassoc]
    exact hfront.1

/-- Blanks are clear where no sign follows them. -/
lemma clear_blanks {sign rest gap : Text} (hgap : gap.isAllBlank = true)
    (hrest : afterBlanksAnd? sign rest = none) : Clear sign rest gap := by
  induction gap with
  | nil => trivial
  | cons c gap ih =>
    rw [isAllBlank, List.all_cons, Bool.and_eq_true] at hgap
    refine ⟨?_, ih hgap.2⟩
    rw [afterBlanksAnd?] at hrest ⊢
    rw [trimStart, List.dropWhile_cons_of_pos hgap.1]
    exact (congrArg _ (trimStart_blanks hgap.2 rest)).trans hrest

lemma clear_word (h : NoneTest sign new) {word : Text} (hword : word.all isWordChar = true)
    (rest : Text) : Clear sign rest word := by
  induction word with
  | nil => trivial
  | cons c word ih =>
    rw [List.all_cons, Bool.and_eq_true] at hword
    refine ⟨Option.eq_none_iff_forall_ne_some.mpr fun behind hbehind => ?_, ih hword.2⟩
    have hstart : trimStart (c :: (word ++ rest)) = c :: (word ++ rest) :=
      List.dropWhile_cons_of_neg (by simp [isBlank_of_isWordChar hword.1])
    rw [afterBlanksAnd?, hstart, after?_eq_some_iff] at hbehind
    cases h
    · obtain ⟨rfl, -⟩ := List.cons.inj hbehind
      exact absurd hword.1 (by decide)
    · obtain ⟨rfl, -⟩ := List.cons.inj hbehind
      exact absurd hword.1 (by decide)

/-- A front part in which no comparison starts is kept. -/
lemma Exchanged.exists_of_clear (h : NoneTest sign new) (hpieces : Exchanged sign new s pieces)
    {front rest : Text} (hclear : Clear sign rest front) (hsplit : olds pieces = front ++ rest) :
    ∃ before behind, pieces = before ++ behind ∧ olds before = front ∧ news before = front ∧
      rest = olds behind := by
  induction front generalizing s pieces with
  | nil => exact ⟨[], pieces, rfl, rfl, rfl, hsplit.symm⟩
  | cons c front ih =>
    cases hpieces with
    | nil => cases hsplit
    | keep _ hrest =>
      obtain ⟨rfl, hmore⟩ := List.cons.inj hsplit
      obtain ⟨before, behind, rfl, holds, hnews, rfl⟩ := ih hrest hclear.2 hmore
      exact ⟨_ :: before, behind, rfl, by simp [holds], by simp [hnews], rfl⟩
    | @test _ gap gap' pieces _ hgap hgap' hends _ =>
      obtain ⟨behind, -, hsign, -⟩ := comparesNone_test h hgap hgap' hends
      have hsame : gap ++ (sign ++ (gap' ++ "None")) ++ olds pieces = c :: (front ++ rest) := hsplit
      rw [hsame, hclear.1] at hsign
      cases hsign

/-- Whether nothing in a front part of a text looks like what is put for a comparison. -/
def Unput (rest : Text) : Text → Prop
  | [] => True
  | c :: front => ¬(c = ' ' ∧ ['i', 's'] <+: front ++ rest) ∧ Unput rest front

lemma Unput.append {rest front back : Text} (hfront : Unput (back ++ rest) front)
    (hback : Unput rest back) : Unput rest (front ++ back) := by
  induction front with
  | nil => exact hback
  | cons c front ih =>
    have hassoc : front ++ back ++ rest = front ++ (back ++ rest) := List.append_assoc ..
    refine ⟨?_, ih hfront.2⟩
    show ¬(c = ' ' ∧ ['i', 's'] <+: front ++ back ++ rest)
    rw [hassoc]
    exact hfront.1

lemma unput_blanks {rest gap : Text} (hgap : gap.isAllBlank = true)
    (hrest : ¬['i', 's'] <+: rest) : Unput rest gap := by
  induction gap with
  | nil => trivial
  | cons c gap ih =>
    rw [isAllBlank, List.all_cons, Bool.and_eq_true] at hgap
    refine ⟨fun hput => ?_, ih hgap.2⟩
    cases gap with
    | nil => exact hrest hput.2
    | cons d gap =>
      obtain ⟨more, hmore⟩ := hput.2
      obtain ⟨rfl, -⟩ := List.cons.inj hmore
      exact absurd hgap.2 (by simp [isBlank])

lemma unput_of_not_mem {rest piece : Text} (h : ' ' ∉ piece) : Unput rest piece := by
  induction piece with
  | nil => trivial
  | cons c piece ih =>
    obtain ⟨hc, hpiece⟩ := not_or.mp (List.mem_cons.not.mp h)
    exact ⟨fun hput => hc hput.1.symm, ih hpiece⟩

/-- A front part that does not look like what is put was kept. -/
lemma Exchanged.exists_of_unput (h : NoneTest sign new) (hpieces : Exchanged sign new s pieces)
    {front rest : Text} (hunput : Unput rest front) (hsplit : news pieces = front ++ rest) :
    ∃ before behind, pieces = before ++ behind ∧ olds before = front ∧ news before = front ∧
      rest = news behind := by
  induction front generalizing s pieces with
  | nil => exact ⟨[], pieces, rfl, rfl, rfl, hsplit.symm⟩
  | cons c front ih =>
    cases hpieces with
    | nil => cases hsplit
    | keep _ hrest =>
      obtain ⟨rfl, hmore⟩ := List.cons.inj hsplit
      obtain ⟨before, behind, rfl, holds, hnews, rfl⟩ := ih hrest hunput.2 hmore
      exact ⟨_ :: before, behind, rfl, by simp [holds], by simp [hnews], rfl⟩
    | @test _ _ _ pieces =>
      refine absurd ?_ hunput.1
      cases h
      · obtain ⟨rfl, hmore⟩ := List.cons.inj hsplit
        exact ⟨rfl, " None" ++ news pieces, hmore⟩
      · obtain ⟨rfl, hmore⟩ := List.cons.inj hsplit
        exact ⟨rfl, " not None" ++ news pieces, hmore⟩

/-- An exchange completes no comparison. -/
lemma Exchanged.comparesNone_of_news {sign' new' : Text} (h : NoneTest sign new)
    (h' : NoneTest sign' new') (hpieces : Exchanged sign new s pieces)
    (hout : ComparesNone sign' (news pieces)) : ComparesNone sign' (olds pieces) := by
  obtain ⟨gap, gap', rest, hgap, hgap', hends, hsplit⟩ := (comparesNone_iff h').mp hout
  have hunput : Unput rest (gap ++ (sign' ++ (gap' ++ "None"))) := by
    have hsign : ' ' ∉ sign' := by cases h' <;> decide
    refine (unput_blanks hgap ?_).append ((unput_of_not_mem hsign).append
      ((unput_blanks hgap' ?_).append (unput_of_not_mem (by decide))))
    · rintro ⟨more, hmore⟩
      cases h' <;> cases hmore
    · rintro ⟨more, hmore⟩
      cases hmore
  obtain ⟨before, behind, rfl, holds, -, rfl⟩ := hpieces.exists_of_unput h hunput hsplit
  refine (comparesNone_iff h').mpr ⟨gap, gap', olds behind, hgap, hgap', ?_, ?_⟩
  · rw [← (hpieces.split h).1.continuesWord_eq h, hends]
  · rw [olds_append, holds]

/-- A test for inequality is not touched by the exchange of one for equality. -/
lemma Exchanged.unequal_iff (hpieces : Exchanged "==" " is None" s pieces) :
    ComparesNone "!=" (news pieces) ↔ ComparesNone "!=" (olds pieces) := by
  refine ⟨hpieces.comparesNone_of_news .equal .unequal, fun hout => ?_⟩
  obtain ⟨gap, gap', rest, hgap, hgap', hends, hsplit⟩ := (comparesNone_iff .unequal).mp hout
  have hclear : Clear "==" rest (gap ++ ("!=" ++ (gap' ++ "None"))) := by
    have hsign : Clear "==" (gap' ++ "None" ++ rest) "!=" := by
      refine ⟨rfl, ?_, trivial⟩
      cases gap' with
      | nil => rfl
      | cons c gap' =>
        rw [isAllBlank, List.all_cons, Bool.and_eq_true] at hgap'
        refine Option.eq_none_iff_forall_ne_some.mpr fun behind hbehind => ?_
        have hsame := (after?_eq_some_iff _ _ _).mp hbehind
        obtain ⟨rfl, -⟩ := List.cons.inj (List.cons.inj hsame).2
        exact absurd hgap'.1 (by decide)
    exact (clear_blanks hgap rfl).append (hsign.append
      ((clear_blanks hgap' rfl).append (clear_word .equal (by decide) rest)))
  obtain ⟨before, behind, rfl, -, hnews, rfl⟩ := hpieces.exists_of_clear .equal hclear hsplit
  refine (comparesNone_iff .unequal).mpr ⟨gap, gap', news behind, hgap, hgap', ?_, ?_⟩
  · rw [(hpieces.split .equal).1.continuesWord_eq .equal, hends]
  · rw [news_append, hnews]

end

end Marginalia.Repair
