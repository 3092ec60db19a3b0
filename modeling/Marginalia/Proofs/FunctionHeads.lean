import Marginalia.Proofs.Margins
import Marginalia.Repair.Headers

/-!
# Heads of functions

The head of a function is `def` and its name, with blanks around them and perhaps `async` in front.
It holds nothing but blanks and word characters, so it opens no literal and no bracket and hides no
comment, and what follows it may be exchanged.
-/

namespace Marginalia

lemma isPlain_of_isWordChar {c : Char} (h : isWordChar c = true) : isPlain c = true := by
  have hne : ∀ d, isWordChar d = false → c ≠ d := by
    rintro d hd rfl
    rw [hd] at h
    exact Bool.noConfusion h
  have hgrave : c.toNat ≠ 96 := fun heq => hne (Char.ofNat 96) (by decide)
    (by rw [← heq, Char.ofNat_toNat])
  simp [isPlain, isQuote, isOpener, isCloser, hne '"' (by decide), hne '\'' (by decide),
    hne '(' (by decide), hne '[' (by decide), hne '{' (by decide), hne ')' (by decide),
    hne ']' (by decide), hne '}' (by decide), hne '\\' (by decide), hgrave]

namespace Text

/-- What consists of blanks and word characters. -/
def IsBare (t : Text) : Prop := ∀ c ∈ t, isBlank c = true ∨ isWordChar c = true

lemma isBare_append {t t' : Text} : IsBare (t ++ t') ↔ IsBare t ∧ IsBare t' :=
  List.forall_mem_append

lemma isBare_of_isAllBlank {t : Text} (h : t.isAllBlank = true) : IsBare t := fun c hc =>
  .inl (List.all_eq_true.mp h c hc)

lemma isBare_of_word {t : Text} (h : t.all isWordChar = true) : IsBare t := fun c hc =>
  .inr (List.all_eq_true.mp h c hc)

lemma IsBare.isPlain {t : Text} (h : IsBare t) : t.all Marginalia.isPlain = true :=
  List.all_eq_true.mpr fun c hc => (h c hc).elim isPlain_of_isBlank isPlain_of_isWordChar

lemma IsBare.not_mem {t : Text} (h : IsBare t) {c : Char} (hblank : isBlank c = false)
    (hword : isWordChar c = false) : c ∉ t := by
  intro hmem
  rcases h c hmem with hc | hc
  · exact Bool.noConfusion (hblank.symm.trans hc)
  · exact Bool.noConfusion (hword.symm.trans hc)

lemma indentation_word {c : Char} (h : isWordChar c = true) (t : Text) :
    indentation (c :: t) = [] := by
  rw [indentation, List.takeWhile_cons, isBlank_of_isWordChar h]
  rfl

lemma afterGap?_eq_some_iff {t rest : Text} : afterGap? t = some rest ↔
    ∃ gap : Text, gap ≠ [] ∧ gap.isAllBlank = true ∧ t = gap ++ rest ∧ indentation rest = [] := by
  constructor
  · intro h
    cases t with
    | nil => cases h
    | cons c t =>
      rw [afterGap?] at h
      split at h
      · next hc =>
        obtain rfl := Option.some.inj h
        refine ⟨c :: indentation t, List.cons_ne_nil _ _, ?_, ?_, indentation_trimStart t⟩
        · rw [isAllBlank, List.all_cons, hc]
          exact isAllBlank_indentation t
        · rw [List.cons_append, ← trimStart_append]
      · cases h
  · rintro ⟨gap, hne, hgap, rfl, hrest⟩
    obtain ⟨c, gap, rfl⟩ := List.exists_cons_of_ne_nil hne
    rw [isAllBlank, List.all_cons, Bool.and_eq_true] at hgap
    have hstart : trimStart rest = rest := by
      conv_rhs => rw [trimStart_append rest, hrest, List.nil_append]
    rw [List.cons_append, afterGap?, if_pos hgap.1, trimStart_blanks hgap.2, hstart]

lemma word?_eq_some_iff {t word rest : Text} : word? t = some (word, rest) ↔
    word ≠ [] ∧ word.all isWordChar = true ∧ continuesWord rest = false ∧ t = word ++ rest := by
  constructor
  · intro h
    have ht := eq_of_word? h
    cases t with
    | nil => cases h
    | cons c t =>
      rw [word?] at h
      split at h
      · next hc =>
        obtain ⟨rfl, rfl⟩ := Prod.mk.inj (Option.some.inj h)
        refine ⟨List.cons_ne_nil _ _, ?_, ?_, ht⟩
        · rw [List.all_cons, hc]
          exact List.all_takeWhile
        · have hhead := List.head?_dropWhile_not isWordChar t
          rw [continuesWord]
          cases hd : (t.dropWhile isWordChar).head? with
          | none => rfl
          | some d =>
            rw [hd] at hhead
            exact hhead
      · cases h
  · rintro ⟨hne, hword, hrest, rfl⟩
    obtain ⟨c, word, rfl⟩ := List.exists_cons_of_ne_nil hne
    rw [List.all_cons, Bool.and_eq_true] at hword
    have hends : rest.takeWhile isWordChar = [] ∧ rest.dropWhile isWordChar = rest := by
      cases rest with
      | nil => exact ⟨rfl, rfl⟩
      | cons d rest =>
        have hd : isWordChar d = false := hrest
        simp [hd]
    have hall : ∀ d ∈ word, isWordChar d = true := List.all_eq_true.mp hword.2
    rw [List.cons_append, word?, if_pos hword.1, List.takeWhile_append_of_pos hall,
      List.dropWhile_append_of_pos hall, hends.1, hends.2, List.append_nil]

end Text

namespace Repair

open Text

/-- Nothing, or `async` and blanks. -/
def AsyncMark (t : Text) : Prop :=
  t = [] ∨ ∃ gap : Text, t = "async" ++ gap ∧ gap ≠ [] ∧ gap.isAllBlank = true

/-- What stands in front of the name of a function. -/
def DefStart (t : Text) : Prop :=
  ∃ margin async gap : Text, t = margin ++ (async ++ ("def" ++ gap)) ∧
    margin.isAllBlank = true ∧ AsyncMark async ∧ gap ≠ [] ∧ gap.isAllBlank = true

lemma AsyncMark.isBare {t : Text} (h : AsyncMark t) : IsBare t := by
  obtain rfl | ⟨gap, rfl, -, hgap⟩ := h
  · exact isBare_of_word rfl
  · exact isBare_append.mpr ⟨isBare_of_word rfl, isBare_of_isAllBlank hgap⟩

lemma DefStart.isBare {t : Text} (h : DefStart t) : IsBare t := by
  obtain ⟨margin, async, gap, rfl, hmargin, hasync, -, hgap⟩ := h
  exact isBare_append.mpr ⟨isBare_of_isAllBlank hmargin, isBare_append.mpr
    ⟨hasync.isBare, isBare_append.mpr ⟨isBare_of_word rfl, isBare_of_isAllBlank hgap⟩⟩⟩

lemma eq_of_afterAsync (t : Text) : ∃ async, AsyncMark async ∧ t = async ++ afterAsync t := by
  rw [afterAsync]
  cases ha : (after? "async" t).bind afterGap? with
  | none => exact ⟨[], .inl rfl, rfl⟩
  | some rest =>
    obtain ⟨behind, hbehind, hgap⟩ := Option.bind_eq_some_iff.mp ha
    obtain ⟨gap, hne, hblank, rfl, -⟩ := afterGap?_eq_some_iff.mp hgap
    refine ⟨"async" ++ gap, .inr ⟨gap, rfl, hne, hblank⟩, ?_⟩
    rw [(after?_eq_some_iff _ t _).mp hbehind, List.append_assoc]
    rfl

lemma AsyncMark.afterAsync {async : Text} (h : AsyncMark async) (rest : Text) :
    afterAsync (async ++ ("def" ++ rest)) = "def" ++ rest := by
  obtain rfl | ⟨gap, rfl, hne, hgap⟩ := h
  · rfl
  · have hafter : after? "async" ("async" ++ gap ++ ("def" ++ rest)) = some (gap ++ ("def" ++ rest)) :=
      (after?_eq_some_iff _ _ _).mpr (List.append_assoc _ _ _)
    rw [Repair.afterAsync, hafter, Option.bind_some,
      afterGap?_eq_some_iff.mpr ⟨gap, hne, hgap, rfl, rfl⟩]
    rfl

lemma AsyncMark.trimStart {async : Text} (h : AsyncMark async) (rest : Text) :
    trimStart (async ++ ("def" ++ rest)) = async ++ ("def" ++ rest) := by
  obtain rfl | ⟨gap, rfl, -, -⟩ := h <;> rfl

/-- The head of a function, taken apart. -/
lemma functionName?_eq_some_iff {code name rest : Text} : functionName? code = some (name, rest) ↔
    ∃ start, DefStart start ∧ name ≠ [] ∧ name.all isWordChar = true ∧
      continuesWord rest = false ∧ code = start ++ (name ++ rest) := by
  constructor
  · intro h
    simp only [functionName?, Option.bind_eq_bind, Option.bind_eq_some_iff] at h
    obtain ⟨behind, hdef, inside, hgap, hword⟩ := h
    obtain ⟨hname, hall, hrest, rfl⟩ := word?_eq_some_iff.mp hword
    obtain ⟨gap, hne, hblank, rfl, -⟩ := afterGap?_eq_some_iff.mp hgap
    obtain ⟨async, hasync, heq⟩ := eq_of_afterAsync code.trimStart
    refine ⟨_, ⟨code.indentation, async, gap, rfl, isAllBlank_indentation _, hasync, hne, hblank⟩,
      hname, hall, hrest, ?_⟩
    conv_lhs => rw [trimStart_append code, heq, (after?_eq_some_iff _ _ _).mp hdef]
    simp only [List.append_assoc]
  · rintro ⟨_, ⟨margin, async, gap, rfl, hmargin, hasync, hne, hgap⟩, hname, hall, hrest, rfl⟩
    have hinside : indentation (name ++ rest) = [] := by
      obtain ⟨c, word, rfl⟩ := List.exists_cons_of_ne_nil hname
      rw [List.all_cons, Bool.and_eq_true] at hall
      exact indentation_word hall.1 _
    have hstart : Repair.afterAsync (trimStart (margin ++ (async ++ ("def" ++ gap)) ++
        (name ++ rest))) = "def" ++ (gap ++ (name ++ rest)) := by
      simp only [List.append_assoc]
      rw [trimStart_blanks hmargin, hasync.trimStart, hasync.afterAsync]
    simp only [functionName?, hstart, Option.bind_eq_bind, Option.bind_eq_some_iff]
    exact ⟨_, (after?_eq_some_iff _ _ _).mpr rfl, _,
      afterGap?_eq_some_iff.mpr ⟨gap, hne, hgap, rfl, hinside⟩,
      word?_eq_some_iff.mpr ⟨hname, hall, hrest, rfl⟩⟩

/-- The head of a function up to the end of its name. -/
def FunctionHead (head : Text) : Prop :=
  ∃ start name : Text, DefStart start ∧ name ≠ [] ∧ name.all isWordChar = true ∧ head = start ++ name

lemma FunctionHead.isBare {head : Text} (h : FunctionHead head) : IsBare head := by
  obtain ⟨start, name, hstart, -, hname, rfl⟩ := h
  exact isBare_append.mpr ⟨hstart.isBare, isBare_of_word hname⟩

/-- What follows the head of a function may be any text that does not go on with its name. -/
lemma FunctionHead.functionName? {head : Text} (h : FunctionHead head) {rest : Text}
    (hrest : continuesWord rest = false) :
    ∃ name, functionName? (head ++ rest) = some (name, rest) := by
  obtain ⟨start, name, hstart, hne, hname, rfl⟩ := h
  exact ⟨name, functionName?_eq_some_iff.mpr
    ⟨start, hstart, hne, hname, hrest, List.append_assoc _ _ _⟩⟩

lemma functionHead_of_functionName? {code name rest : Text}
    (h : functionName? code = some (name, rest)) :
    ∃ head, FunctionHead head ∧ continuesWord rest = false ∧ code = head ++ rest := by
  obtain ⟨start, hstart, hne, hname, hrest, rfl⟩ := functionName?_eq_some_iff.mp h
  exact ⟨start ++ name, ⟨start, name, hstart, hne, hname, rfl⟩, hrest,
    (List.append_assoc _ _ _).symm⟩

lemma FunctionHead.isHeader {head : Text} (h : FunctionHead head) (rest : Text) :
    isHeader (head ++ rest) = true := by
  obtain ⟨_, name, ⟨margin, async, gap, rfl, hmargin, hasync, hne, hgap⟩, -, -, rfl⟩ := h
  obtain ⟨c, gap, rfl⟩ := List.exists_cons_of_ne_nil hne
  rw [isAllBlank, List.all_cons, Bool.and_eq_true] at hgap
  have hdef : ∀ t : Text, firstWord (("def" : Text) ++ (c :: gap ++ t)) = "def" := by
    intro t
    have hword : isWordChar c = false := isWordChar_of_isBlank hgap.1
    have hall : ("def" : Text).all isWordChar = true := rfl
    rw [firstWord, List.takeWhile_append_of_pos (List.all_eq_true.mp hall), List.cons_append, List.takeWhile_cons, hword]
    rfl
  have hcode : trimStart (margin ++ (async ++ ("def" ++ c :: gap)) ++ name ++ rest) =
      async ++ ("def" ++ (c :: gap ++ (name ++ rest))) := by
    simp only [List.append_assoc]
    rw [trimStart_blanks hmargin]
    exact hasync.trimStart _
  unfold Repair.isHeader
  simp only [hcode, Bool.or_eq_true]
  obtain rfl | ⟨between, rfl, hbetween, hblank⟩ := hasync
  · left
    rw [List.nil_append, startsWithOneOf, hdef]
    rfl
  · right
    rw [(after?_eq_some_iff _ _ _).mpr (List.append_assoc _ _ _), Option.bind_some,
      afterGap?_eq_some_iff.mpr ⟨between, hbetween, hblank, rfl, rfl⟩, Option.map_some,
      startsWithOneOf, hdef]
    rfl

end Repair
end Marginalia
