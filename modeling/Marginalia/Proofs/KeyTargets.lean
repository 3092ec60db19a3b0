import Marginalia.Proofs.ConditionSigns
import Marginalia.Proofs.ImprovedPitfalls
import Marginalia.Proofs.NestedCalls
import Marginalia.Proofs.SameLayout

/-!
# Targets with keys

Keys of mappings are guarded where a subscript is read. Whether it is read is told by what follows
it: an equality sign that assigns, perhaps as part of an augmented assignment. So a target is left
alone if its sign follows it, but one with another target, a bracket or a word behind it is guarded
like a read, unless its line starts with `del`.
-/

namespace Marginalia.Repair

open Text

/-! ## Subscripts with a key -/

/-- A literal without escapes between one pair of quotes. -/
def IsPlainLiteral (literal : Text) : Prop :=
  ∃ q inside, (q = '"' ∨ q = '\'') ∧ q ∉ inside ∧ '\\' ∉ inside ∧ literal = q :: (inside ++ [q])

/-- A name with a key between brackets. -/
def IsSubscript (name key t : Text) : Prop :=
  ∃ gap gap', IsName name ∧ IsPlainLiteral key ∧ gap.isAllBlank = true ∧ gap'.isAllBlank = true ∧
    t = name ++ ("[" ++ (gap ++ (key ++ (gap' ++ "]"))))

lemma plainLiteral?_eq_some_iff {t literal rest : Text} :
    plainLiteral? t = some (literal, rest) ↔ IsPlainLiteral literal ∧ t = literal ++ rest := by
  constructor
  · intro h
    refine ⟨?_, eq_of_plainLiteral? h⟩
    cases t with
    | nil => cases h
    | cons q t =>
      rw [plainLiteral?] at h
      split at h
      · next hq =>
        split at h
        · next inside c after hspan =>
          split at h
          · obtain ⟨rfl, rfl⟩ := Prod.mk.inj (Option.some.inj h)
            rw [List.span_eq_takeWhile_dropWhile] at hspan
            obtain ⟨rfl, -⟩ := Prod.mk.inj hspan
            have hall := List.all_eq_true.mp
              (List.all_takeWhile (p := fun c => c != q && c != '\\') (l := t))
            refine ⟨q, _, by simpa using hq, fun hmem => ?_, fun hmem => ?_, rfl⟩
            · simpa using hall q hmem
            · simpa using hall '\\' hmem
          · cases h
        · cases h
      · cases h
  · rintro ⟨⟨q, inside, hq, hquote, hback, rfl⟩, rfl⟩
    have hall : ∀ c ∈ inside, (c != q && c != '\\') = true := by
      intro c hc
      simp only [Bool.and_eq_true, bne_iff_ne]
      exact ⟨fun heq => hquote (heq ▸ hc), fun heq => hback (heq ▸ hc)⟩
    have hspan : (inside ++ [q] ++ rest).span (fun c => c != q && c != '\\') =
        (inside, q :: rest) := by
      rw [List.span_eq_takeWhile_dropWhile, List.append_assoc, List.takeWhile_append_of_pos hall,
        List.dropWhile_append_of_pos hall]
      simp
    have hopen : (q == '"' || q == '\'') = true := by simpa using hq
    rw [List.cons_append, plainLiteral?, if_pos hopen, hspan]
    simp

lemma keyRead?_eq_some_iff {t name key after : Text} : keyRead? t = some (name, key, after) ↔
    ∃ piece, IsSubscript name key piece ∧ t = piece ++ after := by
  constructor
  · intro h
    obtain ⟨gap, gap', hgap, hgap', ht⟩ := eq_of_keyRead? h
    simp only [keyRead?, Option.bind_eq_bind, Option.bind_eq_some_iff, Prod.exists] at h
    obtain ⟨name', rest, hname, inside, -, key', behind, hkey, after', -, heq⟩ := h
    obtain ⟨rfl, rfl, rfl⟩ : name' = name ∧ key' = key ∧ after' = after := by
      simpa using Option.some.inj heq
    exact ⟨_, ⟨gap, gap', (name?_eq_some_iff.mp hname).1, (plainLiteral?_eq_some_iff.mp hkey).1,
      hgap, hgap', rfl⟩, ht⟩
  · rintro ⟨_, ⟨gap, gap', hname, hkey, hgap, hgap', rfl⟩, rfl⟩
    have hfirst : name? ((name ++ ("[" ++ (gap ++ (key ++ (gap' ++ "]"))))) ++ after) =
        some (name, "[" ++ (gap ++ (key ++ (gap' ++ ("]" ++ after))))) :=
      name?_eq_some_iff.mpr ⟨hname, rfl, by simp only [List.append_assoc]⟩
    have hinside : trimStart (gap ++ (key ++ (gap' ++ ("]" ++ after)))) =
        key ++ (gap' ++ ("]" ++ after)) := by
      obtain ⟨q, inside, hq, -, -, rfl⟩ := id hkey
      rw [trimStart_blanks hgap]
      obtain rfl | rfl := hq <;> rfl
    have hclose : afterBlanksAnd? "]" (gap' ++ ("]" ++ after)) = some after :=
      (afterBlanksAnd?_cons_iff (c := ']') (by decide) []).mpr ⟨gap', hgap', rfl⟩
    rw [keyRead?, hfirst]
    simp only [Option.bind_eq_bind, Option.bind_some, (after?_eq_some_iff _ _ _).mpr rfl, hinside,
      plainLiteral?_eq_some_iff.mpr ⟨hkey, rfl⟩, hclose]
    rfl

/-! ## Guarded keys -/

/-- What follows a place that is assigned to by a sign of its own. -/
def AssignedBehind (after : Text) : Prop :=
  ∃ gap sign value : Text, gap.isAllBlank = true ∧ sign ∈ storeSigns ∧
    after = gap ++ (sign ++ '=' :: value) ∧ value.head? ≠ some '='

lemma isStoreTarget_iff {after : Text} : isStoreTarget after = true ↔ AssignedBehind after := by
  have hsigns : ∀ sign ∈ storeSigns, '=' ∉ sign ∧ sign.head?.any isBlank = false := by decide
  constructor
  · intro h
    rw [isStoreTarget] at h
    split at h
    · next sign tail hsplit =>
      obtain ⟨-, value, rfl, htrim⟩ := splitAtChar?_eq_some_iff.mp hsplit
      simp only [List.drop_succ_cons, List.drop_zero, Bool.and_eq_true, Bool.not_eq_true',
        Bool.eq_false_iff, ne_eq, startsWith_equals, List.contains_iff_mem] at h
      exact ⟨after.indentation, sign, value, isAllBlank_indentation after, h.2,
        by rw [← htrim, ← trimStart_append], h.1⟩
    · cases h
  · rintro ⟨gap, sign, value, hgap, hmem, rfl, hvalue⟩
    obtain ⟨hnone, hblank⟩ := hsigns sign hmem
    have htrim : trimStart (gap ++ (sign ++ '=' :: value)) = sign ++ '=' :: value := by
      rw [trimStart_blanks hgap]
      cases sign with
      | nil => rfl
      | cons c sign =>
        have hc : isBlank c = false := hblank
        simp [trimStart, hc]
    have hsplit : splitAtChar? '=' (trimStart (gap ++ (sign ++ '=' :: value))) =
        some (sign, '=' :: value) :=
      splitAtChar?_eq_some_iff.mpr ⟨hnone, value, rfl, htrim⟩
    rw [isStoreTarget, hsplit]
    simp only [List.drop_succ_cons, List.drop_zero, Bool.and_eq_true, Bool.not_eq_true',
      Bool.eq_false_iff, ne_eq, startsWith_equals, List.contains_iff_mem]
    exact ⟨hvalue, hmem⟩

/-- A subscript outside literals of a variable whose name tells that it holds a mapping. -/
structure KeyPlace (code head name key piece after : Text) : Prop where
  code : code = head ++ (piece ++ after)
  subscript : IsSubscript name key piece
  mapping : Naming.isMappingName name = true
  fresh : isFresh (lastOf none head) = true
  outside : (CodeState.start.run head).quote = none

/-- A subscript that is guarded. -/
def GuardedAt (code head piece new : Text) : Prop :=
  ∃ name key after, KeyPlace code head name key piece after ∧ new = name ++ ".get(" ++ key ++ ")" ∧
    code.trimStart.startsWith "del " = false ∧ ¬AssignedBehind after ∧ ¬Passed keyRule code head

lemma IsSubscript.ne_get {name key piece : Text} (h : IsSubscript name key piece) :
    name ++ ".get(" ++ key ++ ")" ≠ piece := by
  obtain ⟨gap, gap', -, -, -, -, rfl⟩ := h
  intro heq
  rw [List.append_assoc, List.append_assoc] at heq
  cases List.append_cancel_left heq

lemma editAt_keyRule_iff {code head piece new : Text} : EditAt keyRule code head piece new ↔
    ∃ name key after, KeyPlace code head name key piece after ∧
      new = name ++ ".get(" ++ key ++ ")" ∧ ¬AssignedBehind after ∧ ¬Passed keyRule code head := by
  have hquoted : ∀ head : Text, (placeBehind head).quoted = false ↔
      (CodeState.start.run head).quote = none := fun head => by
    rw [placeBehind_eq]
    exact Option.isSome_eq_false_iff.trans Option.isNone_iff_eq_none
  have hfresh (head : Text) : (placeBehind head).fresh = isFresh (lastOf none head) := by
    rw [placeBehind_eq]
    rfl
  constructor
  · rintro ⟨after, hcode, hpassed, hrule, hne⟩
    simp only [keyRule, Option.bind_eq_bind, Option.bind_eq_some_iff, Option.guard_eq_some',
      Prod.exists] at hrule
    obtain ⟨-, hb, name, key, after', hread, hrule⟩ := hrule
    obtain ⟨piece', hsubscript, heq⟩ := keyRead?_eq_some_iff.mp hread
    rw [heq, length_of_taken, List.take_left] at hrule
    split at hrule
    · next hcond =>
      obtain ⟨hlength, rfl⟩ := Prod.mk.inj (Option.some.inj hrule)
      obtain ⟨rfl, rfl⟩ := List.append_inj heq hlength.symm
      simp only [Bool.and_eq_true, Bool.not_eq_true', hquoted, Bool.eq_false_iff, ne_eq,
        isStoreTarget_iff] at hcond
      exact ⟨name, key, after, ⟨hcode, hsubscript, hcond.1.1, (hfresh head) ▸ hb, hcond.1.2⟩, rfl,
        hcond.2, hpassed⟩
    · obtain ⟨hlength, rfl⟩ := Prod.mk.inj (Option.some.inj hrule)
      obtain ⟨rfl, rfl⟩ := List.append_inj heq hlength.symm
      exact absurd rfl hne
  · rintro ⟨name, key, after, hplace, rfl, hnot, hpassed⟩
    refine ⟨after, hplace.code, hpassed, ?_, hplace.subscript.ne_get⟩
    have hread : keyRead? (piece ++ after) = some (name, key, after) :=
      keyRead?_eq_some_iff.mpr ⟨piece, hplace.subscript, rfl⟩
    have hcond : (Naming.isMappingName name && !(placeBehind head).quoted &&
        !isStoreTarget after) = true := by
      simp only [Bool.and_eq_true, Bool.not_eq_true', hquoted, Bool.eq_false_iff, ne_eq,
        isStoreTarget_iff]
      exact ⟨⟨hplace.mapping, hplace.outside⟩, hnot⟩
    rw [keyRule, hfresh, hplace.fresh]
    simp only [guard, if_true, Option.bind_eq_bind, hread, Option.bind_some, hcond]
    rw [length_of_taken]
    rfl

/-- Exactly these subscripts are guarded. -/
lemma edited_guardKeys? (code : Text) :
    Edited (GuardedAt code) [] code ((guardKeys? code).getD code) := by
  rw [guardKeys?]
  cases hdel : code.trimStart.startsWith "del " with
  | true =>
    refine .same fun more c rest _ old new h => ?_
    obtain ⟨_, _, _, _, _, hnot, -⟩ := h
    rw [hdel] at hnot
    cases hnot
  | false =>
    rw [if_neg Bool.false_ne_true, substitute?, getD_changed?]
    refine (edited_substitute gains_keyRule.takes code).congr fun more c rest _ old new => ?_
    simp only [List.nil_append, editAt_keyRule_iff, GuardedAt, hdel, true_and]

lemma run_inside_literal {s : CodeState} {q : Char} (hs : s.quote = some q) (he : s.escaped = false)
    {t : Text} (hq : q ∉ t) (hback : '\\' ∉ t) : s.run t = s := by
  induction t with
  | nil => rfl
  | cons c t ih =>
    obtain ⟨hc, hq⟩ := not_or.mp (List.mem_cons.not.mp hq)
    obtain ⟨hc', hback⟩ := not_or.mp (List.mem_cons.not.mp hback)
    have hstep : s.step c = (s, none) := by
      simp [CodeState.step, hs, he, Ne.symm hc, Ne.symm hc']
    rw [CodeState.run_cons, hstep, ih hq hback]

/-- Behind the quote that opens the key of a subscript, its reader is inside a literal. -/
lemma quote_inside_key {s : CodeState} (hs : s.Sound) (hquote : s.quote = none)
    {word gap more : Text} {q : Char} (hword : word.all isWordChar = true)
    (hgap : gap.isAllBlank = true) (hq : isQuote q = true) (hmore : q ∉ more)
    (hback : '\\' ∉ more) :
    (s.run ((word ++ ("[" ++ (gap ++ [q]))) ++ more)).quote = some q := by
  have hmute : IsMute (word ++ ("[" ++ gap)) := isMute_append.mpr
    ⟨isMute_word hword, isMute_append.mpr ⟨by decide, isMute_blanks hgap⟩⟩
  have hopened := (run_mute hquote hmute).2.1
  have hescaped := (hs.run (word ++ ("[" ++ gap))).escaped hopened
  have hlead : (word ++ ("[" ++ (gap ++ [q]))) ++ more =
      (word ++ ("[" ++ gap)) ++ ([q] ++ more) := by simp
  rw [hlead, CodeState.run_append, CodeState.run_append]
  generalize s.run (word ++ ("[" ++ gap)) = s' at hopened hescaped
  have hstep : s'.run [q] = { s' with quote := some q } := by
    simp [CodeState.step, hopened, hq]
  have hkept := run_inside_literal (s := ⟨some q, s'.escaped, s'.depth⟩) rfl hescaped hmore hback
  rw [hstep, hkept]

/-- Blanks, brackets and quotes start no name. -/
lemma not_mem_around_key {gap gap' : Text} {c q : Char} (hc : isNameStart c = true)
    (hgap : gap.isAllBlank = true) (hgap' : gap'.isAllBlank = true) (hq : isNameStart q = false) :
    c ∉ "[" ++ (gap ++ [q]) ∧ c ∉ [q] ++ (gap' ++ "]") := by
  have hblank : isBlank c = false := isBlank_of_isWordChar (isWordChar_of_isNameStart hc)
  have hmark : ∀ d, isNameStart d = false → c ≠ d := by
    rintro d hd rfl
    rw [hd] at hc
    cases hc
  have hopen : c ≠ '[' := hmark '[' (by decide)
  have hclose : c ≠ ']' := hmark ']' (by decide)
  simp only [List.mem_append, List.mem_singleton, not_or]
  exact ⟨⟨by simpa using hopen, not_mem_of_isAllBlank hgap hblank, hmark q hq⟩, hmark q hq,
    not_mem_of_isAllBlank hgap' hblank, by simpa using hclose⟩

/-- A name starts nowhere inside a subscript but in its literal. -/
lemma IsSubscript.quoted_inside {name key piece : Text} (h : IsSubscript name key piece)
    {s : CodeState} (hs : s.Sound) (hquote : s.quote = none) {front back : Text} {c : Char}
    (hsplit : piece = front ++ c :: back) (hne : front ≠ []) (hc : isNameStart c = true)
    (hfresh : isFresh (lastOf none front) = true) : (s.run front).quote ≠ none := by
  obtain ⟨gap, gap', ⟨d, word, rfl, hd, hword⟩, ⟨q, inside, hq, hinside, hback, rfl⟩, hgap, hgap',
    rfl⟩ := h
  have hname : (d :: word).all isWordChar = true := by
    rw [List.all_cons, isWordChar_of_isNameStart hd, hword]
    rfl
  have hmarks : isQuote q = true ∧ isNameStart q = false := by obtain rfl | rfl := hq <;> decide
  have hother := not_mem_around_key hc hgap hgap' hmarks.2
  have hquoted : ∀ more rest, inside = more ++ rest →
      (s.run (((d :: word) ++ ("[" ++ (gap ++ [q]))) ++ more)).quote ≠ none := by
    rintro more rest rfl
    simp only [List.mem_append, not_or] at hinside hback
    rw [quote_inside_key hs hquote hname hgap hmarks.1 hinside.1 hback.1]
    exact Option.some_ne_none q
  have hparts : ((d :: word) ++ ("[" ++ (gap ++ [q]))) ++ (inside ++ ([q] ++ (gap' ++ "]"))) =
      front ++ c :: back := by
    rw [← hsplit]
    simp
  rcases List.append_eq_append_iff.mp hparts with ⟨more, rfl, hmore⟩ | ⟨more, hlead, hmore⟩
  · rcases List.append_eq_append_iff.mp hmore with ⟨more', rfl, hmore'⟩ | ⟨more', hinside', -⟩
    · exact absurd (by rw [hmore']; simp) hother.2
    · exact hquoted more more' hinside'
  · cases more with
    | nil =>
      rw [List.append_nil] at hlead
      rw [← hlead]
      simpa using hquoted [] inside rfl
    | cons e more =>
      obtain ⟨rfl, -⟩ := List.cons.inj hmore
      rcases List.append_eq_append_iff.mp hlead with ⟨more', rfl, hmore'⟩ | ⟨more', hname', hmore'⟩
      · exact absurd (by rw [hmore']; simp) hother.1
      · rw [hname', List.all_append, Bool.and_eq_true] at hname
        obtain ⟨e, hlast⟩ : ∃ e, front.getLast? = some e := ⟨_, List.getLast?_eq_some_getLast hne⟩
        have hword' : isWordChar e = true :=
          List.all_eq_true.mp hname.1 e (List.mem_of_getLast? hlast)
        simp [lastOf, hlast, isFresh, hword'] at hfresh

/-- A subscript outside literals is passed over only because of one that starts inside a literal. -/
lemma KeyPlace.passed {code head name key piece after : Text}
    (h : KeyPlace code head name key piece after) (hpassed : Passed keyRule code head) :
    ∃ front name' key' piece' back, IsSubscript name' key' piece' ∧
      code = front ++ (piece' ++ back) ∧
      (CodeState.start.run front).quote ≠ none ∧ front.length < head.length ∧
      head.length < front.length + piece'.length := by
  have hcode := h.code
  obtain ⟨k, hk⟩ := Nat.exists_eq_succ_of_ne_zero hpassed
  rw [hcode] at hk
  obtain ⟨front, old, new, back, hsplit, hrule, hlt, hlength⟩ :=
    exists_of_taken gains_keyRule.takes hk
  simp only [keyRule, Option.bind_eq_bind, Option.bind_eq_some_iff, Prod.exists] at hrule
  obtain ⟨-, -, name', key', after', hread, hrule⟩ := hrule
  obtain ⟨piece', hsubscript, heq⟩ := keyRead?_eq_some_iff.mp hread
  have hold : old = piece' := by
    rw [heq, length_of_taken] at hrule
    refine (List.append_inj heq ?_).1
    split at hrule <;> exact (Prod.mk.inj (Option.some.inj hrule)).1.symm
  subst hold
  refine ⟨front, name', key', old, back, hsubscript, hcode.trans hsplit, fun hquote => ?_, hlt,
    by omega⟩
  -- Outside literals the place would be inside the literal of that subscript.
  have hfront : front <+: head := List.prefix_of_prefix_length_le
    (show front <+: head ++ (piece ++ after) from hsplit ▸ List.prefix_append _ _)
    (List.prefix_append _ _) (Nat.le_of_lt hlt)
  obtain ⟨more, rfl⟩ := hfront
  rw [List.length_append] at hlt hlength
  have hmore : more ≠ [] := by
    rintro rfl
    exact absurd hlt (Nat.lt_irrefl _)
  rw [List.append_assoc] at hsplit
  obtain ⟨rest, rfl⟩ : more <+: old := List.prefix_of_prefix_length_le
    (show more <+: old ++ back from List.append_cancel_left hsplit ▸ List.prefix_append _ _)
    (List.prefix_append _ _) (by omega)
  rw [List.append_assoc] at hsplit
  have hpiece := List.append_cancel_left (List.append_cancel_left hsplit)
  obtain ⟨gap, gap', ⟨c, word, rfl, hc, -⟩, -, -, -, rfl⟩ := h.subscript
  cases rest with
  | nil =>
    rw [List.append_nil] at hlength
    omega
  | cons d rest =>
    obtain ⟨rfl, -⟩ := List.cons.inj hpiece
    have hfresh := h.fresh
    rw [lastOf_append, lastOf_of_ne_nil _ hmore] at hfresh
    have hquoted := hsubscript.quoted_inside (CodeState.sound_start.run front) hquote rfl hmore hc
      (by rw [lastOf_of_ne_nil _ hmore]; exact hfresh)
    rw [← CodeState.run_append] at hquoted
    exact hquoted h.outside

/-! ## Targets -/

/-- The text before a statement: the start of the line, or code that ends in a semicolon or in the
colon of a header. -/
inductive StartsStatement : Text → Prop
  | line {gap : Text} (hgap : gap.isAllBlank = true) : StartsStatement gap
  | behind {front gap : Text} {c : Char} (hc : c = ';' ∨ c = ':')
    (hfront : CodeState.start.run front = .start) (hgap : gap.isAllBlank = true) :
    StartsStatement (front ++ c :: gap)

/-- Targets, of which it matters only that their brackets and literals are closed. -/
def OtherTargets (t : Text) : Prop := CodeState.start.run t = .start ∧ hasWord "in" t = false

/-- The text before the targets of an assignment: that before the statement, and perhaps other
targets with their signs. -/
inductive StartsTargets : Text → Prop
  | first {lead : Text} (h : StartsStatement lead) : StartsTargets lead
  | chained {lead others : Text} (h : StartsTargets lead) (hothers : OtherTargets others) :
    StartsTargets (lead ++ (others ++ ['=']))

/-- What stands on both sides of one of some targets: other ones, and brackets around them. -/
inductive Slot : Text → Text → Prop
  | alone {gap gap' : Text} (hgap : gap.isAllBlank = true) (hgap' : gap'.isAllBlank = true) :
    Slot gap gap'
  | behind {others before after : Text} (hothers : OtherTargets others) (h : Slot before after) :
    Slot (others ++ ',' :: before) after
  | ahead {others before after : Text} (h : Slot before after) (hothers : OtherTargets others) :
    Slot before (after ++ ',' :: others)
  | starred {gap before after : Text} (hgap : gap.isAllBlank = true) (h : Slot before after) :
    Slot (gap ++ '*' :: before) after
  | grouped {gap gap' before after : Text} {opener closer : Char} (hgap : gap.isAllBlank = true)
    (hgap' : gap'.isAllBlank = true) (hpair : (opener, closer) ∈ [('(', ')'), ('[', ']')])
    (h : Slot before after) : Slot (gap ++ opener :: before) (after ++ closer :: gap')

/-- The texts before and behind a place that is assigned to or deleted, and whether the sign of an
assignment follows it. -/
inductive IsTarget : Bool → Text → Text → Prop
  | assigned {lead before after value : Text} (hlead : StartsTargets lead)
    (hslot : Slot before after) (hvalue : value.head? ≠ some '=') :
    IsTarget after.isAllBlank (lead ++ before) (after ++ '=' :: value)
  | augmented {lead gap gap' sign value : Text} (hlead : StartsTargets lead)
    (hgap : gap.isAllBlank = true) (hgap' : gap'.isAllBlank = true) (hsign : sign ∈ storeSigns)
    (hvalue : value.head? ≠ some '=') : IsTarget true (lead ++ gap) (gap' ++ (sign ++ '=' :: value))
  | loop {front before after rest : Text} (hfront : isFresh (lastOf none front) = true)
    (hquote : (CodeState.start.run front).quote = none) (hbefore : continuesWord before = false)
    (hslot : Slot before after) (hafter : isFresh (lastOf none after) = true)
    (hrest : continuesWord rest = false) :
    IsTarget false (front ++ ("for" ++ before)) (after ++ ("in" ++ rest))
  | context {lead opened before after rest : Text} {c : Char} (hlead : StartsStatement lead)
    (hopened : continuesWord opened = false ∧ isFresh (lastOf none opened) = true)
    (hquote : (CodeState.start.run opened).quote = none) (hbefore : continuesWord before = false)
    (hslot : Slot before after) (hc : c ∈ [':', ',', ')']) :
    IsTarget false (lead ++ ("with" ++ (opened ++ ("as" ++ before)))) (after ++ c :: rest)
  | deleted {lead before after rest : Text} (hlead : StartsStatement lead)
    (hbefore : continuesWord before = false) (hslot : Slot before after)
    (hrest : rest = [] ∨ rest.head? = some ';') :
    IsTarget false (lead ++ ("del" ++ before)) (after ++ rest)

/-- Characters with which the sign of an assignment starts. -/
def startsSign (c : Char) : Bool :=
  ['=', '+', '-', '*', '/', '%', '&', '|', '^', '<', '>', '@'].contains c

lemma AssignedBehind.head {after : Text} (h : AssignedBehind after) :
    (trimStart after).head?.any startsSign = true := by
  have hsigns : ∀ sign ∈ storeSigns,
      sign.head?.all (fun c => startsSign c && !isBlank c) = true := by decide
  obtain ⟨gap, sign, value, hgap, hsign, rfl, -⟩ := h
  have hfirst := hsigns sign hsign
  rw [trimStart_blanks hgap]
  cases sign with
  | nil => rfl
  | cons c sign =>
    have hc : startsSign c = true ∧ isBlank c = false := by simpa using hfirst
    simp [trimStart, hc.1, hc.2]

lemma head_trimStart_append {t : Text} (ht : t.isAllBlank = false) (rest : Text) :
    (trimStart (t ++ rest)).head? = (trimStart t).head? := by
  rw [trimStart_margin ht]
  cases hstart : trimStart t with
  | nil =>
    have happ := trimStart_append t
    rw [hstart, List.append_nil] at happ
    rw [happ, isAllBlank_indentation] at ht
    cases ht
  | cons c t' => rfl

/-- Behind a target stand blanks, or what goes on with the targets. -/
lemma Slot.head_after {before after : Text} (h : Slot before after)
    (hblank : after.isAllBlank = false) : (trimStart after).head?.any startsSign = false := by
  have hnext : ∀ {after : Text} {c : Char} {rest : Text},
      (after.isAllBlank = false → (trimStart after).head?.any startsSign = false) →
      startsSign c = false → isBlank c = false →
      (trimStart (after ++ c :: rest)).head?.any startsSign = false := by
    intro after c rest ih hc hcblank
    cases hafter : after.isAllBlank with
    | true =>
      rw [trimStart_blanks hafter]
      simp [trimStart, hcblank, hc]
    | false =>
      rw [head_trimStart_append hafter]
      exact ih hafter
  induction h with
  | alone _ hgap' =>
    rw [hgap'] at hblank
    cases hblank
  | behind _ _ ih => exact ih hblank
  | ahead _ _ ih => exact hnext ih (by decide) (by decide)
  | starred _ _ ih => exact ih hblank
  | @grouped _ _ _ _ _ closer _ _ hpair _ ih =>
    have hcloser : closer = ')' ∨ closer = ']' := by
      simp only [List.mem_cons, Prod.mk.injEq, List.not_mem_nil, or_false] at hpair
      exact hpair.imp (·.2) (·.2)
    obtain rfl | rfl := hcloser
    · exact hnext ih (by decide) (by decide)
    · exact hnext ih (by decide) (by decide)

/-- No sign follows a target behind which there is something else. -/
lemma Slot.not_assignedBehind {before after rest : Text} (h : Slot before after)
    (hrest : (trimStart rest).head?.any startsSign = false) : ¬AssignedBehind (after ++ rest) := by
  intro hsign
  have hhead := hsign.head
  cases hblank : after.isAllBlank with
  | true =>
    rw [trimStart_blanks hblank, hrest] at hhead
    cases hhead
  | false =>
    rw [head_trimStart_append hblank, h.head_after hblank] at hhead
    cases hhead

/-- Whether the sign of an assignment follows a target. -/
lemma IsTarget.assignedBehind_iff {signed : Bool} {head after : Text}
    (h : IsTarget signed head after) : AssignedBehind after ↔ signed = true := by
  cases h with
  | @assigned lead before after value hlead hslot hvalue =>
    constructor
    · intro hsign
      by_contra hblank
      rw [Bool.not_eq_true] at hblank
      have hhead := hsign.head
      rw [head_trimStart_append hblank, hslot.head_after hblank] at hhead
      cases hhead
    · exact fun hblank => ⟨after, [], value, hblank, by decide, rfl, hvalue⟩
  | augmented _ _ hgap' hsign hvalue =>
    exact ⟨fun _ => rfl, fun _ => ⟨_, _, _, hgap', hsign, rfl, hvalue⟩⟩
  | loop _ _ _ hslot _ _ =>
    exact iff_of_false (hslot.not_assignedBehind rfl) Bool.false_ne_true
  | @context _ _ _ _ rest c _ _ _ _ hslot hc =>
    refine iff_of_false (hslot.not_assignedBehind ?_) Bool.false_ne_true
    have hmarks : ∀ c ∈ [':', ',', ')'], isBlank c = false ∧ startsSign c = false := by
      simp [isBlank, startsSign]
    simp [trimStart, hmarks c hc]
  | @deleted _ _ _ rest _ _ hslot hrest =>
    refine iff_of_false (hslot.not_assignedBehind ?_) Bool.false_ne_true
    obtain rfl | hrest := hrest
    · rfl
    · cases rest with
      | nil => cases hrest
      | cons c rest =>
        obtain rfl : c = ';' := Option.some.inj hrest
        rfl

/-- Exactly the subscripts above are guarded. A target is left alone if and only if its line starts
with `del`, or the sign of an assignment follows it, or its beginning is passed over, which only a
subscript that starts inside a literal brings about. -/
theorem key_targets_left_iff (code : Text) :
    Edited (GuardedAt code) [] code ((guardKeys? code).getD code) ∧
    (∀ signed head name key piece after, KeyPlace code head name key piece after →
      IsTarget signed head after →
      ((∀ new, ¬GuardedAt code head piece new) ↔ code.trimStart.startsWith "del " = true ∨
        signed = true ∨ Passed keyRule code head)) ∧
    ∀ head name key piece after, KeyPlace code head name key piece after →
      Passed keyRule code head → ∃ front name' key' piece' back, IsSubscript name' key' piece' ∧
        code = front ++ (piece' ++ back) ∧ (CodeState.start.run front).quote ≠ none ∧
        front.length < head.length ∧ head.length < front.length + piece'.length := by
  refine ⟨edited_guardKeys? code, fun signed head name key piece after hplace htarget => ?_,
    fun _ _ _ _ _ hplace hpassed => hplace.passed hpassed⟩
  rw [← htarget.assignedBehind_iff]
  constructor
  · intro hnone
    by_contra hother
    simp only [not_or, Bool.not_eq_true] at hother
    obtain ⟨hdel, hsign, hpassed⟩ := hother
    exact hnone _ ⟨name, key, after, hplace, rfl, hdel, hsign, hpassed⟩
  · rintro hleft new ⟨name', key', after', hplace', -, hdel, hsign, hpassed⟩
    have hafter : after' = after := List.append_cancel_left
      (List.append_cancel_left (hplace'.code.symm.trans hplace.code))
    subst hafter
    rcases hleft with h | h | h
    · rw [hdel] at h
      cases h
    · exact hsign h
    · exact hpassed h

/-- Targets of assignments, loops, contexts and deletions that become reads. -/
theorem key_targets_guarded :
    KeyPlace "mydict['a'], x = 1, 2" [] "mydict" "'a'" "mydict['a']" ", x = 1, 2" ∧
    IsTarget false [] ", x = 1, 2" ∧
    guardKeys? "mydict['a'], x = 1, 2" = some "mydict.get('a'), x = 1, 2" ∧
    IsTarget false "for " " in xs:" ∧
    guardKeys? "for mydict['a'] in xs:" = some "for mydict.get('a') in xs:" ∧
    IsTarget false "with f() as " ":" ∧
    guardKeys? "with f() as mydict['a']:" = some "with f() as mydict.get('a'):" ∧
    IsTarget false "x = 1; del " [] ∧
    guardKeys? "x = 1; del mydict['a']" = some "x = 1; del mydict.get('a')" := by
  have hempty : Slot [] [] := .alone rfl rfl
  have hblank : Slot " " [] := .alone rfl rfl
  have hothers : OtherTargets " x " := ⟨by decide, by decide⟩
  have hstart : StartsStatement [] := .line rfl
  have hbehind : StartsStatement ("x = 1" ++ ';' :: " ") := .behind (.inl rfl) (by decide) rfl
  have hloop : IsTarget false (([] : Text) ++ ("for" ++ " ")) ((" " : Text) ++ ("in" ++ " xs:")) :=
    .loop rfl rfl rfl (.alone rfl rfl) rfl rfl
  have hcontext : IsTarget false (([] : Text) ++ ("with" ++ (" f() " ++ ("as" ++ " "))))
      ([] ++ [':']) := .context hstart ⟨rfl, rfl⟩ rfl rfl hblank (by decide)
  refine ⟨⟨rfl, ?_, by decide, rfl, rfl⟩, ?_, by decide, hloop, by decide, hcontext, by decide,
    .deleted hbehind rfl hblank (.inl rfl), by decide⟩
  · exact ⟨[], [], ⟨'m', "ydict", rfl, by decide, by decide⟩,
      ⟨'\'', "a", .inr rfl, by decide, by decide, rfl⟩, rfl, rfl, rfl⟩
  · exact .assigned (.first hstart) (hempty.ahead hothers) (by decide)

end Marginalia.Repair
