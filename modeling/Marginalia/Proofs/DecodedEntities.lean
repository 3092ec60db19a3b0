import Marginalia.Proofs.ImprovedSpelling
import Marginalia.Proofs.Marks

/-!
# Decoded entities

An entity is an ampersand and a name. No name has a character that an entity stands for, so a name is
what follows a place in the decoded text exactly if it did in the text before: the look at what
follows an ampersand may as well be one at what it is decoded to. Decoding therefore undoes escaping
up to the ampersands that are kept, and there is nothing left for it to do a second time.
-/

namespace Marginalia

open Text Repair

namespace Repair

/-! ## Entities and their names -/

/-- The name of an entity: what follows its ampersand. -/
def entityName (pair : Text × Text) : Text := pair.1.drop 1

lemma entity_eq {pair : Text × Text} (h : pair ∈ entities) : pair.1 = '&' :: entityName pair := by
  have htable : ∀ pair ∈ entities, pair.1 = '&' :: entityName pair := by decide
  exact htable pair h

/-- What an entity stands for is one character, and no character of a name. -/
lemma plain_eq {pair : Text × Text} (h : pair ∈ entities) :
    ∃ c, pair.2 = [c] ∧ ∀ other ∈ entities, c ∉ entityName other := by
  have htable : ∀ pair ∈ entities, pair.2.length = 1 ∧
      ∀ other ∈ entities, (pair.2.all fun c => ! (entityName other).contains c) = true := by
    decide
  obtain ⟨hlength, hnames⟩ := htable pair h
  obtain ⟨c, hc⟩ := List.length_eq_one_iff.mp hlength
  exact ⟨c, hc, fun other hother => by simpa [hc] using hnames other hother⟩

lemma amp_eq {pair : Text × Text} (h : pair ∈ entities) : pair.2 = "&" ↔ pair.1 = "&amp;" := by
  have htable : ∀ pair ∈ entities, pair.2 = "&" ↔ pair.1 = "&amp;" := by decide
  exact htable pair h

lemma amp_not_mem_name {pair : Text × Text} (h : pair ∈ entities) : '&' ∉ entityName pair := by
  have htable : ∀ pair ∈ entities, '&' ∉ entityName pair := by decide
  exact htable pair h

lemma completesEntity_iff {t : Text} :
    completesEntity t = true ↔ ∃ pair ∈ entities, ∃ rest, t = entityName pair ++ rest := by
  rw [completesEntity, List.any_eq_true]
  exact exists_congr fun pair => and_congr_right fun _ => startsWith_iff t (entityName pair)

/-- No text starts with two entities. -/
lemma find?_entity {pair : Text × Text} (h : pair ∈ entities) (rest : Text) :
    (entities.find? fun other => (pair.1 ++ rest).startsWith other.1) = some pair := by
  simp only [entities, List.mem_cons, List.not_mem_nil, or_false] at h
  rcases h with rfl | rfl | rfl | rfl | rfl | rfl <;> rfl

variable {b : Before} {pair : Text × Text} {t out : Text}

lemma entityRule_entity (h : pair ∈ entities) (rest : Text) : entityRule b (pair.1 ++ rest) =
    if pair.1 = "&amp;" ∧ completesEntity rest = true then none
    else some (pair.1.length, pair.2) := by
  rw [entityRule_eq, find?_entity h, Option.bind_some, List.drop_left]
  simp only [Bool.and_eq_true, beq_iff_eq, amp_eq h]

/-- Where an entity is decoded: no ampersand comes before what completes one. -/
lemma eq_of_entityRule {n : Nat} {put : Text} (h : entityRule b t = some (n, put)) :
    ∃ pair ∈ entities, ∃ rest, t = pair.1 ++ rest ∧ n = pair.1.length ∧ put = pair.2 ∧
      (pair.1 = "&amp;" → completesEntity rest = false) := by
  obtain ⟨pair, hmem, hstarts, rfl, rfl⟩ := exists_entity h
  obtain ⟨rest, rfl⟩ := (startsWith_iff t pair.1).mp hstarts
  refine ⟨pair, hmem, rest, rfl, rfl, rfl, fun hamp => ?_⟩
  rw [entityRule_entity hmem] at h
  split at h
  · cases h
  · next hnot => simpa [hamp] using hnot

lemma entityRule_other {c : Char} (hc : c ≠ '&') (rest : Text) :
    entityRule b (c :: rest) = none := by
  cases h : entityRule b (c :: rest) with
  | none => rfl
  | some put =>
    obtain ⟨pair, hmem, rest', ht, -⟩ := eq_of_entityRule h
    rw [entity_eq hmem] at ht
    exact absurd (List.cons.inj ht).1 hc

end Repair

section

variable {b : Before} {t out : Text}

/-- A piece without an ampersand is kept. -/
lemma Substituted.keep_piece {piece rest : Text} (hpiece : '&' ∉ piece)
    (h : Substituted entityRule (piece.foldl Before.step b) rest out) :
    Substituted entityRule b (piece ++ rest) (piece ++ out) := by
  induction piece generalizing b with
  | nil => exact h
  | cons c piece ih =>
    obtain ⟨hc, hpiece⟩ := not_or.mp (fun hmem => hpiece (List.mem_cons.mpr hmem))
    exact .keep (entityRule_other (Ne.symm hc) _) (ih hpiece h)

lemma Substituted.kept_name {pair : Text × Text} (hmem : pair ∈ entities) {rest : Text}
    (h : Substituted entityRule b (entityName pair ++ rest) out) :
    ∃ out', out = entityName pair ++ out' ∧
      Substituted entityRule ((entityName pair).foldl Before.step b) rest out' := by
  refine h.exists_kept fun head c tail hname => entityRule_other ?_ _
  rintro rfl
  exact amp_not_mem_name hmem (by rw [hname]; simp)

lemma Substituted.of_kept_name {pair : Text × Text} (hmem : pair ∈ entities) {rest : Text}
    (h : Substituted entityRule b t (entityName pair ++ rest)) :
    ∃ t', t = entityName pair ++ t' ∧
      Substituted entityRule ((entityName pair).foldl Before.step b) t' rest := by
  obtain ⟨t', ht, hrest, -⟩ := h.exists_of_kept <| by
    intro head tail old put t' out' hname htail hr _ heq
    obtain ⟨other, hother, -, -, -, rfl, -⟩ := eq_of_entityRule hr
    obtain ⟨c, hplain, hnames⟩ := plain_eq hother
    obtain ⟨d, tail, rfl⟩ := List.exists_cons_of_ne_nil htail
    rw [hplain] at heq
    obtain ⟨rfl, -⟩ := List.cons.inj heq
    exact hnames pair hmem (by rw [hname]; simp)
  exact ⟨t', ht, hrest⟩

/-- Decoding neither makes nor breaks what completes an entity. -/
lemma Substituted.completesEntity_eq (h : Substituted entityRule b t out) :
    completesEntity out = completesEntity t := by
  rw [Bool.eq_iff_iff, completesEntity_iff, completesEntity_iff]
  constructor
  · rintro ⟨pair, hmem, rest, rfl⟩
    obtain ⟨t', rfl, -⟩ := h.of_kept_name hmem
    exact ⟨pair, hmem, t', rfl⟩
  · rintro ⟨pair, hmem, rest, rfl⟩
    obtain ⟨out', rfl, -⟩ := h.kept_name hmem
    exact ⟨pair, hmem, out', rfl⟩

/-- The entities that stand in a decoded text are ampersands that were kept. -/
theorem Substituted.entity_left (h : Substituted entityRule b t out) {pair : Text × Text}
    (hmem : pair ∈ entities) {front rest : Text} (hout : out = front ++ (pair.1 ++ rest)) :
    pair.1 = "&amp;" ∧ completesEntity rest = true := by
  induction h generalizing front with
  | nil =>
    rw [entity_eq hmem] at hout
    cases front <;> cases hout
  | @keep b c t out hnone hbehind ih =>
    cases front with
    | cons d front => exact ih (List.cons.inj hout).2
    | nil =>
      rw [entity_eq hmem] at hout
      obtain ⟨rfl, rfl⟩ := List.cons.inj hout
      obtain ⟨t', rfl, hrest⟩ := Substituted.of_kept_name hmem hbehind
      -- The entity stood there before, and it was not decoded.
      have hrule : entityRule b (pair.1 ++ t') = none := by
        rw [entity_eq hmem]
        exact hnone
      rw [entityRule_entity hmem] at hrule
      split at hrule
      · next hkept => exact ⟨hkept.1, hrest.completesEntity_eq.trans hkept.2⟩
      · cases hrule
  | @swap b old put t out hne hr hbehind ih =>
    obtain ⟨other, hother, t', ht, hlength, rfl, hnot⟩ := eq_of_entityRule hr
    obtain ⟨rfl, rfl⟩ := List.append_inj ht hlength
    obtain ⟨c, hplain, -⟩ := plain_eq hother
    rw [hplain] at hout
    cases front with
    | cons d front => exact ih (List.cons.inj hout).2
    | nil =>
      -- An ampersand that was put comes before nothing that completes an entity.
      rw [entity_eq hmem] at hout
      obtain ⟨rfl, rfl⟩ := List.cons.inj hout
      have hfalse := hnot ((amp_eq hother).mp hplain)
      rw [← hbehind.completesEntity_eq, Bool.eq_false_iff] at hfalse
      exact absurd (completesEntity_iff.mpr ⟨pair, hmem, rest, rfl⟩) hfalse

end

namespace Repair

lemma substituted_decodeEntities (t : Text) :
    Substituted entityRule .start t (decodeEntities t) :=
  substituted_substitute gains_entityRule.takes t

/-- The only entities in a text are ampersands before what completes an entity. -/
def Decoded (t : Text) : Prop := ∀ pair ∈ entities, ∀ front rest, t = front ++ (pair.1 ++ rest) →
  pair.1 = "&amp;" ∧ completesEntity rest = true

lemma decoded_decodeEntities (t : Text) : Decoded (decodeEntities t) :=
  fun _ hmem _ _ hout => (substituted_decodeEntities t).entity_left hmem hout

lemma Decoded.spares {b : Before} {t : Text} (h : Decoded t) : Spares entityRule b t := by
  refine spares_iff.mpr fun front rest ht _ => Option.eq_none_iff_forall_ne_some.mpr ?_
  rintro ⟨n, put⟩ hr
  obtain ⟨pair, hmem, rest', rfl, -, -, hnot⟩ := eq_of_entityRule hr
  obtain ⟨hamp, hcompletes⟩ := h pair hmem front rest' ht
  rw [hnot hamp] at hcompletes
  cases hcompletes

lemma Decoded.decodeEntities_eq {t : Text} (h : Decoded t) : decodeEntities t = t :=
  h.spares.substitute_eq

/-! ## Escaping -/

/-- What a character is escaped to. -/
def escapesOf : Char → List Text
  | '&' => ["&amp;"]
  | '<' => ["&lt;"]
  | '>' => ["&gt;"]
  | '"' => ["&quot;"]
  | '\'' => ["&#39;", "&apos;"]
  | c => [[c]]

/-- A text, and one with its characters escaped. -/
inductive Escaped : Text → Text → Prop
  | nil : Escaped [] []
  | cons {c : Char} {piece t e : Text} (hpiece : piece ∈ escapesOf c) (hrest : Escaped t e) :
    Escaped (c :: t) (piece ++ e)

/-- A text with every ampersand that starts an entity escaped. -/
def guarded : Text → Text
  | [] => []
  | c :: rest =>
    if c = '&' ∧ completesEntity rest = true then "&amp;" ++ guarded rest else c :: guarded rest

lemma mem_escapesOf {c : Char} {piece : Text} (h : piece ∈ escapesOf c) :
    (∃ pair ∈ entities, piece = pair.1 ∧ pair.2 = [c]) ∨ piece = [c] ∧ c ≠ '&' := by
  unfold escapesOf at h
  split at h
  · exact .inl ⟨("&amp;", "&"), by decide, List.mem_singleton.mp h, rfl⟩
  · exact .inl ⟨("&lt;", "<"), by decide, List.mem_singleton.mp h, rfl⟩
  · exact .inl ⟨("&gt;", ">"), by decide, List.mem_singleton.mp h, rfl⟩
  · exact .inl ⟨("&quot;", "\""), by decide, List.mem_singleton.mp h, rfl⟩
  · rcases List.mem_pair.mp h with rfl | rfl
    · exact .inl ⟨("&#39;", "'"), by decide, rfl, rfl⟩
    · exact .inl ⟨("&apos;", "'"), by decide, rfl, rfl⟩
  · next hamp _ _ _ _ => exact .inr ⟨List.mem_singleton.mp h, hamp⟩

section

variable {t e : Text}

/-- Escaping neither makes nor breaks a name. -/
lemma Escaped.starts_name_iff (h : Escaped t e) {name : Text} (hamp : '&' ∉ name)
    (hname : ∀ pair ∈ entities, ∀ c ∈ pair.2, c ∉ name) :
    (∃ rest, e = name ++ rest) ↔ ∃ rest, t = name ++ rest := by
  induction name generalizing t e with
  | nil => exact ⟨fun _ => ⟨t, rfl⟩, fun _ => ⟨e, rfl⟩⟩
  | cons d name ih =>
    have htail : ∀ pair ∈ entities, ∀ c ∈ pair.2, c ∉ name := fun pair hmem c hc hin =>
      hname pair hmem c hc (List.mem_cons_of_mem d hin)
    cases h with
    | nil => exact ⟨nofun, nofun⟩
    | @cons c piece t e hpiece hrest =>
      obtain ⟨pair, hmem, rfl, hplain⟩ | ⟨rfl, -⟩ := mem_escapesOf hpiece
      · -- An entity starts with no character of a name, nor is what it stands for one.
        constructor
        · rintro ⟨rest, heq⟩
          rw [entity_eq hmem] at heq
          obtain ⟨rfl, -⟩ := List.cons.inj heq
          exact absurd List.mem_cons_self hamp
        · rintro ⟨rest, heq⟩
          obtain ⟨rfl, -⟩ := List.cons.inj heq
          exact absurd List.mem_cons_self (hname pair hmem c (by rw [hplain]; simp))
      · have hih := ih hrest (fun hin => hamp (List.mem_cons_of_mem d hin)) htail
        simp only [List.cons_append, List.nil_append, List.cons.injEq, exists_and_left, hih]

lemma Escaped.completesEntity_eq (h : Escaped t e) : completesEntity e = completesEntity t := by
  rw [Bool.eq_iff_iff, completesEntity_iff, completesEntity_iff]
  refine exists_congr fun pair => and_congr_right fun hmem => ?_
  refine h.starts_name_iff (amp_not_mem_name hmem) fun other hother c hc => ?_
  obtain ⟨d, hplain, hnames⟩ := plain_eq hother
  rw [hplain, List.mem_singleton] at hc
  rw [hc]
  exact hnames pair hmem

lemma Escaped.substituted (h : Escaped t e) (b : Before) :
    Substituted entityRule b e (guarded t) := by
  induction h generalizing b with
  | nil => exact .nil b
  | @cons c piece t e hpiece hrest ih =>
    rw [guarded]
    obtain ⟨pair, hmem, rfl, hplain⟩ | ⟨rfl, hamp⟩ := mem_escapesOf hpiece
    · have hrule := entityRule_entity (b := b) hmem e
      have hchar : c = '&' ↔ pair.1 = "&amp;" := by
        rw [← amp_eq hmem, hplain]
        simp
      rw [hrest.completesEntity_eq] at hrule
      by_cases hkept : pair.1 = "&amp;" ∧ completesEntity t = true
      · rw [if_pos hkept] at hrule
        rw [if_pos ⟨hchar.mpr hkept.1, hkept.2⟩, ← show pair.1 = "&amp;" from hkept.1]
        rw [entity_eq hmem] at hrule ⊢
        exact .keep hrule (.keep_piece (amp_not_mem_name hmem) (ih _))
      · rw [if_neg hkept] at hrule
        rw [if_neg fun h => hkept ⟨hchar.mp h.1, h.2⟩]
        rw [hplain] at hrule
        exact .swap (by rw [entity_eq hmem]; exact List.cons_ne_nil _ _) hrule (ih _)
    · rw [if_neg fun h => hamp h.1]
      exact .keep (entityRule_other hamp e) (ih _)

lemma length_le_guarded (t : Text) : t.length ≤ (guarded t).length := by
  induction t with
  | nil => exact Nat.le_refl 0
  | cons c t ih =>
    rw [guarded]
    split
    · exact Nat.le_trans (Nat.succ_le_succ ih) (by simp)
    · exact Nat.succ_le_succ ih

/-- Nothing is escaped in a text exactly if no entity stands in it. -/
lemma guarded_eq_iff : guarded t = t ↔ ∀ pair ∈ entities, ¬pair.1 <:+: t := by
  induction t with
  | nil =>
    refine ⟨fun _ pair hmem hin => ?_, fun _ => rfl⟩
    rw [entity_eq hmem] at hin
    exact List.cons_ne_nil _ _ (List.infix_nil.mp hin)
  | cons c t ih =>
    have hstarts : c = '&' ∧ completesEntity t = true ↔ ∃ pair ∈ entities, pair.1 <+: c :: t := by
      rw [completesEntity_iff]
      constructor
      · rintro ⟨rfl, pair, hmem, rest, rfl⟩
        exact ⟨pair, hmem, rest, by rw [entity_eq hmem]; rfl⟩
      · rintro ⟨pair, hmem, rest, heq⟩
        rw [entity_eq hmem] at heq
        obtain ⟨rfl, rfl⟩ := List.cons.inj heq
        exact ⟨rfl, pair, hmem, rest, rfl⟩
    simp only [List.infix_cons_iff, not_or]
    rw [guarded]
    split
    · next hamp =>
      obtain ⟨pair, hmem, hprefix⟩ := hstarts.mp hamp
      refine ⟨fun heq => ?_, fun hnone => absurd hprefix (hnone pair hmem).1⟩
      have hlength := congrArg List.length heq
      have hle := length_le_guarded t
      rw [List.length_append, List.length_cons] at hlength
      simp at hlength
      omega
    · next hamp =>
      have hnot : ∀ pair ∈ entities, ¬pair.1 <+: c :: t := fun pair hmem hprefix =>
        hamp (hstarts.mpr ⟨pair, hmem, hprefix⟩)
      rw [List.cons.injEq, and_iff_right rfl, ih]
      exact forall₂_congr fun pair hmem => (and_iff_right (hnot pair hmem)).symm

/-- Decoding undoes escaping, but for the ampersands that start an entity in the text. -/
theorem decodeEntities_escaped (h : Escaped t e) : decodeEntities e = guarded t :=
  (h.substituted .start).eq

/-- Decoding undoes the escaping of a text exactly if the text has no entity in it. -/
theorem decodeEntities_escaped_iff (h : Escaped t e) :
    decodeEntities e = t ↔ ∀ pair ∈ entities, ¬pair.1 <:+: t := by
  rw [decodeEntities_escaped h, guarded_eq_iff]

/-- Both ways to escape an apostrophe are undone. -/
theorem decodeEntities_escaped_quotes :
    Escaped "<'&'>" "&lt;&#39;&amp;&apos;&gt;" ∧
      decodeEntities "&lt;&#39;&amp;&apos;&gt;" = "<'&'>" := by
  have h : Escaped "<'&'>" "&lt;&#39;&amp;&apos;&gt;" :=
    @Escaped.cons '<' "&lt;" "'&'>" "&#39;&amp;&apos;&gt;" (by decide) <|
    @Escaped.cons '\'' "&#39;" "&'>" "&amp;&apos;&gt;" (by decide) <|
    @Escaped.cons '&' "&amp;" "'>" "&apos;&gt;" (by decide) <|
    @Escaped.cons '\'' "&apos;" ">" "&gt;" (by decide) <|
    @Escaped.cons '>' "&gt;" [] [] (by decide) .nil
  exact ⟨h, (decodeEntities_escaped_iff h).mpr (by decide)⟩

end

end Repair
end Marginalia
