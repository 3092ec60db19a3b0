import Marginalia.Proofs.Edits
import Marginalia.Proofs.Occurrences

/-!
# Marks that are exchanged

A rule that puts one text for another looks for a mark: a piece of text wherever it stands, or only
where it starts as a fresh word, or only where it is a word of its own. What is put can make marks
only where it overlaps them. If it overlaps none, a mark that stands in the text behind the exchanges
stood in the text before, and was not exchanged.
-/

namespace Marginalia

open Text Repair

/-! ## Texts that are left alone -/

/-- A text, read behind what is known, in which a rule applies nowhere. -/
def Spares (rule : Rule) (b : Before) : Text → Prop
  | [] => True
  | c :: rest => rule b (c :: rest) = none ∧ Spares rule (b.step c) rest

section

variable {rule : Rule} {b : Before} {t out : Text}

lemma Spares.substituteFrom_eq (h : Spares rule b t) : substituteFrom rule b 0 t = t := by
  induction t generalizing b with
  | nil => rfl
  | cons c rest ih => rw [substituteFrom, h.1, ih h.2]

lemma Spares.substitute_eq (h : Spares rule .start t) : substitute rule t = t := h.substituteFrom_eq

lemma spares_iff : Spares rule b t ↔
    ∀ front rest, t = front ++ rest → rest ≠ [] → rule (front.foldl Before.step b) rest = none := by
  induction t generalizing b with
  | nil =>
    refine ⟨fun _ front rest ht hne => ?_, fun _ => trivial⟩
    exact absurd (List.append_eq_nil_iff.mp ht.symm).2 hne
  | cons c t ih =>
    rw [Spares, ih]
    constructor
    · rintro ⟨hfirst, hlater⟩ front rest ht hne
      cases front with
      | nil =>
        obtain rfl : c :: t = rest := ht
        exact hfirst
      | cons d front =>
        obtain ⟨rfl, rfl⟩ := List.cons.inj ht
        exact hlater front rest rfl hne
    · intro h
      exact ⟨h [] (c :: t) rfl (List.cons_ne_nil c t),
        fun front rest ht hne => h (c :: front) rest (by rw [ht]; rfl) hne⟩

/-- What a substitution makes of a text is determined. -/
lemma Substituted.eq (h : Substituted rule b t out) : substituteFrom rule b 0 t = out := by
  induction h with
  | nil => rfl
  | keep hnone _ ih => rw [substituteFrom, hnone, ih]
  | swap hne hr _ ih => rw [substituteFrom_swap hne hr, ih]

/-- A text stays what it is exactly if a rule that never puts what is there applies nowhere. -/
lemma Substituted.eq_iff_spares (hrule : ∀ b t n new, rule b t = some (n, new) → ¬ new <+: t)
    (h : Substituted rule b t out) : out = t ↔ Spares rule b t := by
  induction h with
  | nil => exact ⟨fun _ => trivial, fun _ => rfl⟩
  | keep hnone _ ih => rw [List.cons_inj_right, ih, Spares, and_iff_right hnone]
  | @swap b old new rest out hne hr _ _ =>
    constructor
    · intro heq
      exact absurd ⟨out, heq⟩ (hrule _ _ _ _ hr)
    · intro hspares
      obtain ⟨c, old, rfl⟩ := List.exists_cons_of_ne_nil hne
      exact absurd (hr.symm.trans hspares.1) nofun

/-- A front part of a text in which the rule applies nowhere is kept. -/
lemma Substituted.exists_kept {front rest : Text} (h : Substituted rule b (front ++ rest) out)
    (hnone : ∀ head c tail, front = head ++ c :: tail →
      rule (head.foldl Before.step b) (c :: (tail ++ rest)) = none) :
    ∃ out', out = front ++ out' ∧ Substituted rule (front.foldl Before.step b) rest out' := by
  induction front generalizing b out with
  | nil => exact ⟨out, rfl, h⟩
  | cons c front ih =>
    have hfirst : rule b (c :: front ++ rest) = none := hnone [] c front rfl
    have hlater := fun {out'} (hrest : Substituted rule (b.step c) (front ++ rest) out') =>
      ih hrest fun head d tail ht => hnone (c :: head) d tail (by rw [ht]; rfl)
    generalize ht : c :: front ++ rest = t at h hfirst
    cases h with
    | nil => cases ht
    | keep _ hrest =>
      obtain ⟨rfl, rfl⟩ := List.cons.inj ht
      obtain ⟨out', rfl, hout⟩ := hlater hrest
      exact ⟨out', rfl, hout⟩
    | swap _ hr _ =>
      rw [hfirst] at hr
      cases hr

/-- A front part of the outcome in which nothing was put was there before, and was kept. -/
lemma Substituted.exists_of_kept {front rest : Text} (h : Substituted rule b t (front ++ rest))
    (hput : ∀ head tail old new t' out', front = head ++ tail → tail ≠ [] →
      rule (head.foldl Before.step b) (old ++ t') = some (old.length, new) →
      Substituted rule ((head ++ old).foldl Before.step b) t' out' → tail ++ rest ≠ new ++ out') :
    ∃ t', t = front ++ t' ∧ Substituted rule (front.foldl Before.step b) t' rest ∧
      (front ≠ [] → rule b t = none) := by
  induction front generalizing b t with
  | nil => exact ⟨t, rfl, h, fun hne => absurd rfl hne⟩
  | cons c front ih =>
    generalize hout : c :: front ++ rest = out at h
    cases h with
    | nil => cases hout
    | keep hnone hrest =>
      obtain ⟨rfl, rfl⟩ := List.cons.inj hout
      obtain ⟨t', rfl, ht', -⟩ := ih hrest fun head tail old new t' out' hfront =>
        hput (c :: head) tail old new t' out' (by rw [hfront]; rfl)
      exact ⟨t', rfl, ht', fun _ => hnone⟩
    | swap hne hr hrest =>
      refine absurd hout (hput [] (c :: front) _ _ _ _ rfl (List.cons_ne_nil c front) hr ?_)
      exact hrest

end

/-! ## Marks -/

/-- A piece of text that a rule looks for, and where. -/
structure Mark where
  text : Text
  /-- Only where a word may start. -/
  fresh : Bool
  /-- Only where no word goes on behind it. -/
  whole : Bool
deriving DecidableEq

namespace Mark

/-- A piece of text wherever it stands. -/
def anywhere (t : Text) : Mark := ⟨t, false, false⟩

/-- A piece of text as a word of its own. -/
def word (t : Text) : Mark := ⟨t, true, true⟩

/-- Whether the mark stands at the start of a text that follows a character. -/
def standsAt (m : Mark) (prev : Option Char) (t : Text) : Bool :=
  (!m.fresh || isFresh prev) &&
    (after? m.text t).any fun rest => !(m.whole && continuesWord rest)

/-- Whether two marks can start at the same place, wherever that is. -/
def fits (m m' : Mark) : Bool :=
  (after? m.text m'.text).any (fun rest => !(m.whole && continuesWord rest)) ||
    (after? m'.text m.text).any fun rest => !(m'.whole && continuesWord rest)

/-- Whether another mark can start inside the mark, behind its first character. -/
def overlaps (m m' : Mark) : Bool :=
  match m.text with
  | [] => false
  | c :: rest => anyPlace (fun prev t => (!m'.fresh || isFresh prev) &&
      fits ⟨t, m.fresh, m.whole⟩ m') (some c) rest

/-- Marks that cannot share a character. -/
def Apart (m m' : Mark) : Prop :=
  m.fits m' = false ∧ m.overlaps m' = false ∧ m'.overlaps m = false

instance (m m' : Mark) : Decidable (m.Apart m') :=
  inferInstanceAs (Decidable (m.fits m' = false ∧ m.overlaps m' = false ∧ m'.overlaps m = false))

variable {m m' : Mark} {prev prev' : Option Char} {t : Text}

lemma standsAt_iff : m.standsAt prev t = true ↔ ∃ rest, t = m.text ++ rest ∧
    (m.fresh = true → isFresh prev = true) ∧ (m.whole = true → continuesWord rest = false) := by
  simp only [standsAt, Bool.and_eq_true, Bool.or_eq_true, Bool.not_eq_true', Option.any_eq_true,
    after?_eq_some_iff, Bool.and_eq_false_iff]
  constructor
  · rintro ⟨hfresh, rest, ht, hwhole⟩
    exact ⟨rest, ht, fun h => hfresh.resolve_left (by simp [h]),
      fun h => hwhole.resolve_left (by simp [h])⟩
  · rintro ⟨rest, ht, hfresh, hwhole⟩
    refine ⟨?_, rest, ht, ?_⟩
    · cases hm : m.fresh with
      | false => exact .inl rfl
      | true => exact .inr (hfresh hm)
    · cases hm : m.whole with
      | false => exact .inl rfl
      | true => exact .inr (hwhole hm)

/-- A mark stands in a text between what comes before and what follows. -/
structure StandsIn (m : Mark) (t front rest : Text) : Prop where
  split : t = front ++ (m.text ++ rest)
  starts : m.fresh = true → isFresh (lastOf none front) = true
  ends : m.whole = true → continuesWord rest = false

lemma StandsIn.standsAt {front rest : Text} (h : m.StandsIn t front rest) :
    m.standsAt (lastOf none front) (m.text ++ rest) = true :=
  standsAt_iff.mpr ⟨rest, rfl, h.starts, h.ends⟩

lemma standsIn_of_standsAt {front rest : Text}
    (h : m.standsAt (lastOf none front) (m.text ++ rest) = true) :
    m.StandsIn (front ++ (m.text ++ rest)) front rest := by
  obtain ⟨rest', heq, hstarts, hends⟩ := standsAt_iff.mp h
  obtain rfl := List.append_cancel_left heq
  exact ⟨rfl, hstarts, hends⟩

lemma continuesWord_ahead {t : Text} (ht : t ≠ []) (rest : Text) :
    continuesWord (t ++ rest) = continuesWord t := by
  obtain ⟨c, t, rfl⟩ := List.exists_cons_of_ne_nil ht
  rfl

lemma fits_of_stand {rest rest' : Text} (h : m.text ++ rest = m'.text ++ rest')
    (hwhole : m.whole = true → continuesWord rest = false)
    (hwhole' : m'.whole = true → continuesWord rest' = false) : m.fits m' = true := by
  have hends : ∀ (whole : Bool) (more behind : Text),
      (whole = true → continuesWord (more ++ behind) = false) →
      (whole && continuesWord more) = false := by
    intro whole more behind h
    cases whole with
    | false => rfl
    | true =>
      cases more with
      | nil => rfl
      | cons c more => exact h rfl
  simp only [fits, Bool.or_eq_true, Option.any_eq_true, after?_eq_some_iff, Bool.not_eq_true']
  rcases List.append_eq_append_iff.mp h with ⟨more, hmore, rfl⟩ | ⟨more, hmore, rfl⟩
  · exact .inl ⟨more, hmore, hends m.whole more rest' hwhole⟩
  · exact .inr ⟨more, hmore, hends m'.whole more rest hwhole'⟩

lemma overlaps_of_stand {head tail rest : Text} (htext : m.text = head ++ tail) (hhead : head ≠ [])
    (htail : tail ≠ []) (hwhole : m.whole = true → continuesWord rest = false)
    (h : m'.standsAt head.getLast? (tail ++ rest) = true) : m.overlaps m' = true := by
  obtain ⟨rest', hsplit, hfresh, hwhole'⟩ := standsAt_iff.mp h
  obtain ⟨c, head, rfl⟩ := List.exists_cons_of_ne_nil hhead
  have hfits : fits ⟨tail, m.fresh, m.whole⟩ m' = true := fits_of_stand hsplit hwhole hwhole'
  rw [overlaps, htext]
  refine anyPlace_iff.mpr ⟨head, tail, rfl, htail, ?_⟩
  rw [hfits, Bool.and_true, Bool.or_eq_true, Bool.not_eq_true', ← lastOf_cons none,
    lastOf_of_ne_nil none (List.cons_ne_nil c head)]
  cases hm : m'.fresh with
  | false => exact .inl rfl
  | true => exact .inr (hfresh hm)

end Mark

/-- Puts a text for a mark. -/
def Rule.mark (m : Mark) (new : Text) : Rule := fun b t =>
  if m.standsAt b.prev t then some (m.text.length, new) else none

/-- Texts that start and end alike, as far as words go. -/
def EdgedAlike (t t' : Text) : Prop :=
  (t ≠ [] ∧ t' ≠ []) ∧ continuesWord t' = continuesWord t ∧
    isFresh t'.getLast? = isFresh t.getLast?

instance (t t' : Text) : Decidable (EdgedAlike t t') :=
  inferInstanceAs (Decidable ((t ≠ [] ∧ t' ≠ []) ∧ continuesWord t' = continuesWord t ∧
    isFresh t'.getLast? = isFresh t.getLast?))

section

variable {m m' : Mark} {new t out : Text} {b : Before}

lemma Rule.mark_eq_some {n : Nat} {put : Text} (h : Rule.mark m new b t = some (n, put)) :
    m.standsAt b.prev t = true ∧ n = m.text.length ∧ put = new := by
  rw [Rule.mark] at h
  split at h
  · next hstands =>
    obtain ⟨rfl, rfl⟩ := Prod.mk.inj (Option.some.inj h)
    exact ⟨hstands, rfl, rfl⟩
  · cases h

lemma Rule.mark_eq_none_iff : Rule.mark m new b t = none ↔ m.standsAt b.prev t = false := by
  rw [Rule.mark]
  split
  · next hstands => simp [hstands]
  · next hstands => simp [hstands]

lemma Rule.takes_mark (hm : m.text ≠ []) : (Rule.mark m new).Takes := by
  intro b t n put h
  obtain ⟨hstands, rfl, -⟩ := Rule.mark_eq_some h
  obtain ⟨rest, rfl, -⟩ := Mark.standsAt_iff.mp hstands
  exact ⟨m.text, rest, rfl, rfl, hm⟩

/-- What is exchanged at a place. -/
lemma Rule.mark_swap {old rest put : Text}
    (h : Rule.mark m new b (old ++ rest) = some (old.length, put)) :
    old = m.text ∧ put = new ∧ (m.fresh = true → isFresh b.prev = true) ∧
      (m.whole = true → continuesWord rest = false) := by
  obtain ⟨hstands, hlength, hput⟩ := Rule.mark_eq_some h
  obtain ⟨rest', ht, hfresh, hwhole⟩ := Mark.standsAt_iff.mp hstands
  obtain ⟨hold, rfl⟩ := List.append_inj ht hlength
  exact ⟨hold, hput, hfresh, hwhole⟩

lemma Substituted.continuesWord_eq (halike : EdgedAlike m.text new)
    (h : Substituted (.mark m new) b t out) : continuesWord out = continuesWord t := by
  cases h with
  | nil => rfl
  | keep _ _ => rfl
  | swap hne hr _ =>
    obtain ⟨rfl, rfl, -⟩ := Rule.mark_swap hr
    rw [Mark.continuesWord_ahead halike.1.2, Mark.continuesWord_ahead halike.1.1, halike.2.1]

lemma prev_foldl_step (b : Before) (t : Text) : (t.foldl Before.step b).prev = lastOf b.prev t := by
  rw [foldl_step]

/-- A mark with which the outcome starts, and that what is put shares no character with, stood there
before and was kept. -/
lemma Substituted.stood_first (halike : EdgedAlike m.text new)
    (hapart : Mark.Apart { m with text := new } m') (hm' : m'.text ≠ [])
    (h : Substituted (.mark m new) b t out) {prev : Option Char}
    (hprev : isFresh prev = isFresh b.prev) (hstands : m'.standsAt prev out = true) :
    ∃ rest rest', t = m'.text ++ rest ∧ out = m'.text ++ rest' ∧
      m'.standsAt b.prev t = true ∧ Rule.mark m new b t = none ∧
      Substituted (.mark m new) (m'.text.foldl Before.step b) rest rest' := by
  obtain ⟨hfits, -, haround⟩ := hapart
  obtain ⟨rest', rfl, hfresh, hwhole⟩ := Mark.standsAt_iff.mp hstands
  obtain ⟨rest, rfl, hrest, hnone⟩ := h.exists_of_kept <| by
    intro head tail old put t' out' htext htail hr hbehind heq
    obtain ⟨rfl, rfl, hfresh', hwhole'⟩ := Rule.mark_swap hr
    have hends : m.whole = true → continuesWord out' = false := fun hm => by
      rw [hbehind.continuesWord_eq halike, hwhole' hm]
    rcases List.eq_nil_or_concat' head with rfl | ⟨head, c, rfl⟩
    · obtain rfl : m'.text = tail := htext
      have hmeet : Mark.fits { m with text := put } m' = true :=
        Mark.fits_of_stand heq.symm hends hwhole
      rw [hfits] at hmeet
      cases hmeet
    · have hhead : head ++ [c] ≠ [] := List.append_ne_nil_of_right_ne_nil _ (List.cons_ne_nil c [])
      have hplace : Mark.standsAt { m with text := put } (head ++ [c]).getLast? (tail ++ rest') :=
        Mark.standsAt_iff.mpr ⟨out', heq, fun hm => by
          rw [← lastOf_of_ne_nil b.prev hhead, ← prev_foldl_step]
          exact hfresh' hm, hends⟩
      have hmeet := Mark.overlaps_of_stand htext hhead htail hwhole hplace
      rw [haround] at hmeet
      cases hmeet
  refine ⟨rest, rest', rfl, rfl, Mark.standsAt_iff.mpr ⟨rest, rfl, ?_, ?_⟩, hnone hm', hrest⟩
  · rw [← hprev]
    exact hfresh
  · rw [← hrest.continuesWord_eq halike]
    exact hwhole

/-- A mark that what is put shares no character with does not start inside of it. -/
lemma Mark.exists_passed {front behind : Text}
    (hapart : Mark.overlaps { m with text := new } m' = false)
    (hends : m.whole = true → continuesWord out = false) (hfront : front ≠ [])
    (hstands : m'.standsAt front.getLast? behind = true) (hout : new ++ out = front ++ behind) :
    ∃ more, front = new ++ more ∧ out = more ++ behind := by
  rcases List.append_eq_append_iff.mp hout with ⟨more, hmore, hout⟩ | ⟨more, hnew, rfl⟩
  · exact ⟨more, hmore, hout⟩
  · by_cases hmore : more = []
    · subst hmore
      exact ⟨[], by rw [hnew, List.append_nil, List.append_nil], rfl⟩
    · have hinside : Mark.overlaps { m with text := new } m' = true :=
        Mark.overlaps_of_stand hnew hfront hmore hends hstands
      rw [hapart] at hinside
      cases hinside

/-- A mark that stands in the outcome, and that what is put shares no character with, stood in the
text before and was kept. -/
theorem Substituted.stood (halike : EdgedAlike m.text new)
    (hapart : Mark.Apart { m with text := new } m') (hm' : m'.text ≠ [])
    (h : Substituted (.mark m new) b t out) {prev : Option Char}
    (hprev : isFresh prev = isFresh b.prev) {front behind : Text} (hout : out = front ++ behind)
    (hstands : m'.standsAt (lastOf prev front) behind = true) :
    ∃ front' rest rest', t = front' ++ (m'.text ++ rest) ∧ behind = m'.text ++ rest' ∧
      m'.standsAt (lastOf b.prev front') (m'.text ++ rest) = true ∧
      Rule.mark m new (front'.foldl Before.step b) (m'.text ++ rest) = none ∧
      Substituted (.mark m new) ((front' ++ m'.text).foldl Before.step b) rest rest' := by
  -- The exchanges and kept characters are passed one by one until the mark comes first. It cannot
  -- start inside a piece that was put.
  induction h generalizing prev front with
  | nil =>
    obtain ⟨-, rfl⟩ := List.append_eq_nil_iff.mp hout.symm
    obtain ⟨rest, hnil, -⟩ := Mark.standsAt_iff.mp hstands
    exact absurd (List.append_eq_nil_iff.mp hnil.symm).1 hm'
  | @keep b c t out hnone hbehind ih =>
    cases front with
    | nil =>
      obtain rfl : c :: out = behind := hout
      obtain ⟨rest, rest', ht, hout, hplace, hnone, hrest⟩ :=
        (Substituted.keep hnone hbehind).stood_first halike hapart hm' hprev hstands
      rw [ht] at hplace hnone
      exact ⟨[], rest, rest', ht, hout, hplace, hnone, hrest⟩
    | cons d front =>
      obtain ⟨rfl, rfl⟩ := List.cons.inj hout
      rw [lastOf_cons] at hstands
      obtain ⟨front', rest, rest', rfl, rfl, hplace, hnone, hrest⟩ := ih rfl rfl hstands
      exact ⟨c :: front', rest, rest', rfl, rfl, by rwa [lastOf_cons], hnone, hrest⟩
  | @swap b old put t out hne hr hbehind ih =>
    cases front with
    | nil =>
      obtain rfl : put ++ out = behind := hout
      obtain ⟨rest, rest', ht, hout, hplace, hnone, hrest⟩ :=
        (Substituted.swap hne hr hbehind).stood_first halike hapart hm' hprev hstands
      rw [ht] at hplace hnone
      exact ⟨[], rest, rest', ht, hout, hplace, hnone, hrest⟩
    | cons d front =>
      obtain ⟨rfl, rfl, -, hwhole⟩ := Rule.mark_swap hr
      have hends : m.whole = true → continuesWord out = false := fun hm => by
        rw [hbehind.continuesWord_eq halike, hwhole hm]
      obtain ⟨more, hfront, hmore⟩ :=
        Mark.exists_passed hapart.2.1 hends (List.cons_ne_nil d front)
          (by rwa [← lastOf_of_ne_nil prev (List.cons_ne_nil d front)]) hout
      rw [hfront, lastOf_append] at hstands
      have hlast : isFresh (lastOf prev put) = isFresh (m.text.foldl Before.step b).prev := by
        rw [prev_foldl_step, lastOf_of_ne_nil _ halike.1.1, lastOf_of_ne_nil _ halike.1.2,
          halike.2.2]
      obtain ⟨front', rest, rest', rfl, rfl, hplace, hnone, hrest⟩ := ih hlast hmore hstands
      rw [← List.foldl_append] at hnone hrest
      rw [prev_foldl_step, ← lastOf_append] at hplace
      exact ⟨m.text ++ front', rest, rest', by rw [List.append_assoc], rfl, hplace, hnone,
        by rwa [List.append_assoc]⟩

/-- A mark that what is put shares no character with does not come into a text: where it stands, it
stood before, and what follows it is what the exchanges make of what followed it. The mark that is
exchanged does not stand in the text any more. -/
lemma exists_standsIn (halike : EdgedAlike m.text new)
    (hapart : Mark.Apart { m with text := new } m') (hm' : m'.text ≠ []) {front rest : Text}
    (h : m'.StandsIn (t.substitute (.mark m new)) front rest) :
    m' ≠ m ∧ ∃ front' rest', m'.StandsIn t front' rest' ∧
      rest = substituteFrom (.mark m new) (placeBehind (front' ++ m'.text)) 0 rest' := by
  have hsub := substituted_substitute (@Rule.takes_mark m new halike.1.1) t
  obtain ⟨front', rest', rest'', rfl, hrest, hplace, hnone, hbehind⟩ :=
    hsub.stood halike hapart hm' rfl h.split h.standsAt
  obtain rfl := List.append_cancel_left hrest
  refine ⟨?_, front', rest', Mark.standsIn_of_standsAt hplace, hbehind.eq.symm⟩
  rintro rfl
  rw [Rule.mark_eq_none_iff, prev_foldl_step, hplace] at hnone
  cases hnone

/-- Marks that what is put shares no character with do not come into a text. -/
lemma Substituted.spares {new' : Text} (halike : EdgedAlike m.text new)
    (hapart : Mark.Apart { m with text := new } m') (hm' : m'.text ≠ [])
    (h : Substituted (.mark m new) b t out) (hspares : Spares (.mark m' new') b t) :
    Spares (.mark m' new') b out := by
  rw [spares_iff] at hspares ⊢
  intro front behind hout _
  rw [Rule.mark_eq_none_iff, prev_foldl_step, Bool.eq_false_iff]
  intro hstands
  obtain ⟨front', rest, rest', rfl, -, hplace, -, -⟩ :=
    h.stood halike hapart hm' rfl hout hstands
  have hnone := hspares front' (m'.text ++ rest) rfl
    (List.append_ne_nil_of_left_ne_nil hm' rest)
  rw [Rule.mark_eq_none_iff, prev_foldl_step, hplace] at hnone
  cases hnone

/-- A mark that what is put for it shares no character with is gone from a text. -/
lemma Substituted.spares_self (halike : EdgedAlike m.text new)
    (hapart : Mark.Apart { m with text := new } m) (h : Substituted (.mark m new) b t out) :
    Spares (.mark m new) b out := by
  rw [spares_iff]
  intro front behind hout _
  rw [Rule.mark_eq_none_iff, prev_foldl_step, Bool.eq_false_iff]
  intro hstands
  obtain ⟨front', rest, rest', rfl, -, hplace, hnone, -⟩ :=
    h.stood halike hapart halike.1.1 rfl hout hstands
  rw [Rule.mark_eq_none_iff, prev_foldl_step, hplace] at hnone
  cases hnone

/-- A piece that a mark shares no character with is kept. -/
lemma Substituted.exists_kept_piece {piece rest : Text}
    (hpiece : Mark.fits m (.anywhere piece) = false)
    (hinside : Mark.overlaps (.anywhere piece) m = false)
    (h : Substituted (.mark m new) b (piece ++ rest) out) : ∃ out', out = piece ++ out' := by
  obtain ⟨out', hout, -⟩ := h.exists_kept <| by
    intro head c tail hsplit
    rw [Rule.mark_eq_none_iff, prev_foldl_step, Bool.eq_false_iff]
    intro hstands
    obtain ⟨behind, heq, -, hwhole⟩ := Mark.standsAt_iff.mp hstands
    rcases List.eq_nil_or_concat' head with rfl | ⟨head, d, rfl⟩
    · have hboth : m.text ++ behind = (Mark.anywhere piece).text ++ rest := by
        rw [← heq, hsplit]
        rfl
      have hmeet : Mark.fits m (.anywhere piece) = true := Mark.fits_of_stand hboth hwhole nofun
      rw [hpiece] at hmeet
      cases hmeet
    · have hhead : head ++ [d] ≠ [] := List.append_ne_nil_of_right_ne_nil _ (List.cons_ne_nil d [])
      rw [lastOf_of_ne_nil _ hhead] at hstands
      have hends : (Mark.anywhere piece).whole = true → continuesWord rest = false := nofun
      have hmeet := Mark.overlaps_of_stand (m := .anywhere piece) hsplit hhead
        (List.cons_ne_nil c tail) hends hstands
      rw [hinside] at hmeet
      cases hmeet
  exact ⟨out', hout⟩

end

/-! ## Tables of marks -/

lemma Rule.word_eq_mark (old new : Text) : Rule.word old new = Rule.mark (.word old) new := by
  funext b t
  have hstands : (Mark.word old).standsAt b.prev t =
      (b.fresh && t.startsWith old && !continuesWord (t.drop old.length)) := by
    cases hafter : after? old t with
    | none => simp [Mark.standsAt, Mark.word, startsWith, hafter]
    | some rest =>
      obtain rfl := (after?_eq_some_iff _ _ _).mp hafter
      simp [Mark.standsAt, Mark.word, startsWith, hafter, Before.fresh]
  rw [Rule.word, Rule.mark, hstands]
  rfl

/-- Puts, for each mark of a table in turn, the text that is put for it. -/
def Text.exchangeAll (table : List (Mark × Text)) (t : Text) : Text :=
  table.foldl (fun t fix => t.substitute (.mark fix.1 fix.2)) t

/-- A table in which nothing that is put shares a character with a mark. -/
def Settled (table : List (Mark × Text)) : Prop :=
  ∀ fix ∈ table, EdgedAlike fix.1.text fix.2 ∧
    ∀ other ∈ table, Mark.Apart { fix.1 with text := fix.2 } other.1

instance (table : List (Mark × Text)) : Decidable (Settled table) :=
  inferInstanceAs (Decidable (∀ fix ∈ table, EdgedAlike fix.1.text fix.2 ∧
    ∀ other ∈ table, Mark.Apart { fix.1 with text := fix.2 } other.1))

section

variable {table : List (Mark × Text)}

lemma substituted_mark {m : Mark} {new : Text} (halike : EdgedAlike m.text new) (t : Text) :
    Substituted (.mark m new) .start t (t.substitute (.mark m new)) :=
  substituted_substitute (Rule.takes_mark halike.1.1) t

/-- What the exchanges of a settled table put makes none of its marks again. -/
lemma Settled.keeps_spares (h : Settled table) {fixes : List (Mark × Text)}
    (hfixes : ∀ other ∈ fixes, other ∈ table) {fix : Mark × Text} (hfix : fix ∈ table) {t : Text}
    (ht : Spares (.mark fix.1 fix.2) .start t) :
    Spares (.mark fix.1 fix.2) .start (t.exchangeAll fixes) := by
  induction fixes generalizing t with
  | nil => exact ht
  | cons other fixes ih =>
    obtain ⟨hother, hfixes⟩ := List.forall_mem_cons.mp hfixes
    have halike := (h other hother).1
    exact ih hfixes ((substituted_mark halike t).spares halike ((h other hother).2 fix hfix)
      (h fix hfix).1.1.1 ht)

/-- Behind the exchanges of a settled table none of its marks stands in the text. -/
theorem Settled.spares (h : Settled table) (t : Text) :
    ∀ fix ∈ table, Spares (.mark fix.1 fix.2) .start (t.exchangeAll table) := by
  have hall : ∀ {fixes : List (Mark × Text)} {t : Text}, (∀ other ∈ fixes, other ∈ table) →
      ∀ fix ∈ fixes, Spares (.mark fix.1 fix.2) .start (t.exchangeAll fixes) := by
    intro fixes t hfixes
    induction fixes generalizing t with
    | nil => exact nofun
    | cons fix fixes ih =>
      obtain ⟨hfix, hfixes⟩ := List.forall_mem_cons.mp hfixes
      have hgone := (substituted_mark (h fix hfix).1 t).spares_self (h fix hfix).1
        ((h fix hfix).2 fix hfix)
      exact List.forall_mem_cons.mpr ⟨h.keeps_spares hfixes hfix hgone, ih hfixes⟩
  exact hall fun _ hmem => hmem

/-- A text in which no mark of a table stands is left as it is. -/
lemma exchangeAll_eq {t : Text} (h : ∀ fix ∈ table, Spares (.mark fix.1 fix.2) .start t) :
    t.exchangeAll table = t := by
  induction table with
  | nil => rfl
  | cons fix table ih =>
    obtain ⟨hfix, hrest⟩ := List.forall_mem_cons.mp h
    rw [Text.exchangeAll, List.foldl_cons, hfix.substitute_eq]
    exact ih hrest

/-- The exchanges of a settled table leave nothing to exchange. -/
theorem Settled.exchangeAll_exchangeAll (h : Settled table) (t : Text) :
    (t.exchangeAll table).exchangeAll table = t.exchangeAll table :=
  exchangeAll_eq (h.spares t)

end

end Marginalia
