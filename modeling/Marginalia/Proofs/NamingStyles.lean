import Marginalia.Naming.Intent
import Marginalia.Proofs.NameWords

/-!
# Styles of names

The same words may be written with separators between them, or run together with a capital at the
start of each. Whatever the style is, splitting the name gives back the words, so the name tells the
same. Words that are all capitals are found again if a word with only one capital follows.
-/

namespace Marginalia.Naming

open Text

/-! ## Writing words as a name -/

/-- A word with a capital. -/
def capitalized : Text → Text
  | [] => []
  | c :: rest => c.toUpper :: rest

/-- A word all in capitals. -/
def shout (word : Text) : Text := word.map Char.toUpper

/-- Words that run together, each with a capital. The words whose numbers are given as shouted are all
in capitals. -/
def pascalCase (shouted : Nat → Bool) (words : List Text) : Text :=
  (words.mapIdx fun i word => if shouted i then shout word else capitalized word).flatten

/-- Words that run together, each but the first one with a capital. -/
def camelCase (shouted : Nat → Bool) : List Text → Text
  | [] => []
  | word :: words =>
    (if shouted 0 then shout word else word) ++ pascalCase (fun i => shouted (i + 1)) words

/-- Of the first `n` words no two neighbours are shouted. -/
def Apart (shouted : Nat → Bool) (n : Nat) : Prop :=
  ∀ i, i + 1 < n → shouted i = true → shouted (i + 1) = false

/-- A name is written from words, in one of the styles. -/
inductive Spells (words : List Text) : Text → Prop
  | snake : Spells words (join "_" words)
  | kebab : Spells words (join "-" words)
  | screamingSnake : Spells words (join "_" (words.map shout))
  | camel (shouted : Nat → Bool) (h : Apart shouted words.length) :
    Spells words (camelCase shouted words)
  | pascal (shouted : Nat → Bool) (h : Apart shouted words.length) :
    Spells words (pascalCase shouted words)

lemma Apart.tail {shouted : Nat → Bool} {n : Nat} (h : Apart shouted (n + 1)) :
    Apart (fun i => shouted (i + 1)) n :=
  fun i hi => h (i + 1) (by omega)

/-! ## Letters -/

/-- A capital letter of ASCII. -/
structure IsCapital (c : Char) : Prop where
  upper : isUpper c = true
  notLower : isLower c = false
  notDigit : isAsciiDigit c = false
  alphanumeric : isAlphanumeric c = true
  ascii : c.toNat < 128

/-- A small letter of ASCII, with its capital. -/
structure IsSmall (c : Char) : Prop where
  lower : isLower c = true
  notUpper : isUpper c = false
  alphanumeric : isAlphanumeric c = true
  ascii : c.toNat < 128
  toLower : c.toLower = c
  capital : IsCapital c.toUpper
  toLower_toUpper : c.toUpper.toLower = c

lemma isSmall_of_isLower {c : Char} (hc : c.isLower = true) : IsSmall c := by
  have hascii : c.toNat < 128 := by
    have hz : c.val ≤ ('z' : Char).val := of_decide_eq_true (Bool.and_eq_true_iff.mp hc).2
    have hnat : c.toNat ≤ 122 := UInt32.le_iff_toNat_le.mp hz
    omega
  obtain ⟨hlower, hupper, halpha, hself⟩ := ascii_forall (P := fun c => c.isLower = true →
    isLower c = true ∧ isUpper c = false ∧ isAlphanumeric c = true ∧ c.toLower = c)
    (by decide +kernel) hascii hc
  obtain ⟨hcapital, hlow, hdigit, hword, hnat, hback⟩ := ascii_forall (P := fun c =>
    c.isLower = true → isUpper c.toUpper = true ∧ isLower c.toUpper = false ∧
      isAsciiDigit c.toUpper = false ∧ isAlphanumeric c.toUpper = true ∧ c.toUpper.toNat < 128 ∧
      c.toUpper.toLower = c)
    (by decide +kernel) hascii hc
  exact ⟨hlower, hupper, halpha, hascii, hself, ⟨hcapital, hlow, hdigit, hword, hnat⟩, hback⟩

/-! ## Words in small letters and in capitals -/

/-- A word in small letters. -/
def IsSmallWord (word : Text) : Prop := ∀ c ∈ word, IsSmall c

variable {word t : Text} {c : Char}

lemma IsSmallWord.lower (h : IsSmallWord word) : Text.lower word = word := by
  rw [lower_ascii fun c hc => (h c hc).ascii]
  exact (List.map_congr_left fun c hc => (h c hc).toLower).trans (List.map_id word)

lemma IsSmallWord.isCapital (h : IsSmallWord word) (hc : c ∈ shout word) : IsCapital c := by
  obtain ⟨d, hd, rfl⟩ := List.mem_map.mp hc
  exact (h d hd).capital

lemma IsSmallWord.lower_shout (h : IsSmallWord word) : Text.lower (shout word) = word := by
  rw [lower_ascii fun c hc => (h.isCapital hc).ascii, shout, List.map_map]
  exact (List.map_congr_left fun c hc => (h c hc).toLower_toUpper).trans (List.map_id word)

lemma IsSmallWord.lower_capitalized (h : IsSmallWord word) :
    Text.lower (capitalized word) = word := by
  cases word with
  | nil => rfl
  | cons c rest =>
    rw [IsSmallWord, List.forall_mem_cons] at h
    obtain ⟨hc, hrest⟩ := h
    have hlower := IsSmallWord.lower hrest
    rw [lower_ascii fun d hd => (hrest d hd).ascii] at hlower
    rw [capitalized, lower_ascii, List.map_cons, hc.toLower_toUpper, hlower]
    exact List.forall_mem_cons.mpr ⟨hc.capital.ascii, fun d hd => (hrest d hd).ascii⟩

lemma IsSmallWord.alphanumeric_capitalized (h : IsSmallWord word) (hc : c ∈ capitalized word) :
    isAlphanumeric c = true := by
  cases word with
  | nil => cases hc
  | cons d rest =>
    rw [IsSmallWord, List.forall_mem_cons] at h
    obtain rfl | hc := List.mem_cons.mp hc
    · exact h.1.capital.alphanumeric
    · exact (h.2 c hc).alphanumeric

/-! ## Where words end -/

/-- A text that starts with a capital, if it is not empty. -/
def StartsCapital (t : Text) : Prop := ∀ c ∈ t.head?, IsCapital c

/-- A text that starts with a capital and a small letter, if it is not empty. -/
def StartsCapitalized (t : Text) : Prop :=
  t = [] ∨ ∃ c d rest, t = c :: d :: rest ∧ IsCapital c ∧ IsSmall d

lemma StartsCapitalized.startsCapital (h : StartsCapitalized t) : StartsCapital t := by
  rintro c hc
  obtain rfl | ⟨d, e, rest, rfl, hd, -⟩ := h
  · cases hc
  · obtain rfl : d = c := Option.some.inj hc
    exact hd

lemma humpsAfter_start {prev : Char}
    (h : ∀ c rest, t = c :: rest → startsWord prev c rest.head? = true) :
    humpsAfter prev t = ([], humps t) := by
  cases t with
  | nil => rfl
  | cons c rest =>
    rw [humpsAfter_cons, if_pos (h c rest rfl)]
    rfl

lemma getLastD_holds {P : Char → Prop} {run : Text} {prev : Char} (hprev : P prev)
    (hrun : ∀ c ∈ run, P c) : P (run.getLastD prev) := by
  induction run generalizing prev with
  | nil => exact hprev
  | cons c run ih =>
    rw [List.forall_mem_cons] at hrun
    rw [List.getLastD_cons]
    exact ih hrun.1 hrun.2

/-- Small letters end a word before a capital. -/
lemma humps_small {low : Text} (hlow : IsSmallWord low) (hne : low ≠ []) (ht : StartsCapital t) :
    humps (c :: (low ++ t)) = (c :: low) :: humps t := by
  have hlast : IsSmall (low.getLastD c) := by
    obtain ⟨d, low, rfl⟩ := List.exists_cons_of_ne_nil hne
    rw [IsSmallWord, List.forall_mem_cons] at hlow
    rw [List.getLastD_cons]
    exact getLastD_holds hlow.1 hlow.2
  have hstart : humpsAfter (low.getLastD c) t = ([], humps t) := by
    refine humpsAfter_start fun d rest heq => ?_
    have hd : IsCapital d := ht d (by rw [heq]; rfl)
    simp only [startsWord, hd.upper, hlast.lower, Bool.true_or, Bool.and_self]
  rw [humps, humpsAfter_low fun d hd => (hlow d hd).notUpper, hstart]
  simp

lemma not_startsWord {prev : Char} {next : Option Char} (hprev : IsCapital prev)
    (hnext : ∀ d ∈ next, IsCapital d) : startsWord prev c next = false := by
  cases next with
  | none => simp [startsWord, hprev.notLower, hprev.notDigit]
  | some d => simp [startsWord, hprev.notLower, hprev.notDigit, (hnext d rfl).notLower]

/-- Between capitals no word starts, unless a small letter follows. -/
lemma humpsAfter_capitals {capitals : Text} (hcapitals : ∀ c ∈ capitals, IsCapital c)
    (ht : StartsCapital t) {prev : Char} (hprev : IsCapital prev) :
    humpsAfter prev (capitals ++ t) = (capitals ++ (humpsAfter (capitals.getLastD prev) t).1,
      (humpsAfter (capitals.getLastD prev) t).2) := by
  induction capitals generalizing prev with
  | nil => rfl
  | cons c capitals ih =>
    rw [List.forall_mem_cons] at hcapitals
    have hnext : StartsCapital (capitals ++ t) := by
      cases capitals with
      | nil => exact ht
      | cons d capitals =>
        rintro e he
        obtain rfl : d = e := Option.some.inj he
        exact hcapitals.2 d List.mem_cons_self
    rw [List.cons_append, humpsAfter_cons, ih hcapitals.2 hcapitals.1, not_startsWord hprev hnext,
      List.getLastD_cons]
    rfl

/-- Capitals end a word before a word with one capital. -/
lemma humps_capitals {capitals : Text} (hcapitals : ∀ d ∈ c :: capitals, IsCapital d)
    (ht : StartsCapitalized t) : humps (c :: (capitals ++ t)) = (c :: capitals) :: humps t := by
  rw [List.forall_mem_cons] at hcapitals
  obtain ⟨hc, hcapitals⟩ := hcapitals
  have hlast : IsCapital (capitals.getLastD c) := getLastD_holds hc hcapitals
  have hstart : humpsAfter (capitals.getLastD c) t = ([], humps t) := by
    refine humpsAfter_start fun d rest heq => ?_
    obtain hnil | ⟨e, f, more, hcons, he, hf⟩ := ht
    · rw [hnil] at heq
      cases heq
    · obtain ⟨rfl, rfl⟩ := List.cons.inj (heq.symm.trans hcons)
      simp only [startsWord, he.upper, hlast.upper, List.head?_cons, Option.any_some, hf.lower,
        Bool.and_self, Bool.or_true]
  rw [humps, humpsAfter_capitals hcapitals ht.startsCapital hc, hstart]
  simp

/-! ## Words that run together -/

/-- Words that a name may be written from: at least two small letters each. -/
def AreNameWords (words : List Text) : Prop := ∀ word ∈ words, 2 ≤ word.length ∧ IsSmallWord word

variable {words : List Text} {shouted : Nat → Bool}

/-- A word with two letters. -/
lemma exists_two_letters (h : 2 ≤ word.length) : ∃ c d rest, word = c :: d :: rest := by
  match word, h with
  | c :: d :: rest, _ => exact ⟨c, d, rest, rfl⟩

lemma pascalCase_cons (shouted : Nat → Bool) (word : Text) (words : List Text) :
    pascalCase shouted (word :: words) = (if shouted 0 then shout word else capitalized word) ++
      pascalCase (fun i => shouted (i + 1)) words := by
  rw [pascalCase, List.mapIdx_cons, List.flatten_cons]
  rfl

lemma startsCapital_pascalCase (h : AreNameWords words) :
    StartsCapital (pascalCase shouted words) := by
  cases words with
  | nil => nofun
  | cons word words =>
    obtain ⟨hlength, hsmall⟩ := h word List.mem_cons_self
    obtain ⟨c, d, rest, rfl⟩ := exists_two_letters hlength
    rintro e he
    rw [pascalCase_cons] at he
    obtain rfl : c.toUpper = e := by
      cases hs : shouted 0 with
      | false => exact Option.some.inj (by simpa [hs, capitalized] using he)
      | true => exact Option.some.inj (by simpa [hs, shout] using he)
    exact (hsmall c List.mem_cons_self).capital

lemma startsCapitalized_pascalCase (h : AreNameWords words)
    (hfirst : words ≠ [] → shouted 0 = false) :
    StartsCapitalized (pascalCase shouted words) := by
  cases words with
  | nil => exact .inl rfl
  | cons word words =>
    obtain ⟨hlength, hsmall⟩ := h word List.mem_cons_self
    obtain ⟨c, d, rest, rfl⟩ := exists_two_letters hlength
    rw [pascalCase_cons, hfirst (List.cons_ne_nil _ _)]
    exact .inr ⟨_, d, _, rfl, (hsmall c List.mem_cons_self).capital, hsmall d (by simp)⟩

/-- A shouted word ends where the next word starts. -/
lemma humps_shout (hword : 2 ≤ word.length ∧ IsSmallWord word) (ht : StartsCapitalized t) :
    humps (shout word ++ t) = shout word :: humps t := by
  obtain ⟨c, d, rest, rfl⟩ := exists_two_letters hword.1
  exact humps_capitals (fun e he => hword.2.isCapital he) ht

lemma humps_capitalized (hword : 2 ≤ word.length ∧ IsSmallWord word) (ht : StartsCapital t) :
    humps (capitalized word ++ t) = capitalized word :: humps t := by
  obtain ⟨c, d, rest, rfl⟩ := exists_two_letters hword.1
  exact humps_small (fun e he => hword.2 e (List.mem_cons_of_mem c he)) (List.cons_ne_nil d rest) ht

lemma humps_smallWord (hword : 2 ≤ word.length ∧ IsSmallWord word) (ht : StartsCapital t) :
    humps (word ++ t) = word :: humps t := by
  obtain ⟨c, d, rest, rfl⟩ := exists_two_letters hword.1
  exact humps_small (fun e he => hword.2 e (List.mem_cons_of_mem c he)) (List.cons_ne_nil d rest) ht

/-- Where the first word is shouted, the next one is not. -/
lemma Apart.startsCapitalized (h : AreNameWords words) (hapart : Apart shouted (words.length + 1))
    (hfirst : shouted 0 = true) :
    StartsCapitalized (pascalCase (fun i => shouted (i + 1)) words) :=
  startsCapitalized_pascalCase h fun hne =>
    hapart 0 (by simpa using List.length_pos_iff.mpr hne) hfirst

/-- Words that run together are cut again between them. -/
lemma humps_pascalCase (h : AreNameWords words) (hapart : Apart shouted words.length) :
    (humps (pascalCase shouted words)).map lower = words := by
  induction words generalizing shouted with
  | nil => rfl
  | cons word words ih =>
    obtain ⟨hword, hwords⟩ := List.forall_mem_cons.mp h
    rw [pascalCase_cons]
    cases hfirst : shouted 0 with
    | false =>
      rw [if_neg Bool.false_ne_true, humps_capitalized hword (startsCapital_pascalCase hwords),
        List.map_cons, ih hwords hapart.tail, hword.2.lower_capitalized]
    | true =>
      rw [if_pos rfl, humps_shout hword (hapart.startsCapitalized hwords hfirst), List.map_cons,
        ih hwords hapart.tail, hword.2.lower_shout]

lemma humps_camelCase (h : AreNameWords words) (hapart : Apart shouted words.length) :
    (humps (camelCase shouted words)).map lower = words := by
  cases words with
  | nil => rfl
  | cons word words =>
    obtain ⟨hword, hwords⟩ := List.forall_mem_cons.mp h
    rw [camelCase]
    cases hfirst : shouted 0 with
    | false =>
      rw [if_neg Bool.false_ne_true, humps_smallWord hword (startsCapital_pascalCase hwords),
        List.map_cons, humps_pascalCase hwords hapart.tail, hword.2.lower]
    | true =>
      rw [if_pos rfl, humps_shout hword (hapart.startsCapitalized hwords hfirst), List.map_cons,
        humps_pascalCase hwords hapart.tail, hword.2.lower_shout]

lemma alphanumeric_pascalCase (h : AreNameWords words) (hc : c ∈ pascalCase shouted words) :
    isAlphanumeric c = true := by
  induction words generalizing shouted with
  | nil => cases hc
  | cons word words ih =>
    obtain ⟨hword, hwords⟩ := List.forall_mem_cons.mp h
    rw [pascalCase_cons, List.mem_append] at hc
    rcases hc with hc | hc
    · split at hc
      · exact (hword.2.isCapital hc).alphanumeric
      · exact hword.2.alphanumeric_capitalized hc
    · exact ih hwords hc

lemma alphanumeric_camelCase (h : AreNameWords words) (hc : c ∈ camelCase shouted words) :
    isAlphanumeric c = true := by
  cases words with
  | nil => cases hc
  | cons word words =>
    obtain ⟨hword, hwords⟩ := List.forall_mem_cons.mp h
    rw [camelCase, List.mem_append] at hc
    rcases hc with hc | hc
    · split at hc
      · exact (hword.2.isCapital hc).alphanumeric
      · exact (hword.2 c hc).alphanumeric
    · exact alphanumeric_pascalCase hwords hc

/-! ## All styles -/

lemma isHump_small (hword : 2 ≤ word.length ∧ IsSmallWord word) : IsHump word := by
  have hwhole := humps_smallWord (t := []) hword nofun
  rw [List.append_nil] at hwhole
  exact ⟨hwhole, fun c hc => (hword.2 c hc).alphanumeric⟩

lemma isHump_shout (hword : 2 ≤ word.length ∧ IsSmallWord word) : IsHump (shout word) := by
  have hwhole := humps_shout (t := []) hword (.inl rfl)
  rw [List.append_nil] at hwhole
  exact ⟨hwhole, fun c hc => (hword.2.isCapital hc).alphanumeric⟩

lemma Spells.splitIdentifier_eq {name : Text} (h : Spells words name) (hwords : AreNameWords words) :
    splitIdentifier name = words := by
  have hjoined (sep : Char) (hsep : isAlphanumeric sep = false) :
      splitIdentifier (join [sep] words) = words :=
    (splitIdentifier_join sep hsep fun word hword => isHump_small (hwords word hword)).trans
      ((List.map_congr_left fun word hword => (hwords word hword).2.lower).trans (List.map_id words))
  cases h with
  | snake => exact hjoined '_' (by decide +kernel)
  | kebab => exact hjoined '-' (by decide +kernel)
  | screamingSnake =>
    have hshouted : ∀ piece ∈ words.map shout, IsHump piece := by
      rw [List.forall_mem_map]
      exact fun word hword => isHump_shout (hwords word hword)
    refine (splitIdentifier_join '_' (by decide +kernel) hshouted).trans ?_
    rw [List.map_map]
    exact (List.map_congr_left fun word hword => (hwords word hword).2.lower_shout).trans
      (List.map_id words)
  | camel shouted hapart =>
    rw [splitIdentifier_alphanumeric fun c hc => alphanumeric_camelCase hwords hc,
      humps_camelCase hwords hapart]
  | pascal shouted hapart =>
    rw [splitIdentifier_alphanumeric fun c hc => alphanumeric_pascalCase hwords hc,
      humps_pascalCase hwords hapart]

/-- However words of two or more small letters are written as a name, splitting the name gives the
words back, so that all these names tell the same. -/
theorem styles_tell_same {words : List Text} {name name' : Text}
    (hwords : ∀ word ∈ words, 2 ≤ word.length ∧ ∀ c ∈ word, c.isLower = true)
    (h : Spells words name) (h' : Spells words name') :
    splitIdentifier name = words ∧ classify? name = classify? name' := by
  have hsmall : AreNameWords words := fun word hword =>
    ⟨(hwords word hword).1, fun c hc => isSmall_of_isLower ((hwords word hword).2 c hc)⟩
  have hname := h.splitIdentifier_eq hsmall
  refine ⟨hname, ?_⟩
  rw [classify?, classify?, hname, h'.splitIdentifier_eq hsmall]

/-- The second word of three is shouted. -/
theorem styles_tell_same_shouted :
    let words : List Text := ["get", "http", "server"]
    (∀ word ∈ words, 2 ≤ word.length ∧ ∀ c ∈ word, c.isLower = true) ∧
      Spells words "getHTTPServer" ∧ Spells words "get_http_server" ∧
      splitIdentifier "getHTTPServer" = words ∧
      classify? "getHTTPServer" = classify? "get_http_server" := by
  intro words
  have hlower : ∀ word ∈ words, 2 ≤ word.length ∧ word.all Char.isLower = true := by decide
  have hwords : ∀ word ∈ words, 2 ≤ word.length ∧ ∀ c ∈ word, c.isLower = true := fun word hword =>
    ⟨(hlower word hword).1, List.all_eq_true.mp (hlower word hword).2⟩
  have hcamel : Spells words "getHTTPServer" :=
    .camel (· == 1) fun i hi hshouted => by simp_all
  exact ⟨hwords, hcamel, .snake, styles_tell_same hwords hcamel .snake⟩

end Marginalia.Naming
