import Marginalia.Naming.Words
import Marginalia.Proofs.Fields

/-!
# The words of a name

Splitting a name into words drops the characters between its runs of letters and digits, cuts the runs
and puts them into lower case; apart from that every character stays, in its place. The words have no
capitals left, so they are not cut again.
-/

namespace Marginalia

/-- What holds of the first 128 characters holds of all ASCII characters. -/
lemma ascii_forall {P : Char → Prop} (h : ∀ n < 128, P (Char.ofNat n)) {c : Char}
    (hc : c.toNat < 128) : P c := by
  have hn := h c.toNat hc
  rwa [Char.ofNat_toNat] at hn

lemma isAlphanumeric_ascii {c : Char} (hc : c.toNat < 128) : isAlphanumeric c = c.isAlphanum :=
  ascii_forall (P := fun c => isAlphanumeric c = c.isAlphanum) (by decide +kernel) hc

lemma lowerAscii_ascii {c : Char} (hc : c.toNat < 128) : lowerAscii c = c.toLower :=
  ascii_forall (P := fun c => lowerAscii c = c.toLower) (by decide +kernel) hc

lemma toNat_toLower_lt {c : Char} (hc : c.toNat < 128) : c.toLower.toNat < 128 :=
  ascii_forall (P := fun c => c.toLower.toNat < 128) (by decide +kernel) hc

lemma isUpper_toLower {c : Char} (hc : c.toNat < 128) : isUpper c.toLower = false :=
  ascii_forall (P := fun c => isUpper c.toLower = false) (by decide +kernel) hc

lemma isAlphanum_toLower {c : Char} (hc : c.toNat < 128) : c.toLower.isAlphanum = c.isAlphanum :=
  ascii_forall (P := fun c => c.toLower.isAlphanum = c.isAlphanum) (by decide +kernel) hc

lemma toLower_toLower {c : Char} (hc : c.toNat < 128) : c.toLower.toLower = c.toLower :=
  ascii_forall (P := fun c => c.toLower.toLower = c.toLower) (by decide +kernel) hc

lemma Text.lowerAfter_ascii {t : Text} (ht : ∀ c ∈ t, c.toNat < 128) (passed : Text) :
    lowerAfter passed t = t.map Char.toLower := by
  induction t generalizing passed with
  | nil => rfl
  | cons c rest ih =>
    rw [List.forall_mem_cons] at ht
    have hsigma : (c.toNat == 0x3A3) = false := by
      rw [beq_eq_false_iff_ne]
      omega
    rw [lowerAfter, ih ht.2, hsigma, lowerChar, if_pos ht.1, lowerAscii_ascii ht.1]
    rfl

lemma Text.lower_ascii {t : Text} (ht : ∀ c ∈ t, c.toNat < 128) : lower t = t.map Char.toLower :=
  lowerAfter_ascii ht []

namespace Naming

open Text

/-! ## Runs of letters and digits -/

lemma humpsAfter_cons (prev c : Char) (rest : Text) : humpsAfter prev (c :: rest) =
    if startsWord prev c rest.head? then
      ([], (c :: (humpsAfter c rest).1) :: (humpsAfter c rest).2)
    else (c :: (humpsAfter c rest).1, (humpsAfter c rest).2) := rfl

lemma append_flatten_humpsAfter (prev : Char) (t : Text) :
    (humpsAfter prev t).1 ++ (humpsAfter prev t).2.flatten = t := by
  induction t generalizing prev with
  | nil => rfl
  | cons c rest ih =>
    rw [humpsAfter_cons]
    split <;> simp [ih]

/-- A run is cut, and nothing is lost. -/
lemma flatten_humps (run : Text) : (humps run).flatten = run := by
  cases run with
  | nil => rfl
  | cons c rest => simp [humps, append_flatten_humpsAfter]

lemma ne_nil_of_mem_humpsAfter {prev : Char} {t word : Text} (h : word ∈ (humpsAfter prev t).2) :
    word ≠ [] := by
  induction t generalizing prev with
  | nil => cases h
  | cons c rest ih =>
    rw [humpsAfter_cons] at h
    split at h
    · obtain rfl | h := List.mem_cons.mp h
      · exact List.cons_ne_nil c _
      · exact ih h
    · exact ih h

lemma ne_nil_of_mem_humps {run word : Text} (h : word ∈ humps run) : word ≠ [] := by
  cases run with
  | nil => cases h
  | cons c rest =>
    obtain rfl | h := List.mem_cons.mp h
    · exact List.cons_ne_nil c _
    · exact ne_nil_of_mem_humpsAfter h

/-- Where there is no capital, no word starts. -/
lemma humpsAfter_low {low : Text} (hlow : ∀ c ∈ low, isUpper c = false) (prev : Char) (t : Text) :
    humpsAfter prev (low ++ t) =
      (low ++ (humpsAfter (low.getLastD prev) t).1, (humpsAfter (low.getLastD prev) t).2) := by
  induction low generalizing prev with
  | nil => rfl
  | cons c low ih =>
    rw [List.forall_mem_cons] at hlow
    have hstart : startsWord prev c (low ++ t).head? = false := by simp [startsWord, hlow.1]
    rw [List.cons_append, humpsAfter_cons, ih hlow.2, hstart, List.getLastD_cons]
    rfl

/-- A run without capitals is one word. -/
lemma humps_low {run : Text} (hne : run ≠ []) (hlow : ∀ c ∈ run, isUpper c = false) :
    humps run = [run] := by
  obtain ⟨c, low, rfl⟩ := List.exists_cons_of_ne_nil hne
  have hafter := humpsAfter_low (fun d hd => hlow d (List.mem_cons_of_mem c hd)) c []
  rw [List.append_nil] at hafter
  rw [humps, hafter]
  simp [humpsAfter]

/-! ## Names -/

lemma splitIdentifier_separator {c : Char} (hc : isAlphanumeric c = false) (t : Text) :
    splitIdentifier (c :: t) = splitIdentifier t := by
  rw [splitIdentifier, splitIdentifier, fields_separator (by simp [hc])]

lemma splitIdentifier_run {run rest : Text} (hne : run ≠ [])
    (hrun : ∀ c ∈ run, isAlphanumeric c = true)
    (hrest : ∀ c ∈ rest.head?, isAlphanumeric c = false) :
    splitIdentifier (run ++ rest) = (humps run).map lower ++ splitIdentifier rest := by
  rw [splitIdentifier, splitIdentifier, fields_run hne (by simpa using hrun) (by simpa using hrest)]
  simp

lemma splitIdentifier_alphanumeric {name : Text} (h : ∀ c ∈ name, isAlphanumeric c = true) :
    splitIdentifier name = (humps name).map lower := by
  cases name with
  | nil => rfl
  | cons c rest =>
    have hrun : splitIdentifier (c :: rest ++ []) = _ :=
      splitIdentifier_run (List.cons_ne_nil c rest) h nofun
    rw [List.append_nil] at hrun
    rw [hrun]
    exact List.append_nil _

/-- A run of letters and digits that is one word. -/
structure IsHump (piece : Text) : Prop where
  whole : humps piece = [piece]
  alphanumeric : ∀ c ∈ piece, isAlphanumeric c = true

lemma IsHump.ne_nil {piece : Text} (h : IsHump piece) : piece ≠ [] := by
  rintro rfl
  exact List.cons_ne_nil _ _ h.whole.symm

/-- Words with separators between them are the words of the name that they make. -/
lemma splitIdentifier_join (sep : Char) (hsep : isAlphanumeric sep = false) {pieces : List Text}
    (h : ∀ piece ∈ pieces, IsHump piece) :
    splitIdentifier (join [sep] pieces) = pieces.map lower := by
  induction pieces with
  | nil => rfl
  | cons piece pieces ih =>
    rw [List.forall_mem_cons] at h
    cases pieces with
    | nil =>
      rw [join, splitIdentifier_alphanumeric h.1.alphanumeric, h.1.whole]
    | cons next pieces =>
      rw [join, List.append_assoc, splitIdentifier_run h.1.ne_nil h.1.alphanumeric (by simpa using hsep),
        h.1.whole, List.singleton_append, splitIdentifier_separator hsep, ih h.2]
      · rfl
      · exact List.cons_ne_nil next pieces

/-! ## Names in ASCII -/

/-- The words of a name as they stand in it. -/
def pieces (name : Text) : List Text := (fields (fun c => !isAlphanumeric c) name).flatMap humps

variable {name : Text}

lemma flatten_pieces (name : Text) : (pieces name).flatten = name.filter isAlphanumeric := by
  have hruns (runs : List Text) : (runs.flatMap humps).flatten = runs.flatten := by
    induction runs with
    | nil => rfl
    | cons run runs ih => simp [flatten_humps, ih]
  rw [pieces, hruns, flatten_fields]
  simp

lemma mem_of_mem_pieces {piece : Text} (h : piece ∈ pieces name) {c : Char} (hc : c ∈ piece) :
    c ∈ name ∧ isAlphanumeric c = true := by
  have hmem : c ∈ (pieces name).flatten := List.mem_flatten_of_mem h hc
  rwa [flatten_pieces, List.mem_filter] at hmem

/-- A word of a name in ASCII is a word in small letters and digits. -/
lemma isHump_of_mem_splitIdentifier (hname : ∀ c ∈ name, c.toNat < 128) {word : Text}
    (h : word ∈ splitIdentifier name) : IsHump word ∧ lower word = word := by
  obtain ⟨piece, hpiece, rfl⟩ := List.mem_map.mp h
  have hchars : ∀ c ∈ piece, c.toNat < 128 ∧ isAlphanumeric c = true := fun c hc =>
    (mem_of_mem_pieces hpiece hc).imp_left (hname c)
  have hne : piece ≠ [] := by
    obtain ⟨run, -, hmem⟩ := List.mem_flatMap.mp hpiece
    exact ne_nil_of_mem_humps hmem
  rw [lower_ascii fun c hc => (hchars c hc).1]
  refine ⟨⟨humps_low ?_ ?_, ?_⟩, ?_⟩
  · simpa using hne
  · rw [List.forall_mem_map]
    exact fun c hc => isUpper_toLower (hchars c hc).1
  · rw [List.forall_mem_map]
    intro c hc
    rw [isAlphanumeric_ascii (toNat_toLower_lt (hchars c hc).1), isAlphanum_toLower (hchars c hc).1,
      ← isAlphanumeric_ascii (hchars c hc).1]
    exact (hchars c hc).2
  · rw [lower_ascii, List.map_map]
    · exact List.map_congr_left fun c hc => toLower_toLower (hchars c hc).1
    · rw [List.forall_mem_map]
      exact fun c hc => toNat_toLower_lt (hchars c hc).1

/-- The words of a name in ASCII are its letters and digits in lower case, in their order and without
empty words, and with underscores between them they are a name with the same words. -/
theorem split_keeps_letters (hname : ∀ c ∈ name, c.toNat < 128) :
    (splitIdentifier name).flatten = (name.filter Char.isAlphanum).map Char.toLower ∧
    (∀ word ∈ splitIdentifier name, word ≠ []) ∧
    splitIdentifier (join "_" (splitIdentifier name)) = splitIdentifier name := by
  have hwords := fun word (h : word ∈ splitIdentifier name) => isHump_of_mem_splitIdentifier hname h
  refine ⟨?_, fun word h => (hwords word h).1.ne_nil, ?_⟩
  · have hlower : splitIdentifier name = (pieces name).map (List.map Char.toLower) :=
      List.map_congr_left fun piece hpiece =>
        lower_ascii fun c hc => hname c (mem_of_mem_pieces hpiece hc).1
    rw [hlower, ← List.map_flatten, flatten_pieces]
    congr 1
    exact List.filter_congr fun c hc => isAlphanumeric_ascii (hname c hc)
  · have hjoin := splitIdentifier_join '_' (by decide +kernel) fun word h => (hwords word h).1
    exact hjoin.trans ((List.map_congr_left fun word h => (hwords word h).2).trans (List.map_id _))

/-- Capitals, digits and signs at the margins. -/
theorem split_keeps_letters_mixed :
    let name : Text := "__HTTPServer2X.$getV1-"
    (∀ c ∈ name, c.toNat < 128) ∧
      splitIdentifier name = ["http", "server2", "x", "get", "v1"] ∧
      splitIdentifier "http_server2_x_get_v1" = splitIdentifier name := by
  intro name
  have hascii : (name.all fun c => c.toNat < 128) = true := by decide
  have hname : ∀ c ∈ name, c.toNat < 128 := fun c hc => by simpa using List.all_eq_true.mp hascii c hc
  have hwords : splitIdentifier name = ["http", "server2", "x", "get", "v1"] := by decide +kernel
  obtain ⟨-, -, hagain⟩ := split_keeps_letters hname
  exact ⟨hname, hwords, by rwa [hwords] at hagain ⊢⟩

end Naming
end Marginalia
