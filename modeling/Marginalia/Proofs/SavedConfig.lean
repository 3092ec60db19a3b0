import Marginalia.Config
import Marginalia.Proofs.WrittenValues

/-!
# Configurations that are saved and loaded

The file of a configuration describes all of it: whatever its texts hold and however large its number
is, each field is decoded to what it was. Only an empty list of languages does not come back, since
it counts for all of them.
-/

namespace Marginalia

namespace Json

lemma isPlain_ofTexts (ts : List Text) : (ofTexts ts).isPlain = true := by
  rw [ofTexts, isPlain_array_iff]
  intro j hj
  obtain ⟨t, -, rfl⟩ := List.mem_map.mp hj
  rfl

lemma isPlain_ofNat (n : Nat) : (ofNat n).isPlain = true := by
  rw [ofNat, isPlain_number_iff, natOfDigits_ofNat]

/-- A list of texts is decoded to what it was written for. -/
lemma asTexts_ofTexts (ts : List Text) : asTexts (ofTexts ts) = .ok ts := by
  rw [ofTexts, asTexts]
  induction ts with
  | nil => rfl
  | cons t ts ih =>
    rw [List.map_cons, List.mapM_cons, ih]
    rfl

/-- A number of 64 bits is decoded to what it was written for. -/
lemma asWord_ofNat (n : UInt64) : asWord (ofNat n.toNat) = .ok n := by
  have hdigits : (Text.ofNat n.toNat).all isAsciiDigit = true :=
    List.all_eq_true.mpr fun _ => Text.isAsciiDigit_of_mem_ofNat
  have hne : (Text.ofNat n.toNat).isEmpty = false :=
    List.isEmpty_eq_false_iff.mpr (Text.ofNat_ne_nil _)
  have hword : (ofNat n.toNat).word64? = some n.toNat := by
    simp [ofNat, word64?, hdigits, hne, natOfDigits_ofNat, n.toNat_lt]
  simp only [asWord, hword, UInt64.ofNat_toNat]

/-- A member that names a field which was not put yet is put into it. -/
lemma decodeMembers_cons {α : Type} {fields : Fields α} {seen : List Text} {a a' : α} {key : Text}
    {value : Json} (hname : fields.names.contains key = true) (hseen : seen.contains key = false)
    (hvalue : value.isPlain = true) (hput : fields.put a key value = .ok a')
    (members : List (Text × Json)) :
    decodeMembers fields seen a ((key, value) :: members) =
      decodeMembers fields (key :: seen) a' members := by
  rw [decodeMembers]
  · simp only [hname, if_true, hseen, Bool.false_eq_true, if_false, hput]
  · rintro v rfl
    cases hvalue

end Json

namespace Config

lemma isPlain_toJson (c : Config) : c.toJson.isPlain = true := by
  simp only [toJson, Json.isPlain_object_iff, List.forall_mem_cons]
  exact ⟨rfl, Json.isPlain_ofNat _, Json.isPlain_ofTexts _, ⟨rfl, nofun⟩, nofun⟩

lemma asVerbosity_verbosityName (v : Commentary.Verbosity) :
    asVerbosity (.string (verbosityName v)) = .ok v := by
  cases v <;> rfl

lemma decode_commentFields (v v' : Commentary.Verbosity) :
    Json.decode commentFields v' (.object [("verbosity", .string (verbosityName v))]) = .ok v :=
  Json.decodeMembers_cons rfl rfl rfl (asVerbosity_verbosityName v) []

/-- A configuration is decoded to what it was. -/
lemma ofJson_toJson (c : Config) : ofJson c.toJson = .ok c := by
  have hcomments (c' : Config) : fields.put c' "annotation"
      (.object [("verbosity", .string (verbosityName c.verbosity))]) =
        .ok { c' with verbosity := c.verbosity } := by
    show (Json.decode commentFields standard.verbosity _).map _ = _
    rw [decode_commentFields]
    rfl
  have hlanguages (c' : Config) : fields.put c' "enabled_languages" (.ofTexts c.enabledLanguages) =
      .ok { c' with enabledLanguages := c.enabledLanguages } := by
    show (Json.asTexts (.ofTexts c.enabledLanguages)).map _ = _
    rw [Json.asTexts_ofTexts]
    rfl
  have hbytes (c' : Config) : fields.put c' "max_input_bytes" (.ofNat c.maxInputBytes.toNat) =
      .ok { c' with maxInputBytes := c.maxInputBytes } := by
    show (Json.asWord (.ofNat c.maxInputBytes.toNat)).map _ = _
    rw [Json.asWord_ofNat]
    rfl
  calc ofJson c.toJson
      = Json.decodeMembers fields ["listen_addr"]
          { standard with listenAddress := c.listenAddress } _ :=
        Json.decodeMembers_cons rfl rfl rfl rfl _
    _ = Json.decodeMembers fields _ _ _ :=
        Json.decodeMembers_cons rfl rfl (Json.isPlain_ofNat _) (hbytes _) _
    _ = Json.decodeMembers fields _ _ _ :=
        Json.decodeMembers_cons rfl rfl (Json.isPlain_ofTexts _) (hlanguages _) _
    _ = Json.decodeMembers fields _ _ [] :=
        Json.decodeMembers_cons rfl rfl rfl (hcomments _) []
    _ = .ok c := rfl

/-- What is loaded from the file of a configuration. -/
lemma load_save (c : Config) : load (some c.save) =
    if c.enabledLanguages.isEmpty then { c with enabledLanguages := standard.enabledLanguages }
    else c := by
  have hdocument : Json.document? c.save = some c.toJson :=
    Json.document?_document c.isPlain_toJson
  simp only [load, hdocument, Option.map_some, ofJson_toJson]

/-- A configuration comes back from its file exactly if some language is switched on in it. -/
theorem load_save_eq_self_iff (c : Config) :
    load (some c.save) = c ↔ c.enabledLanguages ≠ [] := by
  rw [load_save]
  cases hlanguages : c.enabledLanguages with
  | nil =>
    have hne : standard.enabledLanguages ≠ [] := by decide
    rw [List.isEmpty_nil, if_pos rfl]
    refine iff_of_false (fun h => ?_) fun h => h rfl
    rw [← h] at hlanguages
    exact hne hlanguages
  | cons name names => simp

end Config
end Marginalia
