import Marginalia.Proofs.ReachedPlaces
import Marginalia.Proofs.TextRanges
import Marginalia.Ranged.Scanner

/-!
# Ranges of scanned lines

What the scanner of braced sources reads from a line by ranges is what it reads character by
character.
-/

namespace Marginalia

namespace Pattern

variable {t front : Text} {prev : Option Char} {m : Matching} {c : Char}

/-- Where a match ends whose last part is one character. -/
lemma exists_front_of_matchAt {first : Pattern}
    (h : (seq first (char (· == c))).matchAt prev t = some m) :
    ∃ front, t = front ++ c :: m.rest := by
  obtain ⟨m', hreached, hlast⟩ := exists_reached (p := first) h
  obtain ⟨front, hfront, -⟩ := hreached.taken
  obtain ⟨d, m'', hrest, hd, -, hm⟩ := reaches_char hlast
  obtain rfl : d = c := beq_iff_eq.mp hd
  obtain rfl : m'' = m := Option.some.inj hm
  exact ⟨front, by rw [← hrest]; exact hfront⟩

/-- A match is found behind the beginning of a text. -/
lemma prefix_of_findFrom? {p : Pattern} (h : p.findFrom? prev t = some (front, m)) :
    front <+: t := by
  induction t generalizing prev front m with
  | nil =>
    obtain ⟨_, -, heq⟩ := Option.map_eq_some_iff.mp h
    obtain ⟨rfl, -⟩ := Prod.mk.inj heq
    exact List.nil_prefix
  | cons c rest ih =>
    rw [findFrom?] at h
    split at h
    · obtain ⟨rfl, -⟩ := Prod.mk.inj (Option.some.inj h)
      exact List.nil_prefix
    · obtain ⟨⟨front', m'⟩, hlater, heq⟩ := Option.map_eq_some_iff.mp h
      obtain ⟨rfl, -⟩ := Prod.mk.inj heq
      exact List.cons_prefix_cons.mpr ⟨rfl, ih hlater⟩

end Pattern

namespace Ranged

open Text Braced Scanner

/-! ## Lines -/

lemma codeOf?_eq (stripped : Text) : codeOf? stripped = some (codeOf stripped) := by
  rw [codeOf?, codeOf, codePart?_eq, Option.bind_eq_bind, Option.bind_some, findMark?]
  cases hcut : cut? "/*" (codePart "//" stripped) with
  | none => rfl
  | some p =>
    obtain ⟨front, behind⟩ := p
    have hcode := eq_of_cut? hcut
    have hbehind : from? (codePart "//" stripped) (byteLength front + 2) = some behind :=
      from?_of_eq _ hcode (by rw [byteLength_append]; rfl)
    have hfront : slice? (codePart "//" stripped) 0 (byteLength front) = some front :=
      upTo_of_eq (hcode.trans (List.append_assoc _ _ _)) rfl
    dsimp only [Option.map_some]
    rw [hbehind, hfront]
    rfl

/-- The characters that a line starts with up to one that does not fit. -/
lemma slice?_takeWhile (p : Char → Bool) (t : Text) :
    slice? t 0 (byteLength t - byteLength (t.dropWhile p)) = some (t.takeWhile p) := by
  have happ : t = t.takeWhile p ++ t.dropWhile p := List.takeWhile_append_dropWhile.symm
  have hlength : byteLength (t.takeWhile p) = byteLength t - byteLength (t.dropWhile p) := by
    have h := congrArg byteLength happ
    rw [byteLength_append] at h
    omega
  exact upTo_of_eq happ hlength

lemma feedCode?_eq (l : Language) (s : Scanner) (code : Text) :
    feedCode? l s code = some (s.feedCode l code) := by
  rw [feedCode?, slice?_takeWhile]
  rfl

lemma feed?_eq (l : Language) (s : Scanner) (raw : Text) : feed? l s raw = some (s.feed l raw) := by
  rw [feed?, feed]
  dsimp only
  split
  · rfl
  · split
    · rfl
    · split
      · next hopen =>
        obtain ⟨behind, hraw⟩ := (startsWith_iff _ _).mp hopen
        have hbehind : from? raw.trim 2 = some behind := from?_of_eq _ hraw rfl
        have hdrop : raw.trim.drop 2 = behind := by rw [hraw]; rfl
        rw [hbehind, hdrop]
        rfl
      · rw [codeOf?_eq]
        exact feedCode?_eq l _ _

/-! ## Parentheses -/

lemma paramsOf?_eq (code : Text) : paramsOf? code = some (paramsOf code) := by
  rw [paramsOf?, paramsOf, firstGroup?_eq, Option.bind_eq_bind, Option.bind_some]
  cases Text.firstGroup? code with
  | none => rfl
  | some inside =>
    dsimp only
    rw [splitTopLevel?_eq]
    rfl

lemma bodyFollows?_eq (front rest : Text) : bodyFollows? (front ++ '(' :: rest) (byteLength front) =
    some (bodyFollows ('(' :: rest)) := by
  have hparen : closerOf? '(' = some ')' := rfl
  rw [bodyFollows?, bodyFollows, partner?_of_eq hparen rfl rfl, Option.bind_eq_bind,
    Option.bind_some]
  cases hbracket : bracketed? ('(' :: rest) with
  | none => rfl
  | some p =>
    obtain ⟨inside, after⟩ := p
    obtain rfl := eq_of_bracketed_opener hparen hbracket
    dsimp only [Option.map_some]
    rw [from?_after rfl rfl]
    rfl

lemma methodBody?_eq (code : Text) : methodBody? code =
    some ((scriptMethod.matchStart? code).map fun m => bodyFollows ('(' :: m.rest)) := by
  rw [methodBody?]
  cases hmatch : scriptMethod.matchStart? code with
  | none => rfl
  | some m =>
    obtain ⟨front, hcode⟩ : ∃ front, code = front ++ '(' :: m.rest :=
      Pattern.exists_front_of_matchAt hmatch
    have hopen : '('.utf8Size = 1 := rfl
    have hstart : byteLength code - byteLength m.rest - 1 = byteLength front := by
      rw [hcode, byteLength_append, byteLength_cons, hopen]
      omega
    dsimp only
    rw [hstart, hcode, bodyFollows?_eq]
    rfl

lemma callArgument?_eq (function code : Text) : callArgument? function code =
    some (((callForm function).find? code).map fun p =>
      (Text.firstGroup? (code.drop p.1.length)).map trim) := by
  rw [callArgument?]
  cases hfind : (callForm function).find? code with
  | none => rfl
  | some p =>
    obtain ⟨front, m⟩ := p
    obtain ⟨call, rfl⟩ := Pattern.prefix_of_findFrom? hfind
    dsimp only
    rw [from?_append, Option.bind_eq_bind, Option.bind_some, firstGroup?_eq, Option.map_some,
      List.drop_left]
    rfl

/-! ## Loops -/

lemma forHeader?_eq (header : Text) : forHeader? header = some (forHeader header) := by
  rw [forHeader?, forHeader]
  split
  · rfl
  · cases ([" of ", " in "] : List Text).findSome? fun sep => cut? sep header with
    | some p => rfl
    | none =>
      dsimp only
      rw [findTopLevel?]
      cases hsplit : Text.splitTopLevel? ':' header with
      | none => rfl
      | some p =>
        obtain ⟨target, tail⟩ := p
        obtain ⟨iterable, rfl, hheader⟩ := eq_of_behind_sign hsplit
        have htail : from? header (byteLength target) = some (':' :: iterable) :=
          from?_of_eq _ hheader rfl
        have htarget : slice? header 0 (byteLength target) = some target := upTo_of_eq hheader rfl
        have hiterable : from? header (byteLength target + 1) = some iterable :=
          from?_of_eq (target ++ [':']) (by rw [hheader]; simp) (by simp; rfl)
        dsimp only [Option.map_some]
        rw [htail, htarget, hiterable]
        dsimp only [Option.bind_eq_bind, Option.bind_some]
        split <;> rfl

end Ranged

end Marginalia
