import Marginalia.Proofs.ByteOffsets
import Marginalia.Proofs.CodeBeforeComments

/-!
# Counted braces

The closing braces that lead a line are passed before the line is classified, and its other braces
after that. Together they are the braces of its code, each passed once and in order: the open blocks
are counted by one reading of the code, and a closing brace that leaves no class open clears the name
of the class where it stands.
-/

namespace Marginalia

namespace Text

/-- The number of open blocks behind a character of code where `n` are open before it. -/
def countBrace (n : Nat) (c : Char) : Nat :=
  if c == '{' then n + 1 else if c == '}' then n - 1 else n

lemma map_char_codeCharsFrom (s : CodeState) (index : Nat) (t : Text) :
    (codeCharsFrom s index t).map CodeChar.char = codeText s t := by
  induction t generalizing s index with
  | nil => rfl
  | cons c rest ih =>
    rw [codeCharsFrom, codeText, ← ih (s.step c).1 (index + c.utf8Size)]
    cases (s.step c).2 <;> rfl

lemma map_char_codeChars (t : Text) : (codeChars t).map CodeChar.char = codeText .start t :=
  map_char_codeCharsFrom .start 0 t

lemma foldl_countBrace_blanks {blanks : Text} (h : blanks.isAllBlank = true) (s : CodeState)
    (n : Nat) : (codeText s blanks).foldl countBrace n = n := by
  induction blanks generalizing s with
  | nil => rfl
  | cons c rest ih =>
    rw [isAllBlank, List.all_cons, Bool.and_eq_true] at h
    have hopens : (c == '{') = false := beq_eq_false_iff_ne.mpr (ne_of_isBlank h.1 (by decide))
    have hcloses : (c == '}') = false := beq_eq_false_iff_ne.mpr (ne_of_isBlank h.1 (by decide))
    have hkept : countBrace n c = n := by simp [countBrace, hopens, hcloses]
    rw [codeText]
    split
    · rw [List.foldl_cons, hkept]
      exact ih h.2 _
    · exact ih h.2 _

lemma foldl_countBrace_trim (t : Text) (n : Nat) :
    (codeText .start (trim t)).foldl countBrace n = (codeText .start t).foldl countBrace n := by
  obtain ⟨front, back, ht, hfront, hback⟩ := trim_append t
  conv_rhs => rw [ht, List.append_assoc, codeText_append, List.foldl_append,
    foldl_countBrace_blanks hfront, CodeState.run_blanks rfl hfront, codeText_append,
    List.foldl_append, foldl_countBrace_blanks hback]

end Text

namespace Braced

open Text

variable {front rest code : Text}

/-! ## In front of the body of a line -/

lemma bodyOf_eq_nil_iff : bodyOf front = [] ↔ ∀ c ∈ front, isBeforeBody c = true :=
  List.dropWhile_eq_nil_iff

lemma bodyOf_append (h : bodyOf front = []) (rest : Text) : bodyOf (front ++ rest) = bodyOf rest :=
  List.dropWhile_append_of_pos (bodyOf_eq_nil_iff.mp h)

lemma closers_append (h : bodyOf front = []) (rest : Text) :
    closers (front ++ rest) = closers front + closers rest := by
  have hall := bodyOf_eq_nil_iff.mp h
  rw [closers, closers, closers, List.takeWhile_append_of_pos hall, List.takeWhile_eq_self_iff.mpr hall,
    List.filter_append, List.length_append]

/-- Where a body has begun, it goes on. -/
lemma bodyOf_append_of_ne_nil (h : bodyOf front ≠ []) (rest : Text) :
    bodyOf (front ++ rest) = bodyOf front ++ rest ∧ closers (front ++ rest) = closers front := by
  have hlength : (front.takeWhile isBeforeBody).length ≠ front.length := fun hall =>
    h (List.dropWhile_eq_nil_iff.mpr (List.takeWhile_eq_self_iff.mp
      ((List.takeWhile_prefix isBeforeBody).eq_of_length hall)))
  constructor
  · rw [bodyOf, List.dropWhile_append, if_neg (by simpa [bodyOf] using h)]
    rfl
  · rw [closers, List.takeWhile_append, if_neg hlength]
    rfl

lemma bodyOf_singleton {c : Char} (hc : isBeforeBody c = true) : bodyOf [c] = [] :=
  List.dropWhile_cons_of_pos hc

/-- In front of the body nothing is open for the reader of code, and a closing brace leaves it so. -/
lemma step_beforeBody {c : Char} (hc : isBeforeBody c = true) :
    CodeState.start.step c = (.start, some 0) := by
  rcases Bool.or_eq_true_iff.mp hc with hbrace | hblank
  · rw [beq_iff_eq.mp hbrace]
    rfl
  · exact CodeState.step_plain_start (isPlain_of_isBlank hblank)

lemma run_eq_run_bodyOf (t : Text) : CodeState.start.run t = CodeState.start.run (bodyOf t) := by
  induction t with
  | nil => rfl
  | cons c rest ih =>
    by_cases hc : isBeforeBody c = true
    · rw [CodeState.run_cons, step_beforeBody hc, ih, bodyOf, bodyOf, List.dropWhile_cons_of_pos hc]
    · rw [bodyOf, List.dropWhile_cons_of_neg hc]

lemma countBrace_beforeBody {c : Char} (hc : isBeforeBody c = true) (n : Nat) :
    countBrace n c = n - closers [c] := by
  rw [closers, List.takeWhile_cons_of_pos hc, List.takeWhile_nil]
  by_cases hbrace : c = '}'
  · subst hbrace
    rfl
  · have hopens : c ≠ '{' := by
      rintro rfl
      cases hc
    simp [countBrace, hbrace, hopens]

/-- The braces of some code are those that lead it and those of its body. -/
lemma foldl_countBrace_eq (t : Text) (n : Nat) : (codeText .start t).foldl countBrace n =
    (codeText .start (bodyOf t)).foldl countBrace (n - closers t) := by
  induction t generalizing n with
  | nil => rfl
  | cons c rest ih =>
    by_cases hc : isBeforeBody c = true
    · have hstep := step_beforeBody hc
      have hbody : bodyOf (c :: rest) = bodyOf rest := List.dropWhile_cons_of_pos hc
      have hclosers : n - closers (c :: rest) = countBrace n c - closers rest := by
        rw [countBrace_beforeBody hc, Nat.sub_sub, ← closers_append (bodyOf_singleton hc)]
        rfl
      rw [codeText, hstep, hbody, hclosers, ← ih]
      rfl
    · have hclosers : closers (c :: rest) = 0 := by
        rw [closers, List.takeWhile_cons_of_neg hc]
        rfl
      rw [bodyOf, List.dropWhile_cons_of_neg hc, hclosers, Nat.sub_zero]

namespace Scanner

variable {l : Language} {s : Scanner} {raw : Text}

/-- The scanner inside a line of which `code` is read, behind the first part of the code. What the
line is has been found when its body begins. -/
def behind (l : Language) (s : Scanner) (code front : Text) : Scanner :=
  if bodyOf front = [] then s.closeBlocks (closers front)
  else (passBraces { s.atBody l code with pending := none } (s.firstKind l code) false
    (codeChars (bodyOf front))).1

/-- The name of the class that begins on a line. -/
def classFound? (l : Language) (s : Scanner) (code : Text) : Option Text :=
  (s.found? l code).bind fun
    | (.classDef name _ _, _) => some name
    | _ => none

lemma closeBlocks_add (m n : Nat) : s.closeBlocks (m + n) = (s.closeBlocks m).closeBlocks n := by
  induction m generalizing s with
  | zero => rw [Nat.zero_add, closeBlocks]
  | succ m ih => rw [Nat.succ_add, closeBlocks, closeBlocks, ih]

lemma atBody_className : (s.atBody l code).className =
    (s.classFound? l code).or (s.closeBlocks (closers code)).className := by
  rw [atBody, classFound?]
  cases s.found? l code with
  | none => rfl
  | some c =>
    obtain ⟨node, kind⟩ := c
    cases node <;> rfl

lemma closeBlock_className (s : Scanner) :
    (.classBody ∈ s.closeBlock.blocks → s.closeBlock.className = s.className) ∧
    (.classBody ∉ s.closeBlock.blocks → s.closeBlock.className = none) := by
  rw [← List.contains_iff_mem, closeBlock]
  exact ⟨fun h => if_pos h, fun h => if_neg h⟩

/-! ## A name that is missing -/

lemma nameless_closeBlocks (h : s.className = none) (n : Nat) :
    (s.closeBlocks n).className = none := by
  rcases closeBlocks_className n with hnone | hkept
  · exact hnone
  · rw [hkept, h]

lemma nameless_passBraces (h : s.className = none) (first : Option BlockKind) (opened : Bool)
    (chars : List CodeChar) : (s.passBraces first opened chars).1.className = none := by
  rcases (passBraces_kept s first opened chars).2.2 with hnone | hkept
  · exact hnone
  · rw [hkept, h]

/-! ## One brace -/

lemma passBraces_append (s : Scanner) (first : Option BlockKind) (opened : Bool)
    (chars more : List CodeChar) : ∃ first' opened', s.passBraces first opened (chars ++ more) =
      (s.passBraces first opened chars).1.passBraces first' opened' more := by
  induction chars generalizing s first opened with
  | nil => exact ⟨first, opened, rfl⟩
  | cons c rest ih =>
    rw [List.cons_append, passBraces, passBraces]
    split
    · exact ih _ _ _
    · split
      · exact ih _ _ _
      · exact ih _ _ _

lemma length_passBraces (s : Scanner) (first : Option BlockKind) (opened : Bool)
    (chars : List CodeChar) : (s.passBraces first opened chars).1.blocks.length =
      (chars.map CodeChar.char).foldl countBrace s.blocks.length := by
  induction chars generalizing s first opened with
  | nil => rfl
  | cons c rest ih =>
    rw [passBraces, List.map_cons, List.foldl_cons, countBrace]
    split
    · rw [ih, openBlock, List.length_cons]
    · split
      · rw [ih, closeBlock, List.length_drop]
      · exact ih s first opened

/-- A closing brace of the code closes one block, wherever it stands. -/
lemma behind_brace (hfront : (CodeState.start.run front).quote = none) :
    s.behind l code (front ++ ['}']) = (s.behind l code front).closeBlock := by
  by_cases hbody : bodyOf front = []
  · have hbrace : bodyOf (front ++ ['}']) = [] := by
      rw [bodyOf_append hbody]
      rfl
    have hclosers : closers (front ++ ['}']) = closers front + 1 := closers_append hbody _
    rw [behind, behind, if_pos hbody, if_pos hbrace, hclosers, closeBlocks_add]
    rfl
  · have hmore := (bodyOf_append_of_ne_nil hbody ['}']).1
    have hchars : ∃ index depth, codeChars (bodyOf front ++ ['}']) =
        codeChars (bodyOf front) ++ [⟨index, '}', depth⟩] := by
      rw [run_eq_run_bodyOf] at hfront
      obtain ⟨-, hcode⟩ := CodeState.step_unquoted (c := '}') hfront (by decide)
      obtain ⟨depth, hdepth⟩ := Option.isSome_iff_exists.mp hcode
      refine ⟨byteLength (bodyOf front), depth, ?_⟩
      rw [codeChars, codeCharsFrom_append, codeCharsFrom, hdepth, Nat.zero_add]
      rfl
    obtain ⟨index, depth, hchars⟩ := hchars
    obtain ⟨first, opened, hpass⟩ := passBraces_append { s.atBody l code with pending := none }
      (s.firstKind l code) false (codeChars (bodyOf front)) [⟨index, '}', depth⟩]
    rw [behind, behind, if_neg hbody, if_neg (by simp [hmore]), hmore, hchars, hpass]
    rfl

/-! ## The braces of a line -/

lemma length_behind (hfront : front <+: code) : (s.behind l code front).blocks.length =
    (codeText .start front).foldl countBrace s.blocks.length := by
  rw [foldl_countBrace_eq, behind]
  by_cases hbody : bodyOf front = []
  · rw [if_pos hbody, hbody, closeBlocks_blocks, List.length_drop]
    rfl
  · obtain ⟨rest, rfl⟩ := hfront
    obtain ⟨hblocks, -, -⟩ := atBody_kept l s (front ++ rest)
    rw [if_neg hbody, length_passBraces, map_char_codeChars, hblocks, List.length_drop,
      (bodyOf_append_of_ne_nil hbody rest).2]

/-- A name that is missing somewhere in a line comes back only with the body of the line, when that is
the header of a class. -/
lemma className_behind (hfront : front <+: code) (hnone : (s.behind l code front).className = none) :
    (s.behind l code code).className = none ∨
      bodyOf front = [] ∧ (s.behind l code code).className = s.classFound? l code := by
  obtain ⟨rest, rfl⟩ := hfront
  by_cases hbody : bodyOf front = []
  · rw [behind, if_pos hbody] at hnone
    have hclosed : (s.closeBlocks (closers (front ++ rest))).className = none := by
      rw [closers_append hbody, closeBlocks_add]
      exact nameless_closeBlocks hnone _
    have hname : (s.atBody l (front ++ rest)).className = s.classFound? l (front ++ rest) := by
      rw [atBody_className, hclosed, Option.or_none]
    rw [behind]
    split
    · exact .inl hclosed
    · rcases (passBraces_kept { s.atBody l (front ++ rest) with pending := none }
        (s.firstKind l (front ++ rest)) false (codeChars (bodyOf (front ++ rest)))).2.2 with h | h
      · exact .inl h
      · exact .inr ⟨hbody, h.trans hname⟩
  · obtain ⟨hmore, -⟩ := bodyOf_append_of_ne_nil hbody rest
    rw [behind, if_neg hbody] at hnone
    obtain ⟨first, opened, hpass⟩ := passBraces_append
      { s.atBody l (front ++ rest) with pending := none } (s.firstKind l (front ++ rest)) false
      (codeChars (bodyOf front))
      (codeCharsFrom (CodeState.start.run (bodyOf front)) (0 + byteLength (bodyOf front)) rest)
    rw [behind, hmore, if_neg (by simp [hbody]), codeChars, codeCharsFrom_append, ← codeChars, hpass]
    exact .inl (nameless_passBraces hnone first opened _)

/-- A line of code leaves the blocks and the name of the class that its last place has. -/
lemma feedCode_behind (l : Language) (s : Scanner) (code : Text) :
    (feedCode l s code).1.blocks = (s.behind l code code).blocks ∧
      (feedCode l s code).1.className = (s.behind l code code).className := by
  have hpending := (atBody_kept l s code).2.1
  rw [feedCode_eq, trackBraces_eq, hpending, behind]
  by_cases hbody : bodyOf code = []
  · -- Nothing is found in a line without body, and nothing of it is left to pass.
    have hfound : s.found? l code = none := by
      rw [found?, hbody]
      rfl
    have hatBody : s.atBody l code = s.closeBlocks (closers code) := by
      rw [atBody, hfound]
    rw [if_pos hbody, hbody, hatBody]
    dsimp only
    split <;> exact ⟨rfl, rfl⟩
  · rw [if_neg hbody]
    dsimp only
    split <;> exact ⟨rfl, rfl⟩

lemma feed_behind (hs : s.inComment = false) {code : Text}
    (hcode : trim (beforeComment .start raw) = code) :
    (s.feed l raw).1.blocks = (s.behind l code code).blocks ∧
      (s.feed l raw).1.className = (s.behind l code code).className := by
  obtain ⟨code?, opened, hread⟩ : ∃ code? opened, readLine s.inComment raw = (code?, opened) :=
    ⟨_, _, rfl⟩
  have hfst := fst_readLine_eq raw
  rw [← hs, hread, hcode] at hfst
  by_cases hnil : code = []
  · rw [if_pos hnil] at hfst
    obtain rfl : code? = none := hfst
    rw [feed_unread hread, hnil]
    exact ⟨rfl, rfl⟩
  · rw [if_neg hnil] at hfst
    obtain rfl : code? = some code := hfst
    rw [feed_read hread, feedCode_comment]
    exact feedCode_behind l s code

end Scanner

/-- The blocks that are open behind a line outside block comments are counted by the braces of its
code, the text before its first comment, in order: an opening brace adds one, and a closing brace takes
one away if there is any. They are so counted at each place in the line. A closing brace that leaves no
body of a class open clears the name of the class there, and the line has a name behind it only if the
brace stood before a header of a class; any other closing brace keeps the name. -/
theorem open_blocks_counted {l : Language} {s : Scanner} (raw : Text) (hs : s.inComment = false) :
    let line := beforeComment .start raw
    let code := trim line
    (s.feed l raw).1.blocks.length =
      ((codeChars line).map CodeChar.char).foldl countBrace s.blocks.length ∧
    ((s.feed l raw).1.blocks = (s.behind l code code).blocks ∧
      (s.feed l raw).1.className = (s.behind l code code).className) ∧
    (∀ front, front <+: code → (s.behind l code front).blocks.length =
      ((codeChars front).map CodeChar.char).foldl countBrace s.blocks.length) ∧
    ∀ front, front ++ ['}'] <+: code → (CodeState.start.run front).quote = none →
      let closed := s.behind l code (front ++ ['}'])
      (.classBody ∈ closed.blocks → closed.className = (s.behind l code front).className) ∧
      (.classBody ∉ closed.blocks → closed.className = none ∧
        ((s.feed l raw).1.className = none ∨
          bodyOf front = [] ∧ (s.feed l raw).1.className = s.classFound? l code)) := by
  intro line code
  have hfeed := Scanner.feed_behind (l := l) hs (rfl : trim (beforeComment .start raw) = code)
  refine ⟨?_, hfeed, fun front hfront => ?_, fun front hfront hquote => ?_⟩
  · rw [hfeed.1, Scanner.length_behind List.prefix_rfl, map_char_codeChars]
    exact foldl_countBrace_trim line _
  · rw [Scanner.length_behind hfront, map_char_codeChars]
  · intro closed
    have hclosed : closed = (s.behind l code front).closeBlock := Scanner.behind_brace hquote
    obtain ⟨hkept, hcleared⟩ := Scanner.closeBlock_className (s.behind l code front)
    rw [← hclosed] at hkept hcleared
    refine ⟨hkept, fun hclass => ⟨hcleared hclass, ?_⟩⟩
    rw [hfeed.2]
    rcases Scanner.className_behind hfront (hcleared hclass) with hnone | ⟨hbody, hname⟩
    · exact .inl hnone
    · refine .inr ⟨?_, hname⟩
      by_contra hne
      rw [(bodyOf_append_of_ne_nil hne _).1] at hbody
      exact hne (List.append_eq_nil_iff.mp hbody).1

/-- Two braces close what is open and clear the name before the header of a class, which then leaves
the brace of its body open; the brace in a literal and the one in the comment do not count. -/
theorem open_blocks_counted_class :
    let s : Scanner := ⟨[.functionBody, .classBody], none, false, some "A"⟩
    let raw : Text := "  \x7d \x7d class B \x7b m('\x7d') \x7b \x7d // \x7b"
    let code := trim (beforeComment .start raw)
    s.inComment = false ∧ (s.feed .javascript raw).1.blocks.length = 1 ∧
      (s.behind .javascript code "\x7d \x7d").className = none ∧
      (s.feed .javascript raw).1.className = some "B" := by
  intro s raw code
  have hs : s.inComment = false := rfl
  obtain ⟨hcount, -, -, hclosing⟩ := open_blocks_counted (l := .javascript) raw hs
  obtain ⟨-, hcleared⟩ := hclosing "\x7d " (by decide +kernel) (by decide)
  exact ⟨hs, hcount.trans (by decide +kernel), (hcleared (by decide +kernel)).1, by decide +kernel⟩

end Braced
end Marginalia
