import Marginalia.Proofs.CompletionRounds
import Marginalia.Proofs.Cuts
import Marginalia.Proofs.Exchanges

/-!
# Literals of a completed call

What stands between the parentheses of a completed call leaves a reader of the line where the original
left it. If the call stands outside literals, both have the same characters in literals. Where its
closing parenthesis stands inside a literal, the arguments that are added belong to the literal.
-/

namespace Marginalia

namespace CodeState

open Text

variable {s : CodeState}

/-- A piece and a comma behind it leave a reader where the trimmed piece, a comma and a space do. -/
lemma Sound.agree_run_piece (h : s.Sound) (he : s.escaped = false) (piece : Text) :
    (s.run (piece ++ [','])).Agree (s.run (trim piece ++ [',', ' '])) ∧
      (s.run (trim piece ++ [',', ' '])).escaped = false := by
  obtain ⟨front, back, hpiece, hfront, hback⟩ := trim_append piece
  have hsame : ((s.run front).run (trim piece)).Agree (s.run (trim piece)) :=
    (h.agree_run_inert he (all_isInert_of_isAllBlank hfront)).run _
  have hinert : (back ++ [',']).all isInert = true := by
    rw [List.all_append, all_isInert_of_isAllBlank hback]
    rfl
  have hold := ((h.run front).run (trim piece)).run_inert hinert (by simp)
  have hnew := (h.run (trim piece)).run_inert (t := [',', ' ']) (by decide) (by simp)
  have hsplit : s.run (piece ++ [',']) = ((s.run front).run (trim piece)).run (back ++ [',']) := by
    conv_lhs => rw [hpiece]
    simp only [run_append]
  rw [hsplit, run_append s (trim piece)]
  exact ⟨hold.trans ⟨hsame.quote.trans hnew.quote.symm, hnew.escaped.symm⟩, hnew.escaped⟩

end CodeState

namespace Repair

open Text CodeState

/-- What stands between the parentheses of a call, as it is written when the call is completed, up to
the arguments that are added. -/
def respaced (inside : Text) : Text := (argumentsOf inside).flatMap (· ++ [',', ' '])

lemma filled_succ (inside : Text) (n : Nat) :
    filled inside (n + 1) = respaced inside ++ CallReading.fill (n + 1) := by
  rw [filled, List.replicate_succ, join_append_cons]
  rfl

section

variable {s : CodeState}

lemma agree_run_respaced_pieces (h : s.Sound) (he : s.escaped = false) (pieces : List Text) :
    (s.run (pieces.flatMap (· ++ [',']))).Agree (s.run
      (((pieces.map trim).filter fun a => !a.isEmpty).flatMap (· ++ [',', ' ']))) := by
  induction pieces generalizing s with
  | nil => exact .refl s
  | cons piece rest ih =>
    obtain ⟨hpiece, hescaped⟩ := h.agree_run_piece he piece
    have hrest := (hpiece.run _).trans (ih (h.run (trim piece ++ [',', ' '])) hescaped)
    rw [List.flatMap_cons, run_append _ (piece ++ [',']), List.map_cons]
    by_cases hblank : trim piece = []
    · have hskip : (s.run (trim piece ++ [',', ' '])).Agree s := by
        rw [hblank]
        exact h.agree_run_inert he (by decide)
      rw [List.filter_cons_of_neg (by simp [hblank])]
      exact hrest.trans (hskip.run _)
    · rw [List.filter_cons_of_pos (by simp [hblank]), List.flatMap_cons,
        run_append _ (trim piece ++ [',', ' '])]
      exact hrest

/-- The arguments of a call, as they are written when it is completed, leave a reader behind its
parenthesis where the original and a comma do. -/
lemma agree_run_respaced (h : s.Sound) (he : s.escaped = false) (inside : Text) :
    (s.run (respaced inside)).Agree (s.run (inside ++ [','])) := by
  have hpieces : inside ++ [','] = (rawPieces ',' inside).flatMap (· ++ [',']) := by
    rw [rawPieces, ← join_append_sep, join_piecesFrom]
  rw [hpieces, respaced, argumentsOf_eq]
  exact (agree_run_respaced_pieces h he _).symm

lemma all_isInert_fill (missing : Nat) : (CallReading.fill missing).all isInert = true :=
  all_isInert_of_all_isPlain (CallReading.all_isPlain_fill missing)

/-- Behind its closing parenthesis a completed call leaves a reader where the original did. -/
lemma agree_run_filled (h : s.Sound) (he : s.escaped = false) (inside : Text) {missing : Nat}
    (hm : missing ≠ 0) :
    (s.run (filled inside missing ++ [')'])).Agree (s.run (inside ++ [')'])) := by
  obtain ⟨n, rfl⟩ := Nat.exists_eq_succ_of_ne_zero hm
  have hsound := h.run (respaced inside)
  have hfill := hsound.run_inert (t := CallReading.fill (n + 1) ++ [')'])
    (by rw [List.all_append, all_isInert_fill]; decide) (by simp)
  have hcomma := (h.run inside).run_inert (t := [',']) (by decide) (by simp)
  have hclose := (h.run inside).run_inert (t := [')']) (by decide) (by simp)
  have hquote := (agree_run_respaced h he inside).quote
  rw [run_append s inside] at hquote
  rw [filled_succ, List.append_assoc, run_append, run_append s inside]
  exact hfill.trans ⟨hquote.trans (hcomma.quote.trans hclose.quote.symm), hclose.escaped.symm⟩

/-! ## Calls outside literals -/

/-- The characters in literals are those in the pieces between separators. -/
lemma literalChars_piecesFrom {sep : Char} (hsep : isPlain sep = true) (h : s.Sound) (t : Text) :
    literalChars s t = literalChars s (piecesFrom sep s t).1 ++
      (piecesFrom sep s t).2.flatMap (literalChars .start) := by
  refine piecesFrom_induction hsep (motive := fun s t piece pieces =>
    literalChars s t = literalChars s piece ++ pieces.flatMap (literalChars .start))
    (fun _ => rfl) (fun rest piece pieces ih => ?_) (fun s c rest piece pieces _ _ ih => ?_) h t
  · have hskip : literalChars .start (sep :: rest) = literalChars .start rest := by
      have hplain : isQuote sep = false := by
        simp only [isPlain, Bool.and_eq_true, Bool.not_eq_true'] at hsep
        exact hsep.1.1.1
      rw [literalChars, hplain, step_plain_start hsep]
      rfl
    rw [hskip, ih]
    rfl
  · rw [literalChars, literalChars, ih]
    split
    · rfl
    · split
      · rfl
      · rfl

/-- Where a text ends outside literals, so do the pieces between its separators. -/
lemma quote_run_piecesFrom {sep : Char} (hsep : isPlain sep = true) (h : s.Sound) {t : Text}
    (ht : (s.run t).quote = none) : (s.run (piecesFrom sep s t).1).quote = none ∧
      ∀ piece ∈ (piecesFrom sep s t).2, (CodeState.start.run piece).quote = none := by
  refine piecesFrom_induction hsep (motive := fun s t piece pieces => (s.run t).quote = none →
      (s.run piece).quote = none ∧ ∀ later ∈ pieces, (CodeState.start.run later).quote = none)
    (fun s hs => ⟨hs, nofun⟩) (fun rest piece pieces ih hrest => ?_)
    (fun s c rest piece pieces _ _ ih hrest => ih hrest) h t ht
  rw [run_cons, step_plain_start hsep] at hrest
  exact ⟨rfl, List.forall_mem_cons.mpr (ih hrest)⟩

/-- The blank margins of a piece that ends outside literals hold nothing of one. -/
lemma literalChars_trim {piece : Text} (h : (CodeState.start.run piece).quote = none) :
    literalChars .start (trim piece) = literalChars .start piece ∧
      (CodeState.start.run (trim piece)).quote = none := by
  obtain ⟨front, back, hpiece, hfront, hback⟩ := trim_append piece
  have hquote := quote_run_trim h
  refine ⟨?_, hquote⟩
  conv_rhs => rw [hpiece]
  rw [literalChars_append, literalChars_append, run_append, run_blanks rfl hfront,
    literalChars_inert sound_start (all_isInert_of_isAllBlank hfront),
    literalChars_inert (sound_start.run _) (all_isInert_of_isAllBlank hback), hquote]
  simp [start]

lemma literalChars_respaced {inside : Text} (h : (CodeState.start.run inside).quote = none) :
    literalChars .start (respaced inside) = literalChars .start inside := by
  have hpieces : ∀ piece ∈ rawPieces ',' inside, (CodeState.start.run piece).quote = none :=
    List.forall_mem_cons.mpr (quote_run_piecesFrom (by decide) sound_start h)
  have hinside : literalChars .start inside =
      (rawPieces ',' inside).flatMap (literalChars .start) :=
    literalChars_piecesFrom (by decide) sound_start inside
  rw [hinside, respaced, argumentsOf_eq]
  generalize rawPieces ',' inside = pieces at hpieces
  induction pieces with
  | nil => rfl
  | cons piece rest ih =>
    rw [List.forall_mem_cons] at hpieces
    obtain ⟨hchars, hquote⟩ := literalChars_trim hpieces.1
    rw [List.map_cons, List.flatMap_cons, ← ih hpieces.2, ← hchars]
    by_cases hblank : trim piece = []
    · rw [List.filter_cons_of_neg (by simp [hblank]), hblank]
      rfl
    · have hsound := sound_start.run (trim piece)
      have hagree : (CodeState.start.run (trim piece ++ [',', ' '])).Agree .start := by
        rw [run_append]
        exact (hsound.run_inert (t := [',', ' ']) (by decide) (by simp)).trans ⟨hquote, rfl⟩
      rw [List.filter_cons_of_pos (by simp [hblank]), List.flatMap_cons, literalChars_append,
        literalChars_congr hagree, literalChars_append, literalChars_inert hsound (by decide), hquote]
      simp

/-- A call outside literals has the same characters in literals once it is completed. -/
lemma literalChars_filled (h : s.Sound) (hs : s.quote = none) {inside : Text}
    (hinside : (CodeState.start.run inside).quote = none) {missing : Nat} (hm : missing ≠ 0) :
    literalChars s (filled inside missing) = literalChars s inside := by
  obtain ⟨n, rfl⟩ := Nat.exists_eq_succ_of_ne_zero hm
  have hquote : (CodeState.start.run (respaced inside)).quote = none := by
    rw [(agree_run_respaced sound_start rfl inside).quote, run_append,
      (sound_start.run inside).quote_run_inert (by decide), hinside]
  rw [literalChars_congr (h.agree_start hs), literalChars_congr (h.agree_start hs), filled_succ,
    literalChars_append, literalChars_inert (sound_start.run _) (all_isInert_fill _), hquote,
    literalChars_respaced hinside]
  simp

/-! ## Calls inside literals -/

section

variable (f : Char → Int) (hblank : ∀ c, isBlank c = true → f c = 0) (hcomma : f ',' = 0)

include hblank hcomma

lemma literalSum_gap (h : s.Sound) {t : Text}
    (ht : t.all (fun c => isBlank c || c == ',') = true) : literalSum f s t = 0 := by
  have hinert : t.all isInert = true := List.all_eq_true.mpr fun c hc => by
    have hgap := List.all_eq_true.mp ht c hc
    rw [Bool.or_eq_true, beq_iff_eq] at hgap
    rcases hgap with hgap | rfl
    · exact isInert_of_isPlain (isPlain_of_isBlank hgap)
    · decide
  have hzero : ∀ x ∈ t.map f, x = 0 := by
    intro x hx
    obtain ⟨c, hc, rfl⟩ := List.mem_map.mp hx
    have hgap := List.all_eq_true.mp ht c hc
    rw [Bool.or_eq_true, beq_iff_eq] at hgap
    rcases hgap with hgap | rfl
    · exact hblank c hgap
    · exact hcomma
  rw [literalSum_inert f h hinert, List.sum_eq_zero hzero, ite_self]

/-- The blank margins of a piece and the comma behind it count nothing. -/
lemma literalSum_piece (h : s.Sound) (he : s.escaped = false) (piece : Text) :
    literalSum f s (piece ++ [',']) = literalSum f s (trim piece) := by
  obtain ⟨front, back, hpiece, hfront, hback⟩ := trim_append piece
  have hgap : ∀ {t : Text}, t.isAllBlank = true →
      t.all (fun c => isBlank c || c == ',') = true := fun ht =>
    List.all_eq_true.mpr fun c hc => by rw [List.all_eq_true.mp ht c hc, Bool.true_or]
  have hend : (back ++ [',']).all (fun c => isBlank c || c == ',') = true := by
    rw [List.all_append, hgap hback]
    rfl
  have hsplit : piece ++ [','] = front ++ (trim piece ++ (back ++ [','])) := by
    conv_lhs => rw [hpiece]
    simp only [List.append_assoc]
  rw [hsplit, literalSum_append, literalSum_gap f hblank hcomma h (hgap hfront), literalSum_append,
    literalSum_gap f hblank hcomma ((h.run front).run _) hend,
    literalSum_congr f (h.agree_run_inert he (all_isInert_of_isAllBlank hfront)), Int.zero_add, Int.add_zero]

lemma literalSum_respaced_pieces (h : s.Sound) (he : s.escaped = false) (pieces : List Text) :
    literalSum f s (pieces.flatMap (· ++ [','])) = literalSum f s
      (((pieces.map trim).filter fun a => !a.isEmpty).flatMap (· ++ [',', ' '])) := by
  induction pieces generalizing s with
  | nil => rfl
  | cons piece rest ih =>
    obtain ⟨hpiece, hescaped⟩ := h.agree_run_piece he piece
    have hrest := ih (h.run (trim piece ++ [',', ' '])) hescaped
    rw [List.flatMap_cons, literalSum_append, literalSum_piece f hblank hcomma h he,
      literalSum_congr f hpiece, hrest, List.map_cons]
    by_cases hnil : trim piece = []
    · have hskip : (s.run (trim piece ++ [',', ' '])).Agree s := by
        rw [hnil]
        exact h.agree_run_inert he (by decide)
      rw [List.filter_cons_of_neg (by simp [hnil]), literalSum_congr f hskip, hnil]
      exact Int.zero_add _
    · rw [List.filter_cons_of_pos (by simp [hnil]), List.flatMap_cons, literalSum_append f s (_ ++ _),
        literalSum_append f s (trim piece),
        literalSum_gap f hblank hcomma (h.run _) (t := [',', ' ']) (by decide), Int.add_zero]

/-- Completing a call adds to what the characters in literals count where its closing parenthesis
stands inside a literal, and nowhere else. -/
lemma literalSum_filled (h : s.Sound) (he : s.escaped = false) (inside : Text) {missing : Nat}
    (hm : missing ≠ 0) : literalSum f s (filled inside missing) = literalSum f s inside +
      if (s.run inside).quote.isSome then ((CallReading.fill missing).map f).sum else 0 := by
  obtain ⟨n, rfl⟩ := Nat.exists_eq_succ_of_ne_zero hm
  have hpieces : inside ++ [','] = (rawPieces ',' inside).flatMap (· ++ [',']) := by
    rw [rawPieces, ← join_append_sep, join_piecesFrom]
  have hsum : literalSum f s (respaced inside) = literalSum f s inside := by
    rw [respaced, argumentsOf_eq, ← literalSum_respaced_pieces f hblank hcomma h he, ← hpieces,
      literalSum_append, literalSum_gap f hblank hcomma (h.run inside) (by decide), Int.add_zero]
  have hquote : (s.run (respaced inside)).quote = (s.run inside).quote := by
    rw [(agree_run_respaced h he inside).quote, run_append,
      (h.run inside).quote_run_inert (by decide)]
  rw [filled_succ, literalSum_append, hsum, literalSum_inert f (h.run _) (all_isInert_fill _),
    hquote]

end

/-! ## Rounds of completion -/

/-- The first call that lacks arguments is the one at its place. -/
lemma shortCall?_place {arities : Arities} {prev : Option Char} {code : Text} {call : ShortCall}
    (h : shortCall? arities prev code = some call) : ∃ (before t : Text) (here : ShortCall),
      code = before ++ t ∧ shortCallAt? arities (lastOf prev before) t = some here ∧
      call = { here with head := before ++ here.head } := by
  induction code generalizing prev call with
  | nil => simp [shortCall?] at h
  | cons c rest ih =>
    obtain hat | ⟨c', rest', later, hcode, -, hlater, rfl⟩ := shortCall?_cases h
    · exact ⟨[], c :: rest, call, rfl, hat, rfl⟩
    · obtain ⟨rfl, rfl⟩ := List.cons.inj hcode
      obtain ⟨before, t, here, rfl, hat, rfl⟩ := ih hlater
      refine ⟨c :: before, t, here, rfl, ?_, rfl⟩
      rwa [lastOf_cons]

/-- A call that is picked, what stands between its parentheses and what follows them. -/
structure Round (code : Text) (call : ShortCall) (inside after : Text) : Prop where
  code : code = call.head ++ (inside ++ ')' :: after)
  completed : call.completed = call.head ++ (filled inside call.missing ++ ')' :: after)
  tail : call.tail = ')' :: after
  missing : call.missing ≠ 0
  closed : (CodeState.start.run inside).quote = none
  behind : (CodeState.start.run call.head).escaped = false

lemma exists_round {arities : Arities} {code : Text} {call : ShortCall}
    (h : shortCall? arities none code = some call) : ∃ inside after, Round code call inside after := by
  obtain ⟨before, t, here, rfl, hat, rfl⟩ := shortCall?_place h
  obtain ⟨-, rest, required, inside, after, hname, -, hbracket, -, hcount, hhere⟩ :=
    (shortCallAt?_eq_some_iff arities _ t here).mp hat
  obtain ⟨hrest, hopen, hclosed⟩ := (CallReading.bracketed?_eq_some_iff rest inside after).mp hbracket
  have hquote := (CallReading.closing_code hopen hclosed).1
  rw [CallReading.code_run hopen] at hquote
  have hparen := (sound_start.run (before ++ here.name)).run_inert (t := ['(']) (by decide) (by simp)
  refine ⟨inside, after, ?_, ?_, ?_, ?_, hquote, ?_⟩
  · rw [(name?_word _ _ hname).1, hrest, hhere]
    simp
  · rw [hhere]
    simp [ShortCall.completed, filled]
  · rw [hhere]
  · rw [hhere]
    exact Nat.sub_ne_zero_of_lt hcount
  · rw [hhere, ← List.append_assoc, run_append]
    exact hparen.escaped

namespace Round

variable {code inside after : Text} {call : ShortCall}

lemma quote_filled (h : Round code call inside after) :
    ((start.run call.head).run (filled inside call.missing)).quote =
      ((start.run call.head).run inside).quote := by
  have hsound := sound_start.run call.head
  have hquote := (agree_run_filled hsound h.behind inside h.missing).quote
  rwa [run_append, run_append, (hsound.run _).quote_run_inert (by decide),
    (hsound.run _).quote_run_inert (by decide)] at hquote

/-- A round changes the characters in literals where it exchanges text, and nowhere else. -/
lemma literalChars_split (h : Round code call inside after) : ∃ tail,
    literalChars .start code = literalChars .start call.head ++
      (literalChars (start.run call.head) inside ++ tail) ∧
    literalChars .start call.completed = literalChars .start call.head ++
      (literalChars (start.run call.head) (filled inside call.missing) ++ tail) := by
  have hsound := sound_start.run call.head
  have hagree := agree_run_filled hsound h.behind inside h.missing
  have hclose : ∀ t : Text, literalChars ((start.run call.head).run t) (')' :: after) =
      literalChars ((start.run call.head).run t) [')'] ++
        literalChars ((start.run call.head).run (t ++ [')'])) after := by
    intro t
    rw [run_append, ← literalChars_append]
    rfl
  refine ⟨literalChars ((start.run call.head).run inside) (')' :: after), ?_, ?_⟩
  · rw [← literalChars_append, ← literalChars_append, ← h.code]
  · rw [h.completed, literalChars_append, literalChars_append _ (filled _ _), hclose, hclose,
      literalChars_congr hagree, literalChars_inert (hsound.run _) (by decide), h.quote_filled,
      ← literalChars_inert (hsound.run inside) (by decide)]

/-- What stands between the parentheses, and what takes its place. -/
def exchange (call : ShortCall) (inside : Text) : Exchange :=
  ⟨call.head.foldl Before.step .start, inside, filled inside call.missing⟩

lemma code_exchange (call : ShortCall) (inside : Text) :
    (exchange call inside).before.code = start.run call.head := Before.code_foldl .start call.head

lemma literals_iff (h : Round code call inside after) :
    literals call.completed = literals code ↔ (exchange call inside).KeepsLiterals := by
  obtain ⟨tail, hold, hnew⟩ := h.literalChars_split
  rw [literals_eq_iff, hold, hnew, List.append_cancel_left_eq, List.append_cancel_right_eq,
    Exchange.KeepsLiterals, code_exchange]
  exact eq_comm

lemma keeps_of_unquoted (h : Round code call inside after)
    (hs : (exchange call inside).before.quoted = false) :
    (exchange call inside).KeepsLiterals := by
  rw [Before.quoted, code_exchange, Option.isSome_eq_false_iff, Option.isNone_iff_eq_none] at hs
  rw [Exchange.KeepsLiterals, code_exchange]
  exact (literalChars_filled (sound_start.run call.head) hs h.closed h.missing).symm

end Round

lemma sum_fill_pos (n : Nat) : 0 < ((CallReading.fill (n + 1)).map charWeight).sum := by
  induction n with
  | zero => decide
  | succ n ih =>
    have hword : (((("None" : Text) ++ [',', ' ']).map charWeight)).sum = 9 := by decide
    rw [CallReading.fill_succ_succ, List.map_append, List.sum_append, hword]
    omega

/-- Characters in literals count more after a round whose closing parenthesis stands inside a
literal, and as much as before after any other round. -/
lemma Round.literalSum_cases {code inside after : Text} {call : ShortCall}
    (h : Round code call inside after) :
    (((start.run call.head).run inside).quote = none ∧
      literalSum charWeight .start call.completed = literalSum charWeight .start code) ∨
    (((start.run call.head).run inside).quote ≠ none ∧
      literalSum charWeight .start code < literalSum charWeight .start call.completed) := by
  obtain ⟨tail, hold, hnew⟩ := h.literalChars_split
  obtain ⟨n, hn⟩ := Nat.exists_eq_succ_of_ne_zero h.missing
  have hfilled := literalSum_filled charWeight (fun c => charWeight_blank) (by decide)
    (sound_start.run call.head) h.behind inside h.missing
  have hpos := sum_fill_pos n
  have hsum : literalSum charWeight .start call.completed = literalSum charWeight .start code +
      if ((start.run call.head).run inside).quote.isSome then
        ((CallReading.fill call.missing).map charWeight).sum else 0 := by
    unfold literalSum at hfilled ⊢
    rw [hold, hnew]
    simp only [List.map_append, List.sum_append, hfilled]
    omega
  rw [hsum, hn]
  cases ((start.run call.head).run inside).quote with
  | none => exact .inl ⟨rfl, Int.add_zero _⟩
  | some q =>
    right
    refine ⟨by simp, ?_⟩
    rw [Option.isSome_some, if_pos rfl]
    exact Int.lt_add_of_pos_right _ hpos

end

end Repair

end Marginalia
