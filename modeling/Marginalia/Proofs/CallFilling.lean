import Marginalia.Proofs.CallReading

/-!
# Filling a call

Completing a call replaces what stands between its parentheses by its arguments without their blank
margins, followed by `None` as often as arguments are missing. Here that text is read from where the
original was read, by a reader of the same call or of one around it: what is left out, blanks and
commas behind a parenthesis or a comma, is read without noticing.
-/

namespace Marginalia.Repair

open Text

namespace ArgumentReading

/-- Inside a literal or a bracket, nothing more is learnt about an argument. -/
lemma step_inside {a : ArgumentReading} (hstarted : a.started = true) (hsign : a.sign ≠ .pending)
    (c : Char) : a.step false c = a := by
  obtain ⟨started, starred, sign⟩ := a
  obtain rfl : started = true := hstarted
  cases sign with
  | pending => exact absurd rfl hsign
  | unseen => simp [step, Sign.step]
  | comparison => simp [step, Sign.step]
  | keyword => simp [step, Sign.step]

end ArgumentReading

namespace CallReading

/-- What holds of every reading of a call. -/
structure Sound (r : CallReading) : Prop where
  code : r.code.Sound
  argument : r.argument.Sound
  inside : r.parens ≠ 0 → r.code ≠ .start → r.argument.started = true
  pending : r.argument.sign = .pending → r.code = .start

lemma sound_start : start.Sound :=
  ⟨CodeState.sound_start, ArgumentReading.sound_fresh, fun _ h => absurd rfl h, by rintro ⟨⟩⟩

/-- A reading whose last argument is taken for complete, or that was closed. -/
lemma sound_endArgument (r : CallReading) {code : CodeState} (hcode : code.Sound)
    {parens : Nat} (hstart : parens ≠ 0 → code = .start) :
    { r.endArgument with code, parens }.Sound :=
  ⟨hcode, ArgumentReading.sound_fresh, fun hp hc => absurd (hstart hp) hc, by rintro ⟨⟩⟩

lemma Sound.step {r : CallReading} (h : r.Sound) (c : Char) : (r.step c).Sound := by
  have hcode : (r.code.step c).1.Sound := h.code.step c
  by_cases hr : r.parens = 0
  · rwa [step_of_closed hr]
  cases hc : r.closesAt c with
  | true =>
    have hstep : r.step c = { r.endArgument with code := (r.code.step c).1, parens := 0 } := by
      simp [CallReading.step, hr, hc]
    rw [hstep]
    exact sound_endArgument r hcode (fun h0 => absurd rfl h0)
  | false =>
    have hopen : (r.step c).parens ≠ 0 := by
      rw [Ne, parens_step_eq_zero_iff hr, hc]
      exact Bool.false_ne_true
    cases hs : r.separatesAt c with
    | true =>
      obtain ⟨htop, rfl⟩ : (r.code.step c).2 = some 0 ∧ c = ',' := by
        simpa [separatesAt] using hs
      have hstart : (r.code.step ',').1 = .start := h.code.step_separator htop (by decide)
      rw [step_separator hopen hs]
      exact sound_endArgument r hcode (fun _ => hstart)
    | false =>
      rw [step_inside hopen hs]
      refine ⟨hcode, h.argument.step _ c, ?_, ?_⟩
      · intro _ hne
        by_contra hstarted
        simp only [ArgumentReading.step, Bool.or_eq_true, Bool.not_eq_true', not_or,
          Bool.not_eq_true, Bool.not_eq_false] at hstarted
        obtain ⟨hold, hblank⟩ := hstarted
        have hcodeStart : r.code = .start := by
          by_contra hin
          rw [h.inside hr hin] at hold
          exact Bool.noConfusion hold
        exact hne (by rw [hcodeStart, CodeState.step_plain_start (isPlain_of_isBlank hblank)])
      · intro hpending
        obtain ⟨htop, rfl⟩ : (r.code.step c).2 = some 0 ∧ c = '=' := by
          cases hsign : r.argument.sign <;>
            simp [ArgumentReading.step, Sign.step, hsign] at hpending
          · exact hpending
          · split at hpending <;> simp at hpending
        exact h.code.step_separator htop (by decide)

lemma Sound.run {r : CallReading} (h : r.Sound) (t : Text) : (r.run t).Sound := by
  induction t generalizing r with
  | nil => exact h
  | cons c rest ih => exact ih (h.step c)

/-- The reading with an escape taken back. -/
def unescaped (r : CallReading) : CallReading :=
  { r with code := { r.code with escaped := false } }

lemma closesAt_plain (r : CallReading) {c : Char} (hc : isPlain c = true) :
    r.closesAt c = false := by
  have hne : c ≠ ')' := by
    rintro rfl
    exact absurd hc (by decide)
  simp [closesAt, hne]

lemma open_step_plain {r : CallReading} (hr : r.parens ≠ 0) {c : Char} (hc : isPlain c = true) :
    (r.step c).parens ≠ 0 := by
  rw [Ne, parens_step_eq_zero_iff hr, closesAt_plain r hc]
  exact Bool.false_ne_true

lemma parensAfter_plain (r : CallReading) {c : Char} (hc : isPlain c = true) :
    r.parensAfter c = r.parens := by
  have hopen : c ≠ '(' := by
    rintro rfl
    exact absurd hc (by decide)
  have hclose : c ≠ ')' := by
    rintro rfl
    exact absurd hc (by decide)
  simp [parensAfter, hopen, hclose]

/-- Inside a literal or a bracket a plain character only ends an escape. -/
lemma Sound.step_plain_inside {r : CallReading} (h : r.Sound) (hr : r.parens ≠ 0)
    (hs : r.code ≠ .start) {c : Char} (hc : isPlain c = true) : r.step c = r.unescaped := by
  obtain ⟨hcode, htop⟩ := h.code.step_plain_inside hs hc
  have hseparates : r.separatesAt c = false := by simp [separatesAt, htop]
  have hargument : r.argument.step false c = r.argument :=
    ArgumentReading.step_inside (h.inside hr hs) (fun hp => hs (h.pending hp)) c
  rw [step_inside (open_step_plain hr hc) hseparates, parensAfter_plain r hc, hcode, htop,
    hargument]
  rfl

lemma step_plain_top {r : CallReading} (hr : r.parens ≠ 0) (hs : r.code = .start) {c : Char}
    (hc : isPlain c = true) (hcomma : c ≠ ',') :
    r.step c = { r with argument := r.argument.step true c } := by
  have hseparates : r.separatesAt c = false := by simp [separatesAt, hcomma]
  rw [step_inside (open_step_plain hr hc) hseparates, parensAfter_plain r hc, hs,
    CodeState.step_plain_start hc]
  rfl

lemma step_comma_top {r : CallReading} (hr : r.parens ≠ 0) (hs : r.code = .start) :
    r.step ',' = r.endArgument := by
  have hseparates : r.separatesAt ',' = true := by simp [separatesAt, hs]; rfl
  rw [step_separator (open_step_plain hr (by decide)) hseparates, hs]
  obtain ⟨code, parens, argument, count, special⟩ := r
  obtain rfl : code = .start := hs
  rfl

lemma Sound.unescaped_ne_start {r : CallReading} (h : r.Sound) (hs : r.code ≠ .start) :
    r.unescaped.code ≠ .start := h.code.unescaped_ne_start hs

lemma Sound.unescaped {r : CallReading} (h : r.Sound) (hs : r.code ≠ .start) :
    r.unescaped.Sound := by
  by_cases hr : r.parens = 0
  · exact ⟨⟨fun _ => rfl, h.code.quote⟩, h.argument, fun h0 => absurd hr h0,
      fun hp => absurd (h.pending hp) hs⟩
  · rw [← h.step_plain_inside hr hs (show isPlain ' ' = true by decide)]
    exact h.step ' '

/-- Plain characters inside a literal or a bracket only end an escape. -/
lemma Sound.run_plain_inside {r : CallReading} (h : r.Sound) (hr : r.parens ≠ 0)
    (hs : r.code ≠ .start) {t : Text} (ht : t.all isPlain = true) (hne : t ≠ []) :
    r.run t = r.unescaped := by
  induction t generalizing r with
  | nil => exact absurd rfl hne
  | cons c rest ih =>
    rw [List.all_cons, Bool.and_eq_true] at ht
    rw [run_cons, h.step_plain_inside hr hs ht.1]
    by_cases hrest : rest = []
    · rw [hrest]
      rfl
    · exact ih (h.unescaped hs) hr (h.unescaped_ne_start hs) ht.2 hrest

/-- Behind a parenthesis or a comma: what is read next, if it is a blank or a comma, is read without
noticing. -/
structure Ready (r : CallReading) : Prop where
  sound : r.Sound
  escaped : r.parens ≠ 0 → r.code.escaped = false
  argument : r.parens ≠ 0 → r.code = .start → r.argument = .fresh

lemma ready_start : start.Ready := ⟨sound_start, fun _ => rfl, fun _ _ => rfl⟩

lemma Sound.ready_comma {r : CallReading} (h : r.Sound) : (r.step ',').Ready := by
  refine ⟨h.step ',', ?_, ?_⟩
  · intro hopen
    have hr := (closesAt_of_open hopen).1
    by_cases hs : r.code = .start
    · rw [step_comma_top hr hs]
      show r.code.escaped = false
      rw [hs]
      rfl
    · rw [h.step_plain_inside hr hs (by decide)]
      rfl
  · intro hopen htop
    have hr := (closesAt_of_open hopen).1
    by_cases hs : r.code = .start
    · rw [step_comma_top hr hs]
      rfl
    · rw [h.step_plain_inside hr hs (by decide)] at htop
      exact absurd htop (h.unescaped_ne_start hs)

lemma Sound.ready_paren {r : CallReading} (h : r.Sound) : (r.step '(').Ready := by
  obtain ⟨hescaped, hinside⟩ := h.code.step_paren
  have hcode : (r.step '(').parens ≠ 0 → (r.step '(').code = (r.code.step '(').1 :=
    fun hopen => code_step (closesAt_of_open hopen).1 '('
  refine ⟨h.step '(', fun hopen => ?_, fun hopen htop => ?_⟩
  · rw [hcode hopen, hescaped]
  · rw [hcode hopen] at htop
    exact absurd htop hinside

lemma Ready.unescaped_eq {r : CallReading} (h : r.Ready) (hr : r.parens ≠ 0) :
    r.unescaped = r := by
  have he := h.escaped hr
  obtain ⟨⟨quote, escaped, depth⟩, parens, argument, count, special⟩ := r
  obtain rfl : escaped = false := he
  rfl

lemma Ready.step_blank {r : CallReading} (h : r.Ready) {c : Char} (hc : isBlank c = true) :
    r.step c = r := by
  by_cases hr : r.parens = 0
  · exact step_of_closed hr c
  have hplain := isPlain_of_isBlank hc
  by_cases hs : r.code = .start
  · rw [step_plain_top hr hs hplain (ne_of_isBlank hc (by decide)), h.argument hr hs,
      ArgumentReading.step_fresh_blank true hc, ← h.argument hr hs]
  · rw [h.sound.step_plain_inside hr hs hplain, h.unescaped_eq hr]

lemma Ready.step_comma {r : CallReading} (h : r.Ready) : r.step ',' = r := by
  by_cases hr : r.parens = 0
  · exact step_of_closed hr ','
  by_cases hs : r.code = .start
  · have hfresh := h.argument hr hs
    rw [step_comma_top hr hs]
    obtain ⟨code, parens, argument, count, special⟩ := r
    obtain rfl : argument = .fresh := hfresh
    simp [endArgument, ArgumentReading.fresh, ArgumentReading.isSpecial, Sign.isKeyword]
  · rw [h.sound.step_plain_inside hr hs (by decide), h.unescaped_eq hr]

lemma Ready.run_blanks {r : CallReading} (h : r.Ready) {t : Text} (ht : t.isAllBlank = true) :
    r.run t = r := by
  induction t with
  | nil => rfl
  | cons c rest ih =>
    simp only [isAllBlank, List.all_cons, Bool.and_eq_true] at ht
    rw [run_cons, h.step_blank ht.1]
    exact ih ht.2

/-- Blanks before a comma are read without noticing. -/
lemma Sound.step_blank_comma {r : CallReading} (h : r.Sound) {c : Char} (hc : isBlank c = true) :
    (r.step c).step ',' = r.step ',' := by
  by_cases hr : r.parens = 0
  · rw [step_of_closed hr]
  have hplain := isPlain_of_isBlank hc
  by_cases hs : r.code = .start
  · have hstep := step_plain_top hr hs hplain (ne_of_isBlank hc (by decide))
    rw [step_comma_top hr hs, step_comma_top (by rwa [hstep]) (by rwa [hstep]), hstep]
    have hspecial := h.argument.isSpecial_step_blank true hc
    have hstarted : (r.argument.step true c).started = r.argument.started := by
      simp [ArgumentReading.step, hc]
    simp only [endArgument, hspecial, hstarted]
  · rw [h.step_plain_inside hr hs hplain, h.step_plain_inside hr hs (by decide)]
    exact (h.unescaped hs).step_plain_inside hr (h.unescaped_ne_start hs) (by decide)

lemma Sound.run_blanks_comma {r : CallReading} (h : r.Sound) {t : Text}
    (ht : t.isAllBlank = true) : (r.run t).step ',' = r.step ',' := by
  induction t generalizing r with
  | nil => rfl
  | cons c rest ih =>
    simp only [isAllBlank, List.all_cons, Bool.and_eq_true] at ht
    rw [run_cons, ih (h.step c) ht.2, h.step_blank_comma ht.1]

/-- A piece of code and a comma behind it are read like the trimmed piece, a comma and a space. -/
lemma Ready.run_piece {r : CallReading} (h : r.Ready) (piece : Text) :
    r.run (piece ++ [',']) = r.run (trim piece ++ [',', ' ']) := by
  obtain ⟨front, back, hpiece, hfront, hback⟩ := trim_append piece
  have htrim := (h.sound.run (trim piece))
  calc r.run (piece ++ [','])
      = r.run (front ++ (trim piece ++ (back ++ [',']))) := by
        rw [← List.append_assoc, ← List.append_assoc, ← hpiece]
    _ = ((r.run (trim piece)).run back).step ',' := by
        rw [run_append, h.run_blanks hfront, run_append, run_append]
        rfl
    _ = ((r.run (trim piece)).step ',').step ' ' := by
        rw [htrim.run_blanks_comma hback, htrim.ready_comma.step_blank (by decide)]
    _ = r.run (trim piece ++ [',', ' ']) := by
        rw [run_append]
        rfl

/-- The pieces between commas are read like those of them that are not blank, trimmed. -/
lemma Ready.run_pieces {r : CallReading} (h : r.Ready) (pieces : List Text) :
    r.run (pieces.flatMap (· ++ [','])) =
      r.run (((pieces.map trim).filter fun a => !a.isEmpty).flatMap (· ++ [',', ' '])) := by
  induction pieces generalizing r with
  | nil => rfl
  | cons piece rest ih =>
    have hready : (r.run (piece ++ [','])).Ready := by
      rw [run_append]
      exact (h.sound.run piece).ready_comma
    rw [List.flatMap_cons, run_append, ih hready, List.map_cons]
    by_cases hblank : trim piece = []
    · have hskip : r.run (piece ++ [',']) = r := by
        rw [h.run_piece, hblank]
        show (r.step ',').step ' ' = r
        rw [h.step_comma, h.step_blank (by decide)]
      rw [hskip, List.filter_cons_of_neg (by simp [hblank])]
    · rw [List.filter_cons_of_pos (by simp [hblank]), List.flatMap_cons, run_append _ (trim piece ++ _), h.run_piece]

/-- The arguments that a completed call gets. -/
def fill (missing : Nat) : Text := join ", " (List.replicate missing ("None" : Text))

/-- What stands between the parentheses of a completed call is read like the original with a comma
behind it, and the arguments that were added. -/
lemma Ready.run_filled {r : CallReading} (h : r.Ready) (inside : Text) {missing : Nat}
    (hm : missing ≠ 0) :
    r.run (join ", " (argumentsOf inside ++ List.replicate missing ("None" : Text))) =
      ((r.run inside).step ',').run (fill missing) := by
  obtain ⟨n, rfl⟩ : ∃ n, missing = n + 1 := Nat.exists_eq_succ_of_ne_zero hm
  have hpieces : inside ++ [','] = (rawPieces ',' inside).flatMap (· ++ [',']) := by
    rw [rawPieces, ← join_append_sep, join_piecesFrom]
  have hcomma : (r.run inside).step ',' = r.run (inside ++ [',']) := by
    rw [run_append]
    rfl
  rw [hcomma, hpieces, h.run_pieces, ← argumentsOf_eq, ← run_append, fill, List.replicate_succ,
    join_append_cons]
  rfl

/-- The argument that is read while `None` is. -/
def ofNone : ArgumentReading := ⟨true, false, .unseen⟩

lemma fill_succ_succ (n : Nat) :
    fill (n + 2) = ("None" : Text) ++ [',', ' '] ++ fill (n + 1) := rfl

lemma all_isPlain_fill (missing : Nat) : (fill missing).all isPlain = true := by
  induction missing with
  | zero => rfl
  | succ n ih =>
    cases n with
    | zero => decide
    | succ n =>
      rw [fill_succ_succ, List.all_append, ih]
      decide

lemma fill_ne_nil {missing : Nat} (hm : missing ≠ 0) : fill missing ≠ [] := by
  obtain ⟨n, rfl⟩ := Nat.exists_eq_succ_of_ne_zero hm
  cases n with
  | zero => decide
  | succ n =>
    rw [fill_succ_succ]
    exact List.append_ne_nil_of_left_ne_nil (by decide) _

lemma run_none {r : CallReading} (hr : r.parens ≠ 0) (hs : r.code = .start)
    (hfresh : r.argument = .fresh) : r.run ("None" : Text) = { r with argument := ofNone } := by
  have hstep : ∀ (a : ArgumentReading) (c : Char), isPlain c = true → c ≠ ',' →
      ({ r with argument := a } : CallReading).step c = { r with argument := a.step true c } :=
    fun a c hc hcomma => step_plain_top (by exact hr) (by exact hs) hc hcomma
  calc r.run ("None" : Text)
      = (((({ r with argument := .fresh } : CallReading).step 'N').step 'o').step 'n').step 'e' := by
        rw [← hfresh]
        rfl
    _ = { r with argument := ofNone } := by
        rw [hstep _ 'N' (by decide) (by decide), hstep _ 'o' (by decide) (by decide),
          hstep _ 'n' (by decide) (by decide), hstep _ 'e' (by decide) (by decide)]
        rfl

/-- Between the arguments of a call, what is filled in is counted as arguments. -/
lemma run_fill_top {r : CallReading} (hr : r.parens ≠ 0) (hs : r.code = .start)
    (hfresh : r.argument = .fresh) (n : Nat) :
    r.run (fill (n + 1)) = { r with argument := ofNone, count := r.count + n } := by
  induction n generalizing r with
  | zero => exact run_none hr hs hfresh
  | succ n ih =>
    let next : CallReading := { r with count := r.count + 1 }
    have hcomma : ({ r with argument := ofNone } : CallReading).step ',' = next := by
      rw [step_comma_top]
      · simp [next, endArgument, hfresh, ofNone, ArgumentReading.isSpecial, Sign.isKeyword]
      · exact hr
      · exact hs
    have hready : next.step ' ' = next := by
      rw [← hcomma, Ready.step_blank _ (by decide)]
      apply Sound.ready_comma
      exact ⟨hs ▸ CodeState.sound_start, by rintro ⟨⟩, fun _ h => absurd hs h, by rintro ⟨⟩⟩
    calc r.run (fill (n + 2))
        = (((r.run ("None" : Text)).step ',').step ' ').run (fill (n + 1)) := by
          rw [fill_succ_succ, run_append, run_append]
          rfl
      _ = next.run (fill (n + 1)) := by rw [run_none hr hs hfresh, hcomma, hready]
      _ = { next with argument := ofNone, count := next.count + n } := ih hr hs hfresh
      _ = { r with argument := ofNone, count := r.count + (n + 1) } := by
          simp [next, Nat.add_comm, Nat.add_left_comm]

end CallReading

end Marginalia.Repair
