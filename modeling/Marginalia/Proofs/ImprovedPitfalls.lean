import Marginalia.Proofs.CompletionEnd
import Marginalia.Proofs.ImprovedLines
import Mathlib.Algebra.Ring.Int.Defs
import Mathlib.Data.List.TakeDrop

/-!
# Mended pitfalls improve texts

Calls that replace other code gain a parenthesis, an increment loses the quotes around its number, a
range the step by which it was too long, and a call that lacks arguments gains some.
-/

namespace Marginalia.Repair

open Text

lemma gains_clockRule : clockRule.Gains := by
  intro b t n new hr
  obtain ⟨rest, ht, hn, rfl⟩ := eq_of_freshLiteral hr
  exact ⟨_, rest, ht, hn, by decide, .inr (by decide)⟩

lemma eq_of_rangeRule {b : Before} {t new : Text} {n : Nat} (h : rangeRule b t = some (n, new)) :
    ∃ gap plain gap₁ gap₂ gap₃ rest : Text, (gap ++ (gap₁ ++ (gap₂ ++ gap₃))).isAllBlank = true ∧
      let old : Text := "range(" ++ (gap ++ ("len(" ++ (plain ++ (")" ++ (gap₁ ++ ("+" ++ (gap₂ ++
        ("1" ++ (gap₃ ++ ")")))))))))
      t = old ++ rest ∧ n = old.length ∧ new = "range(len(" ++ plain ++ "))" := by
  simp only [rangeRule, Option.bind_eq_bind, Option.bind_eq_some_iff, Option.guard_eq_some'] at h
  obtain ⟨-, -, t₁, h₁, t₂, h₂, t₃, h₃, t₄, h₄, t₅, h₅, t₆, h₆, heq⟩ := h
  obtain ⟨rfl, rfl⟩ := Prod.mk.inj (Option.some.inj heq)
  generalize hplain : t₂.takeWhile (fun c => c != '(' && c != ')') = plain
  have ht₂ : t₂ = plain ++ (")" ++ t₃) := by
    rw [← (after?_eq_some_iff _ _ _).mp h₃, ← hplain, List.takeWhile_append_dropWhile]
  have ht : t = ("range(" ++ (t₁.indentation ++ ("len(" ++ (plain ++ (")" ++ (t₃.indentation ++ ("+" ++
      (t₄.indentation ++ ("1" ++ (t₅.indentation ++ ")")))))))))) ++ t₆ := by
    rw [(after?_eq_some_iff _ _ _).mp h₁]
    conv_lhs => rw [eq_of_afterBlanksAnd? h₂, ht₂, eq_of_afterBlanksAnd? h₄,
      eq_of_afterBlanksAnd? h₅, eq_of_afterBlanksAnd? h₆]
    simp only [List.append_assoc]
  refine ⟨t₁.indentation, plain, t₃.indentation, t₄.indentation, t₅.indentation, t₆, ?_, ht, ?_, rfl⟩
  · have hblank := isAllBlank_indentation
    unfold isAllBlank at hblank ⊢
    simp only [List.all_append, hblank, Bool.and_self]
  · conv_lhs => rw [ht, length_of_taken]

lemma gains_rangeRule : rangeRule.Gains := by
  intro b t n new hr
  obtain ⟨gap, plain, gap₁, gap₂, gap₃, rest, hblank, ht, hn, rfl⟩ := eq_of_rangeRule hr
  refine ⟨_, rest, ht, hn, by simp, .inr ?_⟩
  have hgaps := weight_blanks hblank
  have hnumbers : weight ("range(len(" : Text) = weight ("range(" : Text) + weight ("len(" : Text) ∧
      weight ("))" : Text) = weight (")" : Text) + weight (")" : Text) ∧
      weight ("+" : Text) = -1 ∧ weight ("1" : Text) = 0 := ⟨rfl, rfl, rfl, rfl⟩
  simp only [weight_append] at hgaps ⊢
  omega

/-! Reads of keys. -/

lemma eq_of_plainLiteral? {t literal rest : Text} (h : plainLiteral? t = some (literal, rest)) :
    t = literal ++ rest := by
  cases t with
  | nil => cases h
  | cons q t =>
    rw [plainLiteral?] at h
    split at h
    · split at h
      · next inside c after hspan =>
        split at h
        · next hc =>
          obtain ⟨rfl, rfl⟩ := Prod.mk.inj (Option.some.inj h)
          rw [List.span_eq_takeWhile_dropWhile] at hspan
          obtain ⟨hinside, hafter⟩ := Prod.mk.inj hspan
          rw [← List.takeWhile_append_dropWhile (p := fun c => c != q && c != '\\') (l := t),
            hinside, hafter, beq_iff_eq.mp hc]
          simp
        · cases h
      · cases h
    · cases h

lemma eq_of_keyRead? {t name key after : Text} (h : keyRead? t = some (name, key, after)) :
    ∃ gap gap' : Text, gap.isAllBlank = true ∧ gap'.isAllBlank = true ∧
      t = (name ++ ("[" ++ (gap ++ (key ++ (gap' ++ "]"))))) ++ after := by
  simp only [keyRead?, Option.bind_eq_bind, Option.bind_eq_some_iff, Prod.exists] at h
  obtain ⟨name', rest, hname, inside, hopen, key', behind, hkey, after', hclose, heq⟩ := h
  obtain ⟨rfl, rfl, rfl⟩ : name' = name ∧ key' = key ∧ after' = after := by
    simpa using Option.some.inj heq
  refine ⟨inside.indentation, behind.indentation, isAllBlank_indentation _,
    isAllBlank_indentation _, ?_⟩
  rw [(eq_of_name? hname).1, (after?_eq_some_iff _ _ _).mp hopen]
  conv_lhs => rw [trimStart_append inside, eq_of_plainLiteral? hkey, eq_of_afterBlanksAnd? hclose]
  simp only [List.append_assoc]

lemma gains_keyRule : keyRule.Gains := by
  intro b t n new hr
  simp only [keyRule, Option.bind_eq_bind, Option.bind_eq_some_iff, Option.guard_eq_some',
    Prod.exists] at hr
  obtain ⟨-, -, name, key, after, hread, hr⟩ := hr
  obtain ⟨gap, gap', hgap, hgap', rfl⟩ := eq_of_keyRead? hread
  rw [length_of_taken, List.take_left] at hr
  split at hr
  · obtain ⟨rfl, rfl⟩ := Prod.mk.inj (Option.some.inj hr)
    refine ⟨_, after, rfl, rfl, by simp, .inr ?_⟩
    have hnumbers : weight (".get(" : Text) = 99 ∧ weight (")" : Text) = 0 ∧
        weight ("[" : Text) = 0 ∧ weight ("]" : Text) = 0 := ⟨rfl, rfl, rfl, rfl⟩
    simp only [weight_append, weight_blanks hgap, weight_blanks hgap']
    omega
  · obtain ⟨rfl, rfl⟩ := Prod.mk.inj (Option.some.inj hr)
    exact ⟨_, after, rfl, rfl, by simp, .inl rfl⟩

lemma enriches_guardKeys? : Enriches guardKeys? := by
  intro code code' h
  rw [guardKeys?] at h
  split at h
  · cases h
  · exact gains_keyRule.substitute? h

/-! Operands of printed sums. -/

lemma holds_of_splitAtPlace? {p : Option Char → Text → Bool} {prev : Option Char}
    {t head tail : Text} (h : splitAtPlace? p prev t = some (head, tail)) :
    ∃ prev', p prev' tail = true := by
  induction t generalizing prev head with
  | nil => cases h
  | cons c rest ih =>
    rw [splitAtPlace?] at h
    split at h
    · next hp =>
      obtain ⟨-, rfl⟩ := Prod.mk.inj (Option.some.inj h)
      exact ⟨prev, hp⟩
    · obtain ⟨⟨head', tail'⟩, hrest, heq⟩ := Option.map_eq_some_iff.mp h
      obtain ⟨-, rfl⟩ := Prod.mk.inj heq
      exact ih hrest

lemma convertOperand_heavier (texts : List Text) (piece : Text) :
    Heavier piece (convertOperand texts piece) := by
  rw [convertOperand]
  split
  · right
    obtain ⟨margin, happ, hmargin⟩ := trimEnd_append piece
    have hdrop : piece.drop (trimEnd piece).length = margin := by
      calc piece.drop (trimEnd piece).length
          = (trimEnd piece ++ margin).drop (trimEnd piece).length := by rw [← happ]
        _ = margin := List.drop_left
    have hadded : weight ("str(" : Text) = 109 ∧ weight (")" : Text) = 0 := ⟨rfl, rfl⟩
    simp only [weight_append, weight_indentation, weight_trim, hdrop, weight_blanks hmargin]
    omega
  · exact .refl piece

/-- Pieces that become heavier make the text that they are joined to heavier. -/
lemma Heavier.join (sep : Text) {f : Text → Text} (hf : ∀ piece, Heavier piece (f piece))
    (pieces : List Text) : Heavier (join sep pieces) (join sep (pieces.map f)) := by
  induction pieces with
  | nil => exact .refl []
  | cons p rest ih =>
    cases rest with
    | nil => exact hf p
    | cons q rest =>
      rw [List.map_cons] at ih
      rw [List.map_cons, List.map_cons, join_cons_cons, join_cons_cons]
      rcases hf p with hp | hp
      · rcases ih with ih | ih
        · exact .inl (by rw [hp, ih])
        · right
          simp only [hp, weight_append]
          omega
      · have hrest : weight (Text.join sep (q :: rest)) ≤
            weight (Text.join sep (f q :: rest.map f)) := by
          rcases ih with ih | ih
          · exact Int.le_of_eq (by rw [ih])
          · omega
        right
        simp only [weight_append]
        omega

lemma convertArgument_heavier (texts : List Text) (argument : Text) :
    Heavier argument (convertArgument texts argument) := by
  rw [convertArgument]
  split
  · have hjoin := Heavier.join "+" (convertOperand_heavier texts) (rawPieces '+' argument)
    rwa [show join "+" (rawPieces '+' argument) = argument from join_rawPieces '+' argument] at hjoin
  · exact .refl argument

lemma convertArguments_heavier (texts : List Text) (arguments : Text) :
    Heavier arguments (convertArguments texts arguments) := by
  have hjoin := Heavier.join "," (convertArgument_heavier texts) (rawPieces ',' arguments)
  rwa [show join "," (rawPieces ',' arguments) = arguments from join_rawPieces ',' arguments] at hjoin

/-- For a text that starts with a parenthesis: what stands inside, and what follows. -/
lemma eq_of_bracketed? {t inside after : Text} (h : bracketed? ('(' :: t) = some (inside, after)) :
    '(' :: t = "(" ++ (inside ++ (")" ++ after)) := by
  obtain ⟨ht, -⟩ := (CallReading.bracketed?_eq_some_iff t inside after).mp h
  rw [ht]
  rfl

lemma eq_of_convertPrinted? {texts : List Text} {code code' : Text}
    (h : convertPrinted? texts code = some code') : ∃ head inside after : Text,
      code = head ++ ("print(" ++ (inside ++ (")" ++ after))) ∧
      code' = head ++ ("print(" ++ (convertArguments texts inside ++ (")" ++ after))) ∧
      code' ≠ code := by
  simp only [convertPrinted?, Option.bind_eq_bind, Option.bind_eq_some_iff, Prod.exists] at h
  obtain ⟨head, call, hsplit, inside, after, hinside, h⟩ := h
  obtain ⟨prev, hplace⟩ := holds_of_splitAtPlace? hsplit
  obtain ⟨rest, rfl⟩ := (startsWith_iff call _).mp ((Bool.and_eq_true _ _).mp hplace).2
  have hcall : ("print(" ++ rest : Text) = "print(" ++ (inside ++ (")" ++ after)) := by
    have hbracket := eq_of_bracketed? (t := rest) hinside
    exact congrArg (("print" : Text) ++ ·) hbracket
  obtain ⟨rfl, hne⟩ := eq_of_changed? h
  have hcode := eq_of_splitAtPlace? hsplit
  rw [hcall] at hcode
  refine ⟨head, inside, after, hcode, ?_, hne⟩
  simp only [List.append_assoc]

lemma enriches_convertPrinted? (texts : List Text) : Enriches (convertPrinted? texts) := by
  intro code code' h
  obtain ⟨head, inside, after, rfl, rfl, hne⟩ := eq_of_convertPrinted? h
  rcases convertArguments_heavier texts inside with heq | hlt
  · exact absurd (by rw [heq]) hne
  · simp only [weight_append]
    omega

/-! Converted input, and increments. -/

lemma eq_of_assigned? {code name value : Text} (h : assigned? code = some (name, value)) :
    ∃ head, code = head ++ value := by
  simp only [assigned?, Option.bind_eq_bind, Option.bind_eq_some_iff, Prod.exists] at h
  obtain ⟨name', rest, hname, value', hvalue, heq⟩ := h
  obtain ⟨rfl, rfl⟩ := Prod.mk.inj (Option.some.inj heq)
  refine ⟨code.indentation ++ name' ++ rest.indentation ++ "=", ?_⟩
  calc code = code.indentation ++ (name' ++ rest) := by
        rw [← (eq_of_name? hname).1]
        exact trimStart_append code
    _ = code.indentation ++ (name' ++ (rest.indentation ++ ("=" ++ value'))) := by
        rw [← eq_of_afterBlanksAnd? hvalue]
    _ = _ := by simp only [List.append_assoc]

lemma eq_of_inputAssignment? {code name head call : Text}
    (h : inputAssignment? code = some (name, head, call)) :
    ∃ rest, call = '(' :: rest ∧ code = head ++ ("input" ++ call) := by
  simp only [inputAssignment?, Option.bind_eq_bind, Option.bind_eq_some_iff, Prod.exists] at h
  obtain ⟨name', value, hassigned, rest, hinput, hcall⟩ := h
  obtain ⟨hparen, hcall⟩ := Option.ite_none_right_eq_some.mp hcall
  obtain ⟨rfl, rfl, rfl⟩ : name' = name ∧ before code value.trimStart = head ∧ rest = call := by
    simpa using Option.some.inj hcall
  obtain ⟨t, rfl⟩ := (startsWith_iff rest _).mp hparen
  obtain ⟨target, hcode⟩ := eq_of_assigned? hassigned
  have hparts : code = (target ++ value.indentation) ++ value.trimStart := by
    rw [List.append_assoc, ← trimStart_append, ← hcode]
  have hhead : before code value.trimStart = target ++ value.indentation := by
    rw [hparts, before_append]
  refine ⟨t, rfl, ?_⟩
  rw [hhead, ← (after?_eq_some_iff _ _ _).mp hinput]
  exact hparts

lemma eq_of_convertInput? {later : List (LineInfo × Text)} {code code' : Text}
    (h : convertInput? later code = some code') : ∃ head inside after : Text,
      after.isAllBlank = true ∧ code = head ++ ("input" ++ ("(" ++ (inside ++ (")" ++ after)))) ∧
      code' = head ++ ("int(input(" ++ (inside ++ "))")) := by
  simp only [convertInput?, Option.bind_eq_bind, Option.bind_eq_some_iff, Prod.exists] at h
  obtain ⟨name, head, call, hinput, inside, after, hinside, h⟩ := h
  obtain ⟨rest, rfl, hcode⟩ := eq_of_inputAssignment? hinput
  obtain ⟨hafter, heq⟩ := Option.ite_none_right_eq_some.mp h
  refine ⟨head, inside, after, ((Bool.and_eq_true _ _).mp hafter).1, ?_, ?_⟩
  · rw [hcode, eq_of_bracketed? hinside]
  · rw [← Option.some.inj heq]
    simp only [List.append_assoc]

lemma enriches_convertInput? (later : List (LineInfo × Text)) : Enriches (convertInput? later) := by
  intro code code' h
  obtain ⟨head, inside, after, hafter, rfl, rfl⟩ := eq_of_convertInput? h
  have hadded : weight ("input" : Text) = -2 ∧ weight ("int(input(" : Text) = 196 ∧
      weight ("(" : Text) = 100 ∧ weight (")" : Text) = 0 ∧ weight ("))" : Text) = 0 :=
    ⟨rfl, rfl, rfl, rfl, rfl⟩
  simp only [weight_append, weight_blanks hafter]
  omega

lemma eq_of_assignedPath? {sign code path value : Text}
    (h : assignedPath? sign code = some (path, value)) :
    ∃ gap : Text, gap.isAllBlank = true ∧
      code = code.indentation ++ (path ++ (gap ++ (sign ++ value))) := by
  simp only [assignedPath?, Option.bind_eq_bind, Option.bind_eq_some_iff, Prod.exists] at h
  obtain ⟨path', rest, hpath, value', hvalue, heq⟩ := h
  obtain ⟨rfl, rfl⟩ := Prod.mk.inj (Option.some.inj heq)
  refine ⟨rest.indentation, isAllBlank_indentation rest, ?_⟩
  rw [← eq_of_afterBlanksAnd? hvalue, ← eq_of_path? hpath]
  exact trimStart_append code

lemma weight_quotedNumber? {t digits : Text} (h : quotedNumber? t = some digits) :
    weight t = weight digits - 2 := by
  cases t with
  | nil => cases h
  | cons q rest =>
    rw [quotedNumber?] at h
    split at h
    · next hc =>
      simp only at h
      split at h
      · obtain rfl := Option.some.inj h
        simp only [Bool.and_eq_true, Bool.or_eq_true, beq_iff_eq] at hc
        obtain ⟨hquote, hlast⟩ := hc
        have hrest : weight rest = weight rest.dropLast + weight [q] := by
          conv_lhs => rw [← List.dropLast_append_getLast? q hlast, weight_append]
        have hq : charWeight q = -1 := by
          rcases hquote with rfl | rfl
          · rfl
          · rfl
        simp only [weight_cons, weight_nil, hq] at hrest ⊢
        omega
      · cases h
    · cases h

lemma enriches_incrementByNumber? : Enriches incrementByNumber? := by
  intro code code' h
  simp only [incrementByNumber?, Option.bind_eq_bind, Option.bind_eq_some_iff, Prod.exists,
    Option.guard_eq_some'] at h
  obtain ⟨path, value, hpath, digits, hdigits, -, -, h⟩ := h
  obtain ⟨gap, hgap, hcode⟩ := eq_of_assignedPath? hpath
  have hvalue := weight_quotedNumber? hdigits
  have hweight : weight code = weight path + (weight ("+=" : Text) + weight value) := by
    conv_lhs => rw [hcode]
    simp only [weight_append, weight_indentation, weight_blanks hgap]
    omega
  have hsign : weight (" += " : Text) = weight ("+=" : Text) := rfl
  rw [weight_trimStart] at hvalue
  rw [← Option.some.inj h]
  simp only [weight_append, weight_indentation, hsign]
  omega

/-! Completed calls. -/

lemma weight_join {sep : Text} (hsep : weight sep = 0) (pieces : List Text) :
    weight (join sep pieces) = (pieces.map weight).sum := by
  induction pieces with
  | nil => rfl
  | cons p rest ih =>
    cases rest with
    | nil => simp [join]
    | cons q rest =>
      rw [join_cons_cons, weight_append, weight_append, ih, hsep]
      simp only [List.map_cons, List.sum_cons]
      omega

lemma weight_arguments (inside : Text) :
    ((argumentsOf inside).map weight).sum = weight inside := by
  have hpieces : ∀ pieces : List Text,
      ((((pieces.map trim).filter fun a => !a.isEmpty)).map weight).sum =
        (pieces.map weight).sum := by
    intro pieces
    induction pieces with
    | nil => rfl
    | cons p rest ih =>
      rw [List.map_cons, List.map_cons, List.sum_cons, ← ih]
      by_cases hblank : trim p = []
      · have hp : weight p = 0 := by rw [← weight_trim, hblank, weight_nil]
        rw [List.filter_cons_of_neg (by simp [hblank]), hp, Int.zero_add]
      · rw [List.filter_cons_of_pos (by simp [hblank]), List.map_cons, List.sum_cons, weight_trim]
  have hjoin : join [','] (rawPieces ',' inside) = inside := join_rawPieces ',' inside
  rw [argumentsOf_eq, hpieces, ← weight_join (show weight ([','] : Text) = 0 from rfl), hjoin]

lemma weight_filled (inside : Text) (missing : Nat) :
    weight (filled inside missing) = weight inside + 9 * missing := by
  have hnone : ((List.replicate missing ("None" : Text)).map weight).sum = 9 * (missing : Int) := by
    induction missing with
    | zero => rfl
    | succ n ih =>
      have hword : weight ("None" : Text) = 9 := rfl
      rw [List.replicate_succ, List.map_cons, List.sum_cons, ih, hword]
      omega
  rw [filled, weight_join rfl, List.map_append, List.sum_append, weight_arguments, hnone]

lemma Picked.weight_lt {prev : Option Char} {code : Text} {call : ShortCall}
    {before inside after : Text} (h : Picked prev code call before inside after) :
    weight code < weight call.completed := by
  have hmissing := h.missing
  rw [h.completed, h.code]
  simp only [weight_append, weight_cons, weight_filled]
  omega

lemma completeCallsWithin_heavier {arities : Arities} {fuel : Nat} {code code' : Text}
    {added : List (Text × Nat)} (h : completeCallsWithin arities fuel code = some (added, code')) :
    Heavier code code' :=
  completeCallsWithin_induction (fun code _ => .refl code) (fun _ _ _ hc ih => by
    obtain ⟨before, inside, after, hpicked⟩ := shortCall?_picked hc
    exact Heavier.trans (.inr hpicked.weight_lt) ih) h

lemma pitfallDraft?_heavier {arities : Arities} {texts : List Text}
    {later : List (LineInfo × Text)} {code : Text} {d : Draft}
    (h : pitfallDraft? arities texts later code = some d) : Heavier code d.code := by
  have hmended := (((((Draft.mend_heavier gains_clockRule.enriches (.ofCode code) .clock).trans
    (Draft.mend_heavier (enriches_convertPrinted? texts) _ .textConversion)).trans
    (Draft.mend_heavier (enriches_convertInput? later) _ .numberConversion)).trans
    (Draft.mend_heavier gains_rangeRule.enriches _ .rangeEnd)).trans
    (Draft.mend_heavier enriches_guardKeys? _ .keyRead)).trans
    (Draft.mend_heavier enriches_incrementByNumber? _ .increment)
  unfold pitfallDraft? completeArguments? at h
  split at h
  · exact Option.some.inj h ▸ hmended
  · obtain ⟨⟨added, code'⟩, hcalls, rfl⟩ := Option.map_eq_some_iff.mp h
    exact hmended.trans (completeCallsWithin_heavier hcalls)

lemma pitfallStep_improved {arities : Arities} {texts : List Text} {s : Site} {r : Revised}
    (h : (pitfallStep arities texts s).2 = some r) : s.ImprovedBy r := by
  unfold pitfallStep at h
  split at h
  · cases hd : pitfallDraft? arities texts s.later s.code with
    | none =>
      rw [hd] at h
      cases h
    | some d =>
      rw [hd] at h
      exact Option.some.inj h ▸ Site.improvedBy_ofDraft (pitfallDraft?_heavier hd)
  · exact Option.some.inj h ▸ s.improvedBy_same

lemma forall₂_of_mapM_id {α : Type} {xs : List (Option α)} {ys : List α}
    (h : xs.mapM id = some ys) : List.Forall₂ (fun x y => x = some y) xs ys := by
  induction xs generalizing ys with
  | nil =>
    obtain rfl : [] = ys := by simpa using h
    exact .nil
  | cons x rest ih =>
    simp only [List.mapM_cons, id_eq, Option.bind_eq_bind, Option.bind_eq_some_iff] at h
    obtain ⟨y, hx, ys', hrest, heq⟩ := h
    obtain rfl := Option.some.inj heq
    exact .cons hx (ih hrest)

lemma forall₂_trans {α β γ : Type} {r : α → β → Prop} {s : β → γ → Prop} {t : α → γ → Prop}
    (h : ∀ a b c, r a b → s b c → t a c) {as : List α} {bs : List β} {cs : List γ}
    (hab : List.Forall₂ r as bs) (hbc : List.Forall₂ s bs cs) : List.Forall₂ t as cs := by
  induction hab generalizing cs with
  | nil =>
    cases hbc with
    | nil => exact .nil
  | cons hr _ ih =>
    cases hbc with
    | cons hs hrest => exact .cons (h _ _ _ hr hs) (ih hrest)

lemma pitfalls?_improved {text : Text} {o : Outcome} (h : pitfalls? text = some o) :
    Improved text o.text := by
  obtain ⟨revised, hrevised, rfl⟩ := Option.map_eq_some_iff.mp h
  have hsteps : List.Forall₂ (fun (s : Site) o => ∀ r, o = some r → s.ImprovedBy r)
      (Site.ofLines text.lines)
      (visit (pitfallStep (aritiesOf text.lines)) [] (Site.ofLines text.lines)) :=
    visit_forall₂ (fun _ _ _ _ hr => pitfallStep_improved hr) []
  exact Revised.improved
    (forall₂_trans (fun _ _ r hs hr => hs r hr) hsteps (forall₂_of_mapM_id hrevised))

end Marginalia.Repair
