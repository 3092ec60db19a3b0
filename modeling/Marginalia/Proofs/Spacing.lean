import Marginalia.Proofs.AnnotationLines

/-!
# Comments apart

Comments are placed from the first line to the last, and a line right below a commented one gets
none. Which lines get a comment is determined by that. No two comments are above neighbouring lines,
and there are no more of them than parts of the source.
-/

namespace Marginalia

namespace Commentary

/-- Whether the line numbered `n` got a comment. -/
def Commented (placed : List Placed) (n : Nat) : Prop :=
  (placed[n]?.bind (·.comment)).isSome = true

instance (placed : List Placed) (n : Nat) : Decidable (Commented placed n) :=
  inferInstanceAs (Decidable (_ = true))

/-- Whether the line numbered `n` may get a comment and there is something to say about it. -/
def Deserves (l : Language) (comment : Nat → Option Text) (lines : List Text) (n : Nat) : Prop :=
  (∃ line ∈ lines[n]?, takesComment l line = true) ∧ (comment n).isSome = true

/-! ## The last line with a comment -/

/-- What the placing of comments knows of the lines above `index`: the last of them that is among
the written ones, if any is. -/
structure IsLast (written : Nat → Prop) (index : Nat) (last : Option Nat) : Prop where
  mem : ∀ m ∈ last, m < index ∧ written m
  greatest : ∀ n, written n → n < index → ∃ m ∈ last, n ≤ m

variable {written : Nat → Prop} {index : Nat} {last : Option Nat}

lemma IsLast.zero (written : Nat → Prop) : IsLast written 0 none where
  mem := nofun
  greatest n _ hlt := absurd hlt (Nat.not_lt_zero n)

/-- Two lines or more below the last written one are those whose line above is not written. -/
lemma IsLast.isSpaced_iff (h : IsLast written index last) :
    isSpaced last index = true ↔ ∀ m, m + 1 = index → ¬ written m := by
  cases last with
  | none =>
    refine iff_of_true rfl ?_
    intro m hm hwritten
    obtain ⟨k, hk, -⟩ := h.greatest m hwritten (by omega)
    cases hk
  | some k =>
    obtain ⟨hlt, hwritten⟩ := h.mem k rfl
    rw [isSpaced, Option.all_some, decide_eq_true_iff]
    constructor
    · intro hspaced m hm hmem
      obtain ⟨_, ⟨⟩, hle⟩ := h.greatest m hmem (by omega)
      omega
    · intro habove
      by_contra hnear
      exact habove k (by omega) hwritten

/-- A line that is written is the last one from there on; one that is not changes nothing. -/
lemma IsLast.step (h : IsLast written index last) {text : Option Text}
    (htext : text.isSome = true ↔ written index) :
    IsLast written (index + 1) (lastChosen last index text) := by
  rw [lastChosen]
  by_cases hwritten : text.isSome = true
  · rw [if_pos hwritten]
    constructor
    · rintro _ ⟨⟩
      exact ⟨Nat.lt_succ_self index, htext.mp hwritten⟩
    · intro n _ hlt
      exact ⟨index, rfl, Nat.lt_succ_iff.mp hlt⟩
  · rw [if_neg hwritten]
    constructor
    · intro m hm
      obtain ⟨hlt, hmem⟩ := h.mem m hm
      exact ⟨Nat.lt_succ_of_lt hlt, hmem⟩
    · intro n hn hlt
      refine h.greatest n hn (Nat.lt_of_le_of_ne (Nat.lt_succ_iff.mp hlt) ?_)
      rintro rfl
      exact hwritten (htext.mpr hn)

lemma commented_of_drop {placed rest : List Placed} {p : Placed} {n : Nat}
    (h : placed.drop n = p :: rest) : Commented placed n ↔ p.comment.isSome = true := by
  have hp : placed[n]? = some p := by rw [← List.head?_drop, h, List.head?_cons]
  rw [Commented, hp, Option.bind_some]

/-- At each line the loop knows the last line above that got a comment. -/
lemma exists_isLast (l : Language) (comment : Nat → Option Text) {lines : List Text} {n : Nat}
    (hn : n ≤ lines.length) :
    ∃ last, IsLast (Commented (place l comment lines)) n last ∧
      (place l comment lines).drop n = placeFrom l comment last n (lines.drop n) := by
  induction n with
  | zero => exact ⟨none, .zero _, rfl⟩
  | succ n ih =>
    obtain ⟨last, hlast, hdrop⟩ := ih (by omega)
    have hrest : lines.drop n = lines[n] :: lines.drop (n + 1) := List.drop_eq_getElem_cons hn
    rw [hrest, placeFrom] at hdrop
    refine ⟨_, hlast.step (commented_of_drop hdrop).symm, ?_⟩
    rw [← List.drop_drop, hdrop, List.drop_one, List.tail_cons]

lemma commented_place (l : Language) (comment : Nat → Option Text) (lines : List Text) (n : Nat) :
    Commented (place l comment lines) n ↔
      Deserves l comment lines n ∧ ∀ m, m + 1 = n → ¬ Commented (place l comment lines) m := by
  by_cases hn : n < lines.length
  · obtain ⟨last, hlast, hdrop⟩ := exists_isLast l comment hn.le
    have hrest : lines.drop n = lines[n] :: lines.drop (n + 1) := List.drop_eq_getElem_cons hn
    rw [hrest, placeFrom] at hdrop
    rw [commented_of_drop hdrop, ← hlast.isSpaced_iff, Deserves, Option.isSome_iff_exists,
      Option.isSome_iff_exists, List.getElem?_eq_getElem hn]
    simp only [chosen_eq_some_iff, exists_and_left, Option.mem_def, Option.some.injEq,
      exists_eq_left']
    tauto
  · have hlength : (place l comment lines).length = lines.length := by
      rw [← List.length_map (f := (·.line)), place_lines]
    refine iff_of_false ?_ ?_
    · rw [Commented, List.getElem?_eq_none (by omega)]
      exact Bool.false_ne_true
    · rintro ⟨⟨⟨line, hline, -⟩, -⟩, -⟩
      rw [List.getElem?_eq_none (by omega)] at hline
      cases hline

lemma apart_of_place {l : Language} {comment : Nat → Option Text} {lines : List Text} {m n : Nat}
    (hm : Commented (place l comment lines) m) (hn : Commented (place l comment lines) n)
    (hlt : m < n) : m + 2 ≤ n := by
  have hnext : m + 1 ≠ n := fun heq => ((commented_place ..).mp hn).2 m heq hm
  omega

/-! ## The number of comments -/

lemma countP_line (remarks : List Remark) (index : Nat) :
    remarks.countP (index ≤ ·.line) =
      remarks.countP (·.line = index) + remarks.countP (index + 1 ≤ ·.line) := by
  induction remarks with
  | nil => rfl
  | cons remark rest ih =>
    simp only [List.countP_cons, ih, decide_eq_true_eq]
    split_ifs <;> omega

/-- Each comment is the text of a remark about its line. -/
lemma countP_placeFrom (l : Language) (remarks : List Remark) (last : Option Nat) (index : Nat)
    (lines : List Text) :
    (placeFrom l (commentOn remarks) last index lines).countP (·.comment.isSome) ≤
      remarks.countP (index ≤ ·.line) := by
  -- The remarks about a line are counted there, and those about later lines are left to the rest.
  induction lines generalizing last index with
  | nil => exact Nat.zero_le _
  | cons line rest ih =>
    rw [placeFrom, List.countP_cons, countP_line, Nat.add_comm]
    refine Nat.add_le_add ?_ (ih _ (index + 1))
    cases hchosen : chosen l (commentOn remarks) last index line with
    | none => exact Nat.zero_le _
    | some text =>
      obtain ⟨-, htext⟩ := chosen_eq_some_iff.mp hchosen
      obtain ⟨remark, hremark, hline, -⟩ := exists_remark_of_commentOn htext
      exact List.countP_pos_iff.mpr ⟨remark, hremark, by simpa using hline⟩

lemma countP_place (l : Language) (remarks : List Remark) (lines : List Text) :
    (place l (commentOn remarks) lines).countP (·.comment.isSome) ≤ remarks.length :=
  (countP_placeFrom l remarks none 0 lines).trans List.countP_le_length

mutual

lemma length_partsIn (function : Option Text) (node : Node) :
    (partsIn function node).length = node.count := by
  match node with
  | .mk kind line children =>
    rw [partsIn, List.length_cons, length_partsInAll, Node.count, Nat.add_comm]

lemma length_partsInAll (function : Option Text) (nodes : List Node) :
    (partsInAll function nodes).length = Node.countAll nodes := by
  match nodes with
  | [] => rfl
  | node :: nodes =>
    rw [partsInAll, List.length_append, length_partsIn, length_partsInAll, Node.countAll]

end

lemma length_parts (o : Outline) : (parts o).length = o.nodeCount := by
  cases o with
  | tree root =>
    obtain ⟨kind, line, children⟩ := root
    have hcount : (Node.mk kind line children).count = 1 + Node.countAll children := rfl
    rw [parts, length_partsInAll, Outline.nodeCount, hcount, Nat.add_sub_cancel_left]
    rfl
  | flat nodes => exact List.length_map _

lemma length_remarks (l : Language) (v : Verbosity) (o : Outline) :
    (remarks l v o).length ≤ o.nodeCount := by
  rw [remarks_eq, ← length_parts]
  exact List.length_filterMap_le _ _

/-! ## More detail -/

lemma remark?_detailed {l : Language} {function : Option Text} {node : Node} {remark : Remark}
    (h : remark? l .structural function node = some remark) :
    remark? l .detailed function node = some remark := by
  rw [remark?_eq_some_iff] at h ⊢
  obtain ⟨hline, hsentence⟩ := h
  refine ⟨hline, ?_⟩
  unfold sentence? at hsentence ⊢
  cases hs : structuralSentence? l node.kind with
  | none =>
    rw [hs] at hsentence
    cases hsentence
  | some text =>
    rw [hs] at hsentence
    exact hsentence

lemma mem_remarks_detailed {l : Language} {o : Outline} {remark : Remark}
    (h : remark ∈ remarks l .structural o) : remark ∈ remarks l .detailed o := by
  rw [remarks_eq, List.mem_filterMap] at h ⊢
  obtain ⟨part, hpart, hremark⟩ := h
  exact ⟨part, hpart, remark?_detailed hremark⟩

lemma isSome_commentOn_iff (remarks : List Remark) (line : Nat) :
    (commentOn remarks line).isSome = true ↔ ∃ remark ∈ remarks, remark.line = line := by
  constructor
  · intro h
    obtain ⟨text, htext⟩ := Option.isSome_iff_exists.mp h
    obtain ⟨remark, hremark, hline, -⟩ := exists_remark_of_commentOn htext
    exact ⟨remark, hremark, hline⟩
  · rintro ⟨remark, hremark, hline⟩
    simpa [commentOn] using Or.inr ⟨remark, hremark, hline⟩

/-- What is said about the outline at all is said in detail. -/
lemma isSome_commentOn_detailed {l : Language} {o : Outline} {line : Nat}
    (h : (commentOn (remarks l .structural o) line).isSome = true) :
    (commentOn (remarks l .detailed o) line).isSome = true := by
  obtain ⟨remark, hremark, hline⟩ := (isSome_commentOn_iff _ line).mp h
  exact (isSome_commentOn_iff _ line).mpr ⟨remark, mem_remarks_detailed hremark, hline⟩

lemma commented_detailed_iff {l : Language} {o : Outline} {lines : List Text} {n : Nat}
    (h : Commented (place l (commentOn (remarks l .structural o)) lines) n) :
    Commented (place l (commentOn (remarks l .detailed o)) lines) n ↔
      ∀ m, m + 1 = n → ¬ Commented (place l (commentOn (remarks l .detailed o)) lines) m := by
  obtain ⟨⟨htakes, hcomment⟩, -⟩ := (commented_place ..).mp h
  rw [commented_place]
  exact and_iff_right ⟨htakes, isSome_commentOn_detailed hcomment⟩

end Commentary

open Commentary

/-- More detail adds comments, and where it adds one right above a commented line that line loses
its own. So a line that has a comment without the detail keeps one exactly if the line above, which
had none, is still without. -/
theorem annotate_detailed_keeps {l : Language} {source out : Text}
    (h : annotate l .structural source = .ok out) :
    ∃ o, outline l source = .ok o ∧
      let placed v := place l (commentOn (remarks l v o)) source.lines
      (∀ v, (placed v).map (·.line) = source.lines) ∧
        out = written l (placed .structural) ∧
        annotate l .detailed source = .ok (written l (placed .detailed)) ∧
        ∀ n, Commented (placed .structural) n →
          (commentOn (remarks l .detailed o) n).isSome ∧
          (∀ m, m + 1 = n → ¬ Commented (placed .structural) m) ∧
          (Commented (placed .detailed) n ↔ ∀ m, m + 1 = n → ¬ Commented (placed .detailed) m) := by
  cases ho : outline l source with
  | error fault =>
    rw [annotate_eq, ho] at h
    cases h
  | ok o =>
    rw [annotate_eq, ho] at h
    have hdetailed : annotate l .detailed source =
        .ok (written l (place l (commentOn (remarks l .detailed o)) source.lines)) := by
      rw [annotate_eq, ho]
      rfl
    refine ⟨o, rfl, fun v => place_lines l _ source.lines, (Except.ok.inj h).symm, hdetailed,
      fun n hn => ?_⟩
    obtain ⟨⟨-, hcomment⟩, habove⟩ := (commented_place ..).mp hn
    exact ⟨isSome_commentOn_detailed hcomment, habove, commented_detailed_iff hn⟩

/-- A function with a blank line above keeps its comment. -/
theorem annotate_detailed_keeps_function :
    ∃ o, outline .python "x = 1\n\ndef f():\n    pass\n" = .ok o ∧
      let placed v := place .python (commentOn (remarks .python v o))
        (Text.lines "x = 1\n\ndef f():\n    pass\n")
      (∀ v, (placed v).map (·.line) = Text.lines "x = 1\n\ndef f():\n    pass\n") ∧
        "x = 1\n\n# Execute the f operation\ndef f():\n    pass\n" =
          written .python (placed .structural) ∧
        annotate .python .detailed "x = 1\n\ndef f():\n    pass\n" =
          .ok (written .python (placed .detailed)) ∧
        ∀ n, Commented (placed .structural) n →
          (commentOn (remarks .python .detailed o) n).isSome ∧
          (∀ m, m + 1 = n → ¬ Commented (placed .structural) m) ∧
          (Commented (placed .detailed) n ↔ ∀ m, m + 1 = n → ¬ Commented (placed .detailed) m) :=
  annotate_detailed_keeps (ok_of_toOption (by decide +kernel))

/-- A global variable takes the comment of the prototype right below it. -/
theorem not_detailed_keeps : ¬ ∀ l source o, outline l source = .ok o →
    ∀ n, Commented (place l (commentOn (remarks l .structural o)) source.lines) n →
      Commented (place l (commentOn (remarks l .detailed o)) source.lines) n := by
  intro h
  have hkept := h .c "int x = 1;\nint f();\n" _ rfl 1 (by decide +kernel)
  exact absurd hkept (by decide +kernel)

end Marginalia
