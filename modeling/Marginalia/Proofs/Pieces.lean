import Marginalia.Proofs.Cuts
import Marginalia.Proofs.OneLine
import Mathlib.Data.List.Infix

/-!
# Pieces of texts

What is cut from a text, at its margins, at a mark, at a bracket or at separators, is a piece of it.
Pieces of a text on one line are on one line.
-/

namespace Marginalia

lemma OneLine.piece {t piece : Text} (h : OneLine t) (hpiece : piece <:+: t) : OneLine piece :=
  h.subset fun _ hc => hpiece.subset hc

namespace Text

lemma trim_isInfix (t : Text) : trim t <:+: t :=
  (dropEnd_isPrefix isBlank _).isInfix.trans (List.dropWhile_suffix isBlank).isInfix

lemma suffix_of_after? {head t rest : Text} (h : after? head t = some rest) : rest <:+ t :=
  ⟨head, ((after?_eq_some_iff head t rest).mp h).symm⟩

lemma eq_of_cut? {mark t head tail : Text} (h : cut? mark t = some (head, tail)) :
    t = head ++ mark ++ tail := by
  induction t generalizing head with
  | nil =>
    rw [cut?] at h
    split at h
    · next hmark =>
      obtain ⟨rfl, rfl⟩ := Prod.mk.inj (Option.some.inj h)
      rw [List.isEmpty_iff.mp hmark]
      rfl
    · cases h
  | cons c rest ih =>
    rw [cut?] at h
    split at h
    · next rest' hafter =>
      obtain ⟨rfl, rfl⟩ := Prod.mk.inj (Option.some.inj h)
      exact (after?_eq_some_iff mark _ _).mp hafter
    · obtain ⟨⟨head', tail'⟩, hrest, heq⟩ := Option.map_eq_some_iff.mp h
      obtain ⟨rfl, rfl⟩ := Prod.mk.inj heq
      rw [ih hrest]
      rfl

lemma eq_of_splitAtClose? {opener closer : Char} {s : CodeState} {count : Nat}
    {t head tail : Text} (h : splitAtClose? opener closer s count t = some (head, tail)) :
    t = head ++ tail := by
  induction t generalizing s count head with
  | nil => cases h
  | cons c rest ih =>
    have hlater (count : Nat) (hmap : (splitAtClose? opener closer (s.step c).1 count rest).map
        (fun p => (c :: p.1, p.2)) = some (head, tail)) : c :: rest = head ++ tail := by
      obtain ⟨⟨head', tail'⟩, hrest, heq⟩ := Option.map_eq_some_iff.mp hmap
      obtain ⟨rfl, rfl⟩ := Prod.mk.inj heq
      rw [ih hrest]
      rfl
    rw [splitAtClose?] at h
    split at h
    · exact hlater _ h
    · split at h
      · exact hlater _ h
      · split at h
        · split at h
          · obtain ⟨rfl, rfl⟩ := Prod.mk.inj (Option.some.inj h)
            rfl
          · exact hlater _ h
        · exact hlater _ h

lemma eq_of_splitAtPartner? {t head tail : Text} (h : splitAtPartner? t = some (head, tail)) :
    t = head ++ tail := by
  cases t with
  | nil => cases h
  | cons c rest =>
    obtain ⟨closer, -, hclose⟩ := Option.bind_eq_some_iff.mp h
    exact eq_of_splitAtClose? hclose

lemma infix_of_bracketed? {t inside behind : Text} (h : bracketed? t = some (inside, behind)) :
    inside <:+: t ∧ behind <:+ t := by
  obtain ⟨⟨head, tail⟩, hsplit, heq⟩ := Option.map_eq_some_iff.mp h
  obtain ⟨rfl, rfl⟩ := Prod.mk.inj heq
  rw [eq_of_splitAtPartner? hsplit]
  exact ⟨(List.drop_suffix 1 head).isInfix.trans (List.prefix_append head tail).isInfix,
    (List.drop_suffix 1 tail).trans (List.suffix_append head tail)⟩

lemma splitAtChar?_eq_some_iff {c : Char} {t head tail : Text} :
    splitAtChar? c t = some (head, tail) ↔
      c ∉ head ∧ ∃ rest, tail = c :: rest ∧ t = head ++ tail := by
  induction t generalizing head with
  | nil =>
    refine ⟨nofun, ?_⟩
    rintro ⟨-, rest, rfl, hnil⟩
    cases head <;> cases hnil
  | cons d t ih =>
    rw [splitAtChar?]
    by_cases hd : d = c
    · rw [if_pos hd, Option.some.injEq, Prod.mk.injEq]
      constructor
      · rintro ⟨rfl, rfl⟩
        exact ⟨List.not_mem_nil, t, by rw [hd], rfl⟩
      · rintro ⟨hhead, rest, rfl, heq⟩
        cases head with
        | nil => exact ⟨rfl, heq⟩
        | cons e head =>
          obtain ⟨rfl, -⟩ := List.cons.inj heq
          exact absurd (hd ▸ List.mem_cons_self) hhead
    · rw [if_neg hd, Option.map_eq_some_iff]
      constructor
      · rintro ⟨⟨head', tail'⟩, hsplit, heq⟩
        obtain ⟨rfl, rfl⟩ := Prod.mk.inj heq
        obtain ⟨hhead, rest, rfl, rfl⟩ := ih.mp hsplit
        refine ⟨fun hmem => hhead ?_, rest, rfl, rfl⟩
        exact (List.mem_cons.mp hmem).resolve_left (Ne.symm hd)
      · rintro ⟨hhead, rest, rfl, heq⟩
        cases head with
        | nil => exact absurd (List.cons.inj heq).1 hd
        | cons e head =>
          obtain ⟨rfl, rfl⟩ := List.cons.inj heq
          exact ⟨(head, c :: rest), ih.mpr ⟨fun hmem => hhead (List.mem_cons_of_mem _ hmem), rest,
            rfl, rfl⟩, rfl⟩

lemma suffix_of_splitAtChar? {target : Char} {t head tail : Text}
    (h : splitAtChar? target t = some (head, tail)) : tail <:+ t := by
  obtain ⟨-, -, -, rfl⟩ := splitAtChar?_eq_some_iff.mp h
  exact List.suffix_append head tail

lemma infix_of_firstGroup? {t inside : Text} (h : firstGroup? t = some inside) : inside <:+: t := by
  obtain ⟨⟨head, tail⟩, hsplit, hinside⟩ := Option.bind_eq_some_iff.mp h
  obtain ⟨⟨inside', behind⟩, hbracket, rfl⟩ := Option.map_eq_some_iff.mp hinside
  exact (infix_of_bracketed? hbracket).1.trans (suffix_of_splitAtChar? hsplit).isInfix

lemma infix_join {sep piece : Text} {pieces : List Text} (h : piece ∈ pieces) :
    piece <:+: join sep pieces := by
  induction pieces with
  | nil => exact absurd h List.not_mem_nil
  | cons first rest ih =>
    cases rest with
    | nil =>
      obtain rfl := List.mem_singleton.mp h
      exact List.infix_rfl
    | cons second rest =>
      rw [join_cons_cons, List.append_assoc]
      rcases List.mem_cons.mp h with rfl | h
      · exact (List.prefix_append _ _).isInfix
      · exact (ih h).trans ((List.suffix_append sep _).trans (List.suffix_append first _)).isInfix

lemma infix_of_mem_rawPieces {sep : Char} {t piece : Text} (h : piece ∈ rawPieces sep t) :
    piece <:+: t := by
  have hpiece : piece <:+: join [sep] (rawPieces sep t) := infix_join h
  rwa [join_rawPieces] at hpiece

lemma infix_of_mem_splitTopLevel {sep : Char} {t piece : Text} (h : piece ∈ splitTopLevel sep t) :
    piece <:+: t := by
  rw [splitTopLevel] at h
  split at h
  · exact absurd h List.not_mem_nil
  · obtain ⟨raw, hraw, rfl⟩ := List.mem_map.mp h
    exact (trim_isInfix raw).trans (infix_of_mem_rawPieces hraw)

lemma infix_of_mem_splitOn {sep : Char} {t piece : Text} (h : piece ∈ splitOn sep t) :
    piece <:+: t := by
  have hpiece : piece <:+: join [sep] (splitOn sep t) := infix_join h
  rwa [join_splitOn] at hpiece

end Text
end Marginalia
