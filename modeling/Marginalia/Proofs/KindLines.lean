import Marginalia.Proofs.MatchedPieces
import Marginalia.Proofs.SentenceLines
import Marginalia.Proofs.Substituted

/-!
# Kinds of parts on one line

What a sentence shows is cut from the texts that the kind of a part holds. If those are on one line,
the sentence shows nothing but pieces on one line.
-/

namespace Marginalia

open Text

@[simp] lemma oneLine_reverse {t : Text} : OneLine t.reverse ↔ OneLine t := by simp [OneLine]

lemma OneLine.takeEnd {t : Text} (h : OneLine t) (p : Char → Bool) :
    OneLine (t.reverse.takeWhile p).reverse :=
  oneLine_reverse.mpr ((oneLine_reverse.mpr h).piece (List.takeWhile_prefix p).isInfix)

lemma oneLine_map {f : Text → Text} (hf : ∀ {t}, OneLine t → OneLine (f t)) {t? : Option Text}
    (h : ∀ t ∈ t?.toList, OneLine t) : ∀ t ∈ (t?.map f).toList, OneLine t := by
  cases t? with
  | none => exact List.forall_mem_nil _
  | some t => simpa using hf (h t (by simp))

namespace NodeKind

/-- The texts that a kind of part holds. -/
def texts : NodeKind → List Text
  | module | doWhile | otherwise | finallyClause => []
  | function c => c.name :: c.params ++ c.decorators ++ c.owner.toList
  | classDef name bases decorators => name :: bases ++ decorators
  | interface name bases => name :: bases.toList
  | typeAlias name definition => [name, definition]
  | enumeration name => [name]
  | record keyword name => [keyword, name]
  | forLoop target iterable _ => [target, iterable]
  | countingLoop header => [header]
  | whileLoop condition => [condition]
  | conditional condition _ => [condition]
  | switch subject _ => [subject]
  | case label => label.toList
  | withBlock items _ => items
  | tryBlock handlers _ _ _ => handlers
  | catchClause error => error.toList
  | imports source names _ _ => source :: names
  | exports item _ => [item]
  | includes header _ => [header]
  | macroDef name params value => name :: params.toList ++ value.toList
  | preprocessor directive argument => [directive, argument]
  | namespaceDef name _ => [name]
  | template params => [params]
  | globalVariable declaration name value => declaration :: name :: value.toList
  | returns value => value.toList
  | raises exception => exception.toList
  | asserts test message => test :: message.toList
  | assignment targets value _ => value :: targets
  | augmentedAssignment target operator value => [target, operator, value]
  | libraryCall name argument => name :: argument.toList

/-- Nothing that a kind of part holds goes over several lines. -/
def OnOneLine (kind : NodeKind) : Prop := ∀ t ∈ kind.texts, OneLine t

end NodeKind

namespace Sentence

lemma oneLine_quoted {t : Text} (h : OneLine t) : OneLine (quoted t) := h.truncate _

lemma oneLine_boundedCount? {header count : Text} (h : OneLine header)
    (hcount : boundedCount? header = some count) : OneLine count := by
  unfold boundedCount? at hcount
  split at hcount
  · next start condition step hparts =>
    have hpart : ∀ part ∈ [start, condition, step], OneLine part := by
      intro part hpart
      rw [← hparts] at hpart
      exact h.piece (infix_of_mem_splitOn hpart)
    split at hcount
    · next before s c hstart hbound =>
      have hs := Pattern.findFrom?_within hstart
      have hc := Pattern.matchAt_within hbound
      have hstartLine : OneLine start.trim := (hpart start (by simp)).trim
      have hconditionLine : OneLine condition := hpart condition (by simp)
      split at hcount
      · have hdirection : ∀ up : Bool, OneLine (if up then "down" else "up" : Text) := by decide
        rw [← Option.some.inj hcount]
        simp only [oneLine_append]
        refine ⟨⟨⟨⟨⟨⟨⟨by decide, hstartLine.piece (hs.group_isInfix 1)⟩, by decide⟩,
          (hstartLine.piece (hs.group_isInfix 2)).trim⟩, by decide⟩, hdirection _⟩, by decide⟩,
          oneLine_quoted (hconditionLine.piece (hc.group_isInfix 3))⟩
      · cases hcount
    · cases hcount
  · cases hcount

lemma oneLine_of_mem_comparingsAfter {passed t : Text} (hpassed : OneLine passed) (ht : OneLine t) :
    ∀ found ∈ comparingsAfter passed t, OneLine found.left ∧ OneLine found.right := by
  fun_induction comparingsAfter passed t with
  | case1 => exact List.forall_mem_nil _
  | case10 passed c rest _ _ _ _ _ _ _ _ ih =>
    obtain ⟨hc, hrest⟩ := oneLine_cons.mp ht
    exact ih (oneLine_cons.mpr ⟨hc, hpassed⟩) hrest
  | _ =>
    rename_i ih
    simp only [oneLine_cons] at ht
    refine List.forall_mem_cons.mpr
      ⟨⟨oneLine_reverse.mpr hpassed, by simp [ht]⟩, ih ?_ (by simp [ht])⟩
    simp [hpassed]

lemma oneLine_plain {condition : Text} (h : OneLine condition) :
    OneLine (Condition.ofText condition).plain := by
  have htakes : (Rule.literal "->" ".").Takes := by
    intro b t n new hr
    obtain ⟨rest, ht, hn, -⟩ := eq_of_replaced id hr
    exact ⟨_, rest, ht, hn, by decide⟩
  have hkeeps : (Rule.literal "->" ".").KeepsLine := by
    refine Rule.keepsLine_of_put "." (by decide) fun b t n new hr => ?_
    obtain ⟨rest, -, -, hput⟩ := eq_of_replaced id hr
    exact hput
  exact hkeeps.substitute htakes h.trim

lemma oneLine_sides? {c : Condition} {comparison : Comparison} {left right : Text}
    (h : ∀ found ∈ c.comparings, OneLine found.left ∧ OneLine found.right)
    (hsides : c.sides? comparison = some (left, right)) : OneLine left ∧ OneLine right := by
  unfold Condition.sides? at hsides
  split at hsides
  · next found hfound =>
    have hmem : found ∈ c.comparings :=
      (List.mem_filter.mp (hfound ▸ List.mem_singleton_self found)).1
    obtain ⟨hleft, hright⟩ := h found hmem
    obtain ⟨rfl, rfl⟩ := Prod.mk.inj (Option.some.inj hsides)
    refine ⟨hleft.trim.truncate _, OneLine.truncate ?_ _⟩
    exact hright.trim.piece ((dropEnd_isPrefix _ _).isInfix.trans (List.dropWhile_suffix _).isInfix)
  · cases hsides

lemma oneLine_shownOfConditional {condition : Text} (h : OneLine condition) :
    ∀ piece ∈ shownOfConditional condition, OneLine piece := by
  have hcomparings := oneLine_of_mem_comparingsAfter oneLine_nil (oneLine_plain h)
  have hform : ∀ form, ∀ piece ∈ shownOfForm form (.ofText condition), OneLine piece := by
    intro form
    simp only [shownOfForm]
    split
    · next left right hsides =>
      obtain ⟨comparison, -, hsides⟩ := Option.bind_eq_some_iff.mp hsides
      obtain ⟨hleft, hright⟩ := oneLine_sides? hcomparings hsides
      simp [hleft, hright]
    · exact List.forall_mem_nil _
  rw [shownOfConditional]
  split
  · next form _ _ => exact hform form
  · exact List.forall_mem_nil _

end Sentence

namespace Commentary

/-- A sentence about a part whose texts are on one line shows pieces on one line. -/
lemma oneLine_shown {l : Language} {function : Option Text} {kind : NodeKind}
    (h : kind.OnOneLine) (hfunction : ∀ name ∈ function, OneLine name) :
    ∀ piece ∈ shown l function kind, OneLine piece := by
  unfold NodeKind.OnOneLine at h
  cases kind with
  | function c =>
    simp only [NodeKind.texts, List.cons_append, List.forall_mem_cons, List.forall_mem_append] at h
    obtain ⟨hname, -, howner⟩ := h
    simp only [shown, Sentence.shownOfCallable]
    split
    · split
      · exact List.forall_mem_nil _
      · exact howner
    · exact howner
    · simpa using hname
    · split
      · exact List.forall_mem_nil _
      · simpa using hname
  | classDef name bases decorators =>
    simp only [NodeKind.texts, List.cons_append, List.forall_mem_cons, List.forall_mem_append] at h
    obtain ⟨hname, hbases, -⟩ := h
    simp only [shown, Sentence.shownOfClass, List.forall_mem_cons]
    refine ⟨hname, ?_⟩
    split
    · exact List.forall_mem_nil _
    · exact fun base hbase => hbases base (List.mem_of_mem_take hbase)
  | interface name bases =>
    simp only [NodeKind.texts, List.forall_mem_cons] at h
    simp only [shown, Sentence.shownOfInterface, List.forall_mem_cons]
    exact ⟨h.1, oneLine_map OneLine.trim h.2⟩
  | record keyword name =>
    have hkeyword : OneLine keyword := h keyword (by simp [NodeKind.texts])
    have hpart : OneLine (Sentence.lastPart keyword) := hkeyword.takeEnd _
    have hname : OneLine name := h name (by simp [NodeKind.texts])
    simp only [shown, Sentence.shownOfRecord]
    split <;> simp [hpart, hname]
  | forLoop target iterable isAsync =>
    have htarget : OneLine target := h target (by simp [NodeKind.texts])
    simp only [shown, Sentence.shownOfForLoop]
    split
    · exact List.forall_mem_nil _
    · simpa using htarget.trim
  | countingLoop header =>
    have hheader : OneLine header := h header (by simp [NodeKind.texts])
    simp only [shown, Sentence.shownOfCountingLoop, List.forall_mem_singleton]
    cases hcount : Sentence.boundedCount? header with
    | none => exact Sentence.oneLine_quoted hheader
    | some count => exact Sentence.oneLine_boundedCount? hheader hcount
  | conditional condition nested =>
    exact Sentence.oneLine_shownOfConditional (h condition (by simp [NodeKind.texts]))
  | switch subject nested =>
    simpa [shown] using Sentence.oneLine_quoted (h subject (by simp [NodeKind.texts]))
  | case label => exact oneLine_map Sentence.oneLine_quoted h
  | withBlock items isAsync =>
    simp only [shown, Sentence.shownOfWith]
    split
    · exact List.forall_mem_nil _
    · refine List.forall_mem_singleton.mpr (Sentence.oneLine_quoted ?_)
      cases items with
      | nil => exact oneLine_nil
      | cons item rest => exact h item List.mem_cons_self
  | tryBlock handlers catchesAll hasElse hasFinally =>
    simp only [shown, Sentence.shownOfTry]
    split
    · exact h
    · exact List.forall_mem_nil _
  | imports source names selective topLevel =>
    simp only [NodeKind.texts, List.forall_mem_cons] at h
    simp only [shown, Sentence.shownOfImports, List.forall_mem_cons]
    refine ⟨h.1, ?_⟩
    split
    · exact h.2
    · exact List.forall_mem_nil _
  | exports item isDefault =>
    exact List.forall_mem_singleton.mpr ((h item (by simp [NodeKind.texts])).truncate 50)
  | macroDef name params value =>
    simp only [NodeKind.texts, List.cons_append, List.forall_mem_cons, List.forall_mem_append] at h
    obtain ⟨hname, hparams, hvalue⟩ := h
    simp only [shown, Sentence.shownOfMacro, List.forall_mem_cons]
    refine ⟨hname, ?_⟩
    cases params with
    | none => exact hvalue
    | some params => exact hparams
  | preprocessor directive argument =>
    have hdirective : OneLine directive := h directive (by simp [NodeKind.texts])
    have hargument : OneLine argument := h argument (by simp [NodeKind.texts])
    simp only [shown, Sentence.shownOfPreprocessor]
    split
    · simpa using hargument
    · split
      · exact List.forall_mem_nil _
      · refine List.forall_mem_singleton.mpr (OneLine.trimEnd ?_)
        simp only [oneLine_append]
        exact ⟨⟨⟨by decide, hdirective⟩, by decide⟩, hargument⟩
  | returns value =>
    simp only [shown, Sentence.shownOfReturns]
    split
    · exact List.forall_mem_nil _
    · simpa using hfunction
  | raises exception => exact oneLine_map Sentence.oneLine_quoted h
  | asserts test message =>
    simp only [NodeKind.texts, List.forall_mem_cons] at h
    exact List.forall_mem_cons.mpr
      ⟨Sentence.oneLine_quoted h.1, oneLine_map Sentence.oneLine_quoted h.2⟩
  | assignment targets value shape =>
    exact fun target htarget => h target (List.mem_cons_of_mem _ htarget)
  | augmentedAssignment target operator value =>
    simp only [NodeKind.texts, List.forall_mem_cons] at h
    simpa [shown] using ⟨h.1, Sentence.oneLine_quoted h.2.2.1⟩
  | libraryCall name argument =>
    simp only [NodeKind.texts, List.forall_mem_cons] at h
    simp only [shown, Sentence.shownOfLibraryCall]
    split
    · simpa using h.1
    · split
      · simpa using h
      · exact List.forall_mem_nil _
    · exact List.forall_mem_nil _
  | module => exact List.forall_mem_nil _
  | doWhile => exact List.forall_mem_nil _
  | otherwise => exact List.forall_mem_nil _
  | finallyClause => exact List.forall_mem_nil _
  | whileLoop _ => exact List.forall_mem_nil _
  | catchClause _ => exact h
  | typeAlias _ _ => exact h
  | enumeration _ => exact h
  | includes _ _ => exact h
  | namespaceDef _ _ => exact h
  | template _ => exact h
  | globalVariable _ _ _ => exact h

end Commentary
end Marginalia
