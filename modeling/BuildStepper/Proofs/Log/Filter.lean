import BuildStepper.Log.Filter
import BuildStepper.Proofs.Results

/-!
# Filters on top of others

The texts of two filters with a comma between them are read one after the other
(`ofText_append_comma`): each directive of the second goes on top of the first, and what cannot be
read at all cannot be read on top of anything (`addChars_eq_error`).

A directive that speaks of everything (`Directive.SpeaksOfAll`) is a default, and below other
directives it shows just if there is none among them (`OnDefault`). Adding a directive to both
filters keeps this (`OnDefault.add`), and so does adding a whole text (`OnDefault.addChars`).
-/

namespace BuildStepper

/-- A directive is about no target, span or field in particular. -/
def Directive.SpeaksOfAll (d : Directive) : Prop :=
  d.target = none ∧ d.span = none ∧ d.field = none

namespace LogFilter

/-! ## Reading on top of a filter -/

/-- Reads a filter on top of another. -/
def addChars (filter : LogFilter) (cs : List Char) : Except FilterError LogFilter :=
  ((pieces cs).filter (!·.isEmpty)).foldlM
    (fun filter piece => (Directive.ofChars piece).map filter.add) filter

/-- A filter is read by adding its directives to no others. -/
theorem ofText_eq_addChars (text : String) : ofText text = addChars {} text.toList := rfl

/-- Two filters with a comma between them are read one after the other. -/
theorem ofText_append_comma (text rest : String) :
    ofText (text ++ "," ++ rest) = ofText text >>= (addChars · rest.toList) := by
  have hpieces :
      pieces (text ++ "," ++ rest).toList = pieces text.toList ++ pieces rest.toList := by
    rw [String.toList_append, String.toList_append, List.append_assoc]
    change (text.toList ++ ',' :: rest.toList).splitOn ',' = _
    rw [List.splitOn_append_cons_self]
    rfl
  rw [ofText_eq_addChars, addChars, hpieces, List.filter_append, List.foldlM_append]
  rfl

/-- Whether a text can be read does not depend on the filter that it is read on top of. -/
theorem addChars_eq_error {filter : LogFilter} {cs : List Char} {e : FilterError}
    (h : filter.addChars cs = .error e) (other : LogFilter) : other.addChars cs = .error e := by
  unfold addChars at h ⊢
  generalize (pieces cs).filter (!·.isEmpty) = pieces at h ⊢
  induction pieces generalizing filter other with
  | nil => cases h
  | cons piece pieces ih =>
    rw [List.foldlM_cons] at h ⊢
    cases hpiece : Directive.ofChars piece with
    | error e' =>
      rw [hpiece] at h
      exact h
    | ok d =>
      rw [hpiece] at h
      exact ih (other.add d) h

/-! ## Defaults -/

variable {base d : Directive} {filter above : LogFilter}

/-- What a filter is on top of a default: itself if it has a default of its own, and otherwise
behind the default. -/
inductive OnDefault (base : Directive) : LogFilter → LogFilter → Prop
  | replaced {filter : LogFilter} : (∃ d ∈ filter.directives, d.SpeaksOfAll) →
    OnDefault base filter filter
  | kept {filter : LogFilter} : (∀ d ∈ filter.directives, ¬ d.SpeaksOfAll) →
    OnDefault base filter ⟨base :: filter.directives⟩

/-- What speaks of the same as a directive for all events is a directive for all events. -/
theorem sameSubject_iff (hbase : base.SpeaksOfAll) : base.sameSubject d = true ↔ d.SpeaksOfAll := by
  obtain ⟨htarget, hspan, hfield⟩ := hbase
  rw [Directive.sameSubject, Directive.SpeaksOfAll, htarget, hspan, hfield]
  cases d.target <;> cases d.span <;> cases d.field <;> simp

/-- A directive that is added takes the place of those that speak of the same. -/
theorem mem_add {e : Directive} :
    e ∈ (filter.add d).directives ↔ e ∈ filter.directives ∧ e.sameSubject d = false ∨ e = d := by
  simp [add]

/-- A directive that is added to a filter is added to it on top of a default. -/
theorem OnDefault.add (hbase : base.SpeaksOfAll) (h : OnDefault base filter above) (d : Directive) :
    OnDefault base (filter.add d) (above.add d) := by
  cases h with
  | replaced hall =>
    obtain ⟨e, he, hspeaks⟩ := hall
    refine .replaced ?_
    by_cases hsame : e.sameSubject d = true
    · exact ⟨d, mem_add.2 (.inr rfl), (sameSubject_iff hspeaks).1 hsame⟩
    · exact ⟨e, mem_add.2 (.inl ⟨he, Bool.not_eq_true _ ▸ hsame⟩), hspeaks⟩
  | kept hnone =>
    -- A directive that speaks of everything takes the place of the default; any other goes behind
    -- it.
    by_cases hd : d.SpeaksOfAll
    · have hadd : LogFilter.add ⟨base :: filter.directives⟩ d = filter.add d := by
        rw [LogFilter.add, LogFilter.add,
          List.filter_cons_of_neg (by simpa using (sameSubject_iff hbase).2 hd)]
      rw [hadd]
      exact .replaced ⟨d, mem_add.2 (.inr rfl), hd⟩
    · have hsame : base.sameSubject d = false :=
        Bool.eq_false_iff.2 fun h => hd ((sameSubject_iff hbase).1 h)
      have hadd : LogFilter.add ⟨base :: filter.directives⟩ d =
          ⟨base :: (filter.add d).directives⟩ := by
        rw [LogFilter.add, LogFilter.add, List.filter_cons_of_pos (by simpa using hsame)]
        rfl
      rw [hadd]
      refine .kept fun e he => ?_
      obtain ⟨he, -⟩ | rfl := mem_add.1 he
      · exact hnone e he
      · exact hd

/-- A text that is read on top of a filter is read on top of it on a default. -/
theorem OnDefault.addChars (hbase : base.SpeaksOfAll) (h : OnDefault base filter above)
    {cs : List Char} {read : LogFilter} (hread : filter.addChars cs = .ok read) :
    ∃ above', above.addChars cs = .ok above' ∧ OnDefault base read above' := by
  unfold LogFilter.addChars at hread ⊢
  generalize (pieces cs).filter (!·.isEmpty) = pieces at hread ⊢
  induction pieces generalizing filter above with
  | nil =>
    obtain rfl := Except.ok.inj hread
    exact ⟨above, rfl, h⟩
  | cons piece pieces ih =>
    rw [List.foldlM_cons] at hread ⊢
    obtain ⟨next, hnext, hrest⟩ := bind_eq_ok hread
    obtain ⟨d, hd, rfl⟩ := map_eq_ok hnext
    rw [hd]
    exact ih (h.add hbase d) hrest

/-- A filter hides a default just if it has one of its own. -/
theorem OnDefault.eq_iff (h : OnDefault base filter above) :
    filter = above ↔ ∃ d ∈ filter.directives, d.SpeaksOfAll := by
  cases h with
  | replaced hall => exact iff_of_true rfl hall
  | kept hnone =>
    refine iff_of_false (fun heq => ?_) fun ⟨d, hd, hspeaks⟩ => hnone d hd hspeaks
    exact List.ne_cons_self (congrArg directives heq)

/-- A default stands in front of a filter without one. -/
theorem OnDefault.eq_cons (h : OnDefault base filter above)
    (hnone : ∀ d ∈ filter.directives, ¬ d.SpeaksOfAll) : above = ⟨base :: filter.directives⟩ := by
  cases h with
  | replaced hall =>
    obtain ⟨d, hd, hspeaks⟩ := hall
    exact absurd hspeaks (hnone d hd)
  | kept _ => rfl

/-! ## Events -/

/-- An event of which no directive speaks is not logged. -/
theorem enables_of_silent {subject : LogSubject}
    (h : ∀ d ∈ filter.directives, concerns subject d = false) : filter.enables subject = false := by
  have hnone : filter.directives.filter (concerns subject) = [] :=
    List.filter_eq_nil_iff.2 fun d hd => by rw [h d hd]; simp
  rw [enables, decider?, hnone]
  rfl

/-- An event of which no directive speaks is left to the default. -/
theorem enables_of_default {subject : LogSubject} (hbase : base.SpeaksOfAll)
    (h : ∀ d ∈ filter.directives, concerns subject d = false) :
    enables ⟨base :: filter.directives⟩ subject =
      decide (subject.level.rank ≤ base.level.rank) := by
  have hnone : filter.directives.filter (concerns subject) = [] :=
    List.filter_eq_nil_iff.2 fun d hd => by rw [h d hd]; simp
  obtain ⟨htarget, hspan, hfield⟩ := hbase
  have hconcerns : concerns subject base = true := by
    rw [concerns, Directive.decidesEvents, htarget, hspan, hfield]
    rfl
  rw [enables, decider?, List.filter_cons_of_pos hconcerns, hnone]
  rfl

end LogFilter

end BuildStepper
