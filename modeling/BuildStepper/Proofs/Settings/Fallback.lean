import BuildStepper.Proofs.Log.Filter
import BuildStepper.Settings.Basic

/-!
# Levels that cannot be read

A level that is no filter gives way to `info`, as the warning about it says, where there is no
filter in the environment or none that can be read (`filter_of_not_refines`). A filter in the
environment that can be read is in force alone then, while with `info` it would be in force on top
of `info` (`filter_of_refines`, `onDefault_filter`).

So a level that cannot be read has the same effect as `info` just if the filter of the environment,
where there is one, has a directive that speaks of everything; otherwise all events are lost that
the filter of the environment does not speak of (`fallsBack_of_invalid`).
-/

namespace BuildStepper

namespace LogSettings

/-- There is a filter in the environment, and it can be read. -/
def Refines (environment : Option String) (refinement : LogFilter) : Prop :=
  ∃ text, environment.map Text.trim = some text ∧ text ≠ "" ∧
    LogFilter.ofText text = .ok refinement

/-- The default that the warning about a level announces. -/
def infoDirective : Directive :=
  ⟨.info, none, none, none⟩

/-- The directive that `info` stands for speaks of all events. -/
theorem speaksOfAll_infoDirective : infoDirective.SpeaksOfAll := ⟨rfl, rfl, rfl⟩

/-- `info` is a filter. -/
theorem ofText_levelText_info (settings : LogSettings) :
    LogFilter.ofText (levelText { settings with level := "info" }) =
      .ok (LogFilter.upTo .info) := by
  have hinfo : LogFilter.ofText (levelText { level := "info" }) = .ok (LogFilter.upTo .info) := by
    decide +kernel
  exact hinfo

variable {settings : LogSettings} {environment : Option String} {refinement : LogFilter}

/-- The environment holds one filter at most. -/
theorem Refines.unique {other : LogFilter} (h : Refines environment refinement)
    (h' : Refines environment other) : refinement = other := by
  obtain ⟨text, htext, -, hread⟩ := h
  obtain ⟨text', htext', -, hread'⟩ := h'
  obtain rfl : text = text' := Option.some.inj (htext.symm.trans htext')
  exact Except.ok.inj (hread.symm.trans hread')

/-! ## The filter in force -/

/-- With a text in the environment that filter is in force which is the first that can be read of
three: both together, that of the environment, and that of the settings. -/
theorem filter_of_text {text : String} (htext : environment.map Text.trim = some text)
    (hne : text ≠ "") (settings : LogSettings) :
    settings.filter environment =
      (LogFilter.ofText (settings.levelText ++ "," ++ text)).toOption.getD
        ((LogFilter.ofText text).toOption.getD settings.ownFilter) := by
  rw [filter]
  split
  · next hnone => cases htext.symm.trans hnone
  · next hblank => exact absurd (Option.some.inj (htext.symm.trans hblank)) hne
  · next text' _ htext' =>
    obtain rfl : text = text' := Option.some.inj (htext.symm.trans htext')
    cases LogFilter.ofText (settings.levelText ++ "," ++ text) <;>
      cases LogFilter.ofText text <;>
      simp only [Except.toOption, Option.getD_some, Option.getD_none]

/-- Where nothing refines it, the filter of the settings is in force. -/
theorem filter_of_not_refines (h : ∀ refinement, ¬ Refines environment refinement)
    (settings : LogSettings) : settings.filter environment = settings.ownFilter := by
  cases htext : environment.map Text.trim with
  | none => rw [filter, htext]
  | some text =>
    by_cases hne : text = ""
    · simp only [filter, htext, hne]
    cases hread : LogFilter.ofText text with
    | ok refinement => exact absurd ⟨text, htext, hne, hread⟩ (h refinement)
    | error e =>
      -- What is wrong with the text is wrong with both together, too.
      obtain ⟨e', hboth⟩ :
          ∃ e', LogFilter.ofText (settings.levelText ++ "," ++ text) = .error e' := by
        rw [LogFilter.ofText_append_comma]
        cases LogFilter.ofText settings.levelText with
        | error e' => exact ⟨e', rfl⟩
        | ok below => exact ⟨e, LogFilter.addChars_eq_error hread below⟩
      rw [filter_of_text htext hne]
      simp only [hboth, hread, Except.toOption, Option.getD_none]

/-- With a level that cannot be read the filter of the environment is in force alone. -/
theorem filter_of_refines {e : FilterError} (h : LogFilter.ofText settings.levelText = .error e)
    (hrefines : Refines environment refinement) : settings.filter environment = refinement := by
  obtain ⟨text, htext, hne, hread⟩ := hrefines
  have hboth : LogFilter.ofText (settings.levelText ++ "," ++ text) = .error e := by
    rw [LogFilter.ofText_append_comma, h]
    rfl
  rw [filter_of_text htext hne]
  simp only [hboth, hread, Except.toOption, Option.getD_some, Option.getD_none]

/-- With `info` as the level the filter of the environment is in force on top of it. -/
theorem onDefault_filter
    (h : LogFilter.ofText settings.levelText = .ok (LogFilter.upTo .info))
    (hrefines : Refines environment refinement) :
    LogFilter.OnDefault infoDirective refinement (settings.filter environment) := by
  obtain ⟨text, htext, hne, hread⟩ := hrefines
  have hempty : LogFilter.OnDefault infoDirective {} (LogFilter.upTo .info) := .kept (by simp)
  obtain ⟨above, habove, hon⟩ := hempty.addChars speaksOfAll_infoDirective hread
  have hboth : LogFilter.ofText (settings.levelText ++ "," ++ text) = .ok above := by
    rw [LogFilter.ofText_append_comma, h]
    exact habove
  rw [filter_of_text htext hne]
  simp only [hboth, Except.toOption, Option.getD_some]
  exact hon

/-! ## Against `info` -/

/-- What a level that cannot be read has in common with `info`. -/
structure FallsBack (settings : LogSettings) (environment : Option String) : Prop where
  /-- They come to the same filter just if the filter of the environment, where there is one, has a
  default of its own. -/
  eq_iff : settings.filter environment = { settings with level := "info" }.filter environment ↔
    ∀ refinement, Refines environment refinement → ∃ d ∈ refinement.directives, d.SpeaksOfAll
  /-- Otherwise `info` is missing, and of the events up to this level all those are lost of which
  the filter of the environment does not speak. -/
  missing (refinement : LogFilter) : Refines environment refinement →
    (∀ d ∈ refinement.directives, ¬ d.SpeaksOfAll) →
    settings.filter environment = refinement ∧
      { settings with level := "info" }.filter environment =
        ⟨infoDirective :: refinement.directives⟩ ∧
      ∀ subject, (∀ d ∈ refinement.directives, LogFilter.concerns subject d = false) →
        (settings.filter environment).enables subject = false ∧
          ({ settings with level := "info" }.filter environment).enables subject =
            decide (subject.level.rank ≤ LogLevel.info.rank)

/-- A level that cannot be read against `info`, whatever is in the environment. -/
theorem fallsBack_of_invalid {e : FilterError} (h : LogFilter.ofText settings.levelText = .error e)
    (environment : Option String) : FallsBack settings environment := by
  have hinfo : LogFilter.ofText (levelText { settings with level := "info" }) =
      .ok (LogFilter.upTo .info) := ofText_levelText_info settings
  refine ⟨?_, fun refinement hrefines hnone => ?_⟩
  · by_cases hrefined : ∃ refinement, Refines environment refinement
    · -- The refinement alone is what is left here, and beside `info` it is appended.
      obtain ⟨refinement, hrefines⟩ := hrefined
      rw [filter_of_refines h hrefines, (onDefault_filter hinfo hrefines).eq_iff]
      refine ⟨fun hdefault other hother => ?_, fun hdefault => hdefault refinement hrefines⟩
      rwa [← hrefines.unique hother]
    · -- With nothing to refine by, both are the filter of `info`.
      have hnot : ∀ refinement, ¬ Refines environment refinement := not_exists.1 hrefined
      have hown : settings.ownFilter = LogFilter.upTo .info := by rw [ownFilter, h]
      have hown' : ownFilter { settings with level := "info" } = LogFilter.upTo .info := by
        rw [ownFilter, hinfo]
      rw [filter_of_not_refines hnot, filter_of_not_refines hnot, hown, hown']
      exact iff_of_true rfl fun refinement hrefines => absurd hrefines (hnot refinement)
  · have hleft := filter_of_refines h hrefines
    have hright := (onDefault_filter hinfo hrefines).eq_cons hnone
    refine ⟨hleft, hright, fun subject hsilent => ?_⟩
    rw [hleft, hright]
    exact ⟨LogFilter.enables_of_silent hsilent,
      LogFilter.enables_of_default speaksOfAll_infoDirective hsilent⟩

/-- With a filter for one target in the environment the other targets are silent. -/
theorem fallsBack_notalevel :
    LogFilter.ofText (levelText { level := "nova=notalevel" }) = .error .level ∧
      FallsBack { level := "nova=notalevel" } (some "nova.build_debug=trace") ∧
      (filter { level := "nova=notalevel" } (some "nova.build_debug=trace")).enables
        ⟨.info, "nova", ["message"]⟩ = false ∧
      (filter { level := "info" } (some "nova.build_debug=trace")).enables
        ⟨.info, "nova", ["message"]⟩ = true := by
  have hlevel : LogFilter.ofText (levelText { level := "nova=notalevel" }) = .error .level := by
    decide +kernel
  have hfalls := fallsBack_of_invalid hlevel (some "nova.build_debug=trace")
  have hrefines : Refines (some "nova.build_debug=trace")
      ⟨[⟨.trace, some "nova.build_debug", none, none⟩]⟩ :=
    ⟨"nova.build_debug=trace", by decide +kernel, by decide, by decide +kernel⟩
  obtain ⟨-, -, hlost⟩ := hfalls.missing _ hrefines (by simp [Directive.SpeaksOfAll])
  obtain ⟨hsilent, hinfo⟩ := hlost ⟨.info, "nova", ["message"]⟩ (by decide)
  exact ⟨hlevel, hfalls, hsilent, hinfo⟩

end LogSettings

end BuildStepper
