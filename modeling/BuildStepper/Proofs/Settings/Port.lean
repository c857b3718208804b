import BuildStepper.Proofs.Text.Basic
import BuildStepper.Settings.Basic

/-!
# The port that counts

A port can be named in three places: by a property of the build, on the command line, and in the
settings file. `EffectivePort` says which one counts, and `effectivePort_iff` that it is the one
which is listened at. The property goes first, if its value spells a port at all: a number below
`portLimit` in decimal, with blanks around it or not (`SpellsPort`).
-/

namespace BuildStepper

/-- A text spells a port: a numeral for it, and blanks around that. -/
def SpellsPort (text : String) (port : UInt16) : Prop :=
  ∃ before num behind, text.toList = before ++ num ++ behind ∧
    (∀ c ∈ before, Text.isBlank c = true) ∧ (∀ c ∈ behind, Text.isBlank c = true) ∧
    Text.IsNumeral port.toNat num

/-- A numeral has no blanks. -/
theorem isBlank_of_mem_numeral {n : Nat} {num : List Char} (h : Text.IsNumeral n num) :
    ∀ c ∈ num, Text.isBlank c = false := by
  intro c hc
  obtain hdigit | rfl := h.isDigit_or_plus hc
  · simp only [Char.isDigit, Bool.and_eq_true, decide_eq_true_eq] at hdigit
    obtain ⟨hlow, hhigh⟩ := hdigit
    have hlow : 48 ≤ c.toNat := UInt32.le_iff_toNat_le.1 hlow
    have hhigh : c.toNat ≤ 57 := UInt32.le_iff_toNat_le.1 hhigh
    simp only [Text.isBlank, Bool.or_eq_false_iff, Bool.and_eq_false_iff, beq_eq_false_iff_ne,
      decide_eq_false_iff_not]
    omega
  · decide

/-- A port is read off exactly the texts that spell it. -/
theorem portOfText?_eq_some_iff {text : String} {port : UInt16} :
    portOfText? text = some port ↔ SpellsPort text port := by
  constructor
  · intro h
    obtain ⟨n, hn, rfl⟩ := Option.map_eq_some_iff.1 h
    obtain ⟨hnumeral, hlimit⟩ := Text.numeral?_eq_some_iff_isNumeral.1 hn
    obtain ⟨before, behind, hbefore, hbehind, htext⟩ := Text.exists_trimChars text.toList
    refine ⟨before, _, behind, htext, hbefore, hbehind, ?_⟩
    -- No number below the limit is cut short as a port.
    have hport : n.toUInt16.toNat = n := UInt16.toNat_ofNat_of_lt' hlimit
    rwa [hport]
  · rintro ⟨before, num, behind, htext, hbefore, hbehind, hnumeral⟩
    have hread : Text.numeral? portLimit num = some port.toNat :=
      Text.numeral?_eq_some_iff_isNumeral.2 ⟨hnumeral, port.toNat_lt⟩
    rw [portOfText?, htext, Text.trimChars_append hbefore (isBlank_of_mem_numeral hnumeral) hbehind,
      hread]
    exact congrArg some UInt16.ofNat_toNat

/-- The property has no value, or one that spells no port. -/
def SpellsNone (value : Option String) : Prop :=
  ∀ text, value = some text → ∀ port, ¬ SpellsPort text port

/-- The port that counts: the one that the value of the property spells, else the one that is given
on the command line, else the one in the settings. -/
inductive EffectivePort (value : Option String) (given configured : Option UInt16) :
    UInt16 → Prop where
  | property {text : String} {port : UInt16} (hvalue : value = some text)
    (hspells : SpellsPort text port) : EffectivePort value given configured port
  | given {port : UInt16} (hnone : SpellsNone value) (hgiven : given = some port) :
    EffectivePort value given configured port
  | configured {port : UInt16} (hnone : SpellsNone value) (habsent : given = none)
    (hconfigured : configured = some port) : EffectivePort value given configured port

/-- Nothing is read off a value that spells no port. -/
theorem bind_portOfText?_eq_none_iff {value : Option String} :
    value.bind portOfText? = none ↔ SpellsNone value := by
  rw [Option.bind_eq_none_iff]
  refine forall₂_congr fun text _ => ?_
  simp only [Option.eq_none_iff_forall_ne_some, ne_eq, portOfText?_eq_some_iff]

/-- What is read off the value, else what is given, else what is configured, is the port that
counts. -/
theorem effectivePort_iff {value : Option String} {given configured : Option UInt16}
    {port : UInt16} :
    (value.bind portOfText?).or (given.or configured) = some port ↔
      EffectivePort value given configured port := by
  constructor
  · intro h
    cases hread : value.bind portOfText? with
    | some read =>
      rw [hread] at h
      obtain ⟨text, hvalue, htext⟩ := Option.bind_eq_some_iff.1 hread
      obtain rfl : read = port := by simpa using h
      exact .property hvalue (portOfText?_eq_some_iff.1 htext)
    | none =>
      have hnone := bind_portOfText?_eq_none_iff.1 hread
      rw [hread, Option.none_or] at h
      cases given with
      | some first => exact .given hnone (by simpa using h)
      | none => exact .configured hnone rfl h
  · intro h
    cases h with
    | property hvalue hspells =>
      rw [hvalue, Option.bind_some, portOfText?_eq_some_iff.2 hspells, Option.some_or]
    | given hnone hgiven =>
      rw [bind_portOfText?_eq_none_iff.2 hnone, hgiven, Option.none_or, Option.some_or]
    | configured hnone habsent hconfigured =>
      rw [bind_portOfText?_eq_none_iff.2 hnone, habsent, hconfigured, Option.none_or,
        Option.none_or]

end BuildStepper
