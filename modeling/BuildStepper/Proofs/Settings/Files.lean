import BuildStepper.Proofs.Settings.Records
import BuildStepper.Settings.Diagnosis

/-!
# How a settings file is read

A settings file has three keys (`Settings.keyTree`), two of which are for the same record. Its
entries are read one by one, either with or without the ways to the keys that are unknown; whatever
the text, the settings are the same, or else the error is (`load_map`).

The ways that are told lead to the unknown keys and, where a date or time stands for a record, to
the one key that such a value has when it is looked into (`mem_unknown_iff`).
-/

namespace BuildStepper

open Schema (Mismatch)
open Toml (Record Value Table KeyTree Unknown)

namespace Settings

/-- The keys that a settings file can have. -/
def keyTree : KeyTree :=
  ⟨[(loggingKey, LogSettings.record.keyTree), (debugKey, DebugSettings.record.keyTree),
    (debugAlias, DebugSettings.record.keyTree)]⟩

/-- The three keys are different. -/
theorem nodup_keys : keyTree.keys.Nodup := by decide

/-- A key is that of the log, one of the two for the debug record, or unknown. -/
theorem key_cases (key : String) :
    key = loggingKey ∨ (key = debugKey ∨ key = debugAlias) ∨ key ∉ keyTree.keys := by
  by_cases hkey : key ∈ keyTree.keys
  · simp only [KeyTree.keys, keyTree, List.map_cons, List.map_nil, List.mem_cons, List.not_mem_nil,
      or_false] at hkey
    tauto
  · exact .inr (.inr hkey)

/-- The key of the log is for the record of the log. -/
theorem logging_mem : (loggingKey, LogSettings.record.keyTree) ∈ keyTree.children :=
  List.mem_cons_self

/-- Both keys for the debug record are for that record. -/
theorem debug_mem {key : String} (hkey : key = debugKey ∨ key = debugAlias) :
    (key, DebugSettings.record.keyTree) ∈ keyTree.children := by
  obtain rfl | rfl := hkey
  · exact List.mem_cons_of_mem _ List.mem_cons_self
  · exact List.mem_cons_of_mem _ (List.mem_cons_of_mem _ List.mem_cons_self)

/-- Neither of the two is the key of the log. -/
theorem ne_loggingKey {key : String} (hkey : key = debugKey ∨ key = debugAlias) :
    key ≠ loggingKey := by
  obtain rfl | rfl := hkey <;> decide

/-- A key that a file cannot have is none of the three. -/
theorem other_of_not_mem_keys {key : String} (hkey : key ∉ keyTree.keys) :
    key ≠ loggingKey ∧ ¬ (key = debugKey ∨ key = debugAlias) := by
  constructor
  · rintro rfl
    exact hkey (List.mem_map_of_mem logging_mem)
  · exact fun hdebug => hkey (List.mem_map_of_mem (debug_mem hdebug))

/-! ## Entries of a file -/

section Plain

variable (known : Option LogSettings × Option DebugSettings) (value : Value)

/-- The record of the log is read once. -/
theorem addPlain_logging : addPlain known (loggingKey, value) =
    if known.1.isSome then .error (.duplicateField loggingKey)
    else (LogSettings.record.readPlain value).map fun logging => (some logging, known.2) :=
  if_pos rfl

/-- So is the debug record, by whichever of its keys. -/
theorem addPlain_debug {key : String} (hkey : key = debugKey ∨ key = debugAlias) :
    addPlain known (key, value) =
      if known.2.isSome then .error (.duplicateField debugKey)
      else (DebugSettings.record.readPlain value).map fun debug => (known.1, some debug) :=
  (if_neg (ne_loggingKey hkey)).trans (if_pos (by simpa using hkey))

/-- An unknown key is passed over. -/
theorem addPlain_other {entry : String × Value} (hkey : entry.1 ∉ keyTree.keys) :
    addPlain known entry = .ok known := by
  obtain ⟨hlogging, hdebug⟩ := other_of_not_mem_keys hkey
  exact (if_neg hlogging).trans (if_neg (by simpa using hdebug))

end Plain

section Drafts

variable (draft : Draft) (value : Value)

/-- Asked about unknown keys, the record of the log tells those in it, with its own key in front. -/
theorem add_logging : draft.add (loggingKey, value) =
    if draft.logging.isSome then .error (.duplicateField loggingKey)
    else (LogSettings.record.read value).map fun (logging, unknown) =>
      { draft with
        logging := some logging, unknown := draft.unknown ++ unknown.map ([loggingKey, ·]) } := by
  unfold Draft.add
  exact if_pos rfl

/-- The debug record does so with the key that the file has. -/
theorem add_debug {key : String} (hkey : key = debugKey ∨ key = debugAlias) :
    draft.add (key, value) =
      if draft.debug.isSome then .error (.duplicateField debugKey)
      else (DebugSettings.record.read value).map fun (debug, unknown) =>
        { draft with debug := some debug, unknown := draft.unknown ++ unknown.map ([key, ·]) } := by
  unfold Draft.add
  exact (if_neg (ne_loggingKey hkey)).trans (if_pos (by simpa using hkey))

/-- An unknown key is told by itself. -/
theorem add_other {entry : String × Value} (hkey : entry.1 ∉ keyTree.keys) :
    draft.add entry = .ok { draft with unknown := draft.unknown ++ [[entry.1]] } := by
  obtain ⟨hlogging, hdebug⟩ := other_of_not_mem_keys hkey
  unfold Draft.add
  exact (if_neg hlogging).trans (if_neg (by simpa using hdebug))

end Drafts

/-! ## With and without the unknown keys -/

/-- The records of a draft. -/
def Draft.known (draft : Draft) : Option LogSettings × Option DebugSettings :=
  (draft.logging, draft.debug)

/-- An entry makes the same of the records, whether one asks about unknown keys or not. -/
theorem map_known_add (draft : Draft) (entry : String × Value) :
    (draft.add entry).map Draft.known = addPlain draft.known entry := by
  obtain ⟨key, value⟩ := entry
  obtain rfl | hdebug | hother := key_cases key
  · rw [add_logging, addPlain_logging, ← Record.map_read LogSettings.record_flat]
    -- The record may be there already, which is an error on both sides.
    by_cases hsome : draft.logging.isSome
    · have hknown : draft.known.1.isSome := hsome
      rw [if_pos hsome, if_pos hknown]
      rfl
    · have hknown : ¬ draft.known.1.isSome := hsome
      rw [if_neg hsome, if_neg hknown]
      cases LogSettings.record.read value <;> rfl
  · rw [add_debug draft value hdebug, addPlain_debug _ value hdebug,
      ← Record.map_read DebugSettings.record_flat]
    by_cases hsome : draft.debug.isSome
    · have hknown : draft.known.2.isSome := hsome
      rw [if_pos hsome, if_pos hknown]
      rfl
    · have hknown : ¬ draft.known.2.isSome := hsome
      rw [if_neg hsome, if_neg hknown]
      cases DebugSettings.record.read value <;> rfl
  · rw [add_other draft hother, addPlain_other draft.known hother]
    rfl

/-- So do the entries of a table. -/
theorem map_known_foldlM (table : Table) (draft : Draft) :
    (table.foldlM Draft.add draft).map Draft.known = table.foldlM addPlain draft.known := by
  induction table generalizing draft with
  | nil => rfl
  | cons entry table ih =>
    rw [List.foldlM_cons, List.foldlM_cons, ← map_known_add]
    cases draft.add entry with
    | error m => rfl
    | ok next => exact ih next

/-- So the settings are the same, or the error is. -/
theorem map_ofTable (table : Table) : (ofTable table).map Prod.fst = ofTablePlain table := by
  have h := map_known_foldlM table {}
  rw [ofTable, ofTablePlain]
  change _ = (table.foldlM addPlain (Draft.known {})).map _
  rw [← h]
  cases table.foldlM Draft.add {} <;> rfl

/-- Whether one asks about unknown keys makes no difference to the settings, nor to the error. -/
theorem load_map (text : String) : (load text).map Prod.fst = loadPlain text := by
  rw [load, loadPlain]
  cases Toml.read text with
  | error fault => rfl
  | ok table =>
    dsimp only
    rw [← map_ofTable]
    cases ofTable table <;> rfl

/-- What comes of a text that is TOML. -/
theorem load_eq_ok_iff {text : String} {table : Table} (hread : Toml.read text = .ok table)
    {settings : Settings} {diagnosis : Diagnosis} :
    load text = .ok (settings, diagnosis) ↔
      ∃ unknown, ofTable table = .ok (settings, unknown) ∧
        diagnosis = ⟨listUnknown unknown, settings.warnings, settings.faults⟩ := by
  rw [load, hread]
  dsimp only
  cases ofTable table with
  | error m => simp
  | ok result =>
    obtain ⟨found, unknown⟩ := result
    constructor
    · intro h
      obtain ⟨rfl, rfl⟩ := Prod.mk.inj (Except.ok.inj h)
      exact ⟨unknown, rfl, rfl⟩
    · rintro ⟨unknown', h, rfl⟩
      obtain ⟨rfl, rfl⟩ := Prod.mk.inj (Except.ok.inj h)
      rfl

/-- Beside the unknown keys, what is wrong with a file is what is wrong with its settings. -/
theorem diagnosis_of_load {text : String} {loaded : Settings × Diagnosis}
    (h : load text = .ok loaded) :
    loaded.2 = ⟨loaded.2.unknownKeys, loaded.1.warnings, loaded.1.faults⟩ := by
  obtain ⟨settings, diagnosis⟩ := loaded
  cases hread : Toml.read text with
  | error fault =>
    rw [load, hread] at h
    cases h
  | ok table =>
    obtain ⟨unknown, -, heq⟩ := (load_eq_ok_iff hread).1 h
    simp only [heq]

/-- A text that is TOML is refused where its table is. -/
theorem load_of_mismatch {text : String} {table : Table} (hread : Toml.read text = .ok table)
    {m : Mismatch} (h : ofTable table = .error m) : load text = .error (.mismatch m) := by
  rw [load, hread]
  dsimp only
  rw [h]

/-! ## The unknown keys -/

/-- A date or time stands for a record. -/
def StandsFor (table : Table) (key : String) : Prop :=
  (key, .moment) ∈ table ∧ key ∈ keyTree.keys

/-- A way to an unknown key leads through the first entry or through the others. -/
theorem unknown_cons {tree : KeyTree} {entry : String × Value} {table : Table}
    {path : List String} :
    Unknown tree (entry :: table) path ↔ Unknown tree [entry] path ∨ Unknown tree table path := by
  constructor
  · intro h
    cases h with
    | here hmem hkey =>
      obtain heq | hmem := List.mem_cons.1 hmem
      · exact .inl (.here (List.mem_singleton.2 heq) hkey)
      · exact .inr (.here hmem hkey)
    | inside hmem hkey h =>
      obtain heq | hmem := List.mem_cons.1 hmem
      · exact .inl (.inside (List.mem_singleton.2 heq) hkey h)
      · exact .inr (.inside hmem hkey h)
  · rintro (h | h)
    · cases h with
      | here hmem hkey => exact .here (List.mem_cons.2 (.inl (List.mem_singleton.1 hmem))) hkey
      | inside hmem hkey h =>
        exact .inside (List.mem_cons.2 (.inl (List.mem_singleton.1 hmem))) hkey h
    · cases h with
      | here hmem hkey => exact .here (List.mem_cons_of_mem _ hmem) hkey
      | inside hmem hkey h => exact .inside (List.mem_cons_of_mem _ hmem) hkey h

/-- In an empty table no key is unknown. -/
theorem not_unknown_nil {tree : KeyTree} {path : List String} : ¬ Unknown tree [] path := by
  rintro (⟨hmem, -⟩ | ⟨hmem, -, -⟩) <;> cases hmem

/-- The unknown keys of an entry that is accepted as a record. -/
theorem mem_unknown_iff_record {α : Type} {record : Record α} (hflat : record.Flat) {key : String}
    (hkey : (key, record.keyTree) ∈ keyTree.children) {value : Value} {final : α}
    {unknown : List String} (hread : record.read value = .ok (final, unknown))
    (path : List String) :
    path ∈ unknown.map ([key, ·]) ↔
      Unknown keyTree [(key, value)] path ∨
        (value = .moment ∧ path = [key, Toml.momentKey]) := by
  have hknown : key ∈ keyTree.keys := List.mem_map_of_mem hkey
  have hunknown : Unknown keyTree [(key, value)] path ↔
      ∃ inner, value = .table inner ∧
        ∃ k ∈ inner.map Prod.fst, k ∉ record.keys ∧ path = [key, k] := by
    constructor
    · intro h
      cases h with
      | here hmem hnot =>
        obtain ⟨rfl, -⟩ := Prod.mk.inj (List.mem_singleton.1 hmem)
        exact absurd hknown hnot
      | @inside _ subtree _ inner _ path hmem hsub h =>
        obtain ⟨rfl, rfl⟩ := Prod.mk.inj (List.mem_singleton.1 hmem)
        -- No other tree stands at this key.
        obtain rfl : subtree = record.keyTree := Option.some.inj
          (((lookup_eq_some_iff_mem nodup_keys).2 hsub).symm.trans
            ((lookup_eq_some_iff_mem nodup_keys).2 hkey))
        refine ⟨inner, rfl, ?_⟩
        cases h with
        | here hmem hnot =>
          rw [Record.keys_keyTree] at hnot
          exact ⟨_, List.mem_map_of_mem hmem, hnot, rfl⟩
        | inside hmem hsub h =>
          have hfield := List.mem_map_of_mem (f := Prod.fst) hsub
          exact absurd (Record.keys_keyTree record ▸ hfield)
            (Record.field_not_table hflat hread hmem)
    · rintro ⟨inner, rfl, k, hk, hnot, rfl⟩
      obtain ⟨⟨k, v⟩, hmem, rfl⟩ := List.mem_map.1 hk
      exact .inside List.mem_cons_self hkey (.here hmem (by rwa [Record.keys_keyTree]))
  rw [hunknown, List.mem_map]
  constructor
  · rintro ⟨k, hk, rfl⟩
    obtain ⟨inner, hinner, hmem, hnot⟩ | ⟨hmoment, rfl⟩ :=
      (Record.mem_unknown_iff hflat hread k).1 hk
    · exact .inl ⟨inner, hinner, k, hmem, hnot, rfl⟩
    · exact .inr ⟨hmoment, rfl⟩
  · rintro (⟨inner, hinner, k, hmem, hnot, rfl⟩ | ⟨hmoment, rfl⟩)
    · exact ⟨k, (Record.mem_unknown_iff hflat hread k).2 (.inl ⟨inner, hinner, hmem, hnot⟩), rfl⟩
    · exact ⟨Toml.momentKey, (Record.mem_unknown_iff hflat hread _).2 (.inr ⟨hmoment, rfl⟩), rfl⟩

/-- The ways that an entry adds. -/
theorem mem_unknown_add {draft next : Draft} {entry : String × Value}
    (h : draft.add entry = .ok next) (path : List String) :
    path ∈ next.unknown ↔ path ∈ draft.unknown ∨ Unknown keyTree [entry] path ∨
      ∃ key, StandsFor [entry] key ∧ path = [key, Toml.momentKey] := by
  obtain ⟨key, value⟩ := entry
  -- A single entry can stand for a key only if its value is a moment.
  have hstands (hkey : key ∈ keyTree.keys) :
      (∃ k, StandsFor [(key, value)] k ∧ path = [k, Toml.momentKey]) ↔
        value = .moment ∧ path = [key, Toml.momentKey] := by
    constructor
    · rintro ⟨k, ⟨hmem, -⟩, rfl⟩
      obtain ⟨rfl, rfl⟩ := Prod.mk.inj (List.mem_singleton.1 hmem)
      exact ⟨rfl, rfl⟩
    · rintro ⟨rfl, rfl⟩
      exact ⟨key, ⟨List.mem_cons_self, hkey⟩, rfl⟩
  obtain rfl | hdebug | hother := key_cases key
  · rw [add_logging] at h
    split at h
    · cases h
    obtain ⟨⟨logging, unknown⟩, hread, rfl⟩ := map_eq_ok h
    rw [hstands (List.mem_map_of_mem logging_mem), List.mem_append,
      mem_unknown_iff_record LogSettings.record_flat logging_mem hread]
  · rw [add_debug draft value hdebug] at h
    split at h
    · cases h
    obtain ⟨⟨debug, unknown⟩, hread, rfl⟩ := map_eq_ok h
    rw [hstands (List.mem_map_of_mem (debug_mem hdebug)), List.mem_append,
      mem_unknown_iff_record DebugSettings.record_flat (debug_mem hdebug) hread]
  · rw [add_other draft hother] at h
    obtain rfl := Except.ok.inj h
    rw [List.mem_append, List.mem_singleton]
    -- The key itself is unknown, and no way leads further into what is.
    refine or_congr_right ⟨?_, ?_⟩
    · rintro rfl
      exact .inl (.here List.mem_cons_self hother)
    · rintro (hunknown | ⟨k, ⟨hmem, hk⟩, -⟩)
      · cases hunknown with
        | here hmem _ =>
          obtain ⟨rfl, -⟩ := Prod.mk.inj (List.mem_singleton.1 hmem)
          rfl
        | inside hmem hsub _ =>
          obtain ⟨rfl, -⟩ := Prod.mk.inj (List.mem_singleton.1 hmem)
          exact absurd (List.mem_map_of_mem hsub) hother
      · obtain ⟨rfl, -⟩ := Prod.mk.inj (List.mem_singleton.1 hmem)
        exact absurd hk hother

/-- The ways that a run of entries adds: each entry adds its own. -/
theorem mem_unknown_foldlM {table : Table} {draft final : Draft}
    (h : table.foldlM Draft.add draft = .ok final) (path : List String) :
    path ∈ final.unknown ↔ path ∈ draft.unknown ∨ Unknown keyTree table path ∨
      ∃ key, StandsFor table key ∧ path = [key, Toml.momentKey] := by
  induction table generalizing draft with
  | nil =>
    obtain rfl := Except.ok.inj h
    simp [not_unknown_nil, StandsFor]
  | cons entry table ih =>
    rw [List.foldlM_cons] at h
    obtain ⟨next, hnext, hrest⟩ := bind_eq_ok h
    have hstands (key : String) :
        StandsFor (entry :: table) key ↔ StandsFor [entry] key ∨ StandsFor table key := by
      simp only [StandsFor, List.mem_cons, List.not_mem_nil, or_false, or_and_right]
    rw [ih hrest, mem_unknown_add hnext, @unknown_cons _ _ table, or_assoc, or_or_or_comm]
    simp only [hstands, or_and_right, exists_or]

/-- The ways that are told lead to the unknown keys, and to those of dates and times that stand for
a record. -/
theorem mem_unknown_iff {table : Table} {settings : Settings} {unknown : List (List String)}
    (h : ofTable table = .ok (settings, unknown)) (path : List String) :
    path ∈ unknown ↔ Unknown keyTree table path ∨
      ∃ key, StandsFor table key ∧ path = [key, Toml.momentKey] := by
  obtain ⟨final, hfinal, heq⟩ := map_eq_ok h
  obtain ⟨-, rfl⟩ := Prod.mk.inj heq
  rw [mem_unknown_foldlM hfinal]
  simp

end Settings

end BuildStepper
