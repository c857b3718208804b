import BuildStepper.Proofs.Settings.Files

/-!
# Unknown keys make no difference

Two settings files that differ only in keys that the program does not know (`Alike`) say the same to
it: either both are loaded, with the same settings, warnings and faults, or neither is
(`load_alike`).

What stands behind an unknown key is passed over, so that it can be struck out without a change of
the settings or of the error (`ofTablePlain_prune`). What is left is read entry by entry, and two
entries can be read in either order, up to the error that is met first (`readsKeys_addPlain`). That
exception counts: an unknown key can be the first one of a table, and then it decides where in the
file the table stands, and which of two errors is met first (`unknown_key_moves_table`).
-/

namespace BuildStepper

open Schema (Mismatch)
open Toml (KeyTree Record Value Table)

namespace Settings

/-- Two tables that differ only in unknown keys. Tables are maps: the order of their keys does not
count. -/
def Alike (table table' : Table) : Prop :=
  ((Value.table table).prune keyTree).Same ((Value.table table').prune keyTree)

/-! ## Without the unknown keys -/

/-- An entry with a known key is read off its value without unknown keys. -/
theorem addPlain_prune {key : String} {subtree : KeyTree}
    (hkey : keyTree.children.lookup key = some subtree)
    (known : Option LogSettings × Option DebugSettings) (value : Value) :
    addPlain known (key, value.prune subtree) = addPlain known (key, value) := by
  obtain rfl | hdebug | hother := key_cases key
  · obtain rfl : LogSettings.record.keyTree = subtree := Option.some.inj hkey
    rw [addPlain_logging, addPlain_logging, Record.readPlain_prune LogSettings.record_flat]
  · obtain rfl : DebugSettings.record.keyTree = subtree := Option.some.inj
      (((lookup_eq_some_iff_mem nodup_keys).2 (debug_mem hdebug)).symm.trans hkey)
    rw [addPlain_debug _ _ hdebug, addPlain_debug _ _ hdebug,
      Record.readPlain_prune DebugSettings.record_flat]
  · exact absurd (List.mem_map_of_mem (mem_of_lookup_eq_some hkey)) hother

/-- Striking out the unknown keys changes nothing, neither the settings nor what is wrong. -/
theorem ofTablePlain_prune (table : Table) :
    ofTablePlain (Toml.pruneEntries keyTree table) = ofTablePlain table := by
  rw [ofTablePlain, ofTablePlain]
  refine congrArg (Except.map _) ?_
  -- The records that have been read so far can be any in the induction.
  generalize ((none, none) : Option LogSettings × Option DebugSettings) = known
  induction table generalizing known with
  | nil => rw [Toml.pruneEntries]
  | cons e table ih =>
    rw [Toml.pruneEntries, List.foldlM_cons]
    split
    · next subtree hkey =>
      rw [List.foldlM_cons, addPlain_prune hkey]
      exact congrArg _ (funext ih)
    · next hkey =>
      rw [addPlain_other known (lookup_eq_none_iff_not_mem.1 hkey)]
      exact ih known

/-! ## The order of the known keys -/

section Order

variable (known : Option LogSettings × Option DebugSettings) (v w : Value)

/-- The two records can be read in either order. -/
theorem addPlain_commutes {key : String} (hkey : key = debugKey ∨ key = debugAlias) :
    (addPlain known (loggingKey, v) >>= (addPlain · (key, w))).toOption =
      (addPlain known (key, w) >>= (addPlain · (loggingKey, v))).toOption := by
  simp only [addPlain_logging, addPlain_debug _ w hkey]
  obtain ⟨logging, debug⟩ := known
  cases hlogging : LogSettings.record.readPlain v <;>
    cases hdebug : DebugSettings.record.readPlain w <;>
    cases logging <;> cases debug <;> rfl

/-- Of the two keys of one record a file has only one. -/
theorem addPlain_twice {key key' : String} (hkey : key = debugKey ∨ key = debugAlias)
    (hkey' : key' = debugKey ∨ key' = debugAlias) :
    (addPlain known (key, v) >>= (addPlain · (key', w))).toOption = none := by
  simp only [addPlain_debug _ _ hkey, addPlain_debug _ _ hkey']
  obtain ⟨logging, debug⟩ := known
  cases DebugSettings.record.readPlain v <;> cases debug <;> rfl

end Order

/-- The entries of a file can be read in any order, and of each value only that counts which can be
known of it. -/
theorem readsKeys_addPlain : Toml.ReadsKeys keyTree.keys addPlain where
  nodup := nodup_keys
  others known _ hkey := addPlain_other known hkey
  commutes := by
    rintro ⟨key, v⟩ ⟨key', w⟩ hkey hkey' hne known
    obtain rfl | hdebug | hother := key_cases key
    · obtain rfl | hdebug' | hother' := key_cases key'
      · exact absurd rfl hne
      · exact addPlain_commutes known v w hdebug'
      · exact absurd hkey' hother'
    · obtain rfl | hdebug' | hother' := key_cases key'
      · exact (addPlain_commutes known w v hdebug).symm
      · -- The key of the debug record and its alias: whichever comes second is refused.
        rw [addPlain_twice known v w hdebug hdebug', addPlain_twice known w v hdebug' hdebug]
      · exact absurd hkey' hother'
    · exact absurd hkey hother
  values := by
    intro known key v w hv hw hvw
    obtain rfl | hdebug | hother := key_cases key
    · simp only [addPlain_logging]
      split
      · rfl
      · rw [toOption_map, toOption_map, Record.readPlain_same LogSettings.record_flat hv hw hvw]
    · simp only [addPlain_debug _ _ hdebug]
      split
      · rfl
      · rw [toOption_map, toOption_map, Record.readPlain_same DebugSettings.record_flat hv hw hvw]
    · rw [addPlain_other _ hother, addPlain_other _ hother]

/-- Tables that differ only in unknown keys say the same. -/
theorem ofTablePlain_alike {table table' : Table} (h : (Value.table table).KeysOnce)
    (h' : (Value.table table').KeysOnce) (halike : Alike table table') :
    (ofTablePlain table).toOption = (ofTablePlain table').toOption := by
  rw [← ofTablePlain_prune table, ← ofTablePlain_prune table', ofTablePlain, ofTablePlain,
    toOption_map, toOption_map]
  refine congrArg (Option.map _) ?_
  have hpruned := h.prune keyTree
  have hpruned' := h'.prune keyTree
  rw [Alike] at halike
  rw [Value.prune] at hpruned hpruned' halike
  rw [Value.prune] at halike
  exact readsKeys_addPlain.same hpruned hpruned' halike (none, none)

/-! ## Settings files -/

/-- What two settings files come to that say the same: the same settings, or two errors that are one
and the same where the known keys stand in the same order. -/
inductive LoadedAlike (text text' : String) (sameOrder : Prop) : Prop
  | loaded (settings : Settings) (unknown unknown' : List String) :
    load text = .ok (settings, ⟨unknown, settings.warnings, settings.faults⟩) →
    load text' = .ok (settings, ⟨unknown', settings.warnings, settings.faults⟩) →
    LoadedAlike text text' sameOrder
  | refused (m m' : Mismatch) : load text = .error (.mismatch m) →
    load text' = .error (.mismatch m') → (sameOrder → m = m') → LoadedAlike text text' sameOrder

/-- Settings files that differ only in unknown keys say the same, and asking about the unknown keys
makes no difference to what any file says. -/
theorem load_alike :
    (∀ text text' table table', Toml.read text = .ok table → Toml.read text' = .ok table' →
      Alike table table' → LoadedAlike text text'
        (Toml.pruneEntries keyTree table = Toml.pruneEntries keyTree table')) ∧
      ∀ text, loadPlain text = (load text).map Prod.fst := by
  refine ⟨fun text text' table table' hread hread' halike => ?_, fun text => (load_map text).symm⟩
  have hsame : ((ofTable table).map Prod.fst).toOption =
      ((ofTable table').map Prod.fst).toOption := by
    rw [map_ofTable, map_ofTable]
    exact ofTablePlain_alike (Toml.read_keysOnce hread) (Toml.read_keysOnce hread') halike
  -- Where the known entries come in one order, even the complaint is the same.
  have horder (h : Toml.pruneEntries keyTree table = Toml.pruneEntries keyTree table') :
      (ofTable table).map Prod.fst = (ofTable table').map Prod.fst := by
    rw [map_ofTable, map_ofTable, ← ofTablePlain_prune, h, ofTablePlain_prune]
  cases htable : ofTable table with
  | ok result =>
    obtain ⟨settings, unknown⟩ := result
    cases htable' : ofTable table' with
    | ok result' =>
      obtain ⟨settings', unknown'⟩ := result'
      rw [htable, htable'] at hsame
      obtain rfl : settings = settings' := Option.some.inj hsame
      have hload := (load_eq_ok_iff hread).2 ⟨unknown, htable, rfl⟩
      have hload' := (load_eq_ok_iff hread').2 ⟨unknown', htable', rfl⟩
      exact .loaded settings _ _ hload hload'
    | error m =>
      rw [htable, htable'] at hsame
      cases hsame
  | error m =>
    cases htable' : ofTable table' with
    | ok result' =>
      rw [htable, htable'] at hsame
      cases hsame
    | error m' =>
      rw [htable, htable'] at horder
      exact .refused m m' (load_of_mismatch hread htable) (load_of_mismatch hread' htable')
        fun h => Except.error.inj (horder h)

/-- A misspelt key of the debug record in one file, and a table that nobody knows in the other. -/
theorem load_alike_misspelt :
    ∃ table table',
      Toml.read "debug.prot = 8000\n[logging]\nlevel = \"warn\"\n" = .ok table ∧
      Toml.read "[logging]\nlevel = \"warn\"\n[debug]\n[x.y]\nz = [{}]\n" = .ok table' ∧
      Alike table table' ∧
      LoadedAlike "debug.prot = 8000\n[logging]\nlevel = \"warn\"\n"
        "[logging]\nlevel = \"warn\"\n[debug]\n[x.y]\nz = [{}]\n"
        (Toml.pruneEntries keyTree table = Toml.pruneEntries keyTree table') := by
  have hread : Toml.read "debug.prot = 8000\n[logging]\nlevel = \"warn\"\n" =
      .ok [(debugAlias, .table [("prot", .integer 8000)]),
        (loggingKey, .table [("level", .text "warn")])] := by
    decide +kernel
  have hread' : Toml.read "[logging]\nlevel = \"warn\"\n[debug]\n[x.y]\nz = [{}]\n" =
      .ok [(loggingKey, .table [("level", .text "warn")]), (debugAlias, .table []),
        ("x", .table [("y", .table [("z", .array [.table []])])])] := by
    decide +kernel
  have halike : Alike [(debugAlias, .table [("prot", .integer 8000)]),
        (loggingKey, .table [("level", .text "warn")])]
      [(loggingKey, .table [("level", .text "warn")]), (debugAlias, .table []),
        ("x", .table [("y", .table [("z", .array [.table []])])])] :=
    Value.Same.of_perm ((Toml.read_keysOnce hread).prune keyTree) (.swap _ _ _)
  exact ⟨_, _, hread, hread', halike, load_alike.1 _ _ _ _ hread hread' halike⟩

/-- With an unknown key in front of it a table stands elsewhere in the file, and another error is
met first. -/
theorem unknown_key_moves_table :
    ∃ table table',
      Toml.read "logging.x = 1\ndebug.port = \"bad\"\nlogging.level = 1\n" = .ok table ∧
      Toml.read "debug.port = \"bad\"\nlogging.level = 1\n" = .ok table' ∧ Alike table table' ∧
      load "logging.x = 1\ndebug.port = \"bad\"\nlogging.level = 1\n" =
        .error (.mismatch (.wrongType (.integer 1) .text)) ∧
      load "debug.port = \"bad\"\nlogging.level = 1\n" =
        .error (.mismatch (.wrongType (.text "bad") (.unsigned 16))) := by
  have hread : Toml.read "logging.x = 1\ndebug.port = \"bad\"\nlogging.level = 1\n" =
      .ok [(loggingKey, .table [("x", .integer 1), ("level", .integer 1)]),
        (debugAlias, .table [("port", .text "bad")])] := by
    decide +kernel
  have hread' : Toml.read "debug.port = \"bad\"\nlogging.level = 1\n" =
      .ok [(debugAlias, .table [("port", .text "bad")]),
        (loggingKey, .table [("level", .integer 1)])] := by
    decide +kernel
  refine ⟨_, _, hread, hread',
    Value.Same.of_perm ((Toml.read_keysOnce hread).prune keyTree) (.swap _ _ _),
    load_of_mismatch hread ?_, load_of_mismatch hread' ?_⟩
  · decide +kernel
  · decide +kernel

end Settings

end BuildStepper
