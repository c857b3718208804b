import BuildStepper.Proofs.Toml.Entrywise
import BuildStepper.Settings.Plain

/-!
# How the records of settings are read

The fields of the two records of a settings file have much in common (`Record.Flat`): none of them
is a table, each is read off the surface of its value, and what one changes no other does. All that
holds of the reading of a record follows from this.

A record can be read with or without a word about unknown keys (`map_read`). What stands behind
these keys makes no difference (`readPlain_prune`), and neither does the order of the others, up to
which of several errors is met first (`readPlain_same`). If a table is accepted as a record, no
field in it is a table (`field_not_table`), so that its unknown keys are its own.
-/

namespace BuildStepper

open Schema (Mismatch)
open Toml (Record Value Table KeyTree)

namespace Toml.Record

variable {α : Type} {record : Record α}

/-- The keys of a record. -/
def keys (record : Record α) : List String :=
  record.fields.map Prod.fst

/-- The keys of a record as a tree; below them there are none. -/
def keyTree (record : Record α) : KeyTree :=
  ⟨record.fields.map fun field => (field.1, .leaf)⟩

/-- The tree of a record has the keys of the record. -/
theorem keys_keyTree (record : Record α) : record.keyTree.keys = record.keys := by
  rw [KeyTree.keys, keyTree, List.map_map]
  rfl

/-- What the fields of a record have in common. -/
structure Flat (record : Record α) : Prop where
  /-- No two fields have one key. -/
  nodup : record.keys.Nodup
  /-- A field is read off the surface of its value. -/
  surface : ∀ field ∈ record.fields, ∀ v w : Value, v.surface = w.surface → field.2 v = field.2 w
  /-- No field is a table. -/
  refuses : ∀ field ∈ record.fields, ∀ inner current final,
    field.2 (.table inner) current ≠ .ok final
  /-- Two fields can be read in either order. -/
  commutes : ∀ f ∈ record.fields, ∀ g ∈ record.fields, f.1 ≠ g.1 → ∀ v w current,
    (f.2 v current >>= g.2 w).toOption = (g.2 w current >>= f.2 v).toOption
  /-- The key of a date or time is not the key of a field. -/
  moment : momentKey ∉ record.keys

/-- Reads one entry on top of what is known of the record. -/
def fillEntry (record : Record α) (current : α) (entry : String × Value) : Except Mismatch α :=
  match record.fields.lookup entry.1 with
  | some set => set entry.2 current
  | none => .ok current

/-- A record is filled entry by entry. -/
theorem fill_eq_foldlM (record : Record α) (entries : Table) (current : α) :
    record.fill entries current = entries.foldlM record.fillEntry current := rfl

/-- An unknown key is passed over. -/
theorem fillEntry_of_not_mem {entry : String × Value} (h : entry.1 ∉ record.keys) (current : α) :
    record.fillEntry current entry = .ok current := by
  rw [fillEntry, lookup_eq_none_iff_not_mem.2 h]

/-- An entry with a key of the record gives the field of this key. -/
theorem exists_field {key : String} (h : key ∈ record.keys) :
    ∃ field ∈ record.fields, field.1 = key ∧
      ∀ current v, record.fillEntry current (key, v) = field.2 v current := by
  cases hset : record.fields.lookup key with
  | none => exact absurd h (lookup_eq_none_iff_not_mem.1 hset)
  | some set =>
    refine ⟨(key, set), mem_of_lookup_eq_some hset, rfl, fun current v => ?_⟩
    rw [fillEntry, hset]

/-! ## With and without the unknown keys -/

/-- Asking about unknown keys changes nothing in what the record is filled with. -/
theorem map_readEntries (entries : Table) (current : α) :
    (record.readEntries entries current).map Prod.fst = record.fill entries current := by
  induction entries generalizing current with
  | nil => rfl
  | cons e entries ih =>
    rw [readEntries, fill_eq_foldlM, List.foldlM_cons, fillEntry]
    cases record.fields.lookup e.1 with
    | none =>
      have h := ih current
      cases hread : record.readEntries entries current <;> rw [hread] at h <;> exact h
    | some set =>
      dsimp only
      cases set e.2 current with
      | error m => rfl
      | ok next => exact ih next

/-- Reading a record without a word about unknown keys is reading it. -/
theorem map_read (h : record.Flat) (value : Value) :
    (record.read value).map Prod.fst = record.readPlain value := by
  cases value with
  | table entries => exact map_readEntries entries record.default
  | moment =>
    rw [read, map_readEntries, fill_eq_foldlM, List.foldlM_cons, fillEntry_of_not_mem h.moment]
    rfl
  | array elements =>
    rw [read, readPlain]
    cases record.readElements elements <;> rfl
  | _ => rfl

/-- The unknown keys of a table are those of no field. -/
theorem unknown_of_readEntries {entries : Table} {current final : α} {unknown : List String}
    (h : record.readEntries entries current = .ok (final, unknown)) :
    unknown = (entries.map Prod.fst).filter (· ∉ record.keys) := by
  induction entries generalizing current final unknown with
  | nil =>
    obtain ⟨-, rfl⟩ := Prod.mk.inj (Except.ok.inj h)
    rfl
  | cons e entries ih =>
    rw [readEntries] at h
    rw [List.map_cons, List.filter_cons]
    split at h
    · next set hset =>
      obtain ⟨next, -, h⟩ := bind_eq_ok h
      have hmem : e.1 ∈ record.keys := List.mem_map_of_mem (mem_of_lookup_eq_some hset)
      rw [if_neg (by simpa using hmem)]
      exact ih h
    · next hnone =>
      obtain ⟨⟨final', unknown'⟩, hread, heq⟩ := map_eq_ok h
      obtain ⟨-, rfl⟩ := Prod.mk.inj heq
      have hnot : e.1 ∉ record.keys := lookup_eq_none_iff_not_mem.1 hnone
      rw [if_pos (by simpa using hnot), ih hread]

/-- The unknown keys of a record: of a table those of no field, of a date or time its only one. -/
theorem mem_unknown_iff (h : record.Flat) {value : Value} {final : α} {unknown : List String}
    (hread : record.read value = .ok (final, unknown)) (key : String) :
    key ∈ unknown ↔
      (∃ inner, value = .table inner ∧ key ∈ inner.map Prod.fst ∧ key ∉ record.keys) ∨
        value = .moment ∧ key = momentKey := by
  cases value with
  | table entries =>
    rw [unknown_of_readEntries hread]
    simp
  | moment =>
    rw [unknown_of_readEntries hread, List.map_singleton,
      List.filter_cons_of_pos (by simpa using h.moment)]
    simp
  | array elements =>
    obtain ⟨final', -, heq⟩ := map_eq_ok hread
    obtain ⟨-, rfl⟩ := Prod.mk.inj heq
    simp
  | _ => cases hread

/-- Where a record was filled, no field of it is a table in the file. -/
theorem field_not_table_of_fill (h : record.Flat) {entries inner : Table} {key : String}
    {current final : α} (hfill : record.fill entries current = .ok final)
    (hmem : (key, .table inner) ∈ entries) : key ∉ record.keys := by
  induction entries generalizing current with
  | nil => cases hmem
  | cons e entries ih =>
    rw [fill_eq_foldlM, List.foldlM_cons] at hfill
    obtain ⟨next, hnext, hrest⟩ := bind_eq_ok hfill
    obtain rfl | hmem := List.mem_cons.1 hmem
    · intro hkey
      obtain ⟨field, hfield, -, hset⟩ := exists_field hkey
      rw [hset] at hnext
      exact h.refuses field hfield inner current next hnext
    · exact ih hrest hmem

/-- In a table that is accepted no field is a table. -/
theorem field_not_table (h : record.Flat) {entries inner : Table} {key : String} {final : α}
    {unknown : List String} (hread : record.read (.table entries) = .ok (final, unknown))
    (hmem : (key, .table inner) ∈ entries) : key ∉ record.keys := by
  have hplain := map_read h (.table entries)
  rw [hread] at hplain
  exact field_not_table_of_fill h hplain.symm hmem

/-! ## What makes no difference -/

/-- A field is read off the surface. -/
theorem fillEntry_congr (h : record.Flat) (current : α) (key : String) {v w : Value}
    (hvw : v.surface = w.surface) :
    record.fillEntry current (key, v) = record.fillEntry current (key, w) := by
  by_cases hkey : key ∈ record.keys
  · obtain ⟨field, hfield, -, hset⟩ := exists_field hkey
    rw [hset, hset, h.surface field hfield v w hvw]
  · rw [fillEntry_of_not_mem hkey, fillEntry_of_not_mem hkey]

/-- Some fields, each read off the surface of its value. -/
theorem foldlM_zip_congr (h : record.Flat)
    {fields : List (String × (Value → α → Except Mismatch α))}
    (hfields : ∀ field ∈ fields, field ∈ record.fields) {elements elements' : List Value}
    (hall : List.Forall₂ (fun v w => v.surface = w.surface) elements elements') (current : α) :
    (fields.zip elements).foldlM (fun current (field, value) => field.2 value current) current =
      (fields.zip elements').foldlM (fun current (field, value) => field.2 value current)
        current := by
  induction hall generalizing fields current with
  | nil => rw [List.zip_nil_right]
  | cons hvw _ ih =>
    cases fields with
    | nil => rfl
    | cons field fields =>
      obtain ⟨hfield, hrest⟩ := List.forall_mem_cons.1 hfields
      rw [List.zip_cons_cons, List.zip_cons_cons, List.foldlM_cons, List.foldlM_cons]
      dsimp only
      rw [h.surface field hfield _ _ hvw]
      exact congrArg _ (funext fun next => ih hrest next)

/-- A record that is given as an array is read off the surface of its elements. -/
theorem readElements_congr (h : record.Flat) {elements elements' : List Value}
    (hall : List.Forall₂ (fun v w => v.surface = w.surface) elements elements') :
    record.readElements elements = record.readElements elements' :=
  foldlM_zip_congr h (fun _ => id) hall record.default

/-- Striking out the unknown keys changes nothing, neither the record nor what is wrong. -/
theorem readPlain_prune (h : record.Flat) (value : Value) :
    record.readPlain (value.prune record.keyTree) = record.readPlain value := by
  cases value with
  | table entries =>
    rw [Value.prune, readPlain, readPlain, fill_eq_foldlM, fill_eq_foldlM]
    generalize record.default = current
    induction entries generalizing current with
    | nil => rw [Toml.pruneEntries]
    | cons e entries ih =>
      rw [Toml.pruneEntries, List.foldlM_cons]
      split
      · next subtree _ =>
        rw [List.foldlM_cons, fillEntry_congr h current e.1 (Value.surface_prune subtree e.2)]
        exact congrArg _ (funext ih)
      · next hnone =>
        -- An entry that is struck out would have been passed over.
        have hkey : e.1 ∉ record.keys := by
          rw [← keys_keyTree]
          exact lookup_eq_none_iff_not_mem.1 hnone
        rw [fillEntry_of_not_mem hkey]
        exact ih current
  | array elements =>
    rw [Value.prune, readPlain, readPlain, Toml.pruneElements_eq_map]
    exact readElements_congr h (List.forall₂_map_left_iff.2
      (List.forall₂_same.2 fun v _ => Value.surface_prune .leaf v))
  | _ => rw [Value.prune]

/-- The entries of a record can be read in any order. -/
theorem readsKeys_fillEntry (h : record.Flat) : Toml.ReadsKeys record.keys record.fillEntry where
  nodup := h.nodup
  others current e hkey := fillEntry_of_not_mem hkey current
  commutes := by
    rintro ⟨key, v⟩ ⟨key', w⟩ hkey hkey' hne current
    obtain ⟨field, hfield, rfl, hset⟩ := exists_field hkey
    obtain ⟨field', hfield', rfl, hset'⟩ := exists_field hkey'
    simp only [hset, hset']
    exact h.commutes field hfield field' hfield' hne v w current
  values current key v w _ _ hvw := congrArg _ (fillEntry_congr h current key hvw.surface)

/-- The order of keys makes no difference to the record. -/
theorem readPlain_same (h : record.Flat) {v w : Value} (hv : v.KeysOnce) (hw : w.KeysOnce)
    (hvw : v.Same w) : (record.readPlain v).toOption = (record.readPlain w).toOption := by
  cases hvw with
  | table hsome hsame =>
    exact (readsKeys_fillEntry h).same hv hw (.table hsome hsame) record.default
  | array hall =>
    exact congrArg _ (readElements_congr h (hall.imp fun _ _ hvw => hvw.surface))
  | _ => rfl

end Toml.Record

/-! ## The two records -/

section Fields

variable {α a b ε : Type}

/-- Changes of what has been read commute if the changes do. -/
theorem toOption_map_commutes {put : α → a → α} {put' : α → b → α}
    (h : ∀ s x y, put' (put s x) y = put (put' s y) x) (x : Except ε a) (y : Except ε b) (s : α) :
    (x.map (put s) >>= fun s => y.map (put' s)).toOption =
      (y.map (put' s) >>= fun s => x.map (put s)).toOption := by
  cases x with
  | error e => cases y <;> rfl
  | ok x =>
    cases y with
    | error e => rfl
    | ok y => exact congrArg some (h s x y)

end Fields

/-- The record of the log is flat. -/
theorem LogSettings.record_flat : LogSettings.record.Flat where
  nodup := by decide
  surface := by
    intro field hfield v w hvw
    simp only [record, List.mem_cons, List.not_mem_nil, or_false] at hfield
    obtain rfl | rfl | rfl | rfl := hfield
    · simp only [Value.text?_congr hvw]
    · simp only [Value.boolean?_congr hvw]
    · simp only [Value.boolean?_congr hvw]
    · simp only [Value.path?_congr hvw]
  refuses := by
    intro field hfield inner current final h
    simp only [record, List.mem_cons, List.not_mem_nil, or_false] at hfield
    obtain rfl | rfl | rfl | rfl := hfield <;> cases h
  commutes := by
    intro f hf g hg hne v w
    simp only [record, List.mem_cons, List.not_mem_nil, or_false] at hf hg
    obtain rfl | rfl | rfl | rfl := hf <;> obtain rfl | rfl | rfl | rfl := hg
    all_goals first
      | exact absurd rfl hne
      | dsimp only
        exact toOption_map_commutes (fun _ _ _ => rfl) _ _
  moment := by decide

/-- The debug record is flat. -/
theorem DebugSettings.record_flat : DebugSettings.record.Flat where
  nodup := by decide
  surface := by
    intro field hfield v w hvw
    simp only [record, List.mem_cons, List.not_mem_nil, or_false] at hfield
    obtain rfl | rfl | rfl | rfl | rfl := hfield
    · simp only [Value.text?_congr hvw]
    · simp only [Value.unsigned?_congr 16 hvw]
    · simp only [Value.text?_congr hvw]
    · simp only [Value.unsigned?_congr 64 hvw]
    · simp only [Value.boolean?_congr hvw]
  refuses := by
    intro field hfield inner current final h
    simp only [record, List.mem_cons, List.not_mem_nil, or_false] at hfield
    obtain rfl | rfl | rfl | rfl | rfl := hfield <;> cases h
  commutes := by
    intro f hf g hg hne v w
    simp only [record, List.mem_cons, List.not_mem_nil, or_false] at hf hg
    obtain rfl | rfl | rfl | rfl | rfl := hf <;> obtain rfl | rfl | rfl | rfl | rfl := hg
    all_goals first
      | exact absurd rfl hne
      | dsimp only
        exact toOption_map_commutes (fun _ _ _ => rfl) _ _
  moment := by decide

end BuildStepper
