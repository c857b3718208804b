import BuildStepper.Proofs.Lists
import BuildStepper.Proofs.Toml.Tables
import BuildStepper.Settings.Record
import Mathlib.Data.List.Forall2

/-!
# The keys that a program knows

A program knows some keys of a table and, below each, some keys again (`KeyTree`). Seen through such
a tree a value has two parts. What stands behind a key that is not in the tree can be struck out
(`Value.prune`); the outermost of these keys are the unknown ones (`Unknown`). What is left is a
map, and two values that differ only in the order in which their tables list their keys are the same
(`Value.Same`).

Neither changes what a value is on its surface, that is without what is inside of it
(`Value.surface`), and settings that are no tables are read off the surface alone.
-/

namespace BuildStepper.Toml

/-- The keys that a program knows in a table, and below each those that it knows there. -/
structure KeyTree where
  children : List (String × KeyTree)

/-- The keys of the table itself. -/
def KeyTree.keys (tree : KeyTree) : List String :=
  tree.children.map Prod.fst

/-- The tree of a value that is no table. -/
def KeyTree.leaf : KeyTree :=
  ⟨[]⟩

/-- The way to a key of a table, or of a table inside it, that is not in the tree while all keys on
the way to it are. -/
inductive Unknown : KeyTree → Table → List String → Prop
  | here {tree : KeyTree} {table : Table} {key : String} {value : Value} :
    (key, value) ∈ table → key ∉ tree.keys → Unknown tree table [key]
  | inside {tree subtree : KeyTree} {table inner : Table} {key : String} {path : List String} :
    (key, .table inner) ∈ table → (key, subtree) ∈ tree.children → Unknown subtree inner path →
    Unknown tree table (key :: path)

/-! ## Striking out unknown keys -/

mutual

/-- The value without the keys that are not in the tree. The tables in an array have no known
keys. -/
def Value.prune (tree : KeyTree) : Value → Value
  | .array elements => .array (pruneElements elements)
  | .table entries => .table (pruneEntries tree entries)
  | .text value => .text value
  | .integer value => .integer value
  | .decimal bits => .decimal bits
  | .boolean value => .boolean value
  | .moment => .moment

/-- The values without the keys of the tables in them. -/
def pruneElements : List Value → List Value
  | [] => []
  | value :: rest => value.prune .leaf :: pruneElements rest

/-- The entries without those whose keys are not in the tree. -/
def pruneEntries (tree : KeyTree) : List (String × Value) → Table
  | [] => []
  | (key, value) :: rest =>
    match tree.children.lookup key with
    | some subtree => (key, value.prune subtree) :: pruneEntries tree rest
    | none => pruneEntries tree rest

end

/-- No key is known inside an array, so that all keys in its elements are struck out. -/
theorem pruneElements_eq_map (elements : List Value) :
    pruneElements elements = elements.map (Value.prune .leaf) := by
  induction elements with
  | nil => rw [pruneElements, List.map_nil]
  | cons v elements ih => rw [pruneElements, List.map_cons, ih]

/-- The keys that are left are the known ones. -/
theorem keys_pruneEntries (tree : KeyTree) (entries : Table) :
    (pruneEntries tree entries).map Prod.fst = (entries.map Prod.fst).filter (· ∈ tree.keys) := by
  induction entries with
  | nil => rw [pruneEntries, List.map_nil, List.filter_nil]
  | cons e entries ih =>
    rw [pruneEntries, List.map_cons, List.filter_cons]
    split
    · next subtree hkey =>
      have hmem : e.1 ∈ tree.keys := List.mem_map_of_mem (mem_of_lookup_eq_some hkey)
      rw [List.map_cons, ih, if_pos (decide_eq_true hmem)]
    · next hkey =>
      have hnot : e.1 ∉ tree.keys := lookup_eq_none_iff_not_mem.1 hkey
      rw [ih, if_neg (by simpa using hnot)]

/-- What is left of an entry is an entry pruned. -/
theorem exists_of_mem_pruneEntries {tree : KeyTree} {entries : Table} {e : String × Value}
    (h : e ∈ pruneEntries tree entries) :
    ∃ old ∈ entries, ∃ subtree, e.2 = old.2.prune subtree := by
  induction entries with
  | nil => cases h
  | cons first entries ih =>
    rw [pruneEntries] at h
    split at h
    · next subtree _ =>
      obtain rfl | h := List.mem_cons.1 h
      · exact ⟨first, List.mem_cons_self, subtree, rfl⟩
      · obtain ⟨old, hold, hsub⟩ := ih h
        exact ⟨old, List.mem_cons_of_mem _ hold, hsub⟩
    · obtain ⟨old, hold, hsub⟩ := ih h
      exact ⟨old, List.mem_cons_of_mem _ hold, hsub⟩

/-- What is left of a value lists each key once if the value does. -/
theorem Value.KeysOnce.prune {value : Value} (h : value.KeysOnce) (tree : KeyTree) :
    (value.prune tree).KeysOnce := by
  induction h generalizing tree with
  | text value => exact .text value
  | integer value => exact .integer value
  | decimal bits => exact .decimal bits
  | boolean value => exact .boolean value
  | moment => exact .moment
  | array _ ih =>
    rw [Value.prune, pruneElements_eq_map]
    exact .array (List.forall_mem_map.2 fun v hv => ih v hv .leaf)
  | table hnodup _ ih =>
    rw [Value.prune]
    refine .table ?_ fun e he => ?_
    · rw [keys_pruneEntries]
      exact hnodup.filter _
    · obtain ⟨old, hold, subtree, hsub⟩ := exists_of_mem_pruneEntries he
      rw [hsub]
      exact ih old hold subtree

/-! ## The order of keys -/

/-- Two values are the same but for the order in which tables list their keys. -/
inductive Value.Same : Value → Value → Prop
  | text (value : String) : Same (.text value) (.text value)
  | integer (value : Int) : Same (.integer value) (.integer value)
  | decimal (bits : UInt64) : Same (.decimal bits) (.decimal bits)
  | boolean (value : Bool) : Same (.boolean value) (.boolean value)
  | moment : Same .moment .moment
  | array {elements elements' : List Value} :
    List.Forall₂ Same elements elements' → Same (.array elements) (.array elements')
  | table {entries entries' : Table} :
    (∀ key, (entries.lookup key).isSome = (entries'.lookup key).isSome) →
    (∀ key value value', entries.lookup key = some value → entries'.lookup key = some value' →
      Same value value') → Same (.table entries) (.table entries')

namespace Value

/-- A value is the same as itself. -/
theorem KeysOnce.same {value : Value} (h : value.KeysOnce) : value.Same value := by
  induction h with
  | text value => exact .text value
  | integer value => exact .integer value
  | decimal bits => exact .decimal bits
  | boolean value => exact .boolean value
  | moment => exact .moment
  | array _ ih => exact .array (List.forall₂_same.2 ih)
  | table hnodup _ ih =>
    refine .table (fun _ => rfl) fun key value value' hvalue hvalue' => ?_
    obtain rfl : value = value' := Option.some.inj (hvalue.symm.trans hvalue')
    exact ih _ ((lookup_eq_some_iff_mem hnodup).1 hvalue)

/-- Two lists of the same entries are the same table. -/
theorem Same.of_perm {entries entries' : Table} (h : (Value.table entries).KeysOnce)
    (hperm : entries.Perm entries') : (Value.table entries).Same (.table entries') := by
  cases h with
  | table hnodup hvalues =>
    have hnodup' : (entries'.map Prod.fst).Nodup := (hperm.map _).nodup_iff.1 hnodup
    have hlookup (key : String) : entries.lookup key = entries'.lookup key := by
      refine Option.ext fun value => ?_
      rw [lookup_eq_some_iff_mem hnodup, lookup_eq_some_iff_mem hnodup']
      exact hperm.mem_iff
    refine .table (fun key => by rw [hlookup]) fun key value value' hvalue hvalue' => ?_
    obtain rfl : value = value' := Option.some.inj (by rw [← hvalue, ← hvalue', hlookup])
    exact (hvalues _ ((lookup_eq_some_iff_mem hnodup).1 hvalue)).same

/-! ## The surface of a value -/

/-- The value without what is inside of it. -/
def surface : Value → Value
  | .array _ => .array []
  | .table _ => .table []
  | value => value

/-- Striking out unknown keys does not show on the surface of a value. -/
@[simp] theorem surface_prune (tree : KeyTree) (value : Value) :
    (value.prune tree).surface = value.surface := by
  cases value <;> simp [prune, surface]

/-- Nor does the order of keys. -/
theorem Same.surface {value value' : Value} (h : value.Same value') :
    value.surface = value'.surface := by
  cases h <;> rfl

variable {value value' : Value}

/-- Whether a value is a text shows on its surface. -/
theorem text?_congr (h : value.surface = value'.surface) : value.text? = value'.text? := by
  have htext (v : Value) : v.surface.text? = v.text? := by cases v <;> rfl
  rw [← htext value, h, htext]

/-- So does whether it is a path. -/
theorem path?_congr (h : value.surface = value'.surface) : value.path? = value'.path? := by
  have hpath (v : Value) : v.surface.path? = v.path? := by cases v <;> rfl
  rw [← hpath value, h, hpath]

/-- So does whether it is a truth value. -/
theorem boolean?_congr (h : value.surface = value'.surface) :
    value.boolean? = value'.boolean? := by
  have hboolean (v : Value) : v.surface.boolean? = v.boolean? := by cases v <;> rfl
  rw [← hboolean value, h, hboolean]

/-- So does whether it is a number of so many bits. -/
theorem unsigned?_congr (bits : Nat) (h : value.surface = value'.surface) :
    value.unsigned? bits = value'.unsigned? bits := by
  have hunsigned (v : Value) : v.surface.unsigned? bits = v.unsigned? bits := by cases v <;> rfl
  rw [← hunsigned value, h, hunsigned]

end Value

end BuildStepper.Toml
