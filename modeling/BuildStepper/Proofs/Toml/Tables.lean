import BuildStepper.Proofs.Lists
import BuildStepper.Proofs.Results
import BuildStepper.Toml.Document

/-!
# The tables of a document

A document gives no key two values: every table in it, however deep, lists each of its keys once
(`read_keysOnce`). This is what makes a table a map, whose keys can be looked up in any order.

While a document is put together it is an invariant of the tables under construction
(`Entries.KeysOnce`), which every statement keeps. The readers of values have it of the values that
they yield (`Yields`), level by level of nesting.
-/

namespace BuildStepper.Toml

/-! ## The invariant -/

/-- No table in a value lists a key twice. -/
inductive Value.KeysOnce : Value → Prop
  | text (value : String) : KeysOnce (.text value)
  | integer (value : Int) : KeysOnce (.integer value)
  | decimal (bits : UInt64) : KeysOnce (.decimal bits)
  | boolean (value : Bool) : KeysOnce (.boolean value)
  | moment : KeysOnce .moment
  | array {elements : List Value} : (∀ v ∈ elements, KeysOnce v) → KeysOnce (.array elements)
  | table {entries : Table} :
    (entries.map Prod.fst).Nodup → (∀ e ∈ entries, KeysOnce e.2) → KeysOnce (.table entries)

/-- No table under a node lists a key twice. -/
inductive Node.KeysOnce : Node → Prop
  | value {v : Value} : v.KeysOnce → KeysOnce (.value v)
  | table {origin : Origin} {entries : Entries} :
    (entries.map Prod.fst).Nodup → (∀ e ∈ entries, KeysOnce e.2) → KeysOnce (.table origin entries)
  | tables {last : Entries} {earlier : List Entries} :
    (∀ entries ∈ last :: earlier, (entries.map Prod.fst).Nodup) →
    (∀ entries ∈ last :: earlier, ∀ e ∈ entries, KeysOnce e.2) → KeysOnce (.tables last earlier)

/-- No table in a table under construction lists a key twice, and neither does it. -/
structure Entries.KeysOnce (entries : Entries) : Prop where
  nodup : (entries.map Prod.fst).Nodup
  nodes : ∀ e ∈ entries, e.2.KeysOnce

/-- A table is finished entry by entry. -/
theorem finishEntries_eq_map (entries : Entries) :
    finishEntries entries = entries.map fun e => (e.1, e.2.finish) := by
  induction entries with
  | nil => rw [finishEntries, List.map_nil]
  | cons e entries ih => rw [finishEntries, List.map_cons, ih]

/-- An array of tables is finished table by table. -/
theorem finishTables_eq_map (tables : List Entries) :
    finishTables tables = tables.map fun entries => .table (finishEntries entries) := by
  induction tables with
  | nil => rw [finishTables, List.map_nil]
  | cons entries tables ih => rw [finishTables, List.map_cons, ih]

/-- The keys stay what they are. -/
theorem keys_finishEntries (entries : Entries) :
    (finishEntries entries).map Prod.fst = entries.map Prod.fst := by
  rw [finishEntries_eq_map, List.map_map]
  rfl

/-- A table keeps the invariant when it is finished, if its entries do. -/
theorem keysOnce_finishEntries {entries : Entries} (hnodup : (entries.map Prod.fst).Nodup)
    (h : ∀ e ∈ entries, e.2.finish.KeysOnce) : (Value.table (finishEntries entries)).KeysOnce := by
  refine .table (by rwa [keys_finishEntries]) ?_
  rw [finishEntries_eq_map]
  exact List.forall_mem_map.2 h

/-- A node that lists each key once is finished as a value that does. -/
theorem Node.KeysOnce.finish {node : Node} (h : node.KeysOnce) : node.finish.KeysOnce := by
  induction h with
  | value h =>
    rw [Node.finish]
    exact h
  | table hnodup _ ih =>
    rw [Node.finish]
    exact keysOnce_finishEntries hnodup ih
  | @tables last earlier hnodup _ ih =>
    have hmap : Value.table (finishEntries last) :: finishTables earlier =
        (last :: earlier).map fun entries => .table (finishEntries entries) := by
      rw [List.map_cons, finishTables_eq_map]
    rw [Node.finish, hmap]
    refine .array fun v hv => ?_
    obtain ⟨entries, hentries, rfl⟩ := List.mem_map.1 (List.mem_reverse.1 hv)
    exact keysOnce_finishEntries (hnodup entries hentries) (ih entries hentries)

/-- So is a table under construction. -/
theorem Entries.KeysOnce.finish {entries : Entries} (h : entries.KeysOnce) :
    (Value.table (finishEntries entries)).KeysOnce :=
  keysOnce_finishEntries h.nodup fun e he => (h.nodes e he).finish

/-! ## Statements -/

namespace Entries

namespace KeysOnce

variable {entries : Entries} {key : String} {node : Node}

/-- An empty table lists no key twice. -/
theorem nil : KeysOnce [] := ⟨List.nodup_nil, by simp⟩

/-- A table lists each key once just if its entries do. -/
theorem table_iff {origin : Origin} : (Node.table origin entries).KeysOnce ↔ entries.KeysOnce :=
  ⟨fun h => by cases h with | table hnodup hnodes => exact ⟨hnodup, hnodes⟩,
    fun h => .table h.nodup h.nodes⟩

/-- An array of tables does just if all its tables do. -/
theorem tables_iff {last : Entries} {earlier : List Entries} :
    (Node.tables last earlier).KeysOnce ↔
      last.KeysOnce ∧ ∀ entries ∈ earlier, entries.KeysOnce := by
  constructor
  · intro h
    cases h with
    | tables hnodup hnodes =>
      have hall : ∀ entries ∈ last :: earlier, Entries.KeysOnce entries :=
        fun entries he => ⟨hnodup entries he, hnodes entries he⟩
      exact List.forall_mem_cons.1 hall
  · intro h
    have hall := List.forall_mem_cons.2 h
    exact .tables (fun entries he => (hall entries he).nodup)
      (fun entries he => (hall entries he).nodes)

/-- What a key stands for has the invariant. -/
theorem of_lookup (h : entries.KeysOnce) (hkey : entries.lookup key = some node) :
    node.KeysOnce :=
  h.nodes (key, node) (mem_of_lookup_eq_some hkey)

/-- A key that is new can be added. -/
theorem concat (h : entries.KeysOnce) (hkey : key ∉ entries.map Prod.fst) (hnode : node.KeysOnce) :
    KeysOnce (entries ++ [(key, node)]) where
  nodup := by
    rw [List.map_append, List.map_singleton]
    exact List.nodup_append.2 ⟨h.nodup, List.nodup_singleton _, by
      rintro a ha b hb rfl
      rw [List.mem_singleton.1 hb] at ha
      exact hkey ha⟩
  nodes := by
    rintro e he
    obtain he | he := List.mem_append.1 he
    · exact h.nodes e he
    · rw [List.mem_singleton.1 he]
      exact hnode

/-- A key can come to stand for something else. -/
theorem replace (h : entries.KeysOnce) (hnode : node.KeysOnce) :
    KeysOnce (entries.replace key node) where
  nodup := by
    have hkeys : (entries.replace key node).map Prod.fst = entries.map Prod.fst := by
      unfold Entries.replace
      rw [List.map_map]
      refine List.map_congr_left fun e _ => ?_
      rw [Function.comp_apply]
      split
      · next heq => exact heq.symm
      · rfl
    rw [hkeys]
    exact h.nodup
  nodes := by
    intro e he
    obtain ⟨old, hold, rfl⟩ := List.mem_map.1 he
    split
    · exact hnode
    · exact h.nodes old hold

/-- A value that is assigned keeps the invariant. -/
theorem assign {owner : Option (List String)} {value : Value} (hvalue : value.KeysOnce)
    {path : List String} : ∀ {walked : List String} {entries made : Entries}, entries.KeysOnce →
      Entries.assign owner walked key value path entries = .ok made → made.KeysOnce := by
  induction path with
  | nil =>
    intro walked entries made h hmade
    rw [Entries.assign] at hmade
    split at hmade
    · cases hmade
    · next hnew =>
      obtain rfl := Except.ok.inj hmade
      have hnone := Option.not_isSome_iff_eq_none.1 hnew
      exact h.concat (lookup_eq_none_iff_not_mem.1 hnone) (.value hvalue)
  | cons part path ih =>
    intro walked entries made h hmade
    simp only [Entries.assign] at hmade
    split at hmade
    · next hnone =>
      obtain ⟨inner, hinner, rfl⟩ := map_eq_ok hmade
      exact h.concat (lookup_eq_none_iff_not_mem.1 hnone) (table_iff.2 (ih nil hinner))
    · -- A value on the way cannot be entered.
      split at hmade <;> cases hmade
    · next origin inner hpart =>
      split at hmade
      · cases hmade
      split at hmade
      · cases hmade
      obtain ⟨inner', hinner, rfl⟩ := map_eq_ok hmade
      exact h.replace (table_iff.2 (ih (table_iff.1 (h.of_lookup hpart)) hinner))
    · next last earlier hpart =>
      split at hmade
      · cases hmade
      obtain ⟨last', hlast, rfl⟩ := map_eq_ok hmade
      -- Of an array of tables it is the last that the path enters.
      obtain ⟨hold, hearlier⟩ := tables_iff.1 (h.of_lookup hpart)
      exact h.replace (tables_iff.2 ⟨ih hold hlast, hearlier⟩)

/-- A change to the table that a path leads to keeps the invariant if it does so there. -/
theorem update {change : Entries → Except Cause Entries}
    (hchange : ∀ {entries made : Entries}, entries.KeysOnce → change entries = .ok made →
      made.KeysOnce)
    {path : List String} : ∀ {walked : List String} {entries made : Entries}, entries.KeysOnce →
      Entries.update walked change path entries = .ok made → made.KeysOnce := by
  induction path with
  | nil =>
    intro walked entries made h hmade
    exact hchange h hmade
  | cons part path ih =>
    intro walked entries made h hmade
    simp only [Entries.update] at hmade
    split at hmade
    · next hnone =>
      obtain ⟨inner, hinner, rfl⟩ := map_eq_ok hmade
      exact h.concat (lookup_eq_none_iff_not_mem.1 hnone) (table_iff.2 (ih nil hinner))
    · cases hmade
    · next origin inner hpart =>
      obtain ⟨inner', hinner, rfl⟩ := map_eq_ok hmade
      exact h.replace (table_iff.2 (ih (table_iff.1 (h.of_lookup hpart)) hinner))
    · next last earlier hpart =>
      obtain ⟨last', hlast, rfl⟩ := map_eq_ok hmade
      obtain ⟨hold, hearlier⟩ := tables_iff.1 (h.of_lookup hpart)
      exact h.replace (tables_iff.2 ⟨ih hold hlast, hearlier⟩)

/-- A header keeps the invariant where it names a table. -/
theorem openTable {path : List String} {made : Entries} (h : entries.KeysOnce)
    (hmade : entries.openTable path key = .ok made) : made.KeysOnce := by
  unfold Entries.openTable at hmade
  split at hmade
  · next hnone =>
    obtain rfl := Except.ok.inj hmade
    exact h.concat (lookup_eq_none_iff_not_mem.1 hnone) (table_iff.2 nil)
  · next inner hkey =>
    obtain rfl := Except.ok.inj hmade
    have hothers : KeysOnce (entries.filter fun e => e.1 ≠ key) :=
      ⟨h.nodup.sublist (List.filter_sublist.map _), fun e he => h.nodes e (List.mem_filter.1 he).1⟩
    refine hothers.concat ?_ (table_iff.2 (table_iff.1 (h.of_lookup hkey)))
    simp
  · cases hmade

/-- A header keeps the invariant where it adds to an array of tables. -/
theorem openElement {path : List String} {made : Entries} (h : entries.KeysOnce)
    (hmade : entries.openElement path key = .ok made) : made.KeysOnce := by
  unfold Entries.openElement at hmade
  split at hmade
  · next hnone =>
    obtain rfl := Except.ok.inj hmade
    exact h.concat (lookup_eq_none_iff_not_mem.1 hnone) (tables_iff.2 ⟨nil, by simp⟩)
  · next last earlier hkey =>
    obtain rfl := Except.ok.inj hmade
    obtain ⟨hlast, hearlier⟩ := tables_iff.1 (h.of_lookup hkey)
    exact h.replace (tables_iff.2 ⟨nil, List.forall_mem_cons.2 ⟨hlast, hearlier⟩⟩)
  · cases hmade

end KeysOnce

end Entries

/-! ## Values -/

/-- All that a reader can take is of a kind. -/
def Yields {α : Type} (take : Take α) (p : α → Prop) : Prop :=
  ∀ cs a rest, take cs = .ok (a, rest) → p a

namespace Outcome

variable {α : Type} {outcome : Outcome α} {a : α}

/-- Committing to a reading leaves its result. -/
@[simp] theorem commit_eq_ok : outcome.commit = .ok a ↔ outcome = .ok a := by
  cases outcome <;> simp [commit]

/-- Naming the subject of a reading leaves its result. -/
@[simp] theorem named_eq_ok {subject : String} :
    outcome.named subject = .ok a ↔ outcome = .ok a := by
  cases outcome <;> simp [named, Except.mapError]

/-- Saying what was expected leaves the result of a reading. -/
@[simp] theorem hinted_eq_ok {expected : List String} :
    outcome.hinted expected = .ok a ↔ outcome = .ok a := by
  cases outcome <;> simp [hinted, Except.mapError]

/-- Of two readings one comes about. -/
theorem eq_ok_of_orElse {other : Unit → Outcome α} (h : outcome.orElse other = .ok a) :
    outcome = .ok a ∨ other () = .ok a := by
  unfold orElse at h
  split at h
  · exact .inr h
  · exact .inl h

end Outcome

/-- What is returned at the end of a reading is its value. -/
theorem eq_of_return {α : Type} {a b : α} {cs rest : List Char}
    (h : (pure (a, cs) : Outcome (α × List Char)) = .ok (b, rest)) : a = b :=
  congrArg Prod.fst (Except.ok.inj h)

/-- Further items are of the kind of those taken before. -/
theorem yields_takeMoreItems {α : Type} {item : Take α} {p : α → Prop} (hitem : Yields item p)
    (fuel : List Char) : ∀ {taken : List α}, (∀ a ∈ taken, p a) →
      Yields (takeMoreItems item taken fuel) fun as => ∀ a ∈ as, p a := by
  induction fuel with
  | nil =>
    intro taken htaken cs as rest h
    obtain rfl := eq_of_return h
    exact fun a ha => htaken a (List.mem_reverse.1 ha)
  | cons _ fuel ih =>
    intro taken htaken cs as rest h
    unfold takeMoreItems at h
    split at h
    · next heq =>
      obtain ⟨-, rfl⟩ := List.cons.inj heq
      split at h
      · next a rest' ha =>
        -- A further item was taken behind its comma.
        exact ih (List.forall_mem_cons.2 ⟨hitem _ _ _ ha, htaken⟩) _ _ _ h
      · obtain rfl := eq_of_return h
        exact fun a ha => htaken a (List.mem_reverse.1 ha)
      · cases h
    · obtain rfl := eq_of_return h
      exact fun a ha => htaken a (List.mem_reverse.1 ha)

/-- The items of a list are of the kind that the reader of an item takes. -/
theorem yields_takeItems {α : Type} {item : Take α} {p : α → Prop} (hitem : Yields item p) :
    Yields (takeItems item) fun as => ∀ a ∈ as, p a := by
  intro cs as rest h
  unfold takeItems at h
  split at h
  · next a rest' ha =>
    exact yields_takeMoreItems hitem rest' (List.forall_mem_singleton.2 (hitem _ _ _ ha)) _ _ _ h
  · obtain rfl := eq_of_return h
    simp
  · cases h

variable {value : Take Value}

/-- An array lists each key once if its elements do. -/
theorem yields_takeArray (hvalue : Yields value Value.KeysOnce) :
    Yields (takeArray value) Value.KeysOnce := by
  have helement : Yields (takeElement value) Value.KeysOnce := by
    intro cs v rest h
    obtain ⟨_, -, h⟩ := bind_eq_ok h
    obtain ⟨⟨v', _⟩, hv, h⟩ := bind_eq_ok h
    obtain ⟨_, -, h⟩ := bind_eq_ok h
    obtain rfl := eq_of_return h
    exact hvalue _ _ _ hv
  intro cs v rest h
  have hinside := Outcome.commit_eq_ok.1 h
  split at hinside
  · obtain rfl := eq_of_return hinside
    exact .array (by simp)
  · obtain ⟨⟨elements, _⟩, helements, h⟩ := bind_eq_ok hinside
    obtain ⟨_, -, h⟩ := bind_eq_ok h
    obtain ⟨⟨_, _⟩, -, h⟩ := bind_eq_ok h
    obtain rfl := eq_of_return h
    exact .array (yields_takeItems helement _ _ _ helements)

/-- So does the value of an assignment. -/
theorem yields_takeAssignment (hvalue : Yields value Value.KeysOnce) :
    Yields (takeAssignment value) fun entry => entry.2.KeysOnce := by
  intro cs entry rest h
  obtain ⟨⟨path, _⟩, -, h⟩ := bind_eq_ok h
  obtain ⟨⟨_, _⟩, -, h⟩ := bind_eq_ok (Outcome.commit_eq_ok.1 h)
  obtain ⟨⟨v, _⟩, hv, h⟩ := bind_eq_ok h
  obtain rfl := eq_of_return h
  exact hvalue _ _ _ hv

/-- Values that are assigned one after the other keep the invariant. -/
theorem keysOnce_foldlM_assign {entries : List ((List String × String) × Value)}
    {before made : Entries} (hentries : ∀ entry ∈ entries, entry.2.KeysOnce)
    (hbefore : before.KeysOnce)
    (h : entries.foldlM (fun made ((path, key), value) =>
      Entries.assign none [] key value path made) before = .ok made) : made.KeysOnce := by
  induction entries generalizing before with
  | nil =>
    obtain rfl := Except.ok.inj h
    exact hbefore
  | cons entry entries ih =>
    rw [List.foldlM_cons] at h
    obtain ⟨hfirst, hrest⟩ := List.forall_mem_cons.1 hentries
    obtain ⟨next, hnext, h⟩ := bind_eq_ok h
    exact ih hrest (hbefore.assign hfirst hnext) h

/-- A table in braces is put together like a document. -/
theorem keysOnce_inlineTable {entries : List ((List String × String) × Value)} {v : Value}
    (hentries : ∀ entry ∈ entries, entry.2.KeysOnce) (h : inlineTable entries = .ok v) :
    v.KeysOnce := by
  unfold inlineTable at h
  split at h
  · next made hfold =>
    obtain rfl := Except.ok.inj h
    exact (keysOnce_foldlM_assign hentries .nil hfold).finish
  · cases h

/-- An inline table lists each key once if the values in it do. -/
theorem yields_takeInline (hvalue : Yields value Value.KeysOnce) :
    Yields (takeInline value) Value.KeysOnce := by
  intro cs v rest h
  obtain ⟨⟨entries, _⟩, hentries, h⟩ := bind_eq_ok (Outcome.commit_eq_ok.1 h)
  obtain ⟨made, hmade, h⟩ := bind_eq_ok h
  obtain ⟨⟨_, _⟩, -, h⟩ := bind_eq_ok h
  obtain rfl := eq_of_return h
  refine keysOnce_inlineTable (yields_takeItems ?_ _ _ _ hentries) hmade
  intro cs entry rest h
  obtain ⟨⟨entry', _⟩, hentry, h⟩ := map_eq_ok h
  obtain ⟨rfl, -⟩ := Prod.mk.inj h
  exact yields_takeAssignment hvalue _ _ _ hentry

/-- An integer has no keys. -/
theorem keysOnce_integerValue {n : Int} {v : Value} (h : integerValue n = .ok v) :
    v.KeysOnce := by
  unfold integerValue at h
  split at h
  · cases h
  split at h
  · cases h
  · obtain rfl := Except.ok.inj h
    exact .integer n

/-- Nor has an integer in any of its notations. -/
theorem yields_takeInteger : Yields takeInteger Value.KeysOnce := by
  have hbased (base : Nat) (name : String) : Yields (takeBased base name) Value.KeysOnce := by
    intro cs v rest h
    obtain ⟨⟨_, _⟩, -, h⟩ := bind_eq_ok h
    obtain ⟨v', hv, h⟩ := bind_eq_ok h
    obtain rfl := eq_of_return h
    exact keysOnce_integerValue hv
  intro cs v rest h
  unfold takeInteger at h
  split at h
  · exact hbased _ _ _ _ _ h
  · exact hbased _ _ _ _ _ h
  · exact hbased _ _ _ _ _ h
  · obtain ⟨⟨⟨_, _⟩, _⟩, -, h⟩ := bind_eq_ok h
    obtain ⟨v', hv, h⟩ := bind_eq_ok h
    obtain rfl := eq_of_return h
    exact keysOnce_integerValue hv

/-- Nor has an infinite number. -/
theorem yields_takeInfinity (negative : Bool) : Yields (takeInfinity negative) Value.KeysOnce := by
  intro cs v rest h
  obtain ⟨⟨_, _⟩, -, h⟩ := bind_eq_ok h
  obtain rfl := eq_of_return h
  exact .decimal _

/-- Nor has what is not a number. -/
theorem yields_takeNotANumber : Yields takeNotANumber Value.KeysOnce := by
  intro cs v rest h
  obtain ⟨⟨_, _⟩, -, h⟩ := bind_eq_ok h
  obtain rfl := eq_of_return h
  exact .decimal _

/-- Nor has any floating point number. -/
theorem yields_takeFloat : Yields takeFloat Value.KeysOnce := by
  intro cs v rest h
  obtain h | h := Outcome.eq_ok_of_orElse (Outcome.named_eq_ok.1 h)
  · obtain ⟨⟨⟨_, _⟩, _⟩, -, h⟩ := bind_eq_ok h
    obtain ⟨⟨⟨_, _⟩, _⟩, -, h⟩ := bind_eq_ok h
    dsimp only at h
    split at h
    · cases h
    · obtain rfl := eq_of_return h
      exact .decimal _
  · obtain h | h := Outcome.eq_ok_of_orElse h
    · exact yields_takeInfinity _ _ _ _ h
    · exact yields_takeNotANumber _ _ _ h

/-- Nor has a date or a time. -/
theorem yields_takeMoment : Yields takeMoment Value.KeysOnce := by
  intro cs v rest h
  obtain h | h := Outcome.eq_ok_of_orElse h
  · obtain ⟨⟨_, _⟩, -, h⟩ := bind_eq_ok (Outcome.named_eq_ok.1 h)
    obtain ⟨⟨_, _⟩, -, h⟩ := bind_eq_ok h
    obtain rfl := eq_of_return h
    exact .moment
  · obtain ⟨⟨_, _⟩, -, h⟩ := bind_eq_ok (Outcome.named_eq_ok.1 h)
    obtain rfl := eq_of_return h
    exact .moment

/-- That a string was expected is said of errors only. -/
theorem expectString_eq_ok {α : Type} {outcome : Outcome α} {a : α} :
    expectString outcome = .ok a ↔ outcome = .ok a :=
  Outcome.hinted_eq_ok.trans Outcome.named_eq_ok

/-- A truth value has no keys. -/
theorem keysOnce_of_word {word : String} {b : Bool} {cs rest : List Char} {v : Value}
    (h : (takeWord word cs).map (fun ((), cs) => (Value.boolean b, cs)) = .ok (v, rest)) :
    v.KeysOnce := by
  obtain ⟨_, -, h⟩ := map_eq_ok h
  obtain ⟨rfl, -⟩ := Prod.mk.inj h
  exact .boolean b

/-- A value keeps each key once if the values inside it do. -/
theorem yields_takeValueWith {inner : Option (Take Value)}
    (hinner : ∀ take, inner = some take → Yields take Value.KeysOnce) :
    Yields (takeValueWith inner) Value.KeysOnce := by
  intro cs v rest h
  -- The first character decides which kind of value is tried; only arrays and inline tables have
  -- values inside.
  unfold takeValueWith at h
  split at h
  · cases h
  · dsimp only at h
    split at h
    · obtain ⟨_, -, h⟩ := map_eq_ok h
      obtain ⟨rfl, -⟩ := Prod.mk.inj h
      exact .text _
    split at h
    · split at h
      · next take => exact yields_takeArray (hinner take rfl) _ _ _ h
      · cases h
    split at h
    · split at h
      · next take => exact yields_takeInline (hinner take rfl) _ _ _ h
      · cases h
    split at h
    · obtain h | h := Outcome.eq_ok_of_orElse h
      · exact yields_takeMoment _ _ _ h
      obtain h | h := Outcome.eq_ok_of_orElse h
      · exact yields_takeFloat _ _ _ h
      · exact yields_takeInteger _ _ _ h
    split at h
    · exact yields_takeInteger _ _ _ (Outcome.hinted_eq_ok.1 h)
    split at h
    · exact yields_takeFloat _ _ _ (Outcome.hinted_eq_ok.1 h)
    split at h
    · exact keysOnce_of_word (Outcome.commit_eq_ok.1 (expectString_eq_ok.1 h))
    split at h
    · exact keysOnce_of_word (Outcome.commit_eq_ok.1 (expectString_eq_ok.1 h))
    split at h
    · exact yields_takeInfinity _ _ _ _ (expectString_eq_ok.1 h)
    split at h
    · exact yields_takeNotANumber _ _ _ (expectString_eq_ok.1 h)
    · cases expectString_eq_ok.1 h

/-- A value keeps each key once, however deeply it is nested. -/
theorem yields_takeValue (budget : Nat) : Yields (takeValue budget) Value.KeysOnce := by
  induction budget with
  | zero => exact yields_takeValueWith (by simp)
  | succ budget ih => exact yields_takeValueWith (by rintro take ⟨rfl⟩; exact ih)

/-! ## Documents -/

/-- What a statement assigns has the invariant. -/
def Statement.KeysOnce : Statement → Prop
  | .assign _ _ value => value.KeysOnce
  | _ => True

/-- The value in a statement lists each key once. -/
theorem yields_takeStatement : Yields takeStatement Statement.KeysOnce := by
  intro cs statement rest h
  unfold takeStatement at h
  split at h
  · cases h
  · obtain ⟨⟨⟨_, _⟩, _⟩, -, h⟩ := bind_eq_ok h
    obtain rfl := eq_of_return h
    trivial
  · obtain ⟨⟨⟨_, _⟩, _⟩, -, h⟩ := bind_eq_ok h
    obtain rfl := eq_of_return h
    trivial
  · obtain ⟨⟨⟨⟨path, key⟩, value⟩, _⟩, hassign, h⟩ := bind_eq_ok h
    obtain ⟨_, -, h⟩ := bind_eq_ok h
    obtain rfl := eq_of_return h
    exact yields_takeAssignment (yields_takeValue _) _ _ _ hassign

namespace Draft

variable {draft made : Draft}

/-- A statement that is added keeps the invariant. -/
theorem keysOnce_add {statement : Statement} (hstatement : statement.KeysOnce)
    (h : draft.entries.KeysOnce) (hmade : draft.add statement = .ok made) :
    made.entries.KeysOnce := by
  cases statement with
  | table path key =>
    obtain ⟨entries, hentries, rfl⟩ := map_eq_ok hmade
    exact h.update (fun h hmade => h.openTable hmade) hentries
  | element path key =>
    obtain ⟨entries, hentries, rfl⟩ := map_eq_ok hmade
    exact h.update (fun h hmade => h.openElement hmade) hentries
  | assign path key value =>
    obtain ⟨entries, hentries, rfl⟩ := map_eq_ok hmade
    exact h.update (fun h hmade => h.assign hstatement hmade) hentries

/-- A statement that is read and added keeps each key listed once. -/
theorem keysOnce_of_added {cs rest : List Char} (h : draft.entries.KeysOnce)
    (hmade : (do
      let (statement, rest) ← takeStatement cs
      match draft.add statement with
      | .ok draft => return (draft, rest)
      | .error cause => because cause : Outcome (Draft × List Char)) = .ok (made, rest)) :
    made.entries.KeysOnce := by
  obtain ⟨⟨statement, _⟩, hstatement, hmade⟩ := bind_eq_ok hmade
  dsimp only at hmade
  split at hmade
  · next hadd =>
    obtain rfl := eq_of_return hmade
    exact keysOnce_add (yields_takeStatement _ _ _ hstatement) h hadd
  · cases hmade

/-- So does a line of a document. -/
theorem keysOnce_take {cs rest : List Char} (h : draft.entries.KeysOnce)
    (hmade : draft.take cs = .ok (made, rest)) : made.entries.KeysOnce := by
  unfold take at hmade
  split at hmade
  · exact keysOnce_of_added h (Outcome.named_eq_ok.1 hmade)
  · exact keysOnce_of_added h hmade

/-- So do all its lines. -/
theorem keysOnce_takeAll (fuel : List Char) : ∀ {draft : Draft} {cs : List Char},
    draft.entries.KeysOnce → takeAll draft fuel cs = .ok made → made.entries.KeysOnce := by
  induction fuel with
  | nil =>
    intro draft cs h hmade
    cases hmade
  | cons _ fuel ih =>
    intro draft cs h hmade
    unfold takeAll at hmade
    split at hmade
    · obtain rfl := Except.ok.inj hmade
      exact h
    · split at hmade
      · split at hmade
        · exact ih h hmade
        · cases hmade
      · split at hmade
        · next htake => exact ih (keysOnce_take h htake) hmade
        · cases hmade

end Draft

/-- No table of a document lists a key twice. -/
theorem read_keysOnce {text : String} {table : Table} (h : read text = .ok table) :
    (Value.table table).KeysOnce := by
  unfold read at h
  dsimp only at h
  split at h
  · next draft hdraft =>
    obtain rfl := Except.ok.inj h
    exact (Draft.keysOnce_takeAll _ .nil hdraft).finish
  · cases h

end BuildStepper.Toml
