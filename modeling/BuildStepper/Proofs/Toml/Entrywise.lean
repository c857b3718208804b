import BuildStepper.Proofs.Toml.KeyTree
import Mathlib.Data.List.Forall2

/-!
# Tables read entry by entry

A reader that goes through a table, one step for each entry, and whose steps for different keys do
not interfere (`ReadsKeys`) comes to the same in whatever order the table lists its keys
(`ReadsKeys.same`), up to which of several errors is met first. For such a reader could as well look
up its keys one after the other (`ReadsKeys.listed`).
-/

namespace BuildStepper.Toml

/-- The entries of certain keys, in the order of these. -/
def listed (keys : List String) (entries : Table) : Table :=
  keys.filterMap fun key => (entries.lookup key).map fun value => (key, value)

/-- Where no key is listed twice, these are the entries with such a key. -/
theorem perm_listed {keys : List String} {entries : Table} (hkeys : keys.Nodup)
    (h : (entries.map Prod.fst).Nodup) :
    (entries.filter fun e => e.1 ∈ keys).Perm (listed keys entries) := by
  have hlisted : (listed keys entries).Nodup := by
    refine hkeys.filterMap ?_
    intro key key' e he he'
    obtain ⟨value, -, rfl⟩ := Option.map_eq_some_iff.1 he
    obtain ⟨value', -, heq⟩ := Option.map_eq_some_iff.1 he'
    exact (congrArg Prod.fst heq).symm
  refine (List.perm_ext_iff_of_nodup ((List.Nodup.of_map _ h).filter _) hlisted).2 fun e => ?_
  rw [List.mem_filter, decide_eq_true_eq, listed, List.mem_filterMap]
  constructor
  · rintro ⟨hmem, hkey⟩
    exact ⟨e.1, hkey, Option.map_eq_some_iff.2 ⟨e.2, (lookup_eq_some_iff_mem h).2 hmem, rfl⟩⟩
  · rintro ⟨key, hkey, he⟩
    obtain ⟨value, hvalue, rfl⟩ := Option.map_eq_some_iff.1 he
    exact ⟨mem_of_lookup_eq_some hvalue, hkey⟩

variable {ε β : Type}

/-- A step for each entry that reads certain keys. -/
structure ReadsKeys (keys : List String) (step : β → String × Value → Except ε β) : Prop where
  nodup : keys.Nodup
  /-- Entries with other keys are passed over. -/
  others : ∀ b e, e.1 ∉ keys → step b e = .ok b
  /-- Two entries with different keys can be read in either order. -/
  commutes : ∀ e e' : String × Value, e.1 ∈ keys → e'.1 ∈ keys → e.1 ≠ e'.1 → ∀ b,
    (step b e >>= (step · e')).toOption = (step b e' >>= (step · e)).toOption
  /-- The order of keys in a value makes no difference. -/
  values : ∀ b key v w, v.KeysOnce → w.KeysOnce → v.Same w →
    (step b (key, v)).toOption = (step b (key, w)).toOption

namespace ReadsKeys

variable {keys : List String} {step : β → String × Value → Except ε β}

/-- Only the entries with these keys count. -/
theorem foldlM_filter (h : ReadsKeys keys step) (entries : Table) (b : β) :
    (entries.filter fun e => e.1 ∈ keys).foldlM step b = entries.foldlM step b := by
  induction entries generalizing b with
  | nil => rfl
  | cons e entries ih =>
    by_cases hkey : e.1 ∈ keys
    · rw [List.filter_cons_of_pos (by simpa using hkey), List.foldlM_cons, List.foldlM_cons]
      exact congrArg _ (funext ih)
    · rw [List.filter_cons_of_neg (by simpa using hkey), List.foldlM_cons, h.others b e hkey]
      exact ih b

/-- The keys can be read in an order of their own. -/
theorem listed (h : ReadsKeys keys step) {entries : Table} (hentries : (entries.map Prod.fst).Nodup)
    (b : β) :
    (entries.foldlM step b).toOption = ((listed keys entries).foldlM step b).toOption := by
  rw [← h.foldlM_filter]
  refine toOption_foldlM_perm (perm_listed h.nodup hentries) (fun e he e' he' hne b => ?_) b
  obtain ⟨hmem, hkey⟩ := List.mem_filter.1 he
  obtain ⟨hmem', hkey'⟩ := List.mem_filter.1 he'
  refine h.commutes e e' (of_decide_eq_true hkey) (of_decide_eq_true hkey') (fun heq => hne ?_) b
  exact List.inj_on_of_nodup_map hentries hmem hmem' heq

/-- Tables that are the same but for the order of their keys are read alike. -/
theorem same (h : ReadsKeys keys step) {entries entries' : Table}
    (hentries : (Value.table entries).KeysOnce) (hentries' : (Value.table entries').KeysOnce)
    (hsame : (Value.table entries).Same (.table entries')) (b : β) :
    (entries.foldlM step b).toOption = (entries'.foldlM step b).toOption := by
  cases hentries with | table hnodup hvalues =>
  cases hentries' with | table hnodup' hvalues' =>
  cases hsame with | table hsome hsame =>
  rw [h.listed hnodup, h.listed hnodup']
  -- Both tables are read in the order of the keys, so that the induction is on these: a key is in
  -- both tables, with values that are the same, or in neither.
  unfold Toml.listed
  generalize keys = keys
  induction keys generalizing b with
  | nil => rfl
  | cons key keys ih =>
    have hkey := hsome key
    cases hv : entries.lookup key with
    | none =>
      cases hw : entries'.lookup key with
      | none => simpa [hv, hw] using ih b
      | some w => simp [hv, hw] at hkey
    | some v =>
      cases hw : entries'.lookup key with
      | none => simp [hv, hw] at hkey
      | some w =>
        have hstep := h.values b key v w (hvalues _ (mem_of_lookup_eq_some hv))
          (hvalues' _ (mem_of_lookup_eq_some hw)) (hsame key v w hv hw)
        rw [List.filterMap_cons_some (by rw [hv]; rfl), List.filterMap_cons_some (by rw [hw]; rfl),
          List.foldlM_cons, List.foldlM_cons, toOption_bind, toOption_bind, hstep]
        exact congrArg _ (funext ih)

end ReadsKeys

end BuildStepper.Toml
