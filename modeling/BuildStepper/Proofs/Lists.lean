import Mathlib.Data.List.Nodup

/-!
# Where lists split, and what they say of a key

A place in a list that was put together lies in one of its pieces: in one of two
(`append_eq_append_cons`), or in one of many (`exists_cut_of_flatMap`). A list is split in one way
at the first of its entries of a kind (`split_at_first`).

In a list of keys with what they stand for, the first entry of a key counts. Where no key is listed
twice, the entries are just what is found (`lookup_eq_some_iff_mem`).
-/

namespace BuildStepper

variable {α β : Type}

/-! ## Splits -/

/-- What stands in one list behind another stands in the first or in the second. -/
theorem append_eq_append_cons {xs ys front back : List α} {a : α}
    (h : xs ++ ys = front ++ a :: back) :
    (∃ more, xs = front ++ a :: more ∧ back = more ++ ys) ∨
      ∃ inner, front = xs ++ inner ∧ ys = inner ++ a :: back := by
  obtain ⟨inner, hfront, hys⟩ | ⟨more, hxs, hback⟩ := List.append_eq_append_iff.1 h
  · exact .inr ⟨inner, hfront, hys⟩
  · cases more with
    | nil => exact .inr ⟨[], by simpa using hxs.symm, hback.symm⟩
    | cons b more =>
      obtain ⟨rfl, rfl⟩ := List.cons.inj hback
      exact .inl ⟨more, hxs, rfl⟩

/-- What comes before the first `a` of a list without it at its front is front and more. -/
theorem exists_of_append_eq {a : α} {front back xs rs : List α} (hfront : a ∉ front)
    (h : front ++ back = xs ++ a :: rs) : ∃ ys, xs = front ++ ys ∧ back = ys ++ a :: rs := by
  obtain ⟨more, rfl, -⟩ | hbehind := append_eq_append_cons h
  · exact absurd List.mem_append_cons_self hfront
  · exact hbehind

/-- A list is split in one way at the first of its entries that is `a`. -/
theorem split_at_first {a : α} {xs ys rs ss : List α} (hxs : a ∉ xs) (hys : a ∉ ys)
    (h : xs ++ a :: rs = ys ++ a :: ss) : xs = ys ∧ rs = ss := by
  obtain ⟨inner, rfl, hrest⟩ := exists_of_append_eq hxs h
  cases inner with
  | nil => exact ⟨(List.append_nil xs).symm, (List.cons.inj hrest).2⟩
  | cons b inner =>
    obtain ⟨rfl, -⟩ := List.cons.inj hrest
    exact absurd List.mem_append_cons_self hys

/-- What stands somewhere in the concatenation of parts stands in one of them. -/
theorem exists_cut_of_flatMap {put : α → List β} {as : List α} {front back : List β} {b : β}
    (h : as.flatMap put = front ++ b :: back) :
    ∃ first a last inner outer, as = first ++ a :: last ∧ put a = inner ++ b :: outer ∧
      front = first.flatMap put ++ inner ∧ back = outer ++ last.flatMap put := by
  induction as generalizing front with
  | nil => simp at h
  | cons a as ih =>
    -- It stands in the first part or behind it.
    rw [List.flatMap_cons] at h
    obtain ⟨outer, hput, hback⟩ | ⟨inner, rfl, hinner⟩ := append_eq_append_cons h
    · exact ⟨[], a, as, front, outer, rfl, hput, rfl, hback⟩
    · obtain ⟨first, next, last, inner, outer, rfl, hnext, rfl, hback⟩ := ih hinner
      exact ⟨a :: first, next, last, inner, outer, rfl, hnext, (List.append_assoc _ _ _).symm,
        hback⟩

/-! ## Keys -/

section Keys

variable {entries : List (String × α)} {key : String} {a : α}

/-- Nothing is found just for the keys that are not listed. -/
theorem lookup_eq_none_iff_not_mem :
    entries.lookup key = none ↔ key ∉ entries.map Prod.fst := by
  rw [List.lookup_eq_none_iff, List.mem_map]
  constructor
  · rintro h ⟨e, he, rfl⟩
    simpa using h e he
  · intro h e he
    rw [bne_iff_ne]
    rintro rfl
    exact h ⟨e, he, rfl⟩

/-- What is found is listed. -/
theorem mem_of_lookup_eq_some (h : entries.lookup key = some a) : (key, a) ∈ entries := by
  obtain ⟨before, later, rfl, -⟩ := List.lookup_eq_some_iff.1 h
  exact List.mem_append_right _ List.mem_cons_self

/-- Where no key is listed twice, what is listed is found. -/
theorem lookup_eq_some_iff_mem (hnodup : (entries.map Prod.fst).Nodup) :
    entries.lookup key = some a ↔ (key, a) ∈ entries := by
  refine ⟨mem_of_lookup_eq_some, fun hmem => ?_⟩
  obtain ⟨before, later, rfl⟩ := List.append_of_mem hmem
  refine List.lookup_eq_some_iff.2 ⟨before, later, rfl, fun e he => ?_⟩
  rw [List.map_append, List.map_cons] at hnodup
  have hdisjoint := (List.nodup_append.1 hnodup).2.2
  exact bne_iff_ne.2 (hdisjoint _ (List.mem_map_of_mem he) key List.mem_cons_self).symm

end Keys

end BuildStepper
