import BuildStepper.Proofs.Settings.Files
import Mathlib.Data.String.Basic

/-!
# The unknown keys that are told

A settings file that can be loaded is loaded with a list of its unknown keys. The list is strictly
ascending, and it tells the way to each of these keys with dots between its parts
(`UnknownKeysTold`).

It does so exactly, except in two cases. Dots at the beginning of a way are left out, whether they
belong to the key or not, so that a key of the file that begins with a dot is told without it, and
may coincide with another. And a date or time that stands for a record is told by the key that such
a value has when it is looked into, which nobody has written.
-/

namespace BuildStepper

open Toml (Value Table Unknown)

/-! ## Lists in ascending order -/

section Ascending

variable {l : List String} {a b : String}

/-- Of two equal neighbours the first one is left out. -/
theorem eraseReps_cons_cons :
    (a :: b :: l).eraseReps = if a = b then (b :: l).eraseReps else a :: (b :: l).eraseReps := by
  -- What the loop has found before stands in front of what it finds from then on.
  have hloop (l : List String) : ∀ (a : String) (acc : List String),
      List.eraseRepsBy.loop (· == ·) a l acc =
        acc.reverse ++ List.eraseRepsBy.loop (· == ·) a l [] := by
    induction l with
    | nil => simp [List.eraseRepsBy.loop]
    | cons c l ih =>
      intro a acc
      simp only [List.eraseRepsBy.loop]
      split
      · exact ih a acc
      · rw [ih c (a :: acc), ih c [a]]
        simp
  change List.eraseRepsBy.loop (· == ·) a (b :: l) [] = _
  rw [List.eraseRepsBy.loop]
  split
  · next heq =>
    obtain rfl := beq_iff_eq.1 heq
    rw [if_pos rfl]
    rfl
  · next hne =>
    rw [hloop, if_neg (by simpa using hne)]
    rfl

/-- No member is lost with the repetitions. -/
@[simp] theorem mem_eraseReps : a ∈ l.eraseReps ↔ a ∈ l := by
  induction l with
  | nil => rfl
  | cons b l ih =>
    cases l with
    | nil => rfl
    | cons c l =>
      rw [eraseReps_cons_cons]
      split
      · next heq => simp [ih, heq]
      · simp only [List.mem_cons (a := a) (b := b), ih]

/-- Without repetitions an ascending list is strictly ascending. -/
theorem pairwise_lt_eraseReps (h : l.Pairwise (· ≤ ·)) : l.eraseReps.Pairwise (· < ·) := by
  induction l with
  | nil => exact .nil
  | cons a l ih =>
    obtain ⟨hle, hrest⟩ := List.pairwise_cons.1 h
    cases l with
    | nil => exact List.pairwise_singleton _ _
    | cons b l =>
      rw [eraseReps_cons_cons]
      split
      · exact ih hrest
      · next hne =>
        refine List.pairwise_cons.2 ⟨fun c hc => ?_, ih hrest⟩
        have hab : a < b := lt_of_le_of_ne (hle b List.mem_cons_self) hne
        obtain rfl | hc := List.mem_cons.1 (mem_eraseReps.1 hc)
        · exact hab
        · exact hab.trans_le ((List.pairwise_cons.1 hrest).1 c hc)

end Ascending

namespace Settings

/-- The list of unknown keys has the spelling of each way. -/
theorem mem_listUnknown {paths : List (List String)} {name : String} :
    name ∈ listUnknown paths ↔ ∃ path ∈ paths, spellPath path = name := by
  rw [listUnknown, mem_eraseReps, (List.mergeSort_perm _ _).mem_iff, List.mem_map]

/-- It is strictly ascending. -/
theorem listUnknown_ascending (paths : List (List String)) :
    (listUnknown paths).Pairwise (· < ·) := by
  have hle (a b : String) : (!decide (b < a)) = true ↔ a ≤ b := by
    rw [Bool.not_eq_true', decide_eq_false_iff_not, not_lt]
  refine pairwise_lt_eraseReps ((List.pairwise_mergeSort ?_ ?_ _).imp fun h => (hle _ _).1 h)
  · intro a b c hab hbc
    exact (hle a c).2 (((hle a b).1 hab).trans ((hle b c).1 hbc))
  · intro a b
    rw [Bool.or_eq_true, hle, hle]
    exact le_total a b

/-! ## Ways with dots -/

/-- A way with dots between its parts. -/
def dotted (path : List String) : String :=
  ".".intercalate path

/-- A text without the dots at its beginning. -/
def withoutDots (text : String) : String :=
  String.ofList (text.toList.dropWhile (· = '.'))

/-- A text begins with a dot. -/
def BeginsWithDot (text : String) : Prop :=
  text.toList.head? = some '.'

/-- A way is spelled with dots between its parts and without those in front. -/
theorem spellPath_eq (path : List String) : spellPath path = withoutDots (dotted path) := rfl

/-- A key by itself has no dots put in. -/
theorem dotted_singleton (key : String) : dotted [key] = key :=
  String.intercalate_singleton

/-- In front of a way a key stands with a dot behind it. -/
theorem dotted_cons {path : List String} (h : path ≠ []) (key : String) :
    dotted (key :: path) = key ++ "." ++ dotted path :=
  String.intercalate_cons_of_ne_nil h

/-- Behind a way a key stands with a dot in front of it. -/
theorem dotted_concat {path : List String} (h : path ≠ []) (key : String) :
    dotted (path ++ [key]) = dotted path ++ "." ++ key := by
  have happend := String.intercalate_append_of_ne_nil h (List.cons_ne_nil key []) (s := ".")
  rwa [String.intercalate_singleton] at happend

/-- A text stays as it is without the dots in front just if there are none. -/
theorem withoutDots_eq_self {text : String} :
    withoutDots text = text ↔ ¬ BeginsWithDot text := by
  rw [withoutDots, BeginsWithDot, ← String.toList_inj, String.toList_ofList]
  cases text.toList with
  | nil => simp
  | cons c cs =>
    rw [List.dropWhile_cons, List.head?_cons, Option.some_inj]
    split
    · next hdot =>
      refine iff_of_false (fun heq => ?_) (not_not_intro (of_decide_eq_true hdot))
      have hlength := (List.dropWhile_suffix (l := cs) (· = '.')).length_le
      rw [heq, List.length_cons] at hlength
      omega
    · next hdot => exact iff_of_true rfl (by simpa using hdot)

/-- What is told never begins with a dot. -/
theorem not_beginsWithDot_withoutDots (text : String) : ¬ BeginsWithDot (withoutDots text) := by
  rw [withoutDots, BeginsWithDot, String.toList_ofList]
  intro h
  have hhead := List.head?_dropWhile_not (· = '.') text.toList
  rw [h] at hhead
  simp at hhead

/-- Behind a key without dots the rest of a way can be told. -/
theorem dotted_cons_inj {key key' : String} {rest rest' : String} (h : '.' ∉ key.toList)
    (h' : '.' ∉ key'.toList) (heq : key ++ "." ++ rest = key' ++ "." ++ rest') :
    key = key' ∧ rest = rest' := by
  have hcut {key : String} (rest : String) (h : '.' ∉ key.toList) :
      (key ++ "." ++ rest).toList.takeWhile (· ≠ '.') = key.toList := by
    rw [String.toList_append, String.toList_append, List.append_assoc,
      List.takeWhile_append_of_pos fun c hc => by simpa using ne_of_mem_of_not_mem hc h]
    simp
  obtain rfl : key = key' := by rw [← String.toList_inj, ← hcut rest h, heq, hcut rest' h']
  exact ⟨rfl, String.append_right_inj _ |>.1 heq⟩

/-! ## The keys of a settings file -/

/-- The known keys are written without dots. -/
theorem plain_of_mem_keys {key : String} (h : key ∈ keyTree.keys) :
    '.' ∉ key.toList ∧ ∀ rest, ¬ BeginsWithDot (key ++ "." ++ rest) := by
  have hplain : ∀ key ∈ keyTree.keys, '.' ∉ key.toList ∧ key.toList ≠ [] := by decide
  obtain ⟨hdots, hne⟩ := hplain key h
  refine ⟨hdots, fun rest hrest => ?_⟩
  rw [BeginsWithDot, String.append_assoc, String.toList_append, List.head?_append_of_ne_nil _ hne]
    at hrest
  exact hdots (List.mem_of_head? hrest)

variable {table : Table}

/-- The way to an unknown key is the key itself, or it begins with a known key at which a table
stands. -/
theorem unknown_cases {path : List String} (h : Unknown keyTree table path) :
    (∃ key ∉ keyTree.keys, path = [key]) ∨
      ∃ key ∈ keyTree.keys, ∃ inner, (key, Value.table inner) ∈ table ∧
        ∃ rest, dotted path = key ++ "." ++ dotted rest := by
  cases h with
  | @here _ _ key _ _ hkey => exact .inl ⟨key, hkey, rfl⟩
  | @inside _ _ _ inner key rest hmem hkey h =>
    refine .inr ⟨key, List.mem_map_of_mem hkey, inner, hmem, rest, dotted_cons ?_ key⟩
    rintro rfl
    cases h

/-- Only a way that is one key can begin with a dot. -/
theorem beginsWithDot_unknown {path : List String} (h : Unknown keyTree table path)
    (hdot : BeginsWithDot (dotted path)) : ∃ key, path = [key] ∧ BeginsWithDot key := by
  obtain ⟨key, -, rfl⟩ | ⟨key, hkey, -, -, rest, heq⟩ := unknown_cases h
  · exact ⟨key, rfl, by rwa [dotted_singleton] at hdot⟩
  · exact absurd (heq ▸ hdot) ((plain_of_mem_keys hkey).2 _)

/-- What the list of unknown keys of a table tells. -/
structure UnknownKeysTold (table : Table) (names : List String) : Prop where
  /-- The list is strictly ascending. -/
  ascending : names.Pairwise (· < ·)
  /-- It has the way to each unknown key, without the dots at its beginning, and the key that a date
  or time has which stands for a record. -/
  mem_iff (name : String) : name ∈ names ↔
    (∃ path, Unknown keyTree table path ∧ name = withoutDots (dotted path)) ∨
      ∃ key, StandsFor table key ∧ name = dotted [key, Toml.momentKey]
  /-- It has the ways to the unknown keys and nothing else just if no unknown key begins with a dot,
  and no date or time stands for a record, unless what is told of it is an unknown key, too. -/
  exact_iff : (∀ name, name ∈ names ↔ ∃ path, Unknown keyTree table path ∧ name = dotted path) ↔
    (∀ key, Unknown keyTree table [key] → ¬ BeginsWithDot key) ∧
      ∀ key, StandsFor table key → Unknown keyTree table [dotted [key, Toml.momentKey]]
  /-- Two unknown keys of one table are told alike just if they are keys of the file itself that
  differ in nothing but the dots at their beginning. -/
  alike_iff (path : List String) (key key' : String) : Unknown keyTree table (path ++ [key]) →
    Unknown keyTree table (path ++ [key']) → key ≠ key' →
    (withoutDots (dotted (path ++ [key])) = withoutDots (dotted (path ++ [key'])) ↔
      path = [] ∧ withoutDots key = withoutDots key')

/-- Unknown keys of one table are told apart unless it is the file itself. -/
theorem alike_iff {path : List String} {key key' : String}
    (h : Unknown keyTree table (path ++ [key])) (h' : Unknown keyTree table (path ++ [key']))
    (hne : key ≠ key') :
    withoutDots (dotted (path ++ [key])) = withoutDots (dotted (path ++ [key'])) ↔
      path = [] ∧ withoutDots key = withoutDots key' := by
  by_cases hpath : path = []
  · subst hpath
    rw [List.nil_append, List.nil_append, dotted_singleton, dotted_singleton]
    exact (and_iff_right rfl).symm
  · have hkept {key : String} (h : Unknown keyTree table (path ++ [key])) :
        withoutDots (dotted (path ++ [key])) = dotted path ++ "." ++ key := by
      rw [withoutDots_eq_self.2, dotted_concat hpath]
      intro hdot
      obtain ⟨key', heq, -⟩ := beginsWithDot_unknown h hdot
      have happend : path ++ [key] = [] ++ [key'] := heq
      exact hpath (List.append_inj_left' happend rfl)
    rw [hkept h, hkept h']
    refine iff_of_false (fun heq => hne ((String.append_right_inj _).1 heq)) fun hnil =>
      hpath hnil.1

/-- What is told of a date or time that stands for a record is no way to an unknown key but that key
of the file. -/
theorem unknown_moment_iff (hnodup : (table.map Prod.fst).Nodup) {key : String}
    (h : StandsFor table key) :
    (∃ path, Unknown keyTree table path ∧ dotted [key, Toml.momentKey] = dotted path) ↔
      Unknown keyTree table [dotted [key, Toml.momentKey]] := by
  constructor
  · rintro ⟨path, hpath, heq⟩
    obtain ⟨name, -, rfl⟩ | ⟨known, hknown, inner, hmem, rest, hrest⟩ := unknown_cases hpath
    · rw [dotted_singleton] at heq
      rwa [heq]
    · -- The key would stand for a table as well.
      rw [dotted_cons (by simp), hrest] at heq
      obtain ⟨rfl, -⟩ :=
        dotted_cons_inj (plain_of_mem_keys h.2).1 (plain_of_mem_keys hknown).1 heq
      have hsame := List.inj_on_of_nodup_map hnodup h.1 hmem rfl
      cases hsame
  · intro hpath
    exact ⟨_, hpath, (dotted_singleton _).symm⟩

/-- The names in the list of unknown keys. -/
theorem mem_listUnknown_iff {settings : Settings} {unknown : List (List String)}
    (h : ofTable table = .ok (settings, unknown)) (name : String) :
    name ∈ listUnknown unknown ↔
      (∃ path, Unknown keyTree table path ∧ name = withoutDots (dotted path)) ∨
        ∃ key, StandsFor table key ∧ name = dotted [key, Toml.momentKey] := by
  have hmoment {key : String} (hkey : StandsFor table key) :
      withoutDots (dotted [key, Toml.momentKey]) = dotted [key, Toml.momentKey] := by
    rw [withoutDots_eq_self, dotted_cons (by simp)]
    exact (plain_of_mem_keys hkey.2).2 _
  rw [mem_listUnknown]
  simp only [mem_unknown_iff h, spellPath_eq]
  constructor
  · rintro ⟨path, hpath | ⟨key, hkey, rfl⟩, rfl⟩
    · exact .inl ⟨path, hpath, rfl⟩
    · exact .inr ⟨key, hkey, hmoment hkey⟩
  · rintro (⟨path, hpath, rfl⟩ | ⟨key, hkey, rfl⟩)
    · exact ⟨path, .inl hpath, rfl⟩
    · exact ⟨_, .inr ⟨key, hkey, rfl⟩, hmoment hkey⟩

/-- What is told of the keys is all true just if no key begins with a dot and nothing is told of
dates and times. -/
theorem exact_iff (hnodup : (table.map Prod.fst).Nodup) {names : List String}
    (hmem : ∀ name, name ∈ names ↔
      (∃ path, Unknown keyTree table path ∧ name = withoutDots (dotted path)) ∨
        ∃ key, StandsFor table key ∧ name = dotted [key, Toml.momentKey]) :
    (∀ name, name ∈ names ↔ ∃ path, Unknown keyTree table path ∧ name = dotted path) ↔
      (∀ key, Unknown keyTree table [key] → ¬ BeginsWithDot key) ∧
        ∀ key, StandsFor table key → Unknown keyTree table [dotted [key, Toml.momentKey]] := by
  refine ⟨fun hexact => ⟨fun key hkey hdot => ?_, fun key hkey => ?_⟩,
    fun ⟨hdots, hmoments⟩ name => ?_⟩
  · -- The key itself would be told, which begins with a dot as nothing in the list does.
    obtain ⟨path, -, heq⟩ | ⟨known, hknown, heq⟩ :=
      (hmem _).1 ((hexact key).2 ⟨[key], hkey, (dotted_singleton key).symm⟩)
    · exact not_beginsWithDot_withoutDots _ (heq ▸ hdot)
    · rw [heq, dotted_cons (by simp)] at hdot
      exact (plain_of_mem_keys hknown.2).2 _ hdot
  · exact (unknown_moment_iff hnodup hkey).1 ((hexact _).1 ((hmem _).2 (.inr ⟨key, hkey, rfl⟩)))
  · have hkept {path : List String} (h : Unknown keyTree table path) :
        withoutDots (dotted path) = dotted path := by
      refine withoutDots_eq_self.2 fun hdot => ?_
      obtain ⟨key, rfl, hkey⟩ := beginsWithDot_unknown h hdot
      exact hdots key h hkey
    rw [hmem]
    constructor
    · rintro (⟨path, h, rfl⟩ | ⟨key, hkey, rfl⟩)
      · exact ⟨path, h, hkept h⟩
      · exact (unknown_moment_iff hnodup hkey).2 (hmoments key hkey)
    · rintro ⟨path, h, rfl⟩
      exact .inl ⟨path, h, (hkept h).symm⟩

/-- What the list of unknown keys tells when a settings file is loaded. -/
theorem unknownKeys_told {text : String} {settings : Settings} {diagnosis : Diagnosis}
    (hread : Toml.read text = .ok table) (hload : load text = .ok (settings, diagnosis)) :
    UnknownKeysTold table diagnosis.unknownKeys := by
  have hnodup : (table.map Prod.fst).Nodup := by
    cases Toml.read_keysOnce hread with
    | table hnodup _ => exact hnodup
  obtain ⟨unknown, hunknown, rfl⟩ := (load_eq_ok_iff hread).1 hload
  have hmem := mem_listUnknown_iff hunknown
  exact {
    ascending := listUnknown_ascending unknown
    mem_iff := hmem
    exact_iff := exact_iff hnodup hmem
    alike_iff := fun path key key' => alike_iff }

/-- A file with a key that begins with a dot, and with a date that stands for a record. -/
def dotAndDate : String :=
  "\".a\" = 1\na = 2\nlogging = 1979-05-27\n[debug]\nprot = 8000\n"

/-- The key that begins with a dot is not told, and a key is told for the date. -/
theorem unknownKeys_dotAndDate :
    ∃ table settings diagnosis, Toml.read dotAndDate = .ok table ∧
      load dotAndDate = .ok (settings, diagnosis) ∧ UnknownKeysTold table diagnosis.unknownKeys ∧
      Unknown keyTree table [".a"] ∧ ".a" ∉ diagnosis.unknownKeys ∧
      StandsFor table loggingKey ∧ dotted [loggingKey, Toml.momentKey] ∈ diagnosis.unknownKeys := by
  have hread : Toml.read dotAndDate =
      .ok [(".a", .integer 1), ("a", .integer 2), (loggingKey, .moment),
        (debugAlias, .table [("prot", .integer 8000)])] := by
    decide +kernel
  have htable : ofTable [(".a", .integer 1), ("a", .integer 2), (loggingKey, .moment),
        (debugAlias, .table [("prot", .integer 8000)])] =
      .ok ({}, [[".a"], ["a"], [loggingKey, Toml.momentKey], [debugAlias, "prot"]]) := by
    decide +kernel
  have hload := (load_eq_ok_iff hread).2 ⟨_, htable, rfl⟩
  have htold := unknownKeys_told hread hload
  have hstands : StandsFor [(".a", .integer 1), ("a", .integer 2), (loggingKey, .moment),
      (debugAlias, .table [("prot", .integer 8000)])] loggingKey := ⟨by simp, by decide⟩
  refine ⟨_, _, _, hread, hload, htold, .here List.mem_cons_self (by decide), fun hdot => ?_,
    hstands, (htold.mem_iff _).2 (.inr ⟨_, hstands, rfl⟩)⟩
  obtain ⟨path, -, heq⟩ := mem_listUnknown.1 hdot
  have hbegins : BeginsWithDot ".a" := by
    rw [BeginsWithDot]
    decide
  rw [← heq, spellPath_eq] at hbegins
  exact not_beginsWithDot_withoutDots _ hbegins

end Settings

end BuildStepper
