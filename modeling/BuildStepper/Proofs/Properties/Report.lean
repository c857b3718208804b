import BuildStepper.Proofs.Properties.Definition
import BuildStepper.Proofs.Wire.Line
import BuildStepper.Properties.Report
import Mathlib.Data.String.Basic

/-!
# What a property report holds

A report lists the names of the current table that were not reported before (`mem_delta_iff`), in
strictly ascending order (`delta_ascending`), and after it they count as reported (`sent_report`).
So no name is in two reports, and none twice in one.

Names are compared by their code points, one after the other. In UTF-8 that is the order of the
bytes as well (`lt_iff_bytesOf_lt`): the bytes of two different characters differ before either
ends, and those of the lesser one are the lesser (`encodeChar_append_lt`).
-/

namespace BuildStepper

/-! ## The order of texts and of their bytes -/

namespace Wire

/-- The bytes of a lesser character come first, whatever follows them. -/
theorem encodeChar_append_lt {c d : Char} (h : c < d) (xs ys : List UInt8) :
    String.utf8EncodeChar c ++ xs < String.utf8EncodeChar d ++ ys := by
  have hlt : c.val.toNat < d.val.toNat := h
  have hd : d.val.toNat < 1114112 := d.valid.elim (by omega) (by omega)
  unfold String.utf8EncodeChar
  generalize c.val.toNat = v at hlt ⊢
  generalize d.val.toNat = w at hlt hd ⊢
  -- No byte overflows; for all but the first of four this is plain.
  have hbyte : ∀ x, (x % 64 + 128) % 256 = x % 64 + 128 := fun x => by omega
  have hv : (v / 262144 % 8 + 240) % 256 = v / 262144 + 240 := by omega
  have hw : (w / 262144 % 8 + 240) % 256 = w / 262144 + 240 := by omega
  simp only
  -- Characters of one length are compared digit by digit, else the first byte tells the lengths.
  split_ifs <;>
    simp only [List.cons_append, List.nil_append, List.cons_lt_cons_iff, UInt8.lt_iff_toNat_lt,
      ← UInt8.toNat_inj, UInt8.toNat_ofNat', Nat.reducePow, hbyte, hv, hw] <;>
    omega

/-- The bytes of the lesser of two rows of characters come first. -/
theorem bytesOf_lt_of_lt {cs ds : List Char} (h : cs < ds) : bytesOf cs < bytesOf ds := by
  induction h with
  | @nil d ds =>
    have hsome : bytesOf (d :: ds) ≠ [] := by
      intro hnil
      have hlength := length_le_length_bytesOf (d :: ds)
      rw [hnil] at hlength
      exact absurd hlength (by simp)
    obtain ⟨b, bs, hbytes⟩ := List.exists_cons_of_ne_nil hsome
    rw [hbytes]
    exact List.nil_lt_cons b bs
  | rel hchar => exact encodeChar_append_lt hchar _ _
  | cons _ ih => exact List.append_left_lt ih

/-- Texts are ordered as their bytes are. -/
theorem lt_iff_bytesOf_lt (s t : String) : s < t ↔ bytesOf s.toList < bytesOf t.toList := by
  constructor
  · exact fun h => bytesOf_lt_of_lt (String.lt_iff_toList_lt.1 h)
  · intro h
    by_contra hnot
    rcases lt_or_eq_of_le (not_lt.1 hnot) with hgt | rfl
    · exact List.lt_asymm h (bytesOf_lt_of_lt (String.lt_iff_toList_lt.1 hgt))
    · exact List.lt_irrefl _ h

end Wire

/-! ## Reports -/

open Wire (PropertyRecord)

namespace PropertyTable

/-- Entries are compared by their names. -/
theorem nameLE_iff {a b : String × String} : nameLE a b = true ↔ a.1 ≤ b.1 := by
  rw [nameLE, Bool.not_eq_true', decide_eq_false_iff_not, not_lt]

/-- A sorted table is strictly ascending, since it lists no name twice. -/
theorem sorted_pairwise (t : PropertyTable) : t.sorted.Pairwise fun a b => a.1 < b.1 := by
  have hordered : t.sorted.Pairwise fun a b => nameLE a b = true := by
    refine List.pairwise_mergeSort ?_ ?_ t.entries
    · intro a b c hab hbc
      exact nameLE_iff.2 ((nameLE_iff.1 hab).trans (nameLE_iff.1 hbc))
    · intro a b
      rw [Bool.or_eq_true, nameLE_iff, nameLE_iff]
      exact le_total a.1 b.1
  have hdistinct : t.sorted.Pairwise fun a b => a.1 ≠ b.1 := by
    have hnodup : (t.sorted.map Prod.fst).Nodup :=
      ((List.mergeSort_perm t.entries nameLE).map Prod.fst).nodup_iff.2 t.nodup
    exact List.pairwise_map.1 hnodup
  exact (hordered.and hdistinct).imp fun h => lt_of_le_of_ne (nameLE_iff.1 h.1) h.2

end PropertyTable

namespace PropertyReport

variable (r : PropertyReport) (current user : PropertyTable)

/-- A report is strictly ascending. -/
theorem delta_ascending : (r.delta current user).Pairwise fun a b => a.name < b.name :=
  List.pairwise_map.2 (current.sorted_pairwise.filter _)

/-- No name is reported twice in one report. -/
theorem nodup_delta : ((r.delta current user).map PropertyRecord.name).Nodup :=
  List.pairwise_map.2 ((r.delta_ascending current user).imp ne_of_lt)

/-- What is reported counts as reported from then on. -/
theorem sent_report :
    (r.report current).sent = r.sent ++ (r.delta current user).map PropertyRecord.name := by
  simp only [report, delta, List.map_map]
  rfl

variable {r current user}

/-- A report lists what is in the current table and was not reported before. -/
theorem mem_delta_iff {record : PropertyRecord} :
    record ∈ r.delta current user ↔
      current.get? record.name = some record.value ∧ record.name ∉ r.sent ∧
        record.provenance = r.provenance user record.name := by
  rw [PropertyTable.get?_eq_some_iff]
  simp only [delta, fresh, List.mem_map, List.mem_filter, PropertyTable.sorted, List.mem_mergeSort,
    Bool.not_eq_true', List.contains_eq_mem, decide_eq_false_iff_not]
  constructor
  · rintro ⟨e, ⟨hentry, hnew⟩, rfl⟩
    exact ⟨hentry, hnew, rfl⟩
  · rintro ⟨hentry, hnew, hprovenance⟩
    exact ⟨_, ⟨hentry, hnew⟩, by rw [← hprovenance]⟩

/-- The names of a table that was reported count as reported. -/
theorem mem_sent_report {name : String} :
    name ∈ (r.report current).sent ↔ name ∈ r.sent ∨ current.has name = true := by
  rw [sent_report r current {}, List.mem_append, List.mem_map,
    ← PropertyTable.isSome_get?_iff, Option.isSome_iff_exists]
  constructor
  · rintro (hold | ⟨record, hrecord, rfl⟩)
    · exact .inl hold
    · exact .inr ⟨_, (mem_delta_iff.1 hrecord).1⟩
  · rintro (hold | ⟨value, hvalue⟩)
    · exact .inl hold
    · by_cases hsent : name ∈ r.sent
      · exact .inl hsent
      · exact .inr ⟨⟨name, value, r.provenance {} name⟩, mem_delta_iff.2 ⟨hvalue, hsent, rfl⟩, rfl⟩

end PropertyReport

end BuildStepper
