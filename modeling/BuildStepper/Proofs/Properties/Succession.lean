import BuildStepper.Proofs.Properties.Report
import Mathlib.Data.List.Sort

/-!
# Reports one after the other

A report begins with a baseline, and then it is asked again and again, each time about tables that
need have nothing to do with those before: names come, vanish and change their values. What counts
as reported are all names of the tables asked about so far (`PropertyReport.mem_sent_asked`), so
that an answer lists the names that were in none of them (`IsNews`).

This determines the answer (`IsNews.unique`). So it makes no difference in which order tables list
their names, nor, once there is a new baseline, what was asked before it
(`PropertyReport.answers_succession`).
-/

namespace BuildStepper

open Wire (PropertyRecord bytesOf)

/-- The tables that a client asks about: all properties and the user's. -/
structure Inquiry where
  current : PropertyTable
  user : PropertyTable

/-- What is done with a report. -/
inductive ReportCall where
  /-- It begins anew. -/
  | start (baseline : PropertyTable)
  /-- The client asks. -/
  | ask (inquiry : Inquiry)

namespace PropertyTable

/-- Whether two tables give the same names the same values. -/
def Agrees (t u : PropertyTable) : Prop :=
  ∀ name, t.get? name = u.get? name

/-- Tables that agree have the same names. -/
theorem Agrees.has {t u : PropertyTable} (h : t.Agrees u) (name : String) :
    t.has name = u.has name := by
  rw [Bool.eq_iff_iff, ← isSome_get?_iff, ← isSome_get?_iff, h]

end PropertyTable

/-- Whether two inquiries are about the same tables, in whatever order these list their names. -/
structure Inquiry.Agrees (a b : Inquiry) : Prop where
  current : a.current.Agrees b.current
  user : a.user.Agrees b.user

/-- Inquiries about the same tables are about the same names. -/
theorem Inquiry.unseen_congr {inquiries inquiries' : List Inquiry}
    (h : List.Forall₂ Agrees inquiries inquiries') (name : String) :
    (∀ a ∈ inquiries, a.current.has name = false) ↔
      ∀ a ∈ inquiries', a.current.has name = false := by
  induction h with
  | nil => simp
  | cons hfirst _ ih => rw [List.forall_mem_cons, List.forall_mem_cons, hfirst.current.has, ih]

/-- What an answer lists after earlier inquiries. -/
structure IsNews (baseline : PropertyTable) (earlier : List Inquiry) (asked : Inquiry)
    (records : List PropertyRecord) : Prop where
  /-- The names of the current table that were in no table asked about before, with their values in
  the current one. A property is the user's if it is in the user's table, else the system's if it is
  in the baseline, else the build's own. -/
  mem_iff : ∀ record, record ∈ records ↔
    asked.current.get? record.name = some record.value ∧
      (∀ a ∈ earlier, a.current.has record.name = false) ∧
      record.provenance =
        if asked.user.has record.name then .user
        else if baseline.has record.name then .system else .runtime
  /-- The names are strictly ascending in the order of their bytes, so that none is listed twice. -/
  ascending : records.Pairwise fun a b => bytesOf a.name.toList < bytesOf b.name.toList

/-- News are determined by what the names are worth. -/
theorem IsNews.unique {baseline baseline' : PropertyTable} {earlier earlier' : List Inquiry}
    {asked asked' : Inquiry} {records records' : List PropertyRecord}
    (h : IsNews baseline earlier asked records) (h' : IsNews baseline' earlier' asked' records')
    (hbaseline : baseline.Agrees baseline')
    (hearlier : List.Forall₂ Inquiry.Agrees earlier earlier')
    (hasked : asked.Agrees asked') : records = records' := by
  have hmem (record : PropertyRecord) : record ∈ records ↔ record ∈ records' := by
    rw [h.mem_iff, h'.mem_iff, hasked.current, Inquiry.unseen_congr hearlier,
      hasked.user.has, hbaseline.has]
  have hirrefl : Std.Irrefl fun a b : PropertyRecord =>
      bytesOf a.name.toList < bytesOf b.name.toList := ⟨fun _ => List.lt_irrefl _⟩
  have hantisymm : Std.Antisymm fun a b : PropertyRecord =>
      bytesOf a.name.toList < bytesOf b.name.toList :=
    ⟨fun _ _ hab hba => absurd hba (List.lt_asymm hab)⟩
  exact List.Pairwise.eq_of_mem_iff h.ascending h'.ascending hmem

namespace PropertyReport

/-- The answers that a report gives to the client, one for each inquiry. -/
def answers (r : PropertyReport) : List ReportCall → List (List PropertyRecord)
  | [] => []
  | .start baseline :: calls => (start baseline).answers calls
  | .ask a :: calls => r.delta a.current a.user :: (r.report a.current).answers calls

/-- The report once these inquiries are answered. -/
def asked (r : PropertyReport) (inquiries : List Inquiry) : PropertyReport :=
  inquiries.foldl (fun r a => r.report a.current) r

variable (r : PropertyReport)

/-- Behind a new baseline the answers are those of a new report. -/
theorem answers_append_start (before later : List ReportCall) (baseline : PropertyTable) :
    r.answers (before ++ .start baseline :: later) =
      r.answers before ++ (start baseline).answers later := by
  induction before generalizing r with
  | nil => rfl
  | cons call before ih =>
    cases call with
    | start other => exact ih _
    | ask a => exact congrArg (r.delta a.current a.user :: ·) (ih _)

/-- An inquiry is answered by the report that those before have left. -/
theorem getElem?_answers (inquiries : List Inquiry) (k : Nat) :
    (r.answers (inquiries.map .ask))[k]? =
      inquiries[k]?.map fun a => (r.asked (inquiries.take k)).delta a.current a.user := by
  induction inquiries generalizing r k with
  | nil => rfl
  | cons a inquiries ih =>
    cases k with
    | zero => rfl
    | succ k => exact ih _ k

/-- Each inquiry is answered once. -/
theorem length_answers (inquiries : List Inquiry) :
    (r.answers (inquiries.map .ask)).length = inquiries.length := by
  induction inquiries generalizing r with
  | nil => rfl
  | cons a inquiries ih => exact congrArg (· + 1) (ih _)

/-- Inquiries leave the baseline as it is. -/
theorem baseline_asked (inquiries : List Inquiry) :
    (r.asked inquiries).baseline = r.baseline := by
  induction inquiries generalizing r with
  | nil => rfl
  | cons a inquiries ih => exact ih _

/-- A name counts as reported if it did before, or was in a table asked about. -/
theorem mem_sent_asked (inquiries : List Inquiry) (name : String) :
    name ∈ (r.asked inquiries).sent ↔
      name ∈ r.sent ∨ ∃ a ∈ inquiries, a.current.has name = true := by
  induction inquiries generalizing r with
  | nil => simp [asked]
  | cons a inquiries ih =>
    change name ∈ ((r.report a.current).asked inquiries).sent ↔ _
    rw [ih, mem_sent_report, or_assoc, List.exists_mem_cons_iff]

/-- After inquiries a report answers the next one by what is new. -/
theorem isNews_delta (baseline : PropertyTable) (earlier : List Inquiry) (a : Inquiry) :
    IsNews baseline earlier a (((start baseline).asked earlier).delta a.current a.user) where
  mem_iff record := by
    have hnew : record.name ∉ ((start baseline).asked earlier).sent ↔
        ∀ a ∈ earlier, a.current.has record.name = false := by
      rw [mem_sent_asked]
      simp [start]
    rw [mem_delta_iff, hnew, provenance, baseline_asked]
    rfl
  ascending := (delta_ascending _ a.current a.user).imp (Wire.lt_iff_bytesOf_lt _ _).1

/-- What holds of the answers of a report that begins with a baseline. -/
structure Succession (baseline : PropertyTable) (inquiries : List Inquiry) : Prop where
  /-- Each inquiry is answered by what is new in its table. -/
  news : ∀ k (hk : k < inquiries.length), ∃ records,
    ((start baseline).answers (inquiries.map .ask))[k]? = some records ∧
      IsNews baseline (inquiries.take k) inquiries[k] records
  /-- There are no other answers. -/
  length : ((start baseline).answers (inquiries.map .ask)).length = inquiries.length
  /-- The order in which tables list their names makes no difference. -/
  unordered : ∀ (baseline' : PropertyTable) (inquiries' : List Inquiry),
    baseline.Agrees baseline' → List.Forall₂ Inquiry.Agrees inquiries inquiries' →
      (start baseline').answers (inquiries'.map .ask) =
        (start baseline).answers (inquiries.map .ask)
  /-- Nor does what happened to a report before the baseline. -/
  anew : ∀ (r : PropertyReport) (before : List ReportCall),
    r.answers (before ++ .start baseline :: inquiries.map .ask) =
      r.answers before ++ (start baseline).answers (inquiries.map .ask)

/-- A report that is asked again and again answers by what is new each time. -/
theorem answers_succession (baseline : PropertyTable) (inquiries : List Inquiry) :
    Succession baseline inquiries where
  news k hk := by
    refine ⟨_, ?_, isNews_delta baseline (inquiries.take k) inquiries[k]⟩
    rw [getElem?_answers, List.getElem?_eq_getElem hk]
    rfl
  length := length_answers _ inquiries
  unordered := by
    intro baseline' inquiries' hbaseline hinquiries
    refine List.ext_getElem? fun k => ?_
    rw [getElem?_answers, getElem?_answers]
    by_cases hk : k < inquiries.length
    · have hk' : k < inquiries'.length := hinquiries.length_eq ▸ hk
      rw [List.getElem?_eq_getElem hk, List.getElem?_eq_getElem hk']
      -- Both answers are the news of the same inquiry after the same ones, and there is only one.
      have hnews := isNews_delta baseline (inquiries.take k) inquiries[k]
      have hnews' := isNews_delta baseline' (inquiries'.take k) inquiries'[k]
      exact congrArg some (hnews.unique hnews' hbaseline (List.forall₂_take k hinquiries)
        (hinquiries.get hk hk')).symm
    · have hk' : ¬ k < inquiries'.length := hinquiries.length_eq ▸ hk
      rw [List.getElem?_eq_none (not_lt.1 hk), List.getElem?_eq_none (not_lt.1 hk')]
      rfl
  anew r before := r.answers_append_start before _ baseline

end PropertyReport

end BuildStepper
