import Mathlib.Data.List.Perm.Basic

/-!
# Results that may be errors

How a result that is made of others came about: for a sequence of two results and for one that is
changed, whether it is there or an error.

Steps that follow one another through a list may come to the same whatever their order, up to the
error that is met first (`toOption_foldlM_perm`).
-/

namespace BuildStepper

variable {ε α β : Type}

/-- What comes of a result is what is made of it. -/
theorem ok_bind (a : α) (f : α → Except ε β) : (Except.ok a >>= f) = f a := rfl

/-- Two readings in turn succeed only if both do. -/
theorem bind_eq_ok {x : Except ε α} {f : α → Except ε β} {b : β}
    (h : x >>= f = .ok b) : ∃ a, x = .ok a ∧ f a = .ok b := by
  cases x with
  | error e => cases h
  | ok a => exact ⟨a, rfl, h⟩

/-- What is made of a result is made only if there is one. -/
theorem map_eq_ok {x : Except ε α} {f : α → β} {b : β}
    (h : x.map f = .ok b) : ∃ a, x = .ok a ∧ f a = b := by
  cases x with
  | error e => cases h
  | ok a => exact ⟨a, rfl, Except.ok.inj h⟩

/-- Two readings in turn fail with the error of the first or with that of the second. -/
theorem bind_eq_error {x : Except ε α} {f : α → Except ε β} {e : ε}
    (h : x >>= f = .error e) : x = .error e ∨ ∃ a, x = .ok a ∧ f a = .error e := by
  cases x with
  | error e' =>
    obtain rfl := Except.error.inj h
    exact .inl rfl
  | ok a => exact .inr ⟨a, rfl, h⟩

/-- No error comes of making something of a result. -/
theorem map_eq_error {x : Except ε α} {f : α → β} {e : ε}
    (h : x.map f = .error e) : x = .error e := by
  cases x with
  | error e' => exact congrArg Except.error (Except.error.inj h)
  | ok a => cases h

/-- Whether two readings in turn succeed, and with what, does not depend on their errors. -/
theorem toOption_bind (x : Except ε α) (f : α → Except ε β) :
    (x >>= f).toOption = x.toOption.bind fun a => (f a).toOption := by
  cases x <;> rfl

/-- What is made of a result is made of it without its error as well. -/
theorem toOption_map (x : Except ε α) (f : α → β) : (x.map f).toOption = x.toOption.map f := by
  cases x <;> rfl

section Steps

variable {step : β → α → Except ε β}

/-- Steps that may fail, as steps from what may have failed before. -/
theorem toOption_bind_foldlM (l : List α) (x : Except ε β) :
    (x >>= l.foldlM step).toOption =
      l.foldl (fun r a => r.bind fun b => (step b a).toOption) x.toOption := by
  induction l generalizing x with
  | nil => cases x <;> rfl
  | cons a l ih =>
    have hassoc : (x >>= (a :: l).foldlM step) = (x >>= (step · a)) >>= l.foldlM step := by
      rw [bind_assoc]
      rfl
    rw [hassoc, ih, toOption_bind, List.foldl_cons]

/-- Where any two steps can be made in either order, so can all. -/
theorem toOption_foldlM_perm {l l' : List α} (hperm : l.Perm l')
    (hcomm : ∀ a ∈ l, ∀ a' ∈ l, a ≠ a' → ∀ b,
      (step b a >>= (step · a')).toOption = (step b a' >>= (step · a)).toOption) (b : β) :
    (l.foldlM step b).toOption = (l'.foldlM step b).toOption := by
  have hfold (l : List α) : (l.foldlM step b).toOption =
      l.foldl (fun r a => r.bind fun b => (step b a).toOption) (some b) :=
    toOption_bind_foldlM l (.ok b)
  rw [hfold, hfold]
  -- From what has failed every step fails, so that only steps from what is there have to commute.
  refine hperm.foldl_eq' (fun a ha a' ha' r => ?_) _
  by_cases heq : a = a'
  · rw [heq]
  cases r with
  | none => rfl
  | some b =>
    have h := hcomm a ha a' ha' heq b
    rw [toOption_bind, toOption_bind] at h
    exact h

end Steps

end BuildStepper
