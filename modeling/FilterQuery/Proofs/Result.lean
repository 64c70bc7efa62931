/-!
# Results

How a chain of results goes on, when it is a success, and what becomes of its error.
-/

namespace FilterQuery

variable {ε α β : Type}

/-! ## Chains -/

@[simp, grind =]
theorem ok_bind (a : α) (f : α → Except ε β) : (Except.ok a >>= f) = f a :=
  rfl

@[simp, grind =]
theorem error_bind (e : ε) (f : α → Except ε β) : (Except.error e >>= f) = .error e :=
  rfl

@[simp, grind =]
theorem pure_eq_ok (a : α) : (pure a : Except ε α) = .ok a :=
  rfl

@[simp, grind =]
theorem throw_eq_error (e : ε) : (throw e : Except ε α) = .error e :=
  rfl

@[simp, grind =]
theorem bind_ok (a : α) (f : α → Except ε β) : (Except.ok a).bind f = f a :=
  rfl

@[simp, grind =]
theorem bind_error (e : ε) (f : α → Except ε β) : (Except.error e).bind f = .error e :=
  rfl

@[simp, grind =]
theorem map_ok (f : α → β) (a : α) : (Except.ok a : Except ε α).map f = .ok (f a) :=
  rfl

@[simp, grind =]
theorem map_error (f : α → β) (e : ε) : (Except.error e : Except ε α).map f = .error e :=
  rfl

@[simp, grind =]
theorem toOption_ok (a : α) : (Except.ok a : Except ε α).toOption = some a :=
  rfl

@[simp, grind =]
theorem toOption_error (e : ε) : (Except.error e : Except ε α).toOption = none :=
  rfl

/-! ## Successes -/

@[simp, grind =]
theorem bind_eq_ok_iff {x : Except ε α} {f : α → Except ε β} {b : β} :
    (x >>= f) = .ok b ↔ ∃ a, x = .ok a ∧ f a = .ok b := by
  cases x <;> simp

@[simp, grind =]
theorem bind_eq_error_iff {x : Except ε α} {f : α → Except ε β} {e : ε} :
    (x >>= f) = .error e ↔ x = .error e ∨ ∃ a, x = .ok a ∧ f a = .error e := by
  cases x <;> simp

@[grind =]
theorem map_eq_ok_iff {x : Except ε α} {f : α → β} {b : β} :
    x.map f = .ok b ↔ ∃ a, x = .ok a ∧ f a = b := by
  cases x <;> simp

@[simp]
theorem exists_map_eq_ok_iff {x : Except ε α} {f : α → β} :
    (∃ b, x.map f = .ok b) ↔ ∃ a, x = .ok a := by
  cases x <;> simp

@[simp, grind =]
theorem toOption_eq_some_iff {x : Except ε α} {a : α} : x.toOption = some a ↔ x = .ok a := by
  cases x <;> simp

/-! ## Errors under another name -/

variable {ε' : Type} (f : ε → ε')

@[simp, grind =]
theorem mapError_ok (a : α) : (Except.ok a : Except ε α).mapError f = .ok a :=
  rfl

@[simp, grind =]
theorem mapError_error (e : ε) : (Except.error e : Except ε α).mapError f = .error (f e) :=
  rfl

@[simp, grind =]
theorem mapError_eq_ok_iff {x : Except ε α} {a : α} : x.mapError f = .ok a ↔ x = .ok a := by
  cases x <;> simp

theorem exists_mapError_eq_ok_iff {x : Except ε α} :
    (∃ a, x.mapError f = .ok a) ↔ ∃ a, x = .ok a := by
  simp

@[simp, grind =]
theorem toOption_mapError (x : Except ε α) : (x.mapError f).toOption = x.toOption := by
  cases x <;> rfl

end FilterQuery
