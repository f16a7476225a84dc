/-!
# Computations that may fail

How a computation in several steps comes to a result: every step has one. What a step fails with is
of no account where only success matters; `toOption` forgets it.

* `bind_eq_ok_iff` and `map_eq_ok_iff` take a computation apart at its first step.
* `bind_ne_error` and `map_ne_error`: no step fails in a way, and so the computation does not.
* `toOption_bind_congr`: steps that agree but for their failures lead to results that do so too.
-/

namespace ShardRouting

variable {ε α β : Type}

/-- A computation succeeds exactly where its first step does and the rest does on what it gave. -/
theorem bind_eq_ok_iff {x : Except ε α} {f : α → Except ε β} {b : β} :
    x >>= f = .ok b ↔ ∃ a, x = .ok a ∧ f a = .ok b := by
  cases x with
  | error e => exact ⟨nofun, fun ⟨_, h, _⟩ => nomatch h⟩
  | ok a => exact ⟨fun h => ⟨a, rfl, h⟩, fun ⟨_, ha, h⟩ => by cases ha; exact h⟩

/-- A result that is passed through a function was there before. -/
theorem map_eq_ok_iff {x : Except ε α} {f : α → β} {b : β} :
    f <$> x = .ok b ↔ ∃ a, x = .ok a ∧ f a = b := by
  cases x with
  | error e => exact ⟨nofun, fun ⟨_, h, _⟩ => nomatch h⟩
  | ok a =>
    exact ⟨fun h => ⟨a, rfl, by injection h⟩, fun ⟨_, ha, h⟩ => by cases ha; exact congrArg _ h⟩

/-- A computation does not fail in a way in which neither its first step nor the rest of it does. -/
theorem bind_ne_error {x : Except ε α} {f : α → Except ε β} {fault : ε} (hx : x ≠ .error fault)
    (hf : ∀ a, x = .ok a → f a ≠ .error fault) : x >>= f ≠ .error fault := by
  cases x with
  | error e =>
    intro h
    injection h with h
    exact hx (congrArg _ h)
  | ok a => exact hf a rfl

/-- Passing a result through a function does not fail by itself. -/
theorem map_ne_error {x : Except ε α} {f : α → β} {fault : ε} (hx : x ≠ .error fault) :
    f <$> x ≠ .error fault := by
  cases x with
  | error e =>
    intro h
    injection h with h
    exact hx (congrArg _ h)
  | ok a => exact nofun

/-- Forgetting the failure leaves a result exactly where there is one. -/
theorem toOption_eq_some_iff {x : Except ε α} {a : α} : x.toOption = some a ↔ x = .ok a := by
  cases x <;> simp [Except.toOption]

/-- Steps that agree up to failures lead to results that agree up to failures. -/
theorem toOption_bind_congr {x y : Except ε α} {f g : α → Except ε β}
    (hxy : x.toOption = y.toOption) (hfg : ∀ a, x = .ok a → (f a).toOption = (g a).toOption) :
    (x >>= f).toOption = (y >>= g).toOption := by
  cases x with
  | error e =>
    cases y with
    | error e' => rfl
    | ok b => simp [Except.toOption] at hxy
  | ok a =>
    cases y with
    | error e' => simp [Except.toOption] at hxy
    | ok b =>
      obtain rfl : a = b := by simpa [Except.toOption] using hxy
      exact hfg a rfl

end ShardRouting
