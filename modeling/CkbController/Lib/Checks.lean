import Mathlib.Logic.Basic

/-!
# Sequences of checks

A validator is a sequence of early returns: `if bad { return Err(e) }`, a fallible call with
`?`, an `ok_or`. In `Except` these are `rejectIf`, `>>=` and `okOr`. The lemmas below say when
each one succeeds, so that "the validator returned `Ok`" unfolds into the conjunction of the
facts it checked, and back.
-/

namespace Checks

variable {ε α β : Type _}

/-- `if c { return Err(e) }`. -/
def rejectIf (c : Prop) [Decidable c] (e : ε) : Except ε Unit :=
  if c then .error e else .ok ()

/-- `o.ok_or(e)?`. -/
def okOr (o : Option α) (e : ε) : Except ε α :=
  match o with
  | some a => .ok a
  | none => .error e

/-- A check passes exactly when its condition does not hold. -/
@[simp] theorem rejectIf_eq_ok {c : Prop} [Decidable c] {e : ε} {u : Unit} :
    rejectIf c e = .ok u ↔ ¬ c := by
  unfold rejectIf
  split <;> simp_all

theorem rejectIf_neg {c : Prop} [Decidable c] {e : ε} (h : ¬ c) : rejectIf c e = .ok () :=
  if_neg h

/-- A value comes through `ok_or` exactly when it is there. -/
@[simp] theorem okOr_eq_ok {o : Option α} {e : ε} {a : α} : okOr o e = .ok a ↔ o = some a := by
  cases o <;> simp [okOr]

/-- `x.map_err(f)?`. -/
@[simp] theorem mapError_eq_ok {ε' : Type _} {f : ε → ε'} {x : Except ε α} {a : α} :
    x.mapError f = .ok a ↔ x = .ok a := by
  cases x with
  | error e =>
    show (Except.error (f e) : Except ε' α) = .ok a ↔ _
    simp
  | ok b =>
    show (Except.ok b : Except ε' α) = .ok a ↔ _
    simp

theorem mapError_ok {ε' : Type _} (f : ε → ε') (a : α) :
    (Except.ok a : Except ε α).mapError f = .ok a := rfl

theorem mapError_error {ε' : Type _} (f : ε → ε') (e : ε) :
    (Except.error e : Except ε α).mapError f = .error (f e) := rfl

/-- A computation is evaluated for whether it succeeds; there is one way to. -/
theorem eq_ok_of_isOk {x : Except ε Unit} (h : x.isOk = true) : x = .ok () := by
  cases x with
  | error e => cases h
  | ok u => rfl

/-- What `ok()` keeps was the value. -/
theorem eq_ok_of_toOption {x : Except ε α} {a : α} (h : x.toOption = some a) : x = .ok a := by
  cases x with
  | error e => cases h
  | ok b => exact congrArg Except.ok (Option.some.inj h)

/-- A sequence succeeds exactly when its first part does and the rest does on its value. -/
theorem bind_eq_ok {x : Except ε α} {f : α → Except ε β} {b : β} :
    x >>= f = .ok b ↔ ∃ a, x = .ok a ∧ f a = .ok b := by
  cases x <;> simp [bind, Except.bind]

/-- A sequence fails where its first part does, or where the rest does on its value. -/
theorem bind_eq_error {x : Except ε α} {f : α → Except ε β} {e : ε} :
    x >>= f = .error e ↔ x = .error e ∨ ∃ a, x = .ok a ∧ f a = .error e := by
  cases x <;> simp [bind, Except.bind]

/-- `ok_or` fails for one reason, with its own error. -/
theorem okOr_eq_error {o : Option α} {e e' : ε} : okOr o e = .error e' ↔ o = none ∧ e = e' := by
  cases o <;> simp [okOr]

theorem ok_bind (a : α) (f : α → Except ε β) : (Except.ok a >>= f) = f a := rfl

/-- A check and what follows it: either the check fails, or it passes and the rest fails. -/
theorem rejectIf_bind_eq_error {c : Prop} [Decidable c] {e e' : ε} {f : Unit → Except ε β} :
    rejectIf c e >>= f = .error e' ↔ c ∧ e = e' ∨ ¬ c ∧ f () = .error e' := by
  by_cases hc : c
  · rw [rejectIf, if_pos hc]
    simp [hc, bind, Except.bind]
  · rw [rejectIf_neg hc, ok_bind]
    simp [hc]

/-- A check and what follows it: the check passes and the rest succeeds. -/
theorem rejectIf_bind_eq_ok {c : Prop} [Decidable c] {e : ε} {f : Unit → Except ε β} {b : β} :
    rejectIf c e >>= f = .ok b ↔ ¬ c ∧ f () = .ok b := by
  constructor
  · intro h
    obtain ⟨⟨⟩, hc, hf⟩ := bind_eq_ok.mp h
    exact ⟨rejectIf_eq_ok.mp hc, hf⟩
  · rintro ⟨hc, hf⟩
    rw [rejectIf_neg hc, ok_bind]
    exact hf

/-! ## Two computations compared -/

/-- Both fail alike, or both succeed with related values. -/
inductive Agree {ε β : Type _} (E : β → β → Prop) : Except ε β → Except ε β → Prop where
  | error (e : ε) : Agree E (.error e) (.error e)
  | ok {a b : β} (h : E a b) : Agree E (.ok a) (.ok b)

/-- The two ways to agree, for a case split. -/
theorem Agree.cases {ε β : Type _} {E : β → β → Prop} {x y : Except ε β} (h : Agree E x y) :
    (∃ e, x = .error e ∧ y = .error e) ∨ ∃ a b, x = .ok a ∧ y = .ok b ∧ E a b := by
  cases h with
  | error e => exact Or.inl ⟨e, rfl, rfl⟩
  | ok hab => exact Or.inr ⟨_, _, rfl, rfl, hab⟩

/-- Computations that agree are continued alike by steps that agree on related values. -/
theorem Agree.bind {ε β γ : Type _} {E : β → β → Prop} {F : γ → γ → Prop} {x y : Except ε β}
    {f g : β → Except ε γ} (h : Agree E x y) (hfg : ∀ a b, E a b → Agree F (f a) (g b)) :
    Agree F (x >>= f) (y >>= g) := by
  cases h with
  | error e => exact .error e
  | ok hab => exact hfg _ _ hab

/-- What agrees still agrees when the errors are forgotten. -/
theorem Agree.toOption {ε β : Type _} {E : β → β → Prop} {x y : Except ε β} (h : Agree E x y) :
    Option.Rel E x.toOption y.toOption := by
  cases h with
  | error e => exact .none
  | ok hab => exact .some hab

end Checks
