import Mathlib.Data.List.Basic

/-!
# Labelled runs of a transition relation

`Trace R s₀ as s`: the relation `R` leads from `s₀` to `s` through the labels `as`, oldest
first. An invariant may speak of the labels seen so far, which is what histories (the
transactions committed, the moves applied) need; `Trace.invariant` is the one induction every
safety theorem over runs goes through.
-/

variable {σ α : Type _}

/-- A finite run of `R` from `s₀`, newest step last. -/
inductive Trace (R : σ → α → σ → Prop) (s₀ : σ) : List α → σ → Prop where
  | nil : Trace R s₀ [] s₀
  | snoc {as : List α} {s s' : σ} {a : α}
      (run : Trace R s₀ as s) (step : R s a s') : Trace R s₀ (as ++ [a]) s'

namespace Trace

variable {R : σ → α → σ → Prop} {s₀ s s' : σ} {as : List α} {a : α}

/-- What holds at the start and is kept by every step holds at the end of every run. -/
theorem invariant (Inv : List α → σ → Prop) (hinit : Inv [] s₀)
    (hstep : ∀ as s a s', Inv as s → R s a s' → Inv (as ++ [a]) s')
    (h : Trace R s₀ as s) : Inv as s := by
  induction h with
  | nil => exact hinit
  | snoc _ step ih => exact hstep _ _ _ _ ih step

/-- One step is a run. -/
theorem single (step : R s₀ a s) : Trace R s₀ [a] s := .snoc .nil step

/-- A run of stricter steps is a run. -/
theorem mono {Q : σ → α → σ → Prop} (hle : ∀ s a s', R s a s' → Q s a s')
    (h : Trace R s₀ as s) : Trace Q s₀ as s := by
  induction h with
  | nil => exact .nil
  | snoc _ step ih => exact .snoc ih (hle _ _ _ step)

end Trace
