import Mathlib.Data.List.Count
import GeniusNew.Transition.Run

/-! # Steps that happen once

Where a kind of step brings a property about that every step preserves, and the kind
is not enabled where the property holds, no run takes two steps of the kind.
-/

namespace Transition

variable {State Label : Type*}

/-- A kind of step that closes a door behind itself, in the states of an invariant. -/
structure Closes (step : State → Label → Option State) (Invariant : State → Prop)
    (kind : Label → Bool) (Closed : State → Prop) : Prop where
  kept : ∀ state label next, Invariant state → step state label = some next → Invariant next
  brought : ∀ state label next, Invariant state → kind label = true →
    step state label = some next → Closed next
  preserved : ∀ state label next, Invariant state → Closed state →
    step state label = some next → Closed next
  disabled : ∀ state label next, Invariant state → kind label = true →
    step state label = some next → ¬ Closed state

variable {step : State → Label → Option State} {Invariant Closed : State → Prop}
  {kind : Label → Bool} {start finish : State} {labels : List Label}

theorem Closes.none (closes : Closes step Invariant kind Closed) (holds : Invariant start)
    (closed : Closed start) (ran : run step start labels = some finish) :
    labels.countP kind = 0 := by
  induction labels generalizing start with
  | nil => rfl
  | cons label labels ih =>
      obtain ⟨next, stepped, rest⟩ := (run_cons step).mp ran
      have other : kind label ≠ true := fun same =>
        closes.disabled start label next holds same stepped closed
      rw [List.countP_cons_of_neg other]
      exact ih (closes.kept start label next holds stepped)
        (closes.preserved start label next holds closed stepped) rest

/-- A run takes at most one step of such a kind. -/
theorem Closes.once (closes : Closes step Invariant kind Closed) (holds : Invariant start)
    (ran : run step start labels = some finish) : labels.countP kind ≤ 1 := by
  induction labels generalizing start with
  | nil => exact Nat.zero_le 1
  | cons label labels ih =>
      obtain ⟨next, stepped, rest⟩ := (run_cons step).mp ran
      have after := closes.kept start label next holds stepped
      by_cases same : kind label = true
      · rw [List.countP_cons_of_pos same,
          closes.none after (closes.brought start label next holds same stepped) rest]
      · rw [List.countP_cons_of_neg same]
        exact ih after rest

end Transition
