import Mathlib.Logic.Basic

/-! # Programs that change a state and may raise

A program returns a value or raises an error, and either way leaves a state
behind. `Ensures before program after raised` is its triple: from a state in
`before` it returns into `after` or raises into `raised`. A part of a program is
cited by its triple, through the rules for sequence, choice and change of state.
-/

/-- A program over the state `σ` that returns an `α` or raises an `ε`. -/
abbrev Raising (σ ε α : Type) := ExceptT ε (StateM σ) α

namespace Raising

variable {σ ε α β : Type}

/-- The result of a program started in a state, and the state it leaves. -/
def perform (program : Raising σ ε α) (state : σ) : Except ε α × σ := program state

/-- The program that a state transformer with a result is. -/
def ofStep (step : σ → Except ε α × σ) : Raising σ ε α := step

/-- Raise what the outcome raises, without touching the state. -/
def ofExcept (outcome : Except ε α) : Raising σ ε α := ofStep fun state => (outcome, state)

@[simp] theorem perform_ofStep (step : σ → Except ε α × σ) (state : σ) :
    perform (ofStep step) state = step state := rfl

@[simp] theorem perform_ofExcept (outcome : Except ε α) (state : σ) :
    perform (ofExcept outcome) state = (outcome, state) := rfl

@[simp] theorem perform_pure (value : α) (state : σ) :
    perform (pure value : Raising σ ε α) state = (.ok value, state) := rfl

@[simp] theorem perform_throw (error : ε) (state : σ) :
    perform (throw error : Raising σ ε α) state = (.error error, state) := rfl

@[simp] theorem perform_get (state : σ) :
    perform (get : Raising σ ε σ) state = (.ok state, state) := rfl

@[simp] theorem perform_modify (change : σ → σ) (state : σ) :
    perform (modify change : Raising σ ε PUnit) state = (.ok ⟨⟩, change state) := rfl

theorem perform_bind (program : Raising σ ε α) (next : α → Raising σ ε β) (state : σ) :
    perform (program >>= next) state =
      match perform program state with
      | (.ok value, middle) => perform (next value) middle
      | (.error error, middle) => (.error error, middle) := by
  cases reached : perform program state with
  | mk outcome middle =>
      have unfolded : perform (program >>= next) state =
          ExceptT.bindCont next (perform program state).1 (perform program state).2 := rfl
      rw [unfolded, reached]
      cases outcome <;> rfl

theorem perform_bind_ok {program : Raising σ ε α} {next : α → Raising σ ε β} {state middle : σ}
    {value : α} (first : perform program state = (.ok value, middle)) :
    perform (program >>= next) state = perform (next value) middle := by
  rw [perform_bind, first]

theorem perform_bind_error {program : Raising σ ε α} {next : α → Raising σ ε β} {state middle : σ}
    {error : ε} (first : perform program state = (.error error, middle)) :
    perform (program >>= next) state = (.error error, middle) := by
  rw [perform_bind, first]

/-- Started in `before`, the program returns into `after` or raises into `raised`. -/
structure Ensures (before : σ → Prop) (program : Raising σ ε α) (after : α → σ → Prop)
    (raised : ε → σ → Prop) : Prop where
  returns : ∀ {state finish value}, before state → perform program state = (.ok value, finish) →
    after value finish
  raises : ∀ {state finish error}, before state →
    perform program state = (.error error, finish) → raised error finish

namespace Ensures

variable {before : σ → Prop} {program : Raising σ ε α} {after : α → σ → Prop}
  {raised : ε → σ → Prop}

theorem pure {value : α} (holds : ∀ state, before state → after value state) :
    Ensures before (Pure.pure value) after raised where
  returns started ended := by
    cases ended
    exact holds _ started
  raises _ ended := by cases ended

theorem throw {error : ε} (holds : ∀ state, before state → raised error state) :
    Ensures before (MonadExcept.throw error : Raising σ ε α) after raised where
  returns _ ended := by cases ended
  raises started ended := by
    cases ended
    exact holds _ started

theorem ofExcept {outcome : Except ε α}
    (ok : ∀ value state, outcome = .ok value → before state → after value state)
    (error : ∀ problem state, outcome = .error problem → before state → raised problem state) :
    Ensures before (Raising.ofExcept outcome) after raised where
  returns started ended := by
    cases ended
    exact ok _ _ rfl started
  raises started ended := by
    cases ended
    exact error _ _ rfl started

theorem modify {change : σ → σ} {after : PUnit → σ → Prop}
    (holds : ∀ state, before state → after ⟨⟩ (change state)) :
    Ensures before (MonadStateOf.modifyGet fun state => (PUnit.unit, change state) : Raising σ ε PUnit) after raised where
  returns started ended := by
    cases ended
    exact holds _ started
  raises _ ended := by cases ended

/-- A triple may be shown for one starting state at a time. -/
theorem each (each : ∀ start, before start → Ensures (· = start) program after raised) :
    Ensures before program after raised where
  returns started ended := (each _ started).returns rfl ended
  raises started ended := (each _ started).raises rfl ended

/-- The rule of sequence. -/
theorem bind {next : α → Raising σ ε β} {middle : α → σ → Prop} {after : β → σ → Prop}
    (first : Ensures before program middle raised)
    (rest : ∀ value, Ensures (middle value) (next value) after raised) :
    Ensures before (program >>= next) after raised where
  returns {state finish result} started ended := by
    cases reached : perform program state with
    | mk outcome between =>
        cases outcome with
        | ok value =>
            rw [perform_bind_ok reached] at ended
            exact (rest value).returns (first.returns started reached) ended
        | error error =>
            rw [perform_bind_error reached] at ended
            cases ended
  raises {state finish problem} started ended := by
    cases reached : perform program state with
    | mk outcome between =>
        cases outcome with
        | ok value =>
            rw [perform_bind_ok reached] at ended
            exact (rest value).raises (first.returns started reached) ended
        | error error =>
            rw [perform_bind_error reached] at ended
            cases ended
            exact first.raises started reached

/-- What an outcome computes is known to the rest. -/
theorem ofExcept_bind {outcome : Except ε α} {next : α → Raising σ ε β} {after : β → σ → Prop}
    (failed : ∀ problem state, outcome = .error problem → before state → raised problem state)
    (rest : ∀ value, outcome = .ok value → Ensures before (next value) after raised) :
    Ensures before (Raising.ofExcept outcome >>= next) after raised := by
  cases known : outcome with
  | error problem =>
      refine ⟨fun _ ended => (nomatch ended), fun started ended => ?_⟩
      cases ended
      exact failed _ _ known started
  | ok value => exact ⟨(rest value known).returns, (rest value known).raises⟩

/-- Reading the state leaves what is known of it. -/
theorem get_bind {next : σ → Raising σ ε β} {after : β → σ → Prop}
    (rest : ∀ seen, Ensures before (next seen) after raised) :
    Ensures before (MonadState.get >>= next) after raised where
  returns started ended := (rest _).returns started ended
  raises started ended := (rest _).raises started ended

/-- The rule of choice. -/
theorem ite {condition : Prop} [Decidable condition] {other : Raising σ ε α}
    (yes : condition → Ensures before program after raised)
    (no : ¬condition → Ensures before other after raised) :
    Ensures before (if condition then program else other) after raised := by
  by_cases holds : condition
  · rw [if_pos holds]
    exact yes holds
  · rw [if_neg holds]
    exact no holds

/-- The rule of consequence. -/
theorem weaken {before' : σ → Prop} {after' : α → σ → Prop} {raised' : ε → σ → Prop}
    (ensures : Ensures before program after raised) (start : ∀ state, before' state → before state)
    (ok : ∀ value state, after value state → after' value state)
    (error : ∀ problem state, raised problem state → raised' problem state) :
    Ensures before' program after' raised' where
  returns started ended := ok _ _ (ensures.returns (start _ started) ended)
  raises started ended := error _ _ (ensures.raises (start _ started) ended)

end Ensures

end Raising
