import Mathlib.Data.List.Infix
import Mathlib.Logic.Relation

/-! # Runs of a transition system

A system is a partial step function: `step state label` is the state after the
labelled step, absent when the step is not enabled. A run is a list of labels,
and the states a run passes are the ends of its initial segments.
-/

namespace Transition

variable {State Label : Type*} (step : State → Label → Option State)

/-- The state a run ends in. -/
def run (start : State) : List Label → Option State
  | [] => some start
  | label :: labels => (step start label).bind fun next => run next labels

@[simp] theorem run_nil (start : State) : run step start [] = some start := rfl

theorem run_cons {start finish : State} {label : Label} {labels : List Label} :
    run step start (label :: labels) = some finish ↔
      ∃ next, step start label = some next ∧ run step next labels = some finish := by
  simp [run, Option.bind_eq_some_iff]

theorem run_append {start finish : State} {first second : List Label} :
    run step start (first ++ second) = some finish ↔
      ∃ middle, run step start first = some middle ∧ run step middle second = some finish := by
  induction first generalizing start with
  | nil => simp
  | cons label first ih =>
      simp only [List.cons_append, run_cons, ih]
      constructor
      · rintro ⟨next, stepped, middle, before, after⟩
        exact ⟨middle, ⟨next, stepped, before⟩, after⟩
      · rintro ⟨middle, ⟨next, stepped, before⟩, after⟩
        exact ⟨next, stepped, middle, before, after⟩

theorem run_append_singleton {start finish : State} {labels : List Label} {label : Label} :
    run step start (labels ++ [label]) = some finish ↔
      ∃ middle, run step start labels = some middle ∧ step middle label = some finish := by
  simp [run_append, run_cons]

variable {step}

/-- A property of states that every step of a run preserves holds at its end.
What may be assumed of a label is that it belongs to the run. -/
theorem run_invariant (Invariant : State → Prop) {start finish : State} {labels : List Label}
    (preserved : ∀ state label next, label ∈ labels → Invariant state →
      step state label = some next → Invariant next)
    (initial : Invariant start) (ran : run step start labels = some finish) :
    Invariant finish := by
  induction labels generalizing start with
  | nil =>
      obtain rfl : start = finish := Option.some.inj ran
      exact initial
  | cons label labels ih =>
      obtain ⟨next, stepped, rest⟩ := (run_cons step).mp ran
      refine ih (fun state other after member => ?_)
        (preserved start label next List.mem_cons_self initial stepped) rest
      exact preserved state other after (List.mem_cons_of_mem _ member)

/-- What a run changes, one of its steps changes. -/
theorem exists_change {Shown : Type*} (shown : State → Shown) {start finish : State}
    {labels : List Label} (ran : run step start labels = some finish)
    (changed : shown finish ≠ shown start) :
    ∃ before label state next, before ++ [label] <+: labels ∧
      run step start before = some state ∧ step state label = some next ∧
      shown next ≠ shown state := by
  induction labels generalizing start with
  | nil =>
      obtain rfl : start = finish := Option.some.inj ran
      exact absurd rfl changed
  | cons label labels ih =>
      obtain ⟨next, stepped, rest⟩ := (run_cons step).mp ran
      by_cases kept : shown next = shown start
      · obtain ⟨before, other, state, after, within, reached, moved, differs⟩ :=
          ih rest (kept ▸ changed)
        refine ⟨label :: before, other, state, after, ?_, ?_, moved, differs⟩
        · exact List.prefix_cons_inj label |>.mpr within
        · exact (run_cons step).mpr ⟨next, stepped, reached⟩
      · exact ⟨[], label, start, next, ⟨labels, rfl⟩, rfl, stepped, kept⟩

variable (step) in
/-- Every label of a run is allowed in the state it is taken in. -/
def Along (Allowed : State → Label → Prop) (start : State) (labels : List Label) : Prop :=
  ∀ first label rest state, labels = first ++ label :: rest → run step start first = some state →
    Allowed state label

theorem along_nil {Allowed : State → Label → Prop} {start : State} :
    Along step Allowed start [] := by
  intro first label rest state split
  exact absurd split (List.append_ne_nil_of_right_ne_nil first (List.cons_ne_nil _ _)).symm

theorem along_cons {Allowed : State → Label → Prop} {start next : State} {label : Label}
    {labels : List Label} (allowed : Allowed start label) (stepped : step start label = some next)
    (along : Along step Allowed next labels) : Along step Allowed start (label :: labels) := by
  intro first other rest state split reached
  cases first with
  | nil =>
      obtain ⟨rfl, _⟩ := List.cons.inj split
      obtain rfl : start = state := Option.some.inj reached
      exact allowed
  | cons head first =>
      obtain ⟨rfl, tail⟩ := List.cons.inj split
      obtain ⟨after, moved, reached⟩ := (run_cons step).mp reached
      obtain rfl : next = after := Option.some.inj (stepped.symm.trans moved)
      exact along first other rest state tail reached

theorem Along.append {Allowed : State → Label → Prop} {start middle : State}
    {first second : List Label} (along : Along step Allowed start first)
    (ran : run step start first = some middle) (after : Along step Allowed middle second) :
    Along step Allowed start (first ++ second) := by
  induction first generalizing start with
  | nil =>
      obtain rfl : start = middle := Option.some.inj ran
      exact after
  | cons label first ih =>
      obtain ⟨next, stepped, rest⟩ := (run_cons step).mp ran
      refine along_cons (along [] label first start rfl rfl) stepped (ih ?_ rest)
      intro earlier other later state split reached
      refine along (label :: earlier) other later state ?_ ?_
      · rw [split, List.cons_append]
      · exact (run_cons step).mpr ⟨next, stepped, reached⟩

/-- An invariant of the steps that are allowed holds at the end of every run
along them. -/
theorem run_invariant_along (Invariant : State → Prop) {Allowed : State → Label → Prop}
    {start finish : State} {labels : List Label}
    (preserved : ∀ state label next, Allowed state label → Invariant state →
      step state label = some next → Invariant next)
    (initial : Invariant start) (along : Along step Allowed start labels)
    (ran : run step start labels = some finish) : Invariant finish := by
  induction labels using List.reverseRecOn generalizing finish with
  | nil =>
      obtain rfl : start = finish := Option.some.inj ran
      exact initial
  | append_singleton labels label ih =>
      obtain ⟨middle, before, stepped⟩ := (run_append_singleton step).mp ran
      refine preserved middle label finish (along labels label [] middle rfl before) ?_ stepped
      refine ih (fun first other rest state split reached => ?_) before
      refine along first other (rest ++ [label]) state ?_ reached
      rw [split, List.append_assoc, List.cons_append]

/-- The steps before one of a run are a run along what is allowed. -/
theorem Along.of_append {Allowed : State → Label → Prop} {start : State}
    {first second : List Label} (along : Along step Allowed start (first ++ second)) :
    Along step Allowed start first := by
  intro initial label rest state split reached
  refine along initial label (rest ++ second) state ?_ reached
  rw [split, List.append_assoc, List.cons_append]

end Transition
