import GeniusNew.Transition.Run

/-! # Simulation

A system simulates another when each of its steps is matched by one step of the other
or is silent. What its runs show is then a run of the other system.
-/

namespace Transition

variable {State Label Abstract Image : Type*}

/-- The steps that are allowed and have an image are matched; those without one leave
the related state. -/
structure Simulates (step : State → Label → Option State)
    (spec : Abstract → Image → Option Abstract) (image : Label → Option Image)
    (Allowed : Label → Prop) (Related : State → Abstract → Prop) : Prop where
  matched : ∀ state label next shown abstract, Allowed label → image label = some shown →
    Related state abstract → step state label = some next →
      ∃ after, spec abstract shown = some after ∧ Related next after
  silent : ∀ state label next abstract, Allowed label → image label = none →
    Related state abstract → step state label = some next → Related next abstract

variable {step : State → Label → Option State} {spec : Abstract → Image → Option Abstract}
  {image : Label → Option Image} {Allowed : Label → Prop} {Related : State → Abstract → Prop}

/-- What a run shows is a run of the other system. -/
theorem Simulates.run (simulates : Simulates step spec image Allowed Related) {start finish : State}
    {first : Abstract} {labels : List Label} (allowed : ∀ label ∈ labels, Allowed label)
    (related : Related start first) (ran : run step start labels = some finish) :
    ∃ last, Transition.run spec first (labels.filterMap image) = some last ∧
      Related finish last := by
  induction labels generalizing start first with
  | nil =>
      obtain rfl : start = finish := Option.some.inj ran
      exact ⟨first, rfl, related⟩
  | cons label labels ih =>
      obtain ⟨next, stepped, rest⟩ := (run_cons step).mp ran
      obtain ⟨here, later⟩ := List.forall_mem_cons.mp allowed
      cases shown : image label with
      | none =>
          rw [List.filterMap_cons_none shown]
          exact ih later (simulates.silent start label next first here shown related stepped) rest
      | some seen =>
          obtain ⟨after, moved, kept⟩ :=
            simulates.matched start label next seen first here shown related stepped
          obtain ⟨last, others, ends⟩ := ih later kept rest
          rw [List.filterMap_cons_some shown]
          exact ⟨last, (run_cons spec).mpr ⟨after, moved, others⟩, ends⟩

end Transition
