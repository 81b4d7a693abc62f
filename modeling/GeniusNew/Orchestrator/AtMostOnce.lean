import GeniusNew.Approvals.Admission
import GeniusNew.Orchestrator.Dispatch

/-! # At most one execution

A job id enters the ledger once and is committed once, whatever the callbacks do.
Which call committed it is what ties an execution to it: a call enters the worker
only after its own commit, and no two calls commit the same id. `State.Orderly`
says this of a state, and every step whose callbacks keep to what they are for
preserves it.
-/

namespace GeniusNew

open Json Transition

namespace Orchestrator

namespace Ledger

variable {ledger after : Ledger} {jobId other : Str}

/-- The only ways the state of one job can change. -/
inductive Moves : Option JobState → Option JobState → Prop
  | stays (state : Option JobState) : Moves state state
  | reserves : Moves none (some .reserved)
  | commits : Moves (some .reserved) (some .executionCommitted)

theorem Moves.committed {before after : Option JobState} (moves : Moves before after)
    (committed : before = some .executionCommitted) : after = some .executionCommitted := by
  cases moves with
  | stays => exact committed
  | reserves => cases committed
  | commits => cases committed

/-- A ledger after another: every job moved forward, and no more jobs than fit. -/
structure Advances (before after : Ledger) : Prop where
  moves : ∀ jobId, Moves (before.lookup jobId) (after.lookup jobId)
  bounded : before.length ≤ maxJobs → after.length ≤ maxJobs

theorem Advances.refl (ledger : Ledger) : ledger.Advances ledger :=
  ⟨fun _ => .stays _, id⟩

theorem advances_reserve (ledger : Ledger) (jobId : Str) :
    ledger.Advances (ledger.reserve jobId).2 := by
  unfold reserve
  split_ifs with burned full
  · exact .refl ledger
  · exact .refl ledger
  · have free : ledger.lookup jobId = none := by 
      rwa [isBurned, Option.not_isSome_iff_eq_none] at burned
    refine ⟨fun other => ?_, fun _ => ?_⟩
    · rw [Assoc.lookup_concat free]
      by_cases same : other = jobId
      · rw [if_pos same, same, free]
        exact .reserves
      · rw [if_neg same]
        exact .stays _
    · rw [List.length_append, List.length_singleton]
      omega

theorem lookup_commitExecution (done : ledger.commitExecution jobId = some after) :
    after.lookup other =
      if other = jobId then some .executionCommitted else ledger.lookup other := by
  unfold commitExecution at done
  split_ifs at done with reserved
  obtain rfl : _ = after := Option.some.inj done
  rw [← Assoc.replace, Assoc.lookup_replace, reserved]
  rfl

theorem reserved_of_commitExecution (done : ledger.commitExecution jobId = some after) :
    ledger.lookup jobId = some .reserved := by
  unfold commitExecution at done
  split_ifs at done with reserved
  exact reserved

theorem advances_commitExecution (done : ledger.commitExecution jobId = some after) :
    ledger.Advances after := by
  refine ⟨fun other => ?_, fun bound => ?_⟩
  · rw [lookup_commitExecution done]
    by_cases same : other = jobId
    · rw [if_pos same, same, reserved_of_commitExecution done]
      exact .commits
    · rw [if_neg same]
      exact .stays _
  · unfold commitExecution at done
    split_ifs at done
    obtain rfl : _ = after := Option.some.inj done
    rw [List.length_map]
    exact bound

end Ledger

section Steps

variable {interpreter : Interpreter} {state next : State} {label : Label}

/-- What a run of `admit_and_reserve` for a job has found is about this job. -/
def Progress.Bound (jobId : Str) : Progress → Prop
  | .announcing permit => permit.handoff.jobId = jobId
  | .measuring permit reservation => permit.handoff.jobId = reservation.jobId
  | .reserving permit reservation => permit.handoff.jobId = reservation.jobId
  | .returned permit reservation => permit.handoff.jobId = reservation.jobId
  | _ => True

/-- The ways a call moves on without touching the ledger, its reservation or a
worker. The last is `atomic_dispatched` returning. -/
inductive Turn (call : Call) (label : Label) (index : Nat) : Phase → Prop
  | ends : Turn call label index .ended
  | asks (at_ : call.phase = .asking) : Turn call label index .measuring
  | measures (at_ : call.phase = .measuring) : Turn call label index .admitting
  | announces (at_ : call.phase = .announcing) : Turn call label index .entering
  | dispatches (at_ : call.phase = .committing) (by_ : label = .dispatchedReturns index) :
      Turn call label index .entering

/-- Everything a step can do. -/
inductive Effect (state : State) (label : Label) : State → Prop
  | quiet (approvals : Nat → List (Bytes × ApprovalRecord)) :
      Effect state label { state with approvals }
  | begins (config : Config) (arguments : Arguments) (endpoint : WorkerEndpoint) :
      Effect state label { state with
        calls := state.calls ++ [⟨config, arguments, endpoint, .asking, none, false⟩] }
  | turns {index : Nat} {call : Call} {phase : Phase} (found : state.calls[index]? = some call)
      (turn : Turn call label index phase) (started : List Mutation)
      (starting : ∀ mutation ∈ started, mutation.call = index ∧ mutation.progress = .starting) :
      Effect state label { state.setCall index { call with phase } with
        mutations := state.mutations ++ started }
  | holds {index : Nat} {call : Call} {permit : DispatchPermit} {reservation : Reservation}
      (found : state.calls[index]? = some call) (at_ : call.phase = .admitting)
      (given : (∃ mutation ∈ state.mutations, mutation.progress = .returned permit reservation) ∨
        label = .admittedReturns index permit reservation) :
      Effect state label (state.setCall index
        { call with phase := .committing, held := some (permit, reservation) })
  | commits {index : Nat} {call : Call} {permit : DispatchPermit} {reservation : Reservation}
      {phase : Phase} {ledger : Ledger} (found : state.calls[index]? = some call)
      (held : call.held = some (permit, reservation))
      (done : state.ledger.commitExecution reservation.jobId = some ledger)
      (moves : phase = call.phase ∨ call.phase = .committing ∧
        (phase = .announcing ∨ phase = .entering)) :
      Effect state label
        { state.setCall index { call with committed := true, phase } with ledger }
  | enters {index : Nat} {call : Call} {permit : DispatchPermit} {reservation : Reservation}
      (found : state.calls[index]? = some call) (at_ : call.phase = .entering)
      (held : call.held = some (permit, reservation)) :
      Effect state label { state.setCall index { call with phase := .running } with
        entries := ⟨index, call.endpoint, permit⟩ :: state.entries }
  | invokes {index : Nat} {call : Call} {transaction recordAdmission : Bool}
      (found : state.calls[index]? = some call) :
      Effect state label { state with
        mutations := state.mutations ++ [⟨index, transaction, recordAdmission, .starting⟩] }
  | mutates {index : Nat} {mutation : Mutation} {call : Call} {progress : Progress}
      {ledger : Ledger} (found : state.mutations[index]? = some mutation)
      (caller : state.calls[mutation.call]? = some call)
      (bound : mutation.progress.Bound call.arguments.presented.jobId →
        progress.Bound call.arguments.presented.jobId)
      (reserves : ledger = state.ledger ∨ ∃ jobId, ledger = (state.ledger.reserve jobId).2)
      (approvals : Nat → List (Bytes × ApprovalRecord)) :
      Effect state label
        { state.setMutation index { mutation with progress } with ledger, approvals }
  | abandons {index : Nat} {mutation : Mutation} (found : state.mutations[index]? = some mutation) :
      Effect state label (state.setMutation index { mutation with progress := .raised })

theorem prepared_bound {call : Call} {permit : DispatchPermit}
    (same : permit.handoff.jobId = call.arguments.presented.jobId) :
    (prepared call permit).Bound call.arguments.presented.jobId := by
  unfold prepared
  dsimp only
  split
  · next made reserved =>
      obtain ⟨digest, _, reserved⟩ := bind_eq_ok.mp reserved
      simp only [reservation, guarded_eq_ok, Except.ok.injEq] at reserved
      obtain ⟨_, _, _, _, _, _, rfl⟩ := reserved
      exact same
  · trivial

theorem admitted_bound {call : Call} {recordAdmission : Bool}
    {answer : Except GatewayRaised DispatchPermit}
    (same : ∀ permit, answer = .ok permit →
      permit.handoff.jobId = call.arguments.presented.jobId) :
    (admitted call recordAdmission answer).Bound call.arguments.presented.jobId := by
  unfold admitted
  split
  · trivial
  · next permit =>
      split_ifs
      · trivial
      · exact same permit rfl
      · exact prepared_bound (same permit rfl)

theorem mutate_cases {index : Nat} {mutation : Mutation} {call : Call}
    (found : state.mutations[index]? = some mutation)
    (caller : state.calls[mutation.call]? = some call)
    (moved : mutate interpreter state index mutation call = some next) :
    Effect state label next := by
  unfold mutate at moved
  split at moved
  case h_1 =>
    obtain rfl : _ = next := Option.some.inj moved
    refine .mutates found caller (fun _ => ?_) (.inl rfl) _
    exact admitted_bound fun permit answer => admission_jobId answer
  case h_2 permit at_ =>
    obtain rfl : _ = next := Option.some.inj moved
    refine .mutates found caller (fun bound => ?_) (.inl rfl) state.approvals
    rw [at_] at bound
    exact prepared_bound bound
  case h_3 permit reservation at_ =>
    obtain rfl : _ = next := Option.some.inj moved
    refine .mutates found caller (fun bound => ?_) (.inl rfl) state.approvals
    rw [at_] at bound
    split_ifs
    · trivial
    · exact bound
  case h_4 permit reservation at_ =>
    by_cases joined : mutation.transaction = true
    · rw [if_pos joined] at moved
      obtain rfl : _ = next := Option.some.inj moved
      refine .mutates found caller (fun _ => ?_) (.inl rfl) state.approvals
      trivial
    · rw [if_neg joined] at moved
      have kept : mutation.progress.Bound call.arguments.presented.jobId →
          Progress.Bound call.arguments.presented.jobId
            (if (state.ledger.reserve reservation.jobId).1 then .returned permit reservation
              else .refused) := by
        intro bound
        rw [at_] at bound
        split_ifs
        · exact bound
        · trivial
      obtain rfl : _ = next := Option.some.inj moved
      exact .mutates found caller kept (.inr ⟨reservation.jobId, rfl⟩) state.approvals
  case h_5 =>
    obtain rfl : _ = next := Option.some.inj moved
    refine .mutates found caller (fun _ => ?_) (.inl rfl) state.approvals
    trivial
  case h_6 => cases moved
  case h_7 => cases moved

theorem advance_cases {index : Nat} {call : Call} (found : state.calls[index]? = some call)
    (moved : advance state index call = some next) : Effect state label next := by
  have turned {phase : Phase} (turn : Turn call label index phase) :
      Effect state label (state.setCall index { call with phase }) := by
    have effect := Effect.turns found turn [] (List.forall_mem_nil _)
    rwa [List.append_nil] at effect
  unfold advance at moved
  split at moved
  case h_1 at_ =>
    obtain rfl : _ = next := Option.some.inj moved
    split_ifs
    · exact turned .ends
    · exact turned (.asks at_)
  case h_2 at_ =>
    by_cases full : state.ledger.isFull = true
    · rw [if_pos full] at moved
      obtain rfl : _ = next := Option.some.inj moved
      exact turned .ends
    · rw [if_neg full] at moved
      obtain rfl : _ = next := Option.some.inj moved
      split_ifs
      · exact turned (.measures at_)
      · refine .turns found (.measures at_) _ fun mutation member => ?_
        rw [List.mem_singleton.mp member]
        exact ⟨rfl, rfl⟩
  case h_3 at_ =>
    split_ifs at moved
    split at moved
    · next permit reservation returned =>
        obtain rfl : _ = next := Option.some.inj moved
        obtain ⟨mutation, first, progress⟩ := Option.map_eq_some_iff.mp returned
        exact .holds found at_ (.inl ⟨mutation, List.mem_of_find?_eq_some first, progress⟩)
    · obtain rfl : _ = next := Option.some.inj moved
      exact turned .ends
    · cases moved
  case h_4 at_ =>
    by_cases atomic : call.config.atomic = true
    · rw [if_pos atomic] at moved
      cases moved
    rw [if_neg atomic] at moved
    split at moved
    · cases moved
    next permit reservation held =>
      split at moved
      · obtain rfl : _ = next := Option.some.inj moved
        exact turned .ends
      · next done =>
          obtain rfl : _ = next := Option.some.inj moved
          refine .commits found held done (.inr ⟨at_, ?_⟩)
          split_ifs
          · exact .inl rfl
          · exact .inr rfl
  case h_5 at_ =>
    obtain rfl : _ = next := Option.some.inj moved
    exact turned (.announces at_)
  case h_6 at_ =>
    split at moved
    · cases moved
    · next held =>
        obtain rfl : _ = next := Option.some.inj moved
        exact .enters found at_ held
  case h_7 => cases moved
  case h_8 => cases moved

theorem step_cases (stepped : step interpreter state label = some next) :
    Effect state label next := by
  have turned {index : Nat} {call : Call} {phase : Phase}
      (found : state.calls[index]? = some call) (turn : Turn call label index phase) :
      Effect state label (state.setCall index { call with phase }) := by
    have effect := Effect.turns found turn [] (List.forall_mem_nil _)
    rwa [List.append_nil] at effect
  cases label with
  | dispatch config arguments =>
      simp only [step] at stepped
      split at stepped
      · obtain rfl : state = next := Option.some.inj stepped
        exact .quiet state.approvals
      · next endpoint _ =>
          obtain rfl : _ = next := Option.some.inj stepped
          exact .begins config arguments endpoint
  | advance index =>
      obtain ⟨call, found, moved⟩ := Option.bind_eq_some_iff.mp stepped
      exact advance_cases found moved
  | invoke index transaction recordAdmission =>
      obtain ⟨call, found, moved⟩ := Option.bind_eq_some_iff.mp stepped
      split_ifs at moved
      obtain rfl : _ = next := Option.some.inj moved
      exact .invokes found
  | mutate index =>
      obtain ⟨mutation, found, stepped⟩ := Option.bind_eq_some_iff.mp stepped
      obtain ⟨call, caller, moved⟩ := Option.bind_eq_some_iff.mp stepped
      exact mutate_cases found caller moved
  | admittedReturns index permit reservation =>
      obtain ⟨call, found, moved⟩ := Option.bind_eq_some_iff.mp stepped
      split_ifs at moved with ready
      obtain rfl : _ = next := Option.some.inj moved
      exact .holds found ready.2 (.inr rfl)
  | commit index transaction =>
      obtain ⟨call, found, stepped⟩ := Option.bind_eq_some_iff.mp stepped
      obtain ⟨⟨permit, reservation⟩, held, moved⟩ := Option.bind_eq_some_iff.mp stepped
      dsimp only at moved
      split_ifs at moved
      · obtain rfl : state = next := Option.some.inj moved
        exact .quiet state.approvals
      · split at moved
        · obtain rfl : state = next := Option.some.inj moved
          exact .quiet state.approvals
        · next done =>
            obtain rfl : _ = next := Option.some.inj moved
            exact .commits found held done (.inl rfl)
  | dispatchedReturns index =>
      obtain ⟨call, found, moved⟩ := Option.bind_eq_some_iff.mp stepped
      split_ifs at moved with ready
      obtain rfl : _ = next := Option.some.inj moved
      exact turned found (.dispatches ready.2 rfl)
  | leave index =>
      obtain ⟨call, found, moved⟩ := Option.bind_eq_some_iff.mp stepped
      obtain rfl : _ = next := Option.some.inj moved
      exact turned found .ends
  | abandon index =>
      obtain ⟨mutation, found, moved⟩ := Option.bind_eq_some_iff.mp stepped
      split at moved
      · cases moved
      · obtain rfl : _ = next := Option.some.inj moved
        exact .abandons found
  | approvals store records =>
      obtain rfl : _ = next := Option.some.inj stepped
      exact .quiet _

/-- Whatever the callbacks do, a step only moves jobs of the ledger forward. -/
theorem Effect.ledger (effect : Effect state label next) :
    state.ledger.Advances next.ledger := by
  cases effect with
  | commits _ _ done _ => exact Ledger.advances_commitExecution done
  | mutates _ _ _ reserves _ =>
      rcases reserves with rfl | ⟨jobId, rfl⟩
      · exact .refl _
      · exact Ledger.advances_reserve _ _
  | _ => exact .refl _

end Steps

section Orderly

variable {state next : State} {label : Label}

/-- The job a call has committed to execution. -/
def Call.committedJob (call : Call) : Option Str :=
  if call.committed then call.held.map fun pair => pair.2.jobId else none

/-- The call has entered its worker with this permit. -/
def Call.Entered (call : Call) (permit : DispatchPermit) : Prop :=
  (call.phase = .running ∨ call.phase = .ended) ∧ call.committed = true ∧
    ∃ reservation, call.held = some (permit, reservation)

structure Call.Orderly (ledger : Ledger) (call : Call) : Prop where
  unheld : call.phase = .asking ∨ call.phase = .measuring ∨ call.phase = .admitting →
    call.held = none
  same_job : ∀ permit reservation, call.held = some (permit, reservation) →
    permit.handoff.jobId = reservation.jobId
  committed_held : call.committed = true → call.held ≠ none
  committed_job : ∀ jobId, call.committedJob = some jobId →
    ledger.lookup jobId = some .executionCommitted
  entering_committed : call.phase = .announcing ∨ call.phase = .entering → call.committed = true

theorem Call.Orderly.advances {ledger after : Ledger} {call : Call} (orderly : call.Orderly ledger)
    (advances : ledger.Advances after) : call.Orderly after :=
  { orderly with
    committed_job := fun jobId committed =>
      (advances.moves jobId).committed (orderly.committed_job jobId committed) }

/-- What the ledger, the calls and the entries of workers have to do with each
other. -/
structure State.Orderly (state : State) : Prop where
  calls : ∀ (index : Nat) (call : Call), state.calls[index]? = some call →
    call.Orderly state.ledger
  mutations : ∀ mutation ∈ state.mutations, ∃ call, state.calls[mutation.call]? = some call ∧
    mutation.progress.Bound call.arguments.presented.jobId
  single : ∀ (first second : Nat) (one two : Call) (jobId : Str),
    state.calls[first]? = some one → state.calls[second]? = some two →
    one.committedJob = some jobId → two.committedJob = some jobId → first = second
  entries : ∀ entry ∈ state.entries, ∃ call, state.calls[entry.call]? = some call ∧
    call.Entered entry.permit
  distinct : (state.entries.map Entry.call).Nodup

theorem orderly_initial (approvals : Nat → List (Bytes × ApprovalRecord)) :
    (State.initial approvals).Orderly where
  calls := fun index call found => by cases found
  mutations := List.forall_mem_nil _
  single := fun first second one two jobId found => by cases found
  entries := List.forall_mem_nil _
  distinct := List.nodup_nil

theorem getElem?_setCall {index other : Nat} {call after found : Call}
    (here : state.calls[index]? = some call)
    (there : (state.setCall index after).calls[other]? = some found) :
    other = index ∧ found = after ∨ other ≠ index ∧ state.calls[other]? = some found := by
  rw [State.setCall, List.getElem?_set] at there
  by_cases same : index = other
  · subst same
    have inside : index < state.calls.length := (List.getElem?_eq_some_iff.mp here).1
    rw [if_pos rfl, if_pos inside] at there
    exact .inl ⟨rfl, (Option.some.inj there).symm⟩
  · rw [if_neg same] at there
    exact .inr ⟨Ne.symm same, there⟩

theorem getElem?_setCall_self {index : Nat} {call after : Call}
    (here : state.calls[index]? = some call) :
    (state.setCall index after).calls[index]? = some after := by
  have inside : index < state.calls.length := (List.getElem?_eq_some_iff.mp here).1
  rw [State.setCall, List.getElem?_set_self inside]

theorem getElem?_setCall_ne {index other : Nat} {after : Call} (differ : other ≠ index) :
    (state.setCall index after).calls[other]? = state.calls[other]? :=
  List.getElem?_set_ne (Ne.symm differ)

/-- One call is replaced by what it has become, and the ledger moved forward. -/
theorem State.Orderly.setCall {index : Nat} {call after : Call} {ledger : Ledger}
    (orderly : state.Orderly) (here : state.calls[index]? = some call)
    (advances : state.ledger.Advances ledger) (arguments : after.arguments = call.arguments)
    (good : after.Orderly ledger)
    (fresh : ∀ jobId, after.committedJob = some jobId → call.committedJob = some jobId ∨
      state.ledger.lookup jobId ≠ some .executionCommitted)
    (entered : ∀ permit, call.Entered permit → after.Entered permit) :
    State.Orderly { state.setCall index after with ledger } where
  calls := by
    intro other found there
    rcases getElem?_setCall here there with ⟨_, rfl⟩ | ⟨_, there⟩
    · exact good
    · exact (orderly.calls other found there).advances advances
  mutations := by
    intro mutation member
    obtain ⟨caller, found, bound⟩ := orderly.mutations mutation member
    by_cases same : mutation.call = index
    · refine ⟨after, by rw [same]; exact getElem?_setCall_self here, ?_⟩
      rw [same] at found
      obtain rfl : call = caller := Option.some.inj (here.symm.trans found)
      rw [arguments]
      exact bound
    · exact ⟨caller, (getElem?_setCall_ne same).trans found, bound⟩
  single := by
    intro first second one two jobId left right ones twos
    -- a job the replaced call has just committed was committed by no call before
    have only : ∀ other found, state.calls[other]? = some found →
        after.committedJob = some jobId → found.committedJob = some jobId → other = index := by
      intro other found there news olds
      rcases fresh jobId news with kept | new
      · exact orderly.single other index found call jobId there here olds kept
      · exact (new ((orderly.calls other found there).committed_job jobId olds)).elim
    rcases getElem?_setCall here left with ⟨rfl, rfl⟩ | ⟨_, found⟩
    · rcases getElem?_setCall here right with ⟨rfl, rfl⟩ | ⟨_, other⟩
      · rfl
      · exact (only second two other ones twos).symm
    · rcases getElem?_setCall here right with ⟨rfl, rfl⟩ | ⟨_, other⟩
      · exact only first one found twos ones
      · exact orderly.single first second one two jobId found other ones twos
  entries := by
    intro entry member
    obtain ⟨caller, found, inside⟩ := orderly.entries entry member
    by_cases same : entry.call = index
    · rw [same] at found
      obtain rfl : call = caller := Option.some.inj (here.symm.trans found)
      exact ⟨after, by rw [same]; exact getElem?_setCall_self here, entered _ inside⟩
    · exact ⟨caller, (getElem?_setCall_ne same).trans found, inside⟩
  distinct := orderly.distinct

/-- The runs of `admit_and_reserve` changed, and the ledger moved forward. -/
theorem State.Orderly.setMutations {mutations : List Mutation} {ledger : Ledger}
    (orderly : state.Orderly) (advances : state.ledger.Advances ledger)
    (approvals : Nat → List (Bytes × ApprovalRecord))
    (bound : ∀ mutation ∈ mutations, ∃ call, state.calls[mutation.call]? = some call ∧
      mutation.progress.Bound call.arguments.presented.jobId) :
    State.Orderly { state with ledger, approvals, mutations } :=
  { orderly with
    calls := fun index call found => (orderly.calls index call found).advances advances
    mutations := bound }

theorem Call.Orderly.turn {ledger : Ledger} {call : Call} {phase : Phase} {index : Nat}
    (orderly : call.Orderly ledger) (turn : Turn call label index phase)
    (keeps : label = .dispatchedReturns index → call.committed = true) :
    Call.Orderly ledger { call with phase } := by
  have committed_job := orderly.committed_job
  cases turn with
  | ends => exact ⟨by simp, orderly.same_job, orderly.committed_held, committed_job, by simp⟩
  | asks at_ =>
      exact ⟨fun _ => orderly.unheld (.inl at_), orderly.same_job, orderly.committed_held,
        committed_job, by simp⟩
  | measures at_ =>
      exact ⟨fun _ => orderly.unheld (.inr (.inl at_)), orderly.same_job, orderly.committed_held,
        committed_job, by simp⟩
  | announces at_ =>
      exact ⟨by simp, orderly.same_job, orderly.committed_held, committed_job,
        fun _ => orderly.entering_committed (.inl at_)⟩
  | dispatches at_ by_ =>
      exact ⟨by simp, orderly.same_job, orderly.committed_held, committed_job, fun _ => keeps by_⟩

theorem entered_turn {call : Call} {phase : Phase} {index : Nat} {permit : DispatchPermit}
    (turn : Turn call label index phase) (entered : call.Entered permit) :
    Call.Entered { call with phase } permit := by
  obtain ⟨at_, rest⟩ := entered
  cases turn with
  | ends => exact ⟨.inr rfl, rest⟩
  | asks other | measures other | announces other | dispatches other =>
      rw [other] at at_
      simp at at_

theorem State.Orderly.turns {index : Nat} {call : Call} {phase : Phase} {started : List Mutation}
    (orderly : state.Orderly) (keeps : Keeps state label)
    (found : state.calls[index]? = some call) (turn : Turn call label index phase)
    (starting : ∀ mutation ∈ started, mutation.call = index ∧ mutation.progress = .starting) :
    State.Orderly { state.setCall index { call with phase } with
      mutations := state.mutations ++ started } := by
  have kept : label = .dispatchedReturns index → call.committed = true := by
    rintro rfl
    exact keeps call found
  have moved : State.Orderly { state.setCall index { call with phase } with
      ledger := state.ledger } :=
    orderly.setCall found (.refl _) rfl ((orderly.calls index call found).turn turn kept)
      (fun _ committed => .inl committed) (fun _ => entered_turn turn)
  refine moved.setMutations (.refl _) state.approvals fun mutation member => ?_
  rcases List.mem_append.mp member with old | new
  · exact moved.mutations mutation old
  · obtain ⟨caller, fresh⟩ := starting mutation new
    refine ⟨{ call with phase }, ?_, by rw [fresh]; trivial⟩
    rw [caller]
    exact getElem?_setCall_self found

theorem State.Orderly.holds {index : Nat} {call : Call} {permit : DispatchPermit}
    {reservation : Reservation} (orderly : state.Orderly) (found : state.calls[index]? = some call)
    (at_ : call.phase = .admitting)
    (returned : ∃ mutation ∈ state.mutations, mutation.progress = .returned permit reservation) :
    State.Orderly (state.setCall index
      { call with phase := .committing, held := some (permit, reservation) }) := by
  have good := orderly.calls index call found
  have unheld := good.unheld (.inr (.inr at_))
  have uncommitted : call.committed = false :=
    eq_false_of_ne_true fun committed => good.committed_held committed unheld
  obtain ⟨mutation, member, progress⟩ := returned
  obtain ⟨caller, _, bound⟩ := orderly.mutations mutation member
  rw [progress] at bound
  have nothing : ∀ jobId, Call.committedJob
      { call with phase := .committing, held := some (permit, reservation) } ≠ some jobId := by
    simp [Call.committedJob, uncommitted]
  refine orderly.setCall found (.refl _) rfl ⟨by simp, ?_, ?_, ?_, by simp⟩
    (fun jobId committed => (nothing jobId committed).elim) fun other entered => ?_
  · intro other taken same
    obtain ⟨rfl, rfl⟩ := Prod.mk.inj (Option.some.inj same)
    exact bound
  · simp
  · exact fun jobId committed => (nothing jobId committed).elim
  · rcases entered.1 with running | ended
    · rw [at_] at running
      cases running
    · rw [at_] at ended
      cases ended

theorem State.Orderly.commits {index : Nat} {call : Call} {permit : DispatchPermit}
    {reservation : Reservation} {phase : Phase} {ledger : Ledger} (orderly : state.Orderly)
    (found : state.calls[index]? = some call) (held : call.held = some (permit, reservation))
    (done : state.ledger.commitExecution reservation.jobId = some ledger)
    (moves : phase = call.phase ∨ call.phase = .committing ∧
      (phase = .announcing ∨ phase = .entering)) :
    State.Orderly { state.setCall index { call with committed := true, phase } with ledger } := by
  have good := orderly.calls index call found
  have job : ∀ jobId, Call.committedJob { call with committed := true, phase } = some jobId →
      reservation.jobId = jobId := by
    simp [Call.committedJob, held]
  refine orderly.setCall found (Ledger.advances_commitExecution done) rfl
    ⟨?_, good.same_job, ?_, ?_, fun _ => rfl⟩ (fun jobId committed => .inr ?_)
    fun other entered => ?_
  · intro at_
    rcases moves with rfl | ⟨_, rfl | rfl⟩
    · exact good.unheld at_
    · simp at at_
    · simp at at_
  · simp [held]
  · intro jobId committed
    rw [← job jobId committed, Ledger.lookup_commitExecution done, if_pos rfl]
  · rw [← job jobId committed, Ledger.reserved_of_commitExecution done]
    simp
  · rcases moves with rfl | ⟨at_, _⟩
    · exact ⟨entered.1, rfl, entered.2.2⟩
    · have standing := entered.1
      rw [at_] at standing
      simp at standing

theorem State.Orderly.enters {index : Nat} {call : Call} {permit : DispatchPermit}
    {reservation : Reservation} (orderly : state.Orderly) (found : state.calls[index]? = some call)
    (at_ : call.phase = .entering) (held : call.held = some (permit, reservation)) :
    State.Orderly { state.setCall index { call with phase := .running } with
      entries := ⟨index, call.endpoint, permit⟩ :: state.entries } := by
  have good := orderly.calls index call found
  have committed := good.entering_committed (.inr at_)
  have notYet : ∀ other, ¬ call.Entered other := by
    intro other entered
    have standing := entered.1
    rw [at_] at standing
    simp at standing
  have moved : State.Orderly { state.setCall index { call with phase := .running } with
      ledger := state.ledger } :=
    orderly.setCall found (.refl _) rfl
      ⟨by simp, good.same_job, good.committed_held, good.committed_job, by simp⟩
      (fun _ committed => .inl committed) (fun other entered => (notYet other entered).elim)
  refine { moved with entries := fun entry member => ?_, distinct := ?_ }
  · rcases List.mem_cons.mp member with rfl | old
    · exact ⟨_, getElem?_setCall_self found, .inl rfl, committed, reservation, held⟩
    · exact moved.entries entry old
  · rw [List.map_cons]
    refine List.nodup_cons.mpr ⟨fun member => ?_, orderly.distinct⟩
    obtain ⟨entry, inside, same⟩ := List.mem_map.mp member
    obtain ⟨caller, there, entered⟩ := orderly.entries entry inside
    rw [same] at there
    obtain rfl : call = caller := Option.some.inj (found.symm.trans there)
    exact notYet _ entered

theorem State.Orderly.begins (orderly : state.Orderly) (config : Config) (arguments : Arguments)
    (endpoint : WorkerEndpoint) :
    State.Orderly { state with
      calls := state.calls ++ [⟨config, arguments, endpoint, .asking, none, false⟩] } := by
  have kept {index : Nat} {call : Call} (found : state.calls[index]? = some call)
      (more : List Call) : (state.calls ++ more)[index]? = some call := by
    rw [List.getElem?_append_left (List.getElem?_eq_some_iff.mp found).1]
    exact found
  have known {index : Nat} {call : Call}
      (found : (state.calls ++ [⟨config, arguments, endpoint, .asking, none, false⟩])[index]? =
        some call) :
      state.calls[index]? = some call ∨ call = ⟨config, arguments, endpoint, .asking, none, false⟩ := by
    by_cases inside : index < state.calls.length
    · rw [List.getElem?_append_left inside] at found
      exact .inl found
    · rw [List.getElem?_append_right (Nat.le_of_not_lt inside)] at found
      obtain ⟨_, same⟩ := List.getElem?_eq_some_iff.mp found
      rw [List.getElem_singleton] at same
      exact .inr same.symm
  refine ⟨fun index call found => ?_, fun mutation member => ?_, ?_, fun entry member => ?_,
    orderly.distinct⟩
  · rcases known found with old | rfl
    · exact orderly.calls index call old
    · exact ⟨by simp, by simp, by simp, by simp [Call.committedJob], by simp⟩
  · obtain ⟨call, found, bound⟩ := orderly.mutations mutation member
    exact ⟨call, kept found _, bound⟩
  · intro first second one two jobId left right ones twos
    rcases known left with left | rfl
    · rcases known right with right | rfl
      · exact orderly.single first second one two jobId left right ones twos
      · simp [Call.committedJob] at twos
    · simp [Call.committedJob] at ones
  · obtain ⟨call, found, entered⟩ := orderly.entries entry member
    exact ⟨call, kept found _, entered⟩

theorem State.Orderly.step {interpreter : Interpreter} (orderly : state.Orderly)
    (keeps : Keeps state label) (stepped : step interpreter state label = some next) :
    next.Orderly := by
  cases step_cases stepped with
  | quiet approvals => exact orderly.setMutations (.refl _) approvals orderly.mutations
  | begins config arguments endpoint => exact orderly.begins config arguments endpoint
  | turns found turn started starting => exact orderly.turns keeps found turn starting
  | holds found at_ given =>
      refine orderly.holds found at_ ?_
      rcases given with returned | rfl
      · exact returned
      · exact keeps
  | commits found held done moves => exact orderly.commits found held done moves
  | enters found at_ held => exact orderly.enters found at_ held
  | invokes found =>
      refine orderly.setMutations (.refl _) state.approvals fun mutation member => ?_
      rcases List.mem_append.mp member with old | new
      · exact orderly.mutations mutation old
      · rw [List.mem_singleton.mp new]
        exact ⟨_, found, trivial⟩
  | mutates found caller bound reserves approvals =>
      refine orderly.setMutations (step_cases stepped).ledger approvals fun other member => ?_
      rcases List.mem_or_eq_of_mem_set member with old | rfl
      · exact orderly.mutations other old
      · obtain ⟨call, there, before⟩ := orderly.mutations _ (List.mem_of_getElem? found)
        obtain rfl : _ = call := Option.some.inj (caller.symm.trans there)
        exact ⟨_, caller, bound before⟩
  | abandons found =>
      refine orderly.setMutations (.refl _) state.approvals fun other member => ?_
      rcases List.mem_or_eq_of_mem_set member with old | rfl
      · exact orderly.mutations other old
      · obtain ⟨call, there, _⟩ := orderly.mutations _ (List.mem_of_getElem? found)
        exact ⟨call, there, trivial⟩

/-- What a step adds to the entries of workers: nothing, or one for a job that the
ledger has as committed. -/
theorem State.Orderly.entries_step {interpreter : Interpreter} (orderly : state.Orderly)
    (stepped : Orchestrator.step interpreter state label = some next) :
    next.entries = state.entries ∨ ∃ entry, next.entries = entry :: state.entries ∧
      state.ledger.lookup entry.jobId = some .executionCommitted := by
  cases step_cases stepped with
  | @enters index call permit reservation found at_ held =>
      refine .inr ⟨_, rfl, ?_⟩
      have good := orderly.calls index call found
      have job : call.committedJob = some reservation.jobId := by
        rw [Call.committedJob, good.entering_committed (.inr at_), held]
        rfl
      rw [Entry.jobId, good.same_job permit reservation held]
      exact good.committed_job _ job
  | _ => exact .inl rfl

/-- No two entries of workers are for the same job. -/
theorem State.Orderly.jobs_distinct (orderly : state.Orderly) :
    (state.entries.map Entry.jobId).Nodup := by
  have committed : ∀ entry ∈ state.entries, ∃ call, state.calls[entry.call]? = some call ∧
      call.committedJob = some entry.jobId := by
    intro entry member
    obtain ⟨call, found, _, committed, reservation, held⟩ := orderly.entries entry member
    refine ⟨call, found, ?_⟩
    rw [Call.committedJob, if_pos committed, held, Entry.jobId,
      (orderly.calls _ call found).same_job _ _ held]
    rfl
  refine List.Nodup.map_on (fun one left two right same => ?_) (List.Nodup.of_map _ orderly.distinct)
  obtain ⟨first, foundFirst, jobFirst⟩ := committed one left
  obtain ⟨second, foundSecond, jobSecond⟩ := committed two right
  rw [← same] at jobSecond
  exact List.inj_on_of_nodup_map orderly.distinct left right
    (orderly.single _ _ first second _ foundFirst foundSecond jobFirst jobSecond)

end Orderly

section Runs

variable {interpreter : Interpreter} {approvals : Nat → List (Bytes × ApprovalRecord)}
  {labels : List Label} {label : Label} {before after : State}

theorem run_bounded (ran : run (step interpreter) (.initial approvals) labels = some before) :
    before.ledger.length ≤ maxJobs := by
  refine run_invariant (fun state => state.ledger.length ≤ maxJobs) ?_ (Nat.zero_le _) ran
  intro state other next _ bound stepped
  exact (step_cases stepped).ledger.bounded bound

theorem run_orderly (ran : run (step interpreter) (.initial approvals) labels = some before)
    (keeps : Along (step interpreter) Keeps (.initial approvals) labels) : before.Orderly := by
  refine run_invariant_along State.Orderly ?_ (orderly_initial approvals) keeps ran
  intro state other next kept orderly stepped
  exact orderly.step kept stepped

/-- Every step of every run, whatever the callbacks do, moves each job of the
ledger forward and keeps the ledger bounded. As long as the callbacks return only
what a run of `admit_and_reserve` returned and only after the commit they were
given, no job id is executed twice, and none before the ledger committed it. -/
theorem dispatched_at_most_once
    (ran : run (step interpreter) (.initial approvals) labels = some before)
    (stepped : step interpreter before label = some after) :
    (∀ jobId, Ledger.Moves (before.ledger.lookup jobId) (after.ledger.lookup jobId)) ∧
      after.ledger.length ≤ maxJobs ∧
      (Along (step interpreter) Keeps (.initial approvals) (labels ++ [label]) →
        (∀ jobId, (after.entries.map Entry.jobId).count jobId ≤ 1) ∧
        (after.entries = before.entries ∨ ∃ entry, after.entries = entry :: before.entries ∧
          before.ledger.lookup entry.jobId = some .executionCommitted)) := by
  have advances := (step_cases stepped).ledger
  refine ⟨advances.moves, advances.bounded (run_bounded ran), fun keeps => ?_⟩
  have orderly := run_orderly ran keeps.of_append
  have finally_ := run_orderly ((run_append_singleton _).mpr ⟨before, ran, stepped⟩) keeps
  exact ⟨List.nodup_iff_count_le_one.mp finally_.jobs_distinct, orderly.entries_step stepped⟩

end Runs

section Demo

def demoConfig (atomic : Bool) : Config where
  orchestratorId := str "orchestrator-demo"
  gateway := demoGateway
  approvals := 0
  workers := [⟨str "worker-demo", str "summarize"⟩]
  onAdmitted := false
  onDispatched := false
  atomic := atomic

def demoArguments : Arguments where
  wire := some (demoHandoff false).toBytes
  presented := demoPresented false 101
  approvalToken := none

def demoReservation : Reservation where
  jobId := str "job-demo"
  subject := str "subject-demo"
  handoffSha256 := sha256 (demoHandoff false).toBytes
  expiresAt := 160
  reservedAt := 101

def demoCall (atomic : Bool) (phase : Phase) (held : Option (DispatchPermit × Reservation))
    (committed : Bool) : Call :=
  ⟨demoConfig atomic, demoArguments, ⟨str "worker-demo", str "summarize"⟩, phase, held, committed⟩

/-- The demo dispatch while it is admitted. -/
def demoAdmitting (atomic recordAdmission : Bool) (ledger : Ledger) (progress : Progress) : State where
  ledger := ledger
  approvals := fun _ => []
  calls := [demoCall atomic .admitting none false]
  mutations := [⟨0, false, recordAdmission, progress⟩]
  entries := []

theorem admitted_demo (atomic recordAdmission : Bool) :
    admitted (demoCall atomic .admitting none false) recordAdmission (.ok demoPermit) =
      .measuring demoPermit demoReservation := by
  have digested : handoffDigest demoPermit.handoff = .ok (sha256 (demoHandoff false).toBytes) :=
    handoffDigest_eq_ok.mpr ⟨rfl, rfl⟩
  have same : some demoPermit.handoff.toBytes = (demoCall atomic .admitting none false).arguments.wire :=
    rfl
  have silent : (recordAdmission && (demoCall atomic .admitting none false).config.onAdmitted) = false :=
    Bool.and_false _
  unfold admitted
  dsimp only
  rw [if_neg (not_not.mpr same), silent, if_neg Bool.false_ne_true]
  unfold prepared
  rw [digested]
  rfl

theorem step_demo_admitted (atomic recordAdmission : Bool) :
    step literalInterpreter (demoAdmitting atomic recordAdmission [] .starting) (.mutate 0) =
      some (demoAdmitting atomic recordAdmission [] (.measuring demoPermit demoReservation)) := by
  have enabled : step literalInterpreter (demoAdmitting atomic recordAdmission [] .starting)
      (.mutate 0) = mutate literalInterpreter (demoAdmitting atomic recordAdmission [] .starting) 0
        ⟨0, false, recordAdmission, .starting⟩ (demoCall atomic .admitting none false) := rfl
  have answer : (demoCall atomic .admitting none false).config.gateway.admission literalInterpreter
      (demoCall atomic .admitting none false).arguments.wire
      (demoCall atomic .admitting none false).arguments.presented
      (demoCall atomic .admitting none false).arguments.approvalToken false
      ((demoAdmitting atomic recordAdmission [] .starting).approvals
        (demoCall atomic .admitting none false).config.approvals) = (.ok demoPermit, []) :=
    admission_demo []
  have kept : Function.update (fun _ : Nat => ([] : List (Bytes × ApprovalRecord))) 0 [] =
      fun _ => [] := Function.update_eq_self 0 _
  rw [enabled]
  unfold mutate
  dsimp only
  rw [answer]
  dsimp only
  rw [admitted_demo]
  exact congrArg some (congrArg (fun approvals => State.mk [] approvals _ _ []) kept)

/-- The demo dispatch is admitted and reserved. -/
theorem run_demo_reserved (atomic recordAdmission : Bool) :
    run (step literalInterpreter) (demoAdmitting atomic recordAdmission [] .starting)
        [.mutate 0, .mutate 0, .mutate 0] =
      some (demoAdmitting atomic recordAdmission [(str "job-demo", .reserved)]
        (.returned demoPermit demoReservation)) := by
  refine (run_cons _).mpr ⟨_, step_demo_admitted atomic recordAdmission, ?_⟩
  rfl

/-- The demo dispatch without callbacks, up to its commit. -/
def demoLabels : List Label :=
  [.dispatch (demoConfig false) demoArguments, .advance 0, .advance 0] ++
    ([.mutate 0, .mutate 0, .mutate 0] ++ [.advance 0, .advance 0])

def demoCommitted : State where
  ledger := [(str "job-demo", .executionCommitted)]
  approvals := fun _ => []
  calls := [demoCall false .entering (some (demoPermit, demoReservation)) true]
  mutations := [⟨0, false, true, .returned demoPermit demoReservation⟩]
  entries := []

theorem run_demo_committed : run (step literalInterpreter) (.initial fun _ => []) demoLabels =
    some demoCommitted := by
  refine (run_append _).mpr ⟨demoAdmitting false true [] .starting, rfl, ?_⟩
  exact (run_append _).mpr ⟨_, run_demo_reserved false true, rfl⟩

theorem dispatched_at_most_once_demo :
    ∃ entry, (step literalInterpreter demoCommitted (.advance 0)).map State.entries = some [entry] ∧
      run (step literalInterpreter) (.initial fun _ => []) demoLabels = some demoCommitted ∧
      demoCommitted.ledger.lookup entry.jobId = some .executionCommitted := by
  let entry : Entry := ⟨0, ⟨str "worker-demo", str "summarize"⟩, demoPermit⟩
  have stepped : step literalInterpreter demoCommitted (.advance 0) = some { demoCommitted with
      calls := [demoCall false .running (some (demoPermit, demoReservation)) true]
      entries := [entry] } := rfl
  have keeps : Along (step literalInterpreter) Keeps (.initial fun _ => [])
      (demoLabels ++ [.advance 0]) := by
    intro first label rest state split _
    have member : label ∈ demoLabels ++ [.advance 0] := by
      rw [split]
      exact List.mem_append_right _ List.mem_cons_self
    simp only [demoLabels, List.cons_append, List.nil_append, List.mem_cons, List.not_mem_nil,
      or_false] at member
    rcases member with rfl | rfl | rfl | rfl | rfl | rfl | rfl | rfl | rfl <;> trivial
  obtain ⟨_, _, guaranteed⟩ := dispatched_at_most_once run_demo_committed stepped
  obtain ⟨_, same | ⟨found, same, committed⟩⟩ := guaranteed keeps
  · cases same
  · obtain ⟨rfl, _⟩ := List.cons.inj same
    exact ⟨entry, congrArg (Option.map State.entries) stepped, run_demo_committed, committed⟩

/-- An `atomic_dispatched` that returns without the commit lets the worker be
entered for a job that is only reserved. -/
theorem entered_without_commit : ∃ labels before after,
    run (step literalInterpreter) (.initial fun _ => []) labels = some before ∧
      step literalInterpreter before (.advance 0) = some after ∧
      after.entries.map Entry.jobId = [str "job-demo"] ∧
      before.ledger.lookup (str "job-demo") = some .reserved := by
  let returned : State := { demoAdmitting true false [(str "job-demo", .reserved)]
      (.returned demoPermit demoReservation) with
    calls := [demoCall true .entering (some (demoPermit, demoReservation)) false] }
  refine ⟨[.dispatch (demoConfig true) demoArguments, .advance 0, .advance 0, .invoke 0 false false] ++
    ([.mutate 0, .mutate 0, .mutate 0] ++
      [.admittedReturns 0 demoPermit demoReservation, .dispatchedReturns 0]), returned,
    { returned with
      calls := [demoCall true .running (some (demoPermit, demoReservation)) false]
      entries := [⟨0, ⟨str "worker-demo", str "summarize"⟩, demoPermit⟩] }, ?_, rfl, rfl, rfl⟩
  refine (run_append _).mpr ⟨demoAdmitting true false [] .starting, rfl, ?_⟩
  exact (run_append _).mpr ⟨_, run_demo_reserved true false, rfl⟩

end Demo

end Orchestrator

end GeniusNew
