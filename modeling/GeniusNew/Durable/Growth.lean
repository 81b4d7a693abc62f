import GeniusNew.Durable.Upheld

/-! # What a run leaves behind

Whatever the instances do, and wherever one of them crashes, the chain only grows, a
record and an accepted result stay as they were written, jobs only move on, and a job
that waits leaves the queue only decided.
-/

namespace GeniusNew.Durable

open Json Database
open Wiring (Call)

/-- The request of a label. -/
def Label.asked : Label → Option (Wiring.Service × Call)
  | .request service call => some (service, call)
  | .advance _ _ => none

/-- The instances of one deployment sign the chain with one key. -/
def Label.Shares (authority : AuditAuthority) : Label → Prop
  | .request service _ => service.audit = authority
  | .advance _ _ => True

/-- What was there before is there later. -/
structure Grown (before : State) (events : List AuditEvent) (after : State)
    (later : List AuditEvent) : Prop where
  chain : events <+: later
  jobs : ∀ jobId job, before.store.tables.jobs.lookup jobId = some job →
    ∃ next, after.store.tables.jobs.lookup jobId = some next ∧ Relation.ReflTransGen Moves job next
  records : ∀ recordHash row, before.store.tables.records.lookup recordHash = some row →
    after.store.tables.records.lookup recordHash = some row
  acceptances : ∀ digest row, before.store.tables.acceptances.lookup digest = some row →
    after.store.tables.acceptances.lookup digest = some row
  waiting : ∀ jobId row, before.store.tables.pending.lookup jobId = some row →
    after.store.tables.pending.lookup jobId = some row ∨
      ∃ job, after.store.tables.jobs.lookup jobId = some job ∧ job.state ≠ .pendingApproval
  entries : before.entries <+: after.entries

theorem decided_of_moves {job later : JobRow} (moved : Relation.ReflTransGen Moves job later)
    (decided : job.state ≠ .pendingApproval) : later.state ≠ .pendingApproval := by
  obtain rfl | ⟨_, _, moves⟩ := Relation.ReflTransGen.cases_tail moved
  · exact decided
  · exact moves.decided

theorem Grown.refl (state : State) (events : List AuditEvent) : Grown state events state events where
  chain := List.prefix_refl _
  jobs := fun _ job found => ⟨job, found, .refl⟩
  records := fun _ _ found => found
  acceptances := fun _ _ found => found
  waiting := fun _ _ found => .inl found
  entries := List.prefix_refl _

theorem Grown.trans {first second third : State} {one two three : List AuditEvent}
    (before : Grown first one second two) (after : Grown second two third three) :
    Grown first one third three where
  chain := before.chain.trans after.chain
  jobs := by
    intro jobId job found
    obtain ⟨middle, stored, moved⟩ := before.jobs jobId job found
    obtain ⟨last, present, onward⟩ := after.jobs jobId middle stored
    exact ⟨last, present, moved.trans onward⟩
  records := fun recordHash row found => after.records recordHash row
    (before.records recordHash row found)
  acceptances := fun digest row found => after.acceptances digest row
    (before.acceptances digest row found)
  waiting := by
    intro jobId row found
    obtain waits | ⟨job, stored, decided⟩ := before.waiting jobId row found
    · exact after.waiting jobId row waits
    · obtain ⟨last, present, moved⟩ := after.jobs jobId job stored
      exact .inr ⟨last, present, decided_of_moves moved decided⟩
  entries := before.entries.trans after.entries

section Step

variable {interpreter : Interpreter} {authority : AuditAuthority} {state : State}
  {events : List AuditEvent}

theorem Commits.acceptances {before after : Tables} {event : AuditEvent}
    (commits : Commits interpreter before events after event) (digest : Str) (row : AcceptanceRow)
    (found : before.acceptances.lookup digest = some row) :
    after.acceptances.lookup digest = some row := by
  cases commits with
  | queued effect => cases effect; exact found
  | refused effect => cases effect; exact found
  | @accepted _ handoffWire _ _ _ _ fresh =>
      have apart : digest ≠ (sha256 handoffWire).val := fun same =>
        fresh (Table.mem_iff.mpr ⟨row, same ▸ found⟩)
      exact (AList.lookup_insert_ne apart).trans found
  | _ => exact found

/-- A transaction with its event, beside the requests. -/
theorem Commits.grown {tables : Tables} {event : AuditEvent} {audit : AuditStore.Tables}
    (commits : Commits interpreter state.store.tables events tables event)
    (queued : Queued state.store.tables) (requests : List Request) :
    Grown state events { state with store := ⟨tables, audit⟩, requests } (events ++ [event]) where
  chain := List.prefix_append _ _
  jobs := by
    intro jobId job found
    obtain ⟨next, stored, moved⟩ := (commits.later queued).jobs jobId job found
    exact ⟨next, stored, moved.to_reflTransGen⟩
  records := (commits.later queued).records
  acceptances := commits.acceptances
  waiting := by
    intro jobId row found
    obtain rfl | ⟨_, effect⟩ := commits.effect
    · exact .inl found
    · exact effect.waiting queued found
  entries := List.prefix_refl _

/-- What a step keeps, what it leaves, and what was asked. -/
structure Stepped (interpreter : Interpreter) (authority : AuditAuthority) (state : State)
    (events : List AuditEvent) (asked : List (Wiring.Service × Call)) (next : State)
    (after : List AuditEvent) : Prop where
  upheld : Upheld interpreter authority next after
  grown : Grown state events next after
  calls : next.calls = state.calls ++ asked

theorem Upheld.step (upheld : Upheld interpreter authority state events) {label : Label}
    {next : State} (shares : label.Shares authority)
    (stepped : step interpreter state label = some next) :
    ∃ after, Stepped interpreter authority state events label.asked.toList next after := by
  cases label with
  | request service call =>
      obtain rfl := Option.some.inj stepped
      exact ⟨events, upheld.requested call shares,
        { Grown.refl state events with }, List.map_append⟩
  | advance index input =>
      obtain ⟨request, found, rest⟩ := Option.bind_eq_some_iff.mp stepped
      obtain ⟨⟨phase, after⟩, turned, same⟩ := Option.bind_eq_some_iff.mp rest
      obtain rfl := Option.some.inj same
      have calls : (state.requests.set index (request.at_ phase)).map
          (fun request => (request.service, request.call)) = state.calls ++ [] := by
        rw [calls_set found, List.append_nil]
      cases upheld.turned found turned with
      | stays held due outside =>
          exact ⟨events, upheld.stays found held due outside, { Grown.refl state events with }, calls⟩
      | enters before =>
          refine ⟨events, upheld.enters found before, { Grown.refl state events with
            entries := List.prefix_append _ _ }, calls⟩
      | commits committed chain =>
          exact ⟨_, upheld.commits found committed chain,
            committed.commits.grown upheld.coherent.queued _, calls⟩

theorem Upheld.run (upheld : Upheld interpreter authority state events) {labels : List Label}
    {finish : State} (shared : ∀ label ∈ labels, label.Shares authority)
    (ran : Transition.run (Durable.step interpreter) state labels = some finish) :
    ∃ after, Stepped interpreter authority state events (labels.filterMap Label.asked) finish
      after := by
  induction labels generalizing state events with
  | nil =>
      obtain rfl : state = finish := Option.some.inj ran
      exact ⟨events, upheld, .refl state events, (List.append_nil _).symm⟩
  | cons label labels ih =>
      obtain ⟨next, stepped, rest⟩ := (Transition.run_cons _).mp ran
      obtain ⟨here, others⟩ := List.forall_mem_cons.mp shared
      obtain ⟨middle, first⟩ := upheld.step here stepped
      obtain ⟨after, last⟩ := ih first.upheld others rest
      refine ⟨after, last.upheld, first.grown.trans last.grown, ?_⟩
      rw [last.calls, first.calls, List.append_assoc]
      congr 1
      cases shown : label.asked with
      | none => rw [List.filterMap_cons_none shown]; rfl
      | some asked => rw [List.filterMap_cons_some shown]; rfl

/-- What holds at the end of every run, and what was asked in it. -/
theorem upheld_of_run {labels : List Label} (shared : ∀ label ∈ labels, label.Shares authority)
    (ran : Transition.run (Durable.step interpreter) State.initial labels = some state) :
    ∃ events, Upheld interpreter authority state events ∧
      state.calls = labels.filterMap Label.asked := by
  obtain ⟨events, stepped⟩ := (upheld_initial interpreter authority).run shared ran
  exact ⟨events, stepped.upheld, stepped.calls⟩

end Step

/-- The events that an instance reads from the chain when it starts. -/
def ReadsBack (interpreter : Interpreter) (authority : AuditAuthority) (state : State)
    (events : List AuditEvent) : Prop :=
  ∃ head records, AuditStore.read interpreter authority.verifier state.store.audit =
    .ok (head, records) ∧ records.map CheckedRecord.event = events

section Reading

variable {interpreter : Interpreter} {authority : AuditAuthority} {state : State}
  {events : List AuditEvent}

theorem Upheld.readsBack (upheld : Upheld interpreter authority state events) :
    ReadsBack interpreter authority state events :=
  ⟨_, _, AuditStore.read_eq_ok.mpr ⟨events, upheld.chain, rfl, rfl⟩, map_event_recordsFrom _ _ _⟩

theorem ReadsBack.holds (reads : ReadsBack interpreter authority state events) :
    AuditStore.Holds authority.verifier state.store.audit events := by
  obtain ⟨head, records, read, rfl⟩ := reads
  obtain ⟨events, holds, rfl, _⟩ := AuditStore.read_eq_ok.mp read
  rwa [map_event_recordsFrom]

end Reading

end GeniusNew.Durable
