import GeniusNew.Approvals.Admission
import GeniusNew.Service.Wiring
import GeniusNew.Transition.Run

/-! # What a request of the service holds and records

Whatever a request holds about its job was validated for this job; what it
records was derived from the handoff it holds. A claim of a request is the job it
alone may move, with the milestones this job has passed. Every critical section
keeps a claim, hands it over, or drops it, and a milestone is recorded only under
the claim that is due for it.
-/

namespace GeniusNew.Wiring

open Json AnchoredAudit

/-- The decisions of one job that are recorded in order. -/
def milestones : List Action :=
  [.handoffIssued, .handoffAdmitted, .executionDispatched, .resultAccepted]

/-- The first milestones of a handoff. -/
def reached (handoff : Handoff) (count : Nat) : List (Handoff × Action) :=
  (milestones.take count).map fun action => (handoff, action)

/-- Who granted which approval for which job. -/
structure Decision where
  approver : Str
  approverUserId : Str
  waiting : Waiting
  grant : ApprovalGrant

def Evidence.milestone (evidence : Evidence) : Handoff × Action :=
  (evidence.handoff, evidence.event.action)

/-- The milestones that were recorded of a job. -/
def trace (evidence : List Evidence) (jobId : Str) : List (Handoff × Action) :=
  (evidence.filter fun entry =>
    entry.handoff.jobId = jobId ∧ entry.event.action ∈ milestones).map Evidence.milestone

/-- The job a request alone may move, with the milestones this job has passed. -/
def Request.claim (request : Request) : Option (Str × List (Handoff × Action)) :=
  match request.phase with
  | .called =>
      match request.call with
      | .submit _ jobId _ => some (jobId, [])
      | _ => none
  | .issued job _ => some (job.jobId, [])
  | .adding job | .starting job | .admitting job _ _ => some (job.jobId, reached job.handoff 1)
  | .admitted attempt => some (attempt.job.jobId, reached attempt.job.handoff 1)
  | .reserving attempt | .committing attempt | .committed attempt =>
      some (attempt.job.jobId, reached attempt.job.handoff 2)
  | .entering attempt | .running attempt | .verifying attempt _ =>
      some (attempt.job.jobId, reached attempt.job.handoff 3)
  | .accepting job _ => some (job.jobId, reached job.handoff 3)
  | .refusing job (.gateway _ _) =>
      if job.restored.isSome then some (job.jobId, reached job.handoff 1) else none
  | .restoring jobId waiting => some (jobId, reached waiting.handoff 1)
  | _ => none

namespace Phase

/-- The job a request in a phase works on. -/
def job : Phase → Option Job
  | .issued job _ | .adding job | .starting job | .admitting job _ _ | .accepting job _
  | .refusing job _ => some job
  | .admitted attempt | .reserving attempt | .committing attempt | .committed attempt
  | .entering attempt | .running attempt | .verifying attempt _ => some attempt.job
  | _ => none

/-- For whom it holds which job. -/
def owner : Phase → Option (Str × Str)
  | .restoring jobId waiting => some (waiting.subject, jobId)
  | phase => phase.job.map fun job => (job.subject, job.jobId)

def attempt : Phase → Option Attempt
  | .admitted attempt | .reserving attempt | .committing attempt | .committed attempt
  | .entering attempt | .running attempt | .verifying attempt _ => some attempt
  | _ => none

/-- The decision a request in a phase has made. -/
def decision : Phase → Option Decision
  | .granted approver approverUserId waiting grant _ | .approved approver approverUserId waiting grant
  | .unrecorded approver approverUserId waiting grant =>
      some ⟨approver, approverUserId, waiting, grant⟩
  | _ => none

end Phase

variable (interpreter : Interpreter) (service : Service)

/-- A handoff that was validated for a subject and a job from this wire. -/
def Read (subject jobId : Str) (wire : Bytes) (handoff : Handoff) : Prop :=
  ∃ now pending, Validated interpreter (some wire) (service.presented subject jobId now)
    service.signer.verifier pending handoff

def Waiting.Sound (jobId : Str) (waiting : Waiting) : Prop :=
  Read interpreter service waiting.subject jobId waiting.wire waiting.handoff

structure Job.Sound (job : Job) : Prop where
  read : Read interpreter service job.subject job.jobId job.wire job.handoff
  restored : ∀ waiting ∈ job.restored, waiting.subject = job.subject ∧ waiting.wire = job.wire ∧
    waiting.handoff = job.handoff

structure Attempt.Sound (attempt : Attempt) : Prop where
  job : attempt.job.Sound interpreter service
  handoff : attempt.permit.handoff = attempt.job.handoff

/-- What a request in a phase holds was validated. -/
def Phase.Sound : Phase → Prop
  | .issued job _ | .adding job | .starting job | .admitting job _ _ | .accepting job _
  | .refusing job _ => job.Sound interpreter service
  | .admitted attempt | .reserving attempt | .committing attempt | .committed attempt
  | .entering attempt | .running attempt | .verifying attempt _ =>
      attempt.Sound interpreter service
  | .restoring jobId waiting => waiting.Sound interpreter service jobId
  | .decided _ _ jobId _ waiting => waiting.Sound interpreter service jobId
  | _ => True

/-- What all requests hold, and all pending jobs, was validated. -/
structure State.Sound (state : State) : Prop where
  requests : ∀ request ∈ state.requests, request.phase.Sound interpreter service
  pending : ∀ entry ∈ state.pending, entry.2.Sound interpreter service entry.1

section Validation

variable {interpreter service}

theorem Read.jobId {subject jobId : Str} {wire : Bytes} {handoff : Handoff}
    (read : Read interpreter service subject jobId wire handoff) : handoff.jobId = jobId := by
  obtain ⟨now, pending, validated⟩ := read
  exact validated.jobId

theorem Read.unique {subject jobId : Str} {wire : Bytes} {handoff other : Handoff}
    {presented : Presented} {verifier : HandoffVerifier} {pending : Bool}
    (read : Read interpreter service subject jobId wire handoff)
    (validated : Validated interpreter (some wire) presented verifier pending other) :
    other = handoff := by
  obtain ⟨_, _, before⟩ := read
  exact validated.unique before

theorem issueJob_sound {subject jobId : Str} {payload : Value} {now : Int} {job : Job}
    (issued : issueJob interpreter service subject jobId payload now = .ok job) :
    job.Sound interpreter service ∧ job.subject = subject ∧ job.jobId = jobId ∧
      job.restored = none ∧ job.approvalToken = none := by
  simp only [issueJob, bind_eq_ok] at issued
  obtain ⟨_, _, wire, _, handoff, validated, traceId, _, same⟩ := issued
  obtain rfl := pure_eq_ok.mp same
  refine ⟨⟨?_, fun waiting member => nomatch member⟩, rfl, rfl, rfl, rfl⟩
  simp only [revalidate, bind_eq_ok] at validated
  obtain ⟨grant, _, validated⟩ := validated
  by_cases required : grant.requiresApproval = true
  · rw [if_pos required] at validated
    exact ⟨now, true, validatePending_validated validated⟩
  · rw [if_neg required] at validated
    exact ⟨now, false, validate_validated validated⟩

end Validation

section Appends

variable {interpreter service}

/-- What an append makes of a state, given whether it returned. -/
inductive Appended (state : State) (evidence : Evidence) (returned : Prop) : State → Prop where
  | refused (recorder : Recorder) (settled : recorder.Settled)
      (further : state.recorder.anchor.count ≤ recorder.anchor.count)
      (chain : recorder.chain = state.recorder.chain) (raised : ¬returned) :
      Appended state evidence returned { state with recorder }
  | linked (recorder : Recorder) (settled : recorder.Settled)
      (further : state.recorder.anchor.count ≤ recorder.anchor.count)
      (chain : recorder.chain = (state.recorder.linked evidence.event).chain)
      (caughtUp : returned → recorder.CaughtUp) :
      Appended state evidence returned
        { state with recorder, evidence := state.evidence ++ [evidence] }

theorem append_appended {input : Input} {state after : State} {evidence : Evidence}
    {outcome : Outcome Unit} (settled : state.recorder.Settled)
    (appended : state.append service input evidence = (outcome, after)) :
    Appended state evidence (outcome = .ok ()) after := by
  obtain ⟨answer, recorder, performed, left, further, cases_⟩ :=
    append_cases service.audit evidence.event input.recovery input.acknowledgement settled
  unfold State.append at appended
  rw [performed] at appended
  obtain ⟨rfl, rfl⟩ := Prod.mk.inj appended
  obtain ⟨chain, raised⟩ | ⟨chain, caughtUp⟩ := cases_
  · have same : ¬ state.recorder.chain.length < recorder.chain.length := by
      rw [chain]
      exact lt_irrefl _
    rw [if_neg same]
    exact .refused recorder left further chain raised
  · have longer : state.recorder.chain.length < recorder.chain.length := by
      rw [chain, Recorder.linked, AuditChain.append, List.length_append, List.length_singleton]
      exact Nat.lt_succ_self _
    rw [if_pos longer]
    exact .linked recorder left further chain caughtUp

/-- What recording an event makes of a request and the state. -/
theorem record_cases {input : Input} {state after : State} {handoff : Handoff}
    {traceId apiSubject : Str} {notice : Notice} {then_ phase : Phase}
    (settled : state.recorder.Settled)
    (recorded : state.record service input handoff traceId apiSubject notice then_ =
      (phase, after)) :
    (phase = .raised ∧ after = state) ∨ ∃ event returned,
      notice.event handoff traceId apiSubject = .ok event ∧
      Appended state ⟨handoff, event⟩ returned after ∧
      (returned ∧ phase = then_ ∨ ¬returned ∧ phase = .raised) := by
  unfold State.record at recorded
  split at recorded
  · obtain ⟨rfl, rfl⟩ := Prod.mk.inj recorded
    exact .inl ⟨rfl, rfl⟩
  next event derived =>
    split at recorded
    · next ended appended =>
        obtain ⟨rfl, rfl⟩ := Prod.mk.inj recorded
        exact .inr ⟨event, _, derived, append_appended settled appended, .inl ⟨rfl, rfl⟩⟩
    · next raised ended appended =>
        obtain ⟨rfl, rfl⟩ := Prod.mk.inj recorded
        exact .inr ⟨event, _, derived, append_appended settled appended,
          .inr ⟨fun same => (nomatch same), rfl⟩⟩

theorem Notice.event_eq_ok {notice : Notice} {handoff : Handoff} {traceId apiSubject : Str}
    {event : AuditEvent} (derived : notice.event handoff traceId apiSubject = .ok event) :
    (∃ report, eventFromHandoff handoff report = .ok event) ∧ event.action = notice.action := by
  obtain ⟨actor, _, derived⟩ := bind_eq_ok.mp derived
  exact ⟨⟨_, derived⟩, (eventFromHandoff_eq_ok derived).2.1⟩

end Appends

end GeniusNew.Wiring
