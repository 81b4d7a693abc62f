import GeniusNew.Approvals.Approvers
import GeniusNew.Audit.Derived
import GeniusNew.Audit.Recorder
import GeniusNew.Orchestrator.Dispatch
import GeniusNew.Results.Verifier

/-! # The wired service

`build` connects an orchestrator, its gateway, a result verifier, a store of
pending jobs and a recorder, all in one process. A request submits a job,
completes one that waited for its approval, or approves one; many run at once.
Each critical section of a request is one step, and the clock, the worker, the
token source and what becomes of each anchor commit are part of a step's label.
-/

namespace GeniusNew

open Json

def Rejection.code : Rejection → String
  | subjectNotAuthorized => "SUBJECT_NOT_AUTHORIZED"
  | handoffNotValid => "HANDOFF_NOT_VALID"
  | approvalRequired => "APPROVAL_REQUIRED"
  | approvalUnexpected => "APPROVAL_UNEXPECTED"
  | approvalNotValid => "APPROVAL_NOT_VALID"

def ResultVerifier.Code.text : ResultVerifier.Code → String
  | handoffNotValid => "HANDOFF_NOT_VALID"
  | approvalNotEvidenced => "APPROVAL_NOT_EVIDENCED"
  | resultNotValid => "RESULT_NOT_VALID"
  | resultAlreadyAccepted => "RESULT_ALREADY_ACCEPTED"
  | acceptanceLedgerFull => "ACCEPTANCE_LEDGER_FULL"

def policySatisfied : String := "POLICY_SATISFIED"

namespace Wiring

open AnchoredAudit Orchestrator

/-- The denial an exception of the orchestrator carries, if it is a `Denied`. -/
def denial? (raised : Raised) : Option Denial :=
  [Denial.policyNotForThisOrchestrator, .subjectNotAuthorized, .workerNotConfigured,
    .toolNotGranted, .jobIdReused, .jobLedgerFull].find? fun denial =>
      raised = .contractError denial.text

/-- What `build` puts together, as far as it is fixed. -/
structure Service where
  policy : Policy
  signer : HandoffSigner
  workers : List WorkerEndpoint
  gatewayId : Str
  gatewayId_valid : isGatewayId gatewayId = true
  verifierId : Str
  workerVerifier : Results.WorkerVerifier
  audit : AuditAuthority
  approvers : ApproverPolicy policy

namespace Service

def gateway (service : Service) : Gateway :=
  ⟨service.gatewayId, service.signer.verifier, service.gatewayId_valid⟩

def orchestrator (service : Service) : Config where
  orchestratorId := service.policy.orchestratorId
  gateway := service.gateway
  approvals := 0
  workers := service.workers
  onAdmitted := true
  onDispatched := true
  atomic := false

def verifier (service : Service) : ResultVerifier.Verifier :=
  ⟨service.signer.verifier, service.workerVerifier⟩

def presented (service : Service) (subject jobId : Str) (now : Int) : Presented :=
  ⟨subject, jobId, service.policy, now⟩

end Service

/-- `_Waiting`. -/
structure Waiting where
  subject : Str
  wire : Bytes
  handoff : Handoff
  traceId : Str
  decisionExpiresAt : Int
  deriving DecidableEq

/-- The jobs of a `PendingJobs`. -/
abbrev PendingJobs := List (Str × Waiting)

namespace PendingJobs

def maxPending : Nat := 1000

def maxDecisionTtlSeconds : Int := 600

/-- `add`. What has expired is dropped even when the new job is refused. -/
def add (jobs : PendingJobs) (jobId : Str) (waiting : Waiting) (now : Int) :
    Outcome Unit × PendingJobs :=
  let kept := jobs.filter fun entry => ¬ entry.2.handoff.expiresAt ≤ now
  if (kept.lookup jobId).isSome then
    (fail "a job with this id is already waiting for approval", kept)
  else if kept.length ≥ maxPending then (fail "too many jobs are waiting for approval", kept)
  else (.ok (), kept ++ [(jobId, waiting)])

/-- `decide` up to the call of `grant`, which runs with the lock held. -/
def decide (jobs : PendingJobs) (jobId approverUserId : Str) (now ttlSeconds : Int) :
    Outcome (Waiting × PendingJobs) :=
  if ¬ (1 ≤ ttlSeconds ∧ ttlSeconds ≤ maxDecisionTtlSeconds) then
    fail "ttl_seconds must be between 1 and 600"
  else
    match jobs.lookup jobId with
    | none => fail "no job is waiting for approval under this id"
    | some waiting =>
        if waiting.handoff.userId = approverUserId then
          fail "an approver cannot grant its own job"
        else if waiting.decisionExpiresAt > now then
          fail "this job already has an active approval decision"
        else
          let decisionExpiresAt := min (now + ttlSeconds) waiting.handoff.expiresAt
          .ok (waiting, Assoc.replace jobs jobId { waiting with decisionExpiresAt })

/-- `take`. -/
def take (jobs : PendingJobs) (jobId subject : Str) : Outcome (Waiting × PendingJobs) :=
  match jobs.lookup jobId with
  | none => fail "no job of this subject is waiting for approval under this id"
  | some waiting =>
      if waiting.subject ≠ subject then
        fail "no job of this subject is waiting for approval under this id"
      else .ok (waiting, jobs.filter fun entry => entry.1 ≠ jobId)

/-- `restore`. -/
def restore (jobs : PendingJobs) (jobId : Str) (waiting : Waiting) : PendingJobs :=
  if (jobs.lookup jobId).isSome then jobs else jobs ++ [(jobId, waiting)]

end PendingJobs

/-- What `run` is called with. A completed job is restored when the gateway
refuses it. -/
structure Job where
  subject : Str
  jobId : Str
  wire : Bytes
  handoff : Handoff
  traceId : Str
  approvalToken : Option Bytes
  restored : Option Waiting
  deriving DecidableEq

def Job.waiting (job : Job) : Waiting := ⟨job.subject, job.wire, job.handoff, job.traceId, 0⟩

/-- The job a completion runs. -/
def Waiting.job (waiting : Waiting) (subject jobId : Str) (approvalToken : Bytes) : Job where
  subject := subject
  jobId := jobId
  wire := waiting.wire
  handoff := waiting.handoff
  traceId := waiting.traceId
  approvalToken := some approvalToken
  restored := some waiting

/-- `_trace_id`. -/
def traceId (handoff : Handoff) : Outcome Str := do
  let digest ← handoffDigest handoff
  return str "trace-" ++ digest.val.take 16

/-- `Orchestrator.admit`. -/
def admission (interpreter : Interpreter) (service : Service) (payload : Value) (presented : Presented) :
    Outcome Bytes :=
  if ¬ inRange presented.now then fail "now is outside the range the audit contract accepts"
  else if presented.policy.orchestratorId ≠ service.orchestrator.orchestratorId then
    deny .policyNotForThisOrchestrator
  else do
    checkJobId presented.jobId
    issue interpreter payload presented service.signer

/-- `_revalidate`. -/
def revalidate (interpreter : Interpreter) (service : Service) (wire : Bytes)
    (presented : Presented) : Outcome Handoff := do
  let grant ← presented.policy.grantFor presented.subject
  if grant.requiresApproval then
    validatePending interpreter (some wire) presented service.signer.verifier
  else validate interpreter (some wire) presented service.signer.verifier

/-- `issue_job`. -/
def issueJob (interpreter : Interpreter) (service : Service) (subject jobId : Str)
    (payload : Value) (now : Int) : Outcome Job := do
  let presented := service.presented subject jobId now
  let _ ← route service.orchestrator presented
  let wire ← admission interpreter service payload presented
  let handoff ← revalidate interpreter service wire presented
  let traceId ← traceId handoff
  return ⟨subject, jobId, wire, handoff, traceId, none, none⟩

/-- What one component records of a handoff. -/
structure Notice where
  component : Component
  instanceId : Str
  action : Action
  decision : Decision
  reasonCode : String
  occurredAt : Int
  approvalRecordHash : Option Str
  resultSha256 : Option Digest

/-- The event of a notice, with the actor the audit authority mints for it. -/
def Notice.event (notice : Notice) (handoff : Handoff) (traceId apiSubject : Str) :
    Outcome AuditEvent := do
  let actor ← componentActor notice.component.text notice.instanceId
  eventFromHandoff handoff {
    traceId
    actor
    action := notice.action
    decision := notice.decision
    reasonCode := str notice.reasonCode
    occurredAt := notice.occurredAt
    approvalRecordHash := notice.approvalRecordHash
    apiSubject := some apiSubject
    resultSha256 := notice.resultSha256 }

namespace Notice

def issued (service : Service) (handoff : Handoff) (now : Int) : Notice where
  component := .orchestrator
  instanceId := service.policy.orchestratorId
  action := .handoffIssued
  decision := .allowed
  reasonCode :=
    if handoff.approvalState = pendingApproval then "PENDING_APPROVAL" else policySatisfied
  occurredAt := now
  approvalRecordHash := none
  resultSha256 := none

def admitted (permit : DispatchPermit) : Notice where
  component := .gateway
  instanceId := permit.gatewayId
  action := .handoffAdmitted
  decision := .allowed
  reasonCode := policySatisfied
  occurredAt := permit.admittedAt
  approvalRecordHash := permit.approvalRecordHash.map Subtype.val
  resultSha256 := none

def dispatched (service : Service) (now : Int) : Notice where
  component := .orchestrator
  instanceId := service.policy.orchestratorId
  action := .executionDispatched
  decision := .allowed
  reasonCode := policySatisfied
  occurredAt := now
  approvalRecordHash := none
  resultSha256 := none

def accepted (service : Service) (acceptance : ResultVerifier.Acceptance) : Notice where
  component := .monitor
  instanceId := service.verifierId
  action := .resultAccepted
  decision := .allowed
  reasonCode := "RESULT_VERIFIED"
  occurredAt := acceptance.occurredAt
  approvalRecordHash := acceptance.approvalRecordHash
  resultSha256 := some acceptance.resultSha256

def granted (service : Service) (grant : ApprovalGrant) (now : Int) : Notice where
  component := .gateway
  instanceId := service.gatewayId
  action := .approvalGranted
  decision := .allowed
  reasonCode := "OPERATOR_APPROVED"
  occurredAt := now
  approvalRecordHash := some grant.recordHash.val
  resultSha256 := none

/-- A refusal, by any component. -/
def refused (component : Component) (instanceId : Str) (action : Action) (reasonCode : String)
    (occurredAt : Int) : Notice where
  component := component
  instanceId := instanceId
  action := action
  decision := .denied
  reasonCode := reasonCode
  occurredAt := occurredAt
  approvalRecordHash := none
  resultSha256 := none

end Notice

inductive Call where
  | submit (subject jobId : Str) (payload : Value)
  | complete (subject jobId : Str) (approvalToken : Bytes)
  | approve (approver : Option Str) (jobId : Str) (ttlSeconds : Int)

/-- A dispatch whose handoff the gateway admitted. -/
structure Attempt where
  job : Job
  now : Int
  endpoint : WorkerEndpoint
  permit : DispatchPermit

/-- The refusals of a job that are recorded before the request raises. -/
inductive Refusal where
  /-- `GatewayRejected`, which puts a completed job back. -/
  | gateway (reason : Rejection) (now : Int)
  /-- `Denied`. -/
  | orchestrator (denial : Denial) (now : Int)
  /-- `DispatchAttempted`. -/
  | worker (now : Int)
  /-- `Rejected`. -/
  | verifier (code : ResultVerifier.Code) (now : Int)

def Refusal.notice (service : Service) (handoff : Handoff) : Refusal → Notice
  | .gateway reason now =>
      .refused .gateway service.gatewayId .handoffRejected reason.code now
  | .orchestrator denial now =>
      .refused .orchestrator service.policy.orchestratorId .handoffRejected denial.code now
  | .worker now =>
      .refused .worker handoff.workerAgentId .handoffRejected "EXECUTION_REFUSED" now
  | .verifier code now =>
      .refused .monitor service.verifierId .resultRejected code.text now

/-- Where a request stands. -/
inductive Phase where
  | called
  /-- Before HANDOFF_ISSUED is recorded. -/
  | issued (job : Job) (now : Int)
  /-- Before the job is put among the pending ones. -/
  | adding (job : Job)
  /-- Before `_available`. -/
  | starting (job : Job)
  /-- Before the gateway is asked. -/
  | admitting (job : Job) (now : Int) (endpoint : WorkerEndpoint)
  /-- Before HANDOFF_ADMITTED is recorded. -/
  | admitted (attempt : Attempt)
  | reserving (attempt : Attempt)
  | committing (attempt : Attempt)
  /-- Before EXECUTION_DISPATCHED is recorded. -/
  | committed (attempt : Attempt)
  /-- Before the worker is entered. -/
  | entering (attempt : Attempt)
  | running (attempt : Attempt)
  | verifying (attempt : Attempt) (resultWire : Bytes)
  /-- Before RESULT_ACCEPTED is recorded. -/
  | accepting (job : Job) (acceptance : ResultVerifier.Acceptance)
  /-- Before a refusal is recorded. -/
  | refusing (job : Job) (refusal : Refusal)
  /-- Before a completed job is put back. -/
  | restoring (jobId : Str) (waiting : Waiting)
  /-- Inside `decide`, before the approval is granted. -/
  | decided (approver approverUserId jobId : Str) (ttlSeconds : Int) (waiting : Waiting)
  /-- Inside `decide`, before APPROVAL_GRANTED is recorded. -/
  | granted (approver approverUserId : Str) (waiting : Waiting) (grant : ApprovalGrant) (now : Int)
  /-- The approval call returned the token of its grant. -/
  | approved (approver approverUserId : Str) (waiting : Waiting) (grant : ApprovalGrant)
  /-- The approval call raised with its grant made. -/
  | unrecorded (approver approverUserId : Str) (waiting : Waiting) (grant : ApprovalGrant)
  | returned
  | raised

structure Request where
  call : Call
  phase : Phase

/-- An appended event, with the handoff it was derived from. -/
structure Evidence where
  handoff : Handoff
  event : AuditEvent

/-- A worker was entered by a request. -/
structure Entry where
  request : Nat
  attempt : Attempt

/-- Everything the parts hold, and the history of records and of entries. -/
structure State where
  pending : PendingJobs
  /-- The request that holds the lock of the pending jobs through `decide`. -/
  lock : Option Nat
  ledger : Ledger
  approvals : ApprovalStore.Records
  accepted : ResultVerifier.Ledger
  recorder : Recorder
  evidence : List Evidence
  requests : List Request
  entries : List Entry

def State.initial : State where
  pending := []
  lock := none
  ledger := []
  approvals := []
  accepted := []
  recorder := ⟨[], .initial, false⟩
  evidence := []
  requests := []
  entries := []

/-- How a worker that was entered ends: with a value, which is bytes or not, with
an exception that the orchestrator turns into a refusal, or with one it does not
catch. -/
inductive WorkerAnswer where
  | returned (value : Option Bytes)
  | refused
  | interrupted

/-- What a step reads from outside: the clock, the token source, the worker, and
what becomes of the commits of an append. -/
structure Input where
  now : Int
  drawn : Option Bytes
  answer : WorkerAnswer
  recovery : Reply
  acknowledgement : Reply

inductive Label where
  /-- A new request. -/
  | request (call : Call)
  /-- The next critical section of a request. -/
  | advance (index : Nat) (input : Input)

/-- `recorder.append`. -/
def State.append (service : Service) (input : Input) (state : State) (evidence : Evidence) :
    Outcome Unit × State :=
  let (outcome, recorder) := AnchoredAudit.append service.audit evidence.event input.recovery
    input.acknowledgement state.recorder
  -- an append that raises in its recovery has not reached the chain
  let linked := state.recorder.chain.length < recorder.chain.length
  (outcome, { state with
    recorder
    evidence := if linked then state.evidence ++ [evidence] else state.evidence })

/-- `_append_event`: the phase after it, or the request raises. -/
def State.record (service : Service) (input : Input) (state : State) (handoff : Handoff)
    (traceId apiSubject : Str) (notice : Notice) (then_ : Phase) : Phase × State :=
  match notice.event handoff traceId apiSubject with
  | .error _ => (.raised, state)
  | .ok event =>
      match state.append service input ⟨handoff, event⟩ with
      | (.ok (), after) => (then_, after)
      | (.error _, after) => (.raised, after)

/-- What `submit` does once its event is recorded. -/
def submitted (service : Service) (job : Job) : Phase :=
  match service.policy.grantFor job.subject with
  | .ok grant => if grant.requiresApproval then .adding job else .starting job
  | .error _ => .raised

/-- `dispatch` up to the gateway. -/
def start (service : Service) (state : State) (job : Job) (now : Int) : Phase :=
  let endpoint := do
    checkJobId job.jobId
    route service.orchestrator (service.presented job.subject job.jobId now)
  match endpoint with
  | .error raised =>
      match denial? raised with
      | some denial => .refusing job (.orchestrator denial now)
      | none => .raised
  | .ok endpoint =>
      if state.ledger.isBurned job.jobId then .refusing job (.orchestrator .jobIdReused now)
      else if state.ledger.isFull then .refusing job (.orchestrator .jobLedgerFull now)
      else .admitting job now endpoint

/-- The gateway's answer. -/
def admitting (interpreter : Interpreter) (service : Service) (state : State) (job : Job)
    (now : Int) (endpoint : WorkerEndpoint) : Phase × State :=
  let (answer, approvals) := service.gateway.admission interpreter (some job.wire)
    (service.presented job.subject job.jobId now) job.approvalToken false state.approvals
  let phase := match answer with
    | .error (.rejected _ reason) => .refusing job (.gateway reason now)
    | .error (.raised _) => .raised
    | .ok permit =>
        if permit.handoff.toBytes ≠ job.wire then .raised else .admitted ⟨job, now, endpoint, permit⟩
  (phase, { state with approvals })

/-- `_admission_recorder`. -/
def recordAdmission (service : Service) (input : Input) (state : State) (attempt : Attempt) :
    Phase × State :=
  if attempt.permit.gatewayId ≠ service.gatewayId then (.raised, state)
  else
    match traceId attempt.permit.handoff with
    | .error _ => (.raised, state)
    | .ok traceId =>
        state.record service input attempt.permit.handoff traceId attempt.job.subject
          (.admitted attempt.permit) (.reserving attempt)

/-- `_reserve`, with the reservation it burns the id for. -/
def reserving (state : State) (attempt : Attempt) : Phase × State :=
  let made := do
    let digest ← handoffDigest attempt.permit.handoff
    reservation attempt.job.jobId attempt.job.subject digest attempt.permit.handoff.expiresAt
      attempt.now
  let denied (denial : Denial) : Phase := .refusing attempt.job (.orchestrator denial attempt.now)
  match made with
  | .error _ => (.raised, state)
  | .ok reservation =>
      if state.ledger.isFull then
        (denied (if state.ledger.isBurned reservation.jobId then .jobIdReused else .jobLedgerFull),
          state)
      else
        match state.ledger.reserve reservation.jobId with
        | (true, ledger) => (.committing attempt, { state with ledger })
        | (false, ledger) =>
            let full := ledger.isFull && !ledger.isBurned reservation.jobId
            (denied (if full then .jobLedgerFull else .jobIdReused), { state with ledger })

/-- `_dispatch_recorder`. -/
def recordDispatch (service : Service) (input : Input) (state : State) (attempt : Attempt) :
    Phase × State :=
  match traceId attempt.permit.handoff with
  | .error _ => (.raised, state)
  | .ok traceId =>
      state.record service input attempt.permit.handoff traceId attempt.job.subject
        (.dispatched service attempt.now) (.entering attempt)

/-- What `_run` makes of the worker's end. -/
def answered (attempt : Attempt) : WorkerAnswer → Phase
  | .returned (some (byte :: bytes)) => .verifying attempt (byte :: bytes)
  | .returned _ => .refusing attempt.job (.worker attempt.now)
  | .refused => .refusing attempt.job (.worker attempt.now)
  | .interrupted => .raised

/-- `verifier.accept`. -/
def verifying (interpreter : Interpreter) (service : Service) (state : State) (attempt : Attempt)
    (resultWire : Bytes) (now : Int) : Phase × State :=
  let (outcome, accepted) := ResultVerifier.accept interpreter service.verifier state.accepted {
    resultWire := some resultWire
    handoffWire := some attempt.permit.handoff.toBytes
    presented := service.presented attempt.job.subject attempt.job.jobId now
    approvalRecordHash := attempt.permit.approvalRecordHash.map Subtype.val
    transaction := false }
  let phase := match outcome with
    | .ok acceptance => .accepting attempt.job acceptance
    | .error (.rejected _ code) => .refusing attempt.job (.verifier code now)
    | .error (.raised _) => .raised
  (phase, { state with accepted })

/-- Where a request goes once its refusal is recorded. -/
def refused (job : Job) : Refusal → Phase
  | .gateway _ _ =>
      match job.restored with
      | some waiting => .restoring job.jobId waiting
      | none => .raised
  | _ => .raised

/-- `grant(waiting)` up to its event. -/
def granting (interpreter : Interpreter) (service : Service) (state : State)
    (approver approverUserId jobId : Str) (ttlSeconds : Int) (waiting : Waiting) (input : Input) :
    Phase × State :=
  let made : Outcome (ApprovalGrant × ApprovalStore.Records) :=
    if waiting.handoff.userId = approverUserId then fail "an approver cannot grant its own job"
    else do
      let scope_ ← createScope interpreter (some waiting.wire)
        (service.presented waiting.subject jobId input.now) service.signer.verifier
      ApprovalStore.grant interpreter state.approvals scope_ true input.now ttlSeconds input.drawn
        false
  match made with
  | .error _ => (.raised, { state with lock := none })
  | .ok (grant, approvals) =>
      (.granted approver approverUserId waiting grant input.now, { state with approvals })

/-- The event of a grant, and the end of `decide`. -/
def recordGrant (service : Service) (input : Input) (state : State)
    (approver approverUserId : Str) (waiting : Waiting) (grant : ApprovalGrant) (now : Int) :
    Phase × State :=
  let failed := Phase.unrecorded approver approverUserId waiting grant
  let (phase, after) := match (Notice.granted service grant now).event waiting.handoff
      waiting.traceId approver with
    | .error _ => (failed, state)
    | .ok event =>
        match state.append service input ⟨waiting.handoff, event⟩ with
        | (.ok (), after) => (.approved approver approverUserId waiting grant, after)
        | (.error _, after) => (failed, after)
  (phase, { after with lock := none })

/-- The first critical section of a request. -/
def begin_ (interpreter : Interpreter) (service : Service) (state : State) (index : Nat)
    (input : Input) : Call → Option (Phase × State)
  | .submit subject jobId payload =>
      match issueJob interpreter service subject jobId payload input.now with
      | .error _ => some (.raised, state)
      | .ok job => some (.issued job input.now, state)
  | .complete subject jobId approvalToken =>
      if state.lock.isSome then none
      else
        match PendingJobs.take state.pending jobId subject with
        | .error _ => some (.raised, state)
        | .ok (waiting, pending) =>
            some (.starting (waiting.job subject jobId approvalToken), { state with pending })
  | .approve approver jobId ttlSeconds =>
      match service.approvers.userId approver, approver with
      | .ok userId, some approver =>
          if state.lock.isSome then none
          else
            match PendingJobs.decide state.pending jobId userId input.now ttlSeconds with
            | .error _ => some (.raised, state)
            | .ok (waiting, pending) =>
                some (.decided approver userId jobId ttlSeconds waiting,
                  { state with pending, lock := some index })
      | _, _ => some (.raised, state)

/-- The next critical section of a request: the phase after it and what it did. -/
def turn (interpreter : Interpreter) (service : Service) (state : State) (index : Nat)
    (request : Request) (input : Input) : Option (Phase × State) :=
  match request.phase with
  | .called => begin_ interpreter service state index input request.call
  | .issued job now =>
      some (state.record service input job.handoff job.traceId job.subject
        (.issued service job.handoff now) (submitted service job))
  | .adding job =>
      if state.lock.isSome then none
      else
        match PendingJobs.add state.pending job.jobId job.waiting input.now with
        | (.ok (), pending) => some (.returned, { state with pending })
        | (.error _, pending) => some (.raised, { state with pending })
  | .starting job => some (start service state job input.now, state)
  | .admitting job now endpoint => some (admitting interpreter service state job now endpoint)
  | .admitted attempt => some (recordAdmission service input state attempt)
  | .reserving attempt => some (reserving state attempt)
  | .committing attempt =>
      match state.ledger.commitExecution attempt.job.jobId with
      | none => some (.raised, state)
      | some ledger => some (.committed attempt, { state with ledger })
  | .committed attempt => some (recordDispatch service input state attempt)
  | .entering attempt =>
      some (.running attempt, { state with entries := state.entries ++ [⟨index, attempt⟩] })
  | .running attempt => some (answered attempt input.answer, state)
  | .verifying attempt resultWire =>
      some (verifying interpreter service state attempt resultWire input.now)
  | .accepting job acceptance =>
      some (state.record service input job.handoff job.traceId job.subject
        (.accepted service acceptance) .returned)
  | .refusing job refusal =>
      some (state.record service input job.handoff job.traceId job.subject
        (refusal.notice service job.handoff) (refused job refusal))
  | .restoring jobId waiting =>
      if state.lock.isSome then none
      else some (.raised, { state with pending := PendingJobs.restore state.pending jobId waiting })
  | .decided approver approverUserId jobId ttlSeconds waiting =>
      some (granting interpreter service state approver approverUserId jobId ttlSeconds waiting input)
  | .granted approver approverUserId waiting grant now =>
      some (recordGrant service input state approver approverUserId waiting grant now)
  | _ => none

def State.setPhase (state : State) (index : Nat) (request : Request) (phase : Phase) : State :=
  { state with requests := state.requests.set index { request with phase } }

def step (interpreter : Interpreter) (service : Service) (state : State) : Label → Option State
  | .request call => some { state with requests := state.requests ++ [⟨call, .called⟩] }
  | .advance index input => do
      let request ← state.requests[index]?
      let (phase, after) ← turn interpreter service state index request input
      return after.setPhase index request phase

end Wiring

end GeniusNew
