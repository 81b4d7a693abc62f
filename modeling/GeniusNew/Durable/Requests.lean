import GeniusNew.Audit.Store
import GeniusNew.Database.Stores
import GeniusNew.Service.Wiring

/-! # The durable service

Any number of instances share one database. A request submits a job, completes one
that waited for its approval, or approves one; what it decides is committed together
with the signed event of the decision, in one transaction. Every transaction is one
step, and between two of them anything else may happen: other requests of this
instance or another, or the crash that leaves a request where it stands.
-/

namespace GeniusNew.Durable

open Json
open Orchestrator (Reservation WorkerEndpoint checkJobId deny reservation route)
open Wiring (Call Job Notice Refusal Service Waiting WorkerAnswer)

/-- The tables of the stores beside those of the audit chain. -/
structure Store where
  tables : Database.Tables
  audit : AuditStore.Tables

def Store.empty : Store := ⟨.empty, ⟨[], []⟩⟩

/-- The transaction of `recorder.atomic`: a mutation with its signed event, both or
neither. -/
def Store.atomic {Failure Made : Type} (pass : Raised → Failure) (interpreter : Interpreter)
    (authority : AuditAuthority) (store : Store)
    (mutate : Database.Tables → Except Failure (Made × Database.Tables))
    (event : Made → Outcome AuditEvent) : Except Failure (Made × Store) := do
  let (made, tables) ← mutate store.tables
  let (_, audit) ← (event made >>= fun event =>
    AuditStore.append interpreter authority event store.audit).mapError pass
  return (made, ⟨tables, audit⟩)

/-- A dispatch whose handoff was admitted and whose job is reserved. -/
structure Attempt where
  job : Job
  now : Int
  endpoint : WorkerEndpoint
  permit : DispatchPermit
  reservation : Reservation

/-- What an approval call decides on. -/
structure Approval where
  approver : Str
  approverUserId : Str
  jobId : Str
  ttlSeconds : Int
  waiting : Waiting

/-- Where a request stands. -/
inductive Phase where
  | called
  /-- Before the job is put among the pending ones with HANDOFF_ISSUED. -/
  | queueing (job : Job) (issuedAt : Int)
  /-- Before HANDOFF_ISSUED is recorded. -/
  | issued (job : Job) (issuedAt : Int)
  /-- Before `_available`. -/
  | starting (job : Job)
  /-- Before the job is admitted and reserved with HANDOFF_ADMITTED. -/
  | admitting (job : Job) (now : Int) (endpoint : WorkerEndpoint)
  /-- Before the reservation is committed with EXECUTION_DISPATCHED. -/
  | committing (attempt : Attempt)
  /-- Before the worker is entered. -/
  | entering (attempt : Attempt)
  | running (attempt : Attempt)
  /-- Before the result is accepted with RESULT_ACCEPTED. -/
  | verifying (attempt : Attempt) (resultWire : Bytes)
  /-- Before a refusal is recorded. -/
  | refusing (job : Job) (refusal : Refusal)
  /-- Inside `grant`, before the clock is read. -/
  | approving (approval : Approval)
  /-- Before an expired job is refused with HANDOFF_REJECTED. -/
  | lapsing (approval : Approval) (now : Int)
  /-- Before the approval is granted with APPROVAL_GRANTED. -/
  | granting (approval : Approval) (now : Int)
  /-- The approval call returned the token of its grant. -/
  | approved (approval : Approval) (grant : ApprovalGrant)
  | returned
  | raised

/-- A request of an instance. -/
structure Request where
  service : Service
  call : Call
  phase : Phase

/-- A worker was entered by a request. -/
structure Entry where
  service : Service
  attempt : Attempt

structure State where
  store : Store
  requests : List Request
  entries : List Entry

def State.initial : State := ⟨.empty, [], []⟩

/-- What a step reads from outside: the clock, the token source, the worker, and
whether the anchor acknowledges what an earlier transaction left to it and what this
one commits. -/
structure Input where
  now : Int
  drawn : Option Bytes
  answer : WorkerAnswer
  recovered : Bool
  acknowledged : Bool

inductive Label where
  /-- A new request of an instance. -/
  | request (service : Service) (call : Call)
  /-- The next step of a request. -/
  | advance (index : Nat) (input : Input)

/-- `recorder.atomic` and `recorder.append`. What was committed stays when the anchor
does not acknowledge it. -/
def State.commit {Failure Made : Type} (state : State) (input : Input)
    (made : Except Failure (Made × Store)) (then_ : Made → Phase) (failed : Failure → Phase) :
    Phase × State :=
  if ¬ input.recovered then (.raised, state)
  else
    match made with
    | .error failure => (failed failure, state)
    | .ok (made, store) =>
        (if input.acknowledged then then_ made else .raised, { state with store })

/-- `_append_event` of a plain decision. -/
def State.note (interpreter : Interpreter) (service : Service) (state : State) (input : Input)
    (event : Outcome AuditEvent) (then_ : Phase) : Phase × State :=
  state.commit input (state.store.atomic id interpreter service.audit
    (fun tables => .ok ((), tables)) fun _ => event) (fun _ => then_) fun _ => .raised

/-- `Gateway.admit` with the durable approvals. -/
def admission (interpreter : Interpreter) (gateway : Gateway) (wire : Bytes)
    (presented : Presented) (approvalToken : Option Bytes) (tables : Database.Tables) :
    Except GatewayRaised (DispatchPermit × Database.Tables) := do
  let grant ← rejecting .subjectNotAuthorized (presented.policy.grantFor presented.subject)
  if grant.requiresApproval then
    match approvalToken with
    | none => .error (.rejected "approval token is required" .approvalRequired)
    | some token => do
        let (handoff, scope) ← gateway.pendingHandoff interpreter (some wire) presented
        let (receipt, tables) ← rejecting .approvalNotValid
          (Database.PostgresApprovalStore.consume interpreter token scope presented.now
            presented.subject tables)
        let permit ← gateway.permit handoff presented.now (some receipt.recordHash)
        return (permit, tables)
  else
    match approvalToken with
    | some _ => .error (.rejected
        "approval token is not allowed when policy does not require approval" .approvalUnexpected)
    | none => do
        let handoff ← rejecting .handoffNotValid
          (validate interpreter (some wire) presented gateway.handoffVerifier)
        let permit ← gateway.permit handoff presented.now none
        return (permit, tables)

/-- `_reserve`, where the ledger is never full. -/
def reserve (interpreter : Interpreter) (reservation : Reservation)
    (approvalRecordHash : Option Digest) (tables : Database.Tables) : Outcome Database.Tables := do
  let (reserved, tables) ← Database.PostgresJobLedger.reserveAdmitted interpreter reservation
    (approvalRecordHash.map Subtype.val) tables
  if ¬ reserved then deny .jobIdReused else return tables

/-- `admit_and_reserve` inside a transaction. -/
def admitAndReserve (interpreter : Interpreter) (service : Service) (job : Job) (now : Int)
    (tables : Database.Tables) :
    Except GatewayRaised ((DispatchPermit × Reservation) × Database.Tables) := do
  let (permit, tables) ← admission interpreter service.gateway job.wire
    (service.presented job.subject job.jobId now) job.approvalToken tables
  if permit.handoff.toBytes ≠ job.wire then
    passing (fail "gateway admitted a different handoff than the one submitted")
  else do
    let digest ← passing (handoffDigest permit.handoff)
    let reservation ← passing
      (reservation job.jobId job.subject digest permit.handoff.expiresAt now)
    let tables ← passing (reserve interpreter reservation permit.approvalRecordHash tables)
    return ((permit, reservation), tables)

/-- `ResultVerifier.accept` with the durable ledger. -/
def acceptance (interpreter : Interpreter) (verifier : ResultVerifier.Verifier)
    (arguments : ResultVerifier.Arguments) (tables : Database.Tables) :
    Except ResultVerifier.Refusal (ResultVerifier.Acceptance × Database.Tables) := do
  let (handoff, result, digest) ← ResultVerifier.checked interpreter verifier arguments
  let (taken, tables) ← ResultVerifier.passing
    (Database.PostgresAcceptanceLedger.reserve handoff.jobId handoff.toBytes result.toBytes
      arguments.presented.now tables)
  if ¬ taken then
    .error (.rejected "this handoff already has an accepted result" .resultAlreadyAccepted)
  else return ({
    jobId := handoff.jobId
    workerAgentId := handoff.workerAgentId
    handoffSha256 := digest
    resultSha256 := sha256 result.toBytes
    status := result.status
    result
    approvalRecordHash := arguments.approvalRecordHash
    occurredAt := arguments.presented.now }, tables)

/-- The event of `_atomic_admission_recorder`. -/
def admittedEvent (service : Service) (subject : Str) (permit : DispatchPermit) :
    Outcome AuditEvent :=
  if permit.gatewayId ≠ service.gatewayId then
    fail "admission names a gateway this service did not wire"
  else do
    let traceId ← Wiring.traceId permit.handoff
    (Notice.admitted permit).event permit.handoff traceId subject

/-- The event of `_atomic_dispatch_recorder`. -/
def dispatchedEvent (service : Service) (attempt : Attempt) : Outcome AuditEvent := do
  let traceId ← Wiring.traceId attempt.permit.handoff
  (Notice.dispatched service attempt.now).event attempt.permit.handoff traceId attempt.job.subject

/-- `_PENDING_EXPIRED`. -/
def pendingExpired : String := "PENDING_APPROVAL_EXPIRED"

/-- `_PENDING_DISPATCH_REFUSED`. -/
def pendingDispatchRefused : String := "PENDING_DISPATCH_REFUSED"

/-- `_atomic_pending_refusal`. -/
def State.refuse (interpreter : Interpreter) (service : Service) (state : State) (input : Input)
    (waiting : Waiting) (jobId : Str) (notice : Notice) (then_ : Phase) : Phase × State :=
  state.commit input (state.store.atomic id interpreter service.audit
    (fun tables => do
      let tables ← Database.PostgresPendingJobs.refuse jobId waiting.subject notice.occurredAt tables
      return ((), tables))
    fun _ => notice.event waiting.handoff waiting.traceId waiting.subject)
    (fun _ => then_) fun _ => .raised

/-- The refusals that end a waiting job. Every other one only leaves its event. -/
def terminal (service : Service) (waiting : Waiting) : Refusal → Option Notice
  | .gateway _ now =>
      if now ≥ waiting.handoff.expiresAt then
        some (.refused .gateway service.gatewayId .handoffRejected pendingExpired now)
      else none
  | .orchestrator denial now =>
      if denial = .jobIdReused then none
      else some (.refused .orchestrator service.policy.orchestratorId .handoffRejected
        pendingDispatchRefused now)
  | _ => none

/-- What follows a refusal of a job. -/
def refusing (interpreter : Interpreter) (service : Service) (state : State) (input : Input)
    (job : Job) (refusal : Refusal) : Phase × State :=
  match job.restored.bind fun waiting => (terminal service waiting refusal).map (waiting, ·) with
  | some (waiting, notice) => state.refuse interpreter service input waiting job.jobId notice .raised
  | none => state.note interpreter service input
      ((refusal.notice service job.handoff).event job.handoff job.traceId job.subject) .raised

/-- `dispatch` up to the gateway. The ledger is never full. -/
def start (service : Service) (tables : Database.Tables) (job : Job) (now : Int) : Phase :=
  let endpoint := do
    checkJobId job.jobId
    route service.orchestrator (service.presented job.subject job.jobId now)
  match endpoint with
  | .error raised =>
      match Wiring.denial? raised with
      | some denial => .refusing job (.orchestrator denial now)
      | none => .raised
  | .ok endpoint =>
      match Database.PostgresJobLedger.dispatchAvailable job.jobId job.subject
          (some (sha256 job.wire).val) tables with
      | .error _ => .raised
      | .ok false => .refusing job (.orchestrator .jobIdReused now)
      | .ok true => .admitting job now endpoint

/-- Where a dispatch goes that the gateway or the orchestrator refuses. -/
def notAdmitted (job : Job) (now : Int) : GatewayRaised → Phase
  | .rejected _ reason => .refusing job (.gateway reason now)
  | .raised raised =>
      match Wiring.denial? raised with
      | some denial => .refusing job (.orchestrator denial now)
      | none => .raised

/-- Where a result goes that the verifier does not accept. -/
def notAccepted (job : Job) (now : Int) : ResultVerifier.Refusal → Phase
  | .rejected _ code => .refusing job (.verifier code now)
  | .raised _ => .raised

/-- What `_run` makes of the worker's end. -/
def answered (attempt : Attempt) : WorkerAnswer → Phase
  | .returned (some (byte :: bytes)) => .verifying attempt (byte :: bytes)
  | .returned _ => .refusing attempt.job (.worker attempt.now)
  | .refused => .refusing attempt.job (.worker attempt.now)
  | .interrupted => .raised

/-- The arguments of `accept_result`. -/
def Attempt.arguments (service : Service) (attempt : Attempt) (resultWire : Bytes) (now : Int) :
    ResultVerifier.Arguments where
  resultWire := some resultWire
  handoffWire := some attempt.permit.handoff.toBytes
  presented := service.presented attempt.job.subject attempt.job.jobId now
  approvalRecordHash := attempt.permit.approvalRecordHash.map Subtype.val
  transaction := true

/-- `grant(waiting)` up to the clock. -/
def approving (approval : Approval) (now : Int) : Phase :=
  if approval.waiting.handoff.userId = approval.approverUserId then .raised
  else if now ≥ approval.waiting.handoff.expiresAt then .lapsing approval now
  else .granting approval now

/-- The end of `grant(waiting)`. -/
def granting (interpreter : Interpreter) (service : Service) (state : State) (input : Input)
    (approval : Approval) (now : Int) : Phase × State :=
  match createScope interpreter (some approval.waiting.wire)
      (service.presented approval.waiting.subject approval.jobId now) service.signer.verifier with
  | .error _ => (.raised, state)
  | .ok scope =>
      state.commit input (state.store.atomic id interpreter service.audit
        (Database.PostgresApprovalStore.grant interpreter scope true now approval.ttlSeconds
          input.drawn)
        fun grant => (Notice.granted service grant now).event approval.waiting.handoff
          approval.waiting.traceId approval.approver)
        (.approved approval) fun _ => .raised

/-- The event of `submit`. -/
def issuedEvent (service : Service) (job : Job) (issuedAt : Int) : Outcome AuditEvent :=
  (Notice.issued service job.handoff issuedAt).event job.handoff job.traceId job.subject

/-- The first step of a request. -/
def begin_ (interpreter : Interpreter) (service : Service) (tables : Database.Tables)
    (input : Input) : Call → Phase
  | .submit subject jobId payload =>
      match Wiring.issueJob interpreter service subject jobId payload input.now with
      | .error _ => .raised
      | .ok job =>
          match service.policy.grantFor subject with
          | .error _ => .raised
          | .ok grant =>
              if grant.requiresApproval then .queueing job input.now else .issued job input.now
  | .complete subject jobId approvalToken =>
      match Database.PostgresPendingJobs.take interpreter service.policy service.signer.verifier
          jobId subject tables with
      | .error _ => .raised
      | .ok waiting => .starting (waiting.job subject jobId approvalToken)
  | .approve approver jobId ttlSeconds =>
      match service.approvers.userId approver, approver with
      | .ok approverUserId, some approver =>
          match Database.PostgresPendingJobs.peek interpreter service.policy
              service.signer.verifier jobId tables with
          | .error _ => .raised
          | .ok waiting => .approving ⟨approver, approverUserId, jobId, ttlSeconds, waiting⟩
      | _, _ => .raised

/-- The next step of a request: the phase after it and what it did. -/
def turn (interpreter : Interpreter) (state : State) (request : Request) (input : Input) :
    Option (Phase × State) :=
  let service := request.service
  match request.phase with
  | .called => some (begin_ interpreter service state.store.tables input request.call, state)
  | .queueing job issuedAt =>
      some (state.commit input (state.store.atomic id interpreter service.audit
        (fun tables => do
          let tables ← Database.PostgresPendingJobs.add interpreter service.policy
            service.signer.verifier job.jobId job.waiting input.now tables
          return ((), tables))
        fun _ => issuedEvent service job issuedAt) (fun _ => .returned) fun _ => .raised)
  | .issued job issuedAt =>
      some (state.note interpreter service input (issuedEvent service job issuedAt) (.starting job))
  | .starting job => some (start service state.store.tables job input.now, state)
  | .admitting job now endpoint =>
      some (state.commit input (state.store.atomic .raised interpreter service.audit
        (admitAndReserve interpreter service job now)
        fun made => admittedEvent service job.subject made.1)
        (fun made => .committing ⟨job, now, endpoint, made.1, made.2⟩) (notAdmitted job now))
  | .committing attempt =>
      some (state.commit input (state.store.atomic id interpreter service.audit
        (fun tables => do
          let tables ← Database.PostgresJobLedger.commitExecution attempt.reservation attempt.now
            tables
          return ((), tables))
        fun _ => dispatchedEvent service attempt) (fun _ => .entering attempt) fun _ => .raised)
  | .entering attempt =>
      some (.running attempt, { state with entries := state.entries ++ [⟨service, attempt⟩] })
  | .running attempt => some (answered attempt input.answer, state)
  | .verifying attempt resultWire =>
      some (state.commit input (state.store.atomic .raised interpreter service.audit
        (acceptance interpreter service.verifier
          (attempt.arguments service resultWire input.now))
        fun acceptance => (Notice.accepted service acceptance).event attempt.job.handoff
          attempt.job.traceId attempt.job.subject)
        (fun _ => .returned) (notAccepted attempt.job input.now))
  | .refusing job refusal => some (refusing interpreter service state input job refusal)
  | .approving approval => some (approving approval input.now, state)
  | .lapsing approval now =>
      some (state.refuse interpreter service input approval.waiting approval.jobId
        (.refused .gateway service.gatewayId .handoffRejected pendingExpired now)
        (.granting approval now))
  | .granting approval now => some (granting interpreter service state input approval now)
  | .approved _ _ => none
  | .returned => none
  | .raised => none

/-- One step, in any order and whatever comes from outside. A request that is never
advanced again has crashed. -/
def step (interpreter : Interpreter) (state : State) : Label → Option State
  | .request service call =>
      some { state with requests := state.requests ++ [⟨service, call, .called⟩] }
  | .advance index input => do
      let request ← state.requests[index]?
      let (phase, after) ← turn interpreter state request input
      return { after with requests := after.requests.set index { request with phase } }

end GeniusNew.Durable
