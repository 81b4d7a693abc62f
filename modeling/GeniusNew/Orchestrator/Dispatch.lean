import GeniusNew.Approvals.Gateway
import GeniusNew.Transition.Run

/-! # Dispatch

Any number of orchestrators share one process-local job ledger. A dispatch call
checks that its job id is free, has the gateway admit its wire, reserves the id,
commits the reservation to execution and enters the worker. Every critical section
is one step; between two steps of a call anything else may happen.

With the atomic callbacks configured, the call hands two functions to them: the
one that admits and reserves, and the one that commits. `Orchestrator.step` lets
the callbacks call these at any time and as often as they like, and return or
raise whatever they like.
-/

namespace GeniusNew

open Json

namespace Orchestrator

def maxJobIdBytes : Nat := 128

def maxJobs : Nat := 100000

inductive JobState where
  | reserved
  | executionCommitted
  deriving DecidableEq

/-- The states of a `ProcessLocalJobLedger`. -/
abbrev Ledger := List (Str × JobState)

structure Reservation where
  jobId : Str
  subject : Str
  handoffSha256 : Digest
  expiresAt : Int
  reservedAt : Int
  deriving DecidableEq

def inRange (time : Int) : Prop := 1 ≤ time ∧ time ≤ 4102444800

instance (time : Int) : Decidable (inRange time) := inferInstanceAs (Decidable (_ ∧ _))

/-- `Reservation(...)` with the checks of `__post_init__`. -/
def reservation (jobId subject : Str) (handoffSha256 : Digest) (expiresAt reservedAt : Int) :
    Outcome Reservation :=
  if jobId = [] then fail "reservation job_id must be a non-empty string"
  else if subject = [] then fail "reservation subject must be a non-empty string"
  else if encodedLength jobId > maxJobIdBytes then
    fail "reservation job_id must be at most 128 bytes"
  else if ¬ inRange expiresAt then
    fail "reservation expires_at is outside the range the audit contract accepts"
  else if ¬ inRange reservedAt then
    fail "reservation reserved_at is outside the range the audit contract accepts"
  else if expiresAt ≤ reservedAt then fail "reservation must be made before its handoff expires"
  else .ok ⟨jobId, subject, handoffSha256, expiresAt, reservedAt⟩

namespace Ledger

def isBurned (ledger : Ledger) (jobId : Str) : Bool := (ledger.lookup jobId).isSome

def isFull (ledger : Ledger) : Bool := ledger.length ≥ maxJobs

/-- `reserve`: the answer and the ledger afterwards. -/
def reserve (ledger : Ledger) (jobId : Str) : Bool × Ledger :=
  if ledger.isBurned jobId then (false, ledger)
  else if ledger.length ≥ maxJobs then (false, ledger)
  else (true, ledger ++ [(jobId, .reserved)])

/-- `commit_execution`, absent when the job is not reserved. -/
def commitExecution (ledger : Ledger) (jobId : Str) : Option Ledger :=
  if ledger.lookup jobId = some .reserved then
    some (ledger.map fun entry =>
      if entry.1 = jobId then (jobId, .executionCommitted) else entry)
  else none

end Ledger

structure WorkerEndpoint where
  workerAgentId : Str
  tool : Str
  deriving DecidableEq

/-- An orchestrator, with the approval store of its gateway and the callbacks it
was given. -/
structure Config where
  orchestratorId : Str
  gateway : Gateway
  approvals : Nat
  workers : List WorkerEndpoint
  onAdmitted : Bool
  onDispatched : Bool
  atomic : Bool

inductive Denial where
  | policyNotForThisOrchestrator
  | subjectNotAuthorized
  | workerNotConfigured
  | toolNotGranted
  | jobIdReused
  | jobLedgerFull
  deriving DecidableEq

def Denial.message : Denial → String
  | policyNotForThisOrchestrator => "policy orchestrator_id does not name this orchestrator"
  | subjectNotAuthorized => "subject is not authorized by the trusted policy"
  | workerNotConfigured => "trusted policy names an unconfigured worker"
  | toolNotGranted => "configured worker tool is not granted by policy"
  | jobIdReused => "job_id has already been dispatched"
  | jobLedgerFull => "job ledger is full"

def Denial.code : Denial → String
  | policyNotForThisOrchestrator => "POLICY_NOT_FOR_THIS_ORCHESTRATOR"
  | subjectNotAuthorized => "SUBJECT_NOT_AUTHORIZED"
  | workerNotConfigured => "WORKER_NOT_CONFIGURED"
  | toolNotGranted => "TOOL_NOT_GRANTED"
  | jobIdReused => "JOB_ID_REUSED"
  | jobLedgerFull => "JOB_LEDGER_FULL"

/-- `str(Denied(...))`. -/
def Denial.text (reason : Denial) : String := reason.message ++ " (" ++ reason.code ++ ")"

/-- `_deny`. -/
def deny {α : Type} (reason : Denial) : Outcome α := fail reason.text

/-- The arguments of `dispatch`. -/
structure Arguments where
  wire : Option Bytes
  presented : Presented
  approvalToken : Option Bytes

def checkJobId (jobId : Str) : Outcome Unit :=
  if jobId = [] then fail "job_id must be a non-empty string"
  else if encodedLength jobId > maxJobIdBytes then fail "job_id must be at most 128 bytes"
  else .ok ()

def route (config : Config) (presented : Presented) : Outcome WorkerEndpoint :=
  if ¬ inRange presented.now then fail "now is outside the range the audit contract accepts"
  else if presented.policy.orchestratorId ≠ config.orchestratorId then
    deny .policyNotForThisOrchestrator
  else
    match presented.policy.grantFor presented.subject with
    | .error _ => deny .subjectNotAuthorized
    | .ok grant =>
        match config.workers.find? fun worker => worker.workerAgentId = grant.workerAgentId with
        | none => deny .workerNotConfigured
        | some endpoint =>
            if endpoint.tool ∉ grant.tools then deny .toolNotGranted else .ok endpoint

/-- Where a dispatch call stands. -/
inductive Phase where
  /-- Before `dispatch_available`. -/
  | asking
  /-- Before the first `is_full`. -/
  | measuring
  /-- While it is admitted and reserved. -/
  | admitting
  /-- While its reservation is committed to execution. -/
  | committing
  /-- While `on_dispatched` runs. -/
  | announcing
  /-- Before the worker is entered. -/
  | entering
  /-- Inside the worker. -/
  | running
  | ended
  deriving DecidableEq

/-- A dispatch call. It is `held` to a permit and a reservation once it was
admitted, and `committed` once the function that commits this reservation has
returned. -/
structure Call where
  config : Config
  arguments : Arguments
  endpoint : WorkerEndpoint
  phase : Phase
  held : Option (DispatchPermit × Reservation)
  committed : Bool

/-- Where one run of `admit_and_reserve` stands. -/
inductive Progress where
  /-- Before the gateway is asked. -/
  | starting
  /-- While `on_admitted` runs. -/
  | announcing (permit : DispatchPermit)
  /-- Before `is_full` in `_reserve`. -/
  | measuring (permit : DispatchPermit) (reservation : Reservation)
  /-- Before `reserve_admitted`. -/
  | reserving (permit : DispatchPermit) (reservation : Reservation)
  /-- Refused, before the reads that choose the message. -/
  | refused
  | returned (permit : DispatchPermit) (reservation : Reservation)
  | raised

/-- One run of `admit_and_reserve` for a call, with the arguments it was given. -/
structure Mutation where
  call : Nat
  transaction : Bool
  recordAdmission : Bool
  progress : Progress

/-- A worker was entered by a call, with a permit. -/
structure Entry where
  call : Nat
  worker : WorkerEndpoint
  permit : DispatchPermit

def Entry.jobId (entry : Entry) : Str := entry.permit.handoff.jobId

/-- The ledger, the approval stores, the calls and the runs of their functions,
and every entry of a worker so far. -/
structure State where
  ledger : Ledger
  approvals : Nat → List (Bytes × ApprovalRecord)
  calls : List Call
  mutations : List Mutation
  entries : List Entry

def State.initial (approvals : Nat → List (Bytes × ApprovalRecord)) : State :=
  ⟨[], approvals, [], [], []⟩

inductive Label where
  /-- A new call of `dispatch`. -/
  | dispatch (config : Config) (arguments : Arguments)
  /-- The next critical section of a call. -/
  | advance (call : Nat)
  /-- `admit_and_reserve` of a call is called. -/
  | invoke (call : Nat) (transaction recordAdmission : Bool)
  /-- The next critical section of a run of `admit_and_reserve`. -/
  | mutate (mutation : Nat)
  /-- `atomic_admitted` returns. -/
  | admittedReturns (call : Nat) (permit : DispatchPermit) (reservation : Reservation)
  /-- The function that commits a call's reservation is called. -/
  | commit (call : Nat) (transaction : Bool)
  /-- `atomic_dispatched` returns. -/
  | dispatchedReturns (call : Nat)
  /-- A call raises where it stands, or the worker it entered ends. -/
  | leave (call : Nat)
  /-- A run of `admit_and_reserve` raises where it stands. -/
  | abandon (mutation : Nat)
  /-- Someone else changes an approval store. -/
  | approvals (store : Nat) (records : List (Bytes × ApprovalRecord))

def State.setCall (state : State) (index : Nat) (call : Call) : State :=
  { state with calls := state.calls.set index call }

def State.setMutation (state : State) (index : Nat) (mutation : Mutation) : State :=
  { state with mutations := state.mutations.set index mutation }

/-- What `admit_and_reserve` does with a permit before it reserves. -/
def prepared (call : Call) (permit : DispatchPermit) : Progress :=
  let made := do
    let digest ← handoffDigest permit.handoff
    reservation call.arguments.presented.jobId call.arguments.presented.subject digest
      permit.handoff.expiresAt call.arguments.presented.now
  match made with
  | .ok reservation => .measuring permit reservation
  | .error _ => .raised

/-- What follows the gateway's answer. -/
def admitted (call : Call) (recordAdmission : Bool) :
    Except GatewayRaised DispatchPermit → Progress
  | .error _ => .raised
  | .ok permit =>
      if some permit.handoff.toBytes ≠ call.arguments.wire then .raised
      else if recordAdmission && call.config.onAdmitted then .announcing permit
      else prepared call permit

/-- The next critical section of a run of `admit_and_reserve`. -/
def mutate (interpreter : Interpreter) (state : State) (index : Nat) (mutation : Mutation)
    (call : Call) : Option State :=
  match mutation.progress with
  | .starting =>
      let (answer, records) := call.config.gateway.admission interpreter call.arguments.wire
        call.arguments.presented call.arguments.approvalToken mutation.transaction
        (state.approvals call.config.approvals)
      some { state.setMutation index
          { mutation with progress := admitted call mutation.recordAdmission answer } with
        approvals := Function.update state.approvals call.config.approvals records }
  | .announcing permit =>
      some (state.setMutation index { mutation with progress := prepared call permit })
  | .measuring permit reservation =>
      some (state.setMutation index { mutation with
        progress := if state.ledger.isFull then .refused else .reserving permit reservation })
  | .reserving permit reservation =>
      if mutation.transaction then
        some (state.setMutation index { mutation with progress := .raised })
      else
        let (answer, ledger) := state.ledger.reserve reservation.jobId
        some { state.setMutation index { mutation with
            progress := if answer then .returned permit reservation else .refused } with ledger }
  | .refused => some (state.setMutation index { mutation with progress := .raised })
  | .returned _ _ => none
  | .raised => none

/-- The next critical section of a call. -/
def advance (state : State) (index : Nat) (call : Call) : Option State :=
  match call.phase with
  | .asking =>
      some (state.setCall index { call with
        phase := if state.ledger.isBurned call.arguments.presented.jobId then .ended
          else .measuring })
  | .measuring =>
      if state.ledger.isFull then some (state.setCall index { call with phase := .ended })
      else
        -- without callbacks the call runs `admit_and_reserve` itself
        some { state.setCall index { call with phase := .admitting } with
          mutations := if call.config.atomic then state.mutations
            else state.mutations ++ [⟨index, false, true, .starting⟩] }
  | .admitting =>
      if call.config.atomic then none
      else
        match (state.mutations.find? fun mutation => mutation.call = index).map
            Mutation.progress with
        | some (.returned permit reservation) =>
            some (state.setCall index
              { call with phase := .committing, held := some (permit, reservation) })
        | some .raised => some (state.setCall index { call with phase := .ended })
        | _ => none
  | .committing =>
      if call.config.atomic then none
      else
        match call.held with
        | none => none
        | some (_, reservation) =>
            match state.ledger.commitExecution reservation.jobId with
            | none => some (state.setCall index { call with phase := .ended })
            | some ledger =>
                some { state.setCall index { call with
                    committed := true
                    phase := if call.config.onDispatched then .announcing else .entering } with
                  ledger }
  | .announcing => some (state.setCall index { call with phase := .entering })
  | .entering =>
      match call.held with
      | none => none
      | some (permit, _) =>
          some { state.setCall index { call with phase := .running } with
            entries := ⟨index, call.endpoint, permit⟩ :: state.entries }
  | .running => none
  | .ended => none

/-- One step, whatever the callbacks do. -/
def step (interpreter : Interpreter) (state : State) : Label → Option State
  | .dispatch config arguments =>
      match checkJobId arguments.presented.jobId >>= fun _ => route config arguments.presented with
      | .error _ => some state
      | .ok endpoint =>
          some { state with
            calls := state.calls ++ [⟨config, arguments, endpoint, .asking, none, false⟩] }
  | .advance index => do
      let call ← state.calls[index]?
      advance state index call
  | .invoke index transaction recordAdmission => do
      let call ← state.calls[index]?
      -- the function exists from the moment `atomic_admitted` is called
      if call.config.atomic ∧ call.phase ≠ .asking ∧ call.phase ≠ .measuring then
        some { state with
          mutations := state.mutations ++ [⟨index, transaction, recordAdmission, .starting⟩] }
      else none
  | .mutate index => do
      let mutation ← state.mutations[index]?
      let call ← state.calls[mutation.call]?
      mutate interpreter state index mutation call
  | .admittedReturns index permit reservation => do
      let call ← state.calls[index]?
      if call.config.atomic ∧ call.phase = .admitting then
        some (state.setCall index
          { call with phase := .committing, held := some (permit, reservation) })
      else none
  | .commit index transaction => do
      let call ← state.calls[index]?
      let (_, reservation) ← call.held
      if ¬ call.config.atomic then none
      else if transaction then some state
      else
        match state.ledger.commitExecution reservation.jobId with
        | none => some state
        | some ledger => some { state.setCall index { call with committed := true } with ledger }
  | .dispatchedReturns index => do
      let call ← state.calls[index]?
      if call.config.atomic ∧ call.phase = .committing then
        some (state.setCall index { call with phase := .entering })
      else none
  | .leave index => do
      let call ← state.calls[index]?
      some (state.setCall index { call with phase := .ended })
  | .abandon index => do
      let mutation ← state.mutations[index]?
      match mutation.progress with
      | .returned _ _ => none
      | _ => some (state.setMutation index { mutation with progress := .raised })
  | .approvals store records =>
      some { state with approvals := Function.update state.approvals store records }

/-- The callbacks keep to what they are for: `atomic_admitted` returns what a run
of `admit_and_reserve` returned, and `atomic_dispatched` returns only after the
function it was given has. -/
def Keeps (state : State) : Label → Prop
  | .admittedReturns _ permit reservation =>
      ∃ mutation ∈ state.mutations, mutation.progress = .returned permit reservation
  | .dispatchedReturns index => ∀ call ∈ state.calls[index]?, call.committed = true
  | _ => True

end Orchestrator

end GeniusNew
