import GeniusNew.Approvals.Gateway
import GeniusNew.Binary64.Rounding
import GeniusNew.Results.Contract

/-! # The worker boundary

A runner consumes a permit, runs its worker on a copy of the payload and signs what comes
back. The object that a worker returns stays the worker's own: whatever is asked of it
afterwards, it answers or raises as it likes.
-/

namespace GeniusNew

open Json

namespace Workers

def completed : Str := str "WORK_COMPLETED"

def toolNotGranted : Str := str "TOOL_NOT_GRANTED"

def workerFailed : Str := str "WORKER_FAILED"

def outputRejected : Str := str "OUTPUT_REJECTED"

def payloadMutated : Str := str "PAYLOAD_MUTATED"

def isolationViolated : Str := str "ISOLATION_VIOLATED"

def resourceExhausted : Str := str "RESOURCE_EXHAUSTED"

/-- An exception, as far as the handlers of the runner tell exceptions apart. A
`WorkerBoundaryError` is a `ContractError`. -/
inductive Thrown where
  | boundaryError (message : String)
  | isolationViolation
  | resourceExhaustion
  | raised (exception : Raised)
  | other (name : String)
  deriving DecidableEq

def Thrown.isContractError : Thrown → Bool
  | boundaryError _ => true
  | raised (.contractError _) => true
  | _ => false

/-- What is asked of code that may raise anything. -/
abbrev Answer (α : Type) := Except Thrown α

namespace Answer

variable {α : Type}

def of : Outcome α → Answer α
  | .ok value => .ok value
  | .error exception => .error (.raised exception)

def refuse (message : String) : Answer α := of (fail message)

/-- `except ContractError`. -/
def recover (answer next : Answer α) : Answer α :=
  match answer with
  | .ok value => .ok value
  | .error thrown => if thrown.isContractError then next else .error thrown

end Answer

/-- What lies under the key "text". It is a text or not by its class, which `isinstance`
asks for; a text of a class of its own decides when it is true, but its characters are what
JSON writes of it. -/
inductive Held where
  | text (content : Str) (truth : Answer Bool)
  | other (asked : Answer Unit)

/-- A dictionary with keys and values of any class. Its keys are compared with the one
that is expected, then what lies under this key is looked up. -/
structure Dictionary where
  named : Answer Bool
  held : Answer Held

/-- What a worker returned: a mapping, which is copied, or another object, which is asked
for its class, and for its class again when its output is checked. -/
inductive Returned where
  | mapping (copied : Answer Dictionary)
  | other (asked again : Answer Unit)

/-- A run of the work function between two readings of the clock. -/
structure Run where
  outcome : Answer Returned
  started : ℚ
  stopped : ℚ

/-- A worker is given a copy of the payload. It leaves the copy as it likes. -/
abbrev Worker := Value → Value × Run

structure WorkerRunner where
  worker : Worker
  tool : Str
  authority : Results.WorkerAuthority
  tool_nonempty : tool ≠ []

/-- `dict(output) if isinstance(output, Mapping) else output`. -/
def copyOutput : Returned → Answer (Dictionary ⊕ Answer Unit)
  | .mapping copied => copied.map .inl
  | .other asked again => asked.map fun _ => .inr again

/-- `_output` of an object. -/
def outputText : Dictionary ⊕ Answer Unit → Answer Str
  | .inr again => do
      let _ ← again
      .refuse "output must contain only text"
  | .inl copied => do
      let named ← copied.named
      if !named then .refuse "output must contain only text"
      else
        match ← copied.held with
        | .other asked => do
            let _ ← asked
            .refuse "output text must be a non-empty string"
        | .text content truth => do
            let truth ← truth
            if !truth then .refuse "output text must be a non-empty string" else return content

section Execute

variable (interpreter : Interpreter)

/-- `produce` of a success, with an object as its output. -/
def produceOutput (given : Dictionary ⊕ Answer Unit) (handoff : Handoff)
    (authority : Results.WorkerAuthority) (now : Int) : Answer Bytes :=
  if ¬ (0 < now ∧ now ≤ Results.maxProducedAt) then .refuse "now must be between 1 and 4102444800"
  else if now < handoff.issuedAt then .refuse "result predates the handoff it answers"
  else if now ≥ handoff.expiresAt then .refuse "result was produced after its handoff expired"
  else do
    let answered ← Answer.of (handoffDigest handoff)
    let text ← outputText given
    let wire ← Answer.of (canonical interpreter
      (Results.producedResult (some text) handoff answered Results.succeeded completed authority
        now).toDict)
    let _ ← Answer.of (decodeWire interpreter (some wire) Results.resultKeys "result")
    return wire

/-- `_refuse`. -/
def refuseWith (handoff : Handoff) (code : Str) (authority : Results.WorkerAuthority) (now : Int) :
    Answer Bytes :=
  .of (Results.produce interpreter .null handoff Results.failed code authority now)

/-- The reason code an exception of the worker is recorded under. -/
def failureCode : Thrown → Str
  | .isolationViolation => isolationViolated
  | .resourceExhaustion => resourceExhausted
  | _ => workerFailed

/-- `now + (self._monotonic() - started) >= handoff.expires_at`, in double precision. -/
def overran (now : Int) (run : Run) (expiresAt : Int) : Answer Bool :=
  match Binary64.ofInt now with
  | none => .error (.raised .overflowError)
  | some start => .ok
      (decide (expiresAt ≤ Binary64.nearest (start + Binary64.nearest (run.stopped - run.started))))

/-- What is signed for a run that ended in time. -/
def conclude (handoff : Handoff) (before : Digest) (outcome : Answer Returned)
    (authority : Results.WorkerAuthority) (now : Int) : Answer Bytes :=
  match outcome with
  | .error thrown => refuseWith interpreter handoff (failureCode thrown) authority now
  | .ok output => do
      let after ← Answer.of (handoffDigest handoff)
      if after ≠ before then refuseWith interpreter handoff payloadMutated authority now
      else
        Answer.recover
          (do
            let given ← copyOutput output
            produceOutput interpreter given handoff authority now)
          (refuseWith interpreter handoff outputRejected authority now)

namespace WorkerRunner

variable (runner : WorkerRunner) (permit : DispatchPermit)

/-- `execute` once the permit is consumed. -/
def perform (now : Int) : Answer Bytes :=
  let handoff := permit.handoff
  if now < permit.admittedAt then .refuse "dispatch predates gateway admission"
  else if now ≥ handoff.expiresAt then .refuse "handoff expired before execution"
  else if runner.tool ∉ handoff.tools then
    refuseWith interpreter handoff toolNotGranted runner.authority now
  else do
    let before ← Answer.of (handoffDigest handoff)
    let (_, run) := runner.worker (payloadDict handoff.payload)
    match run.outcome with
    | .error (.boundaryError message) => .error (.boundaryError message)
    | outcome => do
        let late ← overran now run handoff.expiresAt
        if late then .refuse "handoff expired while the worker was running"
        else conclude interpreter handoff before outcome runner.authority now

end WorkerRunner

end Execute

end Workers

end GeniusNew
