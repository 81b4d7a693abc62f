import GeniusNew.Approvals.Gateway
import GeniusNew.Results.Contract
import GeniusNew.Transition.Run

/-! # The accepting instance

A result verifier validates the handoff and the result again and takes the result
of each handoff once. Everything before the ledger only reads its arguments; the
ledger is one critical section, which any number of verifiers share.
-/

namespace GeniusNew

open Json

namespace ResultVerifier

def maxOccurredAt : Int := 4102444800

def maxAccepted : Nat := 100000

inductive Code where
  | handoffNotValid
  | approvalNotEvidenced
  | resultNotValid
  | resultAlreadyAccepted
  | acceptanceLedgerFull
  deriving DecidableEq

/-- What `ResultVerifier.accept` can raise: a `Rejected` with its code, or an
exception that passes through. -/
inductive Refusal where
  | rejected (message : String) (code : Code)
  | raised (exception : Raised)
  deriving DecidableEq

/-- `except ContractError as refusal: raise Rejected(...)`. -/
def rejecting {α : Type} (code : Code) : Outcome α → Except Refusal α
  | .ok value => .ok value
  | .error (.contractError message) => .error (.rejected message code)
  | .error exception => .error (.raised exception)

def passing {α : Type} : Outcome α → Except Refusal α
  | .ok value => .ok value
  | .error exception => .error (.raised exception)

structure Verifier where
  handoffVerifier : HandoffVerifier
  workerVerifier : Results.WorkerVerifier

/-- The arguments of `accept`. -/
structure Arguments where
  resultWire : Option Bytes
  handoffWire : Option Bytes
  presented : Presented
  approvalRecordHash : Option Str
  transaction : Bool

structure Acceptance where
  jobId : Str
  workerAgentId : Str
  handoffSha256 : Digest
  resultSha256 : Digest
  status : Str
  result : Results.Result
  approvalRecordHash : Option Str
  occurredAt : Int

/-- `_approval`. -/
def checkApproval (approvalRecordHash : Option Str) (required : Bool) : Except Refusal Unit :=
  match approvalRecordHash with
  | none =>
      if required then
        .error (.rejected "an approval-bound handoff needs the gateway's approval receipt"
          .approvalNotEvidenced)
      else .ok ()
  | some hash =>
      if required then
        if isHexText 64 hash then .ok ()
        else .error (.rejected "approval_record_hash must be a lowercase SHA-256 digest"
          .approvalNotEvidenced)
      else .error (.rejected
        "approval_record_hash is not allowed for a handoff that needs no approval"
        .approvalNotEvidenced)

/-- `_handoff`. -/
def revalidate (interpreter : Interpreter) (verifier : Verifier) (wire : Option Bytes)
    (presented : Presented) (pending : Bool) : Outcome Handoff :=
  if pending then validatePending interpreter wire presented verifier.handoffVerifier
  else validate interpreter wire presented verifier.handoffVerifier

/-- Everything `accept` does before the ledger. -/
def checked (interpreter : Interpreter) (verifier : Verifier) (arguments : Arguments) :
    Except Refusal (Handoff × Results.Result × Digest) :=
  let presented := arguments.presented
  if ¬ (1 ≤ presented.now ∧ presented.now ≤ maxOccurredAt) then
    passing (fail "now is outside the range the audit contract accepts")
  else do
    let grant ← rejecting .handoffNotValid (presented.policy.grantFor presented.subject)
    let _ ← checkApproval arguments.approvalRecordHash grant.requiresApproval
    let handoff ← rejecting .handoffNotValid
      (revalidate interpreter verifier arguments.handoffWire presented grant.requiresApproval)
    let result ← rejecting .resultNotValid
      (Results.accept interpreter arguments.resultWire handoff verifier.workerVerifier presented.now)
    let digest ← passing (handoffDigest handoff)
    return (handoff, result, digest)

/-- The digests of a `ProcessLocalAcceptanceLedger`. -/
abbrev Ledger := List Digest

/-- `reserve` of the process-local ledger: its answer and the ledger afterwards. -/
def reserve (ledger : Ledger) (handoffWire : Bytes) (transaction : Bool) :
    Except Refusal (Bool × Ledger) :=
  if transaction then
    passing (fail "process-local acceptance ledger cannot join a database transaction")
  else if sha256 handoffWire ∈ ledger then .ok (false, ledger)
  else if ledger.length ≥ maxAccepted then
    .error (.rejected "the acceptance ledger is full" .acceptanceLedgerFull)
  else .ok (true, ledger ++ [sha256 handoffWire])

/-- The end of `accept`: its outcome and the ledger afterwards. -/
def settle (ledger : Ledger) (arguments : Arguments) (handoff : Handoff) (result : Results.Result)
    (digest : Digest) : Except Refusal Acceptance × Ledger :=
  match reserve ledger handoff.toBytes arguments.transaction with
  | .error refusal => (.error refusal, ledger)
  | .ok (false, after) =>
      (.error (.rejected "this handoff already has an accepted result" .resultAlreadyAccepted), after)
  | .ok (true, after) =>
      (.ok {
        jobId := handoff.jobId
        workerAgentId := handoff.workerAgentId
        handoffSha256 := digest
        resultSha256 := sha256 result.toBytes
        status := result.status
        result
        approvalRecordHash := arguments.approvalRecordHash
        occurredAt := arguments.presented.now }, after)

/-- `ResultVerifier.accept` of one call alone. -/
def accept (interpreter : Interpreter) (verifier : Verifier) (ledger : Ledger)
    (arguments : Arguments) : Except Refusal Acceptance × Ledger :=
  match checked interpreter verifier arguments with
  | .error refusal => (.error refusal, ledger)
  | .ok (handoff, result, digest) => settle ledger arguments handoff result digest

/-- Where a call of `accept` stands. -/
inductive Phase where
  /-- Before the ledger. -/
  | checking
  | reserving (handoff : Handoff) (result : Results.Result) (digest : Digest)
  | ended (outcome : Except Refusal Acceptance)

structure Call where
  verifier : Verifier
  arguments : Arguments
  phase : Phase

/-- The shared ledger and the calls. -/
structure State where
  ledger : Ledger
  calls : List Call

def State.initial : State := ⟨[], []⟩

inductive Label where
  /-- A new call, of any verifier. -/
  | call (verifier : Verifier) (arguments : Arguments)
  /-- A call goes on to its next critical section. -/
  | advance (index : Nat)

/-- One step of a call. -/
def advance (interpreter : Interpreter) (state : State) (index : Nat) (call : Call) : Option State :=
  match call.phase with
  | .checking =>
      let phase := match checked interpreter call.verifier call.arguments with
        | .error refusal => .ended (.error refusal)
        | .ok (handoff, result, digest) => .reserving handoff result digest
      some { state with calls := state.calls.set index { call with phase } }
  | .reserving handoff result digest =>
      let (outcome, ledger) := settle state.ledger call.arguments handoff result digest
      some { ledger, calls := state.calls.set index { call with phase := .ended outcome } }
  | .ended _ => none

def step (interpreter : Interpreter) (state : State) : Label → Option State
  | .call verifier arguments =>
      some { state with calls := state.calls ++ [⟨verifier, arguments, .checking⟩] }
  | .advance index => do
      let call ← state.calls[index]?
      advance interpreter state index call

end ResultVerifier

end GeniusNew
