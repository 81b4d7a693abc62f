import GeniusNew.Assoc.Lookup
import GeniusNew.Contracts.Handoff

/-! # Approvals

An approval is scoped to one pending handoff. The store keeps one record for each
token; a record is granted once and then consumed or revoked at most once, and its
hash covers everything it says and the record before it.
-/

namespace GeniusNew

open Json

def executeHandoff : Str := str "EXECUTE_HANDOFF"

def maxApprovalTtlSeconds : Int := 600

def tokenBytes : Nat := 32

/-- The facts that have to match when an approval is consumed. The action is the
only one allowed. -/
structure ApprovalScope where
  handoffSha256 : Digest
  handoffExpiresAt : Int
  jobId : Str
  userId : Str
  workerAgentId : Str
  riskTier : Str
  policyVersion : Str
  texts_nonempty : jobId ≠ [] ∧ userId ≠ [] ∧ workerAgentId ≠ [] ∧ riskTier ≠ [] ∧
    policyVersion ≠ []
  expires_pos : 0 < handoffExpiresAt
  deriving DecidableEq

namespace ApprovalScope

def fields (scope : ApprovalScope) : List (Str × Value) :=
  [(str "action", .str executeHandoff), (str "handoff_expires_at", .int scope.handoffExpiresAt),
    (str "handoff_sha256", .str scope.handoffSha256.val), (str "job_id", .str scope.jobId),
    (str "policy_version", .str scope.policyVersion), (str "risk_tier", .str scope.riskTier),
    (str "user_id", .str scope.userId), (str "worker_agent_id", .str scope.workerAgentId)]

def toDict (scope : ApprovalScope) : Value := .dict scope.fields

def toBytes (scope : ApprovalScope) : Bytes := canonicalBytes scope.toDict

/-- `ApprovalScope(...)` with the checks of `__post_init__` in their order. -/
def ofArguments (handoffSha256 handoffExpiresAt jobId userId workerAgentId riskTier policyVersion
    action : Value) : Outcome ApprovalScope := do
  let digest ← string handoffSha256 "handoff_sha256"
  let jobId ← string jobId "job_id"
  let userId ← string userId "user_id"
  let workerAgentId ← string workerAgentId "worker_agent_id"
  let riskTier ← string riskTier "risk_tier"
  let policyVersion ← string policyVersion "policy_version"
  let action ← string action "action"
  let handoffExpiresAt ← integer handoffExpiresAt "handoff_expires_at"
  if expires_pos : 0 < handoffExpiresAt then
    if hexadecimal : isHexText 64 digest = true then
      if action ≠ executeHandoff then fail "action is not allowed"
      else if texts_nonempty : jobId ≠ [] ∧ userId ≠ [] ∧ workerAgentId ≠ [] ∧ riskTier ≠ [] ∧
          policyVersion ≠ [] then
        return {
          handoffSha256 := ⟨digest, hexadecimal⟩
          handoffExpiresAt, jobId, userId, workerAgentId, riskTier, policyVersion
          texts_nonempty, expires_pos }
      else .error .valueError -- not reached: `string` returned each of them
    else fail "handoff_sha256 must be a lowercase SHA-256 digest"
  else fail "handoff_expires_at must be positive"

end ApprovalScope

def scopeKeys : List Str :=
  [str "handoff_sha256", str "handoff_expires_at", str "job_id", str "user_id",
    str "worker_agent_id", str "risk_tier", str "policy_version", str "action"]

/-- The scope of a pending handoff. -/
def Handoff.scope (handoff : Handoff) : Outcome ApprovalScope :=
  ApprovalScope.ofArguments (.str (sha256 handoff.toBytes).val) (.int handoff.expiresAt)
    (.str handoff.jobId) (.str handoff.userId) (.str handoff.workerAgentId) (.str handoff.tier)
    (.str handoff.policyVersion) (.str executeHandoff)

def createScope (interpreter : Interpreter) (wire : Option Bytes) (presented : Presented)
    (verifier : HandoffVerifier) : Outcome ApprovalScope := do
  let handoff ← validatePending interpreter wire presented verifier
  handoff.scope

inductive ApprovalState where
  | granted
  | consumed
  | revoked
  deriving DecidableEq

def ApprovalState.text : ApprovalState → Str
  | granted => str "GRANTED"
  | consumed => str "CONSUMED"
  | revoked => str "REVOKED"

/-- What a record says, its own hash apart. -/
structure ApprovalEntry where
  tokenDigest : Bytes
  scope : ApprovalScope
  issuedAt : Int
  expiresAt : Int
  state : ApprovalState
  changedAt : Int
  previousHash : Option Digest
  deriving DecidableEq

def ApprovalEntry.toDict (entry : ApprovalEntry) : Value :=
  .dict [(str "changed_at", .int entry.changedAt), (str "expires_at", .int entry.expiresAt),
    (str "issued_at", .int entry.issuedAt),
    (str "previous_hash", (entry.previousHash.map fun hash => Value.str hash.val).getD .null),
    (str "scope", entry.scope.toDict), (str "state", .str entry.state.text),
    (str "token_digest", .str (hex entry.tokenDigest))]

/-- `_Record`. -/
structure ApprovalRecord extends ApprovalEntry where
  recordHash : Digest
  deriving DecidableEq

/-- A record with the `_record_hash` of what it says. -/
def ApprovalEntry.record (interpreter : Interpreter) (entry : ApprovalEntry) :
    Outcome ApprovalRecord := do
  let bytes ← canonical interpreter entry.toDict
  return { entry with recordHash := sha256 bytes }

/-- `_scope_matches`. -/
def scopeMatches (interpreter : Interpreter) (left right : ApprovalScope) : Outcome Bool := do
  let first ← canonical interpreter left.toDict
  let second ← canonical interpreter right.toDict
  return first = second

/-- What `grant` returns. -/
structure ApprovalGrant where
  token : Bytes
  scope : ApprovalScope
  issuedAt : Int
  expiresAt : Int
  recordHash : Digest
  deriving DecidableEq

structure ApprovalReceipt where
  scope : ApprovalScope
  state : ApprovalState
  changedAt : Int
  recordHash : Digest
  deriving DecidableEq

namespace ApprovalStore

/-- The records of a store, by the digest of their token. -/
abbrev Records := List (Bytes × ApprovalRecord)

/-- `_new_grant` of a scope that `create_scope` made or not, for what the token
source returned: bytes, or anything else. -/
def newGrant (interpreter : Interpreter) (scope : ApprovalScope) (created : Bool)
    (now ttlSeconds : Int) (token : Option Bytes) : Outcome (Bytes × ApprovalRecord) :=
  if !created then fail "approval scope must come from create_scope"
  else if ttlSeconds ≤ 0 ∨ ttlSeconds > maxApprovalTtlSeconds then
    fail "ttl_seconds must be between 1 and 600"
  else if now ≥ scope.handoffExpiresAt then fail "handoff is expired"
  else
    match token with
    | none => fail "approval token source must return at least 32 bytes"
    | some token =>
        if token.length < tokenBytes then
          fail "approval token source must return at least 32 bytes"
        else do
          let record ← ApprovalEntry.record interpreter {
            tokenDigest := Sha256.digest token
            scope
            issuedAt := now
            expiresAt := min (now + ttlSeconds) scope.handoffExpiresAt
            state := .granted
            changedAt := now
            previousHash := none }
          return (token, record)

/-- `grant`: what it returns and the records afterwards. -/
def grant (interpreter : Interpreter) (records : Records) (scope : ApprovalScope) (created : Bool)
    (now ttlSeconds : Int) (token : Option Bytes) (transaction : Bool) :
    Outcome (ApprovalGrant × Records) :=
  if transaction then fail "process-local approval store cannot join a database transaction"
  else do
    let (token, record) ← newGrant interpreter scope created now ttlSeconds token
    if (records.lookup record.tokenDigest).isSome then fail "approval token collision"
    else return (⟨token, scope, record.issuedAt, record.expiresAt, record.recordHash⟩,
      records ++ [(record.tokenDigest, record)])

/-- `_transition`: the receipt and the records afterwards. -/
def transition (interpreter : Interpreter) (records : Records) (token : Bytes)
    (scope : ApprovalScope) (now : Int) (state : ApprovalState) (requireUnexpired : Bool) :
    Outcome (ApprovalReceipt × Records) :=
  if token.length < tokenBytes then fail "approval token is invalid"
  else
    match records.lookup (Sha256.digest token) with
    | none => fail "approval token is unknown"
    | some record =>
        if record.tokenDigest ≠ Sha256.digest token then fail "approval token is unknown"
        else do
          let same ← scopeMatches interpreter record.scope scope
          if !same then fail "approval scope does not match"
          else if record.state ≠ .granted then fail "approval is not granted"
          else if now < record.issuedAt then fail "approval is not currently valid"
          else if requireUnexpired ∧ now ≥ record.expiresAt then fail "approval is expired"
          else do
            let updated ← ApprovalEntry.record interpreter { record.toApprovalEntry with
              state
              changedAt := now
              previousHash := some record.recordHash }
            return (⟨updated.scope, state, now, updated.recordHash⟩,
              Assoc.replace records (Sha256.digest token) updated)

/-- `consume`. A process-local store joins no transaction. -/
def consume (interpreter : Interpreter) (records : Records) (token : Bytes)
    (scope : ApprovalScope) (now : Int) (transaction : Bool) :
    Outcome (ApprovalReceipt × Records) :=
  if transaction then fail "process-local approval store cannot join a database transaction"
  else transition interpreter records token scope now .consumed true

def revoke (interpreter : Interpreter) (records : Records) (token : Bytes)
    (scope : ApprovalScope) (now : Int) (transaction : Bool) :
    Outcome (ApprovalReceipt × Records) :=
  if transaction then fail "process-local approval store cannot join a database transaction"
  else transition interpreter records token scope now .revoked false

end ApprovalStore

end GeniusNew
