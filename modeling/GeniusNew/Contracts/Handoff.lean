import GeniusNew.Contracts.Wire

/-! # Handoffs

A policy grants each subject one worker, a tier and tools. A handoff is issued
from a policy and a request, travels as a signed wire, and is validated against
the policy again wherever it arrives.
-/

namespace GeniusNew

open Json

def handoffVersion : Str := str "geniusnew-handoff-v2"

def pendingApproval : Str := str "PENDING_APPROVAL"

def notRequired : Str := str "NOT_REQUIRED"

def handoffKeys : List Str :=
  [str "version", str "job_id", str "user_id", str "orchestrator_id", str "worker_agent_id",
    str "tier", str "tools", str "sandbox_profile", str "approval_state", str "policy_version",
    str "issued_at", str "expires_at", str "payload", str "payload_sha256", str "signature"]

/-- `hmac.compare_digest` of two texts, which takes ASCII only. -/
def compareDigest (left right : Str) : Outcome Bool :=
  if left.all (·.val < 128) && right.all (·.val < 128) then .ok (left = right)
  else .error .typeError

/-- `_string(value, field)`. -/
def string (value : Value) (field : String) : Outcome Str :=
  match value with
  | .str (c :: text) => .ok (c :: text)
  | _ => fail (field ++ " must be a non-empty string")

/-- `_integer(value, field)`. -/
def integer (value : Value) (field : String) : Outcome Int :=
  match value with
  | .int number => .ok number
  | _ => fail (field ++ " must be an integer")

/-- `_subject_bytes(value)`. -/
def subjectBytes (subject : Str) : Outcome Bytes :=
  if subject = [] then fail "subject must be a non-empty string"
  else
    match encodeUtf8 subject with
    | some bytes => .ok bytes
    | none => fail "subject must be valid UTF-8"

/-- A non-empty list of non-empty texts without duplicates. -/
def isStringTuple (texts : List Str) : Bool :=
  !texts.isEmpty && texts.all (fun text => !text.isEmpty) && texts.Nodup

/-- `_string_tuple(value, field)`. -/
def stringTuple (value : Value) (field : String) : Outcome (List Str) :=
  match value with
  | .list [] => fail (field ++ " must be a non-empty list of strings")
  | .list items => do
      let texts ← items.mapM fun item => string item field
      if ¬ texts.Nodup then fail (field ++ " must not contain duplicates") else return texts
  | _ => fail (field ++ " must be a non-empty list of strings")

/-- The one text of a payload or an output. -/
def oneText (noun : String) (value : Value) : Outcome Str :=
  match value with
  | .dict fields =>
      if hasKeys fields [str "text"] then
        match (fields.lookup (str "text")).getD .null with
        | .str (c :: text) => .ok (c :: text)
        | _ => fail (noun ++ " text must be a non-empty string")
      else fail (noun ++ " must contain only text")
  | _ => fail (noun ++ " must contain only text")

/-- `_payload(value)`. -/
def payload (value : Value) : Outcome Str := oneText "payload" value

def payloadDict (text : Str) : Value := .dict [(str "text", .str text)]

/-- The authorization facts of one subject. -/
structure Grant where
  subject : Str
  userId : Str
  workerAgentId : Str
  tier : Str
  tools : List Str
  sandboxProfile : Str
  requiresApproval : Bool
  subject_valid : subject ≠ [] ∧ (encodeUtf8 subject).isSome = true
  texts_nonempty : userId ≠ [] ∧ workerAgentId ≠ [] ∧ tier ≠ [] ∧ sandboxProfile ≠ []
  tools_valid : isStringTuple tools = true

structure Policy where
  version : Str
  orchestratorId : Str
  handoffTtlSeconds : Int
  allowedTools : List Str
  allowedSandboxProfiles : List Str
  grants : List Grant
  texts_nonempty : version ≠ [] ∧ orchestratorId ≠ []
  ttl_bounds : 0 < handoffTtlSeconds ∧ handoffTtlSeconds ≤ 300
  lists_valid : isStringTuple allowedTools = true ∧ isStringTuple allowedSandboxProfiles = true
  grants_valid : grants ≠ [] ∧ (grants.map Grant.subject).Nodup
  grants_allowed : ∀ grant ∈ grants,
    grant.tools ⊆ allowedTools ∧ grant.sandboxProfile ∈ allowedSandboxProfiles

/-- `Policy.grant_for`. -/
def Policy.grantFor (policy : Policy) (subject : Str) : Outcome Grant := do
  let bytes ← subjectBytes subject
  match policy.grants.find? fun grant => encodeUtf8 grant.subject = some bytes with
  | some grant => return grant
  | none => fail "subject is not authorized"

/-- The public half of the handoff signer. -/
structure HandoffVerifier where
  verifies : Bytes → Bytes → Bool

/-- The handoff signer. Its Ed25519 signatures have 64 bytes and pass the check
of its own public half. -/
structure HandoffSigner where
  sign : Bytes → Bytes
  verifier : HandoffVerifier
  sign_verifies : ∀ message, verifier.verifies message (sign message) = true
  length_sign : ∀ message, (sign message).length = 64

structure Handoff where
  version : Str
  jobId : Str
  userId : Str
  orchestratorId : Str
  workerAgentId : Str
  tier : Str
  tools : List Str
  sandboxProfile : Str
  approvalState : Str
  policyVersion : Str
  issuedAt : Int
  expiresAt : Int
  payload : Str
  payloadSha256 : Str
  signature : Str
  deriving DecidableEq

/-- What the signature of a handoff covers. -/
def Handoff.bodyFields (handoff : Handoff) : List (Str × Value) :=
  [(str "version", .str handoff.version), (str "job_id", .str handoff.jobId),
    (str "user_id", .str handoff.userId), (str "orchestrator_id", .str handoff.orchestratorId),
    (str "worker_agent_id", .str handoff.workerAgentId), (str "tier", .str handoff.tier),
    (str "tools", .list (handoff.tools.map Value.str)),
    (str "sandbox_profile", .str handoff.sandboxProfile),
    (str "approval_state", .str handoff.approvalState),
    (str "policy_version", .str handoff.policyVersion), (str "issued_at", .int handoff.issuedAt),
    (str "expires_at", .int handoff.expiresAt), (str "payload", payloadDict handoff.payload),
    (str "payload_sha256", .str handoff.payloadSha256)]

def Handoff.toDict (handoff : Handoff) : Value :=
  .dict (handoff.bodyFields ++ [(str "signature", .str handoff.signature)])

def Handoff.toBytes (handoff : Handoff) : Bytes := canonicalBytes handoff.toDict

/-- `_PENDING if grant.requires_approval else _NOT_REQUIRED`. -/
def Grant.approvalState (grant : Grant) : Str :=
  if grant.requiresApproval then pendingApproval else notRequired

/-- What a call says about where a wire arrived. -/
structure Presented where
  subject : Str
  jobId : Str
  policy : Policy
  now : Int

/-- The fields of `_from_object` after their own checks, before they are compared
with the policy. -/
def handoffOf (fields : List (Str × Value)) : Outcome Handoff := do
  let field (key : String) : Value := (fields.lookup (str key)).getD .null
  let text (key : String) : Outcome Str := string (field key) key
  let version ← text "version"
  let jobId ← text "job_id"
  let userId ← text "user_id"
  let orchestratorId ← text "orchestrator_id"
  let workerAgentId ← text "worker_agent_id"
  let tier ← text "tier"
  let sandboxProfile ← text "sandbox_profile"
  let approvalState ← text "approval_state"
  let policyVersion ← text "policy_version"
  let payloadSha256 ← text "payload_sha256"
  let signature ← text "signature"
  let tools ← stringTuple (field "tools") "tools"
  let issuedAt ← integer (field "issued_at") "issued_at"
  let expiresAt ← integer (field "expires_at") "expires_at"
  let payload ← GeniusNew.payload (field "payload")
  return {
    version, jobId, userId, orchestratorId, workerAgentId, tier, tools, sandboxProfile,
    approvalState, policyVersion, issuedAt, expiresAt, payload, payloadSha256, signature }

/-- The loop over the expected fields: the first that differs from the policy. -/
def handoffMismatch (handoff : Handoff) (presented : Presented) (grant : Grant) : Option String :=
  if handoff.version ≠ handoffVersion then some "version"
  else if handoff.jobId ≠ presented.jobId then some "job_id"
  else if handoff.userId ≠ grant.userId then some "user_id"
  else if handoff.orchestratorId ≠ presented.policy.orchestratorId then some "orchestrator_id"
  else if handoff.workerAgentId ≠ grant.workerAgentId then some "worker_agent_id"
  else if handoff.tier ≠ grant.tier then some "tier"
  else if handoff.tools ≠ grant.tools then some "tools"
  else if handoff.sandboxProfile ≠ grant.sandboxProfile then some "sandbox_profile"
  else if handoff.approvalState ≠ grant.approvalState then some "approval_state"
  else if handoff.policyVersion ≠ presented.policy.version then some "policy_version"
  else if handoff.expiresAt ≠ handoff.issuedAt + presented.policy.handoffTtlSeconds then
    some "expires_at"
  else none

/-- `_from_object`. -/
def fromObject (fields : List (Str × Value)) (presented : Presented) (verifier : HandoffVerifier)
    (allowPending : Bool) : Outcome Handoff := do
  let _ ← string (.str presented.jobId) "job_id"
  let grant ← presented.policy.grantFor presented.subject
  let handoff ← handoffOf fields
  let hashed ← compareDigest handoff.payloadSha256
    (sha256 (canonicalBytes (payloadDict handoff.payload))).val
  if !hashed then fail "payload hash does not match payload"
  else
    let signed := canonicalBytes (.dict (fields.filter fun field => field.1 ≠ str "signature"))
    if !(isHexText 128 handoff.signature && verifier.verifies signed (fromHex handoff.signature))
    then fail "handoff signature is invalid"
    else
      match handoffMismatch handoff presented grant with
      | some field => fail ("handoff " ++ field ++ " does not match trusted policy")
      | none =>
          if handoff.issuedAt > presented.now ∨ presented.now ≥ handoff.expiresAt then
            fail "handoff is not currently valid"
          else if handoff.approvalState = pendingApproval ∧ !allowPending then
            fail "pending approval handoff cannot reach a worker"
          else return handoff

def validate (interpreter : Interpreter) (wire : Option Bytes) (presented : Presented)
    (verifier : HandoffVerifier) : Outcome Handoff := do
  let fields ← decodeWire interpreter wire handoffKeys "handoff"
  fromObject fields presented verifier false

def validatePending (interpreter : Interpreter) (wire : Option Bytes) (presented : Presented)
    (verifier : HandoffVerifier) : Outcome Handoff := do
  let fields ← decodeWire interpreter wire handoffKeys "handoff"
  let handoff ← fromObject fields presented verifier true
  if handoff.approvalState ≠ pendingApproval then fail "handoff does not require approval"
  else return handoff

def handoffDigest (handoff : Handoff) : Outcome Digest := do
  let hashed ← compareDigest (sha256 (canonicalBytes (payloadDict handoff.payload))).val
    handoff.payloadSha256
  if !hashed then fail "handoff payload no longer matches the digest it was signed with"
  else return sha256 handoff.toBytes

/-- The handoff `issue` writes for a request, signed. -/
def issuedHandoff (text : Str) (presented : Presented) (grant : Grant) (signer : HandoffSigner) :
    Handoff :=
  let unsigned : Handoff := {
    version := handoffVersion
    jobId := presented.jobId
    userId := grant.userId
    orchestratorId := presented.policy.orchestratorId
    workerAgentId := grant.workerAgentId
    tier := grant.tier
    tools := grant.tools
    sandboxProfile := grant.sandboxProfile
    approvalState := grant.approvalState
    policyVersion := presented.policy.version
    issuedAt := presented.now
    expiresAt := presented.now + presented.policy.handoffTtlSeconds
    payload := text
    payloadSha256 := (sha256 (canonicalBytes (payloadDict text))).val
    signature := [] }
  { unsigned with signature := hex (signer.sign (canonicalBytes (.dict unsigned.bodyFields))) }

def issue (interpreter : Interpreter) (request : Value) (presented : Presented)
    (signer : HandoffSigner) : Outcome Bytes := do
  let text ← payload request
  let grant ← presented.policy.grantFor presented.subject
  let _ ← string (.str presented.jobId) "job_id"
  -- what is signed has the same integers, so it is canonical JSON when the wire is
  let wire ← canonical interpreter (issuedHandoff text presented grant signer).toDict
  if wire.length > maxWireBytes then fail "handoff wire must be a bounded, non-empty bytes value"
  else return wire

end GeniusNew
