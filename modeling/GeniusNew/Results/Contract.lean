import GeniusNew.Contracts.Handoff

/-! # Results

A worker signs what it hands back, bound to the handoff it answers, and the
accepting side takes it only unaltered and in time. `produce` is to `issue` what
`accept` is to `validate`.
-/

namespace GeniusNew

open Json

namespace Results

def resultVersion : Str := str "geniusnew-result-v2"

def succeeded : Str := str "SUCCEEDED"

def failed : Str := str "FAILED"

def statuses : List Str := [succeeded, failed]

def maxProducedAt : Int := 4102444800

def reasonCodes : List Str :=
  [str "WORK_COMPLETED", str "TOOL_NOT_GRANTED", str "WORKER_FAILED", str "OUTPUT_REJECTED",
    str "PAYLOAD_MUTATED", str "HANDOFF_EXPIRED", str "RESOURCE_EXHAUSTED",
    str "ISOLATION_VIOLATED"]

def resultKeys : List Str :=
  [str "version", str "job_id", str "worker_agent_id", str "handoff_sha256", str "status",
    str "reason_code", str "output", str "output_sha256", str "produced_at", str "signature"]

/-- `value is None`. -/
def isNone : Value → Bool
  | .null => true
  | _ => false

/-- `_digest(value, field)`. -/
def digest (value : Value) (field : String) : Outcome Str :=
  match value with
  | .str text =>
      if isHexText 64 text then .ok text else fail (field ++ " must be a lowercase SHA-256 digest")
  | _ => fail (field ++ " must be a lowercase SHA-256 digest")

/-- `_output(value)`. -/
def output (value : Value) : Outcome Str := oneText "output" value

/-- `_reason_code(value)`. -/
def reasonCode (code : Str) : Outcome Str :=
  if code ∈ reasonCodes then .ok code
  else fail "reason_code is not one of the allowed result reason codes"

/-- The public half of the worker authority. -/
structure WorkerVerifier where
  verifies : Bytes → Bytes → Bool

/-- The worker authority. Its Ed25519 signatures have 64 bytes and pass the check
of its own public half. -/
structure WorkerAuthority where
  sign : Bytes → Bytes
  verifier : WorkerVerifier
  sign_verifies : ∀ message, verifier.verifies message (sign message) = true
  length_sign : ∀ message, (sign message).length = 64

/-- A result; the output is its one text. -/
structure Result where
  version : Str
  jobId : Str
  workerAgentId : Str
  handoffSha256 : Str
  status : Str
  reasonCode : Str
  output : Option Str
  outputSha256 : Option Str
  producedAt : Int
  signature : Str
  deriving DecidableEq

/-- An output as `Result.to_dict` has it. -/
def outputValue : Option Str → Value
  | none => .null
  | some text => payloadDict text

def optionalText : Option Str → Value
  | none => .null
  | some text => .str text

/-- What the signature of a result covers. -/
def Result.bodyFields (result : Result) : List (Str × Value) :=
  [(str "version", .str result.version), (str "job_id", .str result.jobId),
    (str "worker_agent_id", .str result.workerAgentId),
    (str "handoff_sha256", .str result.handoffSha256), (str "status", .str result.status),
    (str "reason_code", .str result.reasonCode), (str "output", outputValue result.output),
    (str "output_sha256", optionalText result.outputSha256),
    (str "produced_at", .int result.producedAt)]

def Result.toDict (result : Result) : Value :=
  .dict (result.bodyFields ++ [(str "signature", .str result.signature)])

def Result.toBytes (result : Result) : Bytes := canonicalBytes result.toDict

/-- The signed result that answers a handoff. -/
def producedResult (text : Option Str) (handoff : Handoff) (handoffSha256 : Digest)
    (status reasonCode : Str) (authority : WorkerAuthority) (now : Int) : Result :=
  let unsigned : Result := {
    version := resultVersion
    jobId := handoff.jobId
    workerAgentId := handoff.workerAgentId
    handoffSha256 := handoffSha256.val
    status := status
    reasonCode := reasonCode
    output := text
    outputSha256 := text.map fun text => (sha256 (canonicalBytes (payloadDict text))).val
    producedAt := now
    signature := [] }
  { unsigned with signature := hex (authority.sign (canonicalBytes (.dict unsigned.bodyFields))) }

/-- The output `produce` signs, which only a success carries. -/
def producedOutput (given : Value) (status : Str) : Outcome (Option Str) :=
  if status = succeeded then do
    let text ← output given
    return some text
  else if !isNone given then fail "a failed result must not carry output"
  else return none

/-- `produce`; an output of `None` is `null`. -/
def produce (interpreter : Interpreter) (given : Value) (handoff : Handoff) (status code : Str)
    (authority : WorkerAuthority) (now : Int) : Outcome Bytes :=
  if ¬ (0 < now ∧ now ≤ maxProducedAt) then fail "now must be between 1 and 4102444800"
  else if now < handoff.issuedAt then fail "result predates the handoff it answers"
  else if now ≥ handoff.expiresAt then fail "result was produced after its handoff expired"
  else if status ∉ statuses then fail "status is not an allowed result status"
  else do
    let answered ← handoffDigest handoff
    let code ← reasonCode code
    let text ← producedOutput given status
    let wire ← canonical interpreter
      (producedResult text handoff answered status code authority now).toDict
    let _ ← decodeWire interpreter (some wire) resultKeys "result"
    return wire

/-- One of the expected fields that bind a result to its handoff. -/
def bound (actual expected : Str) (field : String) : Outcome Unit := do
  let same ← compareDigest actual expected
  if !same then fail ("result " ++ field ++ " does not match the handoff it claims to answer")
  else return ()

/-- The output of a decoded result and its digest. -/
def acceptedOutput (given hash : Value) (status : Str) : Outcome (Option Str × Option Str) :=
  if status = succeeded then do
    let text ← output given
    let hash ← digest hash "output_sha256"
    let same ← compareDigest hash (sha256 (canonicalBytes (payloadDict text))).val
    if !same then fail "output hash does not match output" else return (some text, some hash)
  else if !(isNone given && isNone hash) then fail "a failed result must not carry output"
  else return (none, none)

/-- A result is produced within the lifetime of its handoff and not in the future,
and accepted within it as well. -/
def inTime (producedAt : Int) (handoff : Handoff) (now : Int) : Outcome Unit :=
  if ¬ (0 < producedAt ∧ producedAt ≤ maxProducedAt) then
    fail "produced_at must be between 1 and 4102444800"
  else if producedAt < handoff.issuedAt then fail "result predates the handoff it answers"
  else if producedAt > now then fail "result is dated in the future"
  else if producedAt ≥ handoff.expiresAt then fail "result was produced after its handoff expired"
  else if now ≥ handoff.expiresAt then fail "handoff expired before its result was accepted"
  else .ok ()

/-- What is read of a wire before it is compared with a handoff. -/
structure SignedFields where
  version : Str
  jobId : Str
  workerAgentId : Str
  handoffSha256 : Str
  status : Str
  reasonCode : Str
  output : Value
  outputSha256 : Value
  producedAt : Int
  signature : Str

/-- The checks of `accept` that read the wire alone: its form, its signature, its
version and its status. -/
def signedFields (interpreter : Interpreter) (wire : Option Bytes) (verifier : WorkerVerifier) :
    Outcome SignedFields := do
  let fields ← decodeWire interpreter wire resultKeys "result"
  let field (key : String) : Value := (fields.lookup (str key)).getD .null
  let text (key : String) : Outcome Str := string (field key) key
  let version ← text "version"
  let jobId ← text "job_id"
  let workerAgentId ← text "worker_agent_id"
  let status ← text "status"
  let code ← text "reason_code"
  let signature ← text "signature"
  let handoffSha256 ← digest (field "handoff_sha256") "handoff_sha256"
  let code ← reasonCode code
  let producedAt ← integer (field "produced_at") "produced_at"
  let signed := canonicalBytes (.dict (fields.filter fun field => field.1 ≠ str "signature"))
  if !(isHexText 128 signature && verifier.verifies signed (fromHex signature)) then
    fail "result signature is invalid"
  else if version ≠ resultVersion then fail "result version is not recognised"
  else if status ∉ statuses then fail "status is not an allowed result status"
  else return {
    version, jobId, workerAgentId, handoffSha256, status, reasonCode := code
    output := field "output", outputSha256 := field "output_sha256", producedAt, signature }

def accept (interpreter : Interpreter) (wire : Option Bytes) (handoff : Handoff)
    (verifier : WorkerVerifier) (now : Int) : Outcome Result := do
  let signed ← signedFields interpreter wire verifier
  let answered ← handoffDigest handoff
  let _ ← bound signed.jobId handoff.jobId "job_id"
  let _ ← bound signed.workerAgentId handoff.workerAgentId "worker_agent_id"
  let _ ← bound signed.handoffSha256 answered.val "handoff_sha256"
  let (output, outputSha256) ← acceptedOutput signed.output signed.outputSha256 signed.status
  let _ ← inTime signed.producedAt handoff now
  return {
    version := signed.version, jobId := signed.jobId, workerAgentId := signed.workerAgentId
    handoffSha256 := signed.handoffSha256, status := signed.status
    reasonCode := signed.reasonCode, output, outputSha256, producedAt := signed.producedAt
    signature := signed.signature }

end Results

end GeniusNew
