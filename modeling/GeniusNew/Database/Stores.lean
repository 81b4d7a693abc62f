import GeniusNew.Database.Tables
import GeniusNew.Service.Wiring

/-! # The durable stores

Each operation of a durable store is one transaction over the tables, or a part of
its caller's: it returns with the tables it leaves, or raises and leaves the
tables as they were. An instance of the service holds nothing else, so two
instances on one database are two callers of these operations.
-/

namespace GeniusNew.Database

open Json Orchestrator

def maxTime : Int := 4102444800

def maxTraceBytes : Nat := 64

def storeUnavailable : String := "durable store is unavailable"

def ledgerUnavailable : String := "job ledger is unavailable"

def acceptanceUnavailable : String := "acceptance ledger is unavailable"

/-- A column through `CASE WHEN octet_length(...) <= ... THEN ... ELSE NULL END`. -/
def bounded (column : Bytes) : Option Bytes :=
  if column.length ≤ maxWireBytes then some column else none

/-- `ApprovalScope(**decode_wire(...))`. -/
def storedScope (interpreter : Interpreter) (raw : Option Bytes) : Outcome ApprovalScope := do
  let fields ← decodeWire interpreter raw scopeKeys "approval scope"
  let field (key : String) : Value := (fields.lookup (str key)).getD .null
  ApprovalScope.ofArguments (field "handoff_sha256") (field "handoff_expires_at") (field "job_id")
    (field "user_id") (field "worker_agent_id") (field "risk_tier") (field "policy_version")
    (field "action")

/-- The digest of `approval_records.previous_hash`, unless the column holds none. -/
def previousDigest : Option Str → Option (Option Digest)
  | none => some none
  | some text =>
      if hexadecimal : isHexText 64 text = true then some (some ⟨text, hexadecimal⟩) else none

/-- `_approval_record` of a row, its scope as it was selected. -/
def approvalRecord (interpreter : Interpreter) (recordHash : Str) (row : ApprovalRow)
    (selected : Option Bytes) : Outcome ApprovalRecord :=
  match selected with
  | none => fail "stored approval scope exceeds the maximum size"
  | some raw => do
      let scope ← storedScope interpreter (some raw)
      match previousDigest row.previousHash with
      | none => fail "approval record is invalid"
      | some previousHash => do
          let record ← ApprovalEntry.record interpreter {
            tokenDigest := fromHex row.tokenDigest
            scope
            issuedAt := row.issuedAt
            expiresAt := row.expiresAt
            state := row.state
            changedAt := row.changedAt
            previousHash }
          if ¬ (isHexText 64 row.tokenDigest ∧ 1 ≤ row.issuedAt ∧ row.issuedAt < row.expiresAt ∧
              row.expiresAt ≤ scope.handoffExpiresAt ∧ scope.handoffExpiresAt ≤ maxTime ∧
              row.issuedAt ≤ row.changedAt ∧ row.changedAt ≤ maxTime ∧
              (row.state = .consumed → row.changedAt < row.expiresAt) ∧
              record.recordHash.val = recordHash) then
            fail "approval record is invalid"
          else return record

/-- The columns of a record, its hash apart. -/
def approvalRow (record : ApprovalRecord) (scope : Bytes) : ApprovalRow where
  tokenDigest := hex record.tokenDigest
  scope := scope
  issuedAt := record.issuedAt
  expiresAt := record.expiresAt
  state := record.state
  changedAt := record.changedAt
  previousHash := record.previousHash.map Subtype.val

namespace PostgresPendingJobs

/-- `add`. -/
def add (interpreter : Interpreter) (policy : Policy) (verifier : HandoffVerifier) (jobId : Str)
    (waiting : Wiring.Waiting) (now : Int) (tables : Tables) : Outcome Tables := do
  let handoff ← validatePending interpreter (some waiting.wire)
    ⟨waiting.subject, jobId, policy, now⟩ verifier
  let digest := sha256 waiting.wire
  if waiting.handoff ≠ handoff ∨ waiting.traceId ≠ str "trace-" ++ digest.val.take 16 then
    fail "pending waiting metadata does not match the signed wire"
  else if Table.count tables.pending (fun row => row.expiresAt > now) ≥
      Wiring.PendingJobs.maxPending then
    fail "too many jobs are waiting for approval"
  else do
    let row : PendingRow := ⟨waiting.subject, waiting.wire, waiting.traceId, handoff.expiresAt⟩
    let (inserted, tables) ← insertJob storeUnavailable jobId {
      subject := waiting.subject
      handoffSha256 := digest.val
      state := .pendingApproval
      createdAt := handoff.issuedAt
      reservedAt := none
      updatedAt := now
      expiresAt := handoff.expiresAt } tables
    if inserted ≠ 1 then fail "a job with this id is already burned"
    else insertPending storeUnavailable jobId row tables

/-- `_waiting` of the rows of a job. -/
def waiting (interpreter : Interpreter) (policy : Policy) (verifier : HandoffVerifier)
    (jobId : Str) (row : PendingRow) (job : JobRow) : Outcome Wiring.Waiting :=
  match bounded row.wire with
  | none => fail "stored pending wire exceeds the maximum size"
  | some wire =>
      let digest := sha256 wire
      if job.state ≠ .pendingApproval ∨ row.subject ≠ job.subject ∨ row.expiresAt ≠ job.expiresAt ∨
          digest.val ≠ job.handoffSha256 ∨
          row.traceId ≠ str "trace-" ++ job.handoffSha256.take 16 then
        fail "pending job does not match its bound ledger"
      else do
        let handoff ← validatePending interpreter (some wire)
          ⟨row.subject, jobId, policy, job.createdAt⟩ verifier
        if handoff.issuedAt ≠ job.createdAt ∨ handoff.toBytes ≠ wire ∨
            handoff.expiresAt ≠ row.expiresAt then
          fail "pending wire does not bind its issuance"
        else return ⟨row.subject, wire, handoff, row.traceId, 0⟩

/-- `peek`. -/
def peek (interpreter : Interpreter) (policy : Policy) (verifier : HandoffVerifier) (jobId : Str)
    (tables : Tables) : Outcome Wiring.Waiting := do
  parameters storeUnavailable [jobId]
  match tables.pending.lookup jobId, tables.jobs.lookup jobId with
  | some row, some job => waiting interpreter policy verifier jobId row job
  | _, _ => fail "no job is waiting for approval under this id"

/-- `take`, which only reads. -/
def take (interpreter : Interpreter) (policy : Policy) (verifier : HandoffVerifier)
    (jobId subject : Str) (tables : Tables) : Outcome Wiring.Waiting := do
  let waiting ← peek interpreter policy verifier jobId tables
  if waiting.subject ≠ subject then
    fail "no job of this subject is waiting for approval under this id"
  else return waiting

/-- `refuse`. -/
def refuse (jobId subject : Str) (now : Int) (tables : Tables) : Outcome Tables :=
  if ¬ (1 ≤ now ∧ now ≤ maxTime) then fail "refusal time is invalid"
  else do
    parameters storeUnavailable [jobId]
    match tables.jobs.lookup jobId with
    | none => fail "only this subject's pending job may be refused"
    | some job =>
        if job.state ≠ .pendingApproval ∨ job.subject ≠ subject then
          fail "only this subject's pending job may be refused"
        else if now < job.createdAt then fail "refusal time precedes job creation"
        else do
          let tables ← deletePending storeUnavailable jobId tables
          let (_, tables) ← updateJob storeUnavailable jobId (fun _ => true)
            (fun job => { job with state := .refused, updatedAt := now }) tables
          return tables

end PostgresPendingJobs

namespace PostgresApprovalStore

/-- The pending job that a scope names, where its rows and its wire agree with it. -/
def boundPending (scope : ApprovalScope) (tables : Tables) : Option PendingRow := do
  let job ← tables.jobs.lookup scope.jobId
  let row ← tables.pending.lookup scope.jobId
  if job.state = .pendingApproval ∧ job.subject = row.subject ∧
      job.handoffSha256 = scope.handoffSha256.val ∧ job.expiresAt = scope.handoffExpiresAt ∧
      row.expiresAt = job.expiresAt ∧ row.wire.length ≤ maxWireBytes ∧
      (sha256 row.wire).val = job.handoffSha256 then some row else none

/-- A field of the pending wire holds a text. -/
def holdsText (fields : List (Str × Value)) (key : String) (text : Str) : Bool :=
  match fields.lookup (str key) with
  | some (.str held) => held = text
  | _ => false

/-- The pending wire says what the scope says. -/
def describes (fields : List (Str × Value)) (scope : ApprovalScope) : Bool :=
  holdsText fields "job_id" scope.jobId && holdsText fields "user_id" scope.userId &&
    holdsText fields "worker_agent_id" scope.workerAgentId &&
    holdsText fields "tier" scope.riskTier && holdsText fields "policy_version" scope.policyVersion

/-- A current record with this scope is granted and expires after a time. -/
def activeGrant (scope : Bytes) (now : Int) (tables : Tables) : Bool :=
  Table.any tables.tokens fun tokenDigest recordHash =>
    (tables.records.lookup recordHash).any fun row =>
      row.tokenDigest = tokenDigest ∧ row.scope = scope ∧ row.state = .granted ∧
        row.expiresAt > now

/-- `grant`. -/
def grant (interpreter : Interpreter) (scope : ApprovalScope) (created : Bool)
    (now ttlSeconds : Int) (drawn : Option Bytes) (tables : Tables) :
    Outcome (ApprovalGrant × Tables) := do
  let (token, record) ← ApprovalStore.newGrant interpreter scope created now ttlSeconds drawn
  let raw ← canonical interpreter scope.toDict
  let row := approvalRow record raw
  let _ ← approvalRecord interpreter record.recordHash.val row (some raw)
  parameters storeUnavailable [scope.jobId]
  match boundPending scope tables with
  | none => fail "approval grant needs its exact pending job"
  | some pending => do
      let fields ← decodeWire interpreter (some pending.wire) handoffKeys "handoff"
      if ¬ describes fields scope then fail "approval grant needs its exact pending job"
      else if row.tokenDigest ∈ tables.tokens then fail "approval token collision"
      else if activeGrant raw now tables then
        fail "pending job already has an active approval grant"
      else do
        let tables ← insertApproval storeUnavailable record.recordHash.val row tables
        let tables ← insertToken storeUnavailable row.tokenDigest record.recordHash.val tables
        return (⟨token, scope, record.issuedAt, record.expiresAt, record.recordHash⟩, tables)

/-- The row of the pending job that an approval is consumed for. -/
def consumable (subject : Str) (scope : ApprovalScope) (tables : Tables) : Bool :=
  (tables.jobs.lookup scope.jobId).any (fun job => job.state = .pendingApproval ∧
    job.subject = subject ∧ job.handoffSha256 = scope.handoffSha256.val ∧
    job.expiresAt = scope.handoffExpiresAt) &&
  (tables.pending.lookup scope.jobId).any fun row =>
    row.wire.length ≤ maxWireBytes ∧ sha256 row.wire = scope.handoffSha256

/-- `_change`. A consumption names the subject whose job it is for; anything else is
a revocation. -/
def change (interpreter : Interpreter) (token : Bytes) (scope : ApprovalScope) (now : Int)
    (consumer : Option Str) (tables : Tables) : Outcome (ApprovalReceipt × Tables) :=
  if token.length < tokenBytes then fail "approval token or scope is invalid"
  else if ¬ (1 ≤ now ∧ now ≤ maxTime) then fail "approval time is invalid"
  else do
    let digest := hex (Sha256.digest token)
    let state : ApprovalState := if consumer.isSome then .consumed else .revoked
    parameters storeUnavailable (if consumer.isSome then [scope.jobId] else [])
    match tables.tokens.lookup digest with
    | none => fail "approval token is unknown"
    | some current =>
        match (tables.records.lookup current).filter fun row => row.tokenDigest = digest with
        | none => .error .typeError -- not reached: the pointer names a record of its token
        | some row => do
            let record ← approvalRecord interpreter current row (bounded row.scope)
            if record.state ≠ .granted then fail "approval is not granted"
            else do
              let same ← scopeMatches interpreter record.scope scope
              if ¬ same then fail "approval scope does not match"
              else if now < record.issuedAt ∨ state = .consumed ∧ now ≥ record.expiresAt then
                fail "approval is not currently valid"
              else if ¬ consumer.all (fun subject => consumable subject scope tables) then
                fail "approval does not bind this subject's pending job"
              else do
                let updated ← ApprovalEntry.record interpreter { record.toApprovalEntry with
                  state
                  changedAt := now
                  previousHash := some record.recordHash }
                let raw ← canonical interpreter updated.scope.toDict
                let tables ← insertApproval storeUnavailable updated.recordHash.val
                  (approvalRow updated raw) tables
                let tables ← updateToken storeUnavailable digest updated.recordHash.val tables
                let receipt : ApprovalReceipt := ⟨updated.scope, state, now, updated.recordHash⟩
                if consumer.isSome then do
                  let tables ← deletePending storeUnavailable scope.jobId tables
                  let (_, tables) ← updateJob storeUnavailable scope.jobId (fun _ => true)
                    (fun job => { job with
                      state := .reserved, reservedAt := some now, updatedAt := now }) tables
                  return (receipt, tables)
                else return (receipt, tables)

def consume (interpreter : Interpreter) (token : Bytes) (scope : ApprovalScope) (now : Int)
    (subject : Str) (tables : Tables) : Outcome (ApprovalReceipt × Tables) :=
  change interpreter token scope now (some subject) tables

def revoke (interpreter : Interpreter) (token : Bytes) (scope : ApprovalScope) (now : Int)
    (tables : Tables) : Outcome (ApprovalReceipt × Tables) :=
  change interpreter token scope now none tables

end PostgresApprovalStore

namespace PostgresJobLedger

/-- `is_burned`. -/
def isBurned (jobId : Str) (tables : Tables) : Outcome Bool := do
  parameters ledgerUnavailable [jobId]
  return (tables.jobs.lookup jobId).isSome

/-- `dispatch_available`. -/
def dispatchAvailable (jobId subject : Str) (handoffSha256 : Option Str) (tables : Tables) :
    Outcome Bool := do
  parameters ledgerUnavailable [jobId]
  match tables.jobs.lookup jobId with
  | none => return true
  | some job => return decide (job.state = .pendingApproval ∧ job.subject = subject ∧
      some job.handoffSha256 = handoffSha256)

/-- `reserve`. -/
def reserve (reservation : Reservation) (tables : Tables) : Outcome (Bool × Tables) := do
  let (inserted, tables) ← insertJob ledgerUnavailable reservation.jobId {
    subject := reservation.subject
    handoffSha256 := reservation.handoffSha256.val
    state := .reserved
    createdAt := reservation.reservedAt
    reservedAt := some reservation.reservedAt
    updatedAt := reservation.reservedAt
    expiresAt := reservation.expiresAt } tables
  return (decide (inserted = 1), tables)

/-- The current, consumed record under a hash, where its job is the reserved one. -/
def consumedRecord (reservation : Reservation) (recordHash : Str) (tables : Tables) :
    Option ApprovalRow := do
  let job ← tables.jobs.lookup reservation.jobId
  let row ← tables.records.lookup recordHash
  if tables.tokens.lookup row.tokenDigest = some recordHash ∧ job.subject = reservation.subject ∧
      job.handoffSha256 = reservation.handoffSha256.val ∧ job.expiresAt = reservation.expiresAt ∧
      job.state = .reserved ∧ job.reservedAt = some reservation.reservedAt ∧
      row.state = .consumed then some row else none

/-- `reserve_admitted`. -/
def reserveAdmitted (interpreter : Interpreter) (reservation : Reservation)
    (approvalRecordHash : Option Str) (tables : Tables) : Outcome (Bool × Tables) :=
  match approvalRecordHash with
  | none => reserve reservation tables
  | some recordHash => do
      parameters ledgerUnavailable [recordHash, reservation.jobId, reservation.subject]
      match consumedRecord reservation recordHash tables with
      | none => return (false, tables)
      | some row => do
          let scope ← storedScope interpreter (bounded row.scope)
          return (decide (scope.jobId = reservation.jobId ∧
            scope.handoffSha256 = reservation.handoffSha256 ∧
            scope.handoffExpiresAt = reservation.expiresAt ∧
            row.changedAt = reservation.reservedAt), tables)

/-- `commit_execution`. -/
def commitExecution (reservation : Reservation) (now : Int) (tables : Tables) : Outcome Tables := do
  let (changed, tables) ← updateJob ledgerUnavailable reservation.jobId
    (fun job => job.handoffSha256 = reservation.handoffSha256.val ∧ job.state = .reserved)
    (fun job => { job with state := .executionCommitted, updatedAt := now }) tables
  if changed ≠ 1 then fail "job reservation could not be committed to execution"
  else return tables

end PostgresJobLedger

namespace PostgresAcceptanceLedger

/-- `reserve`. -/
def reserve (jobId : Str) (handoffWire resultWire : Bytes) (now : Int) (tables : Tables) :
    Outcome (Bool × Tables) := do
  let digest := (sha256 handoffWire).val
  parameters acceptanceUnavailable [jobId]
  if digest ∈ tables.acceptances then return (false, tables)
  else do
    let tables ← insertAcceptance acceptanceUnavailable digest
      ⟨jobId, handoffWire, (sha256 resultWire).val, resultWire, now⟩ tables
    let completed := (tables.jobs.lookup jobId).any fun job =>
      job.handoffSha256 = digest ∧ job.state = .completed ∧ job.updatedAt = now
    if ¬ completed then fail "acceptance did not complete the bound job"
    else return (true, tables)

end PostgresAcceptanceLedger

end GeniusNew.Database
