import GeniusNew.Contracts.Decoded
import GeniusNew.Approvals.Store
import Mathlib.Data.List.AList

/-! # The tables of the database

The durable state of the service: the job ledger, the accepted results, the jobs
that wait for approval, and the approval records with the pointer to the current
record of each token. A statement takes effect only within the constraints and
the triggers of the migrations; one that breaks them raises, and its transaction
leaves no trace.
-/

namespace GeniusNew.Database

open Json

/-- `job_ledger.state`. -/
inductive JobState where
  | pendingApproval
  | reserved
  | executionCommitted
  | completed
  | refused
  deriving DecidableEq

/-- A row of `job_ledger`, its key `job_id` apart. -/
structure JobRow where
  subject : Str
  handoffSha256 : Str
  state : JobState
  createdAt : Int
  reservedAt : Option Int
  updatedAt : Int
  expiresAt : Int
  deriving DecidableEq

/-- A row of `acceptance_ledger`, its key `handoff_sha256` apart. -/
structure AcceptanceRow where
  jobId : Str
  handoffWire : Bytes
  resultSha256 : Str
  resultWire : Bytes
  acceptedAt : Int
  deriving DecidableEq

/-- A row of `pending_jobs`, its key `job_id` apart. -/
structure PendingRow where
  subject : Str
  wire : Bytes
  traceId : Str
  expiresAt : Int
  deriving DecidableEq

/-- A row of `approval_records`, its unique `record_hash` apart. -/
structure ApprovalRow where
  tokenDigest : Str
  scope : Bytes
  issuedAt : Int
  expiresAt : Int
  state : ApprovalState
  changedAt : Int
  previousHash : Option Str
  deriving DecidableEq

/-- The rows of a table by their key. -/
abbrev Table (Row : Type) := AList fun _ : Str => Row

/-- `tokens` is `approval_tokens`: the hash of the current record of each token. -/
structure Tables where
  jobs : Table JobRow
  acceptances : Table AcceptanceRow
  pending : Table PendingRow
  records : Table ApprovalRow
  tokens : Table Str

def Tables.empty : Tables := ⟨∅, ∅, ∅, ∅, ∅⟩

namespace Table

variable {Row : Type}

/-- A row of the table satisfies a condition. -/
def any (table : Table Row) (condition : Str → Row → Bool) : Bool :=
  table.entries.any fun entry => condition entry.1 entry.2

/-- How many rows satisfy a condition. -/
def count (table : Table Row) (condition : Row → Bool) : Nat :=
  table.entries.countP fun entry => condition entry.2

variable {table : Table Row} {key : Str} {row : Row}

theorem lookup_insert_eq (other : Str) : (table.insert key row).lookup other =
    if other = key then some row else table.lookup other := by
  split_ifs with same
  · rw [same, AList.lookup_insert]
  · rw [AList.lookup_insert_ne same]

theorem lookup_erase_eq (other : Str) : (table.erase key).lookup other =
    if other = key then none else table.lookup other := by
  split_ifs with same
  · rw [same, AList.lookup_erase]
  · rw [AList.lookup_erase_ne same]

theorem mem_iff : key ∈ table ↔ ∃ row, table.lookup key = some row := by
  rw [← AList.lookup_isSome, Option.isSome_iff_exists]

theorem any_eq_true {condition : Str → Row → Bool} : table.any condition = true ↔
    ∃ key row, table.lookup key = some row ∧ condition key row = true := by
  unfold any
  rw [List.any_eq_true]
  constructor
  · rintro ⟨entry, member, holds⟩
    exact ⟨entry.1, entry.2, AList.mem_lookup_iff.mpr member, holds⟩
  · rintro ⟨key, row, found, holds⟩
    exact ⟨⟨key, row⟩, AList.mem_lookup_iff.mp found, holds⟩

theorem any_eq_false {condition : Str → Row → Bool} : table.any condition = false ↔
    ∀ key row, table.lookup key = some row → condition key row = false := by
  simp only [Bool.eq_false_iff, ne_eq, any_eq_true, not_exists, not_and]

end Table

/-- A `bigint`. -/
def isBigint (number : Int) : Bool := -2 ^ 63 ≤ number ∧ number < 2 ^ 63

/-- Texts as the parameters of a statement. A surrogate has no UTF-8, and the
driver refuses a zero. -/
def parameters (unavailable : String) : List Str → Outcome Unit
  | [] => .ok ()
  | text :: texts =>
      if (encodeUtf8 text).isNone then .error .unicodeError
      else if 0 ∈ text then fail unavailable
      else parameters unavailable texts

/-- What the columns of `job_ledger` hold. -/
def JobRow.storable (row : JobRow) : Bool :=
  row.handoffSha256.length ≤ 64 ∧ isBigint row.createdAt ∧ row.reservedAt.all isBigint ∧
    isBigint row.updatedAt ∧ isBigint row.expiresAt

/-- The check constraint of `job_ledger`. -/
def JobRow.checked (row : JobRow) : Bool :=
  match row.state with
  | .pendingApproval => row.reservedAt.isNone
  | .refused => true
  | _ => row.reservedAt.isSome

/-- The state transitions of `enforce_job_transition`. -/
def JobState.precedes : JobState → JobState → Bool
  | .pendingApproval, .reserved | .pendingApproval, .refused => true
  | .reserved, .executionCommitted | .reserved, .refused => true
  | .executionCommitted, .completed => true
  | _, _ => false

/-- `enforce_job_transition`, the key apart, which no statement changes. -/
def enforceJobTransition (old new : JobRow) : Bool :=
  (new.subject, new.handoffSha256, new.createdAt, new.expiresAt) =
      (old.subject, old.handoffSha256, old.createdAt, old.expiresAt) ∧
    old.state.precedes new.state ∧
    (new.reservedAt = old.reservedAt ∨ old.state = .pendingApproval ∧ new.state = .reserved ∧
      old.reservedAt = none ∧ new.reservedAt ≠ none)

/-- `INSERT INTO job_ledger ... ON CONFLICT DO NOTHING`, with the number of rows it
inserted. -/
def insertJob (unavailable : String) (jobId : Str) (row : JobRow) (tables : Tables) :
    Outcome (Nat × Tables) := do
  parameters unavailable [jobId, row.subject, row.handoffSha256]
  if ¬ (row.storable ∧ row.checked) then fail unavailable
  else if jobId ∈ tables.jobs then return (0, tables)
  else return (1, { tables with jobs := tables.jobs.insert jobId row })

/-- `UPDATE job_ledger SET ... WHERE job_id = ... AND ...`, with the number of rows
it changed. -/
def updateJob (unavailable : String) (jobId : Str) (selected : JobRow → Bool)
    (set : JobRow → JobRow) (tables : Tables) : Outcome (Nat × Tables) := do
  parameters unavailable [jobId]
  match tables.jobs.lookup jobId with
  | none => return (0, tables)
  | some row =>
      if ¬ selected row then return (0, tables)
      else if ¬ ((set row).storable ∧ (set row).checked ∧ enforceJobTransition row (set row)) then
        fail unavailable
      else return (1, { tables with jobs := tables.jobs.insert jobId (set row) })

/-- `INSERT INTO pending_jobs`. -/
def insertPending (unavailable : String) (jobId : Str) (row : PendingRow) (tables : Tables) :
    Outcome Tables := do
  parameters unavailable [jobId, row.subject, row.traceId]
  if jobId ∈ tables.pending ∨ jobId ∉ tables.jobs ∨ row.wire.length > maxWireBytes ∨
      encodedLength row.traceId > 64 ∨ ¬ isBigint row.expiresAt then fail unavailable
  else return { tables with pending := tables.pending.insert jobId row }

/-- `DELETE FROM pending_jobs WHERE job_id = ...`. -/
def deletePending (unavailable : String) (jobId : Str) (tables : Tables) : Outcome Tables := do
  parameters unavailable [jobId]
  return { tables with pending := tables.pending.erase jobId }

/-- `enforce_approval_record`. -/
def enforceApprovalRecord (records : Table ApprovalRow) (new : ApprovalRow) : Bool :=
  (match new.previousHash with
    | none => decide (new.state = .granted)
    | some previous =>
        match records.lookup previous with
        | none => false
        | some predecessor =>
            decide (predecessor.tokenDigest = new.tokenDigest ∧ predecessor.state = .granted ∧
              new.state ≠ .granted ∧ (new.scope, new.issuedAt, new.expiresAt) =
                (predecessor.scope, predecessor.issuedAt, predecessor.expiresAt) ∧
              predecessor.changedAt ≤ new.changedAt)) &&
    decide (new.state = .consumed → new.changedAt < new.expiresAt)

/-- `INSERT INTO approval_records`. The trigger has found the row that the foreign
key names. -/
def insertApproval (unavailable : String) (recordHash : Str) (row : ApprovalRow)
    (tables : Tables) : Outcome Tables := do
  parameters unavailable (row.tokenDigest :: recordHash :: row.previousHash.toList)
  if recordHash ∈ tables.records ∨ row.scope.length > maxWireBytes ∨
      row.tokenDigest.length > 64 ∨ recordHash.length > 64 ∨
      ¬ (isBigint row.issuedAt ∧ isBigint row.expiresAt ∧ isBigint row.changedAt) ∨
      -- `approval_one_root_per_token` and `approval_one_successor_per_record`
      tables.records.any (fun _ other => other.tokenDigest = row.tokenDigest ∧
        other.previousHash = row.previousHash) ∨
      ¬ enforceApprovalRecord tables.records row then fail unavailable
  else return { tables with records := tables.records.insert recordHash row }

/-- `INSERT INTO approval_tokens`, with `enforce_approval_pointer`. -/
def insertToken (unavailable : String) (tokenDigest recordHash : Str) (tables : Tables) :
    Outcome Tables := do
  parameters unavailable [tokenDigest, recordHash]
  match tables.records.lookup recordHash with
  | none => fail unavailable
  | some target =>
      if tokenDigest ∈ tables.tokens ∨ target.tokenDigest ≠ tokenDigest ∨
          target.state ≠ .granted ∨ target.previousHash ≠ none then fail unavailable
      else return { tables with tokens := tables.tokens.insert tokenDigest recordHash }

/-- `UPDATE approval_tokens SET current_record_hash = ... WHERE token_digest = ...`,
with `enforce_approval_pointer`. -/
def updateToken (unavailable : String) (tokenDigest recordHash : Str) (tables : Tables) :
    Outcome Tables := do
  parameters unavailable [recordHash, tokenDigest]
  match tables.tokens.lookup tokenDigest with
  | none => return tables
  | some current =>
      match tables.records.lookup recordHash with
      | none => fail unavailable
      | some target =>
          if target.tokenDigest ≠ tokenDigest ∨ target.previousHash ≠ some current ∨
              target.state = .granted then fail unavailable
          else return { tables with tokens := tables.tokens.insert tokenDigest recordHash }

/-- `INSERT INTO acceptance_ledger`: `lock_acceptance_job` before it, and
`complete_acceptance_job` after it. -/
def insertAcceptance (unavailable : String) (handoffSha256 : Str) (row : AcceptanceRow)
    (tables : Tables) : Outcome Tables := do
  parameters unavailable [handoffSha256, row.jobId, row.resultSha256]
  let bound (job : JobRow) : Bool :=
    job.handoffSha256 = handoffSha256 ∧ job.state = .executionCommitted
  if ¬ (tables.jobs.lookup row.jobId).any bound ∨ handoffSha256 ∈ tables.acceptances ∨
      tables.acceptances.any (fun _ other => other.resultSha256 = row.resultSha256) ∨
      handoffSha256.length > 64 ∨ row.resultSha256.length > 64 ∨ ¬ isBigint row.acceptedAt then
    fail unavailable
  else do
    let inserted := { tables with acceptances := tables.acceptances.insert handoffSha256 row }
    let (changed, completed) ← updateJob unavailable row.jobId bound
      (fun job => { job with state := .completed, updatedAt := row.acceptedAt }) inserted
    if changed ≠ 1 then fail unavailable else return completed

end GeniusNew.Database
