import GeniusNew.Audit.Derived
import GeniusNew.Audit.Store
import GeniusNew.Database.Stores

/-! # The reconciliation of the tables with the audit chain

Before an instance starts, `check_core_bindings` compares what the tables hold with
what the signed events say: every job has its one issuance, and admissions,
executions, terminal refusals, approvals and accepted results are the same on both
sides, each as often. Its queries have a limit and no order, so what they return of a
table is any of its rows.
-/

namespace GeniusNew.Durable

open Json Database

/-- A row with its key, as a query returns it. -/
abbrev Line (Row : Type) := Sigma fun _ : Str => Row

/-- The rows that `LIMIT` without `ORDER BY` may return of a table. -/
structure Selects {Row : Type} (limit : Nat) (table : Table Row) (lines : List (Line Row)) :
    Prop where
  held : lines.Subperm table.entries
  whole : lines.length = min limit table.entries.length

namespace PostgresAuditChain

/-- `_TERMINAL_PENDING_REFUSALS`. -/
def terminalPendingRefusals : List Str :=
  [str "PENDING_APPROVAL_EXPIRED", str "PENDING_DISPATCH_REFUSED"]

def pendingApprovalReason : Str := str "PENDING_APPROVAL"

/-- `issued` under a key. -/
def issuedUnder (events : List AuditEvent) (jobId digest : Str) : List AuditEvent :=
  events.filter fun event => event.action = .handoffIssued ∧ event.jobId.val = jobId ∧
    event.handoffSha256.val = digest

/-- A version two event with the digest of a subject. -/
def bindsSubject (subject : Digest) (event : AuditEvent) : Bool :=
  match event.bindings with
  | .legacy => false
  | .bound bound _ => bound = subject

/-- The issuance of one row of the job ledger; the row with its id as events carry it. -/
def checkIssuance (events : List AuditEvent) (line : Line JobRow) : Outcome (Str × JobRow) := do
  let jobId ← auditSafe line.1 "job_id"
  let matching := issuedUnder events jobId line.2.handoffSha256
  if matching = [] then fail "job ledger has no audit issuance"
  else do
    let subject ← subjectBytes line.2.subject
    if ¬ matching.all (bindsSubject (sha256 subject)) then
      fail "job ledger subject has no signed audit binding"
    else if matching.length ≠ 1 then fail "job ledger has duplicate audit issuance"
    else return (jobId, line.2)

/-- The issuances of jobs that wait, each with its job. -/
def checkPending (events : List AuditEvent) (jobs : List (Str × JobRow)) : Outcome Unit :=
  let issuances : List (Str × Str) := (events.filter fun event => event.action = .handoffIssued ∧
    event.reasonCode.val = pendingApprovalReason).map fun event =>
      (event.jobId.val, event.handoffSha256.val)
  let ledger : List (Str × Str) := (jobs.filter fun job =>
    (issuedUnder events job.1 job.2.handoffSha256).head?.any fun event =>
      event.reasonCode.val = pendingApprovalReason).map fun job => (job.1, job.2.handoffSha256)
  if ¬ issuances.Perm ledger then fail "pending issuance has no job ledger row" else .ok ()

/-- The job, the handoff and the time of a decision. -/
abbrev Mark := Str × Str × Option Int

/-- The admission that a row of a job stands for. -/
def admissionMark (jobId : Str) (row : JobRow) : Option Mark :=
  if row.state ∈ [.reserved, .executionCommitted, .completed] then
    some (jobId, row.handoffSha256, row.reservedAt)
  else none

def executionMark (jobId : Str) (row : JobRow) : Option Mark :=
  if row.state ∈ [.executionCommitted, .completed] then
    some (jobId, row.handoffSha256, row.reservedAt)
  else none

def refusalMark (jobId : Str) (row : JobRow) : Option Mark :=
  if row.state = .refused then some (jobId, row.handoffSha256, some row.updatedAt) else none

def eventMark (event : AuditEvent) : Mark :=
  (event.jobId.val, event.handoffSha256.val, some event.occurredAt.val)

def admissionEvent (event : AuditEvent) : Option Mark :=
  if event.action = .handoffAdmitted then some (eventMark event) else none

def executionEvent (event : AuditEvent) : Option Mark :=
  if event.action = .executionDispatched then some (eventMark event) else none

def refusalEvent (event : AuditEvent) : Option Mark :=
  if event.action = .handoffRejected ∧ event.reasonCode.val ∈ terminalPendingRefusals then
    some (eventMark event)
  else none

def checkAdmissions (events : List AuditEvent) (jobs : List (Str × JobRow)) : Outcome Unit :=
  let admitted := (events.filter fun event => event.action = .handoffAdmitted).map fun event =>
    (eventMark event, event.approvalRecordHash)
  let expected := jobs.filterMap fun job => admissionMark job.1 job.2
  if ¬ admitted.Nodup ∨ ¬ expected.Nodup then fail "job ledger and audit admissions do not match"
  else if ¬ (admitted.map Prod.fst).Perm expected then
    fail "job ledger and audit admissions do not match"
  else .ok ()

def checkExecutions (events : List AuditEvent) (jobs : List (Str × JobRow)) : Outcome Unit :=
  if ¬ (events.filterMap executionEvent).Perm
      (jobs.filterMap fun job => executionMark job.1 job.2) then
    fail "job ledger and audit execution events do not match"
  else .ok ()

def checkRefusals (events : List AuditEvent) (jobs : List (Str × JobRow)) : Outcome Unit :=
  if ¬ (events.filterMap refusalEvent).Perm
      (jobs.filterMap fun job => refusalMark job.1 job.2) then
    fail "refused jobs and terminal audit events do not match"
  else .ok ()

/-- `approval_actions`. -/
def approvalAction : ApprovalState → Action
  | .granted => .approvalGranted
  | .consumed => .handoffAdmitted
  | .revoked => .approvalRevoked

/-- The decision, the record and the time of an approval. -/
abbrev ApprovalMark := Action × Option Str × Int

def approvalMark (recordHash : Str) (row : ApprovalRow) : Option ApprovalMark :=
  some (approvalAction row.state, some recordHash, row.changedAt)

def approvalEvent (event : AuditEvent) : Option ApprovalMark :=
  if event.action = .approvalGranted ∨ event.action = .approvalRevoked ∨
      (event.action = .handoffAdmitted ∧ event.approvalRecordHash.isSome) then
    some (event.action, event.approvalRecordHash.map Subtype.val, event.occurredAt.val)
  else none

/-- The stored scope of a record, as far as it is decoded here. -/
def scopeOf (interpreter : Interpreter) (line : Line ApprovalRow) :
    Outcome (Str × List (Str × Value)) :=
  match bounded line.2.scope with
  | none => fail "stored approval scope exceeds the maximum size"
  | some raw => do
      let fields ← decodeWire interpreter (some raw) scopeKeys "approval scope"
      return (line.1, fields)

/-- `_audit_safe` of a decoded value. -/
def auditSafeOf (fields : List (Str × Value)) (key field : String) : Outcome Str :=
  match fields.lookup (str key) with
  | some (.str text) => auditSafe text field
  | _ => fail (field ++ " must be a non-empty identifier")

/-- An event is about the job of a scope. -/
def bindsScope (fields : List (Str × Value)) (event : AuditEvent) : Outcome Bool := do
  let jobId ← auditSafeOf fields "job_id" "job_id"
  if event.jobId.val ≠ jobId ∨
      ¬ PostgresApprovalStore.holdsText fields "handoff_sha256" event.handoffSha256.val then
    return false
  else do
    let subject ← auditSafeOf fields "user_id" "subject"
    if event.subject.val ≠ subject then return false
    else do
      let policyVersion ← auditSafeOf fields "policy_version" "policy_version"
      return decide (event.policyVersion.val = policyVersion)

/-- The scope of the record that an event names. -/
def checkReceipt (scopes : List (Str × List (Str × Value))) (event : AuditEvent) : Outcome Unit :=
  match event.approvalRecordHash.bind fun hash => scopes.lookup hash.val with
  | none => .error .typeError -- not reached: the events name the records that were read
  | some fields => do
      let bound ← bindsScope fields event
      if ¬ bound then fail "approval receipt does not bind the audited job" else return ()

def checkApprovals (interpreter : Interpreter) (events : List AuditEvent)
    (approvals : List (Line ApprovalRow)) : Outcome Unit := do
  let scopes ← approvals.mapM (scopeOf interpreter)
  if ¬ (events.filterMap approvalEvent).Perm
      (approvals.filterMap fun line => approvalMark line.1 line.2) then
    fail "approval records and audit events do not match"
  else do
    let _ ← (events.filter fun event => (approvalEvent event).isSome).mapM (checkReceipt scopes)
    return ()

/-- The job, the handoff, the result and the time of an acceptance. -/
abbrev ResultMark := Str × Str × Option Str × Int

def resultOf : Bindings → Option Str
  | .legacy => none
  | .bound _ result => result.map Subtype.val

def resultEvent (event : AuditEvent) : Option ResultMark :=
  if event.action = .resultAccepted then
    some (event.jobId.val, event.handoffSha256.val, resultOf event.bindings, event.occurredAt.val)
  else none

def resultMark (line : Line AcceptanceRow) : Outcome ResultMark := do
  let jobId ← auditSafe line.2.jobId "job_id"
  return (jobId, line.1, some line.2.resultSha256, line.2.acceptedAt)

def checkResults (events : List AuditEvent) (acceptances : List (Line AcceptanceRow)) :
    Outcome Unit := do
  let expected ← acceptances.mapM resultMark
  if ¬ (events.filterMap resultEvent).Perm expected then
    fail "acceptance ledger and audit result events do not match"
  else return ()

/-- `check_core_bindings`, given the events of the chain and what its queries return. -/
def checkCoreBindings (interpreter : Interpreter) (events : List AuditEvent)
    (jobs : List (Line JobRow)) (approvals : List (Line ApprovalRow))
    (acceptances : List (Line AcceptanceRow)) : Outcome Unit := do
  let jobs ← jobs.mapM (checkIssuance events)
  checkPending events jobs
  checkAdmissions events jobs
  checkExecutions events jobs
  checkRefusals events jobs
  checkApprovals interpreter events approvals
  checkResults events acceptances

end PostgresAuditChain

end GeniusNew.Durable
