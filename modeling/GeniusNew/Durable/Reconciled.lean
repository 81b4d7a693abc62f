import GeniusNew.Assoc.Registers
import GeniusNew.Database.Coherence
import GeniusNew.Durable.Reconciliation
import GeniusNew.Durable.Said

/-! # Tables and events go together

What every transaction with its event keeps between the tables and the chain: a job
has its issuance, and the registers that the start check compares account for each
other. `Commits` lists what a transaction and its event do together.
-/

namespace GeniusNew.Durable

open Json Assoc Database Orchestrator PostgresAuditChain

/-- A job id as events carry it. -/
def audited (jobId : Str) : Option Str := (auditSafe jobId "job_id").toOption

theorem audited_eq_some {jobId safe : Str} :
    audited jobId = some safe ↔ auditSafe jobId "job_id" = .ok safe := by
  unfold audited
  cases auditSafe jobId "job_id" with
  | error raised => simp [Except.toOption]
  | ok made => simp [Except.toOption]

/-- The mark of a row, under the id of its job as events carry it. -/
def marked (mark : Str → JobRow → Option Mark) (jobId : Str) (row : JobRow) : Option Mark :=
  (audited jobId).bind fun safe => mark safe row

def acceptedMark (digest : Str) (row : AcceptanceRow) : Option ResultMark :=
  (audited row.jobId).map fun safe => (safe, digest, some row.resultSha256, row.acceptedAt)

/-- An event about a job, its subject and the digest of its handoff. -/
structure About (event : AuditEvent) (jobId subject digest : Str) : Prop where
  jobId : auditSafe jobId "job_id" = .ok event.jobId.val
  subject : ∃ bytes result, subjectBytes subject = .ok bytes ∧
    event.bindings = .bound (sha256 bytes) result
  digest : event.handoffSha256.val = digest

/-- An event about the job that a scope names. -/
structure Describes (event : AuditEvent) (scope : ApprovalScope) : Prop where
  digest : event.handoffSha256 = scope.handoffSha256
  jobId : auditSafe scope.jobId "job_id" = .ok event.jobId.val
  subject : auditSafe scope.userId "subject" = .ok event.subject.val
  version : auditSafe scope.policyVersion "policy_version" = .ok event.policyVersion.val

/-- The job was issued. -/
def Issues (events : List AuditEvent) (jobId subject digest : Str) : Prop :=
  ∃ event ∈ events, event.action = .handoffIssued ∧ About event jobId subject digest

theorem Issues.append {events : List AuditEvent} {jobId subject digest : Str}
    (issues : Issues events jobId subject digest) (event : AuditEvent) :
    Issues (events ++ [event]) jobId subject digest := by
  obtain ⟨found, member, issued⟩ := issues
  exact ⟨found, List.mem_append_left _ member, issued⟩

/-- An event that no register shows. -/
structure Silent (event : AuditEvent) : Prop where
  unqueued : event.action = .handoffIssued → event.reasonCode.val ≠ pendingApprovalReason
  admission : admissionEvent event = none
  execution : executionEvent event = none
  refusal : refusalEvent event = none
  approval : approvalEvent event = none
  result : resultEvent event = none

/-- What a transaction and its event do together. -/
inductive Commits (interpreter : Interpreter) (before : Tables) (events : List AuditEvent) :
    Tables → AuditEvent → Prop
  | noted {event : AuditEvent} (silent : Silent event) : Commits interpreter before events before event
  | queued {policy : Policy} {verifier : HandoffVerifier} {jobId : Str} {waiting : Wiring.Waiting}
      {now : Int} {after : Tables} {event : AuditEvent}
      (effect : Effect interpreter before (.add policy verifier jobId waiting now) after)
      (about : About event jobId waiting.subject (sha256 waiting.wire).val)
      (action : event.action = .handoffIssued)
      (reason : event.reasonCode.val = pendingApprovalReason) :
      Commits interpreter before events after event
  | refused {jobId subject : Str} {now : Int} {row : JobRow} {after : Tables} {event : AuditEvent}
      (effect : Effect interpreter before (.refuse jobId subject now) after)
      (found : before.jobs.lookup jobId = some row)
      (about : About event jobId row.subject row.handoffSha256)
      (action : event.action = .handoffRejected)
      (reason : event.reasonCode.val ∈ terminalPendingRefusals)
      (occurred : event.occurredAt.val = now) : Commits interpreter before events after event
  | granted {scope : ApprovalScope} {now ttlSeconds : Int} {drawn : Option Bytes} {token raw : Bytes}
      {record : ApprovalRecord} {event : AuditEvent}
      (grants : Grants interpreter before scope true now ttlSeconds drawn token record raw)
      (joined : scope.joined = scope) (describes : Describes event scope)
      (action : event.action = .approvalGranted)
      (receipt : event.approvalRecordHash = some record.recordHash)
      (occurred : event.occurredAt.val = now) :
      Commits interpreter before events
        (before.recorded (hex record.tokenDigest) record.recordHash.val (approvalRow record raw)) event
  | reserved {reservation : Reservation} {event : AuditEvent}
      (fresh : reservation.jobId ∉ before.jobs) (carried : Storable reservation.jobId)
      (issued : Issues events reservation.jobId reservation.subject reservation.handoffSha256.val)
      (about : About event reservation.jobId reservation.subject reservation.handoffSha256.val)
      (action : event.action = .handoffAdmitted) (receipt : event.approvalRecordHash = none)
      (occurred : event.occurredAt.val = reservation.reservedAt) :
      Commits interpreter before events
        { before with jobs := before.jobs.insert reservation.jobId (reservedJob reservation) } event
  | consumed {token raw : Bytes} {scope : ApprovalScope} {now : Int} {subject current : Str}
      {row : ApprovalRow} {record updated : ApprovalRecord} {job : JobRow} {pending : PendingRow}
      {event : AuditEvent}
      (succeeds : Succeeds interpreter before token scope now .consumed current row record updated
        raw)
      (carried : Storable scope.jobId) (found : before.jobs.lookup scope.jobId = some job)
      (waits : job.state = .pendingApproval) (owned : job.subject = subject)
      (bound : job.handoffSha256 = scope.handoffSha256.val)
      (expires : job.expiresAt = scope.handoffExpiresAt)
      (queued : before.pending.lookup scope.jobId = some pending)
      (wired : sha256 pending.wire = scope.handoffSha256)
      (joined : scope.joined = scope) (describes : Describes event scope)
      (about : About event scope.jobId subject scope.handoffSha256.val)
      (action : event.action = .handoffAdmitted)
      (receipt : event.approvalRecordHash = some updated.recordHash)
      (occurred : event.occurredAt.val = now) :
      Commits interpreter before events
        ((before.recorded (hex (Sha256.digest token)) updated.recordHash.val
          (approvalRow updated raw)).dequeued scope.jobId
            { job with state := .reserved, reservedAt := some now, updatedAt := now }) event
  | dispatched {reservation : Reservation} {now : Int} {job : JobRow} {event : AuditEvent}
      (found : before.jobs.lookup reservation.jobId = some job)
      (bound : job.handoffSha256 = reservation.handoffSha256.val) (open_ : job.state = .reserved)
      (reserved : job.reservedAt = some now)
      (about : About event reservation.jobId job.subject job.handoffSha256)
      (action : event.action = .executionDispatched) (occurred : event.occurredAt.val = now) :
      Commits interpreter before events
        { before with
          jobs := before.jobs.insert reservation.jobId
            { job with state := .executionCommitted, updatedAt := now } } event
  | accepted {jobId : Str} {handoffWire resultWire : Bytes} {now : Int} {job : JobRow}
      {event : AuditEvent}
      (fresh : (sha256 handoffWire).val ∉ before.acceptances)
      (unique : ∀ other held, before.acceptances.lookup other = some held →
        held.resultSha256 ≠ (sha256 resultWire).val)
      (found : before.jobs.lookup jobId = some job)
      (bound : job.handoffSha256 = (sha256 handoffWire).val)
      (committed : job.state = .executionCommitted)
      (about : About event jobId job.subject job.handoffSha256)
      (action : event.action = .resultAccepted)
      (result : resultOf event.bindings = some (sha256 resultWire).val)
      (occurred : event.occurredAt.val = now) :
      Commits interpreter before events
        { before with
          acceptances := before.acceptances.insert (sha256 handoffWire).val
            ⟨jobId, handoffWire, (sha256 resultWire).val, resultWire, now⟩
          jobs := before.jobs.insert jobId { job with state := .completed, updatedAt := now } } event

/-- Every job was issued, and every job that was issued to wait is there. -/
structure Issuances (jobs : Table JobRow) (events : List AuditEvent) : Prop where
  issued : ∀ jobId row, jobs.lookup jobId = some row →
    Issues events jobId row.subject row.handoffSha256
  waiting : ∀ event ∈ events, event.action = .handoffIssued →
    event.reasonCode.val = pendingApprovalReason → ∃ jobId row, jobs.lookup jobId = some row ∧
      About event jobId row.subject row.handoffSha256

/-- The events of the approvals name the records that they are about. -/
def Receipts (interpreter : Interpreter) (records : Table ApprovalRow) (events : List AuditEvent) :
    Prop :=
  ∀ event ∈ events, (approvalEvent event).isSome = true → ∃ hash row record,
    event.approvalRecordHash = some hash ∧ records.lookup hash.val = some row ∧
      Holds interpreter hash.val row record ∧ Describes event record.scope

/-- What the start check compares. -/
structure Reconciled (interpreter : Interpreter) (tables : Tables) (events : List AuditEvent) :
    Prop where
  issuances : Issuances tables.jobs events
  admissions : Accounts (marked admissionMark) admissionEvent tables.jobs events
  executions : Accounts (marked executionMark) executionEvent tables.jobs events
  refusals : Accounts (marked refusalMark) refusalEvent tables.jobs events
  approvals : Accounts approvalMark approvalEvent tables.records events
  receipts : Receipts interpreter tables.records events
  results : Accounts acceptedMark resultEvent tables.acceptances events

theorem reconciled_empty (interpreter : Interpreter) : Reconciled interpreter Tables.empty [] where
  issuances := by
    refine ⟨fun jobId row found => ?_, fun event member => nomatch member⟩
    have absent : (∅ : Table JobRow).lookup jobId = none := AList.lookup_empty _
    exact nomatch absent.symm.trans found
  admissions := accounts_empty _ _
  executions := accounts_empty _ _
  refusals := accounts_empty _ _
  approvals := accounts_empty _ _
  receipts := fun event member => nomatch member
  results := accounts_empty _ _

section Parts

variable {interpreter : Interpreter} {jobs : Table JobRow} {records : Table ApprovalRow}
  {events : List AuditEvent} {event : AuditEvent} {jobId : Str} {row old : JobRow}

theorem Issuances.noted (issuances : Issuances jobs events)
    (unqueued : event.action = .handoffIssued → event.reasonCode.val ≠ pendingApprovalReason) :
    Issuances jobs (events ++ [event]) where
  issued := fun jobId row found => (issuances.issued jobId row found).append event
  waiting := by
    intro other member action reason
    obtain inside | last := List.mem_append.mp member
    · exact issuances.waiting other inside action reason
    · obtain rfl := List.mem_singleton.mp last
      exact absurd reason (unqueued action)

/-- A new row comes with an issuance, which is the event where it is to wait. -/
theorem Issuances.added (issuances : Issuances jobs events) (fresh : jobId ∉ jobs)
    (issues : Issues (events ++ [event]) jobId row.subject row.handoffSha256)
    (queued : event.action = .handoffIssued → event.reasonCode.val = pendingApprovalReason →
      About event jobId row.subject row.handoffSha256) :
    Issuances (jobs.insert jobId row) (events ++ [event]) := by
  constructor
  · intro other held found
    rw [Table.lookup_insert_eq] at found
    split_ifs at found with same
    · obtain rfl := Option.some.inj found
      rwa [same]
    · exact (issuances.issued other held found).append event
  · intro other member action reason
    obtain inside | last := List.mem_append.mp member
    · obtain ⟨known, held, found, about⟩ := issuances.waiting other inside action reason
      have apart : known ≠ jobId := fun same => fresh (Table.mem_iff.mpr ⟨held, same ▸ found⟩)
      exact ⟨known, held, (AList.lookup_insert_ne apart).trans found, about⟩
    · obtain rfl := List.mem_singleton.mp last
      exact ⟨jobId, row, AList.lookup_insert _, queued action reason⟩

/-- A row that changes keeps its subject and its handoff. -/
theorem Issuances.moved (issuances : Issuances jobs events) (found : jobs.lookup jobId = some old)
    (subject : row.subject = old.subject) (digest : row.handoffSha256 = old.handoffSha256)
    (other : event.action ≠ .handoffIssued) :
    Issuances (jobs.insert jobId row) (events ++ [event]) := by
  constructor
  · intro known held stored
    rw [Table.lookup_insert_eq] at stored
    split_ifs at stored with same
    · obtain rfl := Option.some.inj stored
      rw [same, subject, digest]
      exact (issuances.issued jobId old found).append event
    · exact (issuances.issued known held stored).append event
  · intro known member action reason
    obtain inside | last := List.mem_append.mp member
    · obtain ⟨id, held, stored, about⟩ := issuances.waiting known inside action reason
      by_cases same : id = jobId
      · subst same
        obtain rfl := Option.some.inj (found.symm.trans stored)
        rw [← subject, ← digest] at about
        exact ⟨id, row, AList.lookup_insert _, about⟩
      · exact ⟨id, held, (AList.lookup_insert_ne same).trans stored, about⟩
    · obtain rfl := List.mem_singleton.mp last
      exact absurd action other

theorem Receipts.noted (receipts : Receipts interpreter records events)
    (silent : approvalEvent event = none) : Receipts interpreter records (events ++ [event]) := by
  intro other member shown
  obtain inside | last := List.mem_append.mp member
  · exact receipts other inside shown
  · obtain rfl := List.mem_singleton.mp last
    rw [silent] at shown
    cases shown

/-- A new record comes with the event that names it. -/
theorem Receipts.added (receipts : Receipts interpreter records events) {hash : Digest}
    {row : ApprovalRow} {record : ApprovalRecord} (fresh : hash.val ∉ records)
    (named : event.approvalRecordHash = some hash) (holds : Holds interpreter hash.val row record)
    (describes : Describes event record.scope) :
    Receipts interpreter (records.insert hash.val row) (events ++ [event]) := by
  intro other member shown
  obtain inside | last := List.mem_append.mp member
  · obtain ⟨found, held, read, receipt, stored, rest⟩ := receipts other inside shown
    have apart : found.val ≠ hash.val := fun same =>
      fresh (Table.mem_iff.mpr ⟨held, same ▸ stored⟩)
    exact ⟨found, held, read, receipt, (AList.lookup_insert_ne apart).trans stored, rest⟩
  · obtain rfl := List.mem_singleton.mp last
    exact ⟨hash, row, record, named, AList.lookup_insert _, holds, describes⟩

theorem About.audited {subject digest : Str} (about : About event jobId subject digest) :
    audited jobId = some event.jobId.val := audited_eq_some.mpr about.jobId

theorem About.marked {subject digest : Str} (about : About event jobId subject digest)
    (mark : Str → JobRow → Option Mark) (row : JobRow) :
    marked mark jobId row = mark event.jobId.val row := by
  rw [Durable.marked, about.audited, Option.bind_some]

theorem About.mark {subject digest : Str} (about : About event jobId subject digest) {now : Int}
    (occurred : event.occurredAt.val = now) :
    eventMark event = (event.jobId.val, digest, some now) := by
  rw [eventMark, about.digest, occurred]

end Parts

section Shown

variable {event : AuditEvent}

/-- The registers an event shows in, apart from the approvals. -/
structure Shown (event : AuditEvent) (admission execution refusal : Option Mark)
    (result : Option ResultMark) : Prop where
  admission : admissionEvent event = admission
  execution : executionEvent event = execution
  refusal : refusalEvent event = refusal
  result : resultEvent event = result

theorem shown_issued (action : event.action = .handoffIssued) :
    Shown event none none none none ∧ approvalEvent event = none := by
  refine ⟨⟨?_, ?_, ?_, ?_⟩, ?_⟩ <;>
    simp [admissionEvent, executionEvent, refusalEvent, resultEvent, approvalEvent, action]

theorem shown_refused (action : event.action = .handoffRejected)
    (reason : event.reasonCode.val ∈ terminalPendingRefusals) :
    Shown event none none (some (eventMark event)) none ∧ approvalEvent event = none := by
  refine ⟨⟨?_, ?_, ?_, ?_⟩, ?_⟩ <;>
    simp [admissionEvent, executionEvent, refusalEvent, resultEvent, approvalEvent, action, reason]

theorem shown_granted (action : event.action = .approvalGranted) :
    Shown event none none none none ∧ approvalEvent event = some (.approvalGranted,
      event.approvalRecordHash.map Subtype.val, event.occurredAt.val) := by
  refine ⟨⟨?_, ?_, ?_, ?_⟩, ?_⟩ <;>
    simp [admissionEvent, executionEvent, refusalEvent, resultEvent, approvalEvent, action]

theorem shown_admitted (action : event.action = .handoffAdmitted) :
    Shown event (some (eventMark event)) none none none := by
  refine ⟨?_, ?_, ?_, ?_⟩ <;>
    simp [admissionEvent, executionEvent, refusalEvent, resultEvent, action]

theorem shown_dispatched (action : event.action = .executionDispatched) :
    Shown event none (some (eventMark event)) none none ∧ approvalEvent event = none := by
  refine ⟨⟨?_, ?_, ?_, ?_⟩, ?_⟩ <;>
    simp [admissionEvent, executionEvent, refusalEvent, resultEvent, approvalEvent, action]

theorem shown_accepted (action : event.action = .resultAccepted) :
    Shown event none none none (some (event.jobId.val, event.handoffSha256.val,
      resultOf event.bindings, event.occurredAt.val)) ∧ approvalEvent event = none := by
  refine ⟨⟨?_, ?_, ?_, ?_⟩, ?_⟩ <;>
    simp [admissionEvent, executionEvent, refusalEvent, resultEvent, approvalEvent, action]

end Shown

section Step

variable {interpreter : Interpreter} {before after : Tables} {events : List AuditEvent}
  {event : AuditEvent}

theorem Reconciled.noted (reconciled : Reconciled interpreter before events)
    (silent : Silent event) : Reconciled interpreter before (events ++ [event]) where
  issuances := reconciled.issuances.noted silent.unqueued
  admissions := reconciled.admissions.passed silent.admission
  executions := reconciled.executions.passed silent.execution
  refusals := reconciled.refusals.passed silent.refusal
  approvals := reconciled.approvals.passed silent.approval
  receipts := reconciled.receipts.noted silent.approval
  results := reconciled.results.passed silent.result

theorem Reconciled.queued (reconciled : Reconciled interpreter before events) {policy : Policy}
    {verifier : HandoffVerifier} {jobId : Str} {waiting : Wiring.Waiting} {now : Int}
    (effect : Effect interpreter before (.add policy verifier jobId waiting now) after)
    (about : About event jobId waiting.subject (sha256 waiting.wire).val)
    (action : event.action = .handoffIssued) :
    Reconciled interpreter after (events ++ [event]) := by
  obtain ⟨shown, unapproved⟩ := shown_issued action
  cases effect with
  | add _ _ _ fresh =>
      have plain (mark : Str → JobRow → Option Mark)
          (none_ : ∀ safe, mark safe (waitingJob waiting now) = none) :
          marked mark jobId (waitingJob waiting now) = none := by
        rw [about.marked, none_]
      exact {
        issuances := reconciled.issuances.added fresh
          ⟨event, List.mem_append_right _ List.mem_cons_self, action, about⟩ fun _ _ => about
        admissions := reconciled.admissions.added fresh
          ((plain _ fun _ => rfl).trans shown.admission.symm)
        executions := reconciled.executions.added fresh
          ((plain _ fun _ => rfl).trans shown.execution.symm)
        refusals := reconciled.refusals.added fresh
          ((plain _ fun _ => rfl).trans shown.refusal.symm)
        approvals := reconciled.approvals.passed unapproved
        receipts := reconciled.receipts.noted unapproved
        results := reconciled.results.passed shown.result }

theorem Reconciled.refused (reconciled : Reconciled interpreter before events)
    {jobId subject : Str} {now : Int} {row : JobRow}
    (effect : Effect interpreter before (.refuse jobId subject now) after)
    (found : before.jobs.lookup jobId = some row)
    (about : About event jobId row.subject row.handoffSha256)
    (action : event.action = .handoffRejected)
    (reason : event.reasonCode.val ∈ terminalPendingRefusals)
    (occurred : event.occurredAt.val = now) : Reconciled interpreter after (events ++ [event]) := by
  obtain ⟨shown, unapproved⟩ := shown_refused action reason
  cases effect with
  | refuse held waits =>
      obtain rfl := Option.some.inj (found.symm.trans held)
      have before_ (mark : Str → JobRow → Option Mark) (none_ : ∀ safe, mark safe row = none) :
          marked mark jobId row = none := by
        rw [about.marked, none_]
      refine {
        issuances := reconciled.issuances.moved found rfl rfl (by rw [action]; decide)
        admissions := reconciled.admissions.kept found ?_ shown.admission
        executions := reconciled.executions.kept found ?_ shown.execution
        refusals := reconciled.refusals.gained found (before_ _ fun _ => ?_) ?_
        approvals := reconciled.approvals.passed unapproved
        receipts := reconciled.receipts.noted unapproved
        results := reconciled.results.passed shown.result }
      · rw [about.marked, about.marked]
        simp [admissionMark, waits]
      · rw [about.marked, about.marked]
        simp [executionMark, waits]
      · simp [refusalMark, waits]
      · rw [about.marked, shown.refusal, about.mark occurred]
        rfl

theorem Reconciled.granted (reconciled : Reconciled interpreter before events)
    {scope : ApprovalScope} {now ttlSeconds : Int} {drawn : Option Bytes} {token raw : Bytes}
    {record : ApprovalRecord}
    (grants : Grants interpreter before scope true now ttlSeconds drawn token record raw)
    (joined : scope.joined = scope) (describes : Describes event scope)
    (action : event.action = .approvalGranted)
    (receipt : event.approvalRecordHash = some record.recordHash)
    (occurred : event.occurredAt.val = now) :
    Reconciled interpreter
      (before.recorded (hex record.tokenDigest) record.recordHash.val (approvalRow record raw))
      (events ++ [event]) := by
  obtain ⟨shown, approves⟩ := shown_granted action
  obtain ⟨read, holds, same⟩ := grants.holds
  obtain ⟨_, _, _, _, _, entry, _⟩ := newGrant_eq_ok grants.minted
  refine {
    issuances := reconciled.issuances.noted fun issued => nomatch action.symm.trans issued
    admissions := reconciled.admissions.passed shown.admission
    executions := reconciled.executions.passed shown.execution
    refusals := reconciled.refusals.passed shown.refusal
    approvals := reconciled.approvals.added grants.fresh ?_
    receipts := reconciled.receipts.added grants.fresh receipt holds ?_
    results := reconciled.results.passed shown.result }
  · rw [approves, receipt, occurred, approvalMark, approvalRow, entry]
    rfl
  · rw [same, joined]
    exact describes

theorem Reconciled.reserved (reconciled : Reconciled interpreter before events)
    {reservation : Reservation} (fresh : reservation.jobId ∉ before.jobs)
    (issued : Issues events reservation.jobId reservation.subject reservation.handoffSha256.val)
    (about : About event reservation.jobId reservation.subject reservation.handoffSha256.val)
    (action : event.action = .handoffAdmitted) (receipt : event.approvalRecordHash = none)
    (occurred : event.occurredAt.val = reservation.reservedAt) :
    Reconciled interpreter
      { before with jobs := before.jobs.insert reservation.jobId (reservedJob reservation) }
      (events ++ [event]) := by
  have shown := shown_admitted action
  have unapproved : approvalEvent event = none := by
    simp [approvalEvent, action, receipt]
  refine {
    issuances := reconciled.issuances.added fresh (issued.append event)
      fun other => nomatch action.symm.trans other
    admissions := reconciled.admissions.added fresh ?_
    executions := reconciled.executions.added fresh ?_
    refusals := reconciled.refusals.added fresh ?_
    approvals := reconciled.approvals.passed unapproved
    receipts := reconciled.receipts.noted unapproved
    results := reconciled.results.passed shown.result }
  · rw [about.marked, shown.admission, about.mark occurred]
    rfl
  · rw [about.marked, shown.execution]
    rfl
  · rw [about.marked, shown.refusal]
    rfl

theorem Reconciled.consumed (reconciled : Reconciled interpreter before events)
    (chained : Chained interpreter before) {token raw : Bytes} {scope : ApprovalScope} {now : Int}
    {subject current : Str} {row : ApprovalRow} {record updated : ApprovalRecord} {job : JobRow}
    (succeeds : Succeeds interpreter before token scope now .consumed current row record updated
      raw)
    (found : before.jobs.lookup scope.jobId = some job) (waits : job.state = .pendingApproval)
    (bound : job.handoffSha256 = scope.handoffSha256.val)
    (joined : scope.joined = scope) (describes : Describes event scope)
    (about : About event scope.jobId subject scope.handoffSha256.val)
    (action : event.action = .handoffAdmitted)
    (receipt : event.approvalRecordHash = some updated.recordHash)
    (occurred : event.occurredAt.val = now) :
    Reconciled interpreter
      ((before.recorded (hex (Sha256.digest token)) updated.recordHash.val
        (approvalRow updated raw)).dequeued scope.jobId
          { job with state := .reserved, reservedAt := some now, updatedAt := now })
      (events ++ [event]) := by
  have shown := shown_admitted action
  obtain ⟨_, holds⟩ := succeeds.columns chained
  have entry := ApprovalStore.record_eq_ok succeeds.written
  refine {
    issuances := reconciled.issuances.moved found rfl rfl (by rw [action]; decide)
    admissions := reconciled.admissions.gained found ?_ ?_
    executions := reconciled.executions.kept found ?_ shown.execution
    refusals := reconciled.refusals.kept found ?_ shown.refusal
    approvals := reconciled.approvals.added succeeds.fresh ?_
    receipts := reconciled.receipts.added succeeds.fresh receipt holds ?_
    results := reconciled.results.passed shown.result }
  · rw [about.marked]
    simp [admissionMark, waits]
  · rw [about.marked, shown.admission, about.mark occurred]
    simp [admissionMark, bound]
  · rw [about.marked, about.marked]
    simp [executionMark, waits]
  · rw [about.marked, about.marked]
    simp [refusalMark, waits]
  · have approves : approvalEvent event = some (.handoffAdmitted,
        some updated.recordHash.val, now) := by
      simp [approvalEvent, action, receipt, occurred]
    rw [approves, approvalMark, approvalRow, entry]
    rfl
  · rw [succeeds.scope chained, joined]
    exact describes

theorem Reconciled.dispatched (reconciled : Reconciled interpreter before events)
    {reservation : Reservation} {now : Int} {job : JobRow}
    (found : before.jobs.lookup reservation.jobId = some job) (open_ : job.state = .reserved)
    (reserved : job.reservedAt = some now)
    (about : About event reservation.jobId job.subject job.handoffSha256)
    (action : event.action = .executionDispatched) (occurred : event.occurredAt.val = now) :
    Reconciled interpreter
      { before with
        jobs := before.jobs.insert reservation.jobId
          { job with state := .executionCommitted, updatedAt := now } }
      (events ++ [event]) := by
  obtain ⟨shown, unapproved⟩ := shown_dispatched action
  refine {
    issuances := reconciled.issuances.moved found rfl rfl (by rw [action]; decide)
    admissions := reconciled.admissions.kept found ?_ shown.admission
    executions := reconciled.executions.gained found ?_ ?_
    refusals := reconciled.refusals.kept found ?_ shown.refusal
    approvals := reconciled.approvals.passed unapproved
    receipts := reconciled.receipts.noted unapproved
    results := reconciled.results.passed shown.result }
  · rw [about.marked, about.marked]
    simp [admissionMark, open_]
  · rw [about.marked]
    simp [executionMark, open_]
  · rw [about.marked, shown.execution, about.mark occurred]
    simp [executionMark, reserved]
  · rw [about.marked, about.marked]
    simp [refusalMark, open_]

theorem Reconciled.accepted (reconciled : Reconciled interpreter before events) {jobId : Str}
    {handoffWire resultWire : Bytes} {now : Int} {job : JobRow}
    (fresh : (sha256 handoffWire).val ∉ before.acceptances)
    (found : before.jobs.lookup jobId = some job)
    (bound : job.handoffSha256 = (sha256 handoffWire).val)
    (committed : job.state = .executionCommitted)
    (about : About event jobId job.subject job.handoffSha256)
    (action : event.action = .resultAccepted)
    (result : resultOf event.bindings = some (sha256 resultWire).val)
    (occurred : event.occurredAt.val = now) :
    Reconciled interpreter
      { before with
        acceptances := before.acceptances.insert (sha256 handoffWire).val
          ⟨jobId, handoffWire, (sha256 resultWire).val, resultWire, now⟩
        jobs := before.jobs.insert jobId { job with state := .completed, updatedAt := now } }
      (events ++ [event]) := by
  obtain ⟨shown, unapproved⟩ := shown_accepted action
  refine {
    issuances := reconciled.issuances.moved found rfl rfl (by rw [action]; decide)
    admissions := reconciled.admissions.kept found ?_ shown.admission
    executions := reconciled.executions.kept found ?_ shown.execution
    refusals := reconciled.refusals.kept found ?_ shown.refusal
    approvals := reconciled.approvals.passed unapproved
    receipts := reconciled.receipts.noted unapproved
    results := reconciled.results.added fresh ?_ }
  · rw [about.marked, about.marked]
    simp [admissionMark, committed]
  · rw [about.marked, about.marked]
    simp [executionMark, committed]
  · rw [about.marked, about.marked]
    simp [refusalMark, committed]
  · rw [shown.result, result, occurred, about.digest, bound, acceptedMark, about.audited]
    rfl

/-- What a transaction does with its event keeps the tables and the chain together. -/
theorem Reconciled.commits (reconciled : Reconciled interpreter before events)
    (chained : Chained interpreter before)
    (commits : Commits interpreter before events after event) :
    Reconciled interpreter after (events ++ [event]) := by
  cases commits with
  | noted silent => exact reconciled.noted silent
  | queued effect about action => exact reconciled.queued effect about action
  | refused effect found about action reason occurred =>
      exact reconciled.refused effect found about action reason occurred
  | granted grants joined describes action receipt occurred =>
      exact reconciled.granted grants joined describes action receipt occurred
  | reserved fresh _ issued about action receipt occurred =>
      exact reconciled.reserved fresh issued about action receipt occurred
  | consumed succeeds _ found waits _ bound _ _ _ joined describes about action receipt occurred =>
      exact reconciled.consumed chained succeeds found waits bound joined describes about action
        receipt occurred
  | dispatched found _ open_ reserved about action occurred =>
      exact reconciled.dispatched found open_ reserved about action occurred
  | accepted fresh _ found bound committed about action result occurred =>
      exact reconciled.accepted fresh found bound committed about action result occurred

/-- What a transaction does with its event is what a transaction of the stores does. -/
theorem Commits.effect (commits : Commits interpreter before events after event) :
    after = before ∨ ∃ transaction, Effect interpreter before transaction after := by
  cases commits with
  | noted => exact .inl rfl
  | queued effect => exact .inr ⟨_, effect⟩
  | refused effect => exact .inr ⟨_, effect⟩
  | granted grants => exact .inr ⟨_, .grant grants⟩
  | reserved fresh carried => exact .inr ⟨_, .reserve fresh carried⟩
  | consumed succeeds carried found waits owned bound expires queued wired =>
      exact .inr ⟨_, .consume succeeds carried found waits owned bound expires queued wired⟩
  | dispatched found bound open_ => exact .inr ⟨_, .commit found bound open_⟩
  | accepted fresh unique found bound committed =>
      exact .inr ⟨_, .accept fresh unique found bound committed⟩

theorem Commits.coherent (commits : Commits interpreter before events after event)
    (coherent : Coherent interpreter before) : Coherent interpreter after := by
  obtain rfl | ⟨_, effect⟩ := commits.effect
  · exact coherent
  · exact coherent.effect effect

end Step

end GeniusNew.Durable
