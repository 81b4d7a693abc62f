import GeniusNew.Database.Records
import GeniusNew.Database.Statements
import GeniusNew.Transition.Run

/-! # What a transaction does

The instances of the service call the durable stores in any order; the database puts the
transactions that commit in one. `Effect` says all that a transaction can do to the
tables and what held of them before it, and every invariant is a case analysis over it.
-/

namespace GeniusNew.Database

open Json Orchestrator

/-- The calls of the stores that write. -/
inductive Transaction where
  | add (policy : Policy) (verifier : HandoffVerifier) (jobId : Str) (waiting : Wiring.Waiting)
      (now : Int)
  | refuse (jobId subject : Str) (now : Int)
  | grant (scope : ApprovalScope) (created : Bool) (now ttlSeconds : Int) (drawn : Option Bytes)
  | consume (token : Bytes) (scope : ApprovalScope) (now : Int) (subject : Str)
  | revoke (token : Bytes) (scope : ApprovalScope) (now : Int)
  | reserveAdmitted (reservation : Reservation) (approvalRecordHash : Option Str)
  | commitExecution (reservation : Reservation) (now : Int)
  | accept (jobId : Str) (handoffWire resultWire : Bytes) (now : Int)

/-- The tables that a call leaves. -/
def perform (interpreter : Interpreter) (tables : Tables) : Transaction → Outcome Tables
  | .add policy verifier jobId waiting now =>
      PostgresPendingJobs.add interpreter policy verifier jobId waiting now tables
  | .refuse jobId subject now => PostgresPendingJobs.refuse jobId subject now tables
  | .grant scope created now ttlSeconds drawn => do
      let (_, after) ←
        PostgresApprovalStore.grant interpreter scope created now ttlSeconds drawn tables
      return after
  | .consume token scope now subject => do
      let (_, after) ← PostgresApprovalStore.consume interpreter token scope now subject tables
      return after
  | .revoke token scope now => do
      let (_, after) ← PostgresApprovalStore.revoke interpreter token scope now tables
      return after
  | .reserveAdmitted reservation approvalRecordHash => do
      let (_, after) ←
        PostgresJobLedger.reserveAdmitted interpreter reservation approvalRecordHash tables
      return after
  | .commitExecution reservation now => PostgresJobLedger.commitExecution reservation now tables
  | .accept jobId handoffWire resultWire now => do
      let (_, after) ← PostgresAcceptanceLedger.reserve jobId handoffWire resultWire now tables
      return after

/-- A transaction that commits. One that raises leaves the tables as they were, so a
run is the transactions that commit in their order. -/
def step (interpreter : Interpreter) (tables : Tables) (transaction : Transaction) :
    Option Tables := (perform interpreter tables transaction).toOption

theorem step_eq_some {interpreter : Interpreter} {tables after : Tables}
    {transaction : Transaction} : step interpreter tables transaction = some after ↔
      perform interpreter tables transaction = .ok after := by
  unfold step
  cases perform interpreter tables transaction with
  | error raised => simp [Except.toOption]
  | ok made => simp [Except.toOption]

namespace Tables

/-- A record is written and made current. -/
def recorded (tables : Tables) (tokenDigest recordHash : Str) (row : ApprovalRow) : Tables :=
  { tables with
    records := tables.records.insert recordHash row
    tokens := tables.tokens.insert tokenDigest recordHash }

/-- A job leaves the queue. -/
def dequeued (tables : Tables) (jobId : Str) (row : JobRow) : Tables :=
  { tables with
    jobs := tables.jobs.insert jobId row
    pending := tables.pending.erase jobId }

end Tables

/-- The row of a job that starts to wait. -/
def waitingJob (waiting : Wiring.Waiting) (now : Int) : JobRow where
  subject := waiting.subject
  handoffSha256 := (sha256 waiting.wire).val
  state := .pendingApproval
  createdAt := waiting.handoff.issuedAt
  reservedAt := none
  updatedAt := now
  expiresAt := waiting.handoff.expiresAt

def waitingRow (waiting : Wiring.Waiting) : PendingRow :=
  ⟨waiting.subject, waiting.wire, waiting.traceId, waiting.handoff.expiresAt⟩

/-- The row of a job that is reserved at once. -/
def reservedJob (reservation : Reservation) : JobRow where
  subject := reservation.subject
  handoffSha256 := reservation.handoffSha256.val
  state := .reserved
  createdAt := reservation.reservedAt
  reservedAt := some reservation.reservedAt
  updatedAt := reservation.reservedAt
  expiresAt := reservation.expiresAt

/-- What held when a grant was stored. -/
structure Grants (interpreter : Interpreter) (before : Tables) (scope : ApprovalScope)
    (created : Bool) (now ttlSeconds : Int) (drawn : Option Bytes) (token : Bytes)
    (record : ApprovalRecord) (raw : Bytes) : Prop where
  minted : ApprovalStore.newGrant interpreter scope created now ttlSeconds drawn =
    .ok (token, record)
  encoded : canonical interpreter scope.toDict = .ok raw
  read : ∃ read, approvalRecord interpreter record.recordHash.val (approvalRow record raw)
    (some raw) = .ok read
  bound : ∃ pending, PostgresApprovalStore.boundPending scope before = some pending
  carried : Storable scope.jobId
  short : raw.length ≤ maxWireBytes
  free : hex record.tokenDigest ∉ before.tokens
  inactive : PostgresApprovalStore.activeGrant raw now before = false
  fresh : record.recordHash.val ∉ before.records
  sole : ∀ other held, before.records.lookup other = some held →
    held.tokenDigest = hex record.tokenDigest → held.previousHash ≠ none

/-- What held when the current record of a token got a successor. -/
structure Succeeds (interpreter : Interpreter) (before : Tables) (token : Bytes)
    (scope : ApprovalScope) (now : Int) (state : ApprovalState) (current : Str) (row : ApprovalRow)
    (record updated : ApprovalRecord) (raw : Bytes) : Prop where
  long : tokenBytes ≤ token.length
  pointer : before.tokens.lookup (hex (Sha256.digest token)) = some current
  found : before.records.lookup current = some row
  owned : row.tokenDigest = hex (Sha256.digest token)
  read : approvalRecord interpreter current row (bounded row.scope) = .ok record
  granted : record.state = .granted
  matched : scopeMatches interpreter record.scope scope = .ok true
  timed : record.issuedAt ≤ now ∧ now ≤ maxTime
  timely : state = .consumed → now < record.expiresAt
  written : ApprovalEntry.record interpreter { record.toApprovalEntry with
    state
    changedAt := now
    previousHash := some record.recordHash } = .ok updated
  encoded : canonical interpreter updated.scope.toDict = .ok raw
  fresh : updated.recordHash.val ∉ before.records

/-- What a transaction that committed did. -/
inductive Effect (interpreter : Interpreter) (before : Tables) : Transaction → Tables → Prop
  | add {policy : Policy} {verifier : HandoffVerifier} {jobId : Str} {waiting : Wiring.Waiting}
      {now : Int}
      (validated : validatePending interpreter (some waiting.wire)
        ⟨waiting.subject, jobId, policy, now⟩ verifier = .ok waiting.handoff)
      (traced : waiting.traceId = str "trace-" ++ (sha256 waiting.wire).val.take 16)
      (room : before.pending.count (fun row => row.expiresAt > now) < Wiring.PendingJobs.maxPending)
      (fresh : jobId ∉ before.jobs) (carried : Storable jobId)
      (short : waiting.wire.length ≤ maxWireBytes) :
      Effect interpreter before (.add policy verifier jobId waiting now)
        { before with
          jobs := before.jobs.insert jobId (waitingJob waiting now)
          pending := before.pending.insert jobId (waitingRow waiting) }
  | refuse {jobId subject : Str} {now : Int} {job : JobRow}
      (found : before.jobs.lookup jobId = some job) (waits : job.state = .pendingApproval)
      (owned : job.subject = subject) (timed : job.createdAt ≤ now ∧ now ≤ maxTime) :
      Effect interpreter before (.refuse jobId subject now)
        (before.dequeued jobId { job with state := .refused, updatedAt := now })
  | grant {scope : ApprovalScope} {created : Bool} {now ttlSeconds : Int} {drawn : Option Bytes}
      {token : Bytes} {record : ApprovalRecord} {raw : Bytes}
      (grants : Grants interpreter before scope created now ttlSeconds drawn token record raw) :
      Effect interpreter before (.grant scope created now ttlSeconds drawn)
        (before.recorded (hex record.tokenDigest) record.recordHash.val (approvalRow record raw))
  | revoke {token : Bytes} {scope : ApprovalScope} {now : Int} {current : Str} {row : ApprovalRow}
      {record updated : ApprovalRecord} {raw : Bytes}
      (succeeds : Succeeds interpreter before token scope now .revoked current row record updated
        raw) :
      Effect interpreter before (.revoke token scope now)
        (before.recorded (hex (Sha256.digest token)) updated.recordHash.val
          (approvalRow updated raw))
  | consume {token : Bytes} {scope : ApprovalScope} {now : Int} {subject current : Str}
      {row : ApprovalRow} {record updated : ApprovalRecord} {raw : Bytes} {job : JobRow}
      {pending : PendingRow}
      (succeeds : Succeeds interpreter before token scope now .consumed current row record updated
        raw)
      (carried : Storable scope.jobId) (found : before.jobs.lookup scope.jobId = some job)
      (waits : job.state = .pendingApproval)
      (owned : job.subject = subject) (bound : job.handoffSha256 = scope.handoffSha256.val)
      (expires : job.expiresAt = scope.handoffExpiresAt)
      (queued : before.pending.lookup scope.jobId = some pending)
      (wired : sha256 pending.wire = scope.handoffSha256) :
      Effect interpreter before (.consume token scope now subject)
        ((before.recorded (hex (Sha256.digest token)) updated.recordHash.val
          (approvalRow updated raw)).dequeued scope.jobId
            { job with state := .reserved, reservedAt := some now, updatedAt := now })
  | burned {reservation : Reservation} (present : reservation.jobId ∈ before.jobs) :
      Effect interpreter before (.reserveAdmitted reservation none) before
  | reserve {reservation : Reservation} (fresh : reservation.jobId ∉ before.jobs)
      (carried : Storable reservation.jobId) :
      Effect interpreter before (.reserveAdmitted reservation none)
        { before with jobs := before.jobs.insert reservation.jobId (reservedJob reservation) }
  | admitted {reservation : Reservation} {recordHash : Str} :
      Effect interpreter before (.reserveAdmitted reservation (some recordHash)) before
  | commit {reservation : Reservation} {now : Int} {job : JobRow}
      (found : before.jobs.lookup reservation.jobId = some job)
      (bound : job.handoffSha256 = reservation.handoffSha256.val) (open_ : job.state = .reserved) :
      Effect interpreter before (.commitExecution reservation now)
        { before with
          jobs := before.jobs.insert reservation.jobId
            { job with state := .executionCommitted, updatedAt := now } }
  | replayed {jobId : Str} {handoffWire resultWire : Bytes} {now : Int}
      (present : (sha256 handoffWire).val ∈ before.acceptances) :
      Effect interpreter before (.accept jobId handoffWire resultWire now) before
  | accept {jobId : Str} {handoffWire resultWire : Bytes} {now : Int} {job : JobRow}
      (fresh : (sha256 handoffWire).val ∉ before.acceptances)
      (unique : ∀ other held, before.acceptances.lookup other = some held →
        held.resultSha256 ≠ (sha256 resultWire).val)
      (found : before.jobs.lookup jobId = some job)
      (bound : job.handoffSha256 = (sha256 handoffWire).val)
      (committed : job.state = .executionCommitted) :
      Effect interpreter before (.accept jobId handoffWire resultWire now)
        { before with
          acceptances := before.acceptances.insert (sha256 handoffWire).val
            ⟨jobId, handoffWire, (sha256 resultWire).val, resultWire, now⟩
          jobs := before.jobs.insert jobId { job with state := .completed, updatedAt := now } }

section Effects

variable {interpreter : Interpreter} {before after : Tables}

theorem add_effect {policy : Policy} {verifier : HandoffVerifier} {jobId : Str}
    {waiting : Wiring.Waiting} {now : Int}
    (returned : PostgresPendingJobs.add interpreter policy verifier jobId waiting now before =
      .ok after) : Effect interpreter before (.add policy verifier jobId waiting now) after := by
  obtain ⟨handoff, validated, returned⟩ := bind_eq_ok.mp returned
  obtain ⟨described, returned⟩ := guarded_eq_ok.mp returned
  obtain ⟨room, returned⟩ := guarded_eq_ok.mp returned
  obtain ⟨⟨inserted, middle⟩, job, returned⟩ := bind_eq_ok.mp returned
  obtain ⟨one, queued⟩ := guarded_eq_ok.mp returned
  rw [not_or, not_not, not_not] at described
  obtain ⟨rfl, traced⟩ := described
  obtain ⟨_, zero, _⟩ | ⟨fresh, carried, _, rfl⟩ := insertJob_eq_ok job
  · exact absurd zero (by rw [not_not.mp one]; decide)
  · obtain ⟨_, _, short, _, rfl⟩ := insertPending_eq_ok queued
    exact .add validated traced (not_le.mp room) fresh carried short

theorem refuse_effect {jobId subject : Str} {now : Int}
    (returned : PostgresPendingJobs.refuse jobId subject now before = .ok after) :
    Effect interpreter before (.refuse jobId subject now) after := by
  unfold PostgresPendingJobs.refuse at returned
  obtain ⟨range, returned⟩ := guarded_eq_ok.mp returned
  obtain ⟨_, _, returned⟩ := bind_eq_ok.mp returned
  split at returned
  · exact (fail_ne_ok returned).elim
  next job found =>
    obtain ⟨waits, returned⟩ := guarded_eq_ok.mp returned
    obtain ⟨begun, returned⟩ := guarded_eq_ok.mp returned
    obtain ⟨deleted, removed, returned⟩ := bind_eq_ok.mp returned
    obtain ⟨⟨_, middle⟩, updated, returned⟩ := bind_eq_ok.mp returned
    obtain rfl := pure_eq_ok.mp returned
    obtain rfl := deletePending_eq_ok removed
    obtain rfl := updateJob_selects updated found
    rw [not_or, not_not, not_not] at waits
    exact .refuse found waits.1 waits.2 ⟨not_lt.mp begun, (not_not.mp range).2⟩

theorem grant_effect {scope : ApprovalScope} {created : Bool} {now ttlSeconds : Int}
    {drawn : Option Bytes} {granted : ApprovalGrant}
    (returned : PostgresApprovalStore.grant interpreter scope created now ttlSeconds drawn before =
      .ok (granted, after)) :
    ∃ record raw, Grants interpreter before scope created now ttlSeconds drawn granted.token record
        raw ∧
      granted = ⟨granted.token, scope, record.issuedAt, record.expiresAt, record.recordHash⟩ ∧
      after = before.recorded (hex record.tokenDigest) record.recordHash.val
        (approvalRow record raw) := by
  obtain ⟨⟨token, record⟩, minted, returned⟩ := bind_eq_ok.mp returned
  obtain ⟨raw, encoded, returned⟩ := bind_eq_ok.mp returned
  obtain ⟨read, readable, returned⟩ := bind_eq_ok.mp returned
  obtain ⟨_, carried, returned⟩ := bind_eq_ok.mp returned
  split at returned
  · exact (fail_ne_ok returned).elim
  next pending bound =>
    obtain ⟨fields, _, returned⟩ := bind_eq_ok.mp returned
    obtain ⟨_, returned⟩ := guarded_eq_ok.mp returned
    obtain ⟨free, returned⟩ := guarded_eq_ok.mp returned
    obtain ⟨inactive, returned⟩ := guarded_eq_ok.mp returned
    obtain ⟨middle, inserted, returned⟩ := bind_eq_ok.mp returned
    obtain ⟨last, pointed, returned⟩ := bind_eq_ok.mp returned
    obtain ⟨rfl, rfl⟩ := Prod.mk.inj (pure_eq_ok.mp returned)
    obtain ⟨fresh, short, unique, _, rfl⟩ := insertApproval_eq_ok inserted
    obtain ⟨_, rfl⟩ := insertToken_eq_ok pointed
    refine ⟨record, raw, ⟨minted, encoded, ⟨read, readable⟩, ⟨pending, bound⟩, ?_, short, free,
      eq_false_of_ne_true inactive, fresh, ?_⟩, rfl, rfl⟩
    · exact (parameters_eq_ok.mp carried) _ List.mem_cons_self
    · have rooted : record.previousHash = none := by
        obtain ⟨_, _, _, _, _, entry, _⟩ := newGrant_eq_ok minted
        rw [entry]
      intro other held found owned
      have apart := unique other held found owned
      rwa [approvalRow, rooted] at apart

/-- What a change of an approval did; a consumption takes its job out of the queue. -/
theorem change_eq_ok {token : Bytes} {scope : ApprovalScope} {now : Int} {consumer : Option Str}
    {receipt : ApprovalReceipt}
    (returned : PostgresApprovalStore.change interpreter token scope now consumer before =
      .ok (receipt, after)) :
    ∃ current row record updated raw,
      Succeeds interpreter before token scope now
        (if consumer.isSome then .consumed else .revoked) current row record updated raw ∧
      receipt = ⟨updated.scope, if consumer.isSome then .consumed else .revoked, now,
        updated.recordHash⟩ ∧
      match consumer with
      | none => after = before.recorded (hex (Sha256.digest token)) updated.recordHash.val
          (approvalRow updated raw)
      | some subject => Storable scope.jobId ∧ ∃ job pending,
          before.jobs.lookup scope.jobId = some job ∧ job.state = .pendingApproval ∧
          job.subject = subject ∧ job.handoffSha256 = scope.handoffSha256.val ∧
          job.expiresAt = scope.handoffExpiresAt ∧
          before.pending.lookup scope.jobId = some pending ∧
          sha256 pending.wire = scope.handoffSha256 ∧
          after = (before.recorded (hex (Sha256.digest token)) updated.recordHash.val
            (approvalRow updated raw)).dequeued scope.jobId
              { job with state := .reserved, reservedAt := some now, updatedAt := now } := by
  unfold PostgresApprovalStore.change at returned
  obtain ⟨long, returned⟩ := guarded_eq_ok.mp returned
  obtain ⟨range, returned⟩ := guarded_eq_ok.mp returned
  obtain ⟨_, texts, returned⟩ := bind_eq_ok.mp returned
  split at returned
  · exact (fail_ne_ok returned).elim
  next current pointer =>
    split at returned
    · cases returned
    next row selected =>
      obtain ⟨found, owned⟩ := Option.filter_eq_some_iff.mp selected
      obtain ⟨record, read, returned⟩ := bind_eq_ok.mp returned
      obtain ⟨granted, returned⟩ := guarded_eq_ok.mp returned
      obtain ⟨same, matched, returned⟩ := bind_eq_ok.mp returned
      obtain ⟨matches_, returned⟩ := guarded_eq_ok.mp returned
      obtain ⟨valid, returned⟩ := guarded_eq_ok.mp returned
      obtain ⟨bound, returned⟩ := guarded_eq_ok.mp returned
      obtain ⟨updated, written, returned⟩ := bind_eq_ok.mp returned
      obtain ⟨raw, encoded, returned⟩ := bind_eq_ok.mp returned
      obtain ⟨middle, inserted, returned⟩ := bind_eq_ok.mp returned
      obtain ⟨last, pointed, returned⟩ := bind_eq_ok.mp returned
      obtain ⟨fresh, _, _, _, rfl⟩ := insertApproval_eq_ok inserted
      obtain rfl := updateToken_eq_ok pointed pointer
      rw [not_or, not_and, not_lt, not_le] at valid
      rw [not_not.mp matches_] at matched
      refine ⟨current, row, record, updated, raw, ⟨not_lt.mp long, pointer, found, of_decide_eq_true owned, read,
        not_not.mp granted, matched, ⟨valid.1, (not_not.mp range).2⟩, valid.2, written, encoded,
        fresh⟩, ?_⟩
      cases consumer with
      | none =>
          obtain ⟨rfl, rfl⟩ := Prod.mk.inj (pure_eq_ok.mp returned)
          exact ⟨rfl, rfl⟩
      | some subject =>
          obtain ⟨deleted, removed, returned⟩ := bind_eq_ok.mp returned
          obtain ⟨⟨_, moved⟩, changed, returned⟩ := bind_eq_ok.mp returned
          obtain ⟨rfl, rfl⟩ := Prod.mk.inj (pure_eq_ok.mp returned)
          obtain rfl := deletePending_eq_ok removed
          have consumable := not_not.mp bound
          rw [Option.all_some, PostgresApprovalStore.consumable, Bool.and_eq_true, Option.any_eq_true,
            Option.any_eq_true] at consumable
          obtain ⟨⟨job, held, agrees⟩, pending, queued, wired⟩ := consumable
          obtain ⟨waits, subject, digest, expires⟩ := of_decide_eq_true agrees
          obtain rfl := updateJob_selects changed held
          exact ⟨rfl, (parameters_eq_ok.mp texts) _ List.mem_cons_self, job, pending, held, waits,
            subject, digest, expires, queued, (of_decide_eq_true wired).2, rfl⟩

theorem reserve_effect {reservation : Reservation} {answer : Bool}
    (returned : PostgresJobLedger.reserve reservation before = .ok (answer, after)) :
    (reservation.jobId ∈ before.jobs ∧ answer = false ∧ after = before) ∨
      (reservation.jobId ∉ before.jobs ∧ Storable reservation.jobId ∧ answer = true ∧
        after = { before with
          jobs := before.jobs.insert reservation.jobId (reservedJob reservation) }) := by
  obtain ⟨⟨inserted, middle⟩, made, returned⟩ := bind_eq_ok.mp returned
  obtain ⟨rfl, rfl⟩ := Prod.mk.inj (pure_eq_ok.mp returned)
  obtain ⟨present, rfl, rfl⟩ | ⟨fresh, carried, rfl, rfl⟩ := insertJob_eq_ok made
  · exact .inl ⟨present, rfl, rfl⟩
  · exact .inr ⟨fresh, carried, rfl, rfl⟩

/-- Where an approval was consumed, the reservation only reads. -/
theorem reserveAdmitted_reads {reservation : Reservation} {recordHash : Str} {answer : Bool}
    (returned : PostgresJobLedger.reserveAdmitted interpreter reservation (some recordHash) before =
      .ok (answer, after)) : after = before := by
  obtain ⟨_, _, returned⟩ := bind_eq_ok.mp returned
  split at returned
  · exact (Prod.mk.inj (pure_eq_ok.mp returned)).2.symm
  · obtain ⟨scope, _, returned⟩ := bind_eq_ok.mp returned
    exact (Prod.mk.inj (pure_eq_ok.mp returned)).2.symm

theorem commitExecution_effect {reservation : Reservation} {now : Int}
    (returned : PostgresJobLedger.commitExecution reservation now before = .ok after) :
    Effect interpreter before (.commitExecution reservation now) after := by
  obtain ⟨⟨changed, middle⟩, updated, returned⟩ := bind_eq_ok.mp returned
  obtain ⟨one, returned⟩ := guarded_eq_ok.mp returned
  obtain rfl := pure_eq_ok.mp returned
  obtain ⟨rfl, _⟩ | ⟨job, found, selected, _, _, rfl⟩ := updateJob_eq_ok updated
  · exact absurd one (by decide)
  · obtain ⟨bound, reserved⟩ := of_decide_eq_true selected
    exact .commit found bound reserved

theorem accept_effect {jobId : Str} {handoffWire resultWire : Bytes} {now : Int} {answer : Bool}
    (returned : PostgresAcceptanceLedger.reserve jobId handoffWire resultWire now before =
      .ok (answer, after)) :
    Effect interpreter before (.accept jobId handoffWire resultWire now) after := by
  obtain ⟨_, _, returned⟩ := bind_eq_ok.mp returned
  split at returned
  · next present =>
      obtain ⟨_, rfl⟩ := Prod.mk.inj (pure_eq_ok.mp returned)
      exact .replayed present
  · obtain ⟨middle, inserted, returned⟩ := bind_eq_ok.mp returned
    obtain ⟨_, returned⟩ := guarded_eq_ok.mp returned
    obtain ⟨_, rfl⟩ := Prod.mk.inj (pure_eq_ok.mp returned)
    obtain ⟨fresh, unique, job, found, bound, committed, rfl⟩ := insertAcceptance_eq_ok inserted
    exact .accept fresh unique found bound committed

/-- Every transaction that commits has its effect. -/
theorem effect_of_perform {transaction : Transaction}
    (performed : perform interpreter before transaction = .ok after) :
    Effect interpreter before transaction after := by
  cases transaction with
  | add policy verifier jobId waiting now => exact add_effect performed
  | refuse jobId subject now => exact refuse_effect performed
  | grant scope created now ttlSeconds drawn =>
      obtain ⟨⟨granted, written⟩, returned, same⟩ := bind_eq_ok.mp performed
      obtain rfl := pure_eq_ok.mp same
      obtain ⟨record, raw, grants, _, rfl⟩ := grant_effect returned
      exact .grant grants
  | consume token scope now subject =>
      obtain ⟨⟨receipt, written⟩, returned, same⟩ := bind_eq_ok.mp performed
      obtain rfl := pure_eq_ok.mp same
      obtain ⟨current, row, record, updated, raw, succeeds, _, carried, job, pending, found, waits,
        owned, bound, expires, queued, wired, rfl⟩ := change_eq_ok returned
      exact .consume succeeds carried found waits owned bound expires queued wired
  | revoke token scope now =>
      obtain ⟨⟨receipt, written⟩, returned, same⟩ := bind_eq_ok.mp performed
      obtain rfl := pure_eq_ok.mp same
      obtain ⟨current, row, record, updated, raw, succeeds, _, left⟩ := change_eq_ok returned
      rw [show written = before.recorded _ _ _ from left]
      exact .revoke succeeds
  | reserveAdmitted reservation approvalRecordHash =>
      obtain ⟨⟨answer, written⟩, returned, same⟩ := bind_eq_ok.mp performed
      obtain rfl := pure_eq_ok.mp same
      cases approvalRecordHash with
      | none =>
          obtain ⟨present, _, same⟩ | ⟨fresh, carried, _, rfl⟩ := reserve_effect returned
          · rw [same]
            exact .burned present
          · exact .reserve fresh carried
      | some recordHash =>
          rw [reserveAdmitted_reads returned]
          exact .admitted
  | commitExecution reservation now => exact commitExecution_effect performed
  | accept jobId handoffWire resultWire now =>
      obtain ⟨⟨answer, written⟩, returned, same⟩ := bind_eq_ok.mp performed
      obtain rfl := pure_eq_ok.mp same
      exact accept_effect returned

end Effects

end GeniusNew.Database
