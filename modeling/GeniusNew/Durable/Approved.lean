import GeniusNew.Durable.Progress

/-! # Jobs that go through with an approval

A job that waits can be granted by an approver, and its subject completes it with the
token: the consumption of the record and the reservation of the job are one transaction.
-/

namespace GeniusNew.Durable

open Json Database Transition Orchestrator
open Wiring (Job Notice Service Waiting)

section Approval

variable {interpreter : Interpreter} {service : Service} {state : State} {jobId approver other : Str}
  {now ttlSeconds : Int} {token raw : Bytes} {waiting : Waiting} {scope : ApprovalScope}
  {record : ApprovalRecord}

/-- What an approver grants of a job that waits: his approval of its scope, under a token
that was not used yet. -/
structure Grantable (interpreter : Interpreter) (service : Service) (tables : Tables) (jobId : Str)
    (waiting : Waiting) (now ttlSeconds : Int) (token raw : Bytes) (scope : ApprovalScope)
    (record : ApprovalRecord) : Prop where
  peeked : PostgresPendingJobs.peek interpreter service.policy service.signer.verifier jobId tables =
    .ok waiting
  scopes : waiting.handoff.scope = .ok scope
  window : waiting.handoff.issuedAt ≤ now ∧ 1 ≤ now ∧ waiting.handoff.expiresAt ≤ maxTime
  minted : ApprovalStore.newGrant interpreter scope true now ttlSeconds (some token) =
    .ok (token, record)
  encoded : canonical interpreter scope.toDict = .ok raw
  short : raw.length ≤ maxWireBytes
  free : hex record.tokenDigest ∉ tables.tokens
  inactive : PostgresApprovalStore.activeGrant raw now tables = false
  fresh : record.recordHash.val ∉ tables.records

namespace Grantable

variable {tables : Tables}

/-- The job that waits, as its scope describes it. -/
structure Described (tables : Tables) (waiting : Waiting) (scope : ApprovalScope) (row : PendingRow)
    (job : JobRow) : Prop where
  queued : tables.pending.lookup scope.jobId = some row
  found : tables.jobs.lookup scope.jobId = some job
  waits : Waits row job
  wire : row.wire = waiting.wire
  owned : job.subject = waiting.subject
  bound : job.handoffSha256 = scope.handoffSha256.val
  expires : job.expiresAt = scope.handoffExpiresAt
  times : isBigint job.createdAt = true ∧ isBigint job.expiresAt = true

theorem valid
    (ready : Grantable interpreter service tables jobId waiting now ttlSeconds token raw scope record)
    {later : Int} (started : waiting.handoff.issuedAt ≤ later)
    (running : later < waiting.handoff.expiresAt) :
    validatePending interpreter (some waiting.wire)
      (service.presented waiting.subject jobId later) service.signer.verifier =
        .ok waiting.handoff := by
  obtain ⟨_, _, _, _, _, _, _, _, _, validated⟩ := peek_eq_ok ready.peeked
  exact validatePending_current validated started running

theorem early
    (ready : Grantable interpreter service tables jobId waiting now ttlSeconds token raw scope record) :
    now < waiting.handoff.expiresAt := by
  obtain ⟨_, _, early, _⟩ := newGrant_eq_ok ready.minted
  rwa [(scope_eq_ok ready.scopes).2.1] at early

theorem jobId_eq
    (ready : Grantable interpreter service tables jobId waiting now ttlSeconds token raw scope record) :
    scope.jobId = jobId := by
  have validated := validatePending_validated (ready.valid ready.window.1 ready.early)
  exact (scope_eq_ok ready.scopes).2.2.1.trans validated.jobId

theorem described (queued : Queued tables)
    (ready : Grantable interpreter service tables jobId waiting now ttlSeconds token raw scope record) :
    ∃ row job, Described tables waiting scope row job := by
  obtain ⟨row, job, held, found, owned, wire, issued, expires, wired, _⟩ := peek_eq_ok ready.peeked
  obtain ⟨other, again, waits⟩ := queued.queued jobId row held
  obtain rfl := Option.some.inj (found.symm.trans again)
  obtain ⟨digest, ends, _⟩ := scope_eq_ok ready.scopes
  have present : inRange now := ⟨ready.window.2.1, (ready.early.trans_le ready.window.2.2).le⟩
  have times := isBigint_of_validated
    (validatePending_validated (ready.valid ready.window.1 ready.early)) present
  rw [← ready.jobId_eq] at held found
  refine ⟨row, job, held, found, waits, wire, waits.subject.symm.trans owned, ?_, ?_, ?_⟩
  · rw [← waits.wired, wire, digest, wired]
  · rw [← waits.expires, ← expires, ends]
  · rw [← issued, ← waits.expires, ← expires]
    exact times

theorem holds
    (ready : Grantable interpreter service tables jobId waiting now ttlSeconds token raw scope record) :
    Holds interpreter record.recordHash.val (approvalRow record raw) record := by
  have created : createScope interpreter (some waiting.wire)
      (service.presented waiting.subject jobId now) service.signer.verifier = .ok scope :=
    createScope_eq_ok.mpr ⟨_, ready.valid ready.window.1 ready.early, ready.scopes⟩
  refine holds_of_newGrant ready.minted ready.encoded ready.short
    (joined_of_plain (createScope_joined created)) ⟨ready.window.2.1, ?_⟩
  rw [(scope_eq_ok ready.scopes).2.1]
  exact ready.window.2.2

theorem grants (coherent : Coherent interpreter tables)
    (ready : Grantable interpreter service tables jobId waiting now ttlSeconds token raw scope record) :
    Grants interpreter tables scope true now ttlSeconds (some token) token record raw := by
  obtain ⟨row, job, described⟩ := ready.described coherent.queued
  have read := ready.holds.read
  rw [bounded_of_short ready.holds.short] at read
  refine ⟨ready.minted, ready.encoded, ⟨record, read⟩, ⟨row, boundPending_of_waits described.found
    described.queued described.waits described.bound described.expires⟩,
    coherent.queued.named _ (Table.mem_iff.mpr ⟨job, described.found⟩), ready.short, ready.free,
    ready.inactive, ready.fresh, fun other held found owned => ?_⟩
  exact absurd (owned ▸ coherent.chained.pointed other held found) ready.free

theorem granted (coherent : Coherent interpreter tables)
    (ready : Grantable interpreter service tables jobId waiting now ttlSeconds token raw scope record) :
    PostgresApprovalStore.grant interpreter scope true now ttlSeconds (some token) tables =
      .ok (⟨token, scope, record.issuedAt, record.expiresAt, record.recordHash⟩,
        tables.recorded (hex record.tokenDigest) record.recordHash.val (approvalRow record raw)) := by
  obtain ⟨row, job, described⟩ := ready.described coherent.queued
  have grants := ready.grants coherent
  have validated := validatePending_validated (ready.valid ready.window.1 ready.early)
  obtain ⟨fields, decoded, shaped⟩ := validated.read
  have wired : decodeWire interpreter (some row.wire) handoffKeys "handoff" = .ok fields := by
    rw [described.wire]
    exact decoded
  exact grant_of_waiting coherent.chained ready.minted ready.encoded ready.holds grants.carried
    (boundPending_of_waits described.found described.queued described.waits described.bound
      described.expires) wired (describes_of_read decoded shaped ready.scopes) ready.free
    ready.inactive ready.fresh

end Grantable

/-- What `grant` returns. -/
def grantOf (token : Bytes) (scope : ApprovalScope) (record : ApprovalRecord) : ApprovalGrant :=
  ⟨token, scope, record.issuedAt, record.expiresAt, record.recordHash⟩

/-- The event of the approval of a job that waits. -/
def grantedEvent (service : Service) (approver : Str) (waiting : Waiting) (now : Int)
    (grant : ApprovalGrant) : Outcome AuditEvent :=
  (Notice.granted service grant now).event waiting.handoff waiting.traceId approver

theorem granting_of_scope {input : Input} {approval : Approval}
    (created : createScope interpreter (some approval.waiting.wire)
      (service.presented approval.waiting.subject approval.jobId now) service.signer.verifier =
        .ok scope) :
    granting interpreter service state input approval now =
      state.commit input (state.store.atomic id interpreter service.audit
        (PostgresApprovalStore.grant interpreter scope true now approval.ttlSeconds input.drawn)
        (grantedEvent service approval.approver approval.waiting now))
        (.approved approval) fun _ => .raised := by
  unfold granting
  rw [created]
  rfl

/-- An approval is granted in three steps of its request. -/
theorem approves {events more : List AuditEvent} {first : AuditEvent}
    (coherent : Coherent interpreter state.store.tables)
    (ready : Grantable interpreter service state.store.tables jobId waiting now ttlSeconds token raw
      scope record)
    (role : service.approvers.userId (some approver) = .ok other)
    (apart : waiting.handoff.userId ≠ other)
    (decided : grantedEvent service approver waiting now (grantOf token scope record) = .ok first)
    (holds : AuditStore.Holds service.audit.verifier state.store.audit events)
    (room : Room events (first :: more)) :
    ∃ next, run (step interpreter) state
        (.request service (.approve (some approver) jobId ttlSeconds) ::
          List.replicate 3 (.advance state.requests.length (.answering now (some token)))) = some next ∧
      next.store.tables = state.store.tables.recorded (hex record.tokenDigest) record.recordHash.val
        (approvalRow record raw) ∧
      AuditStore.Holds service.audit.verifier next.store.audit (events ++ [first.joined]) ∧
      Room (events ++ [first.joined]) more ∧ next.entries = state.entries ∧
      next.requests.length = state.requests.length + 1 := by
  let input := Input.answering now (some token)
  let approval : Approval := ⟨approver, other, jobId, ttlSeconds, waiting⟩
  obtain ⟨zero, called, own, store, kept, length⟩ := request_called interpreter state service
    (.approve (some approver) jobId ttlSeconds)
  have begins : begin_ interpreter service zero.store.tables input
      (.approve (some approver) jobId ttlSeconds) = .approving approval := by
    unfold begin_
    dsimp only
    rw [role, store, ready.peeked]
  obtain ⟨one, begun, own, store', kept', length'⟩ := advance own
    (show turn interpreter zero _ input = some (_, zero) from
      congrArg (fun phase => some (phase, zero)) begins) rfl
  have decides : approving approval now = .granting approval now := by
    unfold approving
    rw [if_neg apart, if_neg (not_le.mpr ready.early)]
  obtain ⟨two, asked, own, store'', kept'', length''⟩ := advance own
    (show turn interpreter one _ input = some (_, one) from
      congrArg (fun phase => some (phase, one)) decides) rfl
  have same : two.store = state.store := store''.trans (store'.trans store)
  have created : createScope interpreter (some waiting.wire)
      (service.presented waiting.subject jobId now) service.signer.verifier = .ok scope :=
    createScope_eq_ok.mpr ⟨_, ready.valid ready.window.1 ready.early, ready.scopes⟩
  have granted := ready.granted coherent
  rw [← same] at granted holds
  obtain ⟨audit, committed, holds, room⟩ := commit_of_room interpreter
    (PostgresApprovalStore.grant interpreter scope true now ttlSeconds (some token))
    (grantedEvent service approver waiting now) (answering now (some token)) holds room granted
    decided
  obtain ⟨three, granted_, _, stored, entered, requests⟩ := advance own
    (congrArg some ((granting_of_scope created).trans committed)) rfl
  refine ⟨three, ?_, ?_, ?_, room, ?_, ?_⟩
  · exact (run_cons _).mpr ⟨zero, called, (run_cons _).mpr ⟨one, begun, (run_cons _).mpr
      ⟨two, asked, (run_cons _).mpr ⟨three, granted_, rfl⟩⟩⟩⟩
  · rw [stored, ← same]
  · rw [stored]
    exact holds
  · rw [entered]
    exact kept''.trans (kept'.trans kept)
  · rw [requests, length'', length', length]

variable {before : Tables} {updated : ApprovalRecord} {later : Int} {endpoint : WorkerEndpoint}

/-- The tables with the grant of an approval. -/
def grantedTables (before : Tables) (record : ApprovalRecord) (raw : Bytes) : Tables :=
  before.recorded (hex record.tokenDigest) record.recordHash.val (approvalRow record raw)

/-- How the grant of a job that waits is consumed later: the record that says so. -/
structure Consumable (interpreter : Interpreter) (before : Tables) (record updated : ApprovalRecord)
    (now later : Int) : Prop where
  window : now ≤ later ∧ later < record.expiresAt
  written : ApprovalEntry.record interpreter { record.toApprovalEntry with
    state := .consumed
    changedAt := later
    previousHash := some record.recordHash } = .ok updated
  fresh : updated.recordHash.val ∉ before.records
  other : updated.recordHash ≠ record.recordHash

theorem Grantable.succeeds
    (ready : Grantable interpreter service before jobId waiting now ttlSeconds token raw scope record)
    (ends : Consumable interpreter before record updated now later) :
    Succeeds interpreter (grantedTables before record raw) token scope later .consumed
      record.recordHash.val (approvalRow record raw) record updated raw := by
  obtain ⟨_, _, _, _, long, entry, _⟩ := newGrant_eq_ok ready.minted
  have digest : record.tokenDigest = Sha256.digest token := by rw [entry]
  have taken : record.scope = scope := by rw [entry]
  have issued : record.issuedAt = now := by rw [entry]
  have lawful := ready.holds.lawful
  have next : updated.scope = scope := by rw [ApprovalStore.record_eq_ok ends.written, ← taken]
  refine ⟨long, ?_, AList.lookup_insert _, by rw [← digest]; rfl, ready.holds.read, by rw [entry], ?_,
    ⟨issued.le.trans ends.window.1, ?_⟩, fun _ => ends.window.2, ends.written, ?_, ?_⟩
  · rw [← digest]
    exact AList.lookup_insert _
  · rw [taken]
    refine bind_eq_ok.mpr ⟨raw, ready.encoded, bind_eq_ok.mpr ⟨raw, ready.encoded, ?_⟩⟩
    exact congrArg Except.ok (decide_eq_true rfl)
  · exact (ends.window.2.trans_le (lawful.within.trans lawful.finite)).le
  · rw [next]
    exact ready.encoded
  · intro member
    obtain same | old := (AList.mem_insert _).mp member
    · exact ends.other (Subtype.ext same)
    · exact ends.fresh old

/-- The job of the approval is admitted, reserved and committed to its execution. -/
theorem Grantable.admits (coherent : Coherent interpreter before)
    (ready : Grantable interpreter service before jobId waiting now ttlSeconds token raw scope record)
    (ends : Consumable interpreter before record updated now later)
    (dispatches : Dispatchable interpreter service (waiting.job waiting.subject jobId token) later
      endpoint true) :
    ∃ admitted committed,
      admitAndReserve interpreter service (waiting.job waiting.subject jobId token) later
        (grantedTables before record raw) =
          .ok ((permitOf service (waiting.job waiting.subject jobId token) later
            (some updated.recordHash), reservationOf (waiting.job waiting.subject jobId token) later),
            admitted) ∧
      PostgresJobLedger.commitExecution
        (reservationOf (waiting.job waiting.subject jobId token) later) later admitted =
          .ok committed := by
  obtain ⟨row, job, described⟩ := ready.described coherent.queued
  obtain ⟨queued, found, waits, wire, owned, bound, expires, times⟩ := described
  have grants := ready.grants coherent
  have chained := (coherent.effect (.grant grants)).chained
  have succeeds := ready.succeeds ends
  have started := ready.window.1.trans ends.window.1
  have positive := ready.window.2.1.trans ends.window.1
  have validates := ready.valid started dispatches.validated.current.2
  obtain ⟨_, holds⟩ := succeeds.columns chained
  obtain ⟨digest, lasts, _⟩ := scope_eq_ok ready.scopes
  obtain ⟨_, _, _, _, _, minted, _⟩ := newGrant_eq_ok ready.minted
  have entry := ApprovalStore.record_eq_ok ends.written
  rw [minted] at entry
  have wired : scope.handoffSha256 = sha256 waiting.wire := by
    rw [digest]
    exact congrArg sha256 dispatches.toBytes
  obtain rfl := ready.jobId_eq
  let reserved : JobRow := { job with
    state := .reserved, reservedAt := some later, updatedAt := later }
  let consumed := ((grantedTables before record raw).recorded (hex (Sha256.digest token))
    updated.recordHash.val (approvalRow updated raw)).dequeued scope.jobId reserved
  have consumes : PostgresApprovalStore.consume interpreter token scope later waiting.subject
      (grantedTables before record raw) =
        .ok (⟨updated.scope, .consumed, later, updated.recordHash⟩, consumed) := by
    rw [← owned]
    exact consume_of_succeeds chained succeeds positive grants.carried found queued waits bound
      expires times
  have held : consumed.jobs.lookup scope.jobId = some reserved := AList.lookup_insert _
  have reserves : PostgresJobLedger.reserveAdmitted interpreter
      (reservationOf (waiting.job waiting.subject scope.jobId token) later)
      (some updated.recordHash.val) consumed = .ok (true, consumed) := by
    refine reserveAdmitted_of_consumed dispatches.texts.1 dispatches.texts.2 (AList.lookup_insert _)
      holds ?_ ?_ ?_ ?_ held ⟨owned, bound.trans (congrArg Subtype.val wired),
        expires.trans lasts, rfl, rfl⟩
    · rw [entry]
    · rw [entry]
      exact AList.lookup_insert _
    · rw [entry]
      rfl
    · rw [entry]
      exact ⟨rfl, wired, lasts⟩
  have big := isBigint_of_inRange dispatches.inRange.1
  have stores : reserved.storable = true :=
    decide_eq_true ⟨by rw [bound]; exact (length_digest _).le, times.1, big, big, times.2⟩
  have commits : PostgresJobLedger.commitExecution
      (reservationOf (waiting.job waiting.subject scope.jobId token) later) later consumed = _ :=
    commitExecution_of_reserved dispatches.texts.1 held (bound.trans (congrArg Subtype.val wired))
      rfl stores rfl dispatches.inRange.1
  exact ⟨consumed, _, dispatches.admitAndReserve (dispatches.admission_approved rfl validates
    ready.scopes consumes) reserves, commits⟩

/-- A job whose approval was granted enters its worker in six steps of its completion. -/
theorem completes {events : List AuditEvent} {second third : AuditEvent}
    (coherent : Coherent interpreter before)
    (ready : Grantable interpreter service before jobId waiting now ttlSeconds token raw scope record)
    (ends : Consumable interpreter before record updated now later)
    (dispatches : Dispatchable interpreter service (waiting.job waiting.subject jobId token) later
      endpoint true)
    (tables : state.store.tables = grantedTables before record raw)
    (admission : admittedEvent service waiting.subject (permitOf service
      (waiting.job waiting.subject jobId token) later (some updated.recordHash)) = .ok second)
    (dispatch : dispatchedEvent service (attemptOf service (waiting.job waiting.subject jobId token)
      later endpoint (some updated.recordHash)) = .ok third)
    (holds : AuditStore.Holds service.audit.verifier state.store.audit events)
    (room : Room events [second, third]) :
    ∃ final, run (step interpreter) state
        (.request service (.complete waiting.subject jobId token) ::
          List.replicate 5 (.advance state.requests.length (.answering later none))) = some final ∧
      final.entries = state.entries ++ [⟨service, attemptOf service
        (waiting.job waiting.subject jobId token) later endpoint (some updated.recordHash)⟩] := by
  let job := waiting.job waiting.subject jobId token
  obtain ⟨zero, called, own, store, kept, _⟩ := request_called interpreter state service
    (.complete waiting.subject jobId token)
  have same : zero.store.tables = grantedTables before record raw := by rw [store, tables]
  have taken : PostgresPendingJobs.take interpreter service.policy service.signer.verifier jobId
      waiting.subject zero.store.tables = .ok waiting := by
    rw [same]
    exact take_of_peek ready.peeked rfl
  have begins : begin_ interpreter service zero.store.tables (.answering later none)
      (.complete waiting.subject jobId token) = .starting job := by
    unfold begin_
    dsimp only
    rw [taken]
  obtain ⟨one, begun, own, store', kept', _⟩ := advance own
    (show turn interpreter zero _ (.answering later none) = some (_, zero) from
      congrArg (fun phase => some (phase, zero)) begins) rfl
  obtain ⟨admitted, committed, admits, commits⟩ := ready.admits coherent ends dispatches
  obtain ⟨row, line, described⟩ := ready.described coherent.queued
  have available : PostgresJobLedger.dispatchAvailable jobId waiting.subject
      (some (sha256 waiting.wire).val) (grantedTables before record raw) = .ok true := by
    have bound : line.handoffSha256 = (sha256 waiting.wire).val := by
      rw [← described.waits.wired, described.wire]
    have found := described.found
    rw [ready.jobId_eq] at found
    rw [← described.owned]
    exact available_of_waiting dispatches.texts.1 found described.waits.state bound
  rw [← same, ← store'] at admits available
  rw [← store, ← store'] at holds
  obtain ⟨final, enters, entered⟩ := enters_of_admission own dispatches.named dispatches.routed
    available admits commits admission dispatch holds room
  refine ⟨final, (run_cons _).mpr ⟨zero, called, (run_cons _).mpr ⟨one, begun, enters⟩⟩, ?_⟩
  rw [entered, kept', kept]
  rfl

/-- A job that waits enters its worker in the steps of an approval and of a completion. -/
theorem enters_approved (coherent : Coherent interpreter state.store.tables)
    (ready : Grantable interpreter service state.store.tables jobId waiting now ttlSeconds token raw
      scope record)
    (role : service.approvers.userId (some approver) = .ok other)
    (apart : waiting.handoff.userId ≠ other)
    (ends : Consumable interpreter state.store.tables record updated now later)
    (named : checkJobId jobId = .ok ()) (owned : Storable waiting.subject)
    (routed : route service.orchestrator (service.presented waiting.subject jobId later) =
      .ok endpoint)
    (recordable : Recordable interpreter service.audit state [
      grantedEvent service approver waiting now (grantOf token scope record),
      admittedEvent service waiting.subject (permitOf service
        (waiting.job waiting.subject jobId token) later (some updated.recordHash)),
      dispatchedEvent service (attemptOf service (waiting.job waiting.subject jobId token)
        later endpoint (some updated.recordHash))]) :
    ∃ final, run (step interpreter) state
        (.request service (.approve (some approver) jobId ttlSeconds) ::
          List.replicate 3 (.advance state.requests.length (.answering now (some token))) ++
          .request service (.complete waiting.subject jobId token) ::
          List.replicate 5 (.advance (state.requests.length + 1) (.answering later none))) =
            some final ∧
      final.entries = state.entries ++ [⟨service, attemptOf service
        (waiting.job waiting.subject jobId token) later endpoint (some updated.recordHash)⟩] := by
  obtain ⟨events, made, reads, decisions, room⟩ := recordable
  obtain _ | ⟨first, _ | ⟨second, _ | ⟨third, _ | _⟩⟩⟩ := decisions
  obtain ⟨next, granted, tables, holds, room, kept, length⟩ :=
    approves coherent ready role apart first reads.holds room
  have carried := (ready.grants coherent).carried
  rw [ready.jobId_eq] at carried
  have running : later < waiting.handoff.expiresAt := by
    have taken : record.scope = scope := by
      obtain ⟨_, _, _, _, _, entry, _⟩ := newGrant_eq_ok ready.minted
      rw [entry]
    have within := ready.holds.lawful.within
    rw [taken, (scope_eq_ok ready.scopes).2.1] at within
    exact ends.window.2.trans_le within
  have dispatches : Dispatchable interpreter service (waiting.job waiting.subject jobId token) later
      endpoint true :=
    ⟨named, routed, ⟨carried, owned⟩, ready.window.2.2, validatePending_validated
      (ready.valid (ready.window.1.trans ends.window.1) running)⟩
  obtain ⟨final, completed, entered⟩ :=
    completes coherent ready ends dispatches tables second third holds room
  rw [length] at completed
  rw [kept] at entered
  exact ⟨final, (run_append _).mpr ⟨next, granted, completed⟩, entered⟩

end Approval

/-- A job that waits enters its worker once somebody else than its user approves it, and its
subject completes it with the token while the approval is valid: in every run, whatever
happened before. -/
theorem approved_enters (interpreter : Interpreter) (authority : AuditAuthority)
    (labels : List Label) (state : State) (shared : ∀ label ∈ labels, label.Shares authority)
    (ran : run (step interpreter) State.initial labels = some state)
    (service : Service) (audits : service.audit = authority) (approver other jobId : Str)
    (ttlSeconds now later : Int) (token raw : Bytes) (waiting : Waiting) (scope : ApprovalScope)
    (record updated : ApprovalRecord) (endpoint : WorkerEndpoint)
    (ready : Grantable interpreter service state.store.tables jobId waiting now ttlSeconds token raw
      scope record)
    (role : service.approvers.userId (some approver) = .ok other)
    (apart : waiting.handoff.userId ≠ other)
    (ends : Consumable interpreter state.store.tables record updated now later)
    (named : checkJobId jobId = .ok ()) (owned : Storable waiting.subject)
    (routed : route service.orchestrator (service.presented waiting.subject jobId later) =
      .ok endpoint)
    (recordable : Recordable interpreter authority state [
      grantedEvent service approver waiting now (grantOf token scope record),
      admittedEvent service waiting.subject (permitOf service
        (waiting.job waiting.subject jobId token) later (some updated.recordHash)),
      dispatchedEvent service (attemptOf service (waiting.job waiting.subject jobId token)
        later endpoint (some updated.recordHash))]) :
    ∃ final, run (step interpreter) state
        (.request service (.approve (some approver) jobId ttlSeconds) ::
          List.replicate 3 (.advance state.requests.length (.answering now (some token))) ++
          .request service (.complete waiting.subject jobId token) ::
          List.replicate 5 (.advance (state.requests.length + 1) (.answering later none))) =
            some final ∧
      final.entries = state.entries ++ [⟨service, attemptOf service
        (waiting.job waiting.subject jobId token) later endpoint (some updated.recordHash)⟩] := by
  obtain ⟨events, upheld, _⟩ := upheld_of_run shared ran
  obtain rfl := audits
  exact enters_approved upheld.coherent ready role apart ends named owned routed recordable

end GeniusNew.Durable
