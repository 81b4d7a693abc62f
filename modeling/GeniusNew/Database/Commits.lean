import GeniusNew.Database.StartChecks

/-! # When a transaction commits

What a store checks before it writes is all that the constraints and the triggers ask of
tables that agree. A job whose id is free is inserted; one that waits is read back; an
approval of it is granted once; its consumption reserves the job; and a reserved job is
committed to its execution.
-/

namespace GeniusNew.Database

open Json Orchestrator

section Columns

/-- A text of visible characters can be carried. -/
theorem storable_of_unescaped {text : Str} (plain : text.all unescaped = true) :
    Storable text := by
  rw [List.all_eq_true] at plain
  refine ⟨?_, fun member => absurd (plain 0 member) (by decide)⟩
  induction text with
  | nil => rfl
  | cons c text ih =>
      obtain ⟨first, rest⟩ := List.forall_mem_cons.mp plain
      simp only [unescaped, Bool.and_eq_true, decide_eq_true_eq] at first
      have ascii : c.val < 0x80 := by omega
      obtain ⟨bytes, encoded⟩ := Option.isSome_iff_exists.mp (ih rest)
      rw [encodeUtf8, encoded]
      simp only [bind, Option.bind, if_pos ascii]
      rfl

theorem storable_digest (digest : Digest) : Storable digest.val :=
  storable_of_unescaped (unescaped_of_isHexText digest.property)

theorem length_digest (digest : Digest) : digest.val.length = 64 := by
  have hexadecimal := digest.property
  simp only [isHexText, Bool.and_eq_true, decide_eq_true_eq] at hexadecimal
  exact hexadecimal.1

/-- The trace of a wire is a column's text. -/
theorem storable_trace (digest : Digest) : Storable (str "trace-" ++ digest.val.take 16) ∧
    encodedLength (str "trace-" ++ digest.val.take 16) ≤ maxTraceBytes := by
  have plain : (str "trace-" ++ digest.val.take 16).all unescaped = true := by
    have all := List.all_eq_true.mp (unescaped_of_isHexText digest.property)
    refine List.all_append.trans (Bool.and_eq_true_iff.mpr ⟨by decide, ?_⟩)
    exact List.all_eq_true.mpr fun c member => all c (List.mem_of_mem_take member)
  refine ⟨storable_of_unescaped plain, ?_⟩
  have length : (str "trace-" ++ digest.val.take 16).length = 22 := by
    rw [List.length_append, List.length_take, length_digest]
    rfl
  have one : ∀ c ∈ str "trace-" ++ digest.val.take 16, (if c.val < 0x80 then 1
      else if c.val < 0x800 then 2 else if c.val < 0x10000 then 3 else 4) = 1 := by
    intro c member
    have visible := List.all_eq_true.mp plain c member
    simp only [unescaped, Bool.and_eq_true, decide_eq_true_eq] at visible
    exact if_pos (by omega)
  have limit : maxTraceBytes = 64 := rfl
  rw [encodedLength, List.map_congr_left one, List.map_const', List.sum_replicate, length, limit]
  decide

theorem isBigint_of_inRange {time : Int} (current : inRange time) : isBigint time = true := by
  obtain ⟨positive, small⟩ := current
  exact decide_eq_true ⟨by omega, by omega⟩

end Columns

section Statements

variable {unavailable : String} {before : Tables} {jobId : Str}

theorem insertJob_of_fresh {row : JobRow} (named : Storable jobId) (owned : Storable row.subject)
    (digest : Storable row.handoffSha256) (stores : row.storable = true)
    (checked : row.checked = true) (fresh : jobId ∉ before.jobs) :
    insertJob unavailable jobId row before =
      .ok (1, { before with jobs := before.jobs.insert jobId row }) := by
  have texts : parameters unavailable [jobId, row.subject, row.handoffSha256] = .ok () :=
    parameters_eq_ok.mpr (List.forall_mem_cons.mpr ⟨named, List.forall_mem_cons.mpr
      ⟨owned, List.forall_mem_singleton.mpr digest⟩⟩)
  refine bind_eq_ok.mpr ⟨(), texts, guarded_eq_ok.mpr ⟨not_not.mpr ⟨stores, checked⟩, ?_⟩⟩
  rw [if_neg fresh]
  rfl

theorem updateJob_of_selected {selected : JobRow → Bool} {set : JobRow → JobRow} {row : JobRow}
    (named : Storable jobId) (found : before.jobs.lookup jobId = some row)
    (chosen : selected row = true) (stores : (set row).storable = true)
    (checked : (set row).checked = true) (moves : enforceJobTransition row (set row) = true) :
    updateJob unavailable jobId selected set before =
      .ok (1, { before with jobs := before.jobs.insert jobId (set row) }) := by
  have texts : parameters unavailable [jobId] = .ok () :=
    parameters_eq_ok.mpr (List.forall_mem_singleton.mpr named)
  refine bind_eq_ok.mpr ⟨(), texts, ?_⟩
  rw [found]
  dsimp only
  rw [if_neg (not_not.mpr chosen)]
  exact guarded_eq_ok.mpr ⟨not_not.mpr ⟨stores, checked, moves⟩, rfl⟩

theorem insertPending_of_fresh {row : PendingRow} (named : Storable jobId)
    (owned : Storable row.subject) (traced : Storable row.traceId) (fresh : jobId ∉ before.pending)
    (known : jobId ∈ before.jobs) (short : row.wire.length ≤ maxWireBytes)
    (trace : encodedLength row.traceId ≤ maxTraceBytes) (expires : isBigint row.expiresAt = true) :
    insertPending unavailable jobId row before =
      .ok { before with pending := before.pending.insert jobId row } := by
  have texts : parameters unavailable [jobId, row.subject, row.traceId] = .ok () :=
    parameters_eq_ok.mpr (List.forall_mem_cons.mpr ⟨named, List.forall_mem_cons.mpr
      ⟨owned, List.forall_mem_singleton.mpr traced⟩⟩)
  refine bind_eq_ok.mpr ⟨(), texts, guarded_eq_ok.mpr ⟨?_, rfl⟩⟩
  simp only [not_or, not_not, gt_iff_lt, not_lt]
  exact ⟨fresh, known, short, trace, expires⟩

theorem deletePending_of_named (named : Storable jobId) :
    deletePending unavailable jobId before =
      .ok { before with pending := before.pending.erase jobId } :=
  bind_eq_ok.mpr ⟨(), parameters_eq_ok.mpr (List.forall_mem_singleton.mpr named), rfl⟩

end Statements

section Jobs

variable {interpreter : Interpreter} {before : Tables} {policy : Policy}
  {verifier : HandoffVerifier} {jobId : Str} {waiting : Wiring.Waiting} {now : Int}

/-- The times of a handoff that is current are columns' numbers. -/
theorem isBigint_of_validated {wire : Option Bytes} {presented : Presented} {pending : Bool}
    {handoff : Handoff} (validated : Validated interpreter wire presented verifier pending handoff)
    (current : inRange presented.now) :
    isBigint handoff.issuedAt = true ∧ isBigint handoff.expiresAt = true := by
  obtain ⟨_, _, granted, _⟩ := validated.granted
  obtain ⟨started, running⟩ := validated.current
  obtain ⟨positive, small⟩ := current
  have lasts := granted.expiresAt
  have bounds := presented.policy.ttl_bounds
  exact ⟨decide_eq_true ⟨by omega, by omega⟩, decide_eq_true ⟨by omega, by omega⟩⟩

theorem add_of_fresh (queued : Queued before) (current : inRange now)
    (validated : validatePending interpreter (some waiting.wire)
      ⟨waiting.subject, jobId, policy, now⟩ verifier = .ok waiting.handoff)
    (traced : waiting.traceId = str "trace-" ++ (sha256 waiting.wire).val.take 16)
    (room : before.pending.count (fun row => row.expiresAt > now) < Wiring.PendingJobs.maxPending)
    (fresh : jobId ∉ before.jobs) (named : Storable jobId) (owned : Storable waiting.subject) :
    PostgresPendingJobs.add interpreter policy verifier jobId waiting now before =
      .ok { before with
        jobs := before.jobs.insert jobId (waitingJob waiting now)
        pending := before.pending.insert jobId (waitingRow waiting) } := by
  have times := isBigint_of_validated (validatePending_validated validated) current
  obtain ⟨fields, decoded, _⟩ := bind_eq_ok.mp validated
  obtain ⟨_, same, short, _⟩ := decodeWire_eq_ok decoded
  obtain rfl := Option.some.inj same
  obtain ⟨trace, limit⟩ := storable_trace (sha256 waiting.wire)
  rw [← traced] at trace limit
  have stores : (waitingJob waiting now).storable = true :=
    decide_eq_true ⟨(length_digest _).le, times.1, rfl, isBigint_of_inRange current, times.2⟩
  have absent : jobId ∉ before.pending := by
    intro present
    obtain ⟨row, held⟩ := Table.mem_iff.mp present
    obtain ⟨job, found, _⟩ := queued.queued jobId row held
    exact fresh (Table.mem_iff.mpr ⟨job, found⟩)
  have inserted : insertJob storeUnavailable jobId (waitingJob waiting now) before = _ :=
    insertJob_of_fresh named owned (storable_digest _) stores rfl fresh
  have known : jobId ∈ before.jobs.insert jobId (waitingJob waiting now) :=
    (AList.mem_insert _).mpr (.inl rfl)
  refine bind_eq_ok.mpr ⟨waiting.handoff, validated, guarded_eq_ok.mpr ⟨?_, guarded_eq_ok.mpr
    ⟨not_le.mpr room, bind_eq_ok.mpr ⟨_, inserted, guarded_eq_ok.mpr ⟨not_not.mpr rfl, ?_⟩⟩⟩⟩⟩
  · rw [not_or, not_not, not_not]
    exact ⟨rfl, traced⟩
  · exact insertPending_of_fresh named owned trace absent known short limit times.2

theorem peek_of_row {row : PendingRow} {job : JobRow} {handoff : Handoff} (named : Storable jobId)
    (queued : before.pending.lookup jobId = some row) (found : before.jobs.lookup jobId = some job)
    (waits : Waits row job)
    (validated : validatePending interpreter (some row.wire)
      ⟨row.subject, jobId, policy, job.createdAt⟩ verifier = .ok handoff)
    (issued : handoff.issuedAt = job.createdAt) (wired : handoff.toBytes = row.wire)
    (expires : handoff.expiresAt = row.expiresAt) :
    PostgresPendingJobs.peek interpreter policy verifier jobId before =
      .ok ⟨row.subject, row.wire, handoff, row.traceId, 0⟩ := by
  have texts : parameters storeUnavailable [jobId] = .ok () :=
    parameters_eq_ok.mpr (List.forall_mem_singleton.mpr named)
  refine bind_eq_ok.mpr ⟨(), texts, ?_⟩
  rw [queued, found]
  dsimp only
  unfold PostgresPendingJobs.waiting
  rw [bounded_of_short waits.short]
  refine guarded_eq_ok.mpr ⟨?_, bind_eq_ok.mpr ⟨handoff, validated, guarded_eq_ok.mpr ⟨?_, rfl⟩⟩⟩
  · simp only [not_or, not_not]
    exact ⟨waits.state, waits.subject, waits.expires, waits.wired, waits.traced⟩
  · simp only [not_or, not_not]
    exact ⟨issued, wired, expires⟩

/-- A job that was added is read back. -/
theorem peek_of_added (named : Storable jobId)
    (validated : validatePending interpreter (some waiting.wire)
      ⟨waiting.subject, jobId, policy, now⟩ verifier = .ok waiting.handoff)
    (traced : waiting.traceId = str "trace-" ++ (sha256 waiting.wire).val.take 16) :
    PostgresPendingJobs.peek interpreter policy verifier jobId { before with
      jobs := before.jobs.insert jobId (waitingJob waiting now)
      pending := before.pending.insert jobId (waitingRow waiting) } =
        .ok { waiting with decisionExpiresAt := 0 } := by
  obtain ⟨fields, decoded, _⟩ := bind_eq_ok.mp validated
  obtain ⟨_, same, short, _⟩ := decodeWire_eq_ok decoded
  obtain rfl := Option.some.inj same
  obtain ⟨data, wired, encoded⟩ := (validatePending_validated validated).encoded
  obtain rfl := Option.some.inj wired
  have waits : Waits (waitingRow waiting) (waitingJob waiting now) :=
    ⟨rfl, rfl, rfl, rfl, rfl, traced, short⟩
  exact peek_of_row named (AList.lookup_insert _) (AList.lookup_insert _) waits
    (validatePending_issuance validated) rfl (canonical_eq_ok.mp encoded).2.2.symm rfl

/-- What was checked of a job that waits. -/
theorem peek_eq_ok
    (peeked : PostgresPendingJobs.peek interpreter policy verifier jobId before = .ok waiting) :
    ∃ row job, before.pending.lookup jobId = some row ∧ before.jobs.lookup jobId = some job ∧
      row.subject = waiting.subject ∧ row.wire = waiting.wire ∧
      waiting.handoff.issuedAt = job.createdAt ∧ waiting.handoff.expiresAt = row.expiresAt ∧
      waiting.handoff.toBytes = waiting.wire ∧
      validatePending interpreter (some waiting.wire)
        ⟨waiting.subject, jobId, policy, job.createdAt⟩ verifier = .ok waiting.handoff := by
  obtain ⟨_, _, peeked⟩ := bind_eq_ok.mp peeked
  split at peeked
  next row job queued found =>
    unfold PostgresPendingJobs.waiting at peeked
    split at peeked
    · exact (fail_ne_ok peeked).elim
    next wire selected =>
      obtain rfl := Option.some.inj (Option.ite_none_right_eq_some.mp selected).2
      obtain ⟨_, peeked⟩ := guarded_eq_ok.mp peeked
      obtain ⟨handoff, validated, peeked⟩ := bind_eq_ok.mp peeked
      obtain ⟨binds, peeked⟩ := guarded_eq_ok.mp peeked
      obtain rfl := pure_eq_ok.mp peeked
      simp only [not_or, not_not] at binds
      exact ⟨row, job, queued, found, rfl, rfl, binds.1, binds.2.2, binds.2.1, validated⟩
  · exact (fail_ne_ok peeked).elim

theorem take_of_peek {subject : Str}
    (peeked : PostgresPendingJobs.peek interpreter policy verifier jobId before = .ok waiting)
    (owned : waiting.subject = subject) :
    PostgresPendingJobs.take interpreter policy verifier jobId subject before = .ok waiting :=
  bind_eq_ok.mpr ⟨waiting, peeked, guarded_eq_ok.mpr ⟨not_not.mpr owned, rfl⟩⟩

theorem available_of_fresh {subject : Str} {digest : Option Str} (named : Storable jobId)
    (fresh : jobId ∉ before.jobs) :
    PostgresJobLedger.dispatchAvailable jobId subject digest before = .ok true := by
  have texts : parameters ledgerUnavailable [jobId] = .ok () :=
    parameters_eq_ok.mpr (List.forall_mem_singleton.mpr named)
  refine bind_eq_ok.mpr ⟨(), texts, ?_⟩
  rw [AList.lookup_eq_none.mpr fresh]
  rfl

theorem available_of_waiting {job : JobRow} {digest : Str} (named : Storable jobId)
    (found : before.jobs.lookup jobId = some job) (waits : job.state = .pendingApproval)
    (bound : job.handoffSha256 = digest) :
    PostgresJobLedger.dispatchAvailable jobId job.subject (some digest) before = .ok true := by
  have texts : parameters ledgerUnavailable [jobId] = .ok () :=
    parameters_eq_ok.mpr (List.forall_mem_singleton.mpr named)
  refine bind_eq_ok.mpr ⟨(), texts, ?_⟩
  rw [found]
  exact congrArg Except.ok (decide_eq_true ⟨waits, rfl, congrArg some bound⟩)

variable {reservation : Reservation}

theorem reserve_of_fresh (named : Storable reservation.jobId) (owned : Storable reservation.subject)
    (times : inRange reservation.reservedAt ∧ inRange reservation.expiresAt)
    (fresh : reservation.jobId ∉ before.jobs) :
    PostgresJobLedger.reserve reservation before =
      .ok (true, { before with
        jobs := before.jobs.insert reservation.jobId (reservedJob reservation) }) := by
  have reserved := isBigint_of_inRange times.1
  have stores : (reservedJob reservation).storable = true :=
    decide_eq_true ⟨(length_digest _).le, reserved, reserved, reserved, isBigint_of_inRange times.2⟩
  have inserted : insertJob ledgerUnavailable reservation.jobId (reservedJob reservation) before = _ :=
    insertJob_of_fresh named owned (storable_digest _) stores rfl fresh
  exact bind_eq_ok.mpr ⟨_, inserted, rfl⟩

theorem commitExecution_of_reserved {job : JobRow} (named : Storable reservation.jobId)
    (found : before.jobs.lookup reservation.jobId = some job)
    (bound : job.handoffSha256 = reservation.handoffSha256.val) (reserved : job.state = .reserved)
    (stores : job.storable = true) (checked : job.checked = true) (current : inRange now) :
    PostgresJobLedger.commitExecution reservation now before =
      .ok { before with
        jobs := before.jobs.insert reservation.jobId
          { job with state := .executionCommitted, updatedAt := now } } := by
  obtain ⟨short, created, taken, _, expires⟩ := of_decide_eq_true stores
  have held : job.reservedAt.isSome = true := by
    unfold JobRow.checked at checked
    rw [reserved] at checked
    exact checked
  have later : JobRow.storable { job with state := .executionCommitted, updatedAt := now } = true :=
    decide_eq_true ⟨short, created, taken, isBigint_of_inRange current, expires⟩
  have moves : enforceJobTransition job { job with state := .executionCommitted, updatedAt := now } =
      true := by
    refine decide_eq_true ⟨rfl, ?_, .inl rfl⟩
    rw [reserved]
    rfl
  exact bind_eq_ok.mpr ⟨_, updateJob_of_selected named found (decide_eq_true ⟨bound, reserved⟩) later
    held moves, guarded_eq_ok.mpr ⟨not_not.mpr rfl, rfl⟩⟩

end Jobs

section Approvals

variable {interpreter : Interpreter} {before : Tables} {scope : ApprovalScope} {now : Int}
  {record updated : ApprovalRecord} {raw : Bytes}

theorem Lawful.length {entry : ApprovalEntry} (lawful : Lawful entry) :
    (hex entry.tokenDigest).length ≤ 64 := by
  have digest := lawful.digest
  simp only [isHexText, Bool.and_eq_true, decide_eq_true_eq] at digest
  exact digest.1.le

theorem Lawful.storable {entry : ApprovalEntry} (lawful : Lawful entry) :
    Storable (hex entry.tokenDigest) :=
  storable_of_unescaped (unescaped_of_isHexText lawful.digest)

/-- The times of a record are columns' numbers. -/
theorem Lawful.bigints {entry : ApprovalEntry} (lawful : Lawful entry) :
    isBigint entry.issuedAt = true ∧ isBigint entry.expiresAt = true ∧
      isBigint entry.changedAt = true := by
  obtain ⟨_, issued, lives, within, finite, changed, ends, _⟩ := lawful
  have limit : maxTime = 4102444800 := rfl
  exact ⟨decide_eq_true ⟨by omega, by omega⟩, decide_eq_true ⟨by omega, by omega⟩,
    decide_eq_true ⟨by omega, by omega⟩⟩

/-- A record whose hash is new and that the trigger lets pass is inserted. -/
theorem insertApproval_of_holds {unavailable : String}
    (holds : Holds interpreter record.recordHash.val (approvalRow record raw) record)
    (fresh : record.recordHash.val ∉ before.records)
    (sole : ∀ other held, before.records.lookup other = some held →
      held.tokenDigest = hex record.tokenDigest →
        held.previousHash ≠ record.previousHash.map Subtype.val)
    (passes : enforceApprovalRecord before.records (approvalRow record raw) = true) :
    insertApproval unavailable record.recordHash.val (approvalRow record raw) before =
      .ok { before with
        records := before.records.insert record.recordHash.val (approvalRow record raw) } := by
  have lawful := holds.lawful
  have texts : parameters unavailable ((approvalRow record raw).tokenDigest ::
      record.recordHash.val :: (approvalRow record raw).previousHash.toList) = .ok () := by
    refine parameters_eq_ok.mpr (List.forall_mem_cons.mpr ⟨lawful.storable,
      List.forall_mem_cons.mpr ⟨storable_digest _, fun text member => ?_⟩⟩)
    obtain ⟨digest, _, rfl⟩ := Option.map_eq_some_iff.mp (Option.mem_toList.mp member)
    exact storable_digest digest
  refine bind_eq_ok.mpr ⟨(), texts, guarded_eq_ok.mpr ⟨?_, rfl⟩⟩
  simp only [not_or, not_not, gt_iff_lt, not_lt]
  refine ⟨fresh, holds.short, lawful.length, (length_digest _).le, lawful.bigints, ?_, passes⟩
  rw [Bool.not_eq_true, Table.any_eq_false]
  intro other held found
  exact decide_eq_false fun same => sole other held found same.1 same.2

/-- The row of a record that `grant` mints holds the record. -/
theorem holds_of_newGrant {created : Bool} {ttlSeconds : Int} {drawn : Option Bytes} {token : Bytes}
    (minted : ApprovalStore.newGrant interpreter scope created now ttlSeconds drawn =
      .ok (token, record))
    (encoded : canonical interpreter scope.toDict = .ok raw) (short : raw.length ≤ maxWireBytes)
    (plain : scope.joined = scope) (timed : 1 ≤ now ∧ scope.handoffExpiresAt ≤ maxTime) :
    Holds interpreter record.recordHash.val (approvalRow record raw) record := by
  obtain ⟨_, bounds, early, _, _, entry, sealed_⟩ := newGrant_eq_ok minted
  have taken : record.scope = scope := by rw [entry]
  refine ⟨rfl, ?_, short, ?_, sealed_, rfl, ?_⟩
  · rw [taken]
    exact encoded
  · rw [taken, plain]
  · rw [entry]
    refine ⟨?_, timed.1, ?_, min_le_right _ _, timed.2, le_refl _, ?_, fun absurd => nomatch absurd⟩
    · have sized := isHexText_hex (Sha256.digest token)
      rwa [Sha256.length_digest] at sized
    · exact lt_min (Int.lt_add_of_pos_right _ bounds.1) early
    · exact (early.trans_le timed.2).le

theorem holdsText_of_lookup {fields : List (Str × Value)} {key : String} {text : Str}
    (held : (fields.lookup (str key)).getD .null = .str text) :
    PostgresApprovalStore.holdsText fields key text = true := by
  unfold PostgresApprovalStore.holdsText
  cases found : fields.lookup (str key) with
  | none =>
      rw [found] at held
      cases held
  | some value =>
      rw [found] at held
      obtain rfl : value = .str text := held
      exact decide_eq_true rfl

/-- The wire of a handoff says what its scope says. -/
theorem describes_of_read {wire : Option Bytes} {fields : List (Str × Value)} {handoff : Handoff}
    (decoded : decodeWire interpreter wire handoffKeys "handoff" = .ok fields)
    (shaped : handoffOf fields = .ok handoff) (scopes : handoff.scope = .ok scope) :
    PostgresApprovalStore.describes fields scope = true := by
  obtain ⟨_, _, _, unique, _⟩ := decodeWire_eq_ok decoded
  obtain ⟨_, agrees⟩ := (handoffOf_eq_ok unique).mp shaped
  obtain ⟨_, _, job, user, worker, tier, version⟩ := scope_eq_ok scopes
  simp only [Agrees, Handoff.fields, Handoff.bodyFields, List.cons_append, List.nil_append,
    List.forall_mem_cons] at agrees
  obtain ⟨_, jobs, users, _, workers, tiers, _, _, _, versions, _⟩ := agrees
  rw [PostgresApprovalStore.describes, job, user, worker, tier, version]
  simp only [holdsText_of_lookup jobs, holdsText_of_lookup users, holdsText_of_lookup workers,
    holdsText_of_lookup tiers, holdsText_of_lookup versions, Bool.and_self]

/-- The rows of a job that waits agree with the scope of its handoff. -/
theorem boundPending_of_waits {row : PendingRow} {job : JobRow}
    (found : before.jobs.lookup scope.jobId = some job)
    (queued : before.pending.lookup scope.jobId = some row) (waits : Waits row job)
    (bound : job.handoffSha256 = scope.handoffSha256.val)
    (expires : job.expiresAt = scope.handoffExpiresAt) :
    PostgresApprovalStore.boundPending scope before = some row := by
  unfold PostgresApprovalStore.boundPending
  rw [found, queued]
  exact if_pos ⟨waits.state, waits.subject.symm, bound, expires, waits.expires, waits.short,
    waits.wired⟩

/-- A scope that a waiting job agrees with is granted once. -/
theorem grant_of_waiting {created : Bool} {ttlSeconds : Int} {drawn : Option Bytes} {token : Bytes}
    {pending : PendingRow} {fields : List (Str × Value)} (chained : Chained interpreter before)
    (minted : ApprovalStore.newGrant interpreter scope created now ttlSeconds drawn =
      .ok (token, record))
    (encoded : canonical interpreter scope.toDict = .ok raw)
    (holds : Holds interpreter record.recordHash.val (approvalRow record raw) record)
    (named : Storable scope.jobId)
    (bound : PostgresApprovalStore.boundPending scope before = some pending)
    (decoded : decodeWire interpreter (some pending.wire) handoffKeys "handoff" = .ok fields)
    (describes : PostgresApprovalStore.describes fields scope = true)
    (free : hex record.tokenDigest ∉ before.tokens)
    (inactive : PostgresApprovalStore.activeGrant raw now before = false)
    (fresh : record.recordHash.val ∉ before.records) :
    PostgresApprovalStore.grant interpreter scope created now ttlSeconds drawn before =
      .ok (⟨token, scope, record.issuedAt, record.expiresAt, record.recordHash⟩,
        before.recorded (hex record.tokenDigest) record.recordHash.val (approvalRow record raw)) := by
  obtain ⟨_, _, _, _, _, entry, _⟩ := newGrant_eq_ok minted
  have granted : record.state = .granted := by rw [entry]
  have first : record.previousHash = none := by rw [entry]
  have read : approvalRecord interpreter record.recordHash.val (approvalRow record raw) (some raw) =
      .ok record := by
    have read := holds.read
    rwa [bounded_of_short holds.short] at read
  have texts : parameters storeUnavailable [scope.jobId] = .ok () :=
    parameters_eq_ok.mpr (List.forall_mem_singleton.mpr named)
  have passes : enforceApprovalRecord before.records (approvalRow record raw) = true := by
    rw [enforceApprovalRecord_eq_true, approvalRow, first, granted]
    exact ⟨rfl, fun absurd => by cases absurd⟩
  have inserted : insertApproval storeUnavailable record.recordHash.val (approvalRow record raw)
      before = _ := insertApproval_of_holds holds fresh (fun other held found owned =>
        absurd (owned ▸ chained.pointed other held found) free) passes
  have pointed : insertToken storeUnavailable (approvalRow record raw).tokenDigest
      record.recordHash.val { before with
        records := before.records.insert record.recordHash.val (approvalRow record raw) } =
      .ok (before.recorded (hex record.tokenDigest) record.recordHash.val (approvalRow record raw)) := by
    have texts : parameters storeUnavailable [hex record.tokenDigest, record.recordHash.val] =
        .ok () := parameters_eq_ok.mpr (List.forall_mem_cons.mpr ⟨holds.lawful.storable,
          List.forall_mem_singleton.mpr (storable_digest _)⟩)
    refine bind_eq_ok.mpr ⟨(), texts, ?_⟩
    rw [AList.lookup_insert]
    refine guarded_eq_ok.mpr ⟨?_, rfl⟩
    simp only [not_or, not_not]
    exact ⟨free, trivial, granted, by rw [approvalRow, first]; rfl⟩
  refine bind_eq_ok.mpr ⟨_, minted, bind_eq_ok.mpr ⟨raw, encoded, bind_eq_ok.mpr ⟨_, read,
    bind_eq_ok.mpr ⟨(), texts, ?_⟩⟩⟩⟩
  rw [bound]
  refine bind_eq_ok.mpr ⟨fields, decoded, guarded_eq_ok.mpr ⟨not_not.mpr describes,
    guarded_eq_ok.mpr ⟨free, guarded_eq_ok.mpr ⟨ne_true_of_eq_false inactive,
      bind_eq_ok.mpr ⟨_, inserted, bind_eq_ok.mpr ⟨_, pointed, rfl⟩⟩⟩⟩⟩⟩

/-- The current grant of a job that waits is consumed for its subject, and the job is
reserved. -/
theorem consume_of_succeeds {token : Bytes} {current : Str} {row : ApprovalRow} {job : JobRow}
    {pending : PendingRow} (chained : Chained interpreter before)
    (succeeds : Succeeds interpreter before token scope now .consumed current row record updated raw)
    (positive : 1 ≤ now) (named : Storable scope.jobId)
    (found : before.jobs.lookup scope.jobId = some job)
    (queued : before.pending.lookup scope.jobId = some pending) (waits : Waits pending job)
    (bound : job.handoffSha256 = scope.handoffSha256.val)
    (expires : job.expiresAt = scope.handoffExpiresAt)
    (times : isBigint job.createdAt = true ∧ isBigint job.expiresAt = true) :
    PostgresApprovalStore.consume interpreter token scope now job.subject before =
      .ok (⟨updated.scope, .consumed, now, updated.recordHash⟩,
        (before.recorded (hex (Sha256.digest token)) updated.recordHash.val
          (approvalRow updated raw)).dequeued scope.jobId
            { job with state := .reserved, reservedAt := some now, updatedAt := now }) := by
  have timed := succeeds.timed
  have limit : maxTime = 4102444800 := rfl
  have current_ : inRange now := ⟨positive, timed.2⟩
  obtain ⟨columns, holds⟩ := succeeds.columns chained
  obtain ⟨root, only⟩ := succeeds.root chained
  have texts : parameters storeUnavailable [scope.jobId] = .ok () :=
    parameters_eq_ok.mpr (List.forall_mem_singleton.mpr named)
  have selected : ((before.records.lookup current).filter fun row =>
      row.tokenDigest = hex (Sha256.digest token)) = some row :=
    Option.filter_eq_some_iff.mpr ⟨succeeds.found, decide_eq_true succeeds.owned⟩
  have valid : ¬ (now < record.issuedAt ∨
      ApprovalState.consumed = .consumed ∧ now ≥ record.expiresAt) := by
    rw [not_or, not_and, not_lt, not_le]
    exact ⟨timed.1, succeeds.timely⟩
  have consumable : PostgresApprovalStore.consumable job.subject scope before = true := by
    rw [PostgresApprovalStore.consumable, found, queued, Bool.and_eq_true]
    exact ⟨decide_eq_true ⟨waits.state, rfl, bound, expires⟩,
      decide_eq_true ⟨waits.short, Subtype.ext (waits.wired.trans bound)⟩⟩
  have token_ : hex updated.tokenDigest = hex (Sha256.digest token) :=
    (congrArg ApprovalRow.tokenDigest columns).trans succeeds.owned
  have previous : updated.previousHash.map Subtype.val = some current :=
    congrArg ApprovalRow.previousHash columns
  have granted : row.state = .granted := root.granted
  have sole : ∀ other held, before.records.lookup other = some held →
      held.tokenDigest = hex updated.tokenDigest →
        held.previousHash ≠ updated.previousHash.map Subtype.val := by
    intro other held stored owned
    obtain rfl := only other held stored (owned.trans token_)
    obtain rfl := Option.some.inj (succeeds.found.symm.trans stored)
    rw [root.first, previous]
    exact fun absurd => by cases absurd
  have passes : enforceApprovalRecord before.records (approvalRow updated raw) = true := by
    rw [enforceApprovalRecord_eq_true, columns]
    refine ⟨⟨row, succeeds.found, rfl, granted, (fun absurd => by cases absurd), rfl, ?_⟩,
      fun _ => ?_⟩
    · rw [root.changed, congrArg ApprovalRow.issuedAt (succeeds.holds chained).columns]
      exact timed.1
    · rw [congrArg ApprovalRow.expiresAt (succeeds.holds chained).columns]
      exact succeeds.timely rfl
  have inserted : insertApproval storeUnavailable updated.recordHash.val (approvalRow updated raw)
      before = _ := insertApproval_of_holds holds succeeds.fresh sole passes
  have pointed : updateToken storeUnavailable (hex (Sha256.digest token)) updated.recordHash.val
      { before with
        records := before.records.insert updated.recordHash.val (approvalRow updated raw) } =
      .ok (before.recorded (hex (Sha256.digest token)) updated.recordHash.val
        (approvalRow updated raw)) := by
    have texts : parameters storeUnavailable [updated.recordHash.val, hex (Sha256.digest token)] =
        .ok () := by
      refine parameters_eq_ok.mpr (List.forall_mem_cons.mpr ⟨storable_digest _,
        List.forall_mem_singleton.mpr ?_⟩)
      rw [← token_]
      exact holds.lawful.storable
    refine bind_eq_ok.mpr ⟨(), texts, ?_⟩
    dsimp only
    rw [succeeds.pointer, AList.lookup_insert]
    refine guarded_eq_ok.mpr ⟨?_, rfl⟩
    simp only [not_or, not_not]
    exact ⟨token_, previous, by rw [columns]; exact fun absurd => by cases absurd⟩
  have moved : updateJob storeUnavailable scope.jobId (fun _ => true) (fun job => { job with
      state := .reserved, reservedAt := some now, updatedAt := now })
      { before.recorded (hex (Sha256.digest token)) updated.recordHash.val
          (approvalRow updated raw) with pending := before.pending.erase scope.jobId } =
      .ok (1, (before.recorded (hex (Sha256.digest token)) updated.recordHash.val
        (approvalRow updated raw)).dequeued scope.jobId
          { job with state := .reserved, reservedAt := some now, updatedAt := now }) := by
    have short : job.handoffSha256.length ≤ 64 := by
      rw [bound]
      exact (length_digest _).le
    have big := isBigint_of_inRange current_
    refine updateJob_of_selected named found rfl
      (decide_eq_true ⟨short, times.1, big, big, times.2⟩)
      rfl (decide_eq_true ⟨rfl, ?_, .inr ⟨waits.state, rfl, waits.unreserved, ?_⟩⟩)
    · rw [waits.state]
      rfl
    · exact Option.some_ne_none now
  unfold PostgresApprovalStore.consume PostgresApprovalStore.change
  refine guarded_eq_ok.mpr ⟨not_lt.mpr succeeds.long, guarded_eq_ok.mpr ⟨not_not.mpr current_,
    bind_eq_ok.mpr ⟨(), texts, ?_⟩⟩⟩
  rw [succeeds.pointer]
  dsimp only
  rw [selected]
  refine bind_eq_ok.mpr ⟨record, succeeds.read, guarded_eq_ok.mpr ⟨not_not.mpr succeeds.granted, ?_⟩⟩
  refine bind_eq_ok.mpr ⟨true, succeeds.matched, guarded_eq_ok.mpr ⟨not_not.mpr rfl, ?_⟩⟩
  refine guarded_eq_ok.mpr ⟨valid, guarded_eq_ok.mpr ⟨not_not.mpr consumable, ?_⟩⟩
  refine bind_eq_ok.mpr ⟨updated, succeeds.written, bind_eq_ok.mpr ⟨raw, succeeds.encoded, ?_⟩⟩
  refine bind_eq_ok.mpr ⟨_, inserted, bind_eq_ok.mpr ⟨_, pointed, ?_⟩⟩
  exact bind_eq_ok.mpr ⟨_, deletePending_of_named named, bind_eq_ok.mpr ⟨_, moved, rfl⟩⟩

/-- A reservation that the consumed approval is for is admitted. -/
theorem reserveAdmitted_of_consumed {reservation : Reservation} {recordHash : Digest}
    {row : ApprovalRow} {job : JobRow} (named : Storable reservation.jobId)
    (owned : Storable reservation.subject) (stored : before.records.lookup recordHash.val = some row)
    (holds : Holds interpreter recordHash.val row record) (consumed : record.state = .consumed)
    (pointer : before.tokens.lookup (hex record.tokenDigest) = some recordHash.val)
    (changed : record.changedAt = reservation.reservedAt)
    (covers : record.scope.jobId = reservation.jobId ∧
      record.scope.handoffSha256 = reservation.handoffSha256 ∧
      record.scope.handoffExpiresAt = reservation.expiresAt)
    (found : before.jobs.lookup reservation.jobId = some job)
    (agrees : job.subject = reservation.subject ∧
      job.handoffSha256 = reservation.handoffSha256.val ∧ job.expiresAt = reservation.expiresAt ∧
      job.state = .reserved ∧ job.reservedAt = some reservation.reservedAt) :
    PostgresJobLedger.reserveAdmitted interpreter reservation (some recordHash.val) before =
      .ok (true, before) := by
  have texts : parameters ledgerUnavailable [recordHash.val, reservation.jobId,
      reservation.subject] = .ok () :=
    parameters_eq_ok.mpr (List.forall_mem_cons.mpr ⟨storable_digest _, List.forall_mem_cons.mpr
      ⟨named, List.forall_mem_singleton.mpr owned⟩⟩)
  have columns := holds.columns
  have token : row.tokenDigest = hex record.tokenDigest := congrArg ApprovalRow.tokenDigest columns
  have state : row.state = .consumed := (congrArg ApprovalRow.state columns).trans consumed
  have times : row.changedAt = record.changedAt := congrArg ApprovalRow.changedAt columns
  have read : PostgresJobLedger.consumedRecord reservation recordHash.val before = some row := by
    unfold PostgresJobLedger.consumedRecord
    rw [found, stored]
    refine (if_pos ?_ : _ = some row)
    rw [token]
    exact ⟨pointer, agrees.1, agrees.2.1, agrees.2.2.1, agrees.2.2.2.1, agrees.2.2.2.2, state⟩
  have scope : storedScope interpreter (bounded row.scope) = .ok record.scope := by
    rw [bounded_of_short holds.short, storedScope_canonical holds.encoded holds.short, holds.joined]
  refine bind_eq_ok.mpr ⟨(), texts, ?_⟩
  rw [read]
  refine bind_eq_ok.mpr ⟨record.scope, scope, congrArg (fun answer => Except.ok (answer, before)) ?_⟩
  exact decide_eq_true ⟨covers.1, covers.2.1, covers.2.2, times.trans changed⟩

end Approvals

end GeniusNew.Database
