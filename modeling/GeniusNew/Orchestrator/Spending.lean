import GeniusNew.Approvals.Provenance
import GeniusNew.Json.Length
import GeniusNew.Orchestrator.Dispatch

/-! # One dispatch at a time

`dispatch` run by one thread over a process-local ledger and approval store. The
approval is consumed before the reservation is checked, so the reservation decides
whether a dispatch that raises leaves its approval alone.
-/

namespace GeniusNew

open Json

namespace Orchestrator

/-- The `Decision` of an orchestrator. -/
structure Decided where
  action : Action
  decision : Decision
  reasonCode : String
  occurredAt : Int
  deriving DecidableEq

/-- What `dispatch` returns. -/
structure Dispatched where
  jobId : Str
  workerAgentId : Str
  handoffSha256 : Digest
  handoffWire : Bytes
  resultWire : Bytes
  decisions : List Decided
  approvalRecordHash : Option Digest
  deriving DecidableEq

/-- What a call reads and changes. -/
structure Stores where
  ledger : Ledger
  approvals : ApprovalStore.Records
  deriving DecidableEq

/-- How the runner of a worker ends: with a value, which is bytes or not, with a
refusal, or with any other exception. -/
inductive RunnerAnswer where
  | returned (value : Option Bytes)
  | refused (message : String)
  | failed

/-- What a call meets outside: `on_dispatched` and the runner. -/
structure Outside where
  onDispatched : Outcome Unit
  runner : RunnerAnswer

/-- `_available`. -/
def available (ledger : Ledger) (jobId : Str) : Outcome Unit :=
  if ledger.isBurned jobId then deny .jobIdReused
  else if ledger.isFull then deny .jobLedgerFull
  else .ok ()

/-- What `dispatch` does before the gateway is asked. -/
def preflight (config : Config) (arguments : Arguments) (ledger : Ledger) :
    Outcome WorkerEndpoint := do
  checkJobId arguments.presented.jobId
  let endpoint ← route config arguments.presented
  available ledger arguments.presented.jobId
  return endpoint

/-- `_reserve`. -/
def reserveAdmitted (ledger : Ledger) (jobId : Str) : Outcome Unit × Ledger :=
  if ledger.isFull then
    (deny (if ledger.isBurned jobId then .jobIdReused else .jobLedgerFull), ledger)
  else
    match ledger.reserve jobId with
    | (true, after) => (.ok (), after)
    | (false, after) =>
        let full := after.isFull && !after.isBurned jobId
        (deny (if full then .jobLedgerFull else .jobIdReused), after)

/-- The reservation of a permit. -/
def reservationOf (arguments : Arguments) (permit : DispatchPermit) : Outcome Reservation := do
  let digest ← handoffDigest permit.handoff
  reservation arguments.presented.jobId arguments.presented.subject digest
    permit.handoff.expiresAt arguments.presented.now

/-- `admit_and_reserve`, where `on_admitted` returns. -/
def admitAndReserve (interpreter : Interpreter) (config : Config) (arguments : Arguments)
    (stores : Stores) : Except GatewayRaised (DispatchPermit × Reservation) × Stores :=
  match config.gateway.admission interpreter arguments.wire arguments.presented
      arguments.approvalToken false stores.approvals with
  | (.error refusal, approvals) => (.error refusal, { stores with approvals })
  | (.ok permit, approvals) =>
      if some permit.handoff.toBytes ≠ arguments.wire then
        (passing (fail "gateway admitted a different handoff than the one submitted"),
          { stores with approvals })
      else
        match reservationOf arguments permit with
        | .error raised => (.error (.raised raised), { stores with approvals })
        | .ok reservation =>
            match reserveAdmitted stores.ledger reservation.jobId with
            | (.error raised, ledger) => (.error (.raised raised), ⟨ledger, approvals⟩)
            | (.ok (), ledger) => (.ok (permit, reservation), ⟨ledger, approvals⟩)

/-- `_run`. -/
def runner : RunnerAnswer → Outcome Bytes
  | .returned (some (byte :: bytes)) => .ok (byte :: bytes)
  | .returned _ => fail "dispatch must return the signed result wire"
  | .refused message => fail message
  | .failed => fail "dispatch failed"

/-- `dispatch`: what it returns or raises, and the stores afterwards. -/
def dispatch (interpreter : Interpreter) (config : Config) (outside : Outside)
    (arguments : Arguments) (stores : Stores) : Except GatewayRaised Dispatched × Stores :=
  match preflight config arguments stores.ledger with
  | .error raised => (.error (.raised raised), stores)
  | .ok endpoint =>
      match admitAndReserve interpreter config arguments stores with
      | (.error raised, after) => (.error raised, after)
      | (.ok (permit, reservation), after) =>
          match after.ledger.commitExecution reservation.jobId with
          | none => (passing (fail "only a reserved job can be committed to execution"), after)
          | some ledger =>
              (do
                if config.onDispatched then passing outside.onDispatched
                let resultWire ← passing (runner outside.runner)
                return {
                  jobId := arguments.presented.jobId
                  workerAgentId := endpoint.workerAgentId
                  handoffSha256 := reservation.handoffSha256
                  handoffWire := permit.handoff.toBytes
                  resultWire
                  decisions :=
                    [⟨.executionDispatched, .allowed, "POLICY_SATISFIED", arguments.presented.now⟩]
                  approvalRecordHash := permit.approvalRecordHash }, { after with ledger })

/-- The store holds a granted approval of the wire that the token spends now, and
the handoff on the wire expires too late to be reserved. -/
structure Wasted (interpreter : Interpreter) (config : Config) (arguments : Arguments)
    (stores : Stores) : Prop where
  ready : ∃ endpoint, preflight config arguments stores.ledger = .ok endpoint
  spendable : ∃ (token : Bytes) (record : ApprovalRecord), arguments.approvalToken = some token ∧
    tokenBytes ≤ token.length ∧
    stores.approvals.lookup (Sha256.digest token) = some record ∧ record.state = .granted ∧
    createScope interpreter arguments.wire arguments.presented config.gateway.handoffVerifier =
      .ok record.scope ∧
    (record.issuedAt ≤ arguments.presented.now ∧ arguments.presented.now < record.expiresAt) ∧
    4102444800 < record.scope.handoffExpiresAt

section Preflight

variable {config : Config} {arguments : Arguments} {stores : Stores} {endpoint : WorkerEndpoint}

theorem checkJobId_eq_ok {jobId : Str} :
    checkJobId jobId = .ok () ↔ jobId ≠ [] ∧ encodedLength jobId ≤ maxJobIdBytes := by
  simp only [checkJobId, guarded_eq_ok, not_lt, and_true, ne_eq]

theorem route_granted (routed : route config arguments.presented = .ok endpoint) :
    inRange arguments.presented.now ∧
      ∃ grant, arguments.presented.policy.grantFor arguments.presented.subject = .ok grant := by
  unfold route at routed
  obtain ⟨current, routed⟩ := guarded_eq_ok.mp routed
  obtain ⟨_, routed⟩ := guarded_eq_ok.mp routed
  split at routed
  · exact (fail_ne_ok routed).elim
  next grant found => exact ⟨not_not.mp current, grant, found⟩

theorem available_eq_ok {ledger : Ledger} {jobId : Str} :
    available ledger jobId = .ok () ↔ ledger.isBurned jobId = false ∧ ledger.isFull = false := by
  simp only [available, deny, guarded_eq_ok, Bool.not_eq_true, and_true]

theorem preflight_eq_ok (ready : preflight config arguments stores.ledger = .ok endpoint) :
    (arguments.presented.jobId ≠ [] ∧ encodedLength arguments.presented.jobId ≤ maxJobIdBytes) ∧
      inRange arguments.presented.now ∧ arguments.presented.subject ≠ [] ∧
      stores.ledger.isBurned arguments.presented.jobId = false ∧ stores.ledger.isFull = false := by
  obtain ⟨_, named, ready⟩ := bind_eq_ok.mp ready
  obtain ⟨_, routed, ready⟩ := bind_eq_ok.mp ready
  obtain ⟨_, free, _⟩ := bind_eq_ok.mp ready
  obtain ⟨current, grant, found⟩ := route_granted routed
  obtain ⟨_, read, _⟩ := bind_eq_ok.mp found
  exact ⟨checkJobId_eq_ok.mp named, current, (guarded_eq_ok.mp read).1, available_eq_ok.mp free⟩

theorem isBurned_append (ledger : Ledger) (jobId : Str) (state : JobState) :
    Ledger.isBurned (ledger ++ [(jobId, state)]) jobId = true := by
  unfold Ledger.isBurned
  rw [List.lookup_append]
  cases ledger.lookup jobId with
  | none => simp
  | some known => rfl

/-- An id that is free is reserved. -/
theorem reserveAdmitted_of_available {ledger : Ledger} {jobId : Str}
    (free : ledger.isBurned jobId = false) (room : ledger.isFull = false) :
    reserveAdmitted ledger jobId = (.ok (), ledger ++ [(jobId, .reserved)]) := by
  have small : ¬ ledger.length ≥ maxJobs := by simpa [Ledger.isFull] using room
  have unburned : ¬ ledger.isBurned jobId = true := by simp [free]
  unfold reserveAdmitted Ledger.reserve
  rw [room, if_neg Bool.false_ne_true, if_neg unburned, if_neg small]

/-- The reservation of a job that was routed and admitted is refused only for an
expiry beyond the range of the audit contract. -/
theorem reservation_of_current {jobId subject : Str} {digest : Digest} {expiresAt now : Int}
    (named : jobId ≠ [] ∧ encodedLength jobId ≤ maxJobIdBytes) (known : subject ≠ [])
    (reserved : inRange now) (current : now < expiresAt) :
    reservation jobId subject digest expiresAt now =
      if expiresAt ≤ 4102444800 then .ok ⟨jobId, subject, digest, expiresAt, now⟩
      else fail "reservation expires_at is outside the range the audit contract accepts" := by
  obtain ⟨low, high⟩ := reserved
  have short : ¬ encodedLength jobId > maxJobIdBytes := not_lt.mpr named.2
  have early : ¬ expiresAt ≤ now := not_le.mpr current
  have now_in : ¬ ¬ inRange now := not_not.mpr ⟨low, high⟩
  unfold reservation
  rw [if_neg named.1, if_neg known, if_neg short]
  by_cases fits : expiresAt ≤ 4102444800
  · have inside : ¬ ¬ inRange expiresAt := not_not.mpr ⟨by omega, fits⟩
    rw [if_neg inside, if_neg now_in, if_neg early, if_pos fits]
  · have outside : ¬ inRange expiresAt := fun inside => fits inside.2
    rw [if_pos outside, if_neg fits]

end Preflight

theorem printable_of_inRange {interpreter : Interpreter} {time : Int} (current : inRange time) :
    (Value.int time).printable interpreter = true := by
  obtain ⟨low, high⟩ := current
  have small : time.natAbs < 10 ^ 10 := by omega
  rw [Value.printable, decide_eq_true_eq]
  exact (length_digits_of_lt 10 small).trans (by decide)

section Admitting

variable {interpreter : Interpreter} {config : Config} {arguments : Arguments}
  {stores after : Stores} {endpoint : WorkerEndpoint} {permit : DispatchPermit}
  {approvals : ApprovalStore.Records}

/-- What follows an admission: the id is burned, or the handoff expires too late. -/
theorem admitAndReserve_admitted (ready : preflight config arguments stores.ledger = .ok endpoint)
    (answer : config.gateway.admission interpreter arguments.wire arguments.presented
      arguments.approvalToken false stores.approvals = (.ok permit, approvals)) :
    if permit.handoff.expiresAt ≤ 4102444800 then
      ∃ reservation, reservation.jobId = arguments.presented.jobId ∧
        admitAndReserve interpreter config arguments stores = (.ok (permit, reservation),
          ⟨stores.ledger ++ [(arguments.presented.jobId, .reserved)], approvals⟩)
    else admitAndReserve interpreter config arguments stores =
      (.error (.raised (.contractError
        "reservation expires_at is outside the range the audit contract accepts")),
        ⟨stores.ledger, approvals⟩) := by
  obtain ⟨named, current, known, free, room⟩ := preflight_eq_ok ready
  obtain ⟨pending, validated⟩ := (admission_admitted answer).validated
  obtain ⟨data, wire, encoded⟩ := validated.encoded
  have digested := handoffDigest_eq_ok.mpr ⟨validated.hashed, rfl⟩
  have same : ¬ some permit.handoff.toBytes ≠ arguments.wire := by
    rw [not_not, wire, (canonical_eq_ok.mp encoded).2.2]
    rfl
  have made : reservationOf arguments permit = _ :=
    (congrArg (· >>= fun digest => reservation arguments.presented.jobId
      arguments.presented.subject digest permit.handoff.expiresAt arguments.presented.now)
        digested).trans (reservation_of_current named known current validated.current.2)
  unfold admitAndReserve
  rw [answer]
  dsimp only
  rw [if_neg same, made]
  split_ifs with fits
  · refine ⟨⟨arguments.presented.jobId, arguments.presented.subject,
      sha256 permit.handoff.toBytes, permit.handoff.expiresAt, arguments.presented.now⟩, rfl, ?_⟩
    dsimp only
    rw [reserveAdmitted_of_available free room]
  · rfl

/-- An admission that changes the approvals spends a granted approval of the wire. -/
theorem spendable_of_admission (reached : ApprovalStore.Reached interpreter stores.approvals)
    (current : inRange arguments.presented.now)
    (answer : config.gateway.admission interpreter arguments.wire arguments.presented
      arguments.approvalToken false stores.approvals = (.ok permit, approvals))
    (changed : approvals ≠ stores.approvals) :
    ∃ (token : Bytes) (record : ApprovalRecord), arguments.approvalToken = some token ∧
      tokenBytes ≤ token.length ∧
      stores.approvals.lookup (Sha256.digest token) = some record ∧ record.state = .granted ∧
      createScope interpreter arguments.wire arguments.presented config.gateway.handoffVerifier =
        .ok record.scope ∧
      (record.issuedAt ≤ arguments.presented.now ∧ arguments.presented.now < record.expiresAt) ∧
      record.scope.handoffExpiresAt = permit.handoff.expiresAt := by
  have admitted := admission_admitted answer
  generalize arguments.approvalToken = presented at admitted ⊢
  cases admitted with
  | free => exact (changed rfl).elim
  | @approved handoff given scope receipt _ validated scope_eq consumed =>
      have printed : (Value.int arguments.presented.now).printable interpreter = true :=
        printable_of_inRange current
      obtain ⟨record, long, found, open_, rfl, window⟩ :=
        (ApprovalStore.consume_answers_iff reached.genuine (createScope_joined scope_eq)
          printed).mp ⟨_, _, consumed⟩
      obtain ⟨again, checked, made⟩ := createScope_eq_ok.mp scope_eq
      have one := (validatePending_validated checked).unique validated
      refine ⟨given, record, rfl, long, found, open_, scope_eq, window, ?_⟩
      rw [(scope_eq_ok made).2.1, one]

/-- A run of `admit_and_reserve` leaves the approvals alone, burns the id, or wastes
an approval. -/
theorem admitAndReserve_after (reached : ApprovalStore.Reached interpreter stores.approvals)
    (ready : preflight config arguments stores.ledger = .ok endpoint) :
    (admitAndReserve interpreter config arguments stores).2.approvals = stores.approvals ∨
      (admitAndReserve interpreter config arguments stores).2.ledger.isBurned
        arguments.presented.jobId = true ∨
      Wasted interpreter config arguments stores := by
  cases answer : config.gateway.admission interpreter arguments.wire arguments.presented
      arguments.approvalToken false stores.approvals with
  | mk outcome approvals =>
      cases outcome with
      | error refusal =>
          have same := admission_raised answer
          refine .inl ?_
          unfold admitAndReserve
          rw [answer]
          exact same
      | ok permit =>
          have current := (preflight_eq_ok ready).2.1
          have follows := admitAndReserve_admitted ready answer
          by_cases changed : approvals = stores.approvals
          · refine .inl ?_
            split_ifs at follows
            · obtain ⟨_, _, follows⟩ := follows
              rw [follows]
              exact changed
            · rw [follows]
              exact changed
          by_cases fits : permit.handoff.expiresAt ≤ 4102444800
          · rw [if_pos fits] at follows
            obtain ⟨_, _, follows⟩ := follows
            refine .inr (.inl ?_)
            rw [follows]
            exact isBurned_append _ _ _
          · obtain ⟨token, record, presented, long, found, open_, made, window, expires⟩ :=
              spendable_of_admission reached current answer changed
            refine .inr (.inr ⟨⟨endpoint, ready⟩, token, record, presented, long, found, open_, made,
              window, ?_⟩)
            rw [expires]
            exact not_le.mp fits

/-- Where the approval is wasted, the dispatch raises with the approval spent. -/
theorem Wasted.admitAndReserve (reached : ApprovalStore.Reached interpreter stores.approvals)
    (wasted : Wasted interpreter config arguments stores) :
    ∃ approvals, Orchestrator.admitAndReserve interpreter config arguments stores =
      (.error (.raised (.contractError
        "reservation expires_at is outside the range the audit contract accepts")),
        ⟨stores.ledger, approvals⟩) ∧ approvals ≠ stores.approvals := by
  obtain ⟨endpoint, ready⟩ := wasted.ready
  obtain ⟨token, record, presented, long, found, open_, made, window, late⟩ := wasted.spendable
  have current := (preflight_eq_ok ready).2.1
  obtain ⟨receipt, approvals, consumed⟩ := (ApprovalStore.consume_answers_iff reached.genuine
    (createScope_joined made) (printable_of_inRange current)).mpr
      ⟨record, long, found, open_, rfl, window⟩
  obtain ⟨handoff, validated, scope⟩ := createScope_eq_ok.mp made
  obtain ⟨permit, same, answer⟩ := admission_of_consume validated made consumed
  rw [← presented] at answer
  have expires : ¬ permit.handoff.expiresAt ≤ 4102444800 := by
    rw [same, ← (scope_eq_ok scope).2.1]
    exact not_le.mpr late
  have follows := admitAndReserve_admitted ready answer
  rw [if_neg expires] at follows
  exact ⟨approvals, follows, ApprovalStore.consume_ne consumed⟩

/-- And so does the whole call. -/
theorem Wasted.dispatch (outside : Outside)
    (reached : ApprovalStore.Reached interpreter stores.approvals)
    (wasted : Wasted interpreter config arguments stores) :
    ∃ approvals, Orchestrator.dispatch interpreter config outside arguments stores =
      (.error (.raised (.contractError
        "reservation expires_at is outside the range the audit contract accepts")),
        ⟨stores.ledger, approvals⟩) ∧ approvals ≠ stores.approvals := by
  obtain ⟨endpoint, ready⟩ := wasted.ready
  obtain ⟨approvals, follows, changed⟩ := wasted.admitAndReserve reached
  refine ⟨approvals, ?_, changed⟩
  unfold Orchestrator.dispatch
  rw [ready]
  dsimp only
  rw [follows]

end Admitting

theorem isBurned_commit {ledger committed : Ledger} {jobId other : Str}
    (moved : ledger.commitExecution jobId = some committed)
    (burned : ledger.isBurned other = true) : committed.isBurned other = true := by
  unfold Ledger.commitExecution at moved
  split_ifs at moved
  obtain rfl := Option.some.inj moved
  unfold Ledger.isBurned at burned ⊢
  have replaced := Assoc.lookup_replace ledger jobId other JobState.executionCommitted
  rw [Assoc.replace] at replaced
  rw [replaced]
  split_ifs with same
  · rw [← same, Option.isSome_map]
    exact burned
  · exact burned

/-- A dispatch keeps what `admit_and_reserve` left of the approvals, and its burned ids. -/
theorem dispatch_after {interpreter : Interpreter} {config : Config} {outside : Outside}
    {arguments : Arguments} {stores : Stores} {endpoint : WorkerEndpoint}
    (ready : preflight config arguments stores.ledger = .ok endpoint) :
    (dispatch interpreter config outside arguments stores).2.approvals =
        (admitAndReserve interpreter config arguments stores).2.approvals ∧
      ((admitAndReserve interpreter config arguments stores).2.ledger.isBurned
          arguments.presented.jobId = true →
        (dispatch interpreter config outside arguments stores).2.ledger.isBurned
          arguments.presented.jobId = true) := by
  unfold dispatch
  rw [ready]
  dsimp only
  split
  · next answer =>
      rw [answer]
      exact ⟨rfl, id⟩
  · next permit reservation after answer =>
      rw [answer]
      split
      · exact ⟨rfl, id⟩
      · next ledger moved => exact ⟨rfl, isBurned_commit moved⟩

/-- A dispatch that raises without burning its id leaves the approvals unchanged
exactly where it wastes none. -/
theorem dispatch_keeps_approvals_iff (interpreter : Interpreter) (config : Config)
    (outside : Outside) (arguments : Arguments) (stores : Stores)
    (reached : ApprovalStore.Reached interpreter stores.approvals) :
    ((∃ raised, (dispatch interpreter config outside arguments stores).1 = .error raised) →
        (dispatch interpreter config outside arguments stores).2.ledger.isBurned
          arguments.presented.jobId = false →
        (dispatch interpreter config outside arguments stores).2.approvals = stores.approvals) ↔
      ¬ Wasted interpreter config arguments stores := by
  constructor
  · intro keeps wasted
    obtain ⟨endpoint, ready⟩ := wasted.ready
    obtain ⟨approvals, answer, changed⟩ := wasted.dispatch outside reached
    rw [answer] at keeps
    exact changed (keeps ⟨_, rfl⟩ (preflight_eq_ok ready).2.2.2.1)
  · intro wasted _ unburned
    cases ready : preflight config arguments stores.ledger with
    | error raised =>
        unfold dispatch
        rw [ready]
    | ok endpoint =>
        have kept := @dispatch_after interpreter config outside arguments stores endpoint ready
        obtain ⟨same, burns⟩ := kept
        rw [same]
        rcases admitAndReserve_after reached ready with kept | burned | absurd
        · exact kept
        · rw [burns burned] at unburned
          cases unburned
        · exact (wasted absurd).elim

section Instance

open ApprovalStore

def spendingConfig : Config where
  orchestratorId := str "orchestrator-demo"
  gateway := demoGateway
  approvals := 0
  workers := [⟨str "worker-demo", str "summarize"⟩]
  onAdmitted := false
  onDispatched := false
  atomic := false

/-- The demo job, dispatched ten seconds after it was issued. -/
def spendingArguments (time : Int) : Arguments where
  wire := some (demoIssued true time).toBytes
  presented := demoPresented true (time + 10)
  approvalToken := some demoToken

/-- A store with the approval of the demo job. -/
theorem granted_demo {time : Int} (demo : DemoTime time) : ∃ record : ApprovalRecord,
    Reached literalInterpreter [(Sha256.digest demoToken, record)] ∧
      record.scope.handoffExpiresAt = time + 60 ∧ record.state = .granted ∧
      record.issuedAt = time ∧ record.expiresAt = time + 30 ∧
      createScope literalInterpreter (some (demoIssued true time).toBytes)
        (demoPresented true (time + 10)) digestSigner.verifier = .ok record.scope := by
  obtain ⟨scope, expires, created⟩ := demo.createScope
  obtain ⟨granted, record, issued, entry⟩ := demo.grant expires
  have made := created (time + 10) (by omega) (by omega)
  refine ⟨record, reached_demo ⟨_, _, _, made⟩ issued, ?_, ?_, ?_, ?_, ?_⟩
  · rw [entry]
    exact expires
  · rw [entry]
  · rw [entry]
  · rw [entry]
  · rw [entry]
    exact made

/-- The last dispatch in range spends its approval and then refuses to reserve. -/
theorem approval_wasted_late : ∃ approvals after,
    Reached literalInterpreter approvals ∧
      dispatch literalInterpreter spendingConfig ⟨.ok (), .failed⟩ (spendingArguments lateTime)
          ⟨[], approvals⟩ =
        (.error (.raised (.contractError
          "reservation expires_at is outside the range the audit contract accepts")), after) ∧
      after.ledger.isBurned (str "job-demo") = false ∧ after.approvals ≠ approvals := by
  obtain ⟨record, reached, expires, open_, starts, ends, made⟩ := granted_demo demoTime_late
  have late : lateTime = 4102444790 := rfl
  have window : record.issuedAt ≤ lateTime + 10 ∧ lateTime + 10 < record.expiresAt := by omega
  have beyond : 4102444800 < record.scope.handoffExpiresAt := by omega
  have wasted : Wasted literalInterpreter spendingConfig (spendingArguments lateTime)
      ⟨[], [(Sha256.digest demoToken, record)]⟩ :=
    ⟨⟨_, rfl⟩, demoToken, record, rfl, by decide, List.lookup_cons_self, open_, made, window, beyond⟩
  obtain ⟨approvals, answer, changed⟩ := wasted.dispatch ⟨.ok (), .failed⟩ reached
  exact ⟨_, _, reached, answer, rfl, changed⟩

/-- At 110 the approval of the demo job is not wasted. -/
theorem dispatch_keeps_approvals_demo : ∃ record : ApprovalRecord, record.state = .granted ∧
    ((∃ raised, (dispatch literalInterpreter spendingConfig ⟨.ok (), .failed⟩
        (spendingArguments 100) ⟨[], [(Sha256.digest demoToken, record)]⟩).1 = .error raised) →
      (dispatch literalInterpreter spendingConfig ⟨.ok (), .failed⟩ (spendingArguments 100)
        ⟨[], [(Sha256.digest demoToken, record)]⟩).2.ledger.isBurned (str "job-demo") = false →
      (dispatch literalInterpreter spendingConfig ⟨.ok (), .failed⟩ (spendingArguments 100)
        ⟨[], [(Sha256.digest demoToken, record)]⟩).2.approvals =
          [(Sha256.digest demoToken, record)]) := by
  obtain ⟨record, reached, expires, open_, _⟩ := granted_demo demoTime_early
  refine ⟨record, open_, (dispatch_keeps_approvals_iff literalInterpreter spendingConfig _
    (spendingArguments 100) ⟨[], [(Sha256.digest demoToken, record)]⟩ reached).mpr fun wasted => ?_⟩
  obtain ⟨token, other, given, _, found, _, _, _, late⟩ := wasted.spendable
  obtain rfl := Option.some.inj given
  have same : [(Sha256.digest demoToken, record)].lookup (Sha256.digest demoToken) =
      some record := List.lookup_cons_self
  obtain rfl := Option.some.inj (same.symm.trans found)
  omega

end Instance

end Orchestrator

end GeniusNew
