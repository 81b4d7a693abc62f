import GeniusNew.Service.Auditable
import GeniusNew.Service.Recorded

/-! # An admitted job reaches its worker

While the anchor answers its commits, an append returns. An event can be derived
from every handoff whose identifiers fit an entry. So an admitted job whose id is
free passes its reservation and two records and enters its worker.
-/

namespace GeniusNew

open Json

namespace AnchoredAudit

variable {recorder : Recorder}

/-- What a commit of everything makes of a recorder, flag and all. -/
theorem recoverLocked_answered (authority : AuditAuthority) (settled : recorder.Settled)
    (short : recorder.chain.length ≤ maxCount) :
    ∃ anchor, recoverLocked authority .answered recorder =
        (.ok (), ⟨recorder.chain, anchor, false⟩) ∧
      (Recorder.mk recorder.chain anchor false).Trails ∧
      (Recorder.mk recorder.chain anchor false).CaughtUp := by
  obtain ⟨anchor, recovered, caughtUp, trails, _⟩ | ⟨reason, anchor, recovered, _⟩ :=
    recoverLocked_cases authority .answered settled.trails settled.caughtUp
  · exact ⟨anchor, recovered, trails, caughtUp⟩
  · exfalso
    obtain ⟨committed, ahead, _, whole, chained⟩ := settled.trails
    have fits : (committed ++ ahead).length ≤ maxCount := by
      rwa [chained, length_recordsFrom] at short
    have acked := (ackLocked_trailing authority recorder committed ahead fits whole chained).1
    unfold recoverLocked at recovered
    rw [acked] at recovered
    split_ifs at recovered
    · cases (Prod.mk.inj recovered).1
    · cases (Prod.mk.inj recovered).1

/-- While the anchor answers, an append returns. -/
theorem append_answered (authority : AuditAuthority) (event : AuditEvent)
    (settled : recorder.Settled) (room : recorder.chain.length < maxCount) :
    ∃ after, append authority event .answered .answered recorder = (.ok (), after) ∧
      after.Settled ∧ after.chain = (recorder.linked event).chain := by
  obtain ⟨anchor, recovered, trails, caughtUp⟩ :=
    recoverLocked_answered authority settled room.le
  obtain ⟨events, chained, whole⟩ := trails.verified caughtUp
  change recorder.chain = recordsFrom 0 emptyHash events at chained
  have fits : (events ++ [event]).length ≤ maxCount := by
    rw [chained, length_recordsFrom] at room
    rw [List.length_append, List.length_singleton]
    omega
  let recovers : Recorder := ⟨recorder.chain, anchor, false⟩
  have links : (recovers.linked event).chain = recordsFrom 0 emptyHash (events ++ [event]) := by
    change (AuditChain.append recorder.chain event).2 = _
    rw [chained, append_recordsFrom]
  have acked :=
    (ackLocked_trailing authority (recovers.linked event) events [event] fits whole links).1
  have all : Verified (commitment (events ++ [event]) fits) (events ++ [event]) :=
    verified_commitment fits
  let after : Recorder :=
    ⟨(recovers.linked event).chain, commitment (events ++ [event]) fits, false⟩
  refine ⟨after, ?_, ⟨⟨events ++ [event], [], Nat.zero_le _, all, ?_⟩, fun _ => ?_⟩, rfl⟩
  · unfold append
    rw [recovered]
    dsimp only
    rw [acked]
  · rw [List.append_nil]
    exact links
  · exact caughtUp_of_verified links all

end AnchoredAudit

/-- A handoff that carries its own payload digest and whose identifiers an entry
can carry. -/
structure Handoff.Fits (handoff : Handoff) : Prop where
  payload : handoff.payloadSha256 = (sha256 (canonicalBytes (payloadDict handoff.payload))).val
  jobId : isIdentifier handoff.jobId = true
  userId : isIdentifier handoff.userId = true
  policyVersion : isIdentifier handoff.policyVersion = true

namespace Wiring

/-- What a component may say of a handoff on behalf of a subject. -/
structure Notice.Fits (notice : Notice) (handoff : Handoff) (apiSubject : Str) : Prop where
  instanceId : isInstanceId notice.instanceId = true
  reasonCode : isReasonCode (str notice.reasonCode) = true
  occurredAt : 0 < notice.occurredAt ∧ notice.occurredAt ≤ maxOccurredAt
  approval : ∃ hash : Option Digest, notice.approvalRecordHash = hash.map Subtype.val ∧
    (hash.isSome = true → handoff.approvalState = pendingApproval)
  apiSubject : ∃ bytes, subjectBytes apiSubject = .ok bytes
  result : notice.resultSha256.isSome = decide (notice.action = .resultAccepted)

/-- An event can be derived from whatever fits it. -/
theorem Notice.event_of_fits {notice : Notice} {handoff : Handoff} {apiSubject : Str}
    (fits : handoff.Fits) (tells : notice.Fits handoff apiSubject) (digest : Digest) :
    ∃ event, notice.event handoff (str "trace-" ++ digest.val.take 16) apiSubject = .ok event := by
  obtain ⟨hash, approved, pending⟩ := tells.approval
  let actor : ComponentActor := ⟨notice.component, notice.instanceId, tells.instanceId⟩
  let report : Report := {
    traceId := str "trace-" ++ digest.val.take 16
    actor
    action := notice.action
    decision := notice.decision
    reasonCode := str notice.reasonCode
    occurredAt := notice.occurredAt
    approvalRecordHash := notice.approvalRecordHash
    apiSubject := some apiSubject
    resultSha256 := notice.resultSha256 }
  have reported : report.Fits handoff := by
    refine ⟨tells.reasonCode, tells.occurredAt, ?_, ?_, ?_⟩
    · intro given held
      obtain ⟨value, known, rfl⟩ := Option.map_eq_some_iff.mp (approved.symm.trans held)
      exact ⟨value.property, pending (by rw [known]; rfl)⟩
    · intro subject held
      obtain rfl := Option.some.inj held
      exact tells.apiSubject
    · change notice.resultSha256.isSome = decide (true = true ∧ notice.action = .resultAccepted)
      rw [tells.result]
      simp
  have job := auditSafe_of_isIdentifier fits.jobId "job_id"
  have user := auditSafe_of_isIdentifier fits.userId "subject"
  have policy := auditSafe_of_isIdentifier fits.policyVersion "policy_version"
  obtain ⟨event, derived⟩ := @eventFromHandoff_of_fits handoff report reported
    (isIdentifier_traceId digest) fits.payload ⟨_, fits.jobId⟩ ⟨_, fits.userId⟩
    ⟨_, fits.policyVersion⟩ job user policy
  exact ⟨event, bind_eq_ok.mpr ⟨actor, componentActor_identifier actor, derived⟩⟩

/-- What a step reads while the anchor answers. -/
def Input.answering (now : Int) (drawn : Option Bytes) : Input where
  now := now
  drawn := drawn
  answer := .interrupted
  recovery := .answered
  acknowledgement := .answered

section Dispatch

open AnchoredAudit Orchestrator Transition

variable {interpreter : Interpreter} {service : Service} {state after : State} {call : Call}
  {phase next : Phase} {index : Nat} {input : Input} {now : Int} {drawn : Option Bytes}

/-- A critical section that can run leaves its request in the phase it ends in. -/
theorem advance (interpreter : Interpreter) (service : Service) (input : Input) {before : Phase}
    (own : state.requests[index]? = some ⟨call, before⟩)
    (turned : turn interpreter service state index ⟨call, before⟩ input = some (phase, after))
    (requests : after.requests = state.requests) :
    step interpreter service state (.advance index input) =
        some (after.setPhase index ⟨call, before⟩ phase) ∧
      (after.setPhase index ⟨call, before⟩ phase).requests[index]? = some ⟨call, phase⟩ := by
  obtain ⟨inside, _⟩ := List.getElem?_eq_some_iff.mp own
  constructor
  · apply Option.bind_eq_some_iff.mpr
    exact ⟨_, own, Option.bind_eq_some_iff.mpr ⟨_, turned, rfl⟩⟩
  · rw [State.setPhase, requests]
    exact List.getElem?_set_self inside

/-- While the anchor answers, whatever can be derived is recorded. -/
theorem record_answered (service : Service) (now : Int) (drawn : Option Bytes) (next : Phase)
    {handoff : Handoff} {traceId apiSubject : Str} {notice : Notice}
    {event : AuditEvent} (settled : state.recorder.Settled)
    (room : state.recorder.chain.length < maxCount)
    (derived : notice.event handoff traceId apiSubject = .ok event) :
    ∃ recorder, state.record service (.answering now drawn) handoff traceId apiSubject notice next =
        (next, { state with recorder, evidence := state.evidence ++ [⟨handoff, event⟩] }) ∧
      recorder.Settled ∧ recorder.chain.length = state.recorder.chain.length + 1 := by
  obtain ⟨recorder, appended, left, chain⟩ := append_answered service.audit event settled room
  have longer : recorder.chain.length = state.recorder.chain.length + 1 := by
    rw [chain, Recorder.linked, AuditChain.append, List.length_append, List.length_singleton]
  have linked : state.recorder.chain.length < recorder.chain.length := by omega
  refine ⟨recorder, ?_, left, longer⟩
  unfold State.record
  rw [derived]
  dsimp only [State.append, Input.answering]
  rw [appended]
  dsimp only
  rw [if_pos linked]

/-- A job with a route whose id is free goes on to the gateway. -/
theorem start_of_route (service : Service) (state : State) {job : Job} {endpoint : WorkerEndpoint}
    (named : checkJobId job.jobId = .ok ())
    (routed : route service.orchestrator (service.presented job.subject job.jobId now) = .ok endpoint)
    (free : state.ledger.lookup job.jobId = none) (short : state.ledger.length < maxJobs) :
    start service state job now = .admitting job now endpoint := by
  have unburned : state.ledger.isBurned job.jobId = false := by
    rw [Ledger.isBurned, free]
    rfl
  have open_ : state.ledger.isFull = false := decide_eq_false (not_le.mpr short)
  simp only [start, named, routed, unburned, open_, bind, Except.bind, Bool.false_eq_true, ↓reduceIte]

/-- A permit for the wire of a job admits it. -/
theorem admitting_of_permit (endpoint : WorkerEndpoint) {job : Job} {permit : DispatchPermit}
    {records : ApprovalStore.Records}
    (answered : service.gateway.admission interpreter (some job.wire)
      (service.presented job.subject job.jobId now) job.approvalToken false state.approvals =
        (.ok permit, records)) (same : permit.handoff.toBytes = job.wire) :
    admitting interpreter service state job now endpoint =
      (.admitted ⟨job, now, endpoint, permit⟩, { state with approvals := records }) := by
  unfold admitting
  rw [answered]
  dsimp only
  rw [if_neg (not_not.mpr same)]

/-- An admitted job with everything it needs on its way to the worker. -/
structure Attempt.Ready (service : Service) (state : State) (attempt : Attempt) : Prop where
  settled : state.recorder.Settled
  room : state.recorder.chain.length + 2 ≤ maxCount
  gateway : attempt.permit.gatewayId = service.gatewayId
  fits : attempt.permit.handoff.Fits
  admission : (Notice.admitted attempt.permit).Fits attempt.permit.handoff attempt.job.subject
  dispatch : (Notice.dispatched service attempt.now).Fits attempt.permit.handoff attempt.job.subject
  reservation : ∃ reserved, reservation attempt.job.jobId attempt.job.subject
    (sha256 attempt.permit.handoff.toBytes) attempt.permit.handoff.expiresAt attempt.now =
      .ok reserved
  free : state.ledger.lookup attempt.job.jobId = none
  short : state.ledger.length < maxJobs

theorem reservation_jobId {jobId subject : Str} {digest : Digest} {expiresAt reservedAt : Int}
    {made : Reservation} (reserved : reservation jobId subject digest expiresAt reservedAt = .ok made) :
    made.jobId = jobId := by
  unfold reservation at reserved
  split_ifs at reserved
  all_goals first | exact (fail_ne_ok reserved).elim | rw [← Except.ok.inj reserved]

section Ready

variable {attempt : Attempt}

theorem Attempt.Ready.traceId (ready : attempt.Ready service state) :
    traceId attempt.permit.handoff =
      .ok (str "trace-" ++ (sha256 attempt.permit.handoff.toBytes).val.take 16) :=
  bind_eq_ok.mpr ⟨_, handoffDigest_eq_ok.mpr ⟨ready.fits.payload, rfl⟩, rfl⟩

theorem recordAdmission_ready (ready : attempt.Ready service state) :
    ∃ recorder evidence, recordAdmission service (.answering now drawn) state attempt =
        (.reserving attempt, { state with recorder, evidence }) ∧
      recorder.Settled ∧ recorder.chain.length = state.recorder.chain.length + 1 := by
  obtain ⟨event, derived⟩ := Notice.event_of_fits ready.fits ready.admission
    (sha256 attempt.permit.handoff.toBytes)
  have short : state.recorder.chain.length < maxCount := by
    have room := ready.room
    omega
  obtain ⟨recorder, recorded, settled, longer⟩ :=
    record_answered service now drawn (.reserving attempt) ready.settled short derived
  have admits : recordAdmission service (.answering now drawn) state attempt =
      state.record service (.answering now drawn) attempt.permit.handoff
        (str "trace-" ++ (sha256 attempt.permit.handoff.toBytes).val.take 16) attempt.job.subject
        (.admitted attempt.permit) (.reserving attempt) := by
    unfold recordAdmission
    rw [if_neg (not_not.mpr ready.gateway), ready.traceId]
  exact ⟨recorder, _, admits.trans recorded, settled, longer⟩

theorem recordDispatch_ready (settled : state.recorder.Settled)
    (short : state.recorder.chain.length < maxCount) (fits : attempt.permit.handoff.Fits)
    (tells : (Notice.dispatched service attempt.now).Fits attempt.permit.handoff attempt.job.subject)
    (named : Wiring.traceId attempt.permit.handoff =
      .ok (str "trace-" ++ (sha256 attempt.permit.handoff.toBytes).val.take 16)) :
    ∃ recorder evidence, recordDispatch service (.answering now drawn) state attempt =
        (.entering attempt, { state with recorder, evidence }) := by
  obtain ⟨event, derived⟩ := Notice.event_of_fits fits tells (sha256 attempt.permit.handoff.toBytes)
  obtain ⟨recorder, recorded, _⟩ :=
    record_answered service now drawn (.entering attempt) settled short derived
  have dispatches : recordDispatch service (.answering now drawn) state attempt =
      state.record service (.answering now drawn) attempt.permit.handoff
        (str "trace-" ++ (sha256 attempt.permit.handoff.toBytes).val.take 16) attempt.job.subject
        (.dispatched service attempt.now) (.entering attempt) := by
    unfold recordDispatch
    rw [named]
  exact ⟨recorder, _, dispatches.trans recorded⟩

theorem reserving_ready (ready : attempt.Ready service state) {recorder : Recorder}
    {evidence : List Evidence} {requests : List Request} :
    reserving { state with recorder, evidence, requests } attempt =
      (.committing attempt, { state with
        ledger := state.ledger ++ [(attempt.job.jobId, .reserved)], recorder, evidence, requests }) := by
  obtain ⟨reserved, made⟩ := ready.reservation
  have same := reservation_jobId made
  have digested : handoffDigest attempt.permit.handoff = .ok (sha256 attempt.permit.handoff.toBytes) :=
    handoffDigest_eq_ok.mpr ⟨ready.fits.payload, rfl⟩
  have roomy : ¬ state.ledger.length ≥ maxJobs := not_le.mpr ready.short
  have unburned : state.ledger.isBurned attempt.job.jobId = false := by
    rw [Ledger.isBurned, ready.free]
    rfl
  have reserves : Ledger.reserve state.ledger attempt.job.jobId =
      (true, state.ledger ++ [(attempt.job.jobId, .reserved)]) := by
    rw [Ledger.reserve, unburned, if_neg roomy]
    rfl
  have open_ : Ledger.isFull state.ledger = false := decide_eq_false roomy
  unfold reserving
  simp only [digested, made, same, open_, reserves, bind, Except.bind, Bool.false_eq_true, ↓reduceIte]

theorem commitExecution_reserved {ledger : Ledger} {jobId : Str} (free : ledger.lookup jobId = none) :
    ∃ after, Ledger.commitExecution (ledger ++ [(jobId, .reserved)]) jobId = some after := by
  unfold Ledger.commitExecution
  rw [Assoc.lookup_concat free, if_pos rfl, if_pos rfl]
  exact ⟨_, rfl⟩

theorem turn_committing {ledger : Ledger}
    (commits : state.ledger.commitExecution attempt.job.jobId = some ledger) :
    turn interpreter service state index ⟨call, .committing attempt⟩ input =
      some (.committed attempt, { state with ledger }) := by
  unfold turn
  dsimp only
  rw [commits]

/-- An admitted job that is ready enters its worker in four steps of its own. -/
theorem run_admitted (interpreter : Interpreter) (now : Int) (drawn : Option Bytes)
    (ready : attempt.Ready service state)
    (own : state.requests[index]? = some ⟨call, .admitted attempt⟩) :
    ∃ final, run (step interpreter service) state
        (List.replicate 4 (.advance index (.answering now drawn))) = some final ∧
      final.requests[index]? = some ⟨call, .entering attempt⟩ := by
  obtain ⟨recorder, evidence, admits, settled, longer⟩ := recordAdmission_ready ready
  obtain ⟨ledger, commits⟩ := commitExecution_reserved ready.free
  have short : recorder.chain.length < maxCount := by
    have room := ready.room
    omega
  let input := Input.answering now drawn
  obtain ⟨one, first⟩ := advance interpreter service input own (congrArg some admits) rfl
  obtain ⟨two, second⟩ := advance interpreter service input first
    (congrArg some (reserving_ready ready)) rfl
  obtain ⟨three, third⟩ := advance interpreter service input second (turn_committing commits) rfl
  generalize same : State.setPhase _ index ⟨call, .committing attempt⟩ (.committed attempt) =
    committed at three third
  have kept : committed.recorder = recorder := by
    rw [← same]
    rfl
  rw [← kept] at settled short
  obtain ⟨_, _, dispatches⟩ := recordDispatch_ready settled short ready.fits ready.dispatch
    ready.traceId
  obtain ⟨four, fourth⟩ := advance interpreter service input third (congrArg some dispatches) rfl
  refine ⟨_, ?_, fourth⟩
  exact (run_cons _).mpr ⟨_, one, (run_cons _).mpr ⟨_, two, (run_cons _).mpr ⟨_, three,
    (run_cons _).mpr ⟨_, four, rfl⟩⟩⟩⟩

end Ready

end Dispatch

section Instance

open AnchoredAudit Orchestrator Transition

/-- A service with one subject, one worker, and one approver. -/
def demoService (requiresApproval : Bool) : Service where
  policy := demoPolicy requiresApproval
  signer := digestSigner
  workers := [⟨str "worker-demo", str "summarize"⟩]
  gatewayId := str "gateway-demo"
  gatewayId_valid := demo_gatewayId
  verifierId := str "monitor-demo"
  workerVerifier := ⟨digestSigner.verifier.verifies⟩
  audit := digestAuthority
  approvers := {
    identities := [(str "approver-demo", str "operator-demo")]
    owners_agree := by
      intro subject userId member owner owned
      obtain ⟨rfl, rfl⟩ := Prod.mk.inj (List.mem_singleton.mp member)
      cases owned }

def demoTrace (requiresApproval : Bool) : Str :=
  str "trace-" ++ (sha256 (demoHandoff requiresApproval).toBytes).val.take 16

def demoJob (requiresApproval : Bool) : Job where
  subject := str "subject-demo"
  jobId := str "job-demo"
  wire := (demoHandoff requiresApproval).toBytes
  handoff := demoHandoff requiresApproval
  traceId := demoTrace requiresApproval
  approvalToken := none
  restored := none

theorem handoffDigest_demo (requiresApproval : Bool) :
    handoffDigest (demoHandoff requiresApproval) =
      .ok (sha256 (demoHandoff requiresApproval).toBytes) :=
  handoffDigest_eq_ok.mpr ⟨rfl, rfl⟩

theorem route_demo (requiresApproval : Bool) (now : Int) (current : inRange now) :
    route (demoService requiresApproval).orchestrator
      ((demoService requiresApproval).presented (str "subject-demo") (str "job-demo") now) =
        .ok ⟨str "worker-demo", str "summarize"⟩ := by
  refine guarded_eq_ok.mpr ⟨not_not.mpr current, ?_⟩
  cases requiresApproval <;> rfl

theorem issueJob_demo (requiresApproval : Bool) :
    issueJob literalInterpreter (demoService requiresApproval) (str "subject-demo") (str "job-demo")
      (payloadDict (str "Example text")) 100 = .ok (demoJob requiresApproval) := by
  have routed := route_demo requiresApproval 100 (by decide)
  have admitted : admission literalInterpreter (demoService requiresApproval)
      (payloadDict (str "Example text")) ((demoService requiresApproval).presented
        (str "subject-demo") (str "job-demo") 100) = .ok (demoHandoff requiresApproval).toBytes := by
    have current : inRange 100 := by decide
    have named : checkJobId (str "job-demo") = .ok () := by rfl
    refine guarded_eq_ok.mpr ⟨not_not.mpr current, guarded_eq_ok.mpr ⟨not_not.mpr ?_, ?_⟩⟩
    · cases requiresApproval <;> rfl
    · exact bind_eq_ok.mpr ⟨(), named, issue_demo requiresApproval⟩
  have validated : revalidate literalInterpreter (demoService requiresApproval)
      (demoHandoff requiresApproval).toBytes ((demoService requiresApproval).presented
        (str "subject-demo") (str "job-demo") 100) = .ok (demoHandoff requiresApproval) := by
    cases requiresApproval with
    | false => exact bind_eq_ok.mpr ⟨demoGrant false, rfl, validate_demo le_rfl (by decide)⟩
    | true => exact bind_eq_ok.mpr ⟨demoGrant true, rfl, validatePending_demo le_rfl (by decide)⟩
  have traced : traceId (demoHandoff requiresApproval) = .ok (demoTrace requiresApproval) :=
    bind_eq_ok.mpr ⟨_, handoffDigest_demo requiresApproval, rfl⟩
  exact bind_eq_ok.mpr ⟨_, routed, bind_eq_ok.mpr ⟨_, admitted, bind_eq_ok.mpr ⟨_, validated,
    bind_eq_ok.mpr ⟨_, traced, rfl⟩⟩⟩⟩

theorem fits_demo (requiresApproval : Bool) : (demoHandoff requiresApproval).Fits := by
  refine ⟨rfl, ?_, ?_, ?_⟩
  · exact (by decide : isIdentifier (str "job-demo") = true)
  · exact (by decide : isIdentifier (str "user-demo") = true)
  · exact (by decide : isIdentifier (str "policy-v1") = true)

theorem settled_initial : State.initial.recorder.Settled := by
  have whole : Verified (commitment [] (Nat.zero_le maxCount)) [] := verified_commitment _
  exact ⟨⟨[], [], Nat.zero_le _, whole, rfl⟩, fun _ => ⟨rfl, rfl⟩⟩

def demoSubmit : Call :=
  .submit (str "subject-demo") (str "job-demo") (payloadDict (str "Example text"))

/-- The demo service with its submission in a phase, and nothing else done. -/
def demoSubmitted (recorder : Recorder) (evidence : List Evidence) (phase : Phase) : State :=
  { State.initial with recorder, evidence, requests := [⟨demoSubmit, phase⟩] }

/-- The job of the demo service is issued and recorded. -/
theorem step_submitted (requiresApproval : Bool) :
    ∃ recorder evidence,
      step literalInterpreter (demoService requiresApproval)
        (demoSubmitted ⟨[], .initial, false⟩ [] .called) (.advance 0 (.answering 100 none)) =
          some (demoSubmitted ⟨[], .initial, false⟩ [] (.issued (demoJob requiresApproval) 100)) ∧
      step literalInterpreter (demoService requiresApproval)
        (demoSubmitted ⟨[], .initial, false⟩ [] (.issued (demoJob requiresApproval) 100))
        (.advance 0 (.answering 100 none)) =
          some (demoSubmitted recorder evidence
            (submitted (demoService requiresApproval) (demoJob requiresApproval))) ∧
      recorder.Settled ∧ recorder.chain.length = 1 := by
  let service := demoService requiresApproval
  let job := demoJob requiresApproval
  let input := Input.answering 100 none
  let asked := demoSubmitted ⟨[], .initial, false⟩ [] .called
  let issued := demoSubmitted ⟨[], .initial, false⟩ [] (.issued job 100)
  have tells : (Notice.issued service job.handoff 100).Fits job.handoff job.subject := by
    refine ⟨?_, ?_, ?_, ⟨none, rfl, fun absurd => nomatch absurd⟩, ⟨_, rfl⟩, rfl⟩
    · exact (by decide : isInstanceId (str "orchestrator-demo") = true)
    · cases requiresApproval <;> decide
    · exact (by decide : 0 < (100 : Int) ∧ (100 : Int) ≤ maxOccurredAt)
  obtain ⟨event, derived⟩ := Notice.event_of_fits (fits_demo requiresApproval) tells
    (sha256 (demoHandoff requiresApproval).toBytes)
  have waits : issued.recorder.Settled := settled_initial
  obtain ⟨recorder, recorded, settled, longer⟩ := record_answered service 100 none
    (submitted service job) waits (by decide : 0 < maxCount) derived
  have begins : turn literalInterpreter service asked 0 ⟨demoSubmit, .called⟩ input =
      some (.issued job 100, asked) := by
    have made : issueJob literalInterpreter service (str "subject-demo") (str "job-demo")
        (payloadDict (str "Example text")) 100 = .ok job := issueJob_demo requiresApproval
    change begin_ literalInterpreter service asked 0 input demoSubmit = _
    unfold begin_ demoSubmit
    dsimp only [input, Input.answering]
    rw [made]
  have records : turn literalInterpreter service issued 0 ⟨demoSubmit, .issued job 100⟩ input =
      some (submitted service job, { issued with
        recorder, evidence := issued.evidence ++ [⟨demoHandoff requiresApproval, event⟩] }) :=
    congrArg some recorded
  refine ⟨recorder, [⟨demoHandoff requiresApproval, event⟩], ?_, ?_, settled, longer⟩
  · exact (advance literalInterpreter service input rfl begins rfl).1
  · exact (advance literalInterpreter service input rfl records rfl).1

theorem run_submitted (requiresApproval : Bool) :
    ∃ recorder evidence, run (step literalInterpreter (demoService requiresApproval)) .initial
        [.request demoSubmit, .advance 0 (.answering 100 none), .advance 0 (.answering 100 none)] =
          some (demoSubmitted recorder evidence
            (submitted (demoService requiresApproval) (demoJob requiresApproval))) ∧
      recorder.Settled ∧ recorder.chain.length = 1 := by
  obtain ⟨recorder, evidence, first, second, settled, longer⟩ := step_submitted requiresApproval
  refine ⟨recorder, evidence, ?_, settled, longer⟩
  exact (run_cons _).mpr ⟨_, rfl, (run_cons _).mpr ⟨_, first, (run_cons _).mpr ⟨_, second, rfl⟩⟩⟩

end Instance

end Wiring

end GeniusNew
