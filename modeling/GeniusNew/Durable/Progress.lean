import GeniusNew.Audit.Acceptance
import GeniusNew.Audit.RoundTrip
import GeniusNew.Database.Commits
import GeniusNew.Durable.Growth
import GeniusNew.Hash.Evaluation
import GeniusNew.Service.Decisions

/-! # Jobs that go through

Where nothing fails, a job comes from phase to phase. What a transaction asks of the
tables holds of a job that was issued and of one that waits, and the chain takes the events
of its decisions unless two of its records had the same hash.
-/

namespace GeniusNew.Durable

open Json Database Transition Orchestrator
open Wiring (Job Notice Service Waiting)

section Steps

variable {interpreter : Interpreter} {authority : AuditAuthority} {state after : State}
  {input : Input}

/-- A step of a request, and where it leaves the request. -/
theorem advance {index : Nat} {request : Request} {phase : Phase}
    (own : state.requests[index]? = some request)
    (turned : turn interpreter state request input = some (phase, after))
    (kept : after.requests = state.requests) :
    ∃ next, step interpreter state (.advance index input) = some next ∧
      next.requests[index]? = some { request with phase } ∧ next.store = after.store ∧
      next.entries = after.entries ∧ next.requests.length = state.requests.length := by
  obtain ⟨inside, _⟩ := List.getElem?_eq_some_iff.mp own
  refine ⟨{ after with requests := after.requests.set index { request with phase } }, ?_, ?_, rfl, rfl,
    ?_⟩
  · exact Option.bind_eq_some_iff.mpr ⟨request, own, Option.bind_eq_some_iff.mpr ⟨_, turned, rfl⟩⟩
  · dsimp only
    rw [kept]
    exact List.getElem?_set_self inside
  · dsimp only
    rw [kept, List.length_set]

/-- Events that a chain takes one after the other: it stays short, and no two of its
records have one hash. -/
structure Room (events more : List AuditEvent) : Prop where
  few : events.length + more.length ≤ 7000
  distinct : ((recordsFrom 0 emptyHash (events ++ more.map AuditEvent.joined)).map
    CheckedRecord.recordHash).Nodup

theorem Room.append (interpreter : Interpreter) {before : AuditStore.Tables}
    {events more : List AuditEvent} {event : AuditEvent} (room : Room events (event :: more))
    (holds : AuditStore.Holds authority.verifier before events) : ∃ record audit,
      AuditStore.append interpreter authority event before = .ok (record, audit) ∧
        AuditStore.Holds authority.verifier audit (events ++ [event.joined]) ∧
        Room (events ++ [event.joined]) more := by
  obtain ⟨few, distinct⟩ := room
  rw [List.length_cons] at few
  rw [List.map_cons, List.append_cons] at distinct
  have first := distinct
  rw [recordsFrom_append, List.map_append] at first
  replace first := (List.nodup_append.mp first).1
  have same : AuditStore.nextHash events event.joined = AuditStore.nextHash events event := by
    rw [AuditStore.nextHash, AuditStore.nextRecord_joined]
    rfl
  have fresh : AuditStore.nextHash events event ∉
      (recordsFrom 0 emptyHash events).map CheckedRecord.recordHash := by
    rw [AuditStore.recordsFrom_concat, List.map_append, List.map_singleton] at first
    rw [← same]
    exact fun member => List.disjoint_of_nodup_append first member (List.mem_singleton_self _)
  have accepts : AuditStore.Accepts authority event before events :=
    ⟨holds, fresh, AuditStore.fits_of_few authority event (by omega)⟩
  obtain ⟨record, audit, appended⟩ := accepts.append interpreter
  obtain ⟨_, _, again, _, longer, _⟩ := AuditStore.holds_after_append appended
  obtain rfl := holds.unique again
  refine ⟨record, audit, appended, longer, ?_, distinct⟩
  rw [List.length_append, List.length_singleton]
  omega

/-- A transaction commits whose mutation succeeds and whose event the chain takes. -/
theorem commit_of_room (interpreter : Interpreter) {Failure Made : Type} {pass : Raised → Failure}
    (mutate : Tables → Except Failure (Made × Tables)) (event : Made → Outcome AuditEvent)
    {next : Made → Phase} {failed : Failure → Phase} {made : Made} {tables : Tables}
    {derived : AuditEvent} {events more : List AuditEvent}
    (answers : input.recovered = true ∧ input.acknowledged = true)
    (holds : AuditStore.Holds authority.verifier state.store.audit events)
    (room : Room events (derived :: more))
    (mutated : mutate state.store.tables = .ok (made, tables)) (derives : event made = .ok derived) :
    ∃ audit, state.commit input (state.store.atomic pass interpreter authority mutate event) next
        failed = (next made, { state with store := ⟨tables, audit⟩ }) ∧
      AuditStore.Holds authority.verifier audit (events ++ [derived.joined]) ∧
      Room (events ++ [derived.joined]) more := by
  obtain ⟨record, audit, appended, longer, later⟩ := room.append interpreter holds
  refine ⟨audit, ?_, longer, later⟩
  have done : state.store.atomic pass interpreter authority mutate event =
      .ok (made, ⟨tables, audit⟩) := by
    unfold Store.atomic
    rw [mutated]
    dsimp only [bind, Except.bind]
    rw [derives]
    dsimp only
    rw [appended]
    rfl
  unfold State.commit
  rw [if_neg (not_not.mpr answers.1), done]
  dsimp only
  rw [if_pos answers.2]

/-- What a step reads while nothing fails. -/
def Input.answering (now : Int) (drawn : Option Bytes) : Input :=
  ⟨now, drawn, .interrupted, true, true⟩

theorem answering (now : Int) (drawn : Option Bytes) : (Input.answering now drawn).recovered = true ∧
    (Input.answering now drawn).acknowledged = true := ⟨rfl, rfl⟩

end Steps

section Dispatch

variable {interpreter : Interpreter} {service : Service} {state : State} {call : Wiring.Call}
  {index : Nat} {job : Job} {now : Int} {drawn : Option Bytes}

/-- A job that the gateway admits and the ledger reserves and commits enters its worker. -/
theorem enters_of_admission {endpoint : WorkerEndpoint} {permit : DispatchPermit}
    {reservation : Reservation} {admitted committed : Tables} {second third : AuditEvent}
    {events : List AuditEvent}
    (own : state.requests[index]? = some ⟨service, call, .starting job⟩)
    (named : checkJobId job.jobId = .ok ())
    (routed : route service.orchestrator (service.presented job.subject job.jobId now) = .ok endpoint)
    (available : PostgresJobLedger.dispatchAvailable job.jobId job.subject
      (some (sha256 job.wire).val) state.store.tables = .ok true)
    (admits : admitAndReserve interpreter service job now state.store.tables =
      .ok ((permit, reservation), admitted))
    (commits : PostgresJobLedger.commitExecution reservation now admitted = .ok committed)
    (admission : admittedEvent service job.subject permit = .ok second)
    (dispatch : dispatchedEvent service ⟨job, now, endpoint, permit, reservation⟩ = .ok third)
    (holds : AuditStore.Holds service.audit.verifier state.store.audit events)
    (room : Room events [second, third]) :
    ∃ final, run (step interpreter) state
        (List.replicate 4 (.advance index (.answering now drawn))) = some final ∧
      final.entries = state.entries ++ [⟨service, ⟨job, now, endpoint, permit, reservation⟩⟩] := by
  let input := Input.answering now drawn
  have answers := answering now drawn
  have starts : start service state.store.tables job now = .admitting job now endpoint := by
    unfold start
    simp only [named, routed, bind, Except.bind, available]
  obtain ⟨one, started, own, store, entries, _⟩ := advance own
    (show turn interpreter state _ input = some (_, state) from
      congrArg (fun phase => some (phase, state)) starts) rfl
  rw [← store] at holds admits
  obtain ⟨audit, admitting, holds, room⟩ := commit_of_room interpreter
    (admitAndReserve interpreter service job now)
    (fun made => admittedEvent service job.subject made.1) answers holds room admits admission
  obtain ⟨two, reserved, own, store, entered, _⟩ := advance own (congrArg some admitting) rfl
  have committed_of : (do
      let tables ← PostgresJobLedger.commitExecution reservation now two.store.tables
      return ((), tables) : Outcome (Unit × Tables)) = .ok ((), committed) := by
    rw [store]
    exact bind_eq_ok.mpr ⟨committed, commits, rfl⟩
  have audited : two.store.audit = audit := by rw [store]
  rw [← audited] at holds
  obtain ⟨_, committing, _⟩ := commit_of_room interpreter
    (fun tables => do
      let tables ← PostgresJobLedger.commitExecution reservation now tables
      return ((), tables))
    (fun _ => dispatchedEvent service ⟨job, now, endpoint, permit, reservation⟩)
    answers holds room committed_of dispatch
  obtain ⟨three, dispatched, own, _, kept, _⟩ := advance own (congrArg some committing) rfl
  obtain ⟨four, called, _, _, added, _⟩ := advance own
    (show turn interpreter three _ input = some (_, _) from rfl) rfl
  refine ⟨four, ?_, ?_⟩
  · exact (run_cons _).mpr ⟨one, started, (run_cons _).mpr ⟨two, reserved, (run_cons _).mpr
      ⟨three, dispatched, (run_cons _).mpr ⟨four, called, rfl⟩⟩⟩⟩
  · rw [added]
    dsimp only
    rw [kept, entered, entries]

end Dispatch

section Admission

variable {interpreter : Interpreter} {service : Service} {job : Job} {endpoint : WorkerEndpoint}
  {now : Int} {before middle after : Tables} {approval : Option Digest}

/-- The permit that the gateway gives a job. -/
def permitOf (service : Service) (job : Job) (now : Int) (approval : Option Digest) :
    DispatchPermit :=
  ⟨job.handoff, sha256 job.wire, service.gatewayId, now, approval⟩

/-- The reservation that a dispatch makes of a job. -/
def reservationOf (job : Job) (now : Int) : Reservation :=
  ⟨job.jobId, job.subject, sha256 job.wire, job.handoff.expiresAt, now⟩

/-- A dispatch of a job that goes through. -/
def attemptOf (service : Service) (job : Job) (now : Int) (endpoint : WorkerEndpoint)
    (approval : Option Digest) : Attempt :=
  ⟨job, now, endpoint, permitOf service job now approval, reservationOf job now⟩

/-- A job whose handoff is current, that has a route, and whose texts the ledger can keep. -/
structure Dispatchable (interpreter : Interpreter) (service : Service) (job : Job) (now : Int)
    (endpoint : WorkerEndpoint) (pending : Bool) : Prop where
  named : checkJobId job.jobId = .ok ()
  routed : route service.orchestrator (service.presented job.subject job.jobId now) = .ok endpoint
  texts : Storable job.jobId ∧ Storable job.subject
  finite : job.handoff.expiresAt ≤ maxTime
  validated : Validated interpreter (some job.wire) (service.presented job.subject job.jobId now)
    service.signer.verifier pending job.handoff

namespace Dispatchable

variable {pending : Bool}

theorem toBytes (ready : Dispatchable interpreter service job now endpoint pending) :
    job.handoff.toBytes = job.wire := read_toBytes ⟨_, _, ready.validated⟩

theorem inRange (ready : Dispatchable interpreter service job now endpoint pending) :
    Orchestrator.inRange now ∧ Orchestrator.inRange job.handoff.expiresAt := by
  obtain ⟨current, _⟩ := guarded_eq_ok.mp ready.routed
  have bounds : Orchestrator.inRange now := not_not.mp current
  exact ⟨bounds, (bounds.1.trans_lt ready.validated.current.2).le, ready.finite⟩

theorem reservation (ready : Dispatchable interpreter service job now endpoint pending) :
    Orchestrator.reservation job.jobId job.subject (sha256 job.wire) job.handoff.expiresAt now =
      .ok (reservationOf job now) := by
  obtain ⟨nonempty, named⟩ := guarded_eq_ok.mp ready.named
  obtain ⟨short, _⟩ := guarded_eq_ok.mp named
  obtain ⟨present, expires⟩ := ready.inRange
  obtain ⟨_, granted, _⟩ := ready.validated.granted
  obtain ⟨_, subject, _⟩ := bind_eq_ok.mp granted
  obtain ⟨owned, _⟩ := guarded_eq_ok.mp subject
  unfold Orchestrator.reservation
  exact guarded_eq_ok.mpr ⟨nonempty, guarded_eq_ok.mpr ⟨owned, guarded_eq_ok.mpr ⟨short,
    guarded_eq_ok.mpr ⟨not_not.mpr expires, guarded_eq_ok.mpr ⟨not_not.mpr present,
      guarded_eq_ok.mpr ⟨not_le.mpr ready.validated.current.2, rfl⟩⟩⟩⟩⟩⟩

theorem permit (ready : Dispatchable interpreter service job now endpoint pending)
    (approval : Option Digest) : service.gateway.permit job.handoff now approval =
      .ok (permitOf service job now approval) := by
  refine permit_eq_ok.mpr ⟨sha256 job.wire, ?_, ready.validated.current, rfl⟩
  refine handoffDigest_eq_ok.mpr ⟨ready.validated.hashed, ?_⟩
  rw [ready.toBytes]

theorem admitAndReserve (ready : Dispatchable interpreter service job now endpoint pending)
    (admits : admission interpreter service.gateway job.wire
      (service.presented job.subject job.jobId now) job.approvalToken before =
        .ok (permitOf service job now approval, middle))
    (reserves : PostgresJobLedger.reserveAdmitted interpreter (reservationOf job now)
      (approval.map Subtype.val) middle = .ok (true, after)) :
    Durable.admitAndReserve interpreter service job now before =
      .ok ((permitOf service job now approval, reservationOf job now), after) := by
  have digested : handoffDigest job.handoff = .ok (sha256 job.wire) :=
    handoffDigest_eq_ok.mpr ⟨ready.validated.hashed, by rw [ready.toBytes]⟩
  have reserved : reserve interpreter (reservationOf job now) approval middle = .ok after :=
    bind_eq_ok.mpr ⟨_, reserves, rfl⟩
  have wired : (permitOf service job now approval).handoff.toBytes = job.wire := ready.toBytes
  refine bind_eq_ok.mpr ⟨_, admits, ?_⟩
  dsimp only
  rw [if_neg (not_not.mpr wired)]
  exact bind_eq_ok.mpr ⟨_, passing_eq_ok.mpr digested, bind_eq_ok.mpr
    ⟨_, passing_eq_ok.mpr ready.reservation, bind_eq_ok.mpr ⟨_, passing_eq_ok.mpr reserved, rfl⟩⟩⟩

theorem storable (ready : Dispatchable interpreter service job now endpoint pending) :
    (reservedJob (reservationOf job now)).storable = true := by
  obtain ⟨present, expires⟩ := ready.inRange
  have reserved := isBigint_of_inRange present
  exact decide_eq_true ⟨(length_digest _).le, reserved, reserved, reserved,
    isBigint_of_inRange expires⟩

/-- A job that needs no approval is admitted without one. -/
theorem admission_free (ready : Dispatchable interpreter service job now endpoint false)
    (tokenless : job.approvalToken = none)
    (validates : validate interpreter (some job.wire)
      (service.presented job.subject job.jobId now) service.signer.verifier = .ok job.handoff) :
    admission interpreter service.gateway job.wire
      (service.presented job.subject job.jobId now) job.approvalToken before =
        .ok (permitOf service job now none, before) := by
  obtain ⟨grant, granted, _, free⟩ := ready.validated.granted
  refine bind_eq_ok.mpr ⟨grant, rejecting_eq_ok.mpr granted, ?_⟩
  rw [if_neg (ne_true_of_eq_false free), tokenless]
  exact bind_eq_ok.mpr ⟨_, rejecting_eq_ok.mpr validates,
    bind_eq_ok.mpr ⟨_, ready.permit none, rfl⟩⟩

/-- A job that needs an approval is admitted when one is consumed for it. -/
theorem admission_approved {token : Bytes} {scope : ApprovalScope} {receipt : ApprovalReceipt}
    (ready : Dispatchable interpreter service job now endpoint true)
    (presents : job.approvalToken = some token)
    (validates : validatePending interpreter (some job.wire)
      (service.presented job.subject job.jobId now) service.signer.verifier = .ok job.handoff)
    (scopes : job.handoff.scope = .ok scope)
    (consumes : PostgresApprovalStore.consume interpreter token scope now job.subject before =
      .ok (receipt, middle)) :
    admission interpreter service.gateway job.wire
      (service.presented job.subject job.jobId now) job.approvalToken before =
        .ok (permitOf service job now (some receipt.recordHash), middle) := by
  obtain ⟨grant, granted, _, required⟩ := ready.validated.granted
  refine bind_eq_ok.mpr ⟨grant, rejecting_eq_ok.mpr granted, ?_⟩
  rw [if_pos required, presents]
  have waits : service.gateway.pendingHandoff interpreter (some job.wire)
      (service.presented job.subject job.jobId now) = .ok (job.handoff, scope) :=
    bind_eq_ok.mpr ⟨_, rejecting_eq_ok.mpr validates, bind_eq_ok.mpr
      ⟨_, rejecting_eq_ok.mpr (createScope_eq_ok.mpr ⟨_, validates, scopes⟩), rfl⟩⟩
  exact bind_eq_ok.mpr ⟨_, waits, bind_eq_ok.mpr ⟨_, rejecting_eq_ok.mpr consumes,
    bind_eq_ok.mpr ⟨_, ready.permit _, rfl⟩⟩⟩

end Dispatchable

end Admission

/-- The chain takes the events of some decisions one after the other. -/
def Recordable (interpreter : Interpreter) (authority : AuditAuthority) (state : State)
    (decisions : List (Outcome AuditEvent)) : Prop :=
  ∃ events made, ReadsBack interpreter authority state events ∧
    List.Forall₂ (fun decision event => decision = .ok event) decisions made ∧ Room events made

section Submission

variable {interpreter : Interpreter} {authority : AuditAuthority} {state : State}

/-- A new request stands at the end, and nothing else happened. -/
theorem request_called (interpreter : Interpreter) (state : State) (service : Service)
    (call : Wiring.Call) : ∃ next,
      step interpreter state (.request service call) = some next ∧
        next.requests[state.requests.length]? = some ⟨service, call, .called⟩ ∧
        next.store = state.store ∧ next.entries = state.entries ∧
        next.requests.length = state.requests.length + 1 := by
  refine ⟨_, rfl, ?_, rfl, rfl, List.length_append⟩
  exact List.getElem?_concat_length

/-- What was checked of a job that is issued without an approval. -/
theorem issueJob_free {service : Service} {subject jobId : Str} {payload : Value} {now : Int}
    {job : Job} {grant : Grant}
    (issued : Wiring.issueJob interpreter service subject jobId payload now = .ok job)
    (granted : service.policy.grantFor subject = .ok grant) (free : grant.requiresApproval = false) :
    job.subject = subject ∧ job.jobId = jobId ∧ job.approvalToken = none ∧
      checkJobId jobId = .ok () ∧
      validate interpreter (some job.wire) (service.presented subject jobId now)
        service.signer.verifier = .ok job.handoff := by
  obtain ⟨_, _, issued⟩ := bind_eq_ok.mp issued
  obtain ⟨wire, admitted, issued⟩ := bind_eq_ok.mp issued
  obtain ⟨handoff, read, issued⟩ := bind_eq_ok.mp issued
  obtain ⟨trace, _, same⟩ := bind_eq_ok.mp issued
  obtain rfl := pure_eq_ok.mp same
  obtain ⟨_, admitted⟩ := guarded_eq_ok.mp admitted
  obtain ⟨_, admitted⟩ := guarded_eq_ok.mp admitted
  obtain ⟨_, named, _⟩ := bind_eq_ok.mp admitted
  obtain ⟨other, found, read⟩ := bind_eq_ok.mp read
  obtain rfl := Except.ok.inj (granted.symm.trans found)
  rw [if_neg (ne_true_of_eq_false free)] at read
  exact ⟨rfl, rfl, rfl, named, read⟩

/-- What was checked of a job that is issued to wait. -/
theorem issueJob_pending {service : Service} {subject jobId : Str} {payload : Value} {now : Int}
    {job : Job} {grant : Grant}
    (issued : Wiring.issueJob interpreter service subject jobId payload now = .ok job)
    (granted : service.policy.grantFor subject = .ok grant) (waits : grant.requiresApproval = true) :
    job.subject = subject ∧ job.jobId = jobId ∧
      job.traceId = str "trace-" ++ (sha256 job.wire).val.take 16 ∧
      validatePending interpreter (some job.wire) (service.presented subject jobId now)
        service.signer.verifier = .ok job.handoff := by
  obtain ⟨_, _, issued⟩ := bind_eq_ok.mp issued
  obtain ⟨wire, _, issued⟩ := bind_eq_ok.mp issued
  obtain ⟨handoff, read, issued⟩ := bind_eq_ok.mp issued
  obtain ⟨trace, traced, same⟩ := bind_eq_ok.mp issued
  obtain rfl := pure_eq_ok.mp same
  obtain ⟨other, found, read⟩ := bind_eq_ok.mp read
  obtain rfl := Except.ok.inj (granted.symm.trans found)
  rw [if_pos waits] at read
  obtain ⟨digest, digested, traced⟩ := bind_eq_ok.mp traced
  obtain ⟨_, rfl⟩ := handoffDigest_eq_ok.mp digested
  refine ⟨rfl, rfl, ?_, read⟩
  rw [← Except.ok.inj traced, read_toBytes ⟨_, _, validatePending_validated read⟩]

/-- A job that asks for an approval waits for it. -/
theorem submitted_waits {service : Service} {subject jobId : Str} {payload : Value} {now : Int}
    {job : Job} {first : AuditEvent} {events more : List AuditEvent}
    (queued : Queued state.store.tables) (current : inRange now)
    (issued : Wiring.issueJob interpreter service subject jobId payload now = .ok job)
    (needs : ∃ grant, service.policy.grantFor subject = .ok grant ∧ grant.requiresApproval = true)
    (fresh : jobId ∉ state.store.tables.jobs) (texts : Storable jobId ∧ Storable subject)
    (space : state.store.tables.pending.count (fun row => row.expiresAt > now) <
      Wiring.PendingJobs.maxPending)
    (decided : issuedEvent service job now = .ok first)
    (holds : AuditStore.Holds service.audit.verifier state.store.audit events)
    (room : Room events (first :: more)) :
    ∃ next, run (step interpreter) state
        (.request service (.submit subject jobId payload) ::
          List.replicate 2 (.advance state.requests.length (.answering now none))) = some next ∧
      next.store.tables = { state.store.tables with
        jobs := state.store.tables.jobs.insert jobId (waitingJob job.waiting now)
        pending := state.store.tables.pending.insert jobId (waitingRow job.waiting) } ∧
      AuditStore.Holds service.audit.verifier next.store.audit (events ++ [first.joined]) ∧
      Room (events ++ [first.joined]) more ∧ next.entries = state.entries ∧
      next.requests.length = state.requests.length + 1 := by
  obtain ⟨grant, granted, needs⟩ := needs
  obtain ⟨zero, called, own, store, kept, length⟩ :=
    request_called interpreter state service (.submit subject jobId payload)
  have begins : begin_ interpreter service zero.store.tables (.answering now none)
      (.submit subject jobId payload) = .queueing job now := by
    unfold begin_
    dsimp only [Input.answering]
    rw [issued]
    dsimp only
    rw [granted]
    dsimp only
    rw [if_pos needs]
  obtain ⟨one, begun, own, store', kept', length'⟩ := advance own
    (show turn interpreter zero _ (.answering now none) = some (_, zero) from
      congrArg (fun phase => some (phase, zero)) begins) rfl
  have same : one.store = state.store := store'.trans store
  obtain ⟨rfl, rfl, traced, validated⟩ := issueJob_pending issued granted needs
  have added : PostgresPendingJobs.add interpreter service.policy service.signer.verifier job.jobId
      job.waiting now state.store.tables = _ :=
    add_of_fresh queued current validated traced space fresh texts.1 texts.2
  rw [← same] at added holds
  obtain ⟨audit, committed, holds, room⟩ := commit_of_room interpreter
    (fun tables => do
      let tables ← PostgresPendingJobs.add interpreter service.policy service.signer.verifier
        job.jobId job.waiting now tables
      return ((), tables))
    (fun _ => issuedEvent service job now) (answering now none) holds room
    (bind_eq_ok.mpr ⟨_, added, rfl⟩) decided
  obtain ⟨two, stored, _, store'', kept'', length''⟩ := advance own (congrArg some committed) rfl
  refine ⟨two, ?_, ?_, ?_, room, ?_, ?_⟩
  · exact (run_cons _).mpr ⟨zero, called, (run_cons _).mpr ⟨one, begun, (run_cons _).mpr
      ⟨two, stored, rfl⟩⟩⟩
  · rw [store'', ← same]
  · rw [store'']
    exact holds
  · rw [kept'']
    exact kept'.trans kept
  · rw [length'', length', length]

end Submission

/-- A job that asks for no approval and whose id is free is issued, admitted and dispatched
by the steps of its request, from every state whose chain takes the events of the three
decisions. -/
theorem submitted_enters (interpreter : Interpreter) (state : State) (service : Service)
    (subject jobId : Str) (payload : Value) (now later : Int) (job : Job) (endpoint : WorkerEndpoint)
    (issued : Wiring.issueJob interpreter service subject jobId payload now = .ok job)
    (free : ∃ grant, service.policy.grantFor subject = .ok grant ∧ grant.requiresApproval = false)
    (fresh : jobId ∉ state.store.tables.jobs) (texts : Storable jobId ∧ Storable subject)
    (window : now ≤ later ∧ later < job.handoff.expiresAt) (finite : job.handoff.expiresAt ≤ maxTime)
    (routed : route service.orchestrator (service.presented subject jobId later) = .ok endpoint)
    (recordable : Recordable interpreter service.audit state [issuedEvent service job now,
      admittedEvent service subject (permitOf service job later none),
      dispatchedEvent service (attemptOf service job later endpoint none)]) :
    ∃ final, run (step interpreter) state
        (.request service (.submit subject jobId payload) ::
          .advance state.requests.length (.answering now none) ::
          .advance state.requests.length (.answering now none) ::
          List.replicate 4 (.advance state.requests.length (.answering later none))) = some final ∧
      final.entries = state.entries ++ [⟨service, attemptOf service job later endpoint none⟩] := by
  obtain ⟨grant, granted, free⟩ := free
  obtain ⟨events, made, reads, decisions, room⟩ := recordable
  obtain _ | ⟨first, _ | ⟨second, _ | ⟨third, _ | _⟩⟩⟩ := decisions
  obtain ⟨zero, called, own, store, kept, _⟩ :=
    request_called interpreter state service (.submit subject jobId payload)
  have begins : begin_ interpreter service zero.store.tables (.answering now none)
      (.submit subject jobId payload) = .issued job now := by
    unfold begin_
    dsimp only [Input.answering]
    rw [issued]
    dsimp only
    rw [granted]
    dsimp only
    rw [if_neg (ne_true_of_eq_false free)]
  obtain ⟨one, begun, own, issuing, kept', _⟩ := advance own
    (show turn interpreter zero _ (.answering now none) = some (_, zero) from
      congrArg (fun phase => some (phase, zero)) begins) rfl
  have same : one.store = state.store := issuing.trans store
  have holds := reads.holds
  rw [← same] at holds fresh
  obtain ⟨audit, records, holds, room⟩ := commit_of_room interpreter
    (fun tables => (.ok ((), tables) : Outcome (Unit × Tables)))
    (fun _ => issuedEvent service job now) (answering now none) holds room rfl first
  obtain ⟨two, recorded, own, stored, kept'', _⟩ := advance own (congrArg some records) rfl
  obtain ⟨rfl, rfl, tokenless, named, validates⟩ := issueJob_free issued granted free
  have started := (validate_validated validates).current.1.trans window.1
  have current := validate_current validates started window.2
  have ready : Dispatchable interpreter service job later endpoint false :=
    ⟨named, routed, texts, finite, validate_validated current⟩
  have tables : two.store.tables = one.store.tables := by rw [stored]
  have free_ : job.jobId ∉ two.store.tables.jobs := by
    rw [tables]
    exact fresh
  have admits := ready.admitAndReserve (ready.admission_free tokenless current)
    (reserve_of_fresh texts.1 texts.2 ready.inRange free_)
  have commits : PostgresJobLedger.commitExecution (reservationOf job later) later
      { two.store.tables with
        jobs := two.store.tables.jobs.insert job.jobId (reservedJob (reservationOf job later)) } = _ :=
    commitExecution_of_reserved texts.1 (AList.lookup_insert _) rfl rfl ready.storable rfl
      ready.inRange.1
  have audited : two.store.audit = audit := by rw [stored]
  rw [← audited] at holds
  obtain ⟨final, enters, entered⟩ := enters_of_admission own named routed
    (available_of_fresh texts.1 free_) admits commits second third holds room
  refine ⟨final, ?_, ?_⟩
  · exact (run_cons _).mpr ⟨zero, called, (run_cons _).mpr ⟨one, begun, (run_cons _).mpr
      ⟨two, recorded, enters⟩⟩⟩
  · rw [entered, kept'', kept', kept]
    rfl

end GeniusNew.Durable
