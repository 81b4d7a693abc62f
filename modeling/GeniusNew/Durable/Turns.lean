import GeniusNew.Audit.RoundTrip
import GeniusNew.Database.Refinement
import GeniusNew.Durable.Held
import GeniusNew.Results.SingleUse

/-! # What one step of a request does

A step of a request keeps the tables and goes on with what it was told, or it commits
one transaction with its event. What is committed is described once for every kind of
step, with what the request holds afterwards.
-/

namespace GeniusNew.Durable

open Json Database PostgresAuditChain
open Wiring (Call Job Notice Refusal Waiting WorkerAnswer milestones)

/-- The id of a job that is still to be issued, as the event will carry it. -/
def Request.due (request : Request) : Option Str :=
  match request.phase with
  | .called => request.call.minted.bind audited
  | .queueing job _ | .issued job _ => audited job.jobId
  | _ => none

/-- The event of a granted approval names an approver who is not the user of the job. -/
structure Endorses (service : Wiring.Service) (event : AuditEvent) (record : ApprovalRecord) :
    Prop where
  action : event.action = .approvalGranted
  receipt : event.approvalRecordHash = some record.recordHash
  approver : ∃ approver userId bytes, service.approvers.userId (some approver) = .ok userId ∧
    userId ≠ record.scope.userId ∧ subjectBytes approver = .ok bytes ∧
    event.bindings = .bound (sha256 bytes) none

/-- A request with what it does next. -/
abbrev Request.at_ (request : Request) (phase : Phase) : Request := { request with phase }

/-- The job of a request is put among the ones that wait, as its instance checks them. -/
def Queues (interpreter : Interpreter) (service : Wiring.Service) (before after : Tables) : Prop :=
  ∃ jobId waiting now, Effect interpreter before
    (.add service.policy service.signer.verifier jobId waiting now) after

/-- What a transaction of a request commits, and how the request goes on. -/
structure Committed (interpreter : Interpreter) (before : Tables) (events : List AuditEvent)
    (request : Request) (phase : Phase) (tables : Tables) (event : AuditEvent) : Prop where
  commits : Commits interpreter before events tables event
  keys : ∀ jobId ∈ tables.jobs, jobId ∈ before.jobs ∨ request.call.minted = some jobId
  issues : event.action = .handoffIssued → request.due = some event.jobId.val ∧
    (tables = before ∨ Queues interpreter request.service before tables)
  grants : ∀ recordHash row record, tables.records.lookup recordHash = some row →
    Holds interpreter recordHash row record → record.state = .granted →
    before.records.lookup recordHash = some row ∨ Endorses request.service event record
  enters : ∀ attempt, phase = .entering attempt → ∃ row,
    before.jobs.lookup attempt.job.jobId = some row ∧ row.state = .reserved
  due : (request.at_ phase).due = none
  held : phase.Held interpreter request.service request.call tables (events ++ [event])

/-- Everything a step of a request does. -/
inductive Turned (interpreter : Interpreter) (authority : AuditAuthority) (state : State)
    (events : List AuditEvent) (request : Request) : Phase → State → Prop
  | stays {phase : Phase}
      (held : phase.Held interpreter request.service request.call state.store.tables events)
      (due : (request.at_ phase).due = none ∨ (request.at_ phase).due = request.due)
      (outside : ∀ attempt, phase ≠ .entering attempt) :
      Turned interpreter authority state events request phase state
  | enters {attempt : Attempt} (before : request.phase = .entering attempt) :
      Turned interpreter authority state events request (.running attempt)
        { state with entries := state.entries ++ [⟨request.service, attempt⟩] }
  | commits {phase : Phase} {tables : Tables} {audit : AuditStore.Tables} {event : AuditEvent}
      (committed : Committed interpreter state.store.tables events request phase tables event)
      (chain : AuditStore.Holds authority.verifier audit (events ++ [event])) :
      Turned interpreter authority state events request phase
        { state with store := ⟨tables, audit⟩ }

section Commit

variable {interpreter : Interpreter} {authority : AuditAuthority} {state after : State}
  {events : List AuditEvent} {request : Request} {phase then_ : Phase} {input : Input}
  {tables later : Tables} {event : AuditEvent}

theorem Turned.raised : Turned interpreter authority state events request .raised state :=
  .stays trivial (.inl rfl) fun _ => Phase.noConfusion

theorem Committed.raised
    (committed : Committed interpreter tables events request then_ later event) :
    Committed interpreter tables events request .raised later event where
  commits := committed.commits
  keys := committed.keys
  issues := committed.issues
  grants := committed.grants
  enters := fun _ => Phase.noConfusion
  due := rfl
  held := trivial

theorem mapError_eq_ok {Failure Made : Type} {pass : Raised → Failure} {outcome : Outcome Made}
    {made : Made} : outcome.mapError pass = .ok made ↔ outcome = .ok made := by
  cases outcome with
  | error raised => exact ⟨(fun same => nomatch same), fun same => nomatch same⟩
  | ok value => exact ⟨fun same => congrArg _ (Except.ok.inj same),
      fun same => congrArg _ (Except.ok.inj same)⟩

/-- What a transaction commits: its mutation, and the event as it will be read. -/
structure Transacted {Failure Made : Type} (interpreter : Interpreter) (authority : AuditAuthority)
    (before after : State) (mutate : Tables → Except Failure (Made × Tables))
    (event : Made → Outcome AuditEvent) (made : Made) (derived : AuditEvent) (tables : Tables)
    (audit : AuditStore.Tables) : Prop where
  mutated : mutate before.store.tables = .ok (made, tables)
  derives : event made = .ok derived
  appended : ∃ record, AuditStore.append interpreter authority derived before.store.audit =
    .ok (record, audit)
  same : after = { before with store := ⟨tables, audit⟩ }

/-- What `recorder.atomic` does: nothing, or it commits a mutation with its event. -/
theorem commit_cases {Failure Made : Type} {pass : Raised → Failure}
    {mutate : Tables → Except Failure (Made × Tables)} {event : Made → Outcome AuditEvent}
    {next : Made → Phase} {failed : Failure → Phase}
    (committed : state.commit input (state.store.atomic pass interpreter authority mutate event)
      next failed = (phase, after)) :
    (after = state ∧ (phase = .raised ∨ ∃ failure, phase = failed failure)) ∨
    ∃ made derived tables audit,
      Transacted interpreter authority state after mutate event made derived tables audit ∧
      (phase = next made ∨ phase = .raised) := by
  unfold State.commit at committed
  by_cases recovered : input.recovered = true
  swap
  · rw [if_pos recovered] at committed
    obtain ⟨rfl, rfl⟩ := Prod.mk.inj committed
    exact .inl ⟨rfl, .inl rfl⟩
  rw [if_neg (not_not.mpr recovered)] at committed
  cases done : state.store.atomic pass interpreter authority mutate event with
  | error failure =>
      rw [done] at committed
      obtain ⟨rfl, rfl⟩ := Prod.mk.inj committed
      exact .inl ⟨rfl, .inr ⟨failure, rfl⟩⟩
  | ok committed_ =>
    obtain ⟨made, store⟩ := committed_
    rw [done] at committed
    obtain ⟨⟨made, tables⟩, mutated, done⟩ := bind_eq_ok.mp done
    obtain ⟨⟨record, audit⟩, noted, done⟩ := bind_eq_ok.mp done
    obtain ⟨rfl, rfl⟩ := Prod.mk.inj (pure_eq_ok.mp done)
    obtain ⟨derived, derives, appended⟩ := bind_eq_ok.mp (mapError_eq_ok.mp noted)
    obtain ⟨rfl, rfl⟩ := Prod.mk.inj committed
    refine .inr ⟨made, derived, tables, audit, ⟨mutated, derives, ⟨record, appended⟩, rfl⟩, ?_⟩
    split_ifs
    · exact .inl rfl
    · exact .inr rfl

variable (chain : AuditStore.Holds authority.verifier state.store.audit events)
include chain

/-- A transaction as a step of its request. -/
theorem turned_of_commit {Failure Made : Type} {pass : Raised → Failure}
    {mutate : Tables → Except Failure (Made × Tables)} {event : Made → Outcome AuditEvent}
    {next : Made → Phase} {failed : Failure → Phase}
    (committed : state.commit input (state.store.atomic pass interpreter authority mutate event)
      next failed = (phase, after))
    (refused : ∀ failure, (failed failure).Held interpreter request.service request.call
      state.store.tables events ∧ (request.at_ (failed failure)).due = none ∧
        ∀ attempt, failed failure ≠ .entering attempt)
    (done : ∀ made derived tables, mutate state.store.tables = .ok (made, tables) →
      event made = .ok derived → Committed interpreter state.store.tables events request (next made)
        tables derived.joined) :
    Turned interpreter authority state events request phase after := by
  obtain ⟨rfl, ends⟩ | ⟨made, derived, tables, audit, transacted, ends⟩ := commit_cases committed
  · obtain rfl | ⟨failure, rfl⟩ := ends
    · exact .raised
    · obtain ⟨held, due, outside⟩ := refused failure
      exact .stays held (.inl due) outside
  · obtain ⟨mutated, derives, ⟨record, appended⟩, rfl⟩ := transacted
    obtain ⟨before, _, holds, _, longer, _⟩ := AuditStore.holds_after_append appended
    obtain rfl := chain.unique holds
    have complete := done made derived tables mutated derives
    obtain rfl | rfl := ends
    · exact .commits complete longer
    · exact .commits complete.raised longer

end Commit

section Events

variable {interpreter : Interpreter} {service : Wiring.Service} {subject owner jobId traceId : Str}
  {wire : Bytes} {handoff : Handoff} {notice : Notice} {event derived : AuditEvent}

theorem read_toBytes (read : Wiring.Read interpreter service owner jobId wire handoff) :
    handoff.toBytes = wire := by
  obtain ⟨_, _, validated⟩ := read
  obtain ⟨data, same, encoded⟩ := validated.encoded
  rw [Option.some.inj same]
  exact (canonical_eq_ok.mp encoded).2.2.symm

theorem approvalState_of_validated {presented : Presented}
    {verifier : HandoffVerifier} {pending : Bool}
    (validated : Validated interpreter (some wire) presented verifier pending handoff) :
    handoff.approvalState = pendingApproval ↔ pending = true := by
  obtain ⟨grant, _, granted, same⟩ := validated.granted
  rw [granted.approvalState, approvalState_eq_pending, same]

/-- What is read back of an event that was derived from the handoff of a job. -/
structure Recounts (event : AuditEvent) (handoff : Handoff) (notice : Notice) (jobId subject : Str)
    (wire : Bytes) : Prop where
  tells : Tells event handoff notice subject
  about : About event jobId subject (sha256 wire).val

theorem recounts_of_event (read : Wiring.Read interpreter service owner jobId wire handoff)
    (derives : notice.event handoff traceId subject = .ok derived) :
    Recounts derived.joined handoff notice jobId subject wire := by
  have plain : handoff.Plain := by
    obtain ⟨_, _, validated⟩ := read
    exact validated.plain
  have tells := (tells_of_event derives).joined plain
  obtain ⟨bytes, encoded, bound⟩ := tells.bindings
  refine ⟨tells, ?_, ⟨bytes, notice.resultSha256, encoded, bound⟩, ?_⟩
  · rw [← read.jobId]
    exact tells.jobId
  · rw [tells.digest, read_toBytes read]

/-- An issuance that does not wait shows in no register. -/
theorem silent_issued (action : event.action = .handoffIssued)
    (reason : event.reasonCode.val ≠ pendingApprovalReason) : Silent event := by
  obtain ⟨shown, unapproved⟩ := shown_issued action
  exact ⟨fun _ => reason, shown.admission, shown.execution, shown.refusal, unapproved,
    shown.result⟩

/-- A refusal that ends no waiting job shows in no register. -/
theorem silent_refused (action : event.action = .handoffRejected ∨ event.action = .resultRejected)
    (reason : event.reasonCode.val ∉ terminalPendingRefusals) : Silent event := by
  obtain action | action := action
  · constructor <;> simp [admissionEvent, executionEvent, refusalEvent, approvalEvent, resultEvent,
      action, reason]
  · constructor <;> simp [admissionEvent, executionEvent, refusalEvent, approvalEvent, resultEvent,
      action]

theorem not_terminal (service : Wiring.Service) (handoff : Handoff) (refusal : Refusal) :
    str (refusal.notice service handoff).reasonCode ∉ terminalPendingRefusals := by
  have rejected (reason : Rejection) : str reason.code ∉ terminalPendingRefusals := by
    cases reason <;> decide
  have denied (denial : Orchestrator.Denial) : str denial.code ∉ terminalPendingRefusals := by
    cases denial <;> decide
  have verified (code : ResultVerifier.Code) : str code.text ∉ terminalPendingRefusals := by
    cases code <;> decide
  have executed : str "EXECUTION_REFUSED" ∉ terminalPendingRefusals := by decide
  cases refusal with
  | gateway reason now => exact rejected reason
  | orchestrator denial now => exact denied denial
  | worker now => exact executed
  | verifier code now => exact verified code

theorem refusal_action (service : Wiring.Service) (handoff : Handoff) (refusal : Refusal) :
    (refusal.notice service handoff).action = .handoffRejected ∨
      (refusal.notice service handoff).action = .resultRejected := by
  cases refusal with
  | verifier code now => exact .inr rfl
  | _ => exact .inl rfl

end Events

section Issuance

variable {interpreter : Interpreter} {service : Wiring.Service} {call : Call} {state after : State}
  {events : List AuditEvent} {phase : Phase} {input : Input} {job : Job} {issuedAt : Int}

/-- Where the records stay, no grant is new. -/
theorem grants_of_records {before tables : Tables} {event : AuditEvent}
    (records : tables.records = before.records) (recordHash : Str) (row : ApprovalRow)
    (record : ApprovalRecord) (found : tables.records.lookup recordHash = some row)
    (_ : Holds interpreter recordHash row record) (_ : record.state = .granted) :
    before.records.lookup recordHash = some row ∨ Endorses service event record :=
  .inl (records ▸ found)

/-- Where a row is written over, no job is new. -/
theorem keys_of_insert {before tables : Tables} {jobId : Str} {old row : JobRow}
    (jobs : tables.jobs = before.jobs.insert jobId row)
    (found : before.jobs.lookup jobId = some old) (other : Str) (member : other ∈ tables.jobs) :
    other ∈ before.jobs ∨ call.minted = some other := by
  rw [jobs] at member
  obtain rfl | older := (AList.mem_insert _).mp member
  · exact .inl (Table.mem_iff.mpr ⟨old, found⟩)
  · exact .inl older

theorem issueJob_approvalState {subject jobId : Str} {payload : Value} {now : Int} {grant : Grant}
    (issued : Wiring.issueJob interpreter service subject jobId payload now = .ok job)
    (granted : service.policy.grantFor subject = .ok grant) :
    job.handoff.approvalState = pendingApproval ↔ grant.requiresApproval = true := by
  simp only [Wiring.issueJob, bind_eq_ok] at issued
  obtain ⟨_, _, wire, _, handoff, validated, traceId, _, same⟩ := issued
  obtain rfl := pure_eq_ok.mp same
  obtain ⟨again, found, validated⟩ := bind_eq_ok.mp validated
  obtain rfl := Except.ok.inj (granted.symm.trans found)
  by_cases required : grant.requiresApproval = true
  · rw [if_pos required] at validated
    rw [approvalState_of_validated (validatePending_validated validated), required]
  · rw [if_neg required] at validated
    rw [approvalState_of_validated (validate_validated validated), eq_false_of_ne_true required]

variable (chain : AuditStore.Holds service.audit.verifier state.store.audit events)
include chain

theorem queueing_turned
    (held : (Phase.queueing job issuedAt).Held interpreter service call state.store.tables events)
    (turned : turn interpreter state ⟨service, call, .queueing job issuedAt⟩ input =
      some (phase, after)) :
    Turned interpreter service.audit state events ⟨service, call, .queueing job issuedAt⟩ phase
      after := by
  refine turned_of_commit chain (Option.some.inj turned)
    (fun _ => ⟨trivial, rfl, fun _ => Phase.noConfusion⟩) fun _ derived tables mutated derives => ?_
  obtain ⟨middle, added, same⟩ := bind_eq_ok.mp mutated
  obtain ⟨_, rfl⟩ := Prod.mk.inj (pure_eq_ok.mp same)
  obtain ⟨sound, called⟩ := held
  obtain ⟨tells, about⟩ := recounts_of_event sound.read derives
  have effect := add_effect added
  have reason : derived.joined.reasonCode.val = pendingApprovalReason := by
    cases effect with
    | add validated =>
        have waits := (approvalState_of_validated (validatePending_validated validated)).mpr rfl
        rw [tells.reason]
        exact congrArg str (if_pos waits)
  have added_ : middle.jobs = state.store.tables.jobs.insert job.jobId
      (waitingJob job.waiting input.now) ∧ middle.records = state.store.tables.records := by
    cases effect
    exact ⟨rfl, rfl⟩
  exact {
    commits := .queued effect about tells.action reason
    keys := by
      intro jobId member
      rw [added_.1] at member
      obtain rfl | older := (AList.mem_insert _).mp member
      · exact .inr called
      · exact .inl older
    issues := fun _ => ⟨about.audited, .inr ⟨_, _, _, effect⟩⟩
    grants := grants_of_records added_.2
    enters := fun _ => Phase.noConfusion
    due := rfl
    held := trivial }

theorem issued_turned
    (held : (Phase.issued job issuedAt).Held interpreter service call state.store.tables events)
    (turned : turn interpreter state ⟨service, call, .issued job issuedAt⟩ input =
      some (phase, after)) :
    Turned interpreter service.audit state events ⟨service, call, .issued job issuedAt⟩ phase
      after := by
  refine turned_of_commit chain (Option.some.inj turned)
    (fun _ => ⟨trivial, rfl, fun _ => Phase.noConfusion⟩) fun _ derived tables mutated derives => ?_
  obtain ⟨_, rfl⟩ := Prod.mk.inj (Except.ok.inj mutated)
  obtain ⟨sound, fresh, called, direct⟩ := held
  obtain ⟨tells, about⟩ := recounts_of_event sound.read derives
  have reason : derived.joined.reasonCode.val ≠ pendingApprovalReason := by
    have other : str policySatisfied ≠ pendingApprovalReason := by decide
    rw [tells.reason]
    exact ne_of_eq_of_ne (congrArg str (if_neg direct)) other
  have due : milestones[0]? = some derived.joined.action := by
    rw [tells.action]
    rfl
  exact {
    commits := .noted (silent_issued tells.action reason)
    keys := fun _ member => .inl member
    issues := fun _ => ⟨about.audited, .inl rfl⟩
    grants := grants_of_records rfl
    enters := fun _ => Phase.noConfusion
    due := rfl
    held := {
      sound
      issued := (passed_zero events _ _ _).next due about
      waited := fun restored => by
        rw [fresh] at restored
        cases restored
      called := fun _ => called } }

end Issuance

section Reading

variable {interpreter : Interpreter} {service : Wiring.Service} {call : Call} {state after : State}
  {events : List AuditEvent} {phase : Phase} {input : Input}

theorem peek_held {jobId : Str} {waiting : Waiting} {tables : Tables}
    (peeked : PostgresPendingJobs.peek interpreter service.policy service.signer.verifier jobId
      tables = .ok waiting) :
    waiting.Sound interpreter service jobId ∧
      Stands tables jobId waiting.subject waiting.wire := by
  obtain ⟨_, _, peeked⟩ := bind_eq_ok.mp peeked
  split at peeked
  next row job queued found =>
    unfold PostgresPendingJobs.waiting at peeked
    split at peeked
    · exact (fail_ne_ok peeked).elim
    next wire _ =>
      obtain ⟨bound, peeked⟩ := guarded_eq_ok.mp peeked
      obtain ⟨handoff, validated, peeked⟩ := bind_eq_ok.mp peeked
      obtain ⟨_, peeked⟩ := guarded_eq_ok.mp peeked
      obtain rfl := pure_eq_ok.mp peeked
      simp only [not_or, not_not] at bound
      obtain ⟨_, owned, _, digest, _⟩ := bound
      exact ⟨⟨job.createdAt, true, validatePending_validated validated⟩,
        job, found, owned.symm, digest.symm⟩
  · exact (fail_ne_ok peeked).elim

theorem take_held {subject jobId : Str} {waiting : Waiting} {tables : Tables}
    (taken : PostgresPendingJobs.take interpreter service.policy service.signer.verifier jobId
      subject tables = .ok waiting) :
    waiting.Sound interpreter service jobId ∧ waiting.subject = subject ∧
      Stands tables jobId subject waiting.wire := by
  obtain ⟨found, peeked, taken⟩ := bind_eq_ok.mp taken
  obtain ⟨owned, taken⟩ := guarded_eq_ok.mp taken
  obtain rfl := pure_eq_ok.mp taken
  obtain ⟨sound, stands⟩ := peek_held peeked
  obtain rfl := not_not.mp owned
  exact ⟨sound, rfl, stands⟩

/-- A job that waited, as the request that completes it holds it. -/
theorem completed_held {subject jobId : Str} {token : Bytes} {waiting : Waiting}
    {tables : Tables} (issuances : Issuances tables.jobs events)
    (taken : PostgresPendingJobs.take interpreter service.policy service.signer.verifier jobId
      subject tables = .ok waiting) :
    Job.Held interpreter service call tables events (waiting.job subject jobId token) := by
  obtain ⟨sound, owned, stands⟩ := take_held taken
  have issues : Issues events jobId subject (sha256 waiting.wire).val := by
    obtain ⟨row, found, subjects, digest⟩ := stands
    rw [← subjects, ← digest]
    exact issuances.issued jobId row found
  refine ⟨⟨?_, ?_⟩, passed_of_issues issues, fun _ => stands, fun absent => nomatch absent⟩
  · rw [← owned]
    exact sound
  · rintro _ ⟨rfl⟩
    exact ⟨owned, rfl, rfl⟩

theorem called_turned (issuances : Issuances state.store.tables.jobs events)
    (turned : turn interpreter state ⟨service, call, .called⟩ input = some (phase, after)) :
    Turned interpreter service.audit state events ⟨service, call, .called⟩ phase after := by
  obtain ⟨rfl, rfl⟩ := Prod.mk.inj (Option.some.inj turned)
  unfold begin_
  cases call with
  | submit subject jobId payload =>
      dsimp only
      split
      · exact .raised
      next job issued =>
        obtain ⟨sound, rfl, rfl, fresh, _⟩ := Wiring.issueJob_sound issued
        split
        · exact .raised
        next grant granted =>
          have waits := issueJob_approvalState issued granted
          split_ifs with required
          · exact .stays ⟨sound, rfl⟩ (.inr rfl) fun _ => Phase.noConfusion
          · exact .stays ⟨sound, fresh, rfl, mt waits.mp required⟩ (.inr rfl)
              fun _ => Phase.noConfusion
  | complete subject jobId token =>
      dsimp only
      split
      · exact .raised
      next taken =>
        exact .stays (completed_held issuances taken) (.inl rfl) fun _ => Phase.noConfusion
  | approve approver jobId ttlSeconds =>
      dsimp only
      split
      next role =>
        split
        · exact .raised
        next peeked =>
          obtain ⟨sound, stands⟩ := peek_held peeked
          exact .stays ⟨sound, stands, role⟩ (.inl rfl) fun _ => Phase.noConfusion
      · exact .raised

theorem starting_turned {job : Job}
    (held : (Phase.starting job).Held interpreter service call state.store.tables events)
    (turned : turn interpreter state ⟨service, call, .starting job⟩ input = some (phase, after)) :
    Turned interpreter service.audit state events ⟨service, call, .starting job⟩ phase after := by
  obtain ⟨rfl, rfl⟩ := Prod.mk.inj (Option.some.inj turned)
  have refuses (refusal : Refusal) : Turned interpreter service.audit state events
      ⟨service, call, .starting job⟩ (.refusing job refusal) state :=
    .stays held (.inl rfl) fun _ => Phase.noConfusion
  unfold start
  dsimp only
  split
  · split
    · exact refuses _
    · exact .raised
  · split
    · exact .raised
    · exact refuses _
    · exact .stays held (.inl rfl) fun _ => Phase.noConfusion

theorem running_turned {attempt : Attempt}
    (held : (Phase.running attempt).Held interpreter service call state.store.tables events)
    (turned : turn interpreter state ⟨service, call, .running attempt⟩ input =
      some (phase, after)) :
    Turned interpreter service.audit state events ⟨service, call, .running attempt⟩ phase after := by
  obtain ⟨rfl, rfl⟩ := Prod.mk.inj (Option.some.inj turned)
  unfold answered
  split
  · exact .stays held (.inl rfl) fun _ => Phase.noConfusion
  · exact .stays held.job (.inl rfl) fun _ => Phase.noConfusion
  · exact .stays held.job (.inl rfl) fun _ => Phase.noConfusion
  · exact .raised

theorem approving_turned {approval : Approval}
    (held : (Phase.approving approval).Held interpreter service call state.store.tables events)
    (turned : turn interpreter state ⟨service, call, .approving approval⟩ input =
      some (phase, after)) :
    Turned interpreter service.audit state events ⟨service, call, .approving approval⟩ phase
      after := by
  obtain ⟨rfl, rfl⟩ := Prod.mk.inj (Option.some.inj turned)
  unfold approving
  split_ifs with own
  · exact .raised
  · exact .stays ⟨held, own⟩ (.inl rfl) fun _ => Phase.noConfusion
  · exact .stays ⟨held, own⟩ (.inl rfl) fun _ => Phase.noConfusion

end Reading

section Refusal

variable {interpreter : Interpreter} {service : Wiring.Service} {call : Call} {state after : State}
  {events : List AuditEvent} {phase next : Phase} {input : Input} {request : Request}

/-- The refusals that end a waiting job say so. -/
theorem terminal_eq_some {waiting : Waiting} {refusal : Refusal} {notice : Notice}
    (ends : terminal service waiting refusal = some notice) :
    notice.action = .handoffRejected ∧ str notice.reasonCode ∈ terminalPendingRefusals := by
  have expired : str pendingExpired ∈ terminalPendingRefusals := by decide
  have refused : str pendingDispatchRefused ∈ terminalPendingRefusals := by decide
  cases refusal with
  | gateway reason now =>
      obtain ⟨_, same⟩ := Option.ite_none_right_eq_some.mp ends
      obtain rfl := Option.some.inj same
      exact ⟨rfl, expired⟩
  | orchestrator denial now =>
      obtain ⟨_, same⟩ := Option.ite_none_left_eq_some.mp ends
      obtain rfl := Option.some.inj same
      exact ⟨rfl, refused⟩
  | worker now => cases ends
  | verifier code now => cases ends

variable (chain : AuditStore.Holds service.audit.verifier state.store.audit events)
include chain

/-- A waiting job is refused with its event. -/
theorem refuse_turned {waiting : Waiting} {jobId : Str} {notice : Notice}
    (coherent : Coherent interpreter state.store.tables)
    (sound : waiting.Sound interpreter service jobId)
    (stands : Stands state.store.tables jobId waiting.subject waiting.wire)
    (action : notice.action = .handoffRejected)
    (ends : str notice.reasonCode ∈ terminalPendingRefusals)
    (turned : state.refuse interpreter service input waiting jobId notice next = (phase, after))
    (held : next.Held interpreter request.service request.call state.store.tables events)
    (due : (request.at_ next).due = none) (outside : ∀ attempt, next ≠ .entering attempt) :
    Turned interpreter service.audit state events request phase after := by
  refine turned_of_commit chain turned (fun _ => ⟨trivial, rfl, fun _ => Phase.noConfusion⟩)
    fun _ derived tables mutated derives => ?_
  obtain ⟨middle, refused, same⟩ := bind_eq_ok.mp mutated
  obtain ⟨_, rfl⟩ := Prod.mk.inj (pure_eq_ok.mp same)
  obtain ⟨tells, about⟩ := recounts_of_event sound derives
  obtain ⟨row, found, owned, digest⟩ := stands
  have effect : Effect interpreter state.store.tables (.refuse jobId waiting.subject
      notice.occurredAt) middle := refuse_effect refused
  have told : About derived.joined jobId row.subject row.handoffSha256 := by
    rw [owned, digest]
    exact about
  have acted : derived.joined.action = .handoffRejected := tells.action.trans action
  have commits : Commits interpreter state.store.tables events middle derived.joined := by
    refine .refused effect found told acted ?_ tells.occurred
    rw [tells.reason]
    exact ends
  have settled : middle.records = state.store.tables.records ∧ ∃ row,
      middle.jobs = state.store.tables.jobs.insert jobId row := by
    cases effect
    exact ⟨rfl, _, rfl⟩
  obtain ⟨records, _, jobs⟩ := settled
  exact {
    commits
    keys := keys_of_insert jobs found
    issues := fun issued => nomatch acted.symm.trans issued
    grants := grants_of_records records
    enters := fun attempt same => absurd same (outside attempt)
    due
    held := held.later (commits.later coherent.queued) _ }

theorem refusing_turned {job : Job} {refusal : Refusal}
    (coherent : Coherent interpreter state.store.tables)
    (held : (Phase.refusing job refusal).Held interpreter service call state.store.tables events)
    (turned : turn interpreter state ⟨service, call, .refusing job refusal⟩ input =
      some (phase, after)) :
    Turned interpreter service.audit state events ⟨service, call, .refusing job refusal⟩ phase
      after := by
  have turned := Option.some.inj turned
  unfold refusing at turned
  split at turned
  · next waiting notice ends =>
      obtain ⟨restored, waits, ends⟩ := Option.bind_eq_some_iff.mp ends
      obtain ⟨ended, terminal, same⟩ := Option.map_eq_some_iff.mp ends
      obtain ⟨rfl, rfl⟩ := Prod.mk.inj same
      obtain ⟨action, reason⟩ := terminal_eq_some terminal
      obtain ⟨owned, wire, handoff⟩ := held.sound.restored restored waits
      have stands := held.waited (Option.isSome_iff_exists.mpr ⟨restored, waits⟩)
      rw [← owned, ← wire] at stands
      have sound : restored.Sound interpreter service job.jobId := by
        have read := held.sound.read
        rw [← owned, ← wire, ← handoff] at read
        exact read
      exact refuse_turned chain coherent sound stands action reason turned trivial rfl
        fun _ => Phase.noConfusion
  · refine turned_of_commit chain turned (fun _ => ⟨trivial, rfl, fun _ => Phase.noConfusion⟩)
      fun _ derived tables mutated derives => ?_
    obtain ⟨_, rfl⟩ := Prod.mk.inj (Except.ok.inj mutated)
    obtain ⟨tells, _⟩ := recounts_of_event held.sound.read derives
    have acted : derived.joined.action = .handoffRejected ∨
        derived.joined.action = .resultRejected := by
      rw [tells.action]
      exact refusal_action service job.handoff refusal
    have reason : derived.joined.reasonCode.val ∉ terminalPendingRefusals := by
      rw [tells.reason]
      exact not_terminal service job.handoff refusal
    exact {
      commits := .noted (silent_refused acted reason)
      keys := fun _ member => .inl member
      issues := by
        intro issued
        rw [issued] at acted
        exact acted.elim (fun same => nomatch same) fun same => nomatch same
      grants := grants_of_records rfl
      enters := fun _ => Phase.noConfusion
      due := rfl
      held := trivial }

theorem lapsing_turned {approval : Approval} {now : Int}
    (coherent : Coherent interpreter state.store.tables)
    (held : (Phase.lapsing approval now).Held interpreter service call state.store.tables events)
    (turned : turn interpreter state ⟨service, call, .lapsing approval now⟩ input =
      some (phase, after)) :
    Turned interpreter service.audit state events ⟨service, call, .lapsing approval now⟩ phase
      after := by
  have expired : str pendingExpired ∈ terminalPendingRefusals := by decide
  exact refuse_turned chain coherent held.1.sound held.1.stands rfl expired
    (Option.some.inj turned) held rfl fun _ => Phase.noConfusion

end Refusal

section Dispatch

variable {interpreter : Interpreter} {service : Wiring.Service} {call : Call} {state after : State}
  {events : List AuditEvent} {phase : Phase} {input : Input} {attempt : Attempt}

variable (chain : AuditStore.Holds service.audit.verifier state.store.audit events)
include chain

theorem committing_turned (coherent : Coherent interpreter state.store.tables)
    (held : (Phase.committing attempt).Held interpreter service call state.store.tables events)
    (turned : turn interpreter state ⟨service, call, .committing attempt⟩ input =
      some (phase, after)) :
    Turned interpreter service.audit state events ⟨service, call, .committing attempt⟩ phase
      after := by
  refine turned_of_commit chain (Option.some.inj turned)
    (fun _ => ⟨trivial, rfl, fun _ => Phase.noConfusion⟩) fun _ derived tables mutated derives => ?_
  obtain ⟨middle, committed, same⟩ := bind_eq_ok.mp mutated
  obtain ⟨_, rfl⟩ := Prod.mk.inj (pure_eq_ok.mp same)
  obtain ⟨traceId, _, derives⟩ := bind_eq_ok.mp derives
  rw [held.handoff] at derives
  obtain ⟨tells, about⟩ := recounts_of_event held.job.sound.read derives
  obtain ⟨row, found, owned, digest, reserved, _⟩ := held.reached
  obtain ⟨named, bound⟩ := held.reserved
  have effect : Effect interpreter state.store.tables
      (.commitExecution attempt.reservation attempt.now) middle := commitExecution_effect committed
  have acted : derived.joined.action = .executionDispatched := tells.action
  have told : About derived.joined attempt.reservation.jobId row.subject row.handoffSha256 := by
    rw [named, owned, digest]
    exact about
  have stored : row.state = .reserved ∧ middle = { state.store.tables with
      jobs := state.store.tables.jobs.insert attempt.reservation.jobId
        { row with state := .executionCommitted, updatedAt := attempt.now } } := by
    cases effect with
    | commit there _ open_ =>
        rw [named, found] at there
        obtain rfl := Option.some.inj there
        exact ⟨open_, rfl⟩
  obtain ⟨open_, rfl⟩ := stored
  have commits : Commits interpreter state.store.tables events _ derived.joined :=
    .dispatched (named ▸ found) (digest.trans (congrArg Subtype.val bound.symm)) open_ reserved told
      acted tells.occurred
  have later := commits.later coherent.queued
  have due : milestones[2]? = some derived.joined.action := by
    rw [acted]
    rfl
  exact {
    commits
    keys := keys_of_insert rfl (named ▸ found)
    issues := fun issued => nomatch acted.symm.trans issued
    grants := grants_of_records rfl
    enters := by
      rintro other same
      obtain rfl := Phase.entering.inj same
      exact ⟨row, found, open_⟩
    due := rfl
    held := {
      job := held.job.later later _
      handoff := held.handoff
      reserved := held.reserved
      reached := by
        refine ⟨{ row with state := .executionCommitted, updatedAt := attempt.now }, ?_, owned,
          digest, reserved, rfl⟩
        rw [← named]
        exact AList.lookup_insert _
      passed := held.passed.next due about
      required := held.required
      approved := fun hash member => (held.approved hash member).later later } }

omit chain in
/-- What held when a result was accepted. -/
theorem taken_of_reserve {jobId : Str} {handoffWire resultWire : Bytes} {now : Int}
    {before tables : Tables}
    (taken : PostgresAcceptanceLedger.reserve jobId handoffWire resultWire now before =
      .ok (true, tables)) :
    (sha256 handoffWire).val ∉ before.acceptances ∧
      (∀ other held, before.acceptances.lookup other = some held →
        held.resultSha256 ≠ (sha256 resultWire).val) ∧
      ∃ job, before.jobs.lookup jobId = some job ∧
        job.handoffSha256 = (sha256 handoffWire).val ∧ job.state = .executionCommitted ∧
        tables = { before with
          acceptances := before.acceptances.insert (sha256 handoffWire).val
            ⟨jobId, handoffWire, (sha256 resultWire).val, resultWire, now⟩
          jobs := before.jobs.insert jobId { job with state := .completed, updatedAt := now } } := by
  obtain ⟨_, _, returned⟩ := bind_eq_ok.mp taken
  split at returned
  · cases (Prod.mk.inj (pure_eq_ok.mp returned)).1
  · obtain ⟨middle, inserted, returned⟩ := bind_eq_ok.mp returned
    obtain ⟨_, returned⟩ := guarded_eq_ok.mp returned
    obtain ⟨_, rfl⟩ := Prod.mk.inj (pure_eq_ok.mp returned)
    exact insertAcceptance_eq_ok inserted

theorem verifying_turned {resultWire : Bytes}
    (held : (Phase.verifying attempt resultWire).Held interpreter service call state.store.tables
      events)
    (turned : turn interpreter state ⟨service, call, .verifying attempt resultWire⟩ input =
      some (phase, after)) :
    Turned interpreter service.audit state events ⟨service, call, .verifying attempt resultWire⟩
      phase after := by
  refine turned_of_commit chain (Option.some.inj turned) (fun failure => ?_)
    fun accepted derived tables mutated derives => ?_
  · cases failure with
    | rejected message code => exact ⟨held.job, rfl, fun _ => Phase.noConfusion⟩
    | raised raised => exact ⟨trivial, rfl, fun _ => Phase.noConfusion⟩
  obtain ⟨⟨handoff, result, digest⟩, checked, mutated⟩ := bind_eq_ok.mp mutated
  obtain ⟨⟨taken, middle⟩, reserved, mutated⟩ := bind_eq_ok.mp mutated
  obtain ⟨_, _, ⟨grant, _, validated, _⟩, _⟩ := ResultVerifier.checked_eq_ok.mp checked
  dsimp only at mutated
  by_cases new : taken = true
  swap
  · rw [if_pos new] at mutated
    cases mutated
  rw [if_neg (not_not.mpr new)] at mutated
  obtain ⟨rfl, rfl⟩ := Prod.mk.inj (pure_eq_ok.mp mutated)
  have wire : attempt.permit.handoff.toBytes = attempt.job.wire := by
    rw [held.handoff, read_toBytes held.job.sound.read]
  have validated := ResultVerifier.revalidate_validated validated
  rw [show (attempt.arguments service resultWire input.now).handoffWire = some attempt.job.wire from
    congrArg some wire] at validated
  obtain rfl := held.job.sound.read.unique validated
  have reserved := ResultVerifier.passing_eq_ok.mp reserved
  rw [new, held.job.sound.read.jobId, read_toBytes held.job.sound.read] at reserved
  obtain ⟨fresh, unique, job, found, bound, committed, rfl⟩ := taken_of_reserve reserved
  obtain ⟨tells, about⟩ := recounts_of_event held.job.sound.read derives
  obtain ⟨row, there, owned, digests, _⟩ := held.reached
  obtain rfl := Option.some.inj (found.symm.trans there)
  have acted : derived.joined.action = .resultAccepted := tells.action
  have told : About derived.joined attempt.job.jobId job.subject job.handoffSha256 := by
    rw [owned, digests]
    exact about
  have result : resultOf derived.joined.bindings = some (sha256 result.toBytes).val := by
    obtain ⟨bytes, _, bindings⟩ := tells.bindings
    rw [bindings]
    rfl
  exact {
    commits := .accepted fresh unique found bound committed told acted result tells.occurred
    keys := keys_of_insert rfl found
    issues := fun issued => nomatch acted.symm.trans issued
    grants := grants_of_records rfl
    enters := fun _ => Phase.noConfusion
    due := rfl
    held := trivial }

end Dispatch

section Granting

variable {interpreter : Interpreter} {service : Wiring.Service} {call : Call} {state after : State}
  {events : List AuditEvent} {phase : Phase} {input : Input}

/-- An event of a handoff is about the job that its scope names. -/
theorem describes_of_scope {event : AuditEvent} {handoff : Handoff} {notice : Notice}
    {subject : Str} {scope : ApprovalScope} (tells : Tells event handoff notice subject)
    (scopes : handoff.scope = .ok scope) : Describes event scope := by
  obtain ⟨digest, _, job, user, _, _, version⟩ := scope_eq_ok scopes
  refine ⟨tells.digest.trans digest.symm, ?_, ?_, ?_⟩
  · rw [job]
    exact tells.jobId
  · rw [user]
    exact tells.subject
  · rw [version]
    exact tells.version

theorem receipt_of_tells {event : AuditEvent} {handoff : Handoff} {notice : Notice}
    {subject : Str} {hash : Digest} (tells : Tells event handoff notice subject)
    (named : notice.approvalRecordHash = some hash.val) : event.approvalRecordHash = some hash :=
  Option.map_injective Subtype.val_injective (tells.receipt.trans named)

theorem granting_turned {approval : Approval} {now : Int}
    (chain : AuditStore.Holds service.audit.verifier state.store.audit events)
    (held : (Phase.granting approval now).Held interpreter service call state.store.tables events)
    (turned : turn interpreter state ⟨service, call, .granting approval now⟩ input =
      some (phase, after)) :
    Turned interpreter service.audit state events ⟨service, call, .granting approval now⟩ phase
      after := by
  have turned := Option.some.inj turned
  unfold granting at turned
  split at turned
  · obtain ⟨rfl, rfl⟩ := Prod.mk.inj turned
    exact .raised
  next scope made =>
    refine turned_of_commit chain turned (fun _ => ⟨trivial, rfl, fun _ => Phase.noConfusion⟩)
      fun grant derived tables mutated derives => ?_
    obtain ⟨⟨sound, _, role⟩, other⟩ := held
    obtain ⟨handoff, validated, scopes⟩ := createScope_eq_ok.mp made
    obtain rfl := sound.unique (validatePending_validated validated)
    obtain ⟨tells, about⟩ := recounts_of_event sound derives
    obtain ⟨record, raw, grants, same, rfl⟩ := grant_effect mutated
    have joined : scope.joined = scope := joined_of_plain (createScope_joined made)
    have describes := describes_of_scope tells scopes
    have named : (Notice.granted service grant now).approvalRecordHash =
        some record.recordHash.val := by
      rw [same]
      rfl
    have acted : derived.joined.action = .approvalGranted := tells.action
    have receipt := receipt_of_tells tells named
    obtain ⟨bytes, encoded, bound⟩ := tells.bindings
    exact {
      commits := .granted grants joined describes acted receipt tells.occurred
      keys := fun _ member => .inl member
      issues := fun issued => nomatch acted.symm.trans issued
      grants := by
        intro recordHash row found stored holds granted
        have split := (Table.lookup_insert_eq recordHash).symm.trans stored
        split_ifs at split with new
        · obtain rfl := Option.some.inj split
          obtain ⟨read, reads, whole⟩ := grants.holds
          rw [new] at holds
          obtain rfl := holds.unique reads
          refine .inr ⟨acted, ?_, approval.approver, approval.approverUserId, bytes, role, ?_,
            encoded, bound⟩
          · rw [receipt, Subtype.ext reads.named]
          · rw [whole, joined, (scope_eq_ok scopes).2.2.2.1]
            exact other.symm
        · exact .inl split
      enters := fun _ => Phase.noConfusion
      due := rfl
      held := trivial }

end Granting

section Admission

variable {interpreter : Interpreter} {service : Wiring.Service} {call : Call} {state after : State}
  {events : List AuditEvent} {phase : Phase} {input : Input}

/-- What the gateway admitted: a handoff that is valid, with no approval where none is
required, and else with one that it consumed. -/
inductive Admits (interpreter : Interpreter) (gateway : Gateway) (presented : Presented)
    (before : Tables) (permit : DispatchPermit) : Tables → Prop
  | free (unrequired : ∀ grant, presented.policy.grantFor presented.subject = .ok grant →
        grant.requiresApproval = false)
      (bare : permit.approvalRecordHash = none) :
      Admits interpreter gateway presented before permit before
  | approved {token : Bytes} {scope : ApprovalScope} {receipt : ApprovalReceipt} {middle : Tables}
      (required : ∀ grant, presented.policy.grantFor presented.subject = .ok grant →
        grant.requiresApproval = true)
      (scopes : permit.handoff.scope = .ok scope) (joined : scope.joined = scope)
      (consumed : PostgresApprovalStore.consume interpreter token scope presented.now
        presented.subject before = .ok (receipt, middle))
      (named : permit.approvalRecordHash = some receipt.recordHash) :
      Admits interpreter gateway presented before permit middle

theorem admission_admits {gateway : Gateway} {wire : Bytes} {presented : Presented}
    {token : Option Bytes} {before middle : Tables} {permit : DispatchPermit}
    (admitted : admission interpreter gateway wire presented token before = .ok (permit, middle)) :
    Admits interpreter gateway presented before permit middle ∧
      permit.admittedAt = presented.now ∧ ∃ pending, Validated interpreter (some wire) presented
        gateway.handoffVerifier pending permit.handoff := by
  obtain ⟨grant, granted, admitted⟩ := bind_eq_ok.mp admitted
  have granted := rejecting_eq_ok.mp granted
  have only {required : Bool} (same : grant.requiresApproval = required) : ∀ other,
      presented.policy.grantFor presented.subject = .ok other →
        other.requiresApproval = required := by
    intro other found
    obtain rfl := Except.ok.inj (granted.symm.trans found)
    exact same
  by_cases required : grant.requiresApproval = true
  · rw [if_pos required] at admitted
    cases token with
    | none => cases admitted
    | some token =>
        obtain ⟨⟨handoff, scope⟩, pending, admitted⟩ := bind_eq_ok.mp admitted
        obtain ⟨⟨receipt, tables⟩, consumed, admitted⟩ := bind_eq_ok.mp admitted
        obtain ⟨minted, permits, admitted⟩ := bind_eq_ok.mp admitted
        obtain ⟨rfl, rfl⟩ := Prod.mk.inj (pure_eq_ok.mp admitted)
        obtain ⟨read, validated, pending⟩ := bind_eq_ok.mp pending
        obtain ⟨made, created, same⟩ := bind_eq_ok.mp pending
        obtain ⟨rfl, rfl⟩ := Prod.mk.inj (Except.ok.inj same)
        obtain ⟨digest, _, _, rfl⟩ := permit_eq_ok.mp permits
        have valid := validatePending_validated (rejecting_eq_ok.mp validated)
        have created := rejecting_eq_ok.mp created
        obtain ⟨again, validates, scopes⟩ := createScope_eq_ok.mp created
        obtain rfl := (validatePending_validated validates).unique valid
        exact ⟨.approved (only required) scopes (joined_of_plain (createScope_joined created))
          (rejecting_eq_ok.mp consumed) rfl, rfl, true, valid⟩
  · rw [if_neg required] at admitted
    cases token with
    | some token => cases admitted
    | none =>
        obtain ⟨handoff, validated, admitted⟩ := bind_eq_ok.mp admitted
        obtain ⟨minted, permits, admitted⟩ := bind_eq_ok.mp admitted
        obtain ⟨rfl, rfl⟩ := Prod.mk.inj (pure_eq_ok.mp admitted)
        obtain ⟨digest, _, _, rfl⟩ := permit_eq_ok.mp permits
        exact ⟨.free (only (eq_false_of_ne_true required)) rfl, rfl, false,
          validate_validated (rejecting_eq_ok.mp validated)⟩

theorem reservation_eq_ok {jobId subject : Str} {digest : Digest} {expiresAt now : Int}
    {reservation : Orchestrator.Reservation}
    (made : Orchestrator.reservation jobId subject digest expiresAt now = .ok reservation) :
    reservation = ⟨jobId, subject, digest, expiresAt, now⟩ := by
  unfold Orchestrator.reservation at made
  obtain ⟨_, made⟩ := guarded_eq_ok.mp made
  obtain ⟨_, made⟩ := guarded_eq_ok.mp made
  obtain ⟨_, made⟩ := guarded_eq_ok.mp made
  obtain ⟨_, made⟩ := guarded_eq_ok.mp made
  obtain ⟨_, made⟩ := guarded_eq_ok.mp made
  obtain ⟨_, made⟩ := guarded_eq_ok.mp made
  exact (Except.ok.inj made).symm

/-- What was checked of a job that is admitted and reserved. -/
structure Reserves (interpreter : Interpreter) (service : Wiring.Service) (job : Job) (now : Int)
    (before : Tables) (permit : DispatchPermit) (middle tables : Tables) : Prop where
  admits : Admits interpreter service.gateway (service.presented job.subject job.jobId now) before
    permit middle
  time : permit.admittedAt = now
  handoff : permit.handoff = job.handoff
  reserved : reserve interpreter
    ⟨job.jobId, job.subject, sha256 job.wire, permit.handoff.expiresAt, now⟩
    permit.approvalRecordHash middle = .ok tables

theorem admitAndReserve_reserves {job : Job} {now : Int} {before tables : Tables}
    {permit : DispatchPermit} {reservation : Orchestrator.Reservation}
    (sound : job.Sound interpreter service)
    (made : admitAndReserve interpreter service job now before =
      .ok ((permit, reservation), tables)) :
    reservation = ⟨job.jobId, job.subject, sha256 job.wire, permit.handoff.expiresAt, now⟩ ∧
      ∃ middle, Reserves interpreter service job now before permit middle tables := by
  obtain ⟨⟨admitted, middle⟩, admission, made⟩ := bind_eq_ok.mp made
  dsimp only at made
  by_cases other : admitted.handoff.toBytes ≠ job.wire
  · rw [if_pos other] at made
    cases made
  rw [if_neg other] at made
  obtain ⟨digest, digested, made⟩ := bind_eq_ok.mp made
  obtain ⟨burned, reserves, made⟩ := bind_eq_ok.mp made
  obtain ⟨last, reserved, made⟩ := bind_eq_ok.mp made
  obtain ⟨same, rfl⟩ := Prod.mk.inj (pure_eq_ok.mp made)
  obtain ⟨rfl, rfl⟩ := Prod.mk.inj same
  obtain ⟨admits, time, pending, validated⟩ := admission_admits admission
  obtain ⟨_, rfl⟩ := handoffDigest_eq_ok.mp (passing_eq_ok.mp digested)
  rw [not_not.mp other] at reserves
  obtain rfl := reservation_eq_ok (passing_eq_ok.mp reserves)
  exact ⟨rfl, middle, admits, time, sound.read.unique validated, passing_eq_ok.mp reserved⟩

/-- A job that needs no approval is reserved. -/
theorem reserved_committed {job : Job} {now : Int} {endpoint : Orchestrator.WorkerEndpoint}
    {before tables : Tables} {permit : DispatchPermit} {request : Request} {event : AuditEvent}
    {reservation : Orchestrator.Reservation} (queued : Queued before)
    (held : Job.Held interpreter request.service request.call before events job)
    (unrequired : ∀ grant, request.service.policy.grantFor job.subject = .ok grant →
      grant.requiresApproval = false)
    (bare : permit.approvalRecordHash = none) (handoff : permit.handoff = job.handoff)
    (same : reservation = ⟨job.jobId, job.subject, sha256 job.wire, permit.handoff.expiresAt, now⟩)
    (reserved : reserve interpreter reservation none before = .ok tables)
    (about : About event job.jobId job.subject (sha256 job.wire).val)
    (action : event.action = .handoffAdmitted) (receipt : event.approvalRecordHash = none)
    (occurred : event.occurredAt.val = now) :
    Committed interpreter before events request
      (.committing ⟨job, now, endpoint, permit, reservation⟩) tables event := by
  subst same
  obtain ⟨⟨answer, middle⟩, ledger, reserved⟩ := bind_eq_ok.mp reserved
  obtain ⟨taken, reserved⟩ := guarded_eq_ok.mp reserved
  obtain rfl := pure_eq_ok.mp reserved
  obtain ⟨_, denied, _⟩ | ⟨fresh, carried, _, rfl⟩ := reserve_effect ledger
  · exact absurd denied (by rw [not_not.mp taken]; decide)
  have commits : Commits interpreter before events _ event :=
    .reserved fresh carried held.issued.issues about action receipt occurred
  have later := commits.later queued
  have due : milestones[1]? = some event.action := by
    rw [action]
    rfl
  exact {
    commits
    keys := by
      intro jobId member
      obtain rfl | older := (AList.mem_insert _).mp member
      · refine .inr (held.called (Option.not_isSome_iff_eq_none.mp fun restored => ?_))
        obtain ⟨row, found, _⟩ := held.waited restored
        exact fresh (Table.mem_iff.mpr ⟨row, found⟩)
      · exact .inl older
    issues := fun issued => nomatch action.symm.trans issued
    grants := grants_of_records rfl
    enters := fun _ => Phase.noConfusion
    due := rfl
    held := {
      job := held.later later _
      handoff
      reserved := ⟨rfl, rfl⟩
      reached := ⟨_, AList.lookup_insert _, rfl, rfl, rfl, rfl⟩
      passed := held.issued.next due about
      required := fun grant granted => by
        rw [unrequired grant granted, bare]
        rfl
      approved := fun hash member => by
        rw [bare] at member
        cases member } }

/-- A job that waited is reserved by the approval that is consumed for it. -/
theorem consumed_committed {job : Job} {now : Int} {endpoint : Orchestrator.WorkerEndpoint}
    {before middle : Tables} {permit : DispatchPermit} {request : Request} {event : AuditEvent}
    {reservation : Orchestrator.Reservation} {token : Bytes} {scope : ApprovalScope}
    {approval : ApprovalReceipt} {notice : Notice} (coherent : Coherent interpreter before)
    (held : Job.Held interpreter request.service request.call before events job)
    (required : ∀ grant, request.service.policy.grantFor job.subject = .ok grant →
      grant.requiresApproval = true)
    (scopes : permit.handoff.scope = .ok scope) (joined : scope.joined = scope)
    (consumed : PostgresApprovalStore.consume interpreter token scope now job.subject before =
      .ok (approval, middle))
    (named : permit.approvalRecordHash = some approval.recordHash)
    (handoff : permit.handoff = job.handoff)
    (same : reservation = ⟨job.jobId, job.subject, sha256 job.wire, permit.handoff.expiresAt, now⟩)
    (tells : Tells event job.handoff notice job.subject)
    (about : About event job.jobId job.subject (sha256 job.wire).val)
    (action : event.action = .handoffAdmitted)
    (receipt : event.approvalRecordHash = some approval.recordHash)
    (occurred : event.occurredAt.val = now) :
    Committed interpreter before events request
      (.committing ⟨job, now, endpoint, permit, reservation⟩) middle event := by
  subst same
  rw [handoff] at scopes
  obtain ⟨current, row, record, updated, raw, succeeds, same, carried, waiting, pending, found,
    waits, owned, bound, expires, queued, wired, rfl⟩ := change_eq_ok consumed
  have named_ : scope.jobId = job.jobId := by
    rw [(scope_eq_ok scopes).2.2.1, held.sound.read.jobId]
  have digest : scope.handoffSha256 = sha256 job.wire := by
    rw [(scope_eq_ok scopes).1, read_toBytes held.sound.read]
  have receipts : approval.recordHash = updated.recordHash := by rw [same]
  have commits : Commits interpreter before events _ event :=
    .consumed succeeds carried found waits owned bound expires queued wired joined
      (describes_of_scope tells scopes) (by rw [named_, digest]; exact about) action
      (receipt.trans (congrArg some receipts)) occurred
  have later := commits.later coherent.queued
  have due : milestones[1]? = some event.action := by
    rw [action]
    rfl
  obtain ⟨columns, holds⟩ := succeeds.columns coherent.chained
  have entry := ApprovalStore.record_eq_ok succeeds.written
  have whole : updated.scope = scope := (succeeds.scope coherent.chained).trans joined
  exact {
    commits
    keys := keys_of_insert rfl found
    issues := fun issued => nomatch action.symm.trans issued
    grants := by
      intro recordHash line read stored reads granted
      have split := (Table.lookup_insert_eq recordHash).symm.trans stored
      split_ifs at split
      · obtain rfl := Option.some.inj split
        have state := (congrArg ApprovalRow.state columns).symm.trans
          (congrArg ApprovalRow.state reads.columns)
        exact nomatch state.trans granted
      · exact .inl split
    enters := fun _ => Phase.noConfusion
    due := rfl
    held := {
      job := held.later later _
      handoff
      reserved := ⟨rfl, rfl⟩
      reached := by
        refine ⟨{ waiting with state := .reserved, reservedAt := some now, updatedAt := now }, ?_,
          owned, ?_, rfl, rfl⟩
        · rw [← named_]
          exact AList.lookup_insert _
        · rw [← digest]
          exact bound
      passed := held.issued.next due about
      required := fun grant granted => by
        rw [required grant granted, named]
        rfl
      approved := by
        intro hash member
        rw [named] at member
        obtain rfl := Option.some.inj member
        refine ⟨updated, ⟨⟨approvalRow updated raw, ?_, ?_⟩, ?_⟩, ?_, ?_⟩
        · rw [receipts]
          exact AList.lookup_insert _
        · rw [receipts]
          exact holds
        · rw [entry]
          rfl
        · rw [whole]
          exact scopes
        · rw [entry] } }

theorem admitting_turned {job : Job} {now : Int} {endpoint : Orchestrator.WorkerEndpoint}
    (chain : AuditStore.Holds service.audit.verifier state.store.audit events)
    (coherent : Coherent interpreter state.store.tables)
    (held : (Phase.admitting job now endpoint).Held interpreter service call state.store.tables
      events)
    (turned : turn interpreter state ⟨service, call, .admitting job now endpoint⟩ input =
      some (phase, after)) :
    Turned interpreter service.audit state events ⟨service, call, .admitting job now endpoint⟩
      phase after := by
  refine turned_of_commit chain (Option.some.inj turned) (fun failure => ?_)
    fun made derived tables mutated derives => ?_
  · cases failure with
    | rejected message reason => exact ⟨held, rfl, fun _ => Phase.noConfusion⟩
    | raised raised =>
        unfold notAdmitted
        dsimp only
        split
        · exact ⟨held, rfl, fun _ => Phase.noConfusion⟩
        · exact ⟨trivial, rfl, fun _ => Phase.noConfusion⟩
  obtain ⟨permit, reservation⟩ := made
  obtain ⟨same, middle, admits, time, handoff, reserved⟩ :=
    admitAndReserve_reserves held.sound mutated
  unfold admittedEvent at derives
  obtain ⟨_, derives⟩ := guarded_eq_ok.mp derives
  obtain ⟨traceId, _, derives⟩ := bind_eq_ok.mp derives
  rw [handoff] at derives
  obtain ⟨tells, about⟩ := recounts_of_event held.sound.read derives
  have acted : derived.joined.action = .handoffAdmitted := tells.action
  have occurred : derived.joined.occurredAt.val = now := tells.occurred.trans time
  cases admits with
  | free unrequired bare =>
      rw [← same, bare] at reserved
      have receipt : derived.joined.approvalRecordHash = none := by
        have none_ := tells.receipt
        rw [show (Notice.admitted permit).approvalRecordHash = none from
          congrArg (Option.map Subtype.val) bare] at none_
        exact Option.map_eq_none_iff.mp none_
      exact reserved_committed coherent.queued held unrequired bare handoff same reserved about acted
        receipt occurred
  | approved required scopes joined consumed named =>
      have receipt := receipt_of_tells tells (congrArg (Option.map Subtype.val) named)
      rw [named] at reserved
      obtain ⟨⟨answer, last⟩, ledger, reserved⟩ := bind_eq_ok.mp reserved
      obtain ⟨_, reserved⟩ := guarded_eq_ok.mp reserved
      obtain rfl := pure_eq_ok.mp reserved
      obtain rfl := reserveAdmitted_reads ledger
      exact consumed_committed coherent held required scopes joined consumed named handoff same tells
        about acted receipt occurred

end Admission

/-- Everything a step of a request does. -/
theorem turn_turned {interpreter : Interpreter} {state after : State} {events : List AuditEvent}
    {request : Request} {phase : Phase} {input : Input}
    (chain : AuditStore.Holds request.service.audit.verifier state.store.audit events)
    (coherent : Coherent interpreter state.store.tables)
    (issuances : Issuances state.store.tables.jobs events)
    (held : request.phase.Held interpreter request.service request.call state.store.tables events)
    (turned : turn interpreter state request input = some (phase, after)) :
    Turned interpreter request.service.audit state events request phase after := by
  obtain ⟨service, call, before⟩ := request
  cases before with
  | called => exact called_turned issuances turned
  | queueing job issuedAt => exact queueing_turned chain held turned
  | issued job issuedAt => exact issued_turned chain held turned
  | starting job => exact starting_turned held turned
  | admitting job now endpoint => exact admitting_turned chain coherent held turned
  | committing attempt => exact committing_turned chain coherent held turned
  | entering attempt =>
      obtain ⟨rfl, rfl⟩ := Prod.mk.inj (Option.some.inj turned)
      exact .enters rfl
  | running attempt => exact running_turned held turned
  | verifying attempt resultWire => exact verifying_turned chain held turned
  | refusing job refusal => exact refusing_turned chain coherent held turned
  | approving approval => exact approving_turned held turned
  | lapsing approval now => exact lapsing_turned chain coherent held turned
  | granting approval now => exact granting_turned chain held turned
  | _ => cases turned

end GeniusNew.Durable
