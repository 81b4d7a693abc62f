import GeniusNew.Service.Recorded

/-! # What one critical section does

A job is moved by one holder at a time: the request that submitted it, the store
of pending jobs, or the request that completes it. A critical section keeps the
claim of its request, drops it, hands the job to the store or takes it from
there; and a milestone is recorded only by the holder it is due for.
-/

namespace GeniusNew.Wiring

open Json AnchoredAudit Orchestrator

/-- What a critical section does to the claim of its request, to the pending jobs
and to the evidence. -/
inductive Effect (state : State) (request : Request) (phase : Phase) (after : State) : Prop where
  /-- The claim is kept or dropped. -/
  | keeps (evidence : after.evidence = state.evidence) (recorder : after.recorder = state.recorder)
      (claim : (Request.mk request.call phase).claim = none ∨
        (Request.mk request.call phase).claim = request.claim)
      (pending : ∀ entry ∈ after.pending, ∃ waiting,
        (entry.1, waiting) ∈ state.pending ∧ waiting.handoff = entry.2.handoff)
      (outside : ∀ attempt, phase ≠ .entering attempt)
  /-- The job is put among the pending ones. -/
  | puts (handoff : Handoff) (jobId : Str) (evidence : after.evidence = state.evidence)
      (recorder : after.recorder = state.recorder)
      (before : request.claim = some (jobId, reached handoff 1))
      (claim : (Request.mk request.call phase).claim = none)
      (pending : ∀ entry ∈ after.pending, entry ∈ state.pending ∨
        entry.1 = jobId ∧ entry.2.handoff = handoff)
      (outside : ∀ attempt, phase ≠ .entering attempt)
  /-- A pending job is taken. -/
  | takes (jobId : Str) (waiting : Waiting) (evidence : after.evidence = state.evidence)
      (recorder : after.recorder = state.recorder) (found : (jobId, waiting) ∈ state.pending)
      (claim : (Request.mk request.call phase).claim = some (jobId, reached waiting.handoff 1))
      (pending : ∀ entry ∈ after.pending, entry ∈ state.pending ∧ entry.1 ≠ jobId)
      (outside : ∀ attempt, phase ≠ .entering attempt)
  /-- An event is recorded: no milestone, or the one that is due. -/
  | records (entry : Evidence) (returned : Prop) (middle : State)
      (appended : Appended state entry returned middle) (evidence : after.evidence = middle.evidence)
      (recorder : after.recorder = middle.recorder) (pending : after.pending = state.pending)
      (derived : ∃ report, eventFromHandoff entry.handoff report = .ok entry.event)
      (due : entry.event.action ∉ milestones ∧ ((Request.mk request.call phase).claim = none ∨
          (Request.mk request.call phase).claim = request.claim) ∨
        ∃ count, request.claim = some (entry.handoff.jobId, reached entry.handoff count) ∧
          milestones[count]? = some entry.event.action ∧
          ((Request.mk request.call phase).claim = none ∨ returned ∧
            (Request.mk request.call phase).claim =
              some (entry.handoff.jobId, reached entry.handoff (count + 1))))
      (acknowledged : ∀ attempt, phase = .entering attempt → returned)

/-- What a request goes on with is what it had, or nothing. -/
structure Carried (before phase : Phase) : Prop where
  job : phase.job = none ∨ phase.job = before.job
  owner : phase.owner = none ∨ phase.owner = before.owner
  attempt : phase.attempt = none ∨ phase.attempt = before.attempt
  decision : phase.decision = before.decision

/-- An approval was consumed, or none. -/
def Consumes (interpreter : Interpreter) (before after : ApprovalStore.Records) : Prop :=
  after = before ∨ ∃ token scope_ now receipt,
    ApprovalStore.consume interpreter before token scope_ now false = .ok (receipt, after)

/-- On whose authority a critical section acts: the pending jobs, the approvals and
what the request holds, before and after it. -/
inductive Authority (interpreter : Interpreter) (service : Service) (state : State) (call : Call)
    (before phase : Phase) (after : State) : Prop where
  | carries (carried : Carried before phase)
      (approvals : Consumes interpreter state.approvals after.approvals)
      (pending : ∀ entry ∈ after.pending, (∃ waiting, (entry.1, waiting) ∈ state.pending ∧
        waiting.subject = entry.2.subject) ∨ before.owner = some (entry.2.subject, entry.1))
  | issues (payload : Value) (job : Job) (now : Int)
      (called : call = .submit job.subject job.jobId payload) (token : job.approvalToken = none)
      (holds : phase = .issued job now) (approvals : after.approvals = state.approvals)
      (pending : after.pending = state.pending)
  | takes (subject jobId : Str) (token : Bytes) (waiting : Waiting)
      (called : call = .complete subject jobId token) (found : (jobId, waiting) ∈ state.pending)
      (owned : waiting.subject = subject) (holds : phase = .starting (waiting.job subject jobId token))
      (approvals : after.approvals = state.approvals)
      (pending : ∀ entry ∈ after.pending, entry ∈ state.pending)
  | decides (approver userId jobId : Str) (ttlSeconds : Int) (waiting : Waiting)
      (called : call = .approve (some approver) jobId ttlSeconds)
      (role : service.approvers.userId (some approver) = .ok userId)
      (found : (jobId, waiting) ∈ state.pending) (other : waiting.handoff.userId ≠ userId)
      (holds : phase = .decided approver userId jobId ttlSeconds waiting)
      (approvals : after.approvals = state.approvals)
      (pending : ∀ entry ∈ after.pending, ∃ waiting, (entry.1, waiting) ∈ state.pending ∧
        waiting.subject = entry.2.subject)
  | admits (job : Job) (now : Int) (endpoint : WorkerEndpoint) (permit : DispatchPermit)
      (held : before = .admitting job now endpoint)
      (admitted : Admitted interpreter service.gateway (some job.wire)
        (service.presented job.subject job.jobId now) false state.approvals job.approvalToken permit
          after.approvals)
      (holds : phase = .admitted ⟨job, now, endpoint, permit⟩) (pending : after.pending = state.pending)
  | grants (approver userId jobId : Str) (ttlSeconds : Int) (waiting : Waiting)
      (scope_ : ApprovalScope) (grant : ApprovalGrant) (now : Int) (drawn : Option Bytes)
      (held : before = .decided approver userId jobId ttlSeconds waiting)
      (scopes : createScope interpreter (some waiting.wire)
        (service.presented waiting.subject jobId now) service.signer.verifier = .ok scope_)
      (made : ApprovalStore.grant interpreter state.approvals scope_ true now ttlSeconds drawn false =
        .ok (grant, after.approvals))
      (holds : phase = .granted approver userId waiting grant now)
      (pending : after.pending = state.pending)

/-- Everything a critical section of a request does. -/
structure Turned (interpreter : Interpreter) (service : Service) (state : State) (index : Nat)
    (request : Request) (phase : Phase) (after : State) : Prop where
  requests : after.requests = state.requests
  entries : after.entries = state.entries ∨ ∃ attempt, request.phase = .entering attempt ∧
    after.entries = state.entries ++ [⟨index, attempt⟩]
  effect : Effect state request phase after
  authority : Authority interpreter service state request.call request.phase phase after
  sound : phase.Sound interpreter service
  pending : ∀ entry ∈ after.pending, entry.2.Sound interpreter service entry.1

/-- A request goes on with what it had, or without it, and has no worker to enter. -/
structure Goes (request : Request) (phase : Phase) : Prop where
  claim : (Request.mk request.call phase).claim = none ∨
    (Request.mk request.call phase).claim = request.claim
  carried : Carried request.phase phase
  outside : ∀ attempt, phase ≠ .entering attempt

/-- Only the ledgers, the approvals and the lock may differ. -/
structure Alike (state after : State) : Prop where
  requests : after.requests = state.requests
  entries : after.entries = state.entries
  evidence : after.evidence = state.evidence
  recorder : after.recorder = state.recorder
  pending : after.pending = state.pending

section Turns

variable {interpreter : Interpreter} {service : Service} {state after : State} {request : Request}
  {phase : Phase} {input : Input} {index : Nat} {call : Call}

theorem Alike.refl (state : State) : Alike state state := ⟨rfl, rfl, rfl, rfl, rfl⟩

theorem Goes.raised (undecided : request.phase.decision = none) : Goes request .raised where
  claim := Or.inl rfl
  carried := ⟨Or.inl rfl, Or.inl rfl, Or.inl rfl, undecided.symm⟩
  outside := fun _ => Phase.noConfusion

/-- A job that is refused has no claim left, unless the gateway refused it. -/
theorem Goes.refusing {job : Job} {refusal : Refusal} (held : request.phase.job = some job)
    (owned : request.phase.owner = request.phase.job.map fun job => (job.subject, job.jobId))
    (undecided : request.phase.decision = none)
    (other : ∀ reason now, refusal ≠ .gateway reason now) :
    Goes request (.refusing job refusal) where
  claim := by
    cases refusal with
    | gateway reason now => exact (other reason now rfl).elim
    | _ => exact Or.inl rfl
  carried := by
    refine ⟨Or.inr held.symm, Or.inr ?_, Or.inl rfl, undecided.symm⟩
    rw [owned, held]
    rfl
  outside := fun _ => Phase.noConfusion

/-- What is kept of the pending jobs. -/
theorem Alike.carries (alike : Alike state after) (carried : Carried request.phase phase)
    (approvals : Consumes interpreter state.approvals after.approvals) :
    Authority interpreter service state request.call request.phase phase after := by
  refine .carries carried approvals fun entry member => Or.inl ⟨entry.2, ?_, rfl⟩
  rw [alike.pending] at member
  exact member

/-- A request goes on with its claim, or without one. -/
theorem Turned.turns (sound : state.Sound interpreter service) (alike : Alike state after)
    (held : phase.Sound interpreter service) (goes : Goes request phase)
    (approvals : Consumes interpreter state.approvals after.approvals) :
    Turned interpreter service state index request phase after where
  requests := alike.requests
  entries := Or.inl alike.entries
  effect := .keeps alike.evidence alike.recorder goes.claim
    (fun entry member => ⟨entry.2, alike.pending ▸ member, rfl⟩) goes.outside
  authority := alike.carries goes.carried approvals
  sound := held
  pending := by
    rw [alike.pending]
    exact sound.pending

/-- A request that raises drops its claim and leaves the rest alone. -/
theorem Turned.raises (sound : state.Sound interpreter service) (alike : Alike state after)
    (undecided : request.phase.decision = none)
    (approvals : Consumes interpreter state.approvals after.approvals) :
    Turned interpreter service state index request .raised after :=
  .turns sound alike trivial (.raised undecided) approvals

/-- An append that ends the critical section. -/
theorem Turned.of_appended {entry : Evidence} {returned : Prop}
    (sound : state.Sound interpreter service) (appended : Appended state entry returned after)
    (held : phase.Sound interpreter service) (carried : Carried request.phase phase)
    (effect : after.pending = state.pending → Effect state request phase after) :
    Turned interpreter service state index request phase after := by
  have carries : after.pending = state.pending → after.approvals = state.approvals →
      Authority interpreter service state request.call request.phase phase after :=
    fun pending approvals => .carries carried (Or.inl approvals)
      fun entry member => Or.inl ⟨entry.2, pending ▸ member, rfl⟩
  cases appended with
  | refused recorder settled further chain raised =>
      exact ⟨rfl, Or.inl rfl, effect rfl, carries rfl rfl, held, sound.pending⟩
  | linked recorder settled further chain caughtUp =>
      exact ⟨rfl, Or.inl rfl, effect rfl, carries rfl rfl, held, sound.pending⟩

/-- Recording an event that is no milestone. -/
theorem Turned.notes {handoff : Handoff} {traceId apiSubject : Str} {notice : Notice}
    {then_ : Phase} (sound : state.Sound interpreter service) (settled : state.recorder.Settled)
    (recorded : state.record service input handoff traceId apiSubject notice then_ =
      (phase, after))
    (undecided : request.phase.decision = none) (other : notice.action ∉ milestones)
    (held : then_.Sound interpreter service) (goes : Goes request then_) : Turned interpreter service state index request phase after := by
  obtain ⟨rfl, rfl⟩ | ⟨event, returned, derived, appended, ends⟩ := record_cases settled recorded
  · exact .raises sound (.refl after) undecided (Or.inl rfl)
  · obtain ⟨derives, action⟩ := Notice.event_eq_ok derived
    rw [← action] at other
    obtain ⟨_, rfl⟩ | ⟨_, rfl⟩ := ends
    · refine .of_appended sound appended held goes.carried fun kept => ?_
      exact .records _ returned after appended rfl rfl kept derives (Or.inl ⟨other, goes.claim⟩)
        fun attempt same => (goes.outside attempt same).elim
    · refine .of_appended sound appended trivial (Goes.raised undecided).carried fun kept => ?_
      exact .records _ returned after appended rfl rfl kept derives (Or.inl ⟨other, Or.inl rfl⟩)
        fun _ => Phase.noConfusion

/-- Recording the milestone that is due. -/
theorem Turned.passes {handoff : Handoff} {traceId apiSubject : Str} {notice : Notice}
    {then_ : Phase} (count : Nat) (sound : state.Sound interpreter service)
    (settled : state.recorder.Settled)
    (recorded : state.record service input handoff traceId apiSubject notice then_ =
      (phase, after))
    (undecided : request.phase.decision = none)
    (due : milestones[count]? = some notice.action)
    (before : request.claim = some (handoff.jobId, reached handoff count))
    (held : then_.Sound interpreter service) (carried : Carried request.phase then_)
    (claim : (Request.mk request.call then_).claim = none ∨ (Request.mk request.call then_).claim =
      some (handoff.jobId, reached handoff (count + 1))) : Turned interpreter service state index request phase after := by
  obtain ⟨rfl, rfl⟩ | ⟨event, returned, derived, appended, ends⟩ := record_cases settled recorded
  · exact .raises sound (.refl after) undecided (Or.inl rfl)
  · obtain ⟨derives, action⟩ := Notice.event_eq_ok derived
    rw [← action] at due
    obtain ⟨done, rfl⟩ | ⟨_, rfl⟩ := ends
    · refine .of_appended sound appended held carried fun kept => ?_
      exact .records _ returned after appended rfl rfl kept derives
        (Or.inr ⟨count, before, due, claim.imp_right fun same => ⟨done, same⟩⟩) fun _ _ => done
    · refine .of_appended sound appended trivial (Goes.raised undecided).carried fun kept => ?_
      exact .records _ returned after appended rfl rfl kept derives
        (Or.inr ⟨count, before, due, Or.inl rfl⟩) fun _ => Phase.noConfusion

theorem issued_turned {job : Job} {now : Int} (sound : state.Sound interpreter service)
    (settled : state.recorder.Settled) (held : job.Sound interpreter service)
    (recorded : state.record service input job.handoff job.traceId job.subject
      (.issued service job.handoff now) (submitted service job) = (phase, after)) :
    Turned interpreter service state index ⟨call, .issued job now⟩ phase after := by
  have named := held.read.jobId
  have goes : submitted service job = .adding job ∨ submitted service job = .starting job ∨
      submitted service job = .raised := by
    unfold submitted
    split
    · split_ifs
      · exact Or.inl rfl
      · exact Or.inr (Or.inl rfl)
    · exact Or.inr (Or.inr rfl)
  refine .passes 0 sound settled recorded rfl rfl ?_ ?_ ?_ ?_
  · rw [named]
    rfl
  · obtain same | same | same := goes
    all_goals rw [same]
    · exact held
    · exact held
    · trivial
  · obtain same | same | same := goes
    all_goals rw [same]
    · exact ⟨Or.inr rfl, Or.inr rfl, Or.inl rfl, rfl⟩
    · exact ⟨Or.inr rfl, Or.inr rfl, Or.inl rfl, rfl⟩
    · exact ⟨Or.inl rfl, Or.inl rfl, Or.inl rfl, rfl⟩
  · rw [named]
    obtain same | same | same := goes
    all_goals rw [same]
    · exact Or.inr rfl
    · exact Or.inr rfl
    · exact Or.inl rfl

theorem starting_turned {job : Job} {now : Int} (sound : state.Sound interpreter service)
    (held : job.Sound interpreter service) :
    Turned interpreter service state index ⟨call, .starting job⟩ (start service state job now)
      state := by
  have denied : ∀ denial, Turned interpreter service state index ⟨call, .starting job⟩
      (.refusing job (.orchestrator denial now)) state :=
    fun denial => .turns sound (.refl state) held
      (.refusing rfl rfl rfl fun _ _ => Refusal.noConfusion) (Or.inl rfl)
  unfold start
  dsimp only
  split
  · split
    · exact denied _
    · exact .raises sound (.refl state) rfl (Or.inl rfl)
  · split_ifs
    · exact denied _
    · exact denied _
    · exact .turns sound (.refl state) held
        ⟨Or.inr rfl, ⟨Or.inr rfl, Or.inr rfl, Or.inl rfl, rfl⟩, fun _ => Phase.noConfusion⟩ (Or.inl rfl)

theorem admitting_turned {job : Job} {now : Int} {endpoint : WorkerEndpoint}
    (sound : state.Sound interpreter service) (held : job.Sound interpreter service)
    (asked : admitting interpreter service state job now endpoint = (phase, after)) :
    Turned interpreter service state index ⟨call, .admitting job now endpoint⟩ phase after := by
  unfold admitting at asked
  generalize answered : service.gateway.admission interpreter (some job.wire)
    (service.presented job.subject job.jobId now) job.approvalToken false state.approvals = answer
    at asked
  obtain ⟨answer, approvals⟩ := answer
  obtain ⟨rfl, rfl⟩ := Prod.mk.inj asked
  have alike : Alike state { state with approvals } := ⟨rfl, rfl, rfl, rfl, rfl⟩
  have consumes : Consumes interpreter state.approvals approvals :=
    (admission_records answered).imp_right
      fun ⟨given, scope_, receipt, consumed⟩ => ⟨given, scope_, now, receipt, consumed⟩
  cases answer with
  | error refusal =>
      cases refusal with
      | rejected message reason =>
          refine .turns sound alike held ⟨?_, ⟨Or.inr rfl, Or.inr rfl, Or.inl rfl, rfl⟩,
            fun _ => Phase.noConfusion⟩ consumes
          by_cases completed : job.restored.isSome = true
          · exact Or.inr (if_pos completed)
          · exact Or.inl (if_neg completed)
      | raised exception => exact .raises sound alike rfl consumes
  | ok permit =>
      dsimp only
      split_ifs with same
      · exact .raises sound alike rfl consumes
      · have admitted := admission_admitted answered
        have handoff : permit.handoff = job.handoff := by
          obtain ⟨pending, validated⟩ := admitted.validated
          exact held.read.unique validated
        refine ⟨rfl, Or.inl rfl, ?_, ?_, ⟨held, handoff⟩, sound.pending⟩
        · exact .keeps rfl rfl (Or.inr rfl) (fun entry member => ⟨entry.2, member, rfl⟩)
            fun _ => Phase.noConfusion
        · exact .admits job now endpoint permit rfl admitted rfl rfl

theorem admitted_turned {attempt : Attempt} (sound : state.Sound interpreter service)
    (settled : state.recorder.Settled) (held : attempt.Sound interpreter service)
    (recorded : recordAdmission service input state attempt = (phase, after)) :
    Turned interpreter service state index ⟨call, .admitted attempt⟩ phase after := by
  have named := held.job.read.jobId
  unfold recordAdmission at recorded
  split_ifs at recorded
  · obtain ⟨rfl, rfl⟩ := Prod.mk.inj recorded
    exact .raises sound (.refl state) rfl (Or.inl rfl)
  split at recorded
  · obtain ⟨rfl, rfl⟩ := Prod.mk.inj recorded
    exact .raises sound (.refl state) rfl (Or.inl rfl)
  · rw [held.handoff] at recorded
    refine .passes 1 sound settled recorded rfl rfl ?_ ?_
      ⟨Or.inr rfl, Or.inr rfl, Or.inr rfl, rfl⟩ (Or.inr ?_)
    · rw [named]
      rfl
    · exact held
    · rw [named]
      rfl

theorem reserving_turned {attempt : Attempt} (sound : state.Sound interpreter service)
    (held : attempt.Sound interpreter service)
    (reserved : reserving state attempt = (phase, after)) :
    Turned interpreter service state index ⟨call, .reserving attempt⟩ phase after := by
  have denied : ∀ denial ledger, Turned interpreter service state index ⟨call, .reserving attempt⟩
      (.refusing attempt.job (.orchestrator denial attempt.now)) { state with ledger } :=
    fun denial ledger =>
      .turns sound ⟨rfl, rfl, rfl, rfl, rfl⟩ held.job
        (.refusing rfl rfl rfl fun _ _ => Refusal.noConfusion) (Or.inl rfl)
  unfold reserving at reserved
  dsimp only at reserved
  split at reserved
  · obtain ⟨rfl, rfl⟩ := Prod.mk.inj reserved
    exact .raises sound (.refl state) rfl (Or.inl rfl)
  split_ifs at reserved with full
  · obtain ⟨rfl, rfl⟩ := Prod.mk.inj reserved
    exact denied _ state.ledger
  · obtain ⟨rfl, rfl⟩ := Prod.mk.inj reserved
    exact denied _ state.ledger
  split at reserved
  · obtain ⟨rfl, rfl⟩ := Prod.mk.inj reserved
    exact .turns sound ⟨rfl, rfl, rfl, rfl, rfl⟩ held
      ⟨Or.inr rfl, ⟨Or.inr rfl, Or.inr rfl, Or.inr rfl, rfl⟩, fun _ => Phase.noConfusion⟩ (Or.inl rfl)
  · obtain ⟨rfl, rfl⟩ := Prod.mk.inj reserved
    exact denied _ _

theorem committed_turned {attempt : Attempt} (sound : state.Sound interpreter service)
    (settled : state.recorder.Settled) (held : attempt.Sound interpreter service)
    (recorded : recordDispatch service input state attempt = (phase, after)) :
    Turned interpreter service state index ⟨call, .committed attempt⟩ phase after := by
  have named := held.job.read.jobId
  unfold recordDispatch at recorded
  split at recorded
  · obtain ⟨rfl, rfl⟩ := Prod.mk.inj recorded
    exact .raises sound (.refl state) rfl (Or.inl rfl)
  · rw [held.handoff] at recorded
    refine .passes 2 sound settled recorded rfl rfl ?_ ?_
      ⟨Or.inr rfl, Or.inr rfl, Or.inr rfl, rfl⟩ (Or.inr ?_)
    · rw [named]
      rfl
    · exact held
    · rw [named]
      rfl

theorem running_turned {attempt : Attempt} (sound : state.Sound interpreter service)
    (held : attempt.Sound interpreter service) (answer : WorkerAnswer) :
    Turned interpreter service state index ⟨call, .running attempt⟩ (answered attempt answer)
      state := by
  have refused : Turned interpreter service state index ⟨call, .running attempt⟩
      (.refusing attempt.job (.worker attempt.now)) state :=
    .turns sound (.refl state) held.job (.refusing rfl rfl rfl fun _ _ => Refusal.noConfusion)
      (Or.inl rfl)
  unfold answered
  split
  · exact .turns sound (.refl state) held
      ⟨Or.inr rfl, ⟨Or.inr rfl, Or.inr rfl, Or.inr rfl, rfl⟩, fun _ => Phase.noConfusion⟩ (Or.inl rfl)
  · exact refused
  · exact refused
  · exact .raises sound (.refl state) rfl (Or.inl rfl)

theorem verifying_turned {attempt : Attempt} {resultWire : Bytes} {now : Int}
    (sound : state.Sound interpreter service) (held : attempt.Sound interpreter service)
    (verified : verifying interpreter service state attempt resultWire now = (phase, after)) :
    Turned interpreter service state index ⟨call, .verifying attempt resultWire⟩ phase after := by
  unfold verifying at verified
  generalize ResultVerifier.accept interpreter service.verifier state.accepted _ = answer
    at verified
  obtain ⟨outcome, accepted⟩ := answer
  obtain ⟨rfl, rfl⟩ := Prod.mk.inj verified
  have alike : Alike state { state with accepted } := ⟨rfl, rfl, rfl, rfl, rfl⟩
  cases outcome with
  | error refusal =>
      cases refusal with
      | rejected message code =>
          exact .turns sound alike held.job
            (.refusing rfl rfl rfl fun _ _ => Refusal.noConfusion) (Or.inl rfl)
      | raised exception => exact .raises sound alike rfl (Or.inl rfl)
  | ok acceptance =>
      exact .turns sound alike held.job
        ⟨Or.inr rfl, ⟨Or.inr rfl, Or.inr rfl, Or.inl rfl, rfl⟩, fun _ => Phase.noConfusion⟩ (Or.inl rfl)

theorem accepting_turned {job : Job} {acceptance : ResultVerifier.Acceptance}
    (sound : state.Sound interpreter service) (settled : state.recorder.Settled)
    (held : job.Sound interpreter service)
    (recorded : state.record service input job.handoff job.traceId job.subject
      (.accepted service acceptance) .returned = (phase, after)) :
    Turned interpreter service state index ⟨call, .accepting job acceptance⟩ phase after := by
  refine .passes 3 sound settled recorded rfl rfl ?_ ?_
    ⟨Or.inl rfl, Or.inl rfl, Or.inl rfl, rfl⟩ (Or.inl rfl)
  · rw [held.read.jobId]
    rfl
  · trivial

theorem Refusal.notice_action (service : Service) (handoff : Handoff) (refusal : Refusal) :
    (refusal.notice service handoff).action ∉ milestones := by
  cases refusal with
  | verifier code now => exact (by decide : Action.resultRejected ∉ milestones)
  | _ => exact (by decide : Action.handoffRejected ∉ milestones)

theorem refusing_turned {job : Job} {refusal : Refusal}
    (sound : state.Sound interpreter service) (settled : state.recorder.Settled)
    (held : job.Sound interpreter service)
    (recorded : state.record service input job.handoff job.traceId job.subject
      (refusal.notice service job.handoff) (refused job refusal) = (phase, after)) :
    Turned interpreter service state index ⟨call, .refusing job refusal⟩ phase after := by
  have other := refusal.notice_action service job.handoff
  have raises : refused job refusal = .raised →
      Turned interpreter service state index ⟨call, .refusing job refusal⟩ phase after := by
    intro ends
    rw [ends] at recorded
    refine .notes sound settled recorded rfl other ?_ (.raised rfl)
    trivial
  cases refusal with
  | gateway reason now =>
      cases completed : job.restored with
      | none =>
          refine raises ?_
          rw [refused, completed]
      | some waiting =>
          obtain ⟨subject, wire, handoff⟩ := held.restored waiting completed
          have goes : refused job (.gateway reason now) = .restoring job.jobId waiting := by
            rw [refused, completed]
          rw [goes] at recorded
          refine .notes sound settled recorded rfl other ?_ ⟨Or.inr ?_,
            ⟨Or.inl rfl, Or.inr ?_, Or.inl rfl, rfl⟩, fun _ => Phase.noConfusion⟩
          · change Read interpreter service waiting.subject job.jobId waiting.wire waiting.handoff
            rw [subject, wire, handoff]
            exact held.read
          · simp only [Request.claim, completed, Option.isSome_some, if_true, handoff]
          · change some (waiting.subject, job.jobId) = some (job.subject, job.jobId)
            rw [subject]
  | orchestrator denial now => exact raises rfl
  | worker now => exact raises rfl
  | verifier code now => exact raises rfl

theorem granting_turned {approver approverUserId jobId : Str} {ttlSeconds : Int}
    {waiting : Waiting} (sound : state.Sound interpreter service)
    (made : granting interpreter service state approver approverUserId jobId ttlSeconds waiting
      input = (phase, after)) :
    Turned interpreter service state index
      ⟨call, .decided approver approverUserId jobId ttlSeconds waiting⟩ phase after := by
  unfold granting at made
  dsimp only at made
  split at made
  · obtain ⟨rfl, rfl⟩ := Prod.mk.inj made
    exact .raises sound ⟨rfl, rfl, rfl, rfl, rfl⟩ rfl (Or.inl rfl)
  next grant approvals granted =>
    obtain ⟨rfl, rfl⟩ := Prod.mk.inj made
    obtain ⟨_, granted⟩ := guarded_eq_ok.mp granted
    obtain ⟨scope_, scopes, granted⟩ := bind_eq_ok.mp granted
    refine ⟨rfl, Or.inl rfl, ?_, ?_, trivial, sound.pending⟩
    · exact .keeps rfl rfl (Or.inl rfl) (fun entry member => ⟨entry.2, member, rfl⟩)
        fun _ => Phase.noConfusion
    · exact .grants approver approverUserId jobId ttlSeconds waiting scope_ grant input.now
        input.drawn rfl scopes granted rfl rfl

/-- What becomes of an approval call that made its grant. -/
theorem recordGrant_cases {approver approverUserId : Str} {waiting : Waiting}
    {grant : ApprovalGrant} {now : Int} (settled : state.recorder.Settled)
    (recorded : recordGrant service input state approver approverUserId waiting grant now =
      (phase, after)) :
    (phase = .approved approver approverUserId waiting grant ∨
      phase = .unrecorded approver approverUserId waiting grant) ∧
    (after = { state with lock := none } ∨ ∃ event returned middle,
      (Notice.granted service grant now).event waiting.handoff waiting.traceId approver =
        .ok event ∧
      Appended state ⟨waiting.handoff, event⟩ returned middle ∧
      after = { middle with lock := none }) := by
  unfold recordGrant at recorded
  dsimp only at recorded
  split at recorded
  next raised derived =>
    obtain ⟨rfl, rfl⟩ := Prod.mk.inj recorded
    exact ⟨Or.inr rfl, Or.inl rfl⟩
  next event derived =>
    split at recorded
    next middle appended =>
      obtain ⟨rfl, rfl⟩ := Prod.mk.inj recorded
      exact ⟨Or.inl rfl,
        Or.inr ⟨event, _, middle, derived, append_appended settled appended, rfl⟩⟩
    next raised middle appended =>
      obtain ⟨rfl, rfl⟩ := Prod.mk.inj recorded
      exact ⟨Or.inr rfl,
        Or.inr ⟨event, _, middle, derived, append_appended settled appended, rfl⟩⟩

theorem granted_turned {approver approverUserId : Str} {waiting : Waiting}
    {grant : ApprovalGrant} {now : Int} (sound : state.Sound interpreter service)
    (settled : state.recorder.Settled)
    (recorded : recordGrant service input state approver approverUserId waiting grant now =
      (phase, after)) :
    Turned interpreter service state index ⟨call, .granted approver approverUserId waiting grant now⟩
      phase after := by
  obtain ⟨ends, cases_⟩ := recordGrant_cases settled recorded
  have held : phase.Sound interpreter service := by
    obtain rfl | rfl := ends
    · trivial
    · trivial
  have dropped : (Request.mk call phase).claim = none := by obtain rfl | rfl := ends <;> rfl
  have outside : ∀ attempt, phase ≠ .entering attempt := by
    obtain rfl | rfl := ends
    · exact fun _ => Phase.noConfusion
    · exact fun _ => Phase.noConfusion
  have carried : Carried (Phase.granted approver approverUserId waiting grant now) phase := by
    obtain rfl | rfl := ends
    · exact ⟨Or.inl rfl, Or.inl rfl, Or.inl rfl, rfl⟩
    · exact ⟨Or.inl rfl, Or.inl rfl, Or.inl rfl, rfl⟩
  obtain rfl | ⟨event, returned, middle, derived, appended, rfl⟩ := cases_
  · exact .turns sound ⟨rfl, rfl, rfl, rfl, rfl⟩ held ⟨Or.inl dropped, carried, outside⟩ (Or.inl rfl)
  · obtain ⟨derives, action⟩ := Notice.event_eq_ok derived
    have other : event.action ∉ milestones := by
      rw [action]
      exact (by decide : Action.approvalGranted ∉ milestones)
    have effect : middle.pending = state.pending → Effect state
        ⟨call, .granted approver approverUserId waiting grant now⟩ phase
        { middle with lock := none } := fun kept =>
      .records _ returned middle appended rfl rfl kept derives (Or.inl ⟨other, Or.inl dropped⟩)
        fun attempt same => (outside attempt same).elim
    cases appended with
    | refused recorder settled further chain raised =>
        exact ⟨rfl, Or.inl rfl, effect rfl, .carries carried (Or.inl rfl)
          fun entry member => Or.inl ⟨entry.2, member, rfl⟩, held, sound.pending⟩
    | linked recorder settled further chain caughtUp =>
        exact ⟨rfl, Or.inl rfl, effect rfl, .carries carried (Or.inl rfl)
          fun entry member => Or.inl ⟨entry.2, member, rfl⟩, held, sound.pending⟩

theorem adding_turned {job : Job} {now : Int} {outcome : Outcome Unit} {pending : PendingJobs}
    (sound : state.Sound interpreter service) (held : job.Sound interpreter service)
    (added : PendingJobs.add state.pending job.jobId job.waiting now = (outcome, pending))
    (ends : phase = .returned ∨ phase = .raised) :
    Turned interpreter service state index ⟨call, .adding job⟩ phase { state with pending } := by
  have dropped : (Request.mk call phase).claim = none := by obtain rfl | rfl := ends <;> rfl
  have outside : ∀ attempt, phase ≠ .entering attempt := by
    obtain rfl | rfl := ends
    · exact fun _ => Phase.noConfusion
    · exact fun _ => Phase.noConfusion
  have members : ∀ entry ∈ pending, entry ∈ state.pending ∨ entry = (job.jobId, job.waiting) := by
    unfold PendingJobs.add at added
    intro entry member
    dsimp only at added
    split_ifs at added
    · obtain ⟨_, rfl⟩ := Prod.mk.inj added
      exact Or.inl (List.mem_filter.mp member).1
    · obtain ⟨_, rfl⟩ := Prod.mk.inj added
      exact Or.inl (List.mem_filter.mp member).1
    · obtain ⟨_, rfl⟩ := Prod.mk.inj added
      obtain kept | new := List.mem_append.mp member
      · exact Or.inl (List.mem_filter.mp kept).1
      · exact Or.inr (List.mem_singleton.mp new)
  have carried : Carried (Phase.adding job) phase := by
    obtain rfl | rfl := ends
    · exact ⟨Or.inl rfl, Or.inl rfl, Or.inl rfl, rfl⟩
    · exact ⟨Or.inl rfl, Or.inl rfl, Or.inl rfl, rfl⟩
  refine ⟨rfl, Or.inl rfl, .puts job.handoff job.jobId rfl rfl rfl dropped ?_ outside,
    .carries carried (Or.inl rfl) ?_, ?_, ?_⟩
  · intro entry member
    refine (members entry member).imp_right ?_
    rintro rfl
    exact ⟨rfl, rfl⟩
  · intro entry member
    obtain kept | rfl := members entry member
    · exact Or.inl ⟨entry.2, kept, rfl⟩
    · exact Or.inr rfl
  · obtain rfl | rfl := ends
    · trivial
    · trivial
  · intro entry member
    obtain kept | rfl := members entry member
    · exact sound.pending entry kept
    · exact held.read

theorem restoring_turned {jobId : Str} {waiting : Waiting} (sound : state.Sound interpreter service)
    (held : waiting.Sound interpreter service jobId) :
    Turned interpreter service state index ⟨call, .restoring jobId waiting⟩ .raised
      { state with pending := PendingJobs.restore state.pending jobId waiting } := by
  have members : ∀ entry ∈ PendingJobs.restore state.pending jobId waiting,
      entry ∈ state.pending ∨ entry = (jobId, waiting) := by
    intro entry member
    unfold PendingJobs.restore at member
    split_ifs at member
    · exact Or.inl member
    · exact (List.mem_append.mp member).imp_right List.mem_singleton.mp
  refine ⟨rfl, Or.inl rfl, .puts waiting.handoff jobId rfl rfl rfl rfl ?_ fun _ => Phase.noConfusion,
    .carries (Goes.raised rfl).carried (Or.inl rfl) ?_, trivial, ?_⟩
  · intro entry member
    refine (members entry member).imp_right ?_
    rintro rfl
    exact ⟨rfl, rfl⟩
  · intro entry member
    obtain kept | rfl := members entry member
    · exact Or.inl ⟨entry.2, kept, rfl⟩
    · exact Or.inr rfl
  · intro entry member
    obtain kept | rfl := members entry member
    · exact sound.pending entry kept
    · exact held

theorem taken_turned {subject jobId : Str} {token : Bytes} {waiting : Waiting}
    {pending : PendingJobs} (sound : state.Sound interpreter service)
    (taken : PendingJobs.take state.pending jobId subject = .ok (waiting, pending)) :
    Turned interpreter service state index ⟨.complete subject jobId token, .called⟩
      (.starting (waiting.job subject jobId token)) { state with pending } := by
  unfold PendingJobs.take at taken
  split at taken
  · cases taken
  next stored found =>
    split_ifs at taken with owned
    · cases taken
    obtain ⟨rfl, rfl⟩ := Prod.mk.inj (Except.ok.inj taken)
    rw [not_not] at owned
    have member := Assoc.mem_of_lookup found
    have held := sound.pending _ member
    refine ⟨rfl, Or.inl rfl, .takes jobId stored rfl rfl member rfl ?_ fun _ => Phase.noConfusion,
      .takes subject jobId token stored rfl member owned rfl rfl ?_, ⟨?_, ?_⟩, ?_⟩
    · intro entry kept
      obtain ⟨before, other⟩ := List.mem_filter.mp kept
      exact ⟨before, of_decide_eq_true other⟩
    · exact fun entry kept => (List.mem_filter.mp kept).1
    · rw [← owned]
      exact held
    · rintro _ ⟨rfl⟩
      exact ⟨owned, rfl, rfl⟩
    · exact fun entry kept => sound.pending entry (List.mem_filter.mp kept).1

theorem decide_eq_ok {jobs pending : PendingJobs} {jobId userId : Str} {now ttlSeconds : Int}
    {waiting : Waiting}
    (decided : PendingJobs.decide jobs jobId userId now ttlSeconds = .ok (waiting, pending)) :
    jobs.lookup jobId = some waiting ∧ waiting.handoff.userId ≠ userId ∧
      waiting.decisionExpiresAt ≤ now ∧ ∃ expires,
        expires = min (now + ttlSeconds) waiting.handoff.expiresAt ∧
        pending = Assoc.replace jobs jobId { waiting with decisionExpiresAt := expires } := by
  unfold PendingJobs.decide at decided
  split_ifs at decided
  · split at decided
    · cases decided
    next found =>
      split_ifs at decided with own active
      · cases decided
      · cases decided
      · obtain ⟨rfl, rfl⟩ := Prod.mk.inj (Except.ok.inj decided)
        exact ⟨found, own, not_lt.mp active, _, rfl, rfl⟩
  · cases decided

theorem decided_turned {approver userId jobId : Str} {now ttlSeconds : Int} {waiting : Waiting}
    {pending : PendingJobs} {lock : Option Nat} (sound : state.Sound interpreter service)
    (role : service.approvers.userId (some approver) = .ok userId)
    (decided : PendingJobs.decide state.pending jobId userId now ttlSeconds =
      .ok (waiting, pending)) :
    Turned interpreter service state index ⟨.approve (some approver) jobId ttlSeconds, .called⟩
      (.decided approver userId jobId ttlSeconds waiting) { state with pending, lock } := by
  obtain ⟨found, other, _, expires, _, rfl⟩ := decide_eq_ok decided
  have member := Assoc.mem_of_lookup found
  have members : ∀ entry ∈ Assoc.replace state.pending jobId
      { waiting with decisionExpiresAt := expires }, entry ∈ state.pending ∨
        entry = (jobId, { waiting with decisionExpiresAt := expires }) := by
    intro entry changed
    obtain ⟨before, kept, rfl⟩ := List.mem_map.mp changed
    split_ifs
    · exact Or.inr rfl
    · exact Or.inl kept
  refine ⟨rfl, Or.inl rfl, .keeps rfl rfl (Or.inl rfl) ?_ fun _ => Phase.noConfusion,
    .decides approver userId jobId ttlSeconds waiting rfl role member other rfl rfl ?_,
    sound.pending _ member, ?_⟩
  · intro entry changed
    obtain kept | rfl := members entry changed
    · exact ⟨entry.2, kept, rfl⟩
    · exact ⟨waiting, member, rfl⟩
  · intro entry changed
    obtain kept | rfl := members entry changed
    · exact ⟨entry.2, kept, rfl⟩
    · exact ⟨waiting, member, rfl⟩
  · intro entry changed
    obtain kept | rfl := members entry changed
    · exact sound.pending entry kept
    · change waiting.Sound interpreter service jobId
      exact sound.pending _ member

theorem called_turned (sound : state.Sound interpreter service)
    (begun : begin_ interpreter service state index input call = some (phase, after)) :
    Turned interpreter service state index ⟨call, .called⟩ phase after := by
  unfold begin_ at begun
  split at begun
  · split at begun
    · obtain ⟨rfl, rfl⟩ := Prod.mk.inj (Option.some.inj begun)
      exact .raises sound (.refl state) rfl (Or.inl rfl)
    next job issued =>
      obtain ⟨rfl, rfl⟩ := Prod.mk.inj (Option.some.inj begun)
      obtain ⟨held, rfl, rfl, _, token⟩ := issueJob_sound issued
      refine ⟨rfl, Or.inl rfl, ?_, .issues _ job input.now rfl token rfl rfl rfl, held, sound.pending⟩
      exact .keeps rfl rfl (Or.inr rfl) (fun entry member => ⟨entry.2, member, rfl⟩)
        fun _ => Phase.noConfusion
  · split_ifs at begun
    split at begun
    · obtain ⟨rfl, rfl⟩ := Prod.mk.inj (Option.some.inj begun)
      exact .raises sound (.refl state) rfl (Or.inl rfl)
    next taken =>
      obtain ⟨rfl, rfl⟩ := Prod.mk.inj (Option.some.inj begun)
      exact taken_turned sound taken
  · split at begun
    next role =>
      split_ifs at begun
      split at begun
      · obtain ⟨rfl, rfl⟩ := Prod.mk.inj (Option.some.inj begun)
        exact .raises sound (.refl state) rfl (Or.inl rfl)
      next decided =>
        obtain ⟨rfl, rfl⟩ := Prod.mk.inj (Option.some.inj begun)
        exact decided_turned sound role decided
    · obtain ⟨rfl, rfl⟩ := Prod.mk.inj (Option.some.inj begun)
      exact .raises sound (.refl state) rfl (Or.inl rfl)

/-- Every critical section of every request. -/
theorem turn_turned (sound : state.Sound interpreter service) (settled : state.recorder.Settled)
    (held : request.phase.Sound interpreter service)
    (turned : turn interpreter service state index request input = some (phase, after)) :
    Turned interpreter service state index request phase after := by
  obtain ⟨call, before⟩ := request
  unfold turn at turned
  cases before with
  | called => exact called_turned sound turned
  | issued job now => exact issued_turned sound settled held (Option.some.inj turned)
  | adding job =>
      dsimp only at turned
      split_ifs at turned
      split at turned
      next added =>
        obtain ⟨rfl, rfl⟩ := Prod.mk.inj (Option.some.inj turned)
        exact adding_turned sound held added (Or.inl rfl)
      next added =>
        obtain ⟨rfl, rfl⟩ := Prod.mk.inj (Option.some.inj turned)
        exact adding_turned sound held added (Or.inr rfl)
  | starting job =>
      obtain ⟨rfl, rfl⟩ := Prod.mk.inj (Option.some.inj turned)
      exact starting_turned sound held
  | admitting job now endpoint => exact admitting_turned sound held (Option.some.inj turned)
  | admitted attempt => exact admitted_turned sound settled held (Option.some.inj turned)
  | reserving attempt => exact reserving_turned sound held (Option.some.inj turned)
  | committing attempt =>
      dsimp only at turned
      split at turned
      · obtain ⟨rfl, rfl⟩ := Prod.mk.inj (Option.some.inj turned)
        exact .raises sound (.refl state) rfl (Or.inl rfl)
      · obtain ⟨rfl, rfl⟩ := Prod.mk.inj (Option.some.inj turned)
        exact .turns sound ⟨rfl, rfl, rfl, rfl, rfl⟩ held
          ⟨Or.inr rfl, ⟨Or.inr rfl, Or.inr rfl, Or.inr rfl, rfl⟩, fun _ => Phase.noConfusion⟩
          (Or.inl rfl)
  | committed attempt => exact committed_turned sound settled held (Option.some.inj turned)
  | entering attempt =>
      obtain ⟨rfl, rfl⟩ := Prod.mk.inj (Option.some.inj turned)
      refine ⟨rfl, Or.inr ⟨attempt, rfl, rfl⟩, ?_, ?_, held, sound.pending⟩
      · exact .keeps rfl rfl (Or.inr rfl) (fun entry member => ⟨entry.2, member, rfl⟩)
          fun _ => Phase.noConfusion
      · exact .carries ⟨Or.inr rfl, Or.inr rfl, Or.inr rfl, rfl⟩ (Or.inl rfl)
          fun entry member => Or.inl ⟨entry.2, member, rfl⟩
  | running attempt =>
      obtain ⟨rfl, rfl⟩ := Prod.mk.inj (Option.some.inj turned)
      exact running_turned sound held input.answer
  | verifying attempt resultWire => exact verifying_turned sound held (Option.some.inj turned)
  | accepting job acceptance =>
      exact accepting_turned sound settled held (Option.some.inj turned)
  | refusing job refusal => exact refusing_turned sound settled held (Option.some.inj turned)
  | restoring jobId waiting =>
      dsimp only at turned
      split_ifs at turned
      obtain ⟨rfl, rfl⟩ := Prod.mk.inj (Option.some.inj turned)
      exact restoring_turned sound held
  | decided approver approverUserId jobId ttlSeconds waiting =>
      exact granting_turned sound (Option.some.inj turned)
  | granted approver approverUserId waiting grant now =>
      exact granted_turned sound settled (Option.some.inj turned)
  | _ => cases turned

end Turns

variable (interpreter : Interpreter) (service : Service)

/-- What holds in every run, whatever ids are minted. -/
structure Grounded (state : State) : Prop where
  sound : state.Sound interpreter service
  settled : state.recorder.Settled

section Runs

variable {interpreter service} {state next : State}

theorem Appended.settled {entry : Evidence} {returned : Prop}
    (appended : Appended state entry returned next) : next.recorder.Settled := by
  cases appended with
  | refused recorder settled further chain raised => exact settled
  | linked recorder settled further chain caughtUp => exact settled

theorem Effect.settled {request : Request} {phase : Phase}
    (effect : Effect state request phase next) (settled : state.recorder.Settled) :
    next.recorder.Settled := by
  cases effect with
  | keeps evidence recorder claim pending outside =>
      rw [recorder]
      exact settled
  | puts handoff jobId evidence recorder before claim pending outside =>
      rw [recorder]
      exact settled
  | takes jobId waiting evidence recorder found claim pending outside =>
      rw [recorder]
      exact settled
  | records entry returned middle appended evidence recorder pending derived due acknowledged =>
      rw [recorder]
      exact appended.settled

/-- Everything one step does: a request enters, or one has its turn. -/
theorem step_cases {label : Label} (grounded : Grounded interpreter service state)
    (stepped : step interpreter service state label = some next) :
    (∃ call, label = .request call ∧
      next = { state with requests := state.requests ++ [⟨call, .called⟩] }) ∨
    ∃ index input request phase after, label = .advance index input ∧
      state.requests[index]? = some request ∧
      turn interpreter service state index request input = some (phase, after) ∧
      Turned interpreter service state index request phase after ∧
      next = after.setPhase index request phase := by
  cases label with
  | request call => exact Or.inl ⟨call, rfl, (Option.some.inj stepped).symm⟩
  | advance index input =>
      obtain ⟨request, own, rest⟩ := Option.bind_eq_some_iff.mp stepped
      obtain ⟨⟨phase, after⟩, turned, same⟩ := Option.bind_eq_some_iff.mp rest
      have held := grounded.sound.requests request (List.mem_of_getElem? own)
      exact Or.inr ⟨index, input, request, phase, after, rfl, own, turned,
        turn_turned grounded.sound grounded.settled held turned, (Option.some.inj same).symm⟩

theorem Grounded.step {label : Label} (grounded : Grounded interpreter service state)
    (stepped : step interpreter service state label = some next) :
    Grounded interpreter service next := by
  obtain ⟨call, rfl, rfl⟩ | ⟨index, input, request, phase, after, rfl, own, turned, moved, rfl⟩ :=
    step_cases grounded stepped
  · refine ⟨⟨fun other member => ?_, grounded.sound.pending⟩, grounded.settled⟩
    obtain old | new := List.mem_append.mp member
    · exact grounded.sound.requests other old
    · rw [List.mem_singleton.mp new]
      trivial
  · refine ⟨⟨fun other member => ?_, moved.pending⟩, moved.effect.settled grounded.settled⟩
    rw [State.setPhase, moved.requests] at member
    obtain old | rfl := List.mem_or_eq_of_mem_set member
    · exact grounded.sound.requests other old
    · exact moved.sound

end Runs

end GeniusNew.Wiring
