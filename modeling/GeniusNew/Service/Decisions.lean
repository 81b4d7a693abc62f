import GeniusNew.Service.Completion

/-! # One live approval for a waiting job

An approval call reads the clock twice: once for the decision that is stored with
the pending job, once for the token. While no token outlives its stored decision,
a job has at most one token that could still be consumed, and a second call is
refused as long as there is one.
-/

namespace GeniusNew.Wiring

open Json AnchoredAudit Transition

/-- What the clock showed to a step. -/
def Label.reading : Label → Option Int
  | .request _ => none
  | .advance _ input => some input.now

/-- A stored approval of a job that was not consumed and has not expired. -/
structure Live (time : Int) (jobId : Str) (entry : Bytes × ApprovalRecord) : Prop where
  job : entry.2.scope.jobId = jobId
  granted : entry.2.state = .granted
  unexpired : time < entry.2.expiresAt

/-- The tokens that can be consumed for a job expire by a time. -/
def Bounded (time : Int) (jobId : Str) (records : ApprovalStore.Records) (expires : Int) : Prop :=
  ∀ entry ∈ records, Live time jobId entry → entry.2.expiresAt ≤ expires

/-- No token can be consumed that could not before. -/
structure Fewer (before after : ApprovalStore.Records) : Prop where
  live : ∀ {time jobId}, ∀ entry ∈ after, Live time jobId entry → entry ∈ before
  scope : ∀ entry ∈ after, ∃ old ∈ before, old.2.scope = entry.2.scope

/-- A token that is granted expires no later than the decision stored with its job. -/
def Punctual (state : State) : Label → Prop
  | .request _ => True
  | .advance index input => ∀ call approver userId jobId ttlSeconds waiting stored,
      state.requests[index]? = some ⟨call, .decided approver userId jobId ttlSeconds waiting⟩ →
      state.pending.lookup jobId = some stored →
      min (input.now + ttlSeconds) waiting.handoff.expiresAt ≤ stored.decisionExpiresAt

/-- The job a phase may put back, as it was taken. -/
def Phase.returning : Phase → Option (Str × Waiting)
  | .issued job _ | .adding job | .starting job | .admitting job _ _
  | .refusing job (.gateway _ _) => job.restored.map fun waiting => (job.jobId, waiting)
  | .restoring jobId waiting => some (jobId, waiting)
  | _ => none

/-- The job of a request that has not been among the pending ones. -/
def Request.fresh (request : Request) : Option Str :=
  match request.phase with
  | .called => request.call.minted
  | .issued job _ | .adding job => some job.jobId
  | _ => none

/-- Inside `decide`, with the lock of the pending jobs held. -/
def Phase.locks : Phase → Bool
  | .decided _ _ _ _ _ | .granted _ _ _ _ _ => true
  | _ => false

/-- What a critical section does to the pending jobs, the approvals and the lock. -/
inductive Moves (interpreter : Interpreter) (state : State) (index : Nat) (request : Request)
    (now : Int) (phase : Phase) (after : State) : Prop where
  | stays (pending : after.pending = state.pending) (lock : after.lock = state.lock)
      (approvals : Consumes interpreter state.approvals after.approvals)
      (outside : phase.locks = false)
      (returning : phase.returning = none ∨ phase.returning = request.phase.returning)
      (fresh : (Request.mk request.call phase).fresh = none ∨
        (Request.mk request.call phase).fresh = request.fresh)
  | unlocks (held : request.phase.locks = true) (pending : after.pending = state.pending)
      (approvals : after.approvals = state.approvals) (outside : phase.locks = false)
      (returning : phase.returning = none) (fresh : (Request.mk request.call phase).fresh = none)
  | adds (job : Job) (free : state.lock = none) (lock : after.lock = state.lock)
      (held : request.fresh = some job.jobId) (approvals : after.approvals = state.approvals)
      (pending : after.pending = (PendingJobs.add state.pending job.jobId job.waiting now).2)
      (outside : phase.locks = false) (returning : phase.returning = none)
      (fresh : (Request.mk request.call phase).fresh = none)
  | restores (jobId : Str) (waiting : Waiting) (free : state.lock = none)
      (lock : after.lock = state.lock) (held : request.phase.returning = some (jobId, waiting))
      (approvals : after.approvals = state.approvals)
      (pending : after.pending = PendingJobs.restore state.pending jobId waiting)
      (raised : phase = .raised)
  | takes (jobId subject : Str) (waiting : Waiting) (free : state.lock = none)
      (lock : after.lock = state.lock) (approvals : after.approvals = state.approvals)
      (taken : PendingJobs.take state.pending jobId subject = .ok (waiting, after.pending))
      (outside : phase.locks = false) (returning : phase.returning = some (jobId, waiting))
      (fresh : (Request.mk request.call phase).fresh = none)
  | decides (approver userId jobId : Str) (ttlSeconds : Int) (waiting : Waiting)
      (free : state.lock = none) (lock : after.lock = some index)
      (approvals : after.approvals = state.approvals)
      (decided : PendingJobs.decide state.pending jobId userId now ttlSeconds =
        .ok (waiting, after.pending))
      (holds : phase = .decided approver userId jobId ttlSeconds waiting)
  | grants (approver userId jobId : Str) (ttlSeconds : Int) (waiting : Waiting)
      (scope_ : ApprovalScope) (grant : ApprovalGrant) (drawn : Option Bytes)
      (held : request.phase = .decided approver userId jobId ttlSeconds waiting)
      (pending : after.pending = state.pending) (lock : after.lock = state.lock)
      (job : scope_.jobId = jobId) (expires : scope_.handoffExpiresAt = waiting.handoff.expiresAt)
      (made : ApprovalStore.grant interpreter state.approvals scope_ true now ttlSeconds drawn false =
        .ok (grant, after.approvals))
      (holds : phase = .granted approver userId waiting grant now)

section Turns

variable {interpreter : Interpreter} {service : Service} {state after : State} {call : Call}
  {before phase : Phase} {request : Request} {index : Nat} {input : Input}

/-- Recording an event touches neither the jobs nor the approvals. -/
theorem record_moves {handoff : Handoff} {traceId apiSubject : Str} {notice : Notice} {then_ : Phase}
    (settled : state.recorder.Settled)
    (recorded : state.record service input handoff traceId apiSubject notice then_ =
      (phase, after)) (outside : then_.locks = false)
    (returning : then_.returning = none ∨ then_.returning = request.phase.returning)
    (fresh : (Request.mk request.call then_).fresh = none ∨
      (Request.mk request.call then_).fresh = request.fresh) :
    Moves interpreter state index request input.now phase after := by
  have alike : after.pending = state.pending ∧ after.lock = state.lock ∧
      after.approvals = state.approvals := by
    obtain ⟨_, rfl⟩ | ⟨event, returned, _, appended, _⟩ := record_cases settled recorded
    · exact ⟨rfl, rfl, rfl⟩
    · cases appended with
      | refused recorder settled further chain raised => exact ⟨rfl, rfl, rfl⟩
      | linked recorder settled further chain caughtUp => exact ⟨rfl, rfl, rfl⟩
  obtain ⟨pending, lock, approvals⟩ := alike
  obtain rfl | rfl := record_phase recorded
  · exact .stays pending lock (.inl approvals) outside returning fresh
  · exact .stays pending lock (.inl approvals) rfl (.inl rfl) (.inl rfl)

/-- A critical section that ends in a raise and touches nothing. -/
theorem raises_moves : Moves interpreter state index request input.now .raised state :=
  .stays rfl rfl (.inl rfl) rfl (.inl rfl) (.inl rfl)

theorem begin_moves
    (begun : begin_ interpreter service state index input call = some (phase, after)) :
    Moves interpreter state index ⟨call, .called⟩ input.now phase after := by
  unfold begin_ at begun
  split at begun
  · split at begun
    · obtain ⟨rfl, rfl⟩ := Prod.mk.inj (Option.some.inj begun)
      exact raises_moves
    next job issued =>
      obtain ⟨rfl, rfl⟩ := Prod.mk.inj (Option.some.inj begun)
      obtain ⟨_, _, rfl, unrestored, _⟩ := issueJob_sound issued
      have returning : (Phase.issued job input.now).returning = none := by
        rw [Phase.returning, unrestored]
        rfl
      exact .stays rfl rfl (.inl rfl) rfl (.inl returning) (.inr rfl)
  · split_ifs at begun with locked
    have free : state.lock = none := Option.not_isSome_iff_eq_none.mp locked
    split at begun
    · obtain ⟨rfl, rfl⟩ := Prod.mk.inj (Option.some.inj begun)
      exact raises_moves
    next subject jobId token _ waiting pending taken =>
      obtain ⟨rfl, rfl⟩ := Prod.mk.inj (Option.some.inj begun)
      exact .takes jobId subject waiting free rfl rfl taken rfl rfl rfl
  · split at begun
    next role =>
      split_ifs at begun with locked
      have free : state.lock = none := Option.not_isSome_iff_eq_none.mp locked
      split at begun
      · obtain ⟨rfl, rfl⟩ := Prod.mk.inj (Option.some.inj begun)
        exact raises_moves
      next decided =>
        obtain ⟨rfl, rfl⟩ := Prod.mk.inj (Option.some.inj begun)
        exact .decides _ _ _ _ _ free rfl rfl decided rfl
    · obtain ⟨rfl, rfl⟩ := Prod.mk.inj (Option.some.inj begun)
      exact raises_moves

theorem start_moves (job : Job) :
    Moves interpreter state index ⟨call, .starting job⟩ input.now
      (start service state job input.now) state := by
  unfold start
  dsimp only
  split
  · split
    · exact .stays rfl rfl (.inl rfl) rfl (.inl rfl) (.inl rfl)
    · exact raises_moves
  · split_ifs
    · exact .stays rfl rfl (.inl rfl) rfl (.inl rfl) (.inl rfl)
    · exact .stays rfl rfl (.inl rfl) rfl (.inl rfl) (.inl rfl)
    · exact .stays rfl rfl (.inl rfl) rfl (.inr rfl) (.inl rfl)

theorem admitting_moves {job : Job} {now : Int} {endpoint : Orchestrator.WorkerEndpoint}
    (asked : admitting interpreter service state job now endpoint = (phase, after)) :
    Moves interpreter state index ⟨call, .admitting job now endpoint⟩ input.now phase after := by
  unfold admitting at asked
  generalize answered : service.gateway.admission interpreter (some job.wire)
    (service.presented job.subject job.jobId now) job.approvalToken false state.approvals = answer
    at asked
  obtain ⟨answer, approvals⟩ := answer
  obtain ⟨rfl, rfl⟩ := Prod.mk.inj asked
  have consumes : Consumes interpreter state.approvals approvals :=
    (admission_records answered).imp_right
      fun ⟨given, scope_, receipt, consumed⟩ => ⟨given, scope_, now, receipt, consumed⟩
  split
  · exact .stays rfl rfl consumes rfl (.inr rfl) (.inl rfl)
  · exact .stays rfl rfl consumes rfl (.inl rfl) (.inl rfl)
  · split_ifs
    · exact .stays rfl rfl consumes rfl (.inl rfl) (.inl rfl)
    · exact .stays rfl rfl consumes rfl (.inl rfl) (.inl rfl)

/-- What is reserved or denied leaves the jobs and the approvals alone. -/
theorem reserving_moves {attempt : Attempt} (reserved : reserving state attempt = (phase, after)) :
    Moves interpreter state index ⟨call, .reserving attempt⟩ input.now phase after := by
  unfold reserving at reserved
  dsimp only at reserved
  split at reserved
  · obtain ⟨rfl, rfl⟩ := Prod.mk.inj reserved
    exact raises_moves
  · split_ifs at reserved
    · obtain ⟨rfl, rfl⟩ := Prod.mk.inj reserved
      exact .stays rfl rfl (.inl rfl) rfl (.inl rfl) (.inl rfl)
    · obtain ⟨rfl, rfl⟩ := Prod.mk.inj reserved
      exact .stays rfl rfl (.inl rfl) rfl (.inl rfl) (.inl rfl)
    · split at reserved
      · obtain ⟨rfl, rfl⟩ := Prod.mk.inj reserved
        exact .stays rfl rfl (.inl rfl) rfl (.inl rfl) (.inl rfl)
      · obtain ⟨rfl, rfl⟩ := Prod.mk.inj reserved
        exact .stays rfl rfl (.inl rfl) rfl (.inl rfl) (.inl rfl)

theorem verifying_moves {attempt : Attempt} {resultWire : Bytes} {now : Int}
    (verified : verifying interpreter service state attempt resultWire now = (phase, after)) :
    Moves interpreter state index ⟨call, .verifying attempt resultWire⟩ input.now phase after := by
  unfold verifying at verified
  dsimp only at verified
  obtain ⟨rfl, rfl⟩ := Prod.mk.inj verified
  split
  · exact .stays rfl rfl (.inl rfl) rfl (.inl rfl) (.inl rfl)
  · exact .stays rfl rfl (.inl rfl) rfl (.inl rfl) (.inl rfl)
  · exact .stays rfl rfl (.inl rfl) rfl (.inl rfl) (.inl rfl)

theorem answered_moves {attempt : Attempt} (answer : WorkerAnswer) :
    Moves interpreter state index ⟨call, .running attempt⟩ input.now (answered attempt answer)
      state := by
  unfold answered
  split
  · exact .stays rfl rfl (.inl rfl) rfl (.inl rfl) (.inl rfl)
  · exact .stays rfl rfl (.inl rfl) rfl (.inl rfl) (.inl rfl)
  · exact .stays rfl rfl (.inl rfl) rfl (.inl rfl) (.inl rfl)
  · exact raises_moves

theorem refusing_moves {job : Job} {refusal : Refusal} (settled : state.recorder.Settled)
    (recorded : state.record service input job.handoff job.traceId job.subject
      (refusal.notice service job.handoff) (refused job refusal) = (phase, after)) :
    Moves interpreter state index ⟨call, .refusing job refusal⟩ input.now phase after := by
  refine record_moves settled recorded ?_ ?_ ?_
  · unfold refused
    split
    · split <;> rfl
    · rfl
  · cases refusal with
    | gateway reason now =>
        unfold refused Phase.returning
        dsimp only
        cases job.restored with
        | none => exact .inl rfl
        | some waiting => exact .inr rfl
    | _ => exact .inl rfl
  · unfold refused
    split
    · split
      · exact .inl rfl
      · exact .inl rfl
    · exact .inl rfl

theorem granting_moves {approver userId jobId : Str} {ttlSeconds : Int} {waiting : Waiting}
    (held : waiting.Sound interpreter service jobId)
    (made : granting interpreter service state approver userId jobId ttlSeconds waiting input =
      (phase, after)) :
    Moves interpreter state index ⟨call, .decided approver userId jobId ttlSeconds waiting⟩ input.now
      phase after := by
  unfold granting at made
  dsimp only at made
  split at made
  · obtain ⟨rfl, rfl⟩ := Prod.mk.inj made
    exact .unlocks rfl rfl rfl rfl rfl rfl
  next grant approvals granted =>
    obtain ⟨rfl, rfl⟩ := Prod.mk.inj made
    obtain ⟨_, granted⟩ := guarded_eq_ok.mp granted
    obtain ⟨scope_, scopes, granted⟩ := bind_eq_ok.mp granted
    obtain ⟨handoff, validated, describes⟩ := createScope_eq_ok.mp scopes
    have same : handoff = waiting.handoff := held.unique (validatePending_validated validated)
    obtain ⟨_, expires, job, _⟩ := scope_eq_ok describes
    rw [same] at expires job
    rw [held.jobId] at job
    exact .grants approver userId jobId ttlSeconds waiting scope_ grant input.drawn rfl rfl rfl job
      expires granted rfl

/-- A scope that is granted. -/
theorem granting_of_grant {approver userId jobId : Str} {ttlSeconds : Int} {waiting : Waiting}
    {scope_ : ApprovalScope} {grant : ApprovalGrant} {approvals : ApprovalStore.Records}
    (other : waiting.handoff.userId ≠ userId)
    (created : createScope interpreter (some waiting.wire)
      (service.presented waiting.subject jobId input.now) service.signer.verifier = .ok scope_)
    (granted : ApprovalStore.grant interpreter state.approvals scope_ true input.now ttlSeconds
      input.drawn false = .ok (grant, approvals)) :
    granting interpreter service state approver userId jobId ttlSeconds waiting input =
      (.granted approver userId waiting grant input.now, { state with approvals }) := by
  unfold granting
  rw [if_neg other]
  simp only [created, granted, bind, Except.bind]

theorem recordGrant_moves {approver userId : Str} {waiting : Waiting} {grant : ApprovalGrant}
    {now : Int} (settled : state.recorder.Settled)
    (recorded : recordGrant service input state approver userId waiting grant now = (phase, after)) :
    Moves interpreter state index ⟨call, .granted approver userId waiting grant now⟩ input.now phase
      after := by
  obtain ⟨ends, cases_⟩ := recordGrant_cases settled recorded
  have alike : after.pending = state.pending ∧ after.approvals = state.approvals := by
    obtain rfl | ⟨event, returned, middle, _, appended, rfl⟩ := cases_
    · exact ⟨rfl, rfl⟩
    · cases appended with
      | refused recorder settled further chain raised => exact ⟨rfl, rfl⟩
      | linked recorder settled further chain caughtUp => exact ⟨rfl, rfl⟩
  obtain rfl | rfl := ends
  · exact .unlocks rfl alike.1 alike.2 rfl rfl rfl
  · exact .unlocks rfl alike.1 alike.2 rfl rfl rfl

/-- Every critical section of every request. -/
theorem turn_moves (settled : state.recorder.Settled) (held : request.phase.Sound interpreter service)
    (turned : turn interpreter service state index request input = some (phase, after)) :
    Moves interpreter state index request input.now phase after := by
  obtain ⟨call, before⟩ := request
  unfold turn at turned
  cases before with
  | called => exact begin_moves turned
  | issued job now =>
      refine record_moves settled (Option.some.inj turned) ?_ ?_ ?_
      · unfold submitted
        split
        · split_ifs <;> rfl
        · rfl
      · unfold submitted
        split
        · split_ifs
          · exact .inr rfl
          · exact .inr rfl
        · exact .inl rfl
      · unfold submitted
        split
        · split_ifs
          · exact .inr rfl
          · exact .inl rfl
        · exact .inl rfl
  | adding job =>
      dsimp only at turned
      split_ifs at turned with locked
      have free : state.lock = none := Option.not_isSome_iff_eq_none.mp locked
      split at turned
      next added =>
        obtain ⟨rfl, rfl⟩ := Prod.mk.inj (Option.some.inj turned)
        exact .adds job free rfl rfl rfl (congrArg Prod.snd added).symm rfl rfl rfl
      next added =>
        obtain ⟨rfl, rfl⟩ := Prod.mk.inj (Option.some.inj turned)
        exact .adds job free rfl rfl rfl (congrArg Prod.snd added).symm rfl rfl rfl
  | starting job =>
      obtain ⟨rfl, rfl⟩ := Prod.mk.inj (Option.some.inj turned)
      exact start_moves job
  | admitting job now endpoint => exact admitting_moves (Option.some.inj turned)
  | admitted attempt =>
      have recorded := Option.some.inj turned
      unfold recordAdmission at recorded
      split_ifs at recorded
      · obtain ⟨rfl, rfl⟩ := Prod.mk.inj recorded
        exact raises_moves
      · split at recorded
        · obtain ⟨rfl, rfl⟩ := Prod.mk.inj recorded
          exact raises_moves
        · exact record_moves settled recorded rfl (.inl rfl) (.inl rfl)
  | reserving attempt => exact reserving_moves (Option.some.inj turned)
  | committing attempt =>
      dsimp only at turned
      split at turned
      · obtain ⟨rfl, rfl⟩ := Prod.mk.inj (Option.some.inj turned)
        exact raises_moves
      · obtain ⟨rfl, rfl⟩ := Prod.mk.inj (Option.some.inj turned)
        exact .stays rfl rfl (.inl rfl) rfl (.inl rfl) (.inl rfl)
  | committed attempt =>
      have recorded := Option.some.inj turned
      unfold recordDispatch at recorded
      split at recorded
      · obtain ⟨rfl, rfl⟩ := Prod.mk.inj recorded
        exact raises_moves
      · exact record_moves settled recorded rfl (.inl rfl) (.inl rfl)
  | entering attempt =>
      obtain ⟨rfl, rfl⟩ := Prod.mk.inj (Option.some.inj turned)
      exact .stays rfl rfl (.inl rfl) rfl (.inl rfl) (.inl rfl)
  | running attempt =>
      obtain ⟨rfl, rfl⟩ := Prod.mk.inj (Option.some.inj turned)
      exact answered_moves input.answer
  | verifying attempt resultWire => exact verifying_moves (Option.some.inj turned)
  | accepting job acceptance =>
      exact record_moves settled (Option.some.inj turned) rfl (.inl rfl) (.inl rfl)
  | refusing job refusal => exact refusing_moves settled (Option.some.inj turned)
  | restoring jobId waiting =>
      dsimp only at turned
      split_ifs at turned with locked
      obtain ⟨rfl, rfl⟩ := Prod.mk.inj (Option.some.inj turned)
      exact .restores jobId waiting (Option.not_isSome_iff_eq_none.mp locked) rfl rfl rfl rfl rfl
  | decided approver userId jobId ttlSeconds waiting =>
      exact granting_moves held (Option.some.inj turned)
  | granted approver userId waiting grant now =>
      exact recordGrant_moves settled (Option.some.inj turned)
  | _ => cases turned

end Turns

/-- What every state of a run whose grants are punctual satisfies at a time that is
no earlier than what the clock has shown. -/
structure Exclusive (time : Int) (state : State) : Prop where
  distinct : (state.pending.map Prod.fst).Nodup
  known : ∀ entry ∈ state.approvals, entry.2.scope.jobId ∈ minted state.requests
  fresh : ∀ (index : Nat) (request : Request) (jobId : Str), state.requests[index]? = some request →
    request.fresh = some jobId → ∀ entry ∈ state.approvals, entry.2.scope.jobId ≠ jobId
  waits : ∀ entry ∈ state.pending,
    Bounded time entry.1 state.approvals entry.2.decisionExpiresAt
  returns : ∀ (index : Nat) (request : Request) (jobId : Str) (waiting : Waiting),
    state.requests[index]? = some request → request.phase.returning = some (jobId, waiting) →
    Bounded time jobId state.approvals waiting.decisionExpiresAt
  locked : ∀ (index : Nat) (request : Request), state.requests[index]? = some request →
    request.phase.locks = true → state.lock = some index
  decided : ∀ (index : Nat) (call : Call) (approver userId jobId : Str) (ttlSeconds : Int)
    (waiting : Waiting),
    state.requests[index]? = some ⟨call, .decided approver userId jobId ttlSeconds waiting⟩ →
    jobId ∈ state.pending.map Prod.fst ∧ ∀ entry ∈ state.approvals, ¬Live time jobId entry
  single : ∀ jobId, ∀ one ∈ state.approvals, ∀ two ∈ state.approvals, Live time jobId one →
    Live time jobId two → one = two

/-- Outside `decide` a step is punctual. -/
theorem punctual_of_unlocked {state : State} {index : Nat} {request : Request} {input : Input}
    (own : state.requests[index]? = some request) (outside : request.phase.locks = false) :
    Punctual state (.advance index input) := by
  intro call approver userId jobId ttlSeconds waiting stored found
  obtain rfl := Option.some.inj (own.symm.trans found)
  cases outside

section Bounds

variable {interpreter : Interpreter} {time now expires : Int} {jobId : Str}
  {records after : ApprovalStore.Records} {state : State}

theorem Live.earlier {entry : Bytes × ApprovalRecord} (live : Live now jobId entry)
    (passed : time ≤ now) : Live time jobId entry :=
  ⟨live.job, live.granted, passed.trans_lt live.unexpired⟩

theorem Bounded.later (bounded : Bounded time jobId records expires) (passed : time ≤ now) :
    Bounded now jobId records expires :=
  fun entry member live => bounded entry member (live.earlier passed)

theorem Fewer.of_eq (same : after = records) : Fewer records after := by
  subst same
  exact ⟨fun _ member _ => member, fun entry member => ⟨entry, member, rfl⟩⟩

theorem Consumes.fewer (consumes : Consumes interpreter records after) : Fewer records after := by
  obtain same | ⟨token, scope_, now, receipt, consumed⟩ := consumes
  · exact .of_eq same
  obtain ⟨record, updated, found, _, _, _, _, _, moved, _, _, rfl⟩ :=
    ApprovalStore.transition_eq_ok (guarded_eq_ok.mp consumed).2
  refine ⟨fun entry member live => ?_, fun entry member => ?_⟩
  · obtain ⟨old, kept, rfl⟩ := List.mem_map.mp member
    split_ifs at live ⊢
    · have open_ := live.granted
      rw [moved] at open_
      cases open_
    · exact kept
  · obtain ⟨old, kept, rfl⟩ := List.mem_map.mp member
    split_ifs
    · refine ⟨_, Assoc.mem_of_lookup found, ?_⟩
      rw [moved]
    · exact ⟨old, kept, rfl⟩

theorem Bounded.fewer (bounded : Bounded time jobId records expires) (fewer : Fewer records after) :
    Bounded time jobId after expires :=
  fun entry member live => bounded entry (fewer.live entry member live) live

theorem Exclusive.later (exclusive : Exclusive time state) (passed : time ≤ now) :
    Exclusive now state where
  distinct := exclusive.distinct
  known := exclusive.known
  fresh := exclusive.fresh
  waits entry member := (exclusive.waits entry member).later passed
  returns index request jobId waiting own held :=
    (exclusive.returns index request jobId waiting own held).later passed
  locked := exclusive.locked
  decided index call approver userId jobId ttlSeconds waiting own := by
    obtain ⟨queued, nobody⟩ := exclusive.decided index call approver userId jobId ttlSeconds waiting own
    exact ⟨queued, fun entry member live => nobody entry member (live.earlier passed)⟩
  single jobId one first two second live also :=
    exclusive.single jobId one first two second (live.earlier passed) (also.earlier passed)

theorem exclusive_initial (time : Int) : Exclusive time .initial where
  distinct := List.nodup_nil
  known _ member := nomatch member
  fresh _ _ _ own := nomatch own
  waits _ member := nomatch member
  returns _ _ _ _ own := nomatch own
  locked _ _ own := nomatch own
  decided _ _ _ _ _ _ _ own := nomatch own
  single _ _ first := nomatch first

end Bounds

section Claims

variable {state after : State} {request found : Request} {phase : Phase} {index other : Nat}
  {jobId : Str} {waiting : Waiting}

theorem requests_setPhase (requests : after.requests = state.requests)
    (lookup : (after.setPhase index request phase).requests[other]? = some found) :
    (other = index ∧ found = ⟨request.call, phase⟩) ∨
      (other ≠ index ∧ state.requests[other]? = some found) := by
  rw [State.setPhase, requests] at lookup
  by_cases same : other = index
  · subst same
    rw [List.getElem?_set_self'] at lookup
    obtain ⟨_, _, rfl⟩ := Option.map_eq_some_iff.mp lookup
    exact .inl ⟨rfl, rfl⟩
  · rw [List.getElem?_set_ne (Ne.symm same)] at lookup
    exact .inr ⟨same, lookup⟩

/-- A job that was never pending is claimed by its request. -/
theorem fresh_claim (fresh : request.fresh = some jobId) :
    ∃ marks, request.claim = some (jobId, marks) := by
  obtain ⟨call, before⟩ := request
  cases before with
  | called =>
      cases call with
      | submit subject own payload =>
          obtain rfl := Option.some.inj fresh
          exact ⟨_, rfl⟩
      | complete subject own token => cases fresh
      | approve approver own ttlSeconds => cases fresh
  | issued job now =>
      obtain rfl := Option.some.inj fresh
      exact ⟨_, rfl⟩
  | adding job =>
      obtain rfl := Option.some.inj fresh
      exact ⟨_, rfl⟩
  | _ => cases fresh

/-- A job that may be put back is claimed by its request. -/
theorem returning_claim (returning : request.phase.returning = some (jobId, waiting)) :
    ∃ marks, request.claim = some (jobId, marks) := by
  obtain ⟨call, before⟩ := request
  have restored : ∀ {job : Job}, (job.restored.map fun waiting => (job.jobId, waiting)) =
      some (jobId, waiting) → job.jobId = jobId ∧ job.restored.isSome = true := by
    intro job same
    obtain ⟨held, stored, same⟩ := Option.map_eq_some_iff.mp same
    rw [stored]
    exact ⟨congrArg Prod.fst same, rfl⟩
  cases before with
  | issued job now => exact ⟨_, congrArg (fun own => some (own, [])) (restored returning).1⟩
  | adding job => exact ⟨_, congrArg (fun own => some (own, _)) (restored returning).1⟩
  | starting job => exact ⟨_, congrArg (fun own => some (own, _)) (restored returning).1⟩
  | admitting job now endpoint =>
      exact ⟨_, congrArg (fun own => some (own, _)) (restored returning).1⟩
  | refusing job refusal =>
      cases refusal with
      | gateway reason now =>
          obtain ⟨rfl, isSome⟩ := restored returning
          exact ⟨_, if_pos isSome⟩
      | _ => cases returning
  | restoring own held =>
      obtain ⟨rfl, _⟩ := Prod.mk.inj (Option.some.inj returning)
      exact ⟨_, rfl⟩
  | _ => cases returning

end Claims

section Steps

variable {time : Int} {state after : State} {request : Request} {phase : Phase} {index : Nat}

/-- What no grant is made in. -/
theorem Exclusive.keeps (exclusive : Exclusive time state)
    (own : state.requests[index]? = some request) (requests : after.requests = state.requests)
    (distinct : (after.pending.map Prod.fst).Nodup)
    (fewer : Fewer state.approvals after.approvals)
    (waits : ∀ entry ∈ after.pending,
      Bounded time entry.1 state.approvals entry.2.decisionExpiresAt)
    (returning : phase.returning = none ∨ phase.returning = request.phase.returning ∨
      ∃ entry ∈ state.pending, phase.returning = some entry)
    (fresh : (Request.mk request.call phase).fresh = none ∨
      (Request.mk request.call phase).fresh = request.fresh)
    (lock : after.lock = state.lock ∨ state.lock = none ∨ state.lock = some index)
    (inside : phase.locks = true → after.lock = some index)
    (queued : state.lock = none ∨ after.pending = state.pending)
    (decides : ∀ approver userId jobId ttlSeconds waiting,
      phase = .decided approver userId jobId ttlSeconds waiting →
      jobId ∈ after.pending.map Prod.fst ∧ ∀ entry ∈ state.approvals, ¬Live time jobId entry) :
    Exclusive time (after.setPhase index request phase) where
  distinct := distinct
  known := by
    intro entry member
    obtain ⟨old, kept, same⟩ := fewer.scope entry member
    have minted_ : minted (after.setPhase index request phase).requests = minted state.requests := by
      rw [State.setPhase, requests]
      exact minted_set own phase
    rw [minted_, ← same]
    exact exclusive.known old kept
  fresh := by
    intro other found jobId lookup held entry member
    obtain ⟨old, kept, same⟩ := fewer.scope entry member
    rw [← same]
    obtain ⟨rfl, rfl⟩ | ⟨_, before⟩ := requests_setPhase requests lookup
    · obtain nothing | before := fresh
      · rw [nothing] at held
        cases held
      · exact exclusive.fresh other request jobId own (before ▸ held) old kept
    · exact exclusive.fresh other found jobId before held old kept
  waits entry member := (waits entry member).fewer fewer
  returns := by
    intro other found jobId waiting lookup held
    obtain ⟨rfl, rfl⟩ | ⟨_, before⟩ := requests_setPhase requests lookup
    · obtain nothing | before | ⟨entry, member, taken⟩ := returning
      · rw [nothing] at held
        cases held
      · exact (exclusive.returns other request jobId waiting own (before ▸ held)).fewer fewer
      · rw [taken] at held
        obtain rfl := Option.some.inj held
        exact (exclusive.waits _ member).fewer fewer
    · exact (exclusive.returns other found jobId waiting before held).fewer fewer
  locked := by
    intro other found lookup held
    obtain ⟨rfl, rfl⟩ | ⟨apart, before⟩ := requests_setPhase requests lookup
    · exact inside held
    · have holds := exclusive.locked other found before held
      obtain same | free | mine := lock
      · exact same.trans holds
      · rw [free] at holds
        cases holds
      · rw [mine] at holds
        exact (apart (Option.some.inj holds).symm).elim
  decided := by
    intro other call approver userId jobId ttlSeconds waiting lookup
    obtain ⟨rfl, same⟩ | ⟨apart, before⟩ := requests_setPhase requests lookup
    · obtain ⟨waits, nobody⟩ := decides _ _ _ _ _ (congrArg Request.phase same).symm
      exact ⟨waits, fun entry member live => nobody entry (fewer.live entry member live) live⟩
    · have holds := exclusive.locked other _ before rfl
      obtain ⟨waits, nobody⟩ := exclusive.decided _ _ _ _ _ _ _ before
      obtain free | same := queued
      · rw [free] at holds
        cases holds
      · refine ⟨?_, fun entry member live => nobody entry (fewer.live entry member live) live⟩
        rw [State.setPhase, same]
        exact waits
  single jobId one first two second live also :=
    exclusive.single jobId one (fewer.live one first live) two (fewer.live two second also) live also

/-- An entry that is added had no token granted. -/
theorem Exclusive.adds {job : Job} {now : Int} (exclusive : Exclusive time state)
    (own : state.requests[index]? = some request) (requests : after.requests = state.requests)
    (free : state.lock = none) (lock : after.lock = state.lock)
    (held : request.fresh = some job.jobId) (approvals : after.approvals = state.approvals)
    (pending : after.pending = (PendingJobs.add state.pending job.jobId job.waiting now).2)
    (outside : phase.locks = false) (returning : phase.returning = none)
    (fresh : (Request.mk request.call phase).fresh = none) :
    Exclusive time (after.setPhase index request phase) := by
  have unknown := exclusive.fresh index request job.jobId own held
  refine exclusive.keeps own requests ?_ (.of_eq approvals) ?_ (.inl returning) (.inl fresh)
    (.inl lock) (fun locks => ?_) (.inl free) fun approver userId jobId ttlSeconds waiting holds => ?_
  · rw [pending]
    obtain same | ⟨absent, _, same⟩ := PendingJobs.add_after state.pending job.jobId job.waiting now
    · rw [same]
      exact exclusive.distinct.sublist (List.filter_sublist.map _)
    · rw [same, List.map_append, List.map_singleton]
      refine List.Nodup.append (exclusive.distinct.sublist (List.filter_sublist.map _))
        (List.nodup_singleton _) (List.disjoint_singleton.mpr absent)
  · intro entry member
    rw [pending] at member
    have known : entry ∈ state.pending ∨ entry = (job.jobId, job.waiting) := by
      obtain same | ⟨_, _, same⟩ := PendingJobs.add_after state.pending job.jobId job.waiting now
      · rw [same] at member
        exact .inl (List.mem_filter.mp member).1
      · rw [same] at member
        exact (List.mem_append.mp member).imp (fun old => (List.mem_filter.mp old).1)
          List.mem_singleton.mp
    obtain old | rfl := known
    · exact exclusive.waits entry old
    · exact fun record stored live => (unknown record stored live.job).elim
  · rw [outside] at locks
    cases locks
  · rw [holds] at outside
    cases outside

/-- A job that is put back has the bound it was taken with. -/
theorem Exclusive.restores {jobId : Str} {waiting : Waiting} (exclusive : Exclusive time state)
    (own : state.requests[index]? = some request) (requests : after.requests = state.requests)
    (free : state.lock = none) (lock : after.lock = state.lock)
    (held : request.phase.returning = some (jobId, waiting))
    (approvals : after.approvals = state.approvals)
    (pending : after.pending = PendingJobs.restore state.pending jobId waiting) :
    Exclusive time (after.setPhase index request .raised) := by
  refine exclusive.keeps own requests ?_ (.of_eq approvals) (fun entry member => ?_) (.inl rfl)
    (.inl rfl) (.inl lock) Bool.noConfusion (.inl free) fun _ _ _ _ _ => Phase.noConfusion
  · rw [pending]
    by_cases present : jobId ∈ state.pending.map Prod.fst
    · rw [PendingJobs.restore, if_pos (Assoc.lookup_isSome_iff.mpr present)]
      exact exclusive.distinct
    · rw [PendingJobs.restore_of_absent present, List.map_append, List.map_singleton]
      exact exclusive.distinct.append (List.nodup_singleton _) (List.disjoint_singleton.mpr present)
  · rw [pending, PendingJobs.restore] at member
    split_ifs at member
    · exact exclusive.waits entry member
    · obtain old | new := List.mem_append.mp member
      · exact exclusive.waits entry old
      · rw [List.mem_singleton.mp new]
        exact exclusive.returns index request jobId waiting own held

theorem Exclusive.takes {jobId subject : Str} {waiting : Waiting} (exclusive : Exclusive time state)
    (own : state.requests[index]? = some request) (requests : after.requests = state.requests)
    (free : state.lock = none) (lock : after.lock = state.lock)
    (approvals : after.approvals = state.approvals)
    (taken : PendingJobs.take state.pending jobId subject = .ok (waiting, after.pending))
    (outside : phase.locks = false) (returning : phase.returning = some (jobId, waiting))
    (fresh : (Request.mk request.call phase).fresh = none) :
    Exclusive time (after.setPhase index request phase) := by
  obtain ⟨found, _, left⟩ := PendingJobs.take_eq_ok taken
  refine exclusive.keeps own requests ?_ (.of_eq approvals) (fun entry member => ?_)
    (.inr (.inr ⟨_, Assoc.mem_of_lookup found, returning⟩)) (.inl fresh) (.inl lock)
    (fun locks => ?_) (.inl free) fun approver userId jobId ttlSeconds waiting holds => ?_
  · rw [left]
    exact exclusive.distinct.sublist (List.filter_sublist.map _)
  · rw [left] at member
    exact exclusive.waits entry (List.mem_filter.mp member).1
  · rw [outside] at locks
    cases locks
  · rw [holds] at outside
    cases outside

/-- When a decision is made, no token of the job can be consumed. -/
theorem Exclusive.decides {approver userId jobId : Str} {ttlSeconds : Int} {waiting : Waiting}
    (exclusive : Exclusive time state) (own : state.requests[index]? = some request)
    (requests : after.requests = state.requests) (free : state.lock = none)
    (lock : after.lock = some index) (approvals : after.approvals = state.approvals)
    (decided : PendingJobs.decide state.pending jobId userId time ttlSeconds =
      .ok (waiting, after.pending)) :
    Exclusive time (after.setPhase index request
      (.decided approver userId jobId ttlSeconds waiting)) := by
  obtain ⟨found, _, expired, expires, _, replaced⟩ := decide_eq_ok decided
  have nobody : ∀ entry ∈ state.approvals, ¬Live time jobId entry := by
    intro entry member live
    have bound := exclusive.waits _ (Assoc.mem_of_lookup found) entry member live
    exact absurd (live.unexpired.trans_le bound) (not_lt.mpr expired)
  have keys : after.pending.map Prod.fst = state.pending.map Prod.fst := by
    rw [replaced, PendingJobs.keys_replace]
  refine exclusive.keeps own requests ?_ (.of_eq approvals) (fun entry member => ?_) (.inl rfl)
    (.inl rfl) (.inr (.inl free)) (fun _ => lock) (.inl free) ?_
  · rw [keys]
    exact exclusive.distinct
  · rw [replaced] at member
    obtain ⟨old, kept, rfl⟩ := List.mem_map.mp member
    split_ifs with same
    · exact fun record stored live => (nobody record stored live).elim
    · exact exclusive.waits old kept
  · intro _ _ _ _ _ same
    obtain ⟨_, _, rfl, _⟩ := Phase.decided.inj same
    rw [keys]
    exact ⟨Assoc.lookup_isSome_iff.mp (Option.isSome_of_eq_some found), nobody⟩

/-- A punctual grant is the only token of its job that can be consumed, and it
expires no later than the stored decision. -/
theorem Exclusive.grants {interpreter : Interpreter} {service : Service}
    {approver userId jobId : Str} {ttlSeconds : Int} {waiting : Waiting} {scope_ : ApprovalScope}
    {grant : ApprovalGrant} {drawn : Option Bytes} (orderly : Orderly interpreter service state)
    (exclusive : Exclusive time state) (own : state.requests[index]? = some request)
    (requests : after.requests = state.requests)
    (held : request.phase = .decided approver userId jobId ttlSeconds waiting)
    (pending : after.pending = state.pending) (lock : after.lock = state.lock)
    (job : scope_.jobId = jobId) (expires : scope_.handoffExpiresAt = waiting.handoff.expiresAt)
    (made : ApprovalStore.grant interpreter state.approvals scope_ true time ttlSeconds drawn false =
      .ok (grant, after.approvals))
    (punctual : ∀ stored, state.pending.lookup jobId = some stored →
      min (time + ttlSeconds) waiting.handoff.expiresAt ≤ stored.decisionExpiresAt) :
    Exclusive time (after.setPhase index request (.granted approver userId waiting grant time)) := by
  obtain ⟨call, before⟩ := request
  obtain rfl : before = _ := held
  obtain ⟨queued, nobody⟩ := exclusive.decided _ _ _ _ _ _ _ own
  obtain ⟨_, _, _, _, record, free, added, _, entry, _⟩ := ApprovalStore.grant_stores made
  have named : record.scope.jobId = jobId := by rw [entry, ← job]
  have limit : record.expiresAt = min (time + ttlSeconds) waiting.handoff.expiresAt := by
    rw [entry, ← expires]
  have known : ∀ {stored}, stored ∈ after.approvals →
      stored ∈ state.approvals ∨ stored = (Sha256.digest grant.token, record) := by
    intro stored member
    rw [added] at member
    exact (List.mem_append.mp member).imp_right List.mem_singleton.mp
  -- the store of pending jobs holds the job
  obtain ⟨⟨waits, queuedAs⟩, inside, rfl⟩ := List.mem_map.mp queued
  have kept : state.custody.holds none _ (reached queuedAs.handoff 1) := ⟨queuedAs, inside, rfl⟩
  have unclaimed : ∀ {other : Nat} {found : Request} {marks}, state.requests[other]? = some found →
      found.claim = some (record.scope.jobId, marks) → False := by
    intro other found marks lookup claim
    rw [named] at claim
    have held : state.custody.holds (some other) _ marks := ⟨found, lookup, claim⟩
    cases orderly.kept.alone kept held
  refine ⟨?_, ?_, ?_, ?_, ?_, ?_, ?_, ?_⟩
  · change (after.pending.map Prod.fst).Nodup
    rw [pending]
    exact exclusive.distinct
  · intro stored member
    rw [State.setPhase, requests, minted_set own]
    obtain old | rfl := known member
    · exact exclusive.known stored old
    · rw [named]
      exact orderly.kept.entered kept
  · intro other found jobId lookup fresh stored member
    obtain ⟨rfl, rfl⟩ | ⟨_, lookup⟩ := requests_setPhase requests lookup
    · cases fresh
    · obtain old | rfl := known member
      · exact exclusive.fresh other found jobId lookup fresh stored old
      · rintro rfl
        obtain ⟨marks, claim⟩ := fresh_claim fresh
        exact unclaimed lookup claim
  · intro queuedEntry member stored memberStored live
    change queuedEntry ∈ after.pending at member
    rw [pending] at member
    obtain old | rfl := known memberStored
    · exact exclusive.waits queuedEntry member stored old live
    · have same := named.symm.trans live.job
      obtain ⟨other, held⟩ := queuedEntry
      obtain rfl : _ = other := same
      rw [limit]
      exact punctual held (Assoc.lookup_of_mem_nodup exclusive.distinct member)
  · intro other found jobId stored lookup returning entry member live
    obtain ⟨rfl, rfl⟩ | ⟨_, lookup⟩ := requests_setPhase requests lookup
    · cases returning
    · obtain old | rfl := known member
      · exact exclusive.returns other found jobId stored lookup returning entry old live
      · obtain ⟨marks, claim⟩ := returning_claim returning
        rw [← live.job] at claim
        exact (unclaimed lookup claim).elim
  · intro other found lookup locks
    change after.lock = some other
    rw [lock]
    obtain ⟨rfl, rfl⟩ | ⟨_, lookup⟩ := requests_setPhase requests lookup
    · exact exclusive.locked other _ own rfl
    · exact exclusive.locked other found lookup locks
  · intro other call approver userId jobId ttlSeconds waiting lookup
    obtain ⟨_, same⟩ | ⟨apart, lookup⟩ := requests_setPhase requests lookup
    · cases same
    · -- the lock is held by the request that made the grant
      have mine := exclusive.locked index _ own rfl
      have theirs := exclusive.locked other _ lookup rfl
      exact (apart (Option.some.inj (theirs.symm.trans mine))).elim
  · intro other one first two second live also
    have only : ∀ {stored}, stored ∈ after.approvals → Live time other stored →
        other = record.scope.jobId → stored = (Sha256.digest grant.token, record) := by
      intro stored member live same
      obtain old | new := known member
      · rw [same, named] at live
        exact (nobody stored old live).elim
      · exact new
    by_cases same : other = record.scope.jobId
    · rw [only first live same, only second also same]
    · have before : ∀ {stored}, stored ∈ after.approvals → Live time other stored →
          stored ∈ state.approvals := by
        intro stored member live
        obtain old | rfl := known member
        · exact old
        · exact (same live.job.symm).elim
      exact exclusive.single other one (before first live) two (before second also) live also

/-- Every critical section, where a grant is punctual. -/
theorem Exclusive.moves {interpreter : Interpreter} {service : Service}
    (orderly : Orderly interpreter service state) (exclusive : Exclusive time state)
    (own : state.requests[index]? = some request) (requests : after.requests = state.requests)
    (moves : Moves interpreter state index request time phase after)
    (punctual : ∀ approver userId jobId ttlSeconds waiting stored,
      request.phase = .decided approver userId jobId ttlSeconds waiting →
      state.pending.lookup jobId = some stored →
      min (time + ttlSeconds) waiting.handoff.expiresAt ≤ stored.decisionExpiresAt) :
    Exclusive time (after.setPhase index request phase) := by
  cases moves with
  | stays pending lock approvals outside returning fresh =>
      refine exclusive.keeps own requests ?_ approvals.fewer (fun entry member => ?_)
        (returning.imp_right .inl) fresh (.inl lock) (fun locks => ?_) (.inr pending)
        fun approver userId jobId ttlSeconds waiting holds => ?_
      · rw [pending]
        exact exclusive.distinct
      · rw [pending] at member
        exact exclusive.waits entry member
      · rw [outside] at locks
        cases locks
      · rw [holds] at outside
        cases outside
  | unlocks held pending approvals outside returning fresh =>
      have mine := exclusive.locked index request own held
      refine exclusive.keeps own requests ?_ (.of_eq approvals) (fun entry member => ?_)
        (.inl returning) (.inl fresh) (.inr (.inr mine)) (fun locks => ?_) (.inr pending)
        fun approver userId jobId ttlSeconds waiting holds => ?_
      · rw [pending]
        exact exclusive.distinct
      · rw [pending] at member
        exact exclusive.waits entry member
      · rw [outside] at locks
        cases locks
      · rw [holds] at outside
        cases outside
  | adds job free lock held approvals pending outside returning fresh =>
      exact exclusive.adds own requests free lock held approvals pending outside returning fresh
  | restores jobId waiting free lock held approvals pending raised =>
      subst raised
      exact exclusive.restores own requests free lock held approvals pending
  | takes jobId subject waiting free lock approvals taken outside returning fresh =>
      exact exclusive.takes own requests free lock approvals taken outside returning fresh
  | decides approver userId jobId ttlSeconds waiting free lock approvals decided holds =>
      subst holds
      exact exclusive.decides own requests free lock approvals decided
  | grants approver userId jobId ttlSeconds waiting scope_ grant drawn held pending lock job expires
      made holds =>
      subst holds
      exact exclusive.grants orderly own requests held pending lock job expires made
        fun stored => punctual _ _ _ _ _ stored held

/-- A new request changes nothing but the ids that were minted. -/
theorem Exclusive.requested {call : Call} (exclusive : Exclusive time state)
    (unminted : ∀ jobId ∈ call.minted, jobId ∉ minted state.requests) :
    Exclusive time { state with requests := state.requests ++ [⟨call, .called⟩] } where
  distinct := exclusive.distinct
  known := by
    intro entry member
    rw [minted_concat]
    exact List.mem_append_left _ (exclusive.known entry member)
  fresh := by
    intro index request jobId lookup fresh entry member
    obtain old | ⟨_, rfl⟩ := getElem?_requested lookup
    · exact exclusive.fresh index request jobId old fresh entry member
    · rintro rfl
      exact unminted _ fresh (exclusive.known entry member)
  waits := exclusive.waits
  returns := by
    intro index request jobId waiting lookup returning
    obtain old | ⟨_, rfl⟩ := getElem?_requested lookup
    · exact exclusive.returns index request jobId waiting old returning
    · cases returning
  locked := by
    intro index request lookup locks
    obtain old | ⟨_, rfl⟩ := getElem?_requested lookup
    · exact exclusive.locked index request old locks
    · cases locks
  decided := by
    intro index other approver userId jobId ttlSeconds waiting lookup
    obtain old | ⟨_, same⟩ := getElem?_requested lookup
    · exact exclusive.decided index other approver userId jobId ttlSeconds waiting old
    · cases same
  single := exclusive.single

end Steps

section Runs

variable {interpreter : Interpreter} {service : Service} {time : Int} {state next : State}
  {label : Label} {labels : List Label}

theorem Exclusive.step (orderly : Orderly interpreter service state)
    (exclusive : Exclusive time state)
    (unminted : ∀ jobId ∈ label.minted, jobId ∉ minted state.requests)
    (punctual : Punctual state label) (shown : ∀ reading ∈ label.reading, reading = time)
    (stepped : step interpreter service state label = some next) : Exclusive time next := by
  have grounded : Grounded interpreter service state := ⟨orderly.sound, orderly.settled⟩
  obtain ⟨call, rfl, rfl⟩ | ⟨index, input, request, phase, after, rfl, own, turned, moved, rfl⟩ :=
    step_cases grounded stepped
  · exact exclusive.requested unminted
  · obtain rfl := shown input.now rfl
    have held := grounded.sound.requests request (List.mem_of_getElem? own)
    refine exclusive.moves orderly own moved.requests (turn_moves grounded.settled held turned) ?_
    intro approver userId jobId ttlSeconds waiting stored decided
    obtain ⟨call, before⟩ := request
    obtain rfl : before = _ := decided
    exact punctual call approver userId jobId ttlSeconds waiting stored own

theorem exclusive_of_run (distinct : (labels.filterMap Label.minted).Nodup)
    (ran : run (Wiring.step interpreter service) State.initial labels = some state)
    (clock : (labels.filterMap Label.reading).Pairwise (· ≤ ·))
    (punctual : Along (Wiring.step interpreter service) Punctual State.initial labels)
    (current : ∀ reading ∈ labels.filterMap Label.reading, reading ≤ time) :
    Exclusive time state := by
  induction labels using List.reverseRecOn generalizing state time with
  | nil =>
      obtain rfl : State.initial = state := Option.some.inj ran
      exact exclusive_initial time
  | append_singleton labels label ih =>
      obtain ⟨middle, before, stepped⟩ := (run_append_singleton _).mp ran
      rw [List.filterMap_append] at distinct clock current
      obtain ⟨first, _, apart⟩ := List.nodup_append.mp distinct
      obtain ⟨ordered, _, follows⟩ := List.pairwise_append.mp clock
      obtain ⟨orderly, known⟩ := orderly_of_run first before
      have unminted : ∀ jobId ∈ label.minted, jobId ∉ minted middle.requests := by
        intro jobId member old
        rw [known] at old
        refine apart jobId old jobId (List.mem_filterMap.mpr ?_) rfl
        exact ⟨label, List.mem_singleton_self label, member⟩
      have allowed := punctual labels label [] middle rfl before
      have earlier := fun time => @ih time middle first before ordered punctual.of_append
      cases shown : label.reading with
      | none =>
          refine (earlier time fun reading member => ?_).step orderly unminted allowed ?_ stepped
          · exact current reading (List.mem_append_left _ member)
          · rw [shown]
            exact fun _ absent => nomatch absent
      | some now =>
          have last : now ∈ [label].filterMap Label.reading :=
            List.mem_filterMap.mpr ⟨label, List.mem_singleton_self label, shown⟩
          have after : Exclusive now state := by
            refine (earlier now fun reading member => follows reading member now last).step orderly
              unminted allowed (fun reading same => ?_) stepped
            rw [shown] at same
            exact (Option.some.inj same).symm
          exact after.later (current now (List.mem_append_right _ last))

/-- An approval call on a job that has a token which could be consumed raises. -/
theorem Exclusive.refuses {index : Nat} {approver : Option Str} {jobId : Str} {ttlSeconds : Int}
    {input : Input} (exclusive : Exclusive input.now state)
    (own : state.requests[index]? = some ⟨.approve approver jobId ttlSeconds, .called⟩)
    (live : ∃ entry ∈ state.approvals, Live input.now jobId entry)
    (stepped : Wiring.step interpreter service state (.advance index input) = some next) :
    next.requests[index]? = some ⟨.approve approver jobId ttlSeconds, .raised⟩ ∧
      next.approvals = state.approvals := by
  obtain ⟨request, found, rest⟩ := Option.bind_eq_some_iff.mp stepped
  obtain ⟨⟨phase, after⟩, turned, same⟩ := Option.bind_eq_some_iff.mp rest
  obtain rfl := Option.some.inj (own.symm.trans found)
  obtain rfl := Option.some.inj same
  obtain ⟨inside, _⟩ := List.getElem?_eq_some_iff.mp own
  have begun : begin_ interpreter service state index input (.approve approver jobId ttlSeconds) =
      some (phase, after) := turned
  have raised : phase = .raised ∧ after = state := by
    unfold begin_ at begun
    dsimp only at begun
    split at begun
    · split_ifs at begun
      split at begun
      · obtain ⟨rfl, rfl⟩ := Prod.mk.inj (Option.some.inj begun)
        exact ⟨rfl, rfl⟩
      next decided =>
        obtain ⟨waits, _, expired, _⟩ := decide_eq_ok decided
        obtain ⟨entry, member, open_⟩ := live
        have bound := exclusive.waits _ (Assoc.mem_of_lookup waits) entry member open_
        exact absurd (open_.unexpired.trans_le bound) (not_lt.mpr expired)
    · obtain ⟨rfl, rfl⟩ := Prod.mk.inj (Option.some.inj begun)
      exact ⟨rfl, rfl⟩
  obtain ⟨rfl, rfl⟩ := raised
  exact ⟨List.getElem?_set_self inside, rfl⟩

end Runs

/-- In every run of the service with job ids that were minted once each, whose clock
never shows an earlier time and in which no granted token outlives the decision
stored with its job: at every moment from the last reading on, a job has at most
one token that was granted and has not expired, and an approval call made while
there is one raises and grants nothing. -/
theorem one_live_approval (interpreter : Interpreter) (service : Service) (labels : List Label)
    (final : State) (time : Int) (distinct : (labels.filterMap Label.minted).Nodup)
    (ran : run (step interpreter service) .initial labels = some final)
    (clock : (labels.filterMap Label.reading).Pairwise (· ≤ ·))
    (punctual : Along (step interpreter service) Punctual .initial labels)
    (current : ∀ reading ∈ labels.filterMap Label.reading, reading ≤ time) :
    (∀ jobId, ∀ one ∈ final.approvals, ∀ two ∈ final.approvals, Live time jobId one →
      Live time jobId two → one = two) ∧
    ∀ index approver jobId ttlSeconds input next,
      final.requests[index]? = some ⟨.approve approver jobId ttlSeconds, .called⟩ →
      input.now = time → (∃ entry ∈ final.approvals, Live time jobId entry) →
      step interpreter service final (.advance index input) = some next →
      next.requests[index]? = some ⟨.approve approver jobId ttlSeconds, .raised⟩ ∧
        next.approvals = final.approvals := by
  have exclusive : Exclusive time final := exclusive_of_run distinct ran clock punctual current
  refine ⟨exclusive.single, ?_⟩
  rintro index approver jobId ttlSeconds input next own rfl live stepped
  exact exclusive.refuses own live stepped

section Instance

def demoApprove : Call := .approve (some (str "approver-demo")) (str "job-demo") 30

/-- The demo job with a decision that expires at a time. -/
def demoDecided (decision : Int) : Waiting := { demoPending with decisionExpiresAt := decision }

/-- The demo job waits, and approval calls on it have come to some phases. -/
def demoApproving (recorder : Recorder) (evidence : List Evidence) (lock : Option Nat)
    (decision : Int) (approvals : ApprovalStore.Records) (phases : List Phase) : State :=
  { State.initial with
    pending := [(str "job-demo", demoDecided decision)]
    lock
    approvals
    recorder
    evidence
    requests := ⟨demoSubmit, .returned⟩ :: phases.map fun phase => ⟨demoApprove, phase⟩ }

def decidedPhase (decision : Int) : Phase :=
  .decided (str "approver-demo") (str "operator-demo") (str "job-demo") 30 (demoDecided decision)

def grantedPhase (decision : Int) (grant : ApprovalGrant) (now : Int) : Phase :=
  .granted (str "approver-demo") (str "operator-demo") (demoDecided decision) grant now

variable {recorder : Recorder} {evidence : List Evidence} {approvals : ApprovalStore.Records}
  {state : State} {token : Bytes} {now decision stored : Int}

/-- A token is granted for the demo job. -/
theorem granting_demo (window : 100 ≤ now ∧ now < 160) (long : tokenBytes ≤ token.length)
    (free : approvals.lookup (Sha256.digest token) = none)
    (printed : ∀ time ∈ [now, min (now + 30) 160],
      (Value.int time).printable literalInterpreter = true) (lock : Option Nat)
    (phases : List Phase) :
    ∃ grant record, granting literalInterpreter (demoService true)
        (demoApproving recorder evidence lock stored approvals phases) (str "approver-demo")
        (str "operator-demo") (str "job-demo") 30 (demoDecided decision)
        (.answering now (some token)) =
      (grantedPhase decision grant now, demoApproving recorder evidence lock stored
        (approvals ++ [(Sha256.digest token, record)]) phases) ∧
      record.scope.jobId = str "job-demo" ∧ record.state = .granted ∧
      record.expiresAt = min (now + 30) 160 := by
  obtain ⟨scope_, expires, created⟩ := demoTime_early.createScope
  have made := created now window.1 window.2
  have limit : scope_.handoffExpiresAt = 160 := expires
  have early : now < scope_.handoffExpiresAt := by omega
  have named : scope_.jobId = str "job-demo" := by
    obtain ⟨handoff, validated, describes⟩ := createScope_eq_ok.mp made
    rw [(scope_eq_ok describes).2.2.1]
    exact (validatePending_validated validated).jobId
  have whole : (Value.int scope_.handoffExpiresAt).printable literalInterpreter = true := by
    rw [limit]
    decide
  let entry : ApprovalEntry := ⟨Sha256.digest token, scope_, now,
    min (now + 30) scope_.handoffExpiresAt, .granted, now, none⟩
  simp only [List.forall_mem_cons, List.not_mem_nil, false_implies, implies_true,
    and_true] at printed
  have prints : entry.toDict.printable literalInterpreter = true := by
    refine ApprovalStore.entry_printable.mpr ?_
    simp only [List.forall_mem_cons, List.not_mem_nil, false_implies, implies_true, and_true]
    change _ ∧ (Value.int (min (now + 30) scope_.handoffExpiresAt)).printable literalInterpreter =
      true ∧ _ ∧ _
    rw [limit]
    exact ⟨printed.1, printed.2, printed.1, limit ▸ whole⟩
  obtain ⟨grant, record, granted, stored⟩ :=
    ApprovalStore.grant_of_printable rfl (by decide) early long free prints
  refine ⟨grant, record, ?_, ?_, ?_, ?_⟩
  · have other : (demoHandoff true).userId ≠ str "operator-demo" := by decide
    exact granting_of_grant other made granted
  · rw [stored]
    exact named
  · rw [stored]
  · rw [stored, ← limit]

/-- The decision, read at 100, expires at 130. -/
theorem step_decided : step literalInterpreter (demoService true)
    (demoApproving recorder evidence none 0 [] [.called]) (.advance 1 (.answering 100 none)) =
      some (demoApproving recorder evidence (some 1) 130 [] [decidedPhase 0]) := rfl

/-- The token, read later, expires thirty seconds after that. -/
theorem step_granted (window : 100 ≤ now ∧ now < 160)
    (printed : ∀ time ∈ [now, min (now + 30) 160],
      (Value.int time).printable literalInterpreter = true) :
    ∃ grant record, step literalInterpreter (demoService true)
        (demoApproving recorder evidence (some 1) 130 [] [decidedPhase 0])
        (.advance 1 (.answering now (some ApprovalStore.demoToken))) =
      some (demoApproving recorder evidence (some 1) 130
        [(Sha256.digest ApprovalStore.demoToken, record)] [grantedPhase 0 grant now]) ∧
      record.scope.jobId = str "job-demo" ∧ record.state = .granted ∧
      record.expiresAt = min (now + 30) 160 := by
  obtain ⟨grant, record, granted, rest⟩ := @granting_demo recorder evidence []
    ApprovalStore.demoToken now 0 130 window (by decide) rfl printed (some 1) [decidedPhase 0]
  have turned : turn literalInterpreter (demoService true)
      (demoApproving recorder evidence (some 1) 130 [] [decidedPhase 0]) 1
      ⟨demoApprove, decidedPhase 0⟩ (.answering now (some ApprovalStore.demoToken)) =
        some (grantedPhase 0 grant now, _) := congrArg some granted
  exact ⟨grant, record, (advance _ _ _ rfl turned rfl).1, rest⟩

/-- The call ends, whatever becomes of its event. -/
theorem step_unlocked {grant : ApprovalGrant} (settled : recorder.Settled) :
    ∃ recorder' evidence' phase, step literalInterpreter (demoService true)
        (demoApproving recorder evidence (some 1) 130 approvals [grantedPhase 0 grant now])
        (.advance 1 (.answering now none)) =
      some (demoApproving recorder' evidence' none 130 approvals [phase]) := by
  rcases recorded : recordGrant (demoService true) (.answering now none)
    (demoApproving recorder evidence (some 1) 130 approvals [grantedPhase 0 grant now])
    (str "approver-demo") (str "operator-demo") (demoDecided 0) grant now with ⟨phase, after⟩
  obtain ⟨_, ends⟩ := recordGrant_cases settled recorded
  have alike : ∃ recorder' evidence', after = demoApproving recorder' evidence' none 130 approvals
      [grantedPhase 0 grant now] := by
    obtain rfl | ⟨event, returned, middle, _, appended, rfl⟩ := ends
    · exact ⟨_, _, rfl⟩
    · cases appended with
      | refused recorder settled further chain raised => exact ⟨_, _, rfl⟩
      | linked recorder settled further chain caughtUp => exact ⟨_, _, rfl⟩
  obtain ⟨recorder', evidence', rfl⟩ := alike
  have turned : turn literalInterpreter (demoService true)
      (demoApproving recorder evidence (some 1) 130 approvals [grantedPhase 0 grant now]) 1
      ⟨demoApprove, grantedPhase 0 grant now⟩ (.answering now none) = some (phase, _) :=
    congrArg some recorded
  exact ⟨recorder', evidence', phase, (advance _ _ _ rfl turned rfl).1⟩

/-- The job of the demo service was added, and an approval call entered. -/
def demoOpening : List Label :=
  [.request demoSubmit, .advance 0 (.answering 100 none), .advance 0 (.answering 100 none)] ++
    [.advance 0 (.answering 100 none), .request demoApprove]

theorem run_opening : ∃ recorder evidence, recorder.Settled ∧
    run (step literalInterpreter (demoService true)) .initial demoOpening =
      some (demoApproving recorder evidence none 0 [] [.called]) ∧
    Along (step literalInterpreter (demoService true)) Punctual .initial demoOpening := by
  obtain ⟨recorder, evidence, first, second, settled, _⟩ := step_submitted true
  have adds : step literalInterpreter (demoService true)
      (demoSubmitted recorder evidence (.adding (demoJob true))) (.advance 0 (.answering 100 none)) =
        some (demoApproving recorder evidence none 0 [] []) := rfl
  have asked : step literalInterpreter (demoService true) .initial (.request demoSubmit) =
      some (demoSubmitted ⟨[], .initial, false⟩ [] .called) := rfl
  have enters : step literalInterpreter (demoService true)
      (demoApproving recorder evidence none 0 [] []) (.request demoApprove) =
        some (demoApproving recorder evidence none 0 [] [.called]) := rfl
  refine ⟨recorder, evidence, settled, ?_, ?_⟩
  · exact (run_cons _).mpr ⟨_, asked, (run_cons _).mpr ⟨_, first, (run_cons _).mpr ⟨_, second,
      (run_cons _).mpr ⟨_, adds, (run_cons _).mpr ⟨_, enters, rfl⟩⟩⟩⟩⟩
  · refine along_cons trivial asked (along_cons ?_ first (along_cons ?_ second (along_cons ?_ adds
      (along_cons trivial enters along_nil))))
    · exact punctual_of_unlocked rfl rfl
    · exact punctual_of_unlocked rfl rfl
    · exact punctual_of_unlocked rfl rfl

def otherToken : Bytes := List.replicate 32 1

theorem digests_differ : Sha256.digest otherToken ≠ Sha256.digest ApprovalStore.demoToken := by
  decide +kernel

/-- The decision is read at 100 and its token at 101: when the decision has expired
at 130, a second call is granted while the first token can still be consumed. -/
theorem two_live_approvals : ∃ labels final one two,
    (labels.filterMap Label.minted).Nodup ∧
    run (step literalInterpreter (demoService true)) .initial labels = some final ∧
    (labels.filterMap Label.reading).Pairwise (· ≤ ·) ∧
    (∀ reading ∈ labels.filterMap Label.reading, reading ≤ 130) ∧
    one ∈ final.approvals ∧ two ∈ final.approvals ∧ Live 130 (str "job-demo") one ∧
    Live 130 (str "job-demo") two ∧ one ≠ two := by
  obtain ⟨recorder, evidence, settled, opening, _⟩ := run_opening
  obtain ⟨grant, first, granted, job, open_, expires⟩ :=
    @step_granted recorder evidence 101 (by decide) (by decide)
  obtain ⟨recorder', evidence', phase, unlocked⟩ := @step_unlocked recorder evidence
    [(Sha256.digest ApprovalStore.demoToken, first)] 101 grant settled
  let stored := [(Sha256.digest ApprovalStore.demoToken, first)]
  have again : step literalInterpreter (demoService true)
      (demoApproving recorder' evidence' none 130 stored [phase, .called])
      (.advance 2 (.answering 130 none)) =
        some (demoApproving recorder' evidence' (some 2) 160 stored [phase, decidedPhase 130]) := rfl
  have free : stored.lookup (Sha256.digest otherToken) = none := by
    have differ : (Sha256.digest otherToken == Sha256.digest ApprovalStore.demoToken) = false :=
      beq_false_of_ne digests_differ
    rw [List.lookup_cons, differ]
    rfl
  obtain ⟨other, second, made, also, still, later⟩ := @granting_demo recorder' evidence' stored
    otherToken 130 130 160 (by decide) (by decide) free (by decide) (some 2)
    [phase, decidedPhase 130]
  have grants : turn literalInterpreter (demoService true)
      (demoApproving recorder' evidence' (some 2) 160 stored [phase, decidedPhase 130]) 2
      ⟨demoApprove, decidedPhase 130⟩ (.answering 130 (some otherToken)) =
        some (grantedPhase 130 other 130, _) := congrArg some made
  let final := demoApproving recorder' evidence' (some 2) 160
    [(Sha256.digest ApprovalStore.demoToken, first), (Sha256.digest otherToken, second)]
    [phase, grantedPhase 130 other 130]
  have last : step literalInterpreter (demoService true) _ _ = some final :=
    (advance literalInterpreter (demoService true) _ rfl grants rfl).1
  refine ⟨demoOpening ++ [.advance 1 (.answering 100 none),
      .advance 1 (.answering 101 (some ApprovalStore.demoToken)), .advance 1 (.answering 101 none),
      .request demoApprove, .advance 2 (.answering 130 none),
      .advance 2 (.answering 130 (some otherToken))], final,
    (Sha256.digest ApprovalStore.demoToken, first), (Sha256.digest otherToken, second),
    by decide, ?_, by decide, by decide, List.mem_cons_self, ?_, ⟨job, open_, ?_⟩, ⟨also, still, ?_⟩,
    ?_⟩
  · exact (run_append _).mpr ⟨_, opening, (run_cons _).mpr ⟨_, step_decided, (run_cons _).mpr
      ⟨_, granted, (run_cons _).mpr ⟨_, unlocked, (run_cons _).mpr ⟨_, rfl, (run_cons _).mpr
        ⟨_, again, (run_cons _).mpr ⟨_, last, rfl⟩⟩⟩⟩⟩⟩⟩
  · exact List.mem_cons_of_mem _ List.mem_cons_self
  · rw [expires]
    decide
  · rw [later]
    decide
  · intro same
    exact digests_differ (congrArg Prod.fst same).symm

/-- The decision and its token are read at 100: a second call at 110 is refused. -/
theorem one_live_approval_demo : ∃ labels final next,
    run (step literalInterpreter (demoService true)) .initial labels = some final ∧
    step literalInterpreter (demoService true) final (.advance 2 (.answering 110 none)) =
      some next ∧
    next.requests[2]? = some ⟨demoApprove, .raised⟩ ∧ next.approvals = final.approvals ∧
    final.approvals.length = 1 := by
  obtain ⟨recorder, evidence, settled, opening, along⟩ := run_opening
  obtain ⟨grant, record, granted, job, open_, expires⟩ :=
    @step_granted recorder evidence 100 (by decide) (by decide)
  let stored := [(Sha256.digest ApprovalStore.demoToken, record)]
  obtain ⟨recorder', evidence', phase, unlocked⟩ :=
    @step_unlocked recorder evidence stored 100 grant settled
  let final := demoApproving recorder' evidence' none 130 stored [phase, .called]
  let rest : List Label := [.advance 1 (.answering 100 none),
    .advance 1 (.answering 100 (some ApprovalStore.demoToken)), .advance 1 (.answering 100 none),
    .request demoApprove]
  have enters : step literalInterpreter (demoService true)
      (demoApproving recorder' evidence' none 130 stored [phase]) (.request demoApprove) =
        some final := rfl
  have ran : run (step literalInterpreter (demoService true)) .initial (demoOpening ++ rest) =
      some final :=
    (run_append _).mpr ⟨_, opening, (run_cons _).mpr ⟨_, step_decided, (run_cons _).mpr
      ⟨_, granted, (run_cons _).mpr ⟨_, unlocked, (run_cons _).mpr ⟨_, enters, rfl⟩⟩⟩⟩⟩
  have punctual : Along (step literalInterpreter (demoService true)) Punctual .initial
      (demoOpening ++ rest) := by
    refine along.append opening (along_cons (punctual_of_unlocked rfl rfl) step_decided
      (along_cons ?_ granted (along_cons ?_ unlocked (along_cons trivial enters along_nil))))
    · intro call approver userId jobId ttlSeconds waiting held own waits
      obtain ⟨_, same⟩ := Request.mk.inj (Option.some.inj own)
      obtain ⟨_, _, rfl, rfl, rfl⟩ := Phase.decided.inj same
      obtain rfl : demoDecided 130 = held := Option.some.inj waits
      exact (by decide : min (100 + 30) (160 : Int) ≤ 130)
    · intro call approver userId jobId ttlSeconds waiting held own
      cases own
  have live : ∃ entry ∈ final.approvals, Live 110 (str "job-demo") entry := by
    refine ⟨_, List.mem_cons_self, job, open_, ?_⟩
    rw [expires]
    decide
  have stepped : step literalInterpreter (demoService true) final
      (.advance 2 (.answering 110 none)) =
        some (demoApproving recorder' evidence' none 130 stored [phase, .raised]) := rfl
  have exclusive := one_live_approval literalInterpreter (demoService true) _ final 110 (by decide)
    ran (by decide) punctual (by decide)
  obtain ⟨raised, kept⟩ := exclusive.2 2 _ _ _ (.answering 110 none) _ rfl rfl live stepped
  exact ⟨_, final, _, ran, stepped, raised, kept, rfl⟩

end Instance

end GeniusNew.Wiring
