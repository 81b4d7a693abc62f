import GeniusNew.Approvals.Provenance
import GeniusNew.Service.Evidence
import GeniusNew.Service.Queue

/-! # A completion that the gateway refuses

A completion takes its job from the pending ones before it is dispatched. Of the
ways a dispatch ends without a result, the gateway's refusal is the one that
leaves the job waiting: once the refusal is recorded, the job is put back as it
was taken. A denial of the orchestrator ends it.
-/

namespace GeniusNew.Wiring

open Json AnchoredAudit Transition

/-- A request takes a pending job to complete it. -/
def Taking (index : Nat) (subject jobId : Str) (waiting : Waiting) (state : State) (label : Label) :
    Prop :=
  ∃ token input pending, label = .advance index input ∧
    state.requests[index]? = some ⟨.complete subject jobId token, .called⟩ ∧
    PendingJobs.take state.pending jobId subject = .ok (waiting, pending)

/-- The gateway's refusal of the job of a request is recorded. -/
def Rejecting (service : Service) (index : Nat) (state : State) (label : Label) : Prop :=
  ∃ input call job reason now event after, label = .advance index input ∧
    state.requests[index]? = some ⟨call, .refusing job (.gateway reason now)⟩ ∧
    ((Refusal.gateway reason now).notice service job.handoff).event job.handoff job.traceId
      job.subject = .ok event ∧
    state.append service input ⟨job.handoff, event⟩ = (.ok (), after)

/-- A request that completes a job works on it, puts it back, or has ended. -/
def Phase.Completes (job : Job) (waiting : Waiting) (phase : Phase) : Prop :=
  phase.job = some job ∨ phase = .restoring job.jobId waiting ∨ phase = .returned ∨ phase = .raised

section Turns

variable {interpreter : Interpreter} {service : Service} {state after : State} {call : Call}
  {before phase : Phase} {index : Nat} {input : Input} {job : Job} {waiting : Waiting}

theorem record_phase {handoff : Handoff} {traceId apiSubject : Str} {notice : Notice} {then_ : Phase}
    (recorded : state.record service input handoff traceId apiSubject notice then_ =
      (phase, after)) : phase = then_ ∨ phase = .raised := by
  unfold State.record at recorded
  split at recorded
  · exact .inr (Prod.mk.inj recorded).1.symm
  · split at recorded
    · exact .inl (Prod.mk.inj recorded).1.symm
    · exact .inr (Prod.mk.inj recorded).1.symm

theorem start_job (service : Service) (state : State) (job : Job) (now : Int) :
    (start service state job now).job = some job ∨ start service state job now = .raised := by
  unfold start
  dsimp only
  split
  · split
    · exact .inl rfl
    · exact .inr rfl
  · split_ifs
    · exact .inl rfl
    · exact .inl rfl
    · exact .inl rfl

theorem admitting_job {now : Int} {endpoint : Orchestrator.WorkerEndpoint}
    (answered : admitting interpreter service state job now endpoint = (phase, after)) :
    phase.job = some job ∨ phase = .raised := by
  unfold admitting at answered
  dsimp only at answered
  obtain ⟨rfl, _⟩ := Prod.mk.inj answered
  split
  · exact .inl rfl
  · exact .inr rfl
  · split_ifs
    · exact .inr rfl
    · exact .inl rfl

theorem recordAdmission_phase {attempt : Attempt}
    (recorded : recordAdmission service input state attempt = (phase, after)) :
    phase = .reserving attempt ∨ phase = .raised := by
  unfold recordAdmission at recorded
  split_ifs at recorded
  · exact .inr (Prod.mk.inj recorded).1.symm
  · split at recorded
    · exact .inr (Prod.mk.inj recorded).1.symm
    · exact record_phase recorded

theorem recordDispatch_phase {attempt : Attempt}
    (recorded : recordDispatch service input state attempt = (phase, after)) :
    phase = .entering attempt ∨ phase = .raised := by
  unfold recordDispatch at recorded
  split at recorded
  · exact .inr (Prod.mk.inj recorded).1.symm
  · exact record_phase recorded

theorem reserving_job {attempt : Attempt} (reserved : reserving state attempt = (phase, after)) :
    phase.job = some attempt.job ∨ phase = .raised := by
  unfold reserving at reserved
  dsimp only at reserved
  split at reserved
  · exact .inr (Prod.mk.inj reserved).1.symm
  · split_ifs at reserved
    · exact .inl ((Prod.mk.inj reserved).1 ▸ rfl)
    · exact .inl ((Prod.mk.inj reserved).1 ▸ rfl)
    · split at reserved
      · exact .inl ((Prod.mk.inj reserved).1 ▸ rfl)
      · exact .inl ((Prod.mk.inj reserved).1 ▸ rfl)

theorem answered_job (attempt : Attempt) (answer : WorkerAnswer) :
    (answered attempt answer).job = some attempt.job ∨ answered attempt answer = .raised := by
  unfold answered
  split
  · exact .inl rfl
  · exact .inl rfl
  · exact .inl rfl
  · exact .inr rfl

theorem verifying_job {attempt : Attempt} {resultWire : Bytes} {now : Int}
    (verified : verifying interpreter service state attempt resultWire now = (phase, after)) :
    phase.job = some attempt.job ∨ phase = .raised := by
  unfold verifying at verified
  dsimp only at verified
  obtain ⟨rfl, _⟩ := Prod.mk.inj verified
  split
  · exact .inl rfl
  · exact .inl rfl
  · exact .inr rfl

theorem refused_phase (refusal : Refusal) (restored : job.restored = some waiting) :
    refused job refusal = .restoring job.jobId waiting ∨ refused job refusal = .raised := by
  unfold refused
  split
  · rw [restored]
    exact .inl rfl
  · exact .inr rfl

theorem submitted_job (service : Service) (job : Job) :
    (submitted service job).job = some job ∨ submitted service job = .raised := by
  unfold submitted
  split
  · split_ifs
    · exact .inl rfl
    · exact .inl rfl
  · exact .inr rfl

/-- A request that works on a job goes on with it, puts it back, or ends. -/
theorem job_turn (held : before.job = some job) (restored : job.restored = some waiting)
    (turned : turn interpreter service state index ⟨call, before⟩ input = some (phase, after)) :
    phase.Completes job waiting := by
  have working : phase.job = some job ∨ phase = .raised → phase.Completes job waiting :=
    fun goes => goes.imp_right fun raised => .inr (.inr raised)
  unfold turn at turned
  cases before with
  | issued own now =>
      obtain rfl := Option.some.inj held
      obtain rfl | rfl := record_phase (Option.some.inj turned)
      · exact working (submitted_job service _)
      · exact working (.inr rfl)
  | adding own =>
      dsimp only at turned
      split_ifs at turned
      split at turned
      · exact .inr (.inr (.inl (Prod.mk.inj (Option.some.inj turned)).1.symm))
      · exact working (.inr (Prod.mk.inj (Option.some.inj turned)).1.symm)
  | starting own =>
      obtain rfl := Option.some.inj held
      obtain ⟨rfl, _⟩ := Prod.mk.inj (Option.some.inj turned)
      exact working (start_job service state _ input.now)
  | admitting own now endpoint =>
      obtain rfl := Option.some.inj held
      exact working (admitting_job (Option.some.inj turned))
  | admitted attempt =>
      obtain rfl := Option.some.inj held
      obtain rfl | rfl := recordAdmission_phase (Option.some.inj turned)
      · exact working (.inl rfl)
      · exact working (.inr rfl)
  | reserving attempt =>
      obtain rfl := Option.some.inj held
      exact working (reserving_job (Option.some.inj turned))
  | committing attempt =>
      obtain rfl := Option.some.inj held
      dsimp only at turned
      split at turned
      · exact working (.inr (Prod.mk.inj (Option.some.inj turned)).1.symm)
      · obtain ⟨rfl, _⟩ := Prod.mk.inj (Option.some.inj turned)
        exact working (.inl rfl)
  | committed attempt =>
      obtain rfl := Option.some.inj held
      obtain rfl | rfl := recordDispatch_phase (Option.some.inj turned)
      · exact working (.inl rfl)
      · exact working (.inr rfl)
  | entering attempt =>
      obtain rfl := Option.some.inj held
      obtain ⟨rfl, _⟩ := Prod.mk.inj (Option.some.inj turned)
      exact working (.inl rfl)
  | running attempt =>
      obtain rfl := Option.some.inj held
      obtain ⟨rfl, _⟩ := Prod.mk.inj (Option.some.inj turned)
      exact working (answered_job attempt input.answer)
  | verifying attempt resultWire =>
      obtain rfl := Option.some.inj held
      exact working (verifying_job (Option.some.inj turned))
  | accepting own acceptance =>
      obtain rfl | rfl := record_phase (Option.some.inj turned)
      · exact .inr (.inr (.inl rfl))
      · exact working (.inr rfl)
  | refusing own refusal =>
      obtain rfl := Option.some.inj held
      obtain rfl | rfl := record_phase (Option.some.inj turned)
      · obtain puts | raised := refused_phase refusal restored
        · exact .inr (.inl puts)
        · exact working (.inr raised)
      · exact working (.inr rfl)
  | _ => cases held

/-- A request that puts a job back raises. -/
theorem restoring_turn {jobId : Str}
    (turned : turn interpreter service state index ⟨call, .restoring jobId waiting⟩ input =
      some (phase, after)) :
    phase = .raised ∧
      after = { state with pending := PendingJobs.restore state.pending jobId waiting } := by
  unfold turn at turned
  dsimp only at turned
  split_ifs at turned
  obtain ⟨rfl, rfl⟩ := Prod.mk.inj (Option.some.inj turned)
  exact ⟨rfl, rfl⟩

theorem Phase.Completes.turn (completes : before.Completes job waiting)
    (restored : job.restored = some waiting)
    (turned : turn interpreter service state index ⟨call, before⟩ input = some (phase, after)) :
    phase.Completes job waiting := by
  obtain held | rfl | rfl | rfl := completes
  · exact job_turn held restored turned
  · exact .inr (.inr (.inr (restoring_turn turned).1))
  · cases turned
  · cases turned

end Turns

section Runs

variable {interpreter : Interpreter} {service : Service} {state next : State} {call : Call}
  {before : Phase} {index : Nat} {label : Label} {subject jobId : Str} {token : Bytes}
  {waiting : Waiting}

/-- A step leaves a request where it stands, or is its turn. -/
theorem step_request (grounded : Grounded interpreter service state)
    (own : state.requests[index]? = some ⟨call, before⟩)
    (stepped : step interpreter service state label = some next) :
    next.requests[index]? = some ⟨call, before⟩ ∨ ∃ input phase after,
      label = .advance index input ∧
      turn interpreter service state index ⟨call, before⟩ input = some (phase, after) ∧
      next = after.setPhase index ⟨call, before⟩ phase ∧
      next.requests[index]? = some ⟨call, phase⟩ := by
  obtain ⟨inside, _⟩ := List.getElem?_eq_some_iff.mp own
  obtain ⟨other, rfl, rfl⟩ | ⟨other, input, request, phase, after, rfl, found, turned, moved, rfl⟩ :=
    step_cases grounded stepped
  · exact .inl ((List.getElem?_append_left inside).trans own)
  · have requests : (after.setPhase other request phase).requests =
        state.requests.set other { request with phase } := by
      rw [State.setPhase, moved.requests]
    rw [requests]
    by_cases same : other = index
    · subst same
      obtain rfl := Option.some.inj (own.symm.trans found)
      exact .inr ⟨input, phase, after, rfl, turned, rfl, List.getElem?_set_self inside⟩
    · exact .inl ((List.getElem?_set_ne same).trans own)

/-- The request completes the job it took. -/
def Completing (interpreter : Interpreter) (service : Service) (index : Nat) (subject jobId : Str)
    (waiting : Waiting) (state : State) : Prop :=
  Grounded interpreter service state ∧ ∃ token phase,
    state.requests[index]? = some ⟨.complete subject jobId token, phase⟩ ∧
    phase.Completes (waiting.job subject jobId token) waiting

theorem Taking.completing (grounded : Grounded interpreter service state)
    (taking : Taking index subject jobId waiting state label)
    (stepped : step interpreter service state label = some next) :
    Completing interpreter service index subject jobId waiting next := by
  obtain ⟨token, input, pending, rfl, own, taken⟩ := taking
  refine ⟨grounded.step stepped, token, ?_⟩
  obtain ⟨request, found, rest⟩ := Option.bind_eq_some_iff.mp stepped
  obtain ⟨⟨phase, after⟩, turned, same⟩ := Option.bind_eq_some_iff.mp rest
  obtain rfl := Option.some.inj (own.symm.trans found)
  obtain rfl := Option.some.inj same
  have begun : begin_ interpreter service state index input (.complete subject jobId token) =
      some (phase, after) := turned
  unfold begin_ at begun
  dsimp only at begun
  split_ifs at begun
  rw [taken] at begun
  obtain ⟨rfl, rfl⟩ := Prod.mk.inj (Option.some.inj begun)
  obtain ⟨inside, _⟩ := List.getElem?_eq_some_iff.mp own
  exact ⟨_, List.getElem?_set_self inside, .inl rfl⟩

theorem Completing.step (completing : Completing interpreter service index subject jobId waiting state)
    (stepped : step interpreter service state label = some next) :
    Completing interpreter service index subject jobId waiting next := by
  obtain ⟨grounded, token, phase, own, completes⟩ := completing
  refine ⟨grounded.step stepped, token, ?_⟩
  obtain same | ⟨input, following, after, _, turned, _, moved⟩ := step_request grounded own stepped
  · exact ⟨phase, same, completes⟩
  · exact ⟨following, moved, completes.turn rfl turned⟩

/-- The request puts a job back, or has raised. -/
def Settling (interpreter : Interpreter) (service : Service) (index : Nat) (state : State) : Prop :=
  Grounded interpreter service state ∧ ∃ call phase, state.requests[index]? = some ⟨call, phase⟩ ∧
    ((∃ jobId waiting, phase = .restoring jobId waiting) ∨ phase = .raised)

theorem Rejecting.settling (grounded : Grounded interpreter service state)
    (rejecting : Rejecting service index state label)
    (stepped : step interpreter service state label = some next) :
    Settling interpreter service index next := by
  obtain ⟨input, call, job, reason, now, event, left, rfl, own, derived, appended⟩ := rejecting
  refine ⟨grounded.step stepped, call, ?_⟩
  obtain ⟨request, found, rest⟩ := Option.bind_eq_some_iff.mp stepped
  obtain ⟨⟨phase, after⟩, turned, same⟩ := Option.bind_eq_some_iff.mp rest
  obtain rfl := Option.some.inj (own.symm.trans found)
  obtain rfl := Option.some.inj same
  have recorded : state.record service input job.handoff job.traceId job.subject
      ((Refusal.gateway reason now).notice service job.handoff) (refused job (.gateway reason now)) =
        (phase, after) := Option.some.inj turned
  unfold State.record at recorded
  rw [derived] at recorded
  dsimp only at recorded
  rw [appended] at recorded
  obtain ⟨rfl, rfl⟩ := Prod.mk.inj recorded
  obtain ⟨inside, _⟩ := List.getElem?_eq_some_iff.mp own
  have requests := (turn_turned grounded.sound grounded.settled
    (grounded.sound.requests _ (List.mem_of_getElem? own)) turned).requests
  refine ⟨refused job (.gateway reason now), ?_, ?_⟩
  · rw [State.setPhase, requests]
    exact List.getElem?_set_self inside
  · unfold refused
    dsimp only
    split
    · exact .inl ⟨_, _, rfl⟩
    · exact .inr rfl

theorem Settling.step (settling : Settling interpreter service index state)
    (stepped : step interpreter service state label = some next) :
    Settling interpreter service index next := by
  obtain ⟨grounded, call, phase, own, settles⟩ := settling
  refine ⟨grounded.step stepped, call, ?_⟩
  obtain same | ⟨input, following, after, _, turned, _, moved⟩ := step_request grounded own stepped
  · exact ⟨phase, same, settles⟩
  · obtain ⟨jobId, waiting, rfl⟩ | rfl := settles
    · exact ⟨following, moved, .inr (restoring_turn turned).1⟩
    · cases turned

/-- A job that a request puts back is not among the pending ones. -/
theorem Orderly.absent (orderly : Orderly interpreter service state)
    (own : state.requests[index]? = some ⟨call, .restoring jobId waiting⟩) :
    jobId ∉ state.pending.map Prod.fst := by
  intro member
  obtain ⟨⟨same, other⟩, queued, rfl⟩ := List.mem_map.mp member
  have mine : state.custody.holds (some index) same (reached waiting.handoff 1) := ⟨_, own, rfl⟩
  have theirs : state.custody.holds none same (reached other.handoff 1) := ⟨other, queued, rfl⟩
  cases orderly.kept.alone mine theirs

/-- Whoever takes a job is its subject. -/
theorem Taking.owned (taking : Taking index subject jobId waiting state label) :
    waiting.subject = subject := by
  obtain ⟨_, _, _, _, _, taken⟩ := taking
  exact (PendingJobs.take_eq_ok taken).2.1

end Runs

section Instance

open Orchestrator

def demoComplete : Call := .complete (str "subject-demo") (str "job-demo") ApprovalStore.demoToken

/-- The job of the demo service as it waits for its approval. -/
def demoPending : Waiting := (demoJob true).waiting

/-- The demo job waits for its approval and its subject is about to complete it. -/
def demoLabels : List Label :=
  [.request demoSubmit, .advance 0 (.answering 100 none), .advance 0 (.answering 100 none)] ++
    [.advance 0 (.answering 100 none), .request demoComplete]

end Instance

end GeniusNew.Wiring
