import GeniusNew.Custody.Basic
import GeniusNew.Service.Progress
import GeniusNew.Service.Turns

/-! # Evidence before effect

Requests and the store of pending jobs are the holders of job ids. A claim is
custody of its job, so the milestones of a job are recorded in their order and at
most once, and a worker is entered with three of them recorded and acknowledged.
-/

namespace GeniusNew.Wiring

open Json AnchoredAudit Transition

/-- The job id that was minted for a call. -/
def Call.minted : Call → Option Str
  | .submit _ jobId _ => some jobId
  | _ => none

def Label.minted : Label → Option Str
  | .request call => call.minted
  | .advance _ _ => none

def minted (requests : List Request) : List Str :=
  requests.filterMap fun request => request.call.minted

/-- The holders are the requests, and the store of pending jobs. -/
def State.custody (state : State) : Custody (Option Nat) Str (Handoff × Action) where
  holds
    | some index => fun jobId marks =>
        ∃ request, state.requests[index]? = some request ∧ request.claim = some (jobId, marks)
    | none => fun jobId marks =>
        ∃ waiting, (jobId, waiting) ∈ state.pending ∧ marks = reached waiting.handoff 1
  past := trace state.evidence
  known := {jobId | jobId ∈ minted state.requests}

/-- The milestones of one handoff, in their order. -/
def Course (marks : List (Handoff × Action)) : Prop := ∃ handoff, marks <+: reached handoff 4

section Traces

variable {evidence : List Evidence} {entry : Evidence} {handoff : Handoff} {count : Nat}

theorem nodup_milestones : milestones.Nodup := by decide

theorem not_mem_take_milestones {action : Action} (due : milestones[count]? = some action) :
    action ∉ milestones.take count := by
  intro member
  obtain ⟨index, bound, same⟩ := List.mem_take_iff_getElem.mp member
  have less : index < milestones.length := lt_of_lt_of_le bound (min_le_right _ _)
  have found : milestones[index]? = milestones[count]? := by
    rw [due, List.getElem?_eq_getElem less, same]
  have equal := (List.getElem?_inj less nodup_milestones).mp found
  omega

theorem reached_prefix (handoff : Handoff) (count : Nat) :
    reached handoff count <+: reached handoff 4 :=
  (List.take_prefix count milestones).map _

theorem reached_succ {action : Action} (due : milestones[count]? = some action) :
    reached handoff (count + 1) = reached handoff count ++ [(handoff, action)] := by
  rw [reached, reached, List.take_add_one, due, List.map_append]
  rfl

/-- What precedes a milestone of a handoff on its course. -/
theorem reached_of_concat {marks : List (Handoff × Action)} {mark : Handoff × Action}
    (course : marks ++ [mark] <+: reached handoff 4) :
    mark.1 = handoff ∧ milestones[marks.length]? = some mark.2 ∧
      marks = reached handoff marks.length := by
  obtain ⟨rest, whole⟩ := course
  have all : milestones.map (fun action => (handoff, action)) = marks ++ (mark :: rest) := by
    rw [← List.singleton_append, ← List.append_assoc, whole]
    rfl
  have here := congrArg (fun list => list[marks.length]?) all
  have before := congrArg (List.take marks.length) all
  simp only [List.getElem?_map, List.getElem?_append_right le_rfl, Nat.sub_self,
    List.getElem?_cons_zero, Option.map_eq_some_iff] at here
  obtain ⟨action, found, rfl⟩ := here
  rw [List.take_left, ← List.map_take] at before
  exact ⟨rfl, found, before.symm⟩

theorem trace_concat_of_not_mem (other : entry.event.action ∉ milestones) :
    trace (evidence ++ [entry]) = trace evidence := by
  funext jobId
  rw [trace, trace, List.filter_append, List.filter_singleton]
  simp [other]

theorem trace_concat (evidence : List Evidence) (milestone : entry.event.action ∈ milestones) :
    trace (evidence ++ [entry]) = Function.update (trace evidence) entry.handoff.jobId
      (trace evidence entry.handoff.jobId ++ [entry.milestone]) := by
  funext jobId
  by_cases same : jobId = entry.handoff.jobId
  · subst same
    rw [Function.update_self, trace, trace, List.filter_append, List.filter_singleton]
    simp [milestone]
  · rw [Function.update_of_ne same, trace, trace, List.filter_append, List.filter_singleton]
    simp [Ne.symm same]

end Traces

section Holders

variable {state after : State} {request : Request} {phase : Phase} {index : Nat}

theorem minted_set {requests : List Request} (found : requests[index]? = some request)
    (phase : Phase) : minted (requests.set index { request with phase }) = minted requests := by
  obtain ⟨inside, rfl⟩ := List.getElem?_eq_some_iff.mp found
  have calls : ∀ requests : List Request,
      minted requests = (requests.map Request.call).filterMap Call.minted := by
    intro requests
    rw [List.filterMap_map]
    rfl
  have mapped : index < (requests.map Request.call).length := by rwa [List.length_map]
  have same : requests[index].call = (requests.map Request.call)[index] :=
    (List.getElem_map ..).symm
  rw [calls, calls, List.map_set, same, List.set_getElem_self]

theorem holds_setPhase {holder : Option Nat} {jobId : Str} {marks : List (Handoff × Action)}
    (requests : after.requests = state.requests)
    (held : (after.setPhase index request phase).custody.holds holder jobId marks) :
    (holder = some index ∧ (Request.mk request.call phase).claim = some (jobId, marks)) ∨
      (holder ≠ some index ∧ holder ≠ none ∧ state.custody.holds holder jobId marks) ∨
      (holder = none ∧ ∃ waiting, (jobId, waiting) ∈ after.pending ∧
        marks = reached waiting.handoff 1) := by
  cases holder with
  | none => exact Or.inr (Or.inr ⟨rfl, held⟩)
  | some other =>
      obtain ⟨found, lookup, claim⟩ := held
      rw [State.setPhase, requests] at lookup
      by_cases same : other = index
      · subst same
        rw [List.getElem?_set_self'] at lookup
        obtain ⟨_, _, rfl⟩ := Option.map_eq_some_iff.mp lookup
        exact Or.inl ⟨rfl, claim⟩
      · rw [List.getElem?_set_ne (Ne.symm same)] at lookup
        refine Or.inr (Or.inl ⟨fun absurd => same (Option.some.inj absurd), Option.some_ne_none _,
          found, lookup, claim⟩)

/-- Every critical section is a step of custody. -/
theorem Effect.custody (effect : Effect state request phase after)
    (requests : after.requests = state.requests) (own : state.requests[index]? = some request) :
    Custody.Step Course state.custody (after.setPhase index request phase).custody := by
  have known : (after.setPhase index request phase).custody.known = state.custody.known := by
    change {jobId | jobId ∈ minted (after.requests.set index { request with phase })} =
      {jobId | jobId ∈ minted state.requests}
    rw [requests, minted_set own]
  have mine : ∀ {jobId marks}, request.claim = some (jobId, marks) →
      state.custody.holds (some index) jobId marks := fun claim => ⟨request, own, claim⟩
  -- a claim that is kept or dropped
  have stays : ∀ {jobId marks}, (Request.mk request.call phase).claim = none ∨
      (Request.mk request.call phase).claim = request.claim →
      (Request.mk request.call phase).claim = some (jobId, marks) →
      state.custody.holds (some index) jobId marks := by
    rintro jobId marks (dropped | same) claim
    · rw [dropped] at claim
      cases claim
    · rw [same] at claim
      exact mine claim
  cases effect with
  | keeps evidence recorder claim pending outside =>
      refine .drops (congrArg trace evidence) known fun holder jobId marks held => ?_
      obtain ⟨rfl, now⟩ | ⟨_, _, held⟩ | ⟨rfl, waiting, member, rfl⟩ := holds_setPhase requests held
      · exact stays claim now
      · exact held
      · obtain ⟨before, old, same⟩ := pending _ member
        exact ⟨before, old, by rw [same]⟩
  | puts handoff jobId evidence recorder before claim pending outside =>
      refine .hands (some index) none jobId _ (congrArg trace evidence) known (mine before) ?_ ?_
      · intro others held
        obtain ⟨_, now⟩ | ⟨other, _⟩ | ⟨absurd, _⟩ := holds_setPhase requests held
        · rw [claim] at now
          cases now
        · exact other rfl
        · cases absurd
      · intro holder same others held
        obtain ⟨rfl, now⟩ | ⟨_, _, held⟩ | ⟨rfl, waiting, member, rfl⟩ :=
          holds_setPhase requests held
        · rw [claim] at now
          cases now
        · exact Or.inl held
        · obtain old | ⟨rfl, rfl⟩ := pending _ member
          · exact Or.inl ⟨waiting, old, rfl⟩
          · exact Or.inr ⟨rfl, rfl, rfl⟩
  | takes jobId waiting evidence recorder found claim pending outside =>
      refine .hands none (some index) jobId _ (congrArg trace evidence) known ⟨waiting, found, rfl⟩
        ?_ ?_
      · rintro others ⟨left, member, _⟩
        exact (pending _ member).2 rfl
      · intro holder same others held
        obtain ⟨rfl, now⟩ | ⟨_, _, held⟩ | ⟨rfl, waiting, member, rfl⟩ :=
          holds_setPhase requests held
        · rw [claim] at now
          obtain ⟨rfl, rfl⟩ := Prod.mk.inj (Option.some.inj now)
          exact Or.inr ⟨rfl, rfl, rfl⟩
        · exact Or.inl held
        · exact Or.inl ⟨waiting, (pending _ member).1, rfl⟩
  | records entry returned middle appended evidence recorder pending derived due acknowledged =>
      -- what is held by all but this request
      have others : ∀ {holder jobId marks},
          (after.setPhase index request phase).custody.holds holder jobId marks →
          (holder = some index ∧ (Request.mk request.call phase).claim = some (jobId, marks)) ∨
            (holder ≠ some index ∧ state.custody.holds holder jobId marks) := by
        intro holder jobId marks held
        obtain now | ⟨other, _, held⟩ | ⟨rfl, waiting, member, rfl⟩ := holds_setPhase requests held
        · exact Or.inl now
        · exact Or.inr ⟨other, held⟩
        · rw [pending] at member
          exact Or.inr ⟨Option.some_ne_none index ∘ Eq.symm, waiting, member, rfl⟩
      have quiet : after.evidence = state.evidence ∨ entry.event.action ∉ milestones →
          (after.setPhase index request phase).custody.past = state.custody.past := by
        rintro (same | other)
        · exact congrArg trace same
        · change trace after.evidence = trace state.evidence
          rw [evidence]
          cases appended with
          | refused recorder settled further chain raised => rfl
          | linked recorder settled further chain caughtUp => exact trace_concat_of_not_mem other
      obtain ⟨other, claim⟩ | ⟨count, before, milestone, claim⟩ := due
      · refine .drops (quiet (Or.inr other)) known fun holder jobId marks held => ?_
        obtain ⟨rfl, now⟩ | ⟨_, held⟩ := others held
        · exact stays claim now
        · exact held
      · cases appended with
        | refused recorder settled further chain raised =>
            have dropped : (Request.mk request.call phase).claim = none :=
              claim.resolve_right fun kept => raised kept.1
            refine .drops (quiet (Or.inl evidence)) known fun holder jobId marks held => ?_
            obtain ⟨rfl, now⟩ | ⟨_, held⟩ := others held
            · exact stays (Or.inl dropped) now
            · exact held
        | linked recorder settled further chain caughtUp =>
            have member : entry.event.action ∈ milestones := List.mem_of_getElem? milestone
            have passed : (after.setPhase index request phase).custody.past =
                Function.update state.custody.past entry.handoff.jobId
                  (state.custody.past entry.handoff.jobId ++ [entry.milestone]) := by
              change trace after.evidence = _
              rw [evidence]
              exact trace_concat _ member
            have next : reached entry.handoff count ++ [entry.milestone] =
                reached entry.handoff (count + 1) := (reached_succ milestone).symm
            refine .passes (some index) entry.handoff.jobId _ entry.milestone (mine before) passed
              known ⟨entry.handoff, ?_⟩ fun holder jobId marks held => ?_
            · rw [next]
              apply reached_prefix
            · obtain ⟨rfl, now⟩ | held := others held
              · obtain dropped | ⟨_, same⟩ := claim
                · rw [dropped] at now
                  cases now
                · rw [same] at now
                  obtain ⟨rfl, rfl⟩ := Prod.mk.inj (Option.some.inj now)
                  exact Or.inr ⟨rfl, rfl, next.symm⟩
              · exact Or.inl held

end Holders

/-- A recorded milestone of a job is one the anchor has acknowledged. -/
def State.Acknowledged (state : State) (jobId : Str) : Prop :=
  ∀ (position : Nat) (entry : Evidence), state.evidence[position]? = some entry →
    entry.handoff.jobId = jobId → entry.event.action ∈ milestones →
    position < state.recorder.anchor.count

variable (interpreter : Interpreter) (service : Service)

/-- What every reachable state of the service satisfies. -/
structure Orderly (state : State) : Prop where
  sound : state.Sound interpreter service
  settled : state.recorder.Settled
  chain : state.recorder.chain = recordsFrom 0 emptyHash (state.evidence.map Evidence.event)
  derived : ∀ entry ∈ state.evidence, ∃ report, eventFromHandoff entry.handoff report = .ok entry.event
  kept : state.custody.Kept Course
  acknowledged : ∀ (index : Nat) (call : Call) (attempt : Attempt),
    state.requests[index]? = some ⟨call, .entering attempt⟩ → state.Acknowledged attempt.job.jobId

/-- What one critical section leaves of the recorder and the evidence: nothing
new, or one event more. -/
inductive Recorded (state : State) (request : Request) (phase : Phase) (after : State) : Prop where
  | nothing (evidence : after.evidence = state.evidence)
      (chain : after.recorder.chain = state.recorder.chain)
      (outside : ∀ attempt, phase ≠ .entering attempt)
  | event (entry : Evidence) (evidence : after.evidence = state.evidence ++ [entry])
      (chain : after.recorder.chain = (state.recorder.linked entry.event).chain)
      (derived : ∃ report, eventFromHandoff entry.handoff report = .ok entry.event)
      (owned : entry.event.action ∈ milestones →
        ∃ marks, request.claim = some (entry.handoff.jobId, marks))
      (caughtUp : ∀ attempt, phase = .entering attempt → after.recorder.CaughtUp)

section Steps

variable {interpreter service} {state after next : State} {request : Request} {phase : Phase}
  {index : Nat} {input : Input}

theorem Effect.recorded (effect : Effect state request phase after)
    (settled : state.recorder.Settled) :
    after.recorder.Settled ∧ state.recorder.anchor.count ≤ after.recorder.anchor.count ∧
      Recorded state request phase after := by
  have untouched : after.evidence = state.evidence → after.recorder = state.recorder →
      (∀ attempt, phase ≠ .entering attempt) → after.recorder.Settled ∧
        state.recorder.anchor.count ≤ after.recorder.anchor.count ∧
          Recorded state request phase after := by
    intro evidence recorder outside
    rw [recorder]
    exact ⟨settled, le_refl _, .nothing evidence (congrArg Recorder.chain recorder) outside⟩
  cases effect with
  | keeps evidence recorder claim pending outside => exact untouched evidence recorder outside
  | puts handoff jobId evidence recorder before claim pending outside =>
      exact untouched evidence recorder outside
  | takes jobId waiting evidence recorder found claim pending outside =>
      exact untouched evidence recorder outside
  | records entry returned middle appended evidence recorder pending derived due acknowledged =>
      rw [recorder]
      cases appended with
      | refused moved left further chain raised =>
          refine ⟨left, further, .nothing evidence ?_ fun attempt same => ?_⟩
          · rw [recorder]
            exact chain
          · exact raised (acknowledged attempt same)
      | linked moved left further chain caughtUp =>
          refine ⟨left, further, .event entry evidence ?_ derived ?_ fun attempt same => ?_⟩
          · rw [recorder]
            exact chain
          · intro milestone
            obtain ⟨other, _⟩ | ⟨count, before, _⟩ := due
            · exact (other milestone).elim
            · exact ⟨_, before⟩
          · rw [recorder]
            exact caughtUp (acknowledged attempt same)

/-- A worker that another request is about to enter stays acknowledged. -/
theorem Orderly.stays_acknowledged (orderly : Orderly interpreter service state) {other : Nat}
    {call : Call} {attempt : Attempt} (own : state.requests[index]? = some request)
    (distinct : other ≠ index) (entering : state.requests[other]? = some ⟨call, .entering attempt⟩)
    (further : state.recorder.anchor.count ≤ after.recorder.anchor.count)
    (recorded : Recorded state request phase after) : after.Acknowledged attempt.job.jobId := by
  intro position entry found named milestone
  have before := orderly.acknowledged other call attempt entering
  cases recorded with
  | nothing evidence chain outside =>
      rw [evidence] at found
      exact (before position entry found named milestone).trans_le further
  | event new evidence chain derived owned caughtUp =>
      rw [evidence, List.getElem?_append] at found
      split_ifs at found with old
      · exact (before position entry found named milestone).trans_le further
      · rw [List.getElem?_singleton] at found
        split_ifs at found
        obtain rfl := Option.some.inj found
        obtain ⟨marks, claim⟩ := owned milestone
        rw [named] at claim
        have mine : state.custody.holds (some index) attempt.job.jobId marks := ⟨request, own, claim⟩
        have theirs : state.custody.holds (some other) attempt.job.jobId
            (reached attempt.job.handoff 3) := ⟨_, entering, rfl⟩
        exact (distinct (Option.some.inj (orderly.kept.alone theirs mine))).elim

/-- Whoever caught up with the chain has acknowledged every record. -/
theorem State.acknowledged_of_caughtUp (jobId : Str)
    (chain : state.recorder.chain = recordsFrom 0 emptyHash (state.evidence.map Evidence.event))
    (caughtUp : state.recorder.CaughtUp) : state.Acknowledged jobId := by
  intro position entry found _ _
  rw [caughtUp.1, chain, length_recordsFrom, List.length_map]
  exact (List.getElem?_eq_some_iff.mp found).1

theorem Recorded.chain (recorded : Recorded state request phase after)
    (chain : state.recorder.chain = recordsFrom 0 emptyHash (state.evidence.map Evidence.event)) :
    after.recorder.chain = recordsFrom 0 emptyHash (after.evidence.map Evidence.event) := by
  cases recorded with
  | nothing evidence same outside => rw [same, evidence, chain]
  | event entry evidence linked derived owned caughtUp =>
      rw [linked, evidence, Recorder.linked, chain, append_recordsFrom, List.map_append]
      rfl

theorem Recorded.derived (recorded : Recorded state request phase after)
    (derived : ∀ entry ∈ state.evidence, ∃ report,
      eventFromHandoff entry.handoff report = .ok entry.event) :
    ∀ entry ∈ after.evidence, ∃ report, eventFromHandoff entry.handoff report = .ok entry.event := by
  intro entry member
  cases recorded with
  | nothing evidence chain outside =>
      rw [evidence] at member
      exact derived entry member
  | event new evidence chain derives owned caughtUp =>
      rw [evidence] at member
      obtain old | last := List.mem_append.mp member
      · exact derived entry old
      · rw [List.mem_singleton.mp last]
        exact derives

theorem Orderly.advance (orderly : Orderly interpreter service state)
    (own : state.requests[index]? = some request)
    (turned : turn interpreter service state index request input = some (phase, after)) :
    Orderly interpreter service (after.setPhase index request phase) := by
  have held := orderly.sound.requests request (List.mem_of_getElem? own)
  obtain ⟨requests, _, effect, _, sound, pending⟩ := turn_turned orderly.sound orderly.settled held turned
  obtain ⟨settled, further, recorded⟩ := effect.recorded orderly.settled
  have chain := recorded.chain orderly.chain
  refine ⟨⟨?_, pending⟩, settled, chain, recorded.derived orderly.derived,
    orderly.kept.step (effect.custody requests own), ?_⟩
  · intro other member
    rw [State.setPhase, requests] at member
    obtain old | rfl := List.mem_or_eq_of_mem_set member
    · exact orderly.sound.requests other old
    · exact sound
  · intro other call attempt entering
    rw [State.setPhase, requests] at entering
    have acknowledged : after.Acknowledged attempt.job.jobId := by
      by_cases same : other = index
      · subst same
        rw [List.getElem?_set_self'] at entering
        obtain ⟨_, _, now⟩ := Option.map_eq_some_iff.mp entering
        obtain ⟨_, entered⟩ := Request.mk.inj now
        cases recorded with
        | nothing evidence chain outside => exact (outside attempt entered).elim
        | event entry evidence _ derived owned caughtUp =>
            exact State.acknowledged_of_caughtUp _ chain (caughtUp attempt entered)
      · rw [List.getElem?_set_ne (Ne.symm same)] at entering
        exact orderly.stays_acknowledged own same entering further recorded
    exact acknowledged

theorem minted_concat (requests : List Request) (call : Call) :
    minted (requests ++ [⟨call, .called⟩]) = minted requests ++ call.minted.toList := by
  rw [minted, List.filterMap_append]
  cases minted : call.minted <;> simp [minted, Wiring.minted]

theorem getElem?_requested {requests : List Request} {call : Call} {found : Request} {other : Nat}
    (lookup : (requests ++ [⟨call, .called⟩])[other]? = some found) :
    requests[other]? = some found ∨ other = requests.length ∧ found = ⟨call, .called⟩ := by
  rw [List.getElem?_append] at lookup
  split_ifs at lookup with old
  · exact Or.inl lookup
  · rw [List.getElem?_singleton] at lookup
    split_ifs at lookup
    exact Or.inr ⟨by omega, (Option.some.inj lookup).symm⟩

theorem claim_called {call : Call} {jobId : Str} {marks : List (Handoff × Action)}
    (claim : (Request.mk call .called).claim = some (jobId, marks)) :
    call.minted = some jobId ∧ marks = [] := by
  cases call with
  | submit subject own payload =>
      obtain ⟨rfl, rfl⟩ := Prod.mk.inj (Option.some.inj claim)
      exact ⟨rfl, rfl⟩
  | complete subject own token => cases claim
  | approve approver own ttlSeconds => cases claim

/-- A request enters with the job id that was minted for it, if any. -/
theorem requested_custody {call : Call}
    (fresh : ∀ jobId ∈ call.minted, jobId ∉ minted state.requests) :
    Custody.Step Course state.custody
      (State.custody { state with requests := state.requests ++ [⟨call, .called⟩] }) := by
  have holders : ∀ {holder jobId marks},
      (State.custody { state with requests := state.requests ++ [⟨call, .called⟩] }).holds
        holder jobId marks → state.custody.holds holder jobId marks ∨
          holder = some state.requests.length ∧ call.minted = some jobId ∧ marks = [] := by
    intro holder jobId marks held
    cases holder with
    | none => exact Or.inl held
    | some other =>
        obtain ⟨found, lookup, claim⟩ := held
        obtain old | ⟨rfl, rfl⟩ := getElem?_requested lookup
        · exact Or.inl ⟨found, old, claim⟩
        · exact Or.inr ⟨rfl, claim_called claim⟩
  have known : (State.custody { state with
      requests := state.requests ++ [⟨call, .called⟩] }).known =
        {jobId | jobId ∈ minted state.requests ++ call.minted.toList} := by
    rw [← minted_concat]
    rfl
  cases minted : call.minted with
  | none =>
      rw [minted, Option.toList_none, List.append_nil] at known
      refine .drops rfl known fun holder jobId marks held => ?_
      obtain old | ⟨_, absurd, _⟩ := holders held
      · exact old
      · rw [minted] at absurd
        cases absurd
  | some jobId =>
      refine .enters (some state.requests.length) jobId rfl ?_ (fresh jobId minted) ?_
      · rw [known, minted]
        ext other
        simp [State.custody, or_comm]
      · intro holder same marks held
        obtain old | ⟨rfl, own, rfl⟩ := holders held
        · exact Or.inl old
        · rw [minted] at own
          exact Or.inr ⟨rfl, (Option.some.inj own).symm, rfl⟩

theorem Orderly.requested {call : Call} (orderly : Orderly interpreter service state)
    (fresh : ∀ jobId ∈ call.minted, jobId ∉ minted state.requests) :
    Orderly interpreter service { state with requests := state.requests ++ [⟨call, .called⟩] } := by
  refine ⟨⟨?_, orderly.sound.pending⟩, orderly.settled, orderly.chain, orderly.derived,
    orderly.kept.step (requested_custody fresh), ?_⟩
  · intro other member
    obtain old | new := List.mem_append.mp member
    · exact orderly.sound.requests other old
    · rw [List.mem_singleton.mp new]
      trivial
  · intro other called attempt entering
    obtain old | ⟨_, new⟩ := getElem?_requested entering
    · exact orderly.acknowledged other called attempt old
    · cases new

theorem orderly_initial : Orderly interpreter service .initial := by
  have nobody : ∀ holder jobId marks, ¬State.initial.custody.holds holder jobId marks := by
    intro holder jobId marks held
    cases holder with
    | none => exact nomatch held.choose_spec.1
    | some index => exact nomatch held.choose_spec.1
  refine ⟨⟨?_, ?_⟩, settled_initial, rfl, ?_, ?_, ?_⟩
  · exact fun request member => nomatch member
  · exact fun entry member => nomatch member
  · exact fun entry member => nomatch member
  · exact Custody.kept_of_empty ⟨demoHandoff false, List.nil_prefix⟩ nobody fun _ => rfl
  · intro index call attempt entering
    cases entering

theorem Orderly.step {label : Label} (orderly : Orderly interpreter service state)
    (fresh : ∀ jobId ∈ label.minted, jobId ∉ minted state.requests)
    (stepped : step interpreter service state label = some next) :
    Orderly interpreter service next ∧
      minted next.requests = minted state.requests ++ label.minted.toList := by
  cases label with
  | request call =>
      obtain rfl := Option.some.inj stepped
      exact ⟨orderly.requested fresh, minted_concat state.requests call⟩
  | advance index input =>
      obtain ⟨request, own, rest⟩ := Option.bind_eq_some_iff.mp stepped
      obtain ⟨⟨phase, after⟩, turned, same⟩ := Option.bind_eq_some_iff.mp rest
      obtain rfl := Option.some.inj same
      have held := orderly.sound.requests request (List.mem_of_getElem? own)
      have requests := (turn_turned orderly.sound orderly.settled held turned).requests
      refine ⟨orderly.advance own turned, ?_⟩
      rw [State.setPhase, requests, Label.minted, Option.toList_none, List.append_nil]
      apply minted_set own

theorem orderly_of_run {labels : List Label} {final : State}
    (distinct : (labels.filterMap Label.minted).Nodup)
    (ran : run (step interpreter service) .initial labels = some final) :
    Orderly interpreter service final ∧ minted final.requests = labels.filterMap Label.minted := by
  induction labels using List.reverseRecOn generalizing final with
  | nil =>
      obtain rfl : State.initial = final := Option.some.inj ran
      exact ⟨orderly_initial, rfl⟩
  | append_singleton labels label ih =>
      obtain ⟨middle, before, stepped⟩ := (run_append_singleton _).mp ran
      have all : (labels ++ [label]).filterMap Label.minted =
          labels.filterMap Label.minted ++ label.minted.toList := by
        rw [List.filterMap_append]
        cases minted : label.minted <;> simp [minted]
      rw [all] at distinct ⊢
      obtain ⟨first, _, apart⟩ := List.nodup_append.mp distinct
      obtain ⟨orderly, known⟩ := ih first before
      have fresh : ∀ jobId ∈ label.minted, jobId ∉ minted middle.requests := by
        intro jobId member old
        rw [known] at old
        exact apart jobId old jobId (Option.mem_toList.mpr member) rfl
      obtain ⟨after, grown⟩ := orderly.step fresh stepped
      rw [known] at grown
      exact ⟨after, grown⟩

end Steps

/-- The position at which a milestone of a handoff was recorded. -/
def State.RecordedAt (state : State) (position : Nat) (handoff : Handoff) (action : Action) : Prop :=
  ∃ entry, state.evidence[position]? = some entry ∧ entry.milestone = (handoff, action)

/-- Its issue, its admission and its dispatch were recorded in this order, and the
anchor has acknowledged them. -/
def State.Evidenced (state : State) (handoff : Handoff) : Prop :=
  ∃ issued admitted dispatched : Nat, issued < admitted ∧ admitted < dispatched ∧
    dispatched < state.recorder.anchor.count ∧ state.RecordedAt issued handoff .handoffIssued ∧
    state.RecordedAt admitted handoff .handoffAdmitted ∧
    state.RecordedAt dispatched handoff .executionDispatched

section Positions

variable {interpreter service} {state : State}

/-- What a trace holds was recorded, in the same order. -/
theorem trace_positions (evidence : List Evidence) (jobId : Str) :
    ∃ position : Nat ↪o Nat, ∀ count, ∀ milestone ∈ (trace evidence jobId)[count]?,
      ∃ entry, evidence[position count]? = some entry ∧ entry.milestone = milestone ∧
        entry.handoff.jobId = jobId ∧ entry.event.action ∈ milestones := by
  have kept : (evidence.filter fun entry => entry.handoff.jobId = jobId ∧
      entry.event.action ∈ milestones).Sublist evidence := List.filter_sublist
  obtain ⟨position, same⟩ := List.sublist_iff_exists_orderEmbedding_getElem?_eq.mp kept
  refine ⟨position, fun count milestone member => ?_⟩
  rw [trace, List.getElem?_map] at member
  obtain ⟨entry, found, rfl⟩ := Option.map_eq_some_iff.mp member
  have own := of_decide_eq_true (List.mem_filter.mp (List.mem_of_getElem? found)).2
  rw [same] at found
  exact ⟨entry, found, rfl, own⟩

/-- Before a milestone of a handoff is recorded, all that precede it are. -/
theorem Orderly.before (orderly : Orderly interpreter service state) {position : Nat}
    {entry : Evidence} (found : state.evidence[position]? = some entry)
    (milestone : entry.event.action ∈ milestones) :
    ∃ count : Nat, milestones[count]? = some entry.event.action ∧
      trace (state.evidence.take position) entry.handoff.jobId = reached entry.handoff count := by
  obtain ⟨inside, rfl⟩ := List.getElem?_eq_some_iff.mp found
  obtain ⟨handoff, course⟩ := orderly.kept.course state.evidence[position].handoff.jobId
  have upTo : trace (state.evidence.take position) state.evidence[position].handoff.jobId ++
      [state.evidence[position].milestone] <+: reached handoff 4 := by
    have passed := congrFun (trace_concat (state.evidence.take position) milestone)
      state.evidence[position].handoff.jobId
    rw [Function.update_self] at passed
    rw [← passed, List.take_append_getElem]
    exact (((List.take_prefix _ _).filter _).map _).trans course
  obtain ⟨rfl, here, past⟩ := reached_of_concat upTo
  exact ⟨_, here, past⟩

/-- Of two records of one milestone, neither is the later one. -/
theorem Orderly.not_before (orderly : Orderly interpreter service state) {one two : Nat}
    {first second : Evidence} (here : state.evidence[one]? = some first)
    (there : state.evidence[two]? = some second) (same : first.milestone = second.milestone)
    (milestone : first.event.action ∈ milestones) : ¬one < two := by
  intro earlier
  obtain ⟨handoff, action⟩ := Prod.mk.inj same
  obtain ⟨count, due, past⟩ := orderly.before there (action ▸ milestone)
  have passed : first ∈ state.evidence.take two :=
    List.mem_of_getElem? ((List.getElem?_take_of_lt earlier).trans here)
  have traced : first.milestone ∈ trace (state.evidence.take two) second.handoff.jobId := by
    apply List.mem_map_of_mem
    apply List.mem_filter.mpr
    exact ⟨passed, decide_eq_true ⟨congrArg Handoff.jobId handoff, milestone⟩⟩
  rw [past] at traced
  obtain ⟨other, member, again⟩ := List.mem_map.mp traced
  obtain rfl : other = first.event.action := congrArg Prod.snd again
  rw [action] at member
  exact not_mem_take_milestones due member

/-- A milestone of a handoff is recorded once. -/
theorem Orderly.once (orderly : Orderly interpreter service state) {one two : Nat}
    {first second : Evidence} (here : state.evidence[one]? = some first)
    (there : state.evidence[two]? = some second) (same : first.milestone = second.milestone)
    (milestone : first.event.action ∈ milestones) : one = two := by
  have also : second.event.action ∈ milestones := (Prod.mk.inj same).2 ▸ milestone
  have least := orderly.not_before here there same milestone
  have most := orderly.not_before there here same.symm also
  omega

/-- A result is accepted after its job was dispatched. -/
theorem Orderly.dispatched (orderly : Orderly interpreter service state) {position : Nat}
    {entry : Evidence} (found : state.evidence[position]? = some entry)
    (accepted : entry.event.action = .resultAccepted) :
    ∃ earlier < position, state.RecordedAt earlier entry.handoff .executionDispatched := by
  have milestone : entry.event.action ∈ milestones := by
    rw [accepted]
    decide
  obtain ⟨count, due, past⟩ := orderly.before found milestone
  rw [accepted] at due
  have last : milestones[3]? = some Action.resultAccepted := rfl
  obtain rfl : 3 = count :=
    (List.getElem?_inj (by decide) nodup_milestones).mp (last.trans due.symm)
  have traced : (entry.handoff, Action.executionDispatched) ∈
      trace (state.evidence.take position) entry.handoff.jobId := by
    have second : (reached entry.handoff 3)[2]? =
        some (entry.handoff, Action.executionDispatched) := rfl
    rw [past]
    exact List.mem_of_getElem? second
  obtain ⟨before, member, same⟩ := List.mem_map.mp traced
  obtain ⟨earlier, lookup⟩ := List.mem_iff_getElem?.mp (List.mem_filter.mp member).1
  rw [List.getElem?_take] at lookup
  split_ifs at lookup with less
  exact ⟨earlier, less, before, lookup, same⟩

/-- A worker is entered only with the evidence of its handoff. -/
theorem Orderly.evidenced (orderly : Orderly interpreter service state) {index : Nat} {call : Call}
    {attempt : Attempt} (entering : state.requests[index]? = some ⟨call, .entering attempt⟩) :
    state.Evidenced attempt.permit.handoff := by
  have sound : attempt.Sound interpreter service :=
    orderly.sound.requests _ (List.mem_of_getElem? entering)
  have held : state.custody.holds (some index) attempt.job.jobId (reached attempt.job.handoff 3) :=
    ⟨_, entering, rfl⟩
  have past : trace state.evidence attempt.job.jobId = reached attempt.job.handoff 3 :=
    orderly.kept.informed held
  rw [sound.handoff]
  obtain ⟨position, places⟩ := trace_positions state.evidence attempt.job.jobId
  rw [past] at places
  obtain ⟨issue, issued, one, _⟩ := places 0 _ rfl
  obtain ⟨admission, admitted, two, _⟩ := places 1 _ rfl
  obtain ⟨dispatch, dispatched, three, named, milestone⟩ := places 2 _ rfl
  refine ⟨position 0, position 1, position 2, position.strictMono (by decide),
    position.strictMono (by decide), ?_, ⟨issue, issued, one⟩, ⟨admission, admitted, two⟩,
    ⟨dispatch, dispatched, three⟩⟩
  exact orderly.acknowledged index call attempt entering _ _ dispatched named milestone

end Positions

/-- In every run of the service with job ids that were minted once each: the chain
holds the recorded events, each derived from its handoff, and the anchor trails it
by at most one; whenever a worker is entered for a handoff, its issue, admission
and dispatch are recorded in this order and acknowledged; no milestone of a handoff
is recorded twice; and a result is accepted only after its dispatch. -/
theorem evidence_before_effect (interpreter : Interpreter) (service : Service)
    (labels : List Label) (final : State) (distinct : (labels.filterMap Label.minted).Nodup)
    (ran : run (step interpreter service) .initial labels = some final) :
    (final.recorder.Trails ∧
      final.recorder.chain.map CheckedRecord.event = final.evidence.map Evidence.event ∧
      ∀ entry ∈ final.evidence, ∃ report,
        eventFromHandoff entry.handoff report = .ok entry.event) ∧
    (∀ label next, step interpreter service final label = some next →
      next.entries ≠ final.entries → ∃ entry, next.entries = final.entries ++ [entry] ∧
        final.Evidenced entry.attempt.permit.handoff) ∧
    (∀ one two handoff, ∀ action ∈ milestones, final.RecordedAt one handoff action →
      final.RecordedAt two handoff action → one = two) ∧
    ∀ position handoff, final.RecordedAt position handoff .resultAccepted →
      ∃ earlier < position, final.RecordedAt earlier handoff .executionDispatched := by
  obtain ⟨orderly, _⟩ := orderly_of_run distinct ran
  refine ⟨⟨orderly.settled.trails, ?_, orderly.derived⟩, ?_, ?_, ?_⟩
  · rw [orderly.chain, map_event_recordsFrom]
  · intro label next stepped entered
    cases label with
    | request call =>
        obtain rfl := Option.some.inj stepped
        exact (entered rfl).elim
    | advance index input =>
        obtain ⟨request, own, rest⟩ := Option.bind_eq_some_iff.mp stepped
        obtain ⟨⟨phase, after⟩, turned, same⟩ := Option.bind_eq_some_iff.mp rest
        obtain rfl := Option.some.inj same
        have held := orderly.sound.requests request (List.mem_of_getElem? own)
        obtain kept | ⟨attempt, entering, added⟩ :=
          (turn_turned orderly.sound orderly.settled held turned).entries
        · exact (entered kept).elim
        · obtain ⟨call, _⟩ := request
          obtain rfl : _ = Phase.entering attempt := entering
          exact ⟨⟨index, attempt⟩, added, orderly.evidenced own⟩
  · rintro one two handoff action milestone ⟨first, here, same⟩ ⟨second, there, also⟩
    have acted : first.event.action = action := congrArg Prod.snd same
    exact orderly.once here there (same.trans also.symm) (acted ▸ milestone)
  · rintro position handoff ⟨entry, found, same⟩
    obtain ⟨rfl, accepted⟩ := Prod.mk.inj same
    exact orderly.dispatched found accepted

section Instance

open Orchestrator

def demoAttempt : Attempt where
  job := demoJob false
  now := 101
  endpoint := ⟨str "worker-demo", str "summarize"⟩
  permit := demoPermit

theorem ready_demo {state : State} (settled : state.recorder.Settled)
    (room : state.recorder.chain.length = 1) (free : state.ledger = []) :
    demoAttempt.Ready (demoService false) state where
  settled := settled
  room := by
    rw [room]
    decide
  gateway := rfl
  fits := fits_demo false
  admission := ⟨by decide, by decide, by decide, ⟨none, rfl, fun absurd => nomatch absurd⟩,
    ⟨_, rfl⟩, rfl⟩
  dispatch := ⟨by decide, by decide, by decide, ⟨none, rfl, fun absurd => nomatch absurd⟩,
    ⟨_, rfl⟩, rfl⟩
  reservation := ⟨_, rfl⟩
  free := by rw [free]; rfl
  short := by
    rw [free]
    decide

/-- A job that needs no approval reaches its worker. -/
theorem evidence_before_effect_demo : ∃ labels final next,
    run (step literalInterpreter (demoService false)) .initial labels = some final ∧
      step literalInterpreter (demoService false) final (.advance 0 (.answering 101 none)) =
        some next ∧
      next.entries = final.entries ++ [⟨0, demoAttempt⟩] ∧ final.Evidenced (demoHandoff false) := by
  let service := demoService false
  let input := Input.answering 101 none
  obtain ⟨recorder, evidence, first, settled, longer⟩ := run_submitted false
  let issued : State := { State.initial with
    recorder
    evidence
    requests := [⟨demoSubmit, .starting (demoJob false)⟩] }
  have starts : turn literalInterpreter service issued 0 ⟨demoSubmit, .starting (demoJob false)⟩
      input = some (.admitting (demoJob false) 101 demoAttempt.endpoint, issued) := by
    have routed := route_demo false 101 (by decide)
    have goes : start service issued (demoJob false) 101 = _ :=
      start_of_route service issued rfl routed rfl (by decide : 0 < maxJobs)
    exact congrArg (fun phase => some (phase, issued)) goes
  obtain ⟨second, started⟩ := advance literalInterpreter service input rfl starts rfl
  have admits : turn literalInterpreter service
      (issued.setPhase 0 ⟨demoSubmit, .starting (demoJob false)⟩
        (.admitting (demoJob false) 101 demoAttempt.endpoint)) 0
      ⟨demoSubmit, .admitting (demoJob false) 101 demoAttempt.endpoint⟩ input =
        some (.admitted demoAttempt, _) :=
    congrArg some (admitting_of_permit demoAttempt.endpoint (admission_demo []) rfl)
  obtain ⟨third, admitted⟩ := advance literalInterpreter service input started admits rfl
  obtain ⟨final, rest, entering⟩ :=
    run_admitted literalInterpreter 101 none (ready_demo settled longer rfl) admitted
  obtain ⟨enters, _⟩ := advance literalInterpreter service input entering rfl rfl
  have ran : run (step literalInterpreter service) .initial _ = some final :=
    (run_append _).mpr ⟨_, first, (run_cons _).mpr ⟨_, second, (run_cons _).mpr ⟨_, third, rest⟩⟩⟩
  have changed : final.entries ++ [⟨0, demoAttempt⟩] ≠ final.entries := by simp
  obtain ⟨_, evidenced, _⟩ := evidence_before_effect literalInterpreter service _ final (by decide) ran
  obtain ⟨entry, added, recorded⟩ := evidenced _ _ enters changed
  obtain rfl : ⟨0, demoAttempt⟩ = entry :=
    List.singleton_inj.mp (List.append_cancel_left added)
  exact ⟨_, final, _, ran, enters, rfl, recorded⟩

end Instance

end GeniusNew.Wiring
