import GeniusNew.Audit.Recorder

/-! # Recorder and anchor stay in lockstep

The calls of any number of threads share one recorder. Whoever holds the lock is
alone between recovery and acknowledgement, so the chain is never more than one
record ahead of its anchor, and it is linked to only when the anchor has it all.
-/

namespace GeniusNew.AnchoredAudit

open Transition

/-- What every reachable state of a recorder and its callers satisfies. -/
structure Lockstep (shared : Shared) : Prop where
  trails : shared.recorder.Trails
  settled : shared.recorder.needsReanchor = false →
    (∀ caller : Nat, shared.calls[caller]? ≠ some Phase.linked) → shared.recorder.CaughtUp
  held : ∀ (caller : Nat) (phase : Phase), shared.calls[caller]? = some phase → phase.holds = true →
    shared.lock = some caller
  recovered : ∀ (caller : Nat) (event : AuditEvent), shared.calls[caller]? = some (Phase.recovered event) →
    shared.recorder.needsReanchor = false

/-- Everything one step can do. -/
inductive Stepped (shared : Shared) (caller : Nat) : Shared → Prop where
  | enter (call : Call) (waiting : shared.calls[caller]? = some (Phase.called call))
      (free : shared.lock = none) :
      Stepped shared caller { shared with
        lock := some caller
        calls := shared.calls.set caller (.entered call) }
  | recover (event : AuditEvent) (anchor : Committed)
      (inside : shared.calls[caller]? = some (Phase.entered (.append event)))
      (caughtUp : (Recorder.mk shared.recorder.chain anchor false).CaughtUp)
      (trails : (Recorder.mk shared.recorder.chain anchor false).Trails) :
      Stepped shared caller
        (shared.moved caller (.recovered event) ⟨shared.recorder.chain, anchor, false⟩)
  | link (event : AuditEvent) (inside : shared.calls[caller]? = some (Phase.recovered event)) :
      Stepped shared caller (shared.moved caller .linked (shared.recorder.linked event))
  | finish (phase : Phase) (head : Option AuditHead) (anchor : Committed)
      (inside : shared.calls[caller]? = some phase) (holds : phase.holds = true)
      (caughtUp : (Recorder.mk shared.recorder.chain anchor false).CaughtUp)
      (trails : (Recorder.mk shared.recorder.chain anchor false).Trails) :
      Stepped shared caller
        (shared.left caller (.returned head) ⟨shared.recorder.chain, anchor, false⟩)
  | fail (phase : Phase) (reason : Raised) (anchor : Committed)
      (inside : shared.calls[caller]? = some phase) (holds : phase.holds = true)
      (trails : (Recorder.mk shared.recorder.chain anchor true).Trails) :
      Stepped shared caller
        (shared.left caller (.raised reason) ⟨shared.recorder.chain, anchor, true⟩)

section Steps

variable {authority : AuditAuthority} {shared next : Shared} {caller : Nat} {reply : Reply}

/-- Nobody else is inside while one call is. -/
theorem Lockstep.alone (lockstep : Lockstep shared) {other : Nat} {mine phase : Phase}
    (inside : shared.calls[caller]? = some mine) (holds : mine.holds = true)
    (found : shared.calls[other]? = some phase) (also : phase.holds = true) : other = caller := by
  have here := lockstep.held caller mine inside holds
  have there := lockstep.held other phase found also
  exact Option.some.inj (there.symm.trans here)

theorem Lockstep.not_linked (lockstep : Lockstep shared) {mine : Phase}
    (inside : shared.calls[caller]? = some mine) (holds : mine.holds = true)
    (distinct : mine ≠ .linked) : ∀ other : Nat, shared.calls[other]? ≠ some Phase.linked := by
  intro other found
  obtain rfl := lockstep.alone inside holds found rfl
  exact distinct (Option.some.inj (inside.symm.trans found))

theorem acknowledge_stepped {phase : Phase} {result : AuditHead → Option AuditHead}
    (lockstep : Lockstep shared) (inside : shared.calls[caller]? = some phase)
    (holds : phase.holds = true) :
    Stepped shared caller (shared.acknowledge authority reply caller result) := by
  unfold Shared.acknowledge
  obtain ⟨head, anchor, acked, caughtUp, trails, _⟩ | ⟨reason, anchor, acked, trails, _⟩ :=
    ackLocked_cases authority reply lockstep.trails
  · rw [acked]
    exact .finish phase (result head) anchor inside holds caughtUp trails
  · rw [acked]
    exact .fail phase reason anchor inside holds trails

theorem step_stepped (lockstep : Lockstep shared)
    (stepped : step authority shared (caller, reply) = some next) :
    Stepped shared caller next := by
  simp only [step] at stepped
  split at stepped
  · rename_i call waiting
    split at stepped
    · cases stepped
    · rename_i free
      obtain rfl := Option.some.inj stepped
      exact .enter call waiting free
  · rename_i event inside
    have alone := lockstep.not_linked inside rfl nofun
    obtain ⟨anchor, recovers, caughtUp, trails, _⟩ | ⟨reason, anchor, recovers, trails, _⟩ :=
      recoverLocked_cases authority reply lockstep.trails fun flag => lockstep.settled flag alone
    · rw [recovers] at stepped
      obtain rfl := Option.some.inj stepped
      exact .recover event anchor inside caughtUp trails
    · rw [recovers] at stepped
      obtain rfl := Option.some.inj stepped
      exact .fail _ reason anchor inside rfl trails
  · rename_i event inside
    obtain rfl := Option.some.inj stepped
    exact .link event inside
  · rename_i inside
    obtain rfl := Option.some.inj stepped
    exact acknowledge_stepped lockstep inside rfl
  · rename_i inside
    obtain rfl := Option.some.inj stepped
    exact acknowledge_stepped lockstep inside rfl
  · cases stepped

theorem getElem?_set_cases {phases : List Phase} {phase found : Phase} {other : Nat}
    (lookup : (phases.set caller phase)[other]? = some found) :
    (other = caller ∧ found = phase) ∨ (other ≠ caller ∧ phases[other]? = some found) := by
  by_cases same : other = caller
  · subst same
    rw [List.getElem?_set_self'] at lookup
    obtain ⟨_, _, rfl⟩ := Option.map_eq_some_iff.mp lookup
    exact Or.inl ⟨rfl, rfl⟩
  · rw [List.getElem?_set_ne (Ne.symm same)] at lookup
    exact Or.inr ⟨same, lookup⟩

theorem getElem?_set_of_some {phases : List Phase} {phase found : Phase}
    (lookup : phases[caller]? = some found) : (phases.set caller phase)[caller]? = some phase := by
  obtain ⟨inside, _⟩ := List.getElem?_eq_some_iff.mp lookup
  exact List.getElem?_set_self inside

/-- The anchor has everything at the moment a record is linked. -/
theorem Lockstep.caughtUp_of_recovered {event : AuditEvent} (lockstep : Lockstep shared)
    (inside : shared.calls[caller]? = some (Phase.recovered event)) : shared.recorder.CaughtUp :=
  lockstep.settled (lockstep.recovered caller event inside)
    (lockstep.not_linked inside rfl nofun)

theorem Lockstep.step (lockstep : Lockstep shared) (stepped : Stepped shared caller next) :
    Lockstep next := by
  -- while one call is inside, a set of its own phase leaves nobody else inside
  have others : ∀ {mine phase found : Phase} {other : Nat},
      shared.calls[caller]? = some mine → mine.holds = true →
      (shared.calls.set caller phase)[other]? = some found → found.holds = true →
      other = caller ∧ found = phase := by
    intro mine phase found other inside holds lookup also
    obtain same | ⟨distinct, before⟩ := getElem?_set_cases lookup
    · exact same
    · exact (distinct (lockstep.alone inside holds before also)).elim
  cases stepped with
  | enter call waiting free =>
      have outside : ∀ (other : Nat) (phase : Phase), shared.calls[other]? = some phase → phase.holds = true →
          False := by
        intro other phase found holds
        have held := lockstep.held other phase found holds
        rw [free] at held
        cases held
      refine ⟨lockstep.trails, fun flag _ => ?_, fun other phase found holds => ?_,
        fun other event found => ?_⟩
      · exact lockstep.settled flag fun other found => outside other _ found rfl
      · obtain ⟨rfl, _⟩ | ⟨_, before⟩ := getElem?_set_cases found
        · rfl
        · exact (outside other phase before holds).elim
      · obtain ⟨_, differs⟩ | ⟨_, before⟩ := getElem?_set_cases found
        · cases differs
        · exact (outside other _ before rfl).elim
  | recover event anchor inside caughtUp trails =>
      refine ⟨trails, fun _ _ => caughtUp, fun other phase found holds => ?_, fun _ _ _ => rfl⟩
      obtain ⟨rfl, _⟩ := others inside rfl found holds
      exact lockstep.held other _ inside rfl
  | link event inside =>
      have caughtUp := lockstep.caughtUp_of_recovered inside
      refine ⟨lockstep.trails.linked event caughtUp, fun _ none => ?_,
        fun other phase found holds => ?_, fun other event' found => ?_⟩
      · exact (none caller (getElem?_set_of_some inside)).elim
      · obtain ⟨rfl, _⟩ := others inside rfl found holds
        exact lockstep.held other _ inside rfl
      · obtain ⟨_, differs⟩ := others inside rfl found rfl
        cases differs
  | finish phase head anchor inside holds caughtUp trails =>
      refine ⟨trails, fun _ _ => caughtUp, fun other phase' found also => ?_, fun _ _ _ => rfl⟩
      obtain ⟨_, rfl⟩ := others inside holds found also
      cases also
  | fail phase reason anchor inside holds trails =>
      refine ⟨trails, fun flag _ => ?_, fun other phase' found also => ?_, fun other event found => ?_⟩
      · cases flag
      · obtain ⟨_, rfl⟩ := others inside holds found also
        cases also
      · obtain ⟨_, differs⟩ := others inside holds found rfl
        cases differs

end Steps

theorem lockstep_start (events : List AuditEvent) (short : events.length ≤ maxCount)
    (calls : List Call) : Lockstep (.start events short calls) := by
  have waiting : ∀ {caller : Nat} {phase : Phase},
      (Shared.start events short calls).calls[caller]? = some phase → ∃ call, phase = .called call := by
    intro caller phase found
    rw [Shared.start, List.getElem?_map] at found
    obtain ⟨call, _, rfl⟩ := Option.map_eq_some_iff.mp found
    exact ⟨call, rfl⟩
  have whole : Verified (Recorder.holding events short).anchor events := verified_commitment short
  have chained : (Recorder.holding events short).chain = recordsFrom 0 emptyHash events := rfl
  have trails : (Recorder.holding events short).Trails := by
    refine ⟨events, [], Nat.zero_le _, whole, ?_⟩
    rw [List.append_nil]
    exact chained
  refine ⟨trails, fun _ _ => caughtUp_of_verified chained whole,
    fun caller phase found holds => ?_, fun caller event found => ?_⟩
  · obtain ⟨call, rfl⟩ := waiting found
    cases holds
  · obtain ⟨call, differs⟩ := waiting found
    cases differs

theorem lockstep_of_run {authority : AuditAuthority} {start final : Shared}
    {schedule : List (Nat × Reply)} (lockstep : Lockstep start)
    (ran : run (step authority) start schedule = some final) : Lockstep final :=
  run_invariant Lockstep
    (fun _ _ _ _ invariant stepped => invariant.step (step_stepped invariant stepped)) lockstep ran

/-- A commit was acknowledged in this step: the one that ends a call, or the
recovery of an earlier one. -/
def Acknowledges (before after : Shared) (caller : Nat) : Prop :=
  (∃ head, after.calls[caller]? = some (Phase.returned head)) ∨
    (before.recorder.needsReanchor = true ∧
      ∃ event, after.calls[caller]? = some (Phase.recovered event))

/-- A linked record waits for its acknowledgement. -/
def Unacknowledged (shared : Shared) : Prop :=
  shared.recorder.needsReanchor = true ∨ ∃ caller : Nat, shared.calls[caller]? = some Phase.linked

section Runs

variable {authority : AuditAuthority} {shared next : Shared} {caller : Nat}

theorem Stepped.linked (stepped : Stepped shared caller next)
    (changed : next.recorder.chain ≠ shared.recorder.chain) :
    ∃ event, shared.calls[caller]? = some (Phase.recovered event) ∧
      next = shared.moved caller .linked (shared.recorder.linked event) := by
  cases stepped with
  | link event inside => exact ⟨event, inside, rfl⟩
  | _ => exact (changed rfl).elim

theorem Stepped.chain_eq (stepped : Stepped shared caller next) {phase : Phase}
    (own : shared.calls[caller]? = some phase) (unlinked : ∀ event, phase ≠ .recovered event) :
    next.recorder.chain = shared.recorder.chain := by
  by_contra changed
  obtain ⟨event, inside, _⟩ := stepped.linked changed
  exact unlinked event (Option.some.inj (own.symm.trans inside))

theorem Stepped.entered (stepped : Stepped shared caller next) {call : Call}
    (waiting : shared.calls[caller]? = some (Phase.called call)) :
    next.calls[caller]? = some (Phase.entered call) := by
  have only : ∀ {phase : Phase}, shared.calls[caller]? = some phase → phase = .called call :=
    fun own => Option.some.inj (own.symm.trans waiting)
  cases stepped with
  | enter other own free =>
      obtain rfl := Phase.called.inj (only own)
      exact getElem?_set_of_some own
  | recover event anchor inside caughtUp trails => cases only inside
  | link event inside => cases only inside
  | finish phase head anchor inside holds caughtUp trails =>
      rw [only inside] at holds
      cases holds
  | fail phase reason anchor inside holds trails =>
      rw [only inside] at holds
      cases holds

theorem Stepped.returned (stepped : Stepped shared caller next) {head : Option AuditHead}
    (returned : next.calls[caller]? = some (Phase.returned head)) : next.recorder.CaughtUp := by
  -- the phase a step leaves its caller in
  have left : ∀ {mine phase : Phase}, shared.calls[caller]? = some mine →
      (shared.calls.set caller phase)[caller]? = some (Phase.returned head) →
      phase = .returned head :=
    fun own found => Option.some.inj ((getElem?_set_of_some own).symm.trans found)
  cases stepped with
  | enter call waiting free => cases left waiting returned
  | recover event anchor inside caughtUp trails => exact caughtUp
  | link event inside => cases left inside returned
  | finish phase head anchor inside holds caughtUp trails => exact caughtUp
  | fail phase reason anchor inside holds trails => cases left inside returned

theorem Lockstep.acknowledged (lockstep : Lockstep shared) {event : AuditEvent}
    (inside : shared.calls[caller]? = some (Phase.recovered event)) : ¬Unacknowledged shared := by
  rintro (flagged | ⟨other, waits⟩)
  · rw [lockstep.recovered caller event inside] at flagged
    cases flagged
  · exact lockstep.not_linked inside rfl nofun other waits

theorem Stepped.unacknowledged (stepped : Stepped shared caller next) (lockstep : Lockstep shared)
    (waits : Unacknowledged shared) : Acknowledges shared next caller ∨ Unacknowledged next := by
  cases stepped with
  | enter call waiting free =>
      refine Or.inr (waits.imp id fun ⟨other, found⟩ => ⟨other, ?_⟩)
      have distinct : caller ≠ other := by
        rintro rfl
        rw [waiting] at found
        cases found
      exact (List.getElem?_set_ne distinct).trans found
  | recover event anchor inside caughtUp trails =>
      obtain flagged | ⟨other, found⟩ := waits
      · exact Or.inl (Or.inr ⟨flagged, event, getElem?_set_of_some inside⟩)
      · exact (lockstep.not_linked inside rfl nofun other found).elim
  | link event inside => exact Or.inr (Or.inr ⟨caller, getElem?_set_of_some inside⟩)
  | finish phase head anchor inside holds caughtUp trails =>
      exact Or.inl (Or.inl ⟨head, getElem?_set_of_some inside⟩)
  | fail phase reason anchor inside holds trails => exact Or.inr (Or.inl rfl)

/-- Between a state with an unacknowledged record and one without, some commit
was acknowledged. -/
theorem exists_acknowledges {start final : Shared} {schedule : List (Nat × Reply)}
    (lockstep : Lockstep start) (waits : Unacknowledged start) (done : ¬Unacknowledged final)
    (ran : run (step authority) start schedule = some final) :
    ∃ earlier label later before after, schedule = earlier ++ label :: later ∧
      run (step authority) start earlier = some before ∧
      step authority before label = some after ∧ Acknowledges before after label.1 := by
  induction schedule generalizing start with
  | nil =>
      obtain rfl := Option.some.inj ran
      exact (done waits).elim
  | cons label schedule ih =>
      obtain ⟨middle, stepped, rest⟩ := (run_cons (step authority)).mp ran
      have moved := step_stepped lockstep stepped
      obtain acknowledged | waiting := moved.unacknowledged lockstep waits
      · exact ⟨[], label, schedule, start, middle, rfl, rfl, stepped, acknowledged⟩
      · obtain ⟨earlier, other, later, before, after, rfl, reached, next, acknowledged⟩ :=
          ih (lockstep.step moved) waiting rest
        exact ⟨label :: earlier, other, later, before, after, rfl,
          (run_cons (step authority)).mpr ⟨middle, stepped, reached⟩, next, acknowledged⟩

/-- A call beyond its recovery. -/
def Phase.beyond : Phase → Bool
  | .called _ | .entered _ => false
  | _ => true

/-- While a call has the lock and has not recovered, nothing else moves. -/
theorem run_entered {start final : Shared} {call : Call} {schedule : List (Nat × Reply)}
    (lockstep : Lockstep start) (inside : start.calls[caller]? = some (Phase.entered call))
    (ran : run (step authority) start schedule = some final) :
    final = start ∨ ∃ phase, final.calls[caller]? = some phase ∧ phase.beyond = true := by
  refine (run_invariant (fun state => Lockstep state ∧ (state = start ∨
    ∃ phase, state.calls[caller]? = some phase ∧ phase.beyond = true)) ?_
    ⟨lockstep, Or.inl rfl⟩ ran).2
  rintro state ⟨other, reply⟩ next _ ⟨invariant, stays⟩ stepped
  have moved := step_stepped invariant stepped
  refine ⟨invariant.step moved, Or.inr ?_⟩
  have kept : ∀ {mine phase : Phase}, state.calls[other]? = some mine → phase.beyond = true →
      (∃ found, state.calls[caller]? = some found ∧ found.beyond = true) ∨ other = caller →
      ∃ found, (state.calls.set other phase)[caller]? = some found ∧ found.beyond = true := by
    intro mine phase own further either
    by_cases same : other = caller
    · subst same
      exact ⟨phase, getElem?_set_of_some own, further⟩
    · rw [List.getElem?_set_ne same]
      exact either.resolve_right same
  have alone : state = start → ∀ {mine : Phase}, state.calls[other]? = some mine →
      mine.holds = true → other = caller := by
    rintro rfl mine own holds
    exact invariant.alone inside rfl own holds
  have either : ∀ {mine : Phase}, state.calls[other]? = some mine → mine.holds = true →
      (∃ found, state.calls[caller]? = some found ∧ found.beyond = true) ∨ other = caller :=
    fun own holds => stays.symm.imp id fun same => alone same own holds
  cases moved with
  | enter call' waiting free =>
      obtain rfl | ⟨phase, found, further⟩ := stays
      · rw [lockstep.held caller _ inside rfl] at free
        cases free
      · have distinct : other ≠ caller := by
          rintro rfl
          rw [waiting] at found
          obtain rfl := Option.some.inj found
          cases further
        exact ⟨phase, (List.getElem?_set_ne distinct).trans found, further⟩
  | recover event anchor own caughtUp trails => exact kept own rfl (either own rfl)
  | link event own => exact kept own rfl (either own rfl)
  | finish phase head anchor own holds caughtUp trails => exact kept own rfl (either own holds)
  | fail phase reason anchor own holds trails => exact kept own rfl (either own holds)

end Runs

/-- However the calls of any number of threads interleave and whatever becomes of
their commits: the chain is never more than one record ahead of its anchor; a
record is linked only when the anchor has everything before it, and between two
links a commit was acknowledged; a call that returns leaves the anchor with the
whole chain; and an append that raises before its link has changed no record
since it took the lock. -/
theorem recorder_lockstep (authority : AuditAuthority) (events : List AuditEvent)
    (short : events.length ≤ maxCount) (calls : List Call) (schedule : List (Nat × Reply))
    (final : Shared)
    (ran : run (step authority) (.start events short calls) schedule = some final) :
    (final.recorder.Trails ∧ final.recorder.chain.length ≤ final.recorder.anchor.count + 1) ∧
    (∀ caller reply next, step authority final (caller, reply) = some next →
      (next.recorder.chain ≠ final.recorder.chain →
        final.recorder.CaughtUp ∧ final.recorder.needsReanchor = false) ∧
      (∀ head, next.calls[caller]? = some (Phase.returned head) → next.recorder.CaughtUp)) ∧
    (∀ first second before between after middle, step authority final first = some before →
      before.recorder.chain ≠ final.recorder.chain →
      run (step authority) before middle = some between →
      step authority between second = some after →
      after.recorder.chain ≠ between.recorder.chain →
      ∃ earlier label later state next, middle = earlier ++ label :: later ∧
        run (step authority) before earlier = some state ∧
        step authority state label = some next ∧ Acknowledges state next label.1) ∧
    (∀ caller event reply entered middle inside reply' after reason,
      final.calls[caller]? = some (Phase.called (.append event)) →
      step authority final (caller, reply) = some entered →
      run (step authority) entered middle = some inside →
      inside.calls[caller]? = some (Phase.entered (.append event)) →
      step authority inside (caller, reply') = some after →
      after.calls[caller]? = some (Phase.raised reason) →
      after.recorder.chain = final.recorder.chain) := by
  have lockstep := lockstep_of_run (lockstep_start events short calls) ran
  refine ⟨⟨lockstep.trails, lockstep.trails.length_le.2⟩, ?_, ?_, ?_⟩
  · intro caller reply next stepped
    have moved := step_stepped lockstep stepped
    refine ⟨fun changed => ?_, fun head returned => moved.returned returned⟩
    obtain ⟨event, inside, _⟩ := moved.linked changed
    exact ⟨lockstep.caughtUp_of_recovered inside, lockstep.recovered caller event inside⟩
  · intro first second before between after middle linked changed rest links changes
    have moved := step_stepped lockstep linked
    obtain ⟨event, inside, rfl⟩ := moved.linked changed
    have lockstep' := lockstep.step moved
    have lockstep'' := lockstep_of_run lockstep' rest
    obtain ⟨event', inside', _⟩ := (step_stepped lockstep'' links).linked changes
    exact exists_acknowledges lockstep' (Or.inr ⟨first.1, getElem?_set_of_some inside⟩)
      (lockstep''.acknowledged inside') rest
  · intro caller event reply entered middle inside reply' after reason waiting enters rest still
      raises raised
    have moved := step_stepped lockstep enters
    have untouched := moved.chain_eq waiting fun _ => Phase.noConfusion
    have lockstep' := lockstep.step moved
    obtain same | ⟨phase, found, further⟩ := run_entered lockstep' (moved.entered waiting) rest
    · subst same
      exact ((step_stepped lockstep' raises).chain_eq still fun _ => Phase.noConfusion).trans
        untouched
    · rw [still] at found
      obtain rfl := Option.some.inj found
      cases further

section Instance

def refusal : Raised := .contractError "anchor process is unavailable"

/-- The first append loses its reply, the second is refused in its recovery, and
a call for the head then catches up. -/
def lossySchedule : List (Nat × Reply) :=
  [(0, .answered), (0, .answered), (0, .answered), (0, .lost refusal),
    (1, .answered), (1, .refused refusal), (2, .answered), (2, .answered)]

theorem length_singleton_le (event : AuditEvent) : [event].length ≤ maxCount :=
  (by decide : 1 ≤ maxCount)

theorem run_lossy (authority : AuditAuthority) (first second : AuditEvent) :
    let all := commitment [first] (length_singleton_le first)
    run (step authority) (.start [] (Nat.zero_le _) [.append first, .append second, .head])
        lossySchedule =
      some ⟨⟨recordsFrom 0 emptyHash [first], all, false⟩, none,
        [.raised refusal, .raised refusal, .returned (some (authority.signed all))]⟩ := by
  intro all
  have empty : Verified (commitment [] (Nat.zero_le _)) [] := verified_commitment (Nat.zero_le _)
  have whole : Verified all ([first] ++ []) := verified_commitment (length_singleton_le first)
  let before : Recorder :=
    ⟨recordsFrom 0 emptyHash [first], commitment [] (Nat.zero_le _), false⟩
  let flagged : Recorder := ⟨recordsFrom 0 emptyHash [first], all, true⟩
  have lost : ackLocked authority (.lost refusal) before = (.error refusal, flagged) :=
    (ackLocked_trailing authority before [] [first] (length_singleton_le first) empty rfl).2.1
      refusal
  obtain ⟨answered, _, refused⟩ :=
    ackLocked_trailing authority flagged [first] [] (length_singleton_le first) whole rfl
  -- the second append finds the flag up and does not reach the chain
  have recovers : recoverLocked authority (.refused refusal) flagged = (.error refusal, flagged) := by
    rw [recoverLocked, if_pos rfl, refused]
  let rest : List Phase := [.called (.append second), .called .head]
  have links : run (step authority)
      (.start [] (Nat.zero_le _) [.append first, .append second, .head])
      [(0, .answered), (0, .answered), (0, .answered)] = some ⟨before, some 0, .linked :: rest⟩ := rfl
  have loses : step authority ⟨before, some 0, .linked :: rest⟩ (0, .lost refusal) =
      some ⟨flagged, none, .raised refusal :: rest⟩ := by
    change some (Shared.acknowledge _ _ _ _ _) = _
    rw [Shared.acknowledge, lost]
    rfl
  have refuses : step authority
      ⟨flagged, some 1, [.raised refusal, .entered (.append second), .called .head]⟩
      (1, .refused refusal) =
      some ⟨flagged, none, [.raised refusal, .raised refusal, .called .head]⟩ := by
    simp only [step, List.getElem?_cons_succ, List.getElem?_cons_zero, recovers]
    rfl
  have catches : step authority
      ⟨flagged, some 2, [.raised refusal, .raised refusal, .entered .head]⟩ (2, .answered) =
      some ⟨⟨recordsFrom 0 emptyHash [first], all, false⟩, none,
        [.raised refusal, .raised refusal, .returned (some (authority.signed all))]⟩ := by
    change some (Shared.acknowledge _ _ _ _ _) = _
    rw [Shared.acknowledge, answered]
    rfl
  refine (run_append (step authority)).mpr ⟨_, links, ?_⟩
  refine (run_cons _).mpr ⟨_, loses, (run_cons _).mpr ⟨_, rfl, (run_cons _).mpr ⟨_, refuses, ?_⟩⟩⟩
  exact (run_cons _).mpr ⟨_, rfl, (run_cons _).mpr ⟨_, catches, rfl⟩⟩

/-- Such a run: two appends raise, one record is on the chain, and the anchor has it. -/
theorem recorder_lockstep_lossy : ∃ final : Shared,
    run (step digestAuthority) (.start [] (Nat.zero_le _)
      [.append (issuedAt ⟨1, by decide⟩), .append (issuedAt ⟨2, by decide⟩), .head])
        lossySchedule = some final ∧
      final.recorder.chain.length = 1 ∧ final.recorder.anchor.count = 1 ∧ final.recorder.Trails := by
  have ran := run_lossy digestAuthority (issuedAt ⟨1, by decide⟩) (issuedAt ⟨2, by decide⟩)
  exact ⟨_, ran, rfl, rfl, (recorder_lockstep digestAuthority [] (Nat.zero_le _) _ lossySchedule _
    ran).1.1⟩

end Instance

end GeniusNew.AnchoredAudit
