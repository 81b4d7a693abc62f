import GeniusNew.Audit.TamperEvidence
import GeniusNew.Transition.Run

/-! # Anchor continuity under concurrency

Any number of `commit` and `commit_delta` calls share one anchor. What a call
checks outside the lock depends on its arguments only, so its atomic steps are
its critical sections: one for `commit`, and for `commit_delta` the read of its
base and the comparison before it moves. Every step extends the committed state
by a suffix of records, so all states of a run lie on one chain.
-/

namespace GeniusNew

open Json HashChain Transition

namespace AuditAnchor

/-- A call with its arguments; `authority` is the verifier it was given. -/
inductive Call where
  | commit (authority : AuditVerifier) (head : Option AuditHead) (items : List Item)
  | commitDelta (authority : AuditVerifier) (head : Option AuditHead) (items : List Item)

inductive Progress where
  | called (call : Call)
  | based (authority : AuditVerifier) (head : Option AuditHead) (items : List Item)
      (base : Committed)
  | returned (result : Committed)
  | raised (reason : Raised)

def Progress.ofOutcome : Outcome Committed → Progress
  | .ok result => .returned result
  | .error reason => .raised reason

/-- The anchor and the calls in flight, each at the index that names it. -/
structure Shared where
  state : Committed
  calls : List Progress

def Shared.initial (calls : List Call) : Shared := ⟨.initial, calls.map .called⟩

/-- The second critical section of `commit_delta`, after the check of its records. -/
def finishDelta (authority : AuditVerifier) (head : Option AuditHead) (items : List Item)
    (base state : Committed) : Outcome Committed := do
  let (claimed, _) ← extend authority head items base
  compareAndMove claimed base state

/-- The next critical section of one call. -/
def step (shared : Shared) (caller : Nat) : Option Shared :=
  match shared.calls[caller]? with
  | some (.called (.commit authority head items)) =>
      let (outcome, state) := commit authority head items shared.state
      some ⟨state, shared.calls.set caller (.ofOutcome outcome)⟩
  | some (.called (.commitDelta authority head items)) =>
      some { shared with
        calls := shared.calls.set caller (.based authority head items shared.state) }
  | some (.based authority head items base) =>
      let (outcome, state) :=
        settle shared.state (finishDelta authority head items base shared.state)
      some ⟨state, shared.calls.set caller (.ofOutcome outcome)⟩
  | _ => none

/-- `next` continues the chain that ends in `state`. -/
def Extends (state next : Committed) : Prop :=
  ∃ suffix : List AuditEvent, next.count = state.count + suffix.length ∧
    next.headHash = tip link state.count state.headHash (written suffix)

/-- An anchor that has committed no record holds the empty hash. -/
def Grounded (state : Committed) : Prop := state.count = 0 → state.headHash = emptyHash

theorem Extends.refl (state : Committed) : Extends state state := ⟨[], rfl, rfl⟩

theorem Extends.grounded {state next : Committed} (extended : Extends state next)
    (grounded : Grounded state) : Grounded next := by
  obtain ⟨suffix, sized, ends⟩ := extended
  intro empty
  have none : suffix = [] := List.length_eq_zero_iff.mp (by omega)
  rw [ends, none]
  exact grounded (by omega)

/-- A commit that succeeds under the lock extends the state it finds. -/
theorem extends_of_commitLocked {claimed state next : Committed} {events : List AuditEvent}
    (grounded : Grounded state) (whole : Verified claimed events)
    (locked : commitLocked claimed (recordsFrom 0 emptyHash events) state = .ok next) :
    Extends state next := by
  simp only [commitLocked, guarded_eq_ok] at locked
  obtain ⟨long, equal, contained, moved⟩ := locked
  obtain rfl := Except.ok.inj moved
  have reached : state.count ≤ events.length := by
    rw [whole.length_eq]
    omega
  -- the chain passes the committed hash at the committed position
  have passes : tip link 0 emptyHash (written (events.take state.count)) = state.headHash := by
    rcases Nat.eq_zero_or_pos state.count with empty | positive
    · rw [empty, List.take_zero]
      exact (grounded empty).symm
    rcases Nat.lt_or_ge state.count claimed.count with longer | exact
    · rw [hashAt_recordsFrom (by omega) reached] at contained
      exact Option.some.inj (not_not.mp fun other => contained ⟨by omega, longer, other⟩)
    · have same : claimed.count = state.count := by omega
      rw [← same, ← whole.length_eq, List.take_length, whole.tip_eq]
      exact not_not.mp fun other => equal ⟨same, other⟩
  refine ⟨events.drop state.count, ?_, ?_⟩
  · rw [List.length_drop, whole.length_eq]
    omega
  · have split := tip_append link 0 emptyHash (written (events.take state.count))
      (written (events.drop state.count))
    rw [← written_append, List.take_append_drop, whole.tip_eq, passes, length_written,
      List.length_take, Nat.min_eq_left reached, Nat.zero_add] at split
    exact split

/-- A delta that succeeds extends the state it finds, whatever its base was. -/
theorem extends_of_finishDelta {authority : AuditVerifier} {head : Option AuditHead}
    {items : List Item} {base state next : Committed}
    (finished : finishDelta authority head items base state = .ok next) : Extends state next := by
  obtain ⟨⟨claimed, records⟩, extended, compared⟩ := bind_eq_ok.mp finished
  obtain ⟨_, _, events, sized, ends, _⟩ := extend_eq_ok.mp extended
  simp only [compareAndMove] at compared
  split_ifs at compared with same already
  · obtain rfl := Except.ok.inj compared
    subst same
    exact ⟨events, sized.symm, ends.symm⟩
  · obtain rfl := Except.ok.inj compared
    exact Extends.refl state
  · exact (fail_ne_ok compared).elim

theorem settle_cases (state : Committed) (outcome : Outcome Committed) :
    (∃ next, outcome = .ok next ∧ settle state outcome = (.ok next, next)) ∨
      ∃ reason, outcome = .error reason ∧ settle state outcome = (.error reason, state) := by
  cases outcome with
  | ok next => exact Or.inl ⟨next, rfl, rfl⟩
  | error reason => exact Or.inr ⟨reason, rfl, rfl⟩

/-- Everything one step can do: a call reads its base, moves the anchor along
its chain and returns, or raises and leaves the anchor as it was. -/
theorem step_cases {shared next : Shared} {caller : Nat} (grounded : Grounded shared.state)
    (stepped : step shared caller = some next) :
    (∃ authority head items, next = { shared with
      calls := shared.calls.set caller (.based authority head items shared.state) }) ∨
    (∃ state, Extends shared.state state ∧
      next = ⟨state, shared.calls.set caller (.returned state)⟩) ∨
    (∃ reason, next = { shared with calls := shared.calls.set caller (.raised reason) }) := by
  simp only [step] at stepped
  split at stepped
  · rename_i authority head items _
    have moved := Option.some.inj stepped
    rw [commit] at moved
    rcases settle_cases shared.state (do
      let (claimed, chain) ← prepare authority head items
      commitLocked claimed chain shared.state) with ⟨state, decided, settled⟩ | ⟨reason, _, settled⟩
    · obtain ⟨⟨claimed, chain⟩, prepared, locked⟩ := bind_eq_ok.mp decided
      obtain ⟨_, events, whole, rfl, _⟩ := prepare_eq_ok.mp prepared
      rw [settled] at moved
      exact Or.inr (Or.inl ⟨state, extends_of_commitLocked grounded whole locked, moved.symm⟩)
    · rw [settled] at moved
      exact Or.inr (Or.inr ⟨reason, moved.symm⟩)
  · exact Or.inl ⟨_, _, _, (Option.some.inj stepped).symm⟩
  · rename_i authority head items base _
    have moved := Option.some.inj stepped
    rcases settle_cases shared.state (finishDelta authority head items base shared.state) with
      ⟨state, decided, settled⟩ | ⟨reason, _, settled⟩
    · rw [settled] at moved
      exact Or.inr (Or.inl ⟨state, extends_of_finishDelta decided, moved.symm⟩)
    · rw [settled] at moved
      exact Or.inr (Or.inr ⟨reason, moved.symm⟩)
  · cases stepped

theorem step_extends {shared next : Shared} {caller : Nat} (grounded : Grounded shared.state)
    (stepped : step shared caller = some next) : Extends shared.state next.state := by
  obtain ⟨_, _, _, rfl⟩ | ⟨state, extended, rfl⟩ | ⟨_, rfl⟩ := step_cases grounded stepped
  · exact Extends.refl _
  · exact extended
  · exact Extends.refl _

/-- A state whose anchor lies on a chain: the hash of the chain's record at the
committed count, or the empty hash before the first record. -/
def OnChain (chain : List AuditEvent) (state : Committed) : Prop :=
  state.count ≤ chain.length ∧ (state.count = 0 → state.headHash = emptyHash) ∧
    (state.count ≠ 0 → hashAt (recordsFrom 0 emptyHash chain) state.count = some state.headHash)

theorem onChain_iff {chain : List AuditEvent} {state : Committed} :
    OnChain chain state ↔
      Commits link emptyHash (written chain) state.count state.headHash := by
  simp only [OnChain, Commits, length_written, ← written_take]
  refine and_congr_right fun reached => ?_
  rcases Nat.eq_zero_or_pos state.count with empty | positive
  · simp [empty, written]
  · have nonzero : state.count ≠ 0 := by omega
    rw [hashAt_recordsFrom nonzero reached]
    simp [nonzero, eq_comm]

/-- The invariant of a run: one chain, as long as the last committed count,
carries the anchor's state after every initial segment of the run. -/
theorem exists_chain {calls : List Call} {schedule : List Nat} {final : Shared}
    (ran : run step (.initial calls) schedule = some final) :
    ∃ chain : List AuditEvent, chain.length = final.state.count ∧ Grounded final.state ∧
      ∀ first middle, first <+: schedule → run step (.initial calls) first = some middle →
        OnChain chain middle.state := by
  induction schedule using List.reverseRecOn generalizing final with
  | nil =>
      obtain rfl := Option.some.inj ran
      refine ⟨[], rfl, fun _ => rfl, fun first middle initial before => ?_⟩
      rw [List.prefix_nil.mp initial] at before
      obtain rfl := Option.some.inj before
      exact ⟨le_refl 0, fun _ => rfl, fun nonzero => (nonzero rfl).elim⟩
  | append_singleton schedule caller ih =>
      obtain ⟨state, before, stepped⟩ := (run_append_singleton step).mp ran
      obtain ⟨chain, sized, grounded, carried⟩ := ih before
      have extended := step_extends grounded stepped
      have ended := onChain_iff.mp (carried schedule state (List.prefix_refl _) before)
      obtain ⟨suffix, longer, ends⟩ := extended
      refine ⟨chain ++ suffix, by rw [List.length_append, sized, longer],
        Extends.grounded ⟨suffix, longer, ends⟩ grounded, fun first middle initial reached => ?_⟩
      rw [onChain_iff, written_append]
      rcases List.prefix_concat_iff.mp initial with rfl | inside
      · obtain rfl := Option.some.inj (reached.symm.trans ran)
        rw [← sized, ← length_written chain] at ended
        have whole := commits_extension ended (written suffix)
        rw [List.length_append, length_written, length_written, sized, ← longer, ← ends] at whole
        exact whole
      · exact (onChain_iff.mp (carried first middle inside reached)).append _

/-- A call that has returned does not raise later. -/
theorem returned_of_run {shared final : Shared} {schedule : List Nat} {caller : Nat}
    {result : Committed} (returned : shared.calls[caller]? = some (.returned result))
    (ran : run step shared schedule = some final) :
    final.calls[caller]? = some (.returned result) := by
  refine run_invariant (fun state => state.calls[caller]? = some (.returned result)) ?_ returned ran
  intro state other next _ finished stepped
  have distinct : other ≠ caller := by
    rintro rfl
    simp only [step, finished] at stepped
    cases stepped
  have kept : ∀ progress, (state.calls.set other progress)[caller]? = state.calls[caller]? :=
    fun progress => List.getElem?_set_ne distinct
  simp only [step] at stepped
  split at stepped
  · rw [← Option.some.inj stepped]
    exact (kept _).trans finished
  · rw [← Option.some.inj stepped]
    exact (kept _).trans finished
  · rw [← Option.some.inj stepped]
    exact (kept _).trans finished
  · cases stepped

end AuditAnchor

open AuditAnchor in
/-- However the critical sections of any calls interleave, the committed states
of the run lie on one chain and their counts never fall, and a call that ends up
raising has changed the committed state in none of its steps. -/
theorem anchor_continuity (calls : List Call) (schedule : List Nat) (final : Shared)
    (ran : run step (.initial calls) schedule = some final) :
    (∃ chain : List AuditEvent, ∀ first middle, first <+: schedule →
      run step (.initial calls) first = some middle → OnChain chain middle.state) ∧
    (∀ first second earlier later, first <+: second → second <+: schedule →
      run step (.initial calls) first = some earlier →
      run step (.initial calls) second = some later →
      earlier.state.count ≤ later.state.count) ∧
    (∀ first rest caller before after reason, schedule = first ++ caller :: rest →
      run step (.initial calls) first = some before → step before caller = some after →
      final.calls[caller]? = some (.raised reason) → after.state = before.state) := by
  have grounded : ∀ {first middle}, run step (.initial calls) first = some middle →
      Grounded middle.state := by
    intro first middle reached
    obtain ⟨_, _, grounded, _⟩ := exists_chain reached
    exact grounded
  refine ⟨?_, ?_, ?_⟩
  · obtain ⟨chain, _, _, carried⟩ := exists_chain ran
    exact ⟨chain, carried⟩
  · rintro first second earlier later ⟨rest, rfl⟩ _ before after
    obtain ⟨middle, reached, continued⟩ := (run_append step).mp after
    obtain rfl := Option.some.inj (before.symm.trans reached)
    have grows : Grounded later.state ∧ earlier.state.count ≤ later.state.count := by
      refine run_invariant
        (fun shared => Grounded shared.state ∧ earlier.state.count ≤ shared.state.count) ?_
        ⟨grounded before, le_refl _⟩ continued
      rintro state caller next _ ⟨ground, least⟩ stepped
      have extended := step_extends ground stepped
      refine ⟨extended.grounded ground, ?_⟩
      obtain ⟨suffix, longer, _⟩ := extended
      omega
    exact grows.2
  · rintro first rest caller before after reason rfl reached stepped raised
    obtain ⟨middle, start, continued⟩ := (run_append step).mp ran
    obtain rfl := Option.some.inj (reached.symm.trans start)
    obtain ⟨next, stepped', remaining⟩ := (run_cons step).mp continued
    obtain rfl := Option.some.inj (stepped.symm.trans stepped')
    obtain ⟨_, _, _, rfl⟩ | ⟨state, extended, rfl⟩ | ⟨_, rfl⟩ := step_cases (grounded reached) stepped
    · rfl
    · have known : caller < before.calls.length := by
        by_contra outside
        simp only [step, List.getElem?_eq_none (not_lt.mp outside)] at stepped
        cases stepped
      have returned := returned_of_run (List.getElem?_set_self known) remaining
      rw [raised] at returned
      cases returned
    · rfl

open AuditAnchor in
/-- A delta over a first chain that something else committed meanwhile. -/
theorem finishDelta_signed (authority : AuditAuthority) (events : List AuditEvent)
    (nonempty : events ≠ []) (short : events.length ≤ maxCount)
    (few : events.length ≤ maxDeltaRecords) :
    finishDelta authority.verifier (some (authority.signed (commitment events short)))
      (chainItems events) .initial (commitment events short) = .ok (commitment events short) := by
  have extended : extend authority.verifier (some (authority.signed (commitment events short)))
      (chainItems events) .initial = .ok (commitment events short, recordsFrom 0 emptyHash events) :=
    extend_eq_ok.mpr ⟨verifyHead_signed _ _, few, events, Nat.zero_add _, rfl, rfl, rfl⟩
  refine bind_eq_ok.mpr ⟨_, extended, ?_⟩
  have moved : commitment events short ≠ .initial := fun same =>
    nonempty (List.length_eq_zero_iff.mp (congrArg Committed.count same))
  simp only [compareAndMove, moved, ↓reduceIte, and_self]

open AuditAnchor in
/-- A delta reads its base, a full commit of the same head overtakes it, the
delta then finds its head committed, and a call without a head raises. -/
theorem run_overtaken (authority : AuditAuthority) (events : List AuditEvent)
    (nonempty : events ≠ []) (short : events.length ≤ maxCount) (few : events.length ≤ maxDeltaRecords) :
    let committed := commitment events short
    let head := some (authority.signed committed)
    run step (.initial [.commit authority.verifier head (chainItems events),
      .commitDelta authority.verifier head (chainItems events), .commit authority.verifier none []])
      [1, 0, 1, 2] = some ⟨committed, [.returned committed, .returned committed,
        .raised (.contractError "head is invalid")]⟩ := by
  intro committed head
  have moved := commit_signed authority events short
  have overtaken := finishDelta_signed authority events nonempty short few
  refine (run_cons step).mpr ⟨_, rfl, (run_cons step).mpr ⟨⟨committed, [.returned committed,
    .based authority.verifier head (chainItems events) .initial,
    .called (.commit authority.verifier none [])]⟩, ?_, (run_cons step).mpr ⟨⟨committed,
    [.returned committed, .returned committed, .called (.commit authority.verifier none [])]⟩, ?_,
    (run_cons step).mpr ⟨_, rfl, rfl⟩⟩⟩⟩
  · simp only [step, Shared.initial, List.map_cons, List.map_nil, List.set_cons_succ,
      List.set_cons_zero, List.getElem?_cons_zero, moved, committed, head]
    rfl
  · simp only [step, List.getElem?_cons_succ, List.getElem?_cons_zero, overtaken, settle, committed,
      head]
    rfl

open AuditAnchor in
/-- Such a run on a chain of one event. -/
theorem anchor_continuity_overtaken :
    let committed := commitment [issuedAt ⟨1, by decide⟩] (by decide)
    let head := some (digestAuthority.signed committed)
    let calls := [Call.commit digestAuthority.verifier head (chainItems [issuedAt ⟨1, by decide⟩]),
      .commitDelta digestAuthority.verifier head (chainItems [issuedAt ⟨1, by decide⟩]),
      .commit digestAuthority.verifier none []]
    let final : Shared := ⟨committed, [.returned committed, .returned committed,
      .raised (.contractError "head is invalid")]⟩
    run step (.initial calls) [1, 0, 1, 2] = some final ∧
      ∃ chain : List AuditEvent, OnChain chain committed := by
  intro committed head calls final
  have ran : run step (.initial calls) [1, 0, 1, 2] = some final :=
    run_overtaken _ _ (List.cons_ne_nil _ _) _ (by decide)
  obtain ⟨chain, carried⟩ := (anchor_continuity calls [1, 0, 1, 2] final ran).1
  exact ⟨ran, chain, carried _ _ (List.prefix_refl _) ran⟩

end GeniusNew
