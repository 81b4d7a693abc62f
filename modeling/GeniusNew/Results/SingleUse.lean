import GeniusNew.Results.Accepted
import GeniusNew.Results.Verifier

/-! # Acceptance is single-use

The accepted digests of all calls are exactly what the ledger holds, in every
state of every run. A digest enters with a fully validated result only, so what
was refused before burns nothing.
-/

namespace GeniusNew

open Json Transition

section Lists

variable {α β : Type*} {f : α → Option β} {items : List α} {index : Nat} {before after : α}

theorem filterMap_set_of_eq (found : items[index]? = some before) (same : f after = f before) :
    (items.set index after).filterMap f = items.filterMap f := by
  induction items generalizing index with
  | nil => rfl
  | cons item items ih =>
      cases index with
      | zero =>
          obtain rfl : item = before := Option.some.inj found
          rw [List.set_cons_zero, List.filterMap_cons, List.filterMap_cons, same]
      | succ index =>
          rw [List.set_cons_succ, List.filterMap_cons, List.filterMap_cons, ih found]

theorem filterMap_set_perm {value : β} (found : items[index]? = some before)
    (absent : f before = none) (present : f after = some value) :
    ((items.set index after).filterMap f).Perm (value :: items.filterMap f) := by
  induction items generalizing index with
  | nil => cases found
  | cons item items ih =>
      cases index with
      | zero =>
          obtain rfl : item = before := Option.some.inj found
          rw [List.set_cons_zero, List.filterMap_cons, List.filterMap_cons, absent, present]
      | succ index =>
          rw [List.set_cons_succ, List.filterMap_cons, List.filterMap_cons]
          cases f item with
          | none => exact ih found
          | some other => exact ((ih found).cons other).trans (List.Perm.swap _ _ _)

end Lists

namespace ResultVerifier

section Calls

variable {interpreter : Interpreter} {verifier : Verifier} {arguments : Arguments}
  {handoff : Handoff} {result : Results.Result} {digest : Digest} {ledger after : Ledger}

/-- The call presents a handoff and a result that validate. -/
def Valid (interpreter : Interpreter) (verifier : Verifier) (arguments : Arguments)
    (handoff : Handoff) (result : Results.Result) : Prop :=
  ∃ grant, arguments.presented.policy.grantFor arguments.presented.subject = .ok grant ∧
    revalidate interpreter verifier arguments.handoffWire arguments.presented
      grant.requiresApproval = .ok handoff ∧
    Results.accept interpreter arguments.resultWire handoff verifier.workerVerifier
      arguments.presented.now = .ok result

/-- The call brings what its grant calls for: the receipt of an approval, or none. -/
def Evidenced (arguments : Arguments) : Prop :=
  ∀ grant, arguments.presented.policy.grantFor arguments.presented.subject = .ok grant →
    checkApproval arguments.approvalRecordHash grant.requiresApproval = .ok ()

theorem rejecting_eq_ok {α : Type} {code : Code} {outcome : Outcome α} {value : α} :
    rejecting code outcome = .ok value ↔ outcome = .ok value := by
  unfold rejecting
  split <;> simp

theorem passing_eq_ok {α : Type} {outcome : Outcome α} {value : α} :
    passing outcome = .ok value ↔ outcome = .ok value := by
  unfold passing
  split <;> simp

theorem revalidate_validated {wire : Option Bytes} {presented : Presented} {pending : Bool}
    (accepted : revalidate interpreter verifier wire presented pending = .ok handoff) :
    Validated interpreter wire presented verifier.handoffVerifier pending handoff := by
  cases pending with
  | false => exact validate_validated accepted
  | true => exact validatePending_validated accepted

theorem Valid.digested (valid : Valid interpreter verifier arguments handoff result) :
    handoffDigest handoff = .ok (sha256 handoff.toBytes) := by
  obtain ⟨_, _, validated, _⟩ := valid
  exact handoffDigest_eq_ok.mpr ⟨(revalidate_validated validated).hashed, rfl⟩

theorem checked_eq_ok :
    checked interpreter verifier arguments = .ok (handoff, result, digest) ↔
      (1 ≤ arguments.presented.now ∧ arguments.presented.now ≤ maxOccurredAt) ∧
        Evidenced arguments ∧ Valid interpreter verifier arguments handoff result ∧
        handoffDigest handoff = .ok digest := by
  unfold checked
  dsimp only
  by_cases timely : 1 ≤ arguments.presented.now ∧ arguments.presented.now ≤ maxOccurredAt
  · rw [if_neg (not_not.mpr timely)]
    simp only [bind_eq_ok, rejecting_eq_ok, passing_eq_ok, pure_eq_ok, Prod.mk.injEq]
    constructor
    · rintro ⟨grant, found, _, evidenced, _, validated, _, accepted, _, digested, rfl, rfl, rfl⟩
      refine ⟨timely, fun other again => ?_, ⟨grant, found, validated, accepted⟩, digested⟩
      obtain rfl : grant = other := Except.ok.inj (found.symm.trans again)
      exact evidenced
    · rintro ⟨_, evidenced, ⟨grant, found, validated, accepted⟩, digested⟩
      exact ⟨grant, found, (), evidenced grant found, handoff, validated, result, accepted, digest,
        digested, rfl, rfl, rfl⟩
  · rw [if_pos timely]
    exact ⟨fun refused => (nomatch refused), fun accepted => (timely accepted.1).elim⟩

/-- The end of a call: what was refused leaves the ledger, and what was accepted
is new in it. -/
theorem settle_cases (ledger : Ledger) (arguments : Arguments) (handoff : Handoff)
    (result : Results.Result) (digest : Digest) :
    (∃ acceptance, settle ledger arguments handoff result digest =
        (.ok acceptance, ledger ++ [sha256 handoff.toBytes]) ∧ acceptance.handoffSha256 = digest ∧
        sha256 handoff.toBytes ∉ ledger ∧ ledger.length < maxAccepted) ∨
      ∃ refusal, settle ledger arguments handoff result digest = (.error refusal, ledger) ∧
        (sha256 handoff.toBytes ∉ ledger → arguments.transaction = false →
          ledger.length ≥ maxAccepted ∧
            refusal = .rejected "the acceptance ledger is full" .acceptanceLedgerFull) := by
  unfold settle reserve
  by_cases joined : arguments.transaction = true
  · rw [if_pos joined]
    refine .inr ⟨_, rfl, fun _ alone => ?_⟩
    rw [joined] at alone
    cases alone
  rw [if_neg joined]
  by_cases taken : sha256 handoff.toBytes ∈ ledger
  · rw [if_pos taken]
    exact .inr ⟨_, rfl, fun fresh => (fresh taken).elim⟩
  rw [if_neg taken]
  by_cases full : ledger.length ≥ maxAccepted
  · rw [if_pos full]
    exact .inr ⟨_, rfl, fun _ _ => ⟨full, rfl⟩⟩
  · rw [if_neg full]
    exact .inl ⟨_, rfl, rfl, taken, not_le.mp full⟩

end Calls

section Steps

variable {interpreter : Interpreter} {state next : State} {label : Label}

/-- The digest a call has accepted. -/
def Call.accepted (call : Call) : Option Digest :=
  match call.phase with
  | .ended (.ok acceptance) => some acceptance.handoffSha256
  | _ => none

/-- What a step can do. -/
inductive Effect (interpreter : Interpreter) (state : State) : Label → State → Prop
  | begins (verifier : Verifier) (arguments : Arguments) :
      Effect interpreter state (.call verifier arguments)
        { state with calls := state.calls ++ [⟨verifier, arguments, .checking⟩] }
  | refused {index : Nat} {call : Call} {refusal : Refusal} (found : state.calls[index]? = some call)
      (at_ : call.phase = .checking)
      (failed : checked interpreter call.verifier call.arguments = .error refusal) :
      Effect interpreter state (.advance index)
        { state with calls := state.calls.set index { call with phase := .ended (.error refusal) } }
  | verified {index : Nat} {call : Call} {handoff : Handoff} {result : Results.Result}
      {digest : Digest} (found : state.calls[index]? = some call) (at_ : call.phase = .checking)
      (passed : checked interpreter call.verifier call.arguments = .ok (handoff, result, digest)) :
      Effect interpreter state (.advance index)
        { state with
          calls := state.calls.set index { call with phase := .reserving handoff result digest } }
  | settled {index : Nat} {call : Call} {handoff : Handoff} {result : Results.Result}
      {digest : Digest} (found : state.calls[index]? = some call)
      (at_ : call.phase = .reserving handoff result digest) :
      Effect interpreter state (.advance index)
        { ledger := (settle state.ledger call.arguments handoff result digest).2
          calls := state.calls.set index { call with
            phase := .ended (settle state.ledger call.arguments handoff result digest).1 } }

theorem step_cases (stepped : step interpreter state label = some next) :
    Effect interpreter state label next := by
  cases label with
  | call verifier arguments =>
      obtain rfl : _ = next := Option.some.inj stepped
      exact .begins verifier arguments
  | advance index =>
      obtain ⟨call, found, moved⟩ := Option.bind_eq_some_iff.mp stepped
      unfold advance at moved
      split at moved
      case h_1 at_ =>
        obtain rfl : _ = next := Option.some.inj moved
        split
        · next refusal failed => exact .refused found at_ failed
        · next handoff result digest passed => exact .verified found at_ passed
      case h_2 handoff result digest at_ =>
        obtain rfl : _ = next := Option.some.inj moved
        exact .settled found at_
      case h_3 => cases moved

/-- The ledger holds each accepted digest once and nothing else, within its bound,
and what waits for it was validated. -/
structure State.Sound (interpreter : Interpreter) (state : State) : Prop where
  exactly : (state.calls.filterMap Call.accepted).Perm state.ledger
  distinct : state.ledger.Nodup
  bounded : state.ledger.length ≤ maxAccepted
  validated : ∀ call ∈ state.calls, ∀ handoff result digest,
    call.phase = .reserving handoff result digest →
      checked interpreter call.verifier call.arguments = .ok (handoff, result, digest)

theorem sound_initial : State.initial.Sound interpreter :=
  ⟨List.Perm.refl _, List.nodup_nil, Nat.zero_le _, fun _ member => (nomatch member)⟩

/-- A call that moves on without an acceptance. -/
theorem State.Sound.set (sound : state.Sound interpreter) {index : Nat} {call after : Call}
    (found : state.calls[index]? = some call) (waiting : call.accepted = none)
    (quiet : after.accepted = none)
    (validated : ∀ handoff result digest, after.phase = .reserving handoff result digest →
      checked interpreter after.verifier after.arguments = .ok (handoff, result, digest)) :
    State.Sound interpreter { state with calls := state.calls.set index after } := by
  refine ⟨?_, sound.distinct, sound.bounded, fun other member => ?_⟩
  · rw [filterMap_set_of_eq found (quiet.trans waiting.symm)]
    exact sound.exactly
  · rcases List.mem_or_eq_of_mem_set member with old | rfl
    · exact sound.validated other old
    · exact validated

/-- A call that ends with an acceptance of a digest that is not in the ledger. -/
theorem State.Sound.accepts (sound : state.Sound interpreter) {index : Nat} {call : Call}
    {acceptance : Acceptance} (found : state.calls[index]? = some call)
    (waiting : call.accepted = none) (fresh : acceptance.handoffSha256 ∉ state.ledger)
    (room : state.ledger.length < maxAccepted) :
    State.Sound interpreter
      { ledger := state.ledger ++ [acceptance.handoffSha256]
        calls := state.calls.set index { call with phase := .ended (.ok acceptance) } } := by
  refine ⟨?_, ?_, ?_, fun other member => ?_⟩
  · refine (filterMap_set_perm found waiting rfl).trans ?_
    exact (sound.exactly.cons _).trans (List.perm_append_singleton _ _).symm
  · rw [← List.concat_eq_append]
    exact sound.distinct.concat fresh
  · rw [List.length_append, List.length_singleton]
    exact room
  · rcases List.mem_or_eq_of_mem_set member with old | rfl
    · exact sound.validated other old
    · exact fun _ _ _ absurd => (nomatch absurd)

theorem accepted_of_checking {call : Call} (at_ : call.phase = .checking) : call.accepted = none := by
  rw [Call.accepted, at_]

theorem accepted_of_reserving {call : Call} {handoff : Handoff} {result : Results.Result}
    {digest : Digest} (at_ : call.phase = .reserving handoff result digest) :
    call.accepted = none := by
  rw [Call.accepted, at_]

theorem State.Sound.step (sound : state.Sound interpreter)
    (stepped : step interpreter state label = some next) : next.Sound interpreter := by
  cases step_cases stepped with
  | begins verifier arguments =>
      refine ⟨?_, sound.distinct, sound.bounded, fun call member => ?_⟩
      · rw [List.filterMap_append]
        change (_ ++ []).Perm _
        rw [List.append_nil]
        exact sound.exactly
      · rcases List.mem_append.mp member with old | new
        · exact sound.validated call old
        · rw [List.mem_singleton.mp new]
          exact fun _ _ _ absurd => (nomatch absurd)
  | refused found at_ failed =>
      exact sound.set found (accepted_of_checking at_) rfl fun _ _ _ absurd => (nomatch absurd)
  | verified found at_ passed =>
      refine sound.set found (accepted_of_checking at_) rfl fun _ _ _ same => ?_
      obtain ⟨rfl, rfl, rfl⟩ := Phase.reserving.inj same
      exact passed
  | @settled index call handoff result digest found at_ =>
      have passed := sound.validated call (List.mem_of_getElem? found) handoff result digest at_
      obtain ⟨_, rfl⟩ := handoffDigest_eq_ok.mp (checked_eq_ok.mp passed).2.2.2
      rcases settle_cases state.ledger call.arguments handoff result (sha256 handoff.toBytes) with
        ⟨acceptance, ended, same, fresh, room⟩ | ⟨refusal, ended, _⟩
      · rw [ended, ← same]
        exact sound.accepts found (accepted_of_reserving at_) (same ▸ fresh) room
      · rw [ended]
        exact sound.set found (accepted_of_reserving at_) rfl fun _ _ _ absurd => (nomatch absurd)

end Steps

section Runs

variable {interpreter : Interpreter} {labels : List Label} {label : Label} {before after : State}

theorem run_sound (ran : run (step interpreter) .initial labels = some before) :
    before.Sound interpreter :=
  run_invariant (State.Sound interpreter) (fun _ _ _ _ sound stepped => sound.step stepped)
    sound_initial ran

/-- Where a step leaves the call it advances. -/
def State.outcome (state : State) (index : Nat) : Option (Except Refusal Acceptance) := do
  let call ← state.calls[index]?
  match call.phase with
  | .ended outcome => some outcome
  | _ => none

theorem outcome_set {state : State} {index : Nat} {call next : Call} {ledger : Ledger}
    {outcome : Except Refusal Acceptance} (found : state.calls[index]? = some call)
    (ended : next.phase = .ended outcome) :
    State.outcome { ledger, calls := state.calls.set index next } index = some outcome := by
  obtain ⟨bound, _⟩ := List.getElem?_eq_some_iff.mp found
  rw [State.outcome, List.getElem?_set_self bound]
  change (match next.phase with | .ended outcome => some outcome | _ => none) = _
  rw [ended]

theorem outcome_set_of_reserving {state : State} {index : Nat} {call next : Call} {ledger : Ledger}
    {handoff : Handoff} {result : Results.Result} {digest : Digest}
    (found : state.calls[index]? = some call) (waits : next.phase = .reserving handoff result digest) :
    State.outcome { ledger, calls := state.calls.set index next } index = none := by
  obtain ⟨bound, _⟩ := List.getElem?_eq_some_iff.mp found
  rw [State.outcome, List.getElem?_set_self bound]
  change (match next.phase with | .ended outcome => some outcome | _ => none) = _
  rw [waits]

/-- In every run, each digest is accepted at most once and the ledger stays within
its bound. The ledger changes only in a step that ends its call with an acceptance,
by the digest of its handoff. A call with a handoff and a result that validate, in
the range of the clock and with the evidence its grant calls for, is refused for a
digest that is not in the ledger only when the ledger is full. -/
theorem accepted_once (ran : run (step interpreter) .initial labels = some before)
    (stepped : step interpreter before label = some after) :
    (∀ digest, (after.calls.filterMap Call.accepted).count digest ≤ 1) ∧
      after.ledger.length ≤ maxAccepted ∧
      (after.ledger = before.ledger ∨ ∃ index acceptance, label = .advance index ∧
        after.outcome index = some (.ok acceptance) ∧
        after.ledger = before.ledger ++ [acceptance.handoffSha256]) ∧
      ∀ index call handoff result refusal, label = .advance index →
        before.calls[index]? = some call → after.outcome index = some (.error refusal) →
        Valid interpreter call.verifier call.arguments handoff result →
        (1 ≤ call.arguments.presented.now ∧ call.arguments.presented.now ≤ maxOccurredAt) →
        Evidenced call.arguments → call.arguments.transaction = false →
        sha256 handoff.toBytes ∉ before.ledger →
        refusal = .rejected "the acceptance ledger is full" .acceptanceLedgerFull := by
  have sound := run_sound ran
  have finally_ := sound.step stepped
  refine ⟨?_, finally_.bounded, ?_, ?_⟩
  · exact List.nodup_iff_count_le_one.mp (finally_.exactly.nodup_iff.mpr finally_.distinct)
  · cases step_cases stepped with
    | @settled index call handoff result digest found at_ =>
        have passed := sound.validated call (List.mem_of_getElem? found) handoff result digest at_
        obtain ⟨_, rfl⟩ := handoffDigest_eq_ok.mp (checked_eq_ok.mp passed).2.2.2
        rcases settle_cases before.ledger call.arguments handoff result (sha256 handoff.toBytes) with
          ⟨acceptance, ended, same, _⟩ | ⟨refusal, ended, _⟩
        · rw [ended]
          exact .inr ⟨index, acceptance, rfl, outcome_set found rfl, by rw [same]⟩
        · rw [ended]
          exact .inl rfl
    | _ => exact .inl rfl
  · rintro index call handoff result refusal rfl found ended valid timely evidenced alone fresh
    have passed := checked_eq_ok.mpr ⟨timely, evidenced, valid, valid.digested⟩
    cases step_cases stepped with
    | refused again at_ failed =>
        obtain rfl : call = _ := Option.some.inj (found.symm.trans again)
        rw [failed] at passed
        cases passed
    | verified again at_ _ =>
        rw [outcome_set_of_reserving again rfl] at ended
        cases ended
    | @settled _ other given answer digest again at_ =>
        obtain rfl : call = other := Option.some.inj (found.symm.trans again)
        have known := sound.validated call (List.mem_of_getElem? found) given answer digest at_
        obtain ⟨rfl, _⟩ := Prod.mk.inj (Except.ok.inj (passed.symm.trans known))
        rw [outcome_set again rfl, Option.some.injEq] at ended
        rcases settle_cases before.ledger call.arguments handoff answer digest with
          ⟨acceptance, settled, _⟩ | ⟨other, settled, full⟩
        · rw [settled] at ended
          cases ended
        · rw [settled] at ended
          rw [← Except.error.inj ended]
          exact (full fresh alone).2

end Runs

theorem advance_of_checked {interpreter : Interpreter} {state : State} {index : Nat} {call : Call}
    {handoff : Handoff} {result : Results.Result} {digest : Digest} (checking : call.phase = .checking)
    (passed : checked interpreter call.verifier call.arguments = .ok (handoff, result, digest)) :
    advance interpreter state index call = some { state with
      calls := state.calls.set index { call with phase := .reserving handoff result digest } } := by
  rw [advance, checking]
  simp only [passed]

def demoVerifier : Verifier := ⟨digestSigner.verifier, Results.digestWorker.verifier⟩

def demoArguments (approvalRecordHash : Option Str) : Arguments where
  resultWire := some Results.demoResult.toBytes
  handoffWire := some (demoHandoff false).toBytes
  presented := demoPresented false 120
  approvalRecordHash := approvalRecordHash
  transaction := false

theorem valid_demo (approvalRecordHash : Option Str) : ∃ result,
    Valid literalInterpreter demoVerifier (demoArguments approvalRecordHash) (demoHandoff false)
      result := by
  obtain ⟨result, accepted⟩ := Results.accept_of_produce Results.validated_demo (by decide)
    (by decide) (show (110 : Int) ≤ 120 by decide) (by decide) Results.produce_demo
  exact ⟨result, demoGrant false, rfl, validate_demo (by decide) (by decide), accepted⟩

theorem accepted_once_demo : ∃ before after,
    run (step literalInterpreter) .initial [.call demoVerifier (demoArguments none), .advance 0] =
      some before ∧
    step literalInterpreter before (.advance 0) = some after ∧
    after.ledger = [sha256 (demoHandoff false).toBytes] ∧
    ∀ digest, (after.calls.filterMap Call.accepted).count digest ≤ 1 := by
  obtain ⟨result, valid⟩ := valid_demo none
  have evidenced : Evidenced (demoArguments none) := by
    intro grant found
    obtain rfl : demoGrant false = grant := Except.ok.inj found
    rfl
  let asked : Call := ⟨demoVerifier, demoArguments none, .checking⟩
  let before : State := ⟨[], [⟨demoVerifier, demoArguments none,
    .reserving (demoHandoff false) result (sha256 (demoHandoff false).toBytes)⟩]⟩
  have checking : asked.phase = .checking := rfl
  have passed : checked literalInterpreter asked.verifier asked.arguments =
      .ok (demoHandoff false, result, sha256 (demoHandoff false).toBytes) :=
    checked_eq_ok.mpr ⟨by decide, evidenced, valid, valid.digested⟩
  have reserving : advance literalInterpreter ⟨[], [asked]⟩ 0 asked = some before :=
    advance_of_checked checking passed
  have ran : run (step literalInterpreter) .initial
      [.call demoVerifier (demoArguments none), .advance 0] = some before :=
    (run_cons _).mpr ⟨⟨[], [asked]⟩, rfl, (run_cons _).mpr ⟨before, reserving, rfl⟩⟩
  have stepped : step literalInterpreter before (.advance 0) = some
      { ledger := (settle [] (demoArguments none) (demoHandoff false) result
          (sha256 (demoHandoff false).toBytes)).2
        calls := [⟨demoVerifier, demoArguments none, .ended (settle [] (demoArguments none)
          (demoHandoff false) result (sha256 (demoHandoff false).toBytes)).1⟩] } := rfl
  exact ⟨before, _, ran, stepped, rfl, (accepted_once ran stepped).1⟩

/-- A receipt that the grant does not call for has a valid handoff with a valid
result refused before the ledger is asked. -/
theorem valid_refused_without_evidence : ∃ result before after,
    Valid literalInterpreter demoVerifier (demoArguments (some [])) (demoHandoff false) result ∧
    run (step literalInterpreter) .initial [.call demoVerifier (demoArguments (some []))] =
      some before ∧ before.ledger = [] ∧
    step literalInterpreter before (.advance 0) = some after ∧
    after.outcome 0 = some (.error (.rejected
      "approval_record_hash is not allowed for a handoff that needs no approval"
      .approvalNotEvidenced)) := by
  obtain ⟨result, valid⟩ := valid_demo (some [])
  exact ⟨result, ⟨[], [⟨demoVerifier, demoArguments (some []), .checking⟩]⟩, _, valid, rfl, rfl, rfl,
    rfl⟩

end ResultVerifier

end GeniusNew
