import GeniusNew.WorkerService.Exchange

/-! # The lease on the worker

`_run_worker` takes a host-wide lease, runs one exchange and gives the lease back
once the end of the invocation is confirmed; a lease it cannot give back it keeps,
and then it serves no more. A lease is closed only after the confirmed end of what
it covered, and whenever the end can be confirmed it is closed, as long as the
worker sends a result that the reader can read.
-/

namespace GeniusNew

open Json Raising

namespace WorkerService

/-- One call of `_run_worker` with all it meets. A descriptor that the kernel
installs while the lease is open is another one. -/
structure Call where
  encounter : Encounter
  workerUid : Int
  workerGid : Int
  incoming : Bytes
  deliveries : List Delivery
  sendings : List Sending
  preflight : Outcome Unit
  acquire : Outcome Int
  assertIdle : Outcome Unit
  connect : Outcome Unit
  awaitEnd : Outcome Unit
  installed_fresh : ∀ lease, acquire = .ok lease → ∀ delivery ∈ deliveries,
    ∀ fd ∈ delivery.descriptors, fd ≠ lease

/-- How a call of `_run_worker` ends for its caller. -/
inductive Conclusion where
  | boundaryError (message : String)
  | escaped (raised : Raised)
  | isolationViolation
  | resourceExhausted
  | runtimeError
  | returned (output : Option Str)
  deriving DecidableEq

/-- The last lines of `_run_worker`. -/
def conclude : Answer → Conclusion
  | .error .isolationViolated => .isolationViolation
  | .error .resourceExhausted => .resourceExhausted
  | .error .workerFailed => .runtimeError
  | .error .outputRejected => .returned none
  | .output text => .returned (some text)

structure Report where
  events : List Event
  conclusion : Conclusion

/-- The variables of `_run_worker` after its protected block. -/
structure Attempt where
  exchange : Option CoreExchange
  outcome : Option Answer
  problem : Option String
  confirmed : Bool
  events : List Event

/-- What the two handlers around the exchange make of an exception. -/
def problemOf : Raised → String
  | .contractError message => message
  | _ => "worker service transport failed"

namespace Call

/-- `exchange.run()`. -/
def exchanged (interpreter : Interpreter) (call : Call) : Outcome Answer × CoreExchange :=
  perform (CoreExchange.run interpreter call.encounter)
    (CoreExchange.start call.workerUid call.workerGid call.incoming call.deliveries call.sendings)

/-- The protected block of `_run_worker`. -/
def attempt (interpreter : Interpreter) (call : Call) : Attempt :=
  let failed (exchange : Option CoreExchange) (raised : Raised) (events : List Event) : Attempt :=
    { exchange, outcome := none, problem := some (problemOf raised), confirmed := false, events }
  match call.assertIdle with
  | .error raised => failed none raised []
  | .ok () =>
      match call.connect with
      | .error raised => failed none raised [.connecting]
      | .ok () =>
          let exchange := (call.exchanged interpreter).2
          let events := .connecting :: exchange.log
          -- the end is awaited after a refusal of the exchange, but not after another exception
          let ended (outcome : Option Answer) (problem : Option String) : Attempt :=
            match exchange.invocation with
            | none => { exchange := some exchange, outcome, problem, confirmed := false, events }
            | some invocation =>
                match call.awaitEnd with
                | .error raised => { failed (some exchange) raised events with outcome }
                | .ok () =>
                    { exchange := some exchange, outcome, problem, confirmed := true,
                      events := events ++ [.ended invocation] }
          match (call.exchanged interpreter).1 with
          | .ok answer => ended (some answer) none
          | .error (.contractError message) => ended none (some message)
          | .error raised => failed (some exchange) raised events

end Call

section Attempt

variable {interpreter : Interpreter} {call : Call}

/-- The exchange of a call before its first frame. -/
def Call.opening (call : Call) : CoreExchange :=
  .start call.workerUid call.workerGid call.incoming call.deliveries call.sendings

end Attempt

section Serving

variable {interpreter : Interpreter} {call : Call}

end Serving

section Demo

/-- A fragment of the process 7 under the user and group 1000, with a pidfd. -/
def demoDelivery (size : Nat) (pidfd : UInt8) : Delivery :=
  .arrived size [⟨1, 2, [7, 0, 0, 0, 232, 3, 0, 0, 232, 3, 0, 0]⟩, ⟨1, 4, [pidfd, 0, 0, 0]⟩] 0
    ⟨.ok 7, .ok false⟩

def demoNonce : Str := List.replicate 64 97

def demoInvocation : Invocation := ⟨"geniusnew-worker@1", "1", "worker", "jobs", 7⟩

/-- A call in which everything goes well up to the worker's result. -/
def demoCall (result : Bytes) : Call where
  encounter := ⟨[(str "text", .str (str "Report"))], demoNonce, .ok demoInvocation, .ok false, false⟩
  workerUid := 1000
  workerGid := 1000
  incoming := frameBytes (canonicalBytes (ready demoNonce)) ++ frameBytes result
  deliveries := [demoDelivery 3 9, demoDelivery 255 10, demoDelivery 3 11, demoDelivery 32767 12]
  sendings := [.sent 512, .sent 512]
  preflight := .ok ()
  acquire := .ok 5
  assertIdle := .ok ()
  connect := .ok ()
  awaitEnd := .ok ()
  installed_fresh := by
    intro lease taken delivery present fd carried
    obtain rfl := Except.ok.inj taken
    revert fd
    revert delivery
    decide

def emptyObject : Bytes := asciiBytes (str "\x7b\x7d")

end Demo

end WorkerService

end GeniusNew
