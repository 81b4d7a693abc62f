import GeniusNew.Contracts.Basic
import GeniusNew.Raising.Triple

/-! # Authenticated frames

The Core's side of the worker socket. Every fragment the kernel delivers carries
the sender's credentials and pidfd, and `FrameIdentity.accept` holds all of them
to one process. Over the fragments, `readFrame` and `writeFrame` move one bounded
canonical JSON object each way. The kernel and the clock are what they answer to
each wait: `Delivery` for the reads and `Sending` for the writes.
-/

namespace GeniusNew

open Json

namespace WorkerService

def helloLimit : Nat := 256

def payloadLimit : Nat := 32 * 1024

/-- `int` in native byte order. -/
def int32 (b₀ b₁ b₂ b₃ : UInt8) : Int :=
  let bits : Int := b₀.toNat + b₁.toNat * 2 ^ 8 + b₂.toNat * 2 ^ 16 + b₃.toNat * 2 ^ 24
  if bits < 2 ^ 31 then bits else bits - 2 ^ 32

/-- The whole integers of an array of `int`. -/
def int32s : Bytes → List Int
  | b₀ :: b₁ :: b₂ :: b₃ :: rest => int32 b₀ b₁ b₂ b₃ :: int32s rest
  | _ => []

/-- One control message of a fragment. -/
structure Control where
  level : Nat
  kind : Nat
  value : Bytes

namespace Control

def socketLevel : Nat := 1

def isRights (control : Control) : Bool := control.level = socketLevel && control.kind = 1

def isCredentials (control : Control) : Bool := control.level = socketLevel && control.kind = 2

def isPidfd (control : Control) : Bool := control.level = socketLevel && control.kind = 4

/-- The descriptors that a control message put into the receiver's table. -/
def descriptors (control : Control) : List Int :=
  if control.isRights || (control.isPidfd && control.value.length = 4) then
    (int32s control.value).filter (0 ≤ ·)
  else []

end Control

/-- The answers about descriptors that one fragment can ask for: the process a
received pidfd names and whether the process at hand has exited. -/
structure Probe where
  pid : Except String Int
  exited : Except String Bool

/-- An answer that could not be had is refused with the reason. -/
def Probe.answer {α : Type} : Except String α → Outcome α
  | .ok value => .ok value
  | .error message => fail message

/-- The kernel's identity of the one sender of a response. -/
structure FrameIdentity where
  expectedUid : Int
  expectedGid : Int
  pid : Option Int
  pidfd : Option Int
  deriving DecidableEq

namespace FrameIdentity

/-- The only element of a list. -/
def single {α : Type} : List α → Option α
  | [value] => some value
  | _ => none

/-- `_UCREDS.unpack` of a record of its size. -/
def ucreds (value : Bytes) : Option (Int × Int × Int) :=
  match value.length, int32s value with
  | 12, [pid, uid, gid] => some (pid, uid, gid)
  | _, _ => none

/-- `_FD.unpack` of a record of its size. -/
def descriptor (value : Bytes) : Option Int :=
  match value.length, int32s value with
  | 4, [received] => some received
  | _, _ => none

variable (identity : FrameIdentity) (controls : List Control)

def credentials : List Bytes := (controls.filter Control.isCredentials).map Control.value

def pidfds : List Bytes := (controls.filter Control.isPidfd).map Control.value

def unexpected : Bool := controls.any fun control => !control.isCredentials && !control.isPidfd

def ownedFds : List Int := controls.flatMap Control.descriptors

/-- The end of the stream may carry no credentials, zeros, or those of the sender. -/
def validEofCredential : Bool :=
  (credentials controls).isEmpty ||
    match (single (credentials controls)).bind ucreds with
    | some (pid, uid, gid) =>
        (pid, uid, gid) = (0, 0, 0) ||
          (identity.pid, identity.expectedUid, identity.expectedGid) = (some pid, uid, gid)
    | none => false

/-- The checks of `accept`: the identity after the fragment. -/
def authenticate (data : Bytes) (flags : Nat) (probe : Probe) : Outcome FrameIdentity :=
  if data = [] then
    if identity.pid = none ∨ flags ≠ 0 ∨ unexpected controls ∨ pidfds controls ≠ [] ∨
        !identity.validEofCredential controls then
      fail "worker EOF has invalid controls"
    else .ok identity
  else if flags ≠ 0 ∨ unexpected controls then
    fail "worker control message is truncated or forbidden"
  else
    match (single (credentials controls)).bind ucreds with
    | none => fail "worker credentials are missing or ambiguous"
    | some (pid, uid, gid) =>
        if pid ≤ 0 ∨ uid ≠ identity.expectedUid ∨ gid ≠ identity.expectedGid ∨
            identity.pid.any (· ≠ pid) then
          fail "worker credentials changed or do not match the fixed UID/GID"
        else
          match (single (pidfds controls)).bind descriptor, identity.pidfd with
          | none, _ => fail "worker pidfd is missing or ambiguous"
          | some received, none =>
              if received < 0 then fail "first worker fragment has no live pidfd"
              else do
                let named ← Probe.answer probe.pid
                if named ≠ pid then fail "worker pidfd does not identify a live sender"
                else do
                  let exited ← Probe.answer probe.exited
                  if exited then fail "worker pidfd does not identify a live sender"
                  else return { identity with pid := some pid, pidfd := some received }
          | some received, some _ =>
              if received < -4095 then fail "worker pidfd sentinel arrived before sender exit"
              else if received < 0 then do
                let exited ← Probe.answer probe.exited
                if exited then return identity
                else fail "worker pidfd sentinel arrived before sender exit"
              else do
                let named ← Probe.answer probe.pid
                if some named ≠ identity.pid then fail "worker pidfd changed across fragments"
                else return identity

/-- `FrameIdentity.accept`: the identity after the fragment and the descriptors
it closes, which are all that came with the fragment but a pidfd now retained. -/
def accept (data : Bytes) (flags : Nat) (probe : Probe) : Outcome FrameIdentity × List Int :=
  match identity.authenticate controls data flags probe, identity.pidfd with
  | .ok ⟨uid, gid, pid, some received⟩, none =>
      (.ok ⟨uid, gid, pid, some received⟩, (ownedFds controls).erase received)
  | outcome, _ => (outcome, ownedFds controls)

end FrameIdentity

/-- What one wait for input ends with. A fragment that arrived is at most so many
bytes more than one; without bytes left it is the end of the stream. -/
inductive Delivery where
  | late
  | failed
  | arrived (size : Nat) (controls : List Control) (flags : Nat) (probe : Probe)

/-- The descriptors that came with a delivery. -/
def Delivery.descriptors : Delivery → List Int
  | .arrived _ controls _ _ => FrameIdentity.ownedFds controls
  | _ => []

/-- What one wait to write ends with. -/
inductive Sending where
  | late
  | blocked
  | failed
  | sent (size : Nat)

/-- `_Invocation`. -/
structure Invocation where
  unit : String
  invocationId : String
  cgroup : String
  runtimeDir : String
  pid : Int
  deriving DecidableEq

/-- What the Core does to descriptors, connections and invocations. -/
inductive Event where
  | acquired (lease : Int)
  | connecting
  | bound (invocation : Invocation)
  | ended (invocation : Invocation)
  | closed (descriptor : Int)
  deriving DecidableEq

/-- `_CoreExchange`: one connection. `incoming` is what the worker's side has sent
and the Core has not read. -/
structure CoreExchange where
  incoming : Bytes
  deliveries : List Delivery
  sendings : List Sending
  sent : Bytes
  identity : FrameIdentity
  invocation : Option Invocation
  log : List Event

abbrev Core (α : Type) := Raising CoreExchange Raised α

/-- `_fail`. -/
def refuse {α : Type} (message : String) : Core α := throw (.contractError message)

/-- `connection.recvmsg(limit)` and `identity.accept` of what it returned. -/
def recvmsg (limit size : Nat) (controls : List Control) (flags : Nat) (probe : Probe)
    (deliveries : List Delivery) (exchange : CoreExchange) : Outcome Bytes × CoreExchange :=
  let data := exchange.incoming.take (min limit (size + 1))
  let accepted := exchange.identity.accept controls data flags probe
  let read := { exchange with
    incoming := exchange.incoming.drop data.length
    deliveries
    log := exchange.log ++ accepted.2.map Event.closed }
  match accepted.1 with
  | .error raised => (.error raised, read)
  | .ok identity => (.ok data, { read with identity })

/-- The loop of `_recv_exact` over what the waits end with. -/
def receive : Nat → List Delivery → CoreExchange → Outcome Bytes × CoreExchange
  | 0, deliveries, exchange => (.ok [], { exchange with deliveries })
  | _ + 1, [], exchange => (fail "worker frame deadline exceeded", { exchange with deliveries := [] })
  | _ + 1, .late :: deliveries, exchange =>
      (fail "worker frame deadline exceeded", { exchange with deliveries })
  | _ + 1, .failed :: deliveries, exchange =>
      (fail "worker frame cannot be received", { exchange with deliveries })
  | remaining + 1, .arrived size controls flags probe :: deliveries, exchange =>
      match recvmsg (remaining + 1) size controls flags probe deliveries exchange with
      | (.error raised, read) => (.error raised, read)
      | (.ok [], read) => (fail "worker frame was truncated", read)
      | (.ok (b :: data), read) =>
          let rest := receive (remaining - data.length) deliveries read
          (rest.1.map (b :: data ++ ·), rest.2)

/-- `_recv_exact`. -/
def recvExact (length : Nat) : Core Bytes :=
  .ofStep fun exchange => receive length exchange.deliveries exchange

/-- `_HEADER.pack`. -/
def packHeader (size : Nat) : Bytes :=
  [UInt8.ofNat (size / 2 ^ 24), UInt8.ofNat (size / 2 ^ 16), UInt8.ofNat (size / 2 ^ 8),
    UInt8.ofNat size]

/-- `_HEADER.unpack`. -/
def unpackHeader (header : Bytes) : Nat := header.foldl (fun size b => size * 2 ^ 8 + b.toNat) 0

/-- From the bytes of a frame to its object. Only `UnicodeDecodeError` and
`JSONDecodeError` of the reader become refusals. -/
def decodeFrame (interpreter : Interpreter) (noun : String) (raw : Bytes) :
    Outcome (List (Str × Value)) :=
  match decodeAscii raw with
  | none => fail (noun ++ " is not ASCII JSON")
  | some text =>
      match loads interpreter text with
      | .error .value => fail (noun ++ " is not ASCII JSON")
      | .error .digits => .error .valueError
      | .error .recursion => .error .recursionError
      | .ok (.dict fields) => do
          let encoded ← canonical interpreter (.dict fields)
          if encoded ≠ raw then fail (noun ++ " is not canonical JSON") else return fields
      | .ok _ => fail (noun ++ " is not canonical JSON")

/-- `_read_frame`. -/
def readFrame (interpreter : Interpreter) (limit : Nat) : Core (List (Str × Value)) := do
  let header ← recvExact 4
  if unpackHeader header = 0 ∨ unpackHeader header > limit then
    refuse "worker frame length is invalid"
  else do
    let raw ← recvExact (unpackHeader header)
    .ofExcept (decodeFrame interpreter "worker frame" raw)

/-- The loop of `_write_frame` over what the waits end with. -/
def transmit : Bytes → List Sending → CoreExchange → Outcome Unit × CoreExchange
  | [], sendings, exchange => (.ok (), { exchange with sendings })
  | _ :: _, [], exchange =>
      (fail "worker outbound frame deadline exceeded", { exchange with sendings := [] })
  | _ :: _, .late :: sendings, exchange =>
      (fail "worker outbound frame deadline exceeded", { exchange with sendings })
  | b :: frame, .blocked :: sendings, exchange => transmit (b :: frame) sendings exchange
  | _ :: _, .failed :: sendings, exchange =>
      (fail "worker outbound frame cannot be sent", { exchange with sendings })
  | b :: frame, .sent size :: sendings, exchange =>
      if size = 0 then (fail "worker outbound frame was not sent", { exchange with sendings })
      else
        transmit ((b :: frame).drop size) sendings
          { exchange with sent := exchange.sent ++ (b :: frame).take size }

/-- `_write_frame`: the JSON it sent. -/
def writeFrame (interpreter : Interpreter) (value : Value) (limit : Nat) : Core Bytes := do
  let raw ← .ofExcept (canonical interpreter value)
  if raw.length = 0 ∨ raw.length > limit then refuse "worker outbound frame length is invalid"
  else do
    .ofStep fun exchange => transmit (packHeader raw.length ++ raw) exchange.sendings exchange
    return raw

/-- `_expect_eof`. -/
def expectEof : Core Unit := .ofStep fun exchange =>
  match exchange.deliveries with
  | [] => (fail "worker EOF deadline exceeded", exchange)
  | .late :: deliveries => (fail "worker EOF deadline exceeded", { exchange with deliveries })
  | .failed :: deliveries => (fail "worker EOF cannot be received", { exchange with deliveries })
  | .arrived size controls flags probe :: deliveries =>
      match recvmsg 1 size controls flags probe deliveries exchange with
      | (.error raised, read) => (.error raised, read)
      | (.ok [], read) => (.ok (), read)
      | (.ok (_ :: _), read) => (fail "worker sent bytes after its result", read)

end WorkerService

end GeniusNew
