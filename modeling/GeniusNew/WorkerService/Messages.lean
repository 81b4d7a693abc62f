import Mathlib.Data.Rat.Defs
import Mathlib.Algebra.Order.Field.Rat
import Mathlib.Tactic.NormNum
import GeniusNew.Contracts.Basic

/-! # The four messages of the worker protocol

HELLO and REQUEST go to the worker, READY and RESULT come back. Each side writes
its messages from its own values and checks every field of the other side's; a
REQUEST carries the resource limits, which the worker holds against its own
ceiling.
-/

namespace Json

/-- The digits of an exponent after its mark, with their sign. -/
def exponentValue (text : Str) : Int :=
  match text with
  | 45 :: digits => -digitsValue digits
  | 43 :: digits => digitsValue digits
  | digits => digitsValue digits

/-- The decimal number that a literal writes. -/
def FloatLiteral.value (literal : FloatLiteral) : ℚ :=
  let fraction := (scanFraction literal.tail).1.drop 1
  let exponent := exponentValue ((scanExponent (scanFraction literal.tail).2).1.drop 1)
  (if literal.negative then -1 else 1) * digitsValue (literal.whole ++ fraction) *
    10 ^ (exponent - fraction.length)

/-- `value == number` for an integer: a bool and a float can equal one. -/
def Value.equalsInt (value : Value) (number : Int) : Bool :=
  match value with
  | .int n => n = number
  | .bool b => (if b then 1 else 0) = number
  | .float (.finite literal) => literal.value = number
  | _ => false

/-- `fields[key] == text`. -/
def hasText (fields : List (Str × Value)) (key : String) (text : Str) : Bool :=
  match fields.lookup (str key) with
  | some (.str found) => found = text
  | _ => false

end Json

namespace GeniusNew

open Json

namespace WorkerService

/-- `_VERSION`. -/
def version : Int := 1

/-- `value["version"] == _VERSION`. -/
def hasVersion (fields : List (Str × Value)) : Bool :=
  match fields.lookup (str "version") with
  | some value => value.equalsInt version
  | none => false

def hello (nonce : Str) : Value :=
  .dict [(str "kind", .str (str "HELLO")), (str "version", .int version), (str "nonce", .str nonce)]

def ready (nonce : Str) : Value :=
  .dict [(str "kind", .str (str "READY")), (str "version", .int version), (str "nonce", .str nonce)]

def greetingKeys : List Str := [str "kind", str "version", str "nonce"]

/-- `_validate_ready`. -/
def validateReady (fields : List (Str × Value)) (nonce : Str) : Outcome Unit :=
  if hasKeys fields greetingKeys && hasText fields "kind" (str "READY") && hasVersion fields &&
      hasText fields "nonce" nonce then .ok ()
  else fail "worker READY is invalid"

/-- `_validate_hello`: the nonce. -/
def validateHello (fields : List (Str × Value)) : Outcome Str :=
  match fields.lookup (str "nonce") with
  | some (.str nonce) =>
      if hasKeys fields greetingKeys && hasText fields "kind" (str "HELLO") && hasVersion fields &&
          isHexText 64 nonce then .ok nonce
      else fail "worker service HELLO is invalid"
  | _ => fail "worker service HELLO is invalid"

section Limits

/-- A number of the type `int` or `float`. -/
inductive Number where
  | int (value : Int)
  | float (literal : FloatLiteral)

def Number.value : Number → ℚ
  | .int n => n
  | .float literal => literal.value

def Number.toValue : Number → Value
  | .int n => .int n
  | .float literal => .float (.finite literal)

/-- The largest integer that `float` converts. -/
def maxFloat : Nat := 2 ^ 1024 - 2 ^ 970 - 1

/-- `isolation.IsolationLimits`. -/
structure IsolationLimits where
  wallSeconds : Number
  cpuSeconds : Int
  memoryBytes : Int
  maxFileBytes : Int
  maxOpenFiles : Int
  wall_bounds : 1 / 20 ≤ wallSeconds.value ∧ wallSeconds.value ≤ 30
  cpu_bounds : 1 ≤ cpuSeconds ∧ cpuSeconds ≤ 10
  memory_bounds : 128 * 1024 * 1024 ≤ memoryBytes ∧ memoryBytes ≤ 2 * 1024 * 1024 * 1024
  file_bounds : 4096 ≤ maxFileBytes ∧ maxFileBytes ≤ 16 * 1024 * 1024
  open_bounds : 16 ≤ maxOpenFiles ∧ maxOpenFiles ≤ 256

namespace IsolationLimits

def keys : List Str :=
  [str "wall_seconds", str "cpu_seconds", str "memory_bytes", str "max_file_bytes",
    str "max_open_files"]

def fields (limits : IsolationLimits) : List (Str × Value) :=
  [(str "wall_seconds", limits.wallSeconds.toValue),
    (str "cpu_seconds", .int limits.cpuSeconds), (str "memory_bytes", .int limits.memoryBytes),
    (str "max_file_bytes", .int limits.maxFileBytes), (str "max_open_files", .int limits.maxOpenFiles)]

/-- `asdict`. -/
def toDict (limits : IsolationLimits) : Value := .dict limits.fields

/-- The check of `wall_seconds`; an integer too large for a float is no refusal. -/
def wall (value : Value) :
    Outcome { seconds : Number // 1 / 20 ≤ seconds.value ∧ seconds.value ≤ 30 } :=
  let bounded (seconds : Number) :
      Outcome { seconds : Number // 1 / 20 ≤ seconds.value ∧ seconds.value ≤ 30 } :=
    if inside : 1 / 20 ≤ seconds.value ∧ seconds.value ≤ 30 then .ok ⟨seconds, inside⟩
    else fail "wall_seconds must be between 0.05 and 30"
  match value with
  | .int n => if n.natAbs > maxFloat then .error .overflowError else bounded (.int n)
  | .float (.finite literal) => bounded (.float literal)
  | _ => fail "wall_seconds must be between 0.05 and 30"

/-- The check of a field that is an integer between two bounds. -/
def between (low high : Int) (message : String) (value : Value) :
    Outcome { n : Int // low ≤ n ∧ n ≤ high } :=
  match value with
  | .int n => if inside : low ≤ n ∧ n ≤ high then .ok ⟨n, inside⟩ else fail message
  | _ => fail message

/-- `IsolationLimits(**limits)`. -/
def ofFields (fields : List (Str × Value)) : Outcome IsolationLimits := do
  let field (key : String) : Value := (fields.lookup (str key)).getD .null
  let wallSeconds ← wall (field "wall_seconds")
  let cpuSeconds ← between 1 10 "cpu_seconds must be between 1 and 10" (field "cpu_seconds")
  let memoryBytes ← between (128 * 1024 * 1024) (2 * 1024 * 1024 * 1024)
    "memory_bytes must be between 128 MiB and 2 GiB" (field "memory_bytes")
  let maxFileBytes ← between 4096 (16 * 1024 * 1024)
    "max_file_bytes must be between 4 KiB and 16 MiB" (field "max_file_bytes")
  let maxOpenFiles ← between 16 256 "max_open_files must be between 16 and 256"
    (field "max_open_files")
  return ⟨wallSeconds, cpuSeconds, memoryBytes, maxFileBytes, maxOpenFiles, wallSeconds.2,
    cpuSeconds.2, memoryBytes.2, maxFileBytes.2, maxOpenFiles.2⟩

/-- The literal `2.0`. -/
def twoSeconds : FloatLiteral := ⟨false, str "2", str ".0", rfl, rfl, by decide⟩

theorem value_twoSeconds : twoSeconds.value = 2 := by
  have fraction : scanFraction twoSeconds.tail = (str ".0", []) := by decide
  have digits : digitsValue (twoSeconds.whole ++ (str ".0").drop 1) = 20 := by decide
  have places : exponentValue ((scanExponent []).1.drop 1) - ((str ".0").drop 1).length = -1 := by
    decide
  rw [FloatLiteral.value, fraction]
  dsimp only
  rw [digits, places]
  norm_num [twoSeconds]

/-- `IsolationLimits()`. -/
def default : IsolationLimits where
  wallSeconds := .float twoSeconds
  cpuSeconds := 1
  memoryBytes := 512 * 1024 * 1024
  maxFileBytes := 1024 * 1024
  maxOpenFiles := 64
  wall_bounds := by
    change 1 / 20 ≤ twoSeconds.value ∧ twoSeconds.value ≤ 30
    rw [value_twoSeconds]
    norm_num
  cpu_bounds := by decide
  memory_bounds := by decide
  file_bounds := by decide
  open_bounds := by decide

/-- Some field is above the ceiling's. -/
def exceeds (requested ceiling : IsolationLimits) : Bool :=
  ceiling.wallSeconds.value < requested.wallSeconds.value ||
    ceiling.cpuSeconds < requested.cpuSeconds || ceiling.memoryBytes < requested.memoryBytes ||
    ceiling.maxFileBytes < requested.maxFileBytes || ceiling.maxOpenFiles < requested.maxOpenFiles

end IsolationLimits

end Limits

/-- The fields of the request for a text, with the default limits. -/
def requestFields (text nonce : Str) : List (Str × Value) :=
  [(str "kind", .str (str "REQUEST")), (str "version", .int version), (str "nonce", .str nonce),
    (str "worker", .str (str "summarize")), (str "payload", .dict [(str "text", .str text)]),
    (str "limits", IsolationLimits.default.toDict)]

def requestMessage (text nonce : Str) : Value := .dict (requestFields text nonce)

/-- `_request`. -/
def request (payload : List (Str × Value)) (nonce : Str) : Outcome Value :=
  if hasKeys payload [str "text"] then
    match payload.lookup (str "text") with
    | some (.str text) => .ok (requestMessage text nonce)
    | _ => fail "worker service accepts only a text payload"
  else fail "worker service accepts only a text payload"

def requestKeys : List Str :=
  [str "kind", str "version", str "nonce", str "worker", str "payload", str "limits"]

/-- `_validate_request`. -/
def validateRequest (fields : List (Str × Value)) (nonce : Str) (ceiling : IsolationLimits) :
    Outcome IsolationLimits :=
  if !(hasKeys fields requestKeys && hasText fields "kind" (str "REQUEST") && hasVersion fields &&
      hasText fields "nonce" nonce && hasText fields "worker" (str "summarize")) then
    fail "worker service REQUEST shape is invalid"
  else
    match fields.lookup (str "payload") with
    | some (.dict payload) =>
        if hasKeys payload [str "text"] then
          match payload.lookup (str "text"), fields.lookup (str "limits") with
          | some (.str _), some (.dict limits) =>
              if hasKeys limits IsolationLimits.keys then do
                let requested ← IsolationLimits.ofFields limits
                if requested.exceeds ceiling then fail "worker service REQUEST exceeds fixed limits"
                else return requested
              else fail "worker service REQUEST limits are incomplete"
          | some (.str _), _ => fail "worker service REQUEST limits are incomplete"
          | _, _ => fail "worker service REQUEST payload is invalid"
        else fail "worker service REQUEST payload is invalid"
    | _ => fail "worker service REQUEST payload is invalid"

inductive ErrorCode where
  | workerFailed
  | isolationViolated
  | resourceExhausted
  | outputRejected
  deriving DecidableEq

namespace ErrorCode

def text : ErrorCode → Str
  | workerFailed => str "WORKER_FAILED"
  | isolationViolated => str "ISOLATION_VIOLATED"
  | resourceExhausted => str "RESOURCE_EXHAUSTED"
  | outputRejected => str "OUTPUT_REJECTED"

/-- The code that a text is. -/
def ofText (text : Str) : Option ErrorCode :=
  [workerFailed, isolationViolated, resourceExhausted, outputRejected].find? fun code =>
    code.text = text

theorem ofText_eq_some {found : Str} {code : ErrorCode} :
    ofText found = some code ↔ code.text = found := by
  constructor
  · intro known
    rw [ofText] at known
    simpa using List.find?_some known
  · rintro rfl
    cases code <;> decide

end ErrorCode

/-- What a RESULT says: the text of an output or an error code. -/
inductive Answer where
  | output (text : Str)
  | error (code : ErrorCode)
  deriving DecidableEq

def resultKeys : List Str := [str "kind", str "version", str "nonce", str "request_digest"]

/-- `_validate_result`. -/
def validateResult (fields : List (Str × Value)) (nonce : Str) (requestDigest : Digest) :
    Outcome Answer :=
  if !(hasText fields "kind" (str "RESULT") && hasVersion fields && hasText fields "nonce" nonce &&
      hasText fields "request_digest" requestDigest.val) then
    fail "worker RESULT identity or digest is invalid"
  else if hasKeys fields (resultKeys ++ [str "output"]) then
    match fields.lookup (str "output") with
    | some (.dict output) =>
        if hasKeys output [str "text"] then
          match output.lookup (str "text") with
          | some (.str text) => .ok (.output text)
          | _ => fail "worker RESULT output is invalid"
        else fail "worker RESULT output is invalid"
    | _ => fail "worker RESULT output is invalid"
  else if hasKeys fields (resultKeys ++ [str "error"]) then
    match fields.lookup (str "error") with
    | some (.str text) =>
        match ErrorCode.ofText text with
        | some code => .ok (.error code)
        | none => fail "worker RESULT shape or error code is invalid"
    | _ => fail "worker RESULT shape or error code is invalid"
  else fail "worker RESULT shape or error code is invalid"

end WorkerService

end GeniusNew
