import GeniusNew.Audit.Chain
import GeniusNew.Audit.Rehydrated

/-! # The anchor process

The messages between a writer and an anchor that runs in another process: how a
commit is written as a request (`commitRequest`, `commit2Request`), framed, read
back (`decode`) and answered (`handle`).
-/

namespace GeniusNew

open Json

namespace AnchorProcess

def maxRequestBytes : Nat := 64 * 1024 * 1024

def maxDeltaRequestBytes : Nat := 8 * 1024 * 1024

/-- `_decode`: one exact object per frame. A text that is not read, for whatever
reason, and one that is not its own canonical form are refused alike. -/
def decode (interpreter : Interpreter) (data : Bytes) (noun : String) :
    Outcome (List (Str × Value)) :=
  match (decodeAscii data).bind fun text => (loads interpreter text).toOption with
  | some (.dict fields) => do
      let encoded ← canonical interpreter (.dict fields)
      if encoded ≠ data then fail (noun ++ " is not canonical JSON") else return fields
  | _ => fail (noun ++ " is not canonical JSON")

/-- `len(data).to_bytes(4, "big")`. -/
def frameHeader (size : Nat) : Bytes :=
  [UInt8.ofNat (size / 2 ^ 24), UInt8.ofNat (size / 2 ^ 16), UInt8.ofNat (size / 2 ^ 8),
    UInt8.ofNat size]

def frame (interpreter : Interpreter) (message : Value) (limit : Nat) : Outcome Bytes := do
  let data ← canonical interpreter message
  if data.length > limit then fail "anchor message is too large"
  else return frameHeader data.length ++ data

/-- `_read_frame`: one frame and what follows it in the stream. -/
def readFrame : Bytes → Option (Bytes × Bytes)
  | first :: second :: third :: fourth :: rest =>
      let size := first.toNat * 2 ^ 24 + second.toNat * 2 ^ 16 + third.toNat * 2 ^ 8 + fourth.toNat
      if size > maxRequestBytes then none
      else if rest.length < size then none
      else some (rest.take size, rest.drop size)
  | _ => none

def headKeys : List Str := [str "count", str "head_hash", str "signature", str "version"]

def recordKeys : List Str := [str "event", str "index", str "previous_hash", str "record_hash"]

/-- `_head`. -/
def head (value : Value) : Outcome AuditHead :=
  match value with
  | .dict fields =>
      if hasKeys fields headKeys then
        .ok {
          version := (fields.lookup (str "version")).getD .null
          count := (fields.lookup (str "count")).getD .null
          headHash := (fields.lookup (str "head_hash")).getD .null
          signature := (fields.lookup (str "signature")).getD .null }
      else fail "anchor request carries a malformed head"
  | _ => fail "anchor request carries a malformed head"

/-- `_record`. -/
def record (value : Value) : Outcome AuditRecord :=
  match value with
  | .dict fields =>
      if hasKeys fields recordKeys then do
        let event ← rehydrateEvent ((fields.lookup (str "event")).getD .null)
        return {
          index := (fields.lookup (str "index")).getD .null
          event := some event
          previousHash := (fields.lookup (str "previous_hash")).getD .null
          recordHash := (fields.lookup (str "record_hash")).getD .null }
      else fail "anchor request carries a malformed record"
  | _ => fail "anchor request carries a malformed record"

/-- `[_record(value) for value in records]` after the check that it is a list. -/
def records (value : Value) : Outcome (List Item) :=
  match value with
  | .list values => do
      let rebuilt ← values.mapM record
      return rebuilt.map Item.record
  | _ => fail "anchor request records must be a list"

/-- `_committed`: the reply that names a committed state. -/
def committed (state : Committed) : Value :=
  .dict [(str "count", .int state.count), (str "head_hash", .str state.headHash.val),
    (str "kind", .str (str "ok"))]

/-- `message.get("kind") == kind`. -/
def isKind (message : List (Str × Value)) (kind : String) : Bool :=
  match message.lookup (str "kind") with
  | some (.str text) => text = str kind
  | _ => false

def commit2Keys : List Str := [str "from_count", str "head", str "kind", str "records"]

def commitKeys : List Str := [str "head", str "kind", str "records"]

/-- What a message asks of the anchor. -/
inductive Request where
  | committed
  | commit2 (head : AuditHead) (items : List Item)
  | commit (head : AuditHead) (items : List Item)

/-- What `_handle` does with a message before it reaches the anchor. -/
def readRequest (interpreter : Interpreter) (message : List (Str × Value)) (state : Committed) :
    Outcome Request :=
  let field (key : String) : Value := (message.lookup (str key)).getD .null
  if isKind message "committed" && hasKeys message [str "kind"] then .ok .committed
  else if isKind message "commit2" && hasKeys message commit2Keys then do
    let data ← canonical interpreter (.dict message)
    if data.length > maxDeltaRequestBytes then fail "anchor delta commit is too large"
    else do
      let head ← head (field "head")
      let fromCount ← count (field "from_count") "from_count"
      let items ← records (field "records")
      if fromCount.val ≠ state.count then
        fail "delta does not start at the anchor's committed count"
      else return .commit2 head items
  else if !isKind message "commit" || !hasKeys message commitKeys then
    fail "anchor request is not recognised"
  else do
    let head ← head (field "head")
    let items ← records (field "records")
    return .commit head items

/-- `_handle`: the reply or the refusal, and the state the anchor is left in. -/
def handle (interpreter : Interpreter) (verifier : AuditVerifier) (message : List (Str × Value))
    (state : Committed) : Outcome Value × Committed :=
  match readRequest interpreter message state with
  | .error raised => (.error raised, state)
  | .ok .committed => (.ok (committed state), state)
  | .ok (.commit2 head items) =>
      ((AuditAnchor.commitDelta verifier (some head) items state).1.map committed,
        (AuditAnchor.commitDelta verifier (some head) items state).2)
  | .ok (.commit head items) =>
      ((AuditAnchor.commit verifier (some head) items state).1.map committed,
        (AuditAnchor.commit verifier (some head) items state).2)

def headFields (head : AuditHead) : List (Str × Value) :=
  [(str "count", head.count), (str "head_hash", head.headHash),
    (str "signature", head.signature), (str "version", head.version)]

def headDict (head : AuditHead) : Value := .dict (headFields head)

/-- The dictionaries of a chain, for records that carry an event. -/
def recordDicts (chain : List Item) : Outcome (List Value) :=
  match chain.mapM Item.toDict with
  | some dicts => .ok dicts
  | none => fail "records must be AuditRecord values carrying an AuditEvent"

/-- `_commit_request`. -/
def commitRequest (head : Option AuditHead) (items : List Item) : Outcome Value :=
  match head with
  | none => fail "head is invalid"
  | some head => do
      let claimed ← count head.count "head.count"
      let dicts ← recordDicts (items.take (claimed.val + 1))
      return .dict [(str "head", headDict head), (str "kind", .str (str "commit")),
        (str "records", .list dicts)]

/-- A request on its way: framed, read from the stream and decoded. A frame that
is not read ends the process. -/
def deliver (interpreter : Interpreter) (request : Value) : Outcome (Option (List (Str × Value))) := do
  let sent ← frame interpreter request maxRequestBytes
  match readFrame sent with
  | some (data, _) => do
      let message ← decode interpreter data "anchor request"
      return some message
  | none => return none

/-- A call sent to the anchor process: what the writer's request makes the
process reply and the state it is left in. -/
def exchange (interpreter : Interpreter) (verifier : AuditVerifier) (request : Outcome Value)
    (state : Committed) : Option (Outcome Value) × Committed :=
  match request >>= deliver interpreter with
  | .error raised => (some (.error raised), state)
  | .ok none => (none, state)
  | .ok (some message) =>
      (some (handle interpreter verifier message state).1,
        (handle interpreter verifier message state).2)

end AnchorProcess

end GeniusNew
