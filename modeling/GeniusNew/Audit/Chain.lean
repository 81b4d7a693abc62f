import GeniusNew.Audit.Event

/-! # The audit chain and its anchor

A log is an untrusted list of items; a head is the signed claim about how many
records the chain has and where it ends. `verify` checks a log against a head
and, optionally, against what an anchor committed. `verifyExtension` checks only
the records after a committed prefix. `AuditChain` is the chain in memory;
`AuditAnchor.commit` and `AuditAnchor.commitDelta` move an anchor's committed
state.
-/

namespace GeniusNew

open Json

def headVersion : Str := str "geniusnew-audit-head-v2"

def emptyHash : Digest := ⟨List.replicate 64 48, by decide⟩

def maxCount : Nat := 1000000

def maxDeltaRecords : Nat := 8192

/-- `_count(value, field)`. -/
def count (value : Value) (field : String) : Outcome { count : Nat // count ≤ maxCount } :=
  match value with
  | .int number =>
      if number < 0 then fail (field ++ " must be a non-negative integer")
      else if bounded : number.toNat ≤ maxCount then .ok ⟨number.toNat, bounded⟩
      else fail (field ++ " must be at most 1000000")
  | _ => fail (field ++ " must be a non-negative integer")

theorem counted_le (claimed : { count : Nat // count ≤ maxCount }) : claimed.val ≤ maxCount :=
  claimed.property

/-- The dictionary a record hash is taken over. -/
def hashedRecord (index : Int) (event : Value) (previousHash : Str) : Value :=
  .dict [(str "event", event), (str "index", .int index), (str "previous_hash", .str previousHash)]

def recordHash (index : Int) (event : AuditEvent) (previousHash : Digest) : Digest :=
  sha256 (canonicalBytes (hashedRecord index event.toDict previousHash.val))

/-- A record as read from anywhere. Its event is absent when the field holds
something that is not an `AuditEvent`. -/
structure AuditRecord where
  index : Value
  event : Option AuditEvent
  previousHash : Value
  recordHash : Value

def AuditRecord.toDict (record : AuditRecord) : Option Value :=
  record.event.map fun event =>
    .dict [(str "event", event.toDict), (str "index", record.index),
      (str "previous_hash", record.previousHash), (str "record_hash", record.recordHash)]

/-- An element of an untrusted iterable. -/
inductive Item where
  | record (content : AuditRecord)
  | other

def Item.toDict : Item → Option Value
  | .record content => content.toDict
  | .other => none

structure AuditHead where
  version : Value
  count : Value
  headHash : Value
  signature : Value

/-- What a signature of a head covers. -/
def AuditHead.body (head : AuditHead) : Value :=
  .dict [(str "count", head.count), (str "head_hash", head.headHash),
    (str "version", head.version)]

/-- The public half of the audit authority. -/
structure AuditVerifier where
  verifies : Bytes → Bytes → Bool

/-- A chain length and the hash the chain ends with. An anchor's committed state
is one, and so is what a verified head claims. -/
@[ext]
structure Committed where
  count : Nat
  headHash : Digest
  count_le : count ≤ maxCount
  deriving DecidableEq

/-- The audit authority. Its Ed25519 signatures have 64 bytes and pass the check
of its own public half. -/
structure AuditAuthority where
  sign : Bytes → Bytes
  verifier : AuditVerifier
  sign_verifies : ∀ message, verifier.verifies message (sign message) = true
  length_sign : ∀ message, (sign message).length = 64

/-- A head with a given signature. -/
def AuditHead.claiming (claimed : Committed) (signature : Str) : AuditHead where
  version := .str headVersion
  count := .int claimed.count
  headHash := .str claimed.headHash.val
  signature := .str signature

/-- The head the authority signs for a checked claim. -/
def AuditAuthority.signed (authority : AuditAuthority) (claimed : Committed) : AuditHead :=
  .claiming claimed (hex (authority.sign (canonicalBytes (AuditHead.claiming claimed []).body)))

def signHead (authority : AuditAuthority) (claimed : Nat) (headHash : Digest) :
    Outcome AuditHead := do
  let checked ← count (.int claimed) "count"
  return authority.signed ⟨checked.val, headHash, checked.property⟩

/-- `AuditAnchor()`. -/
def Committed.initial : Committed := ⟨0, emptyHash, by decide⟩

/-- `_verify_head`, with the head's checked fields as its result. -/
def verifyHead (verifier : AuditVerifier) : Option AuditHead → Outcome Committed
  | none => fail "head is invalid"
  | some head =>
      match head.version with
      | .str version =>
          if version = headVersion then do
            let claimed ← count head.count "head.count"
            let headHash ← digest head.headHash "head.head_hash"
            match head.signature with
            | .str signature =>
                if isHexText 128 signature &&
                    verifier.verifies (canonicalBytes head.body) (fromHex signature) then
                  return ⟨claimed.val, headHash, claimed.property⟩
                else fail "head signature does not verify"
            | _ => fail "head signature does not verify"
          else fail "head version is not recognised"
      | _ => fail "head version is not recognised"

/-- A record whose fields passed `_checked_record`. -/
structure CheckedRecord where
  index : Int
  event : AuditEvent
  previousHash : Digest
  recordHash : Digest

def CheckedRecord.toItem (record : CheckedRecord) : Item :=
  .record {
    index := .int record.index
    event := some record.event
    previousHash := .str record.previousHash.val
    recordHash := .str record.recordHash.val }

/-- `_checked_record`. -/
def checkedRecord (item : Item) (position : Nat) : Outcome CheckedRecord :=
  match item with
  | .other => fail s!"record at position {position} is not an AuditRecord"
  | .record record =>
      match record.index with
      | .int index =>
          match record.event with
          | some event => do
              let previousHash ← digest record.previousHash s!"record {position} previous_hash"
              let recordHash ← digest record.recordHash s!"record {position} record_hash"
              return { index, event, previousHash, recordHash }
          | none => fail s!"record at position {position} does not carry an AuditEvent"
      | _ => fail s!"record at position {position} has a non-integer index"

/-- The loop over the records of `verify` and of `verify_extension`: `position`
is the index the next record must have and `previous` the hash it must link to. -/
def verifyRecords : List Item → Nat → Digest → Outcome (List CheckedRecord)
  | [], _, _ => .ok []
  | item :: items, position, previous => do
      let record ← checkedRecord item position
      if record.index ≠ position then
        fail s!"record at position {position} claims index {record.index}"
      else if record.previousHash ≠ previous then
        fail s!"record {position} does not link to its predecessor"
      else if record.recordHash ≠ recordHash record.index record.event record.previousHash then
        fail s!"record {position} has been altered"
      else do
        let records ← verifyRecords items (position + 1) record.recordHash
        return record :: records

/-- `chain[-1].record_hash if chain else base`. -/
def lastHash (base : Digest) (records : List CheckedRecord) : Digest :=
  (records.getLast?.map CheckedRecord.recordHash).getD base

/-- `verify` up to the anchor: the head's claim and the records it covers. -/
def verifyChain (verifier : AuditVerifier) (items : List Item) (head : Option AuditHead) :
    Outcome (Committed × List CheckedRecord) := do
  let claimed ← verifyHead verifier head
  let chain := items.take (claimed.count + 1)
  if chain.length > claimed.count then
    fail s!"chain holds more than the {claimed.count} records the signed head claims"
  else if chain.length ≠ claimed.count then
    fail s!"chain holds {chain.length} records but the signed head claims {claimed.count}"
  else do
    let records ← verifyRecords chain 0 emptyHash
    if lastHash emptyHash records ≠ claimed.headHash then
      fail "chain does not end where the signed head says it does"
    else return (claimed, records)

/-- The record hash at the committed position, if the chain reaches it. -/
def hashAt (records : List CheckedRecord) (count : Nat) : Option Digest :=
  records[count - 1]?.map CheckedRecord.recordHash

/-- The last part of `verify`: the chain against what an anchor committed. -/
def verifyAnchored (claimed : Committed) (records : List CheckedRecord) (committed : Committed) :
    Outcome Unit :=
  if claimed.count < committed.count then
    fail s!"anchor committed {committed.count} records; this chain has {claimed.count}"
  else if claimed.count = committed.count ∧ claimed.headHash ≠ committed.headHash then
    fail "chain ends differently from what the anchor committed at this length"
  else if committed.count ≠ 0 ∧ claimed.count > committed.count ∧
      hashAt records committed.count ≠ some committed.headHash then
    fail s!"chain does not contain the {committed.count} records the anchor committed"
  else .ok ()

def verify (verifier : AuditVerifier) (items : List Item) (head : Option AuditHead)
    (anchor : Option Committed) : Outcome Nat := do
  let (claimed, records) ← verifyChain verifier items head
  match anchor with
  | none => return records.length
  | some committed => do
      verifyAnchored claimed records committed
      return records.length

def verifyExtension (verifier : AuditVerifier) (items : List Item) (head : Option AuditHead)
    (fromCount fromHash : Value) : Outcome (Committed × List CheckedRecord) := do
  let claimed ← verifyHead verifier head
  let fromCount ← count fromCount "from_count"
  let fromHash ← digest fromHash "from_hash"
  let base := fromCount.val
  if claimed.count < base then
    fail (s!"signed head claims {claimed.count} records but the extension " ++
      s!"base already holds {base}")
  else
    let extension := claimed.count - base
    if extension > maxDeltaRecords then
      fail s!"extension holds {extension} records, more than the 8192 one delta may carry"
    else
      let chain := items.take (extension + 1)
      if chain.length > extension then
        fail (s!"extension holds more than the {extension} records the signed " ++
          "head adds to its base")
      else if chain.length ≠ extension then
        fail (s!"extension holds {chain.length} records but the signed head adds " ++
          s!"{extension} to its base")
      else do
        let records ← verifyRecords chain base fromHash
        if lastHash fromHash records ≠ claimed.headHash then
          fail "extension does not end where the signed head says it does"
        else return (claimed, records)

namespace AuditChain

/-- `AuditChain.append`: the record it links and returns, and the records
afterwards. -/
def append (records : List CheckedRecord) (event : AuditEvent) :
    CheckedRecord × List CheckedRecord :=
  let previousHash := lastHash emptyHash records
  let record : CheckedRecord := {
    index := records.length
    event
    previousHash
    recordHash := recordHash records.length event previousHash }
  (record, records ++ [record])

def snapshot (authority : AuditAuthority) (records : List CheckedRecord) :
    Outcome (AuditHead × List CheckedRecord) := do
  let head ← signHead authority records.length (lastHash emptyHash records)
  return (head, records)

/-- The chain after appending events to an empty one. -/
def appended (events : List AuditEvent) : List CheckedRecord :=
  events.foldl (fun records event => (append records event).2) []

end AuditChain

namespace AuditAnchor

/-- The part of `commit` before the lock. -/
def prepare (verifier : AuditVerifier) (head : Option AuditHead) (items : List Item) :
    Outcome (Committed × List CheckedRecord) := do
  let claimed ← verifyHead verifier head
  verifyChain verifier (items.take (claimed.count + 1)) head

/-- The part of `commit` under the lock: the state it stores and returns. -/
def commitLocked (claimed : Committed) (chain : List CheckedRecord) (state : Committed) :
    Outcome Committed :=
  if claimed.count < state.count then
    fail s!"anchor already committed {state.count} records; head claims {claimed.count}"
  else if claimed.count = state.count ∧ claimed.headHash ≠ state.headHash then
    fail s!"anchor already committed a different chain at {state.count} records"
  else if state.count ≠ 0 ∧ claimed.count > state.count ∧
      hashAt chain state.count ≠ some state.headHash then
    let last := state.count - 1
    fail (s!"chain does not extend the {state.count} records already " ++
      s!"committed; record {last} ends elsewhere")
  else .ok claimed

/-- A call's outcome beside the state it leaves: one that raises moves nothing. -/
def settle (state : Committed) (outcome : Outcome Committed) : Outcome Committed × Committed :=
  match outcome with
  | .ok next => (.ok next, next)
  | .error raised => (.error raised, state)

def commit (verifier : AuditVerifier) (head : Option AuditHead) (items : List Item)
    (state : Committed) : Outcome Committed × Committed :=
  settle state do
    let (claimed, chain) ← prepare verifier head items
    commitLocked claimed chain state

/-- The second critical section of `commit_delta`. -/
def compareAndMove (claimed base state : Committed) : Outcome Committed :=
  if state = base then .ok claimed
  else if claimed.count = state.count ∧ claimed.headHash = state.headHash then .ok state
  else fail (s!"anchor moved to {state.count} records while the extension " ++
    s!"from {base.count} was checked; extend its committed state instead")

/-- The part of `commit_delta` between its critical sections. -/
def extend (verifier : AuditVerifier) (head : Option AuditHead) (items : List Item)
    (base : Committed) : Outcome (Committed × List CheckedRecord) :=
  verifyExtension verifier items head (.int base.count) (.str base.headHash.val)

/-- `commit_delta` with nothing else running. -/
def commitDelta (verifier : AuditVerifier) (head : Option AuditHead) (items : List Item)
    (state : Committed) : Outcome Committed × Committed :=
  settle state do
    let (claimed, _) ← extend verifier head items state
    compareAndMove claimed state state

/-- `AuditAnchor.resumed`. -/
def resumed (verifier : AuditVerifier) (head : Option AuditHead) : Outcome Committed :=
  verifyHead verifier head

end AuditAnchor

end GeniusNew
