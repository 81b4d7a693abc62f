import GeniusNew.Anchor.State
import GeniusNew.Contracts.Wire

/-! # The audit chain in the database

Two tables hold the chain: the records with the exact bytes of their events, and
the signed head of every prefix. `AuditStore.read` accepts what the tables hold
only as a whole; `AuditStore.append` adds one record and its head.
-/

namespace GeniusNew

open Json

namespace AuditStore

open AnchorProcess

def maxEventBytes : Nat := 8192

def maxHeadVersionBytes : Nat := 64

/-- The line of the shortest head. -/
def minHeadLineBytes : Nat :=
  (lineOf ⟨.str headVersion, .int 0, .str (List.replicate 64 48), .str (List.replicate 128 48)⟩).length

def maxStoredRecords : Nat := min maxCount (maxStateBytes / minHeadLineBytes)

/-- A row of `public.audit_chain`. -/
structure ChainRow where
  index : Int
  previousHash : Str
  recordHash : Str
  event : Bytes

/-- A row of `public.audit_heads`. -/
structure HeadRow where
  count : Int
  version : Str
  headHash : Str
  signature : Bytes
  createdAt : Int

/-- Both tables, in whatever order the rows are kept. -/
structure Tables where
  chain : List ChainRow
  heads : List HeadRow

/-- `_event` of the column that was read. It is absent when it was too large. -/
def event (interpreter : Interpreter) : Option Bytes → Outcome AuditEvent
  | none => fail "stored audit event exceeds the maximum size"
  | some raw =>
      match (decodeAscii raw).bind fun text => (loads interpreter text).toOption with
      | none => fail "stored audit event is not valid JSON"
      | some value => do
          let event ← rehydrateEvent value
          if raw ≠ event.toBytes then fail "stored audit event is not byte-exact canonical JSON"
          else return event

/-- The record a row is read as. -/
structure StoredRecord where
  index : Int
  event : AuditEvent
  previousHash : Str
  recordHash : Str

def StoredRecord.toItem (record : StoredRecord) : Item :=
  .record {
    index := .int record.index
    event := some record.event
    previousHash := .str record.previousHash
    recordHash := .str record.recordHash }

/-- A row of the chain through the query of `_read`. -/
def storedRecord (interpreter : Interpreter) (row : ChainRow) : Outcome StoredRecord := do
  let event ← event interpreter (if row.event.length ≤ maxEventBytes then some row.event else none)
  return ⟨row.index, event, row.previousHash, row.recordHash⟩

/-- The head a row claims, beside what it claims once it was verified. -/
def storedHead (verifier : AuditVerifier) (position : Nat) (row : HeadRow) (record : StoredRecord) :
    Outcome (AuditHead × Committed) :=
  if row.count ≠ position then fail "stored audit heads are not contiguous"
  else if encodedLength row.version > maxHeadVersionBytes then
    fail "stored audit head version exceeds the maximum size"
  else if row.signature.length ≠ 64 then fail "stored audit head signature must be bytes"
  else if row.createdAt ≠ record.event.occurredAt.val then
    fail "stored audit head timestamp does not match its record"
  else do
    let head : AuditHead :=
      ⟨.str row.version, .int row.count, .str row.headHash, .str (hex row.signature)⟩
    let claimed ← verifyHead verifier (some head)
    return (head, claimed)

/-- The loop of `_stored_snapshot` over the heads, beside their records. -/
def storedHeads (verifier : AuditVerifier) :
    Nat → List HeadRow → List StoredRecord → Outcome (List (AuditHead × Committed))
  | position, row :: rows, record :: records => do
      let head ← storedHead verifier position row record
      let heads ← storedHeads verifier (position + 1) rows records
      return head :: heads
  | _, _, _ => .ok []

def storedSnapshot (interpreter : Interpreter) (verifier : AuditVerifier) (rows : List ChainRow)
    (headRows : List HeadRow) : Outcome (Option AuditHead × List CheckedRecord) :=
  if rows.length > maxCount ∨ headRows.length > maxCount then
    fail "stored audit chain exceeds the supported record bound"
  else do
    let records ← rows.mapM (storedRecord interpreter)
    if headRows.length ≠ records.length then
      fail "stored audit records and signed heads are not one-to-one"
    else do
      let heads ← storedHeads verifier 1 headRows records
      match heads.getLast? with
      | none => return (none, [])
      | some (head, _) => do
          -- `verify` without an anchor
          let (_, checked) ← verifyChain verifier (records.map StoredRecord.toItem) (some head)
          if heads.map (fun head => head.2.headHash.val) ≠ records.map StoredRecord.recordHash then
            fail "stored audit head does not bind its record prefix"
          else return (some head, checked)

def eventBytes (tables : Tables) : Nat := (tables.chain.map fun row => row.event.length).sum

def largestEvent (tables : Tables) : Nat :=
  (tables.chain.map fun row => row.event.length).foldr max 0

/-- `SELECT ... ORDER BY index LIMIT ...`. -/
def chainRows (tables : Tables) : List ChainRow :=
  (tables.chain.mergeSort fun row other => row.index ≤ other.index).take (maxStoredRecords + 1)

/-- `SELECT ... ORDER BY count LIMIT ...`. -/
def headRows (tables : Tables) : List HeadRow :=
  (tables.heads.mergeSort fun row other => row.count ≤ other.count).take (maxStoredRecords + 1)

def read (interpreter : Interpreter) (verifier : AuditVerifier) (tables : Tables) :
    Outcome (Option AuditHead × List CheckedRecord) :=
  if tables.chain.length > maxStoredRecords ∨ tables.heads.length > maxStoredRecords then
    fail "stored audit chain exceeds the supported record bound"
  else if largestEvent tables > maxEventBytes then
    fail "stored audit event exceeds the maximum size"
  else if eventBytes tables > maxRequestBytes then
    fail "stored audit chain exceeds the supported byte bound"
  else if tables.chain.length ≠ tables.heads.length then
    fail "stored audit records and signed heads are not one-to-one"
  else storedSnapshot interpreter verifier (chainRows tables) (headRows tables)

/-- `INSERT INTO public.audit_chain` with the constraints of the table. -/
def insertRecord (row : ChainRow) (tables : Tables) : Outcome Tables :=
  if row.index < 0 ∨ row.index ∈ tables.chain.map ChainRow.index ∨
      row.recordHash ∈ tables.chain.map ChainRow.recordHash ∨ row.event.length > maxEventBytes then
    fail "audit chain append failed"
  else .ok { tables with chain := tables.chain ++ [row] }

/-- `INSERT INTO public.audit_heads` with the constraints of the table. -/
def insertHead (row : HeadRow) (tables : Tables) : Outcome Tables :=
  if row.count ≤ 0 ∨ row.count ∈ tables.heads.map HeadRow.count ∨
      row.headHash ∈ tables.heads.map HeadRow.headHash ∨ row.signature.length ≠ 64 then
    fail "audit chain append failed"
  else .ok { tables with heads := tables.heads ++ [row] }

/-- The columns of a head and of the event it ends with. -/
def headRow (head : AuditHead) (event : AuditEvent) : Option HeadRow :=
  match head with
  | ⟨.str version, .int count, .str headHash, .str signature⟩ =>
      some ⟨count, version, headHash, fromHex signature, event.occurredAt.val⟩
  | _ => none

/-- The record `_append` adds after the records that were read. -/
def nextRecord (records : List CheckedRecord) (event : AuditEvent) : CheckedRecord where
  index := records.length
  event
  previousHash := lastHash emptyHash records
  recordHash := recordHash records.length event (lastHash emptyHash records)

def append (interpreter : Interpreter) (authority : AuditAuthority) (event : AuditEvent)
    (tables : Tables) : Outcome (CheckedRecord × Tables) := do
  let (_, records) ← read interpreter authority.verifier tables
  let record := nextRecord records event
  let head ← signHead authority (records.length + 1) record.recordHash
  checkCommitSize interpreter head ((records ++ [record]).map CheckedRecord.toItem)
  let tables ← insertRecord
    ⟨record.index, record.previousHash.val, record.recordHash.val, event.toBytes⟩ tables
  match headRow head event with
  | none => .error .typeError
  | some row => do
      let tables ← insertHead row tables
      return (record, tables)

end AuditStore

end GeniusNew
