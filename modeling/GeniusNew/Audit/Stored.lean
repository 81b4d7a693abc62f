import GeniusNew.Audit.Store
import GeniusNew.Anchor.Growth

/-! # What the stored chain is

`AuditStore.read` accepts exactly the rows of a chain of events: the sorted rows
are the records of the events with their canonical bytes, and every row of a head
binds the record at its position.
-/

namespace GeniusNew

open Json HashChain

section Text

theorem printable_digestValue? (interpreter : Interpreter) (hash : Option Digest) :
    (AuditEvent.digestValue? hash).printable interpreter = true := by
  cases hash <;> rfl

/-- Every event has a text. -/
theorem printable_toDict (interpreter : Interpreter) (event : AuditEvent) :
    event.toDict.printable interpreter = true := by
  have time : (Nat.digits 10 event.occurredAt.val.natAbs).length ≤ maxIntDigits := by
    have bounds := event.occurredAt.property
    refine (length_digits_of_lt 10 ?_).trans (by decide)
    have last : maxOccurredAt < 10 ^ 10 := by decide
    omega
  have version : 1 ≤ maxIntDigits := by decide
  cases shape : event.bindings with
  | legacy =>
      simp [AuditEvent.toDict, AuditEvent.fields, AuditEvent.commonFields, AuditEvent.boundFields,
        shape, Value.printable, Value.printableFields, printable_digestValue?, time]
  | bound subject result =>
      simp [AuditEvent.toDict, AuditEvent.fields, AuditEvent.commonFields, AuditEvent.boundFields,
        shape, Value.printable, Value.printableFields, printable_digestValue?, time, version]

theorem depth_toDict_le (event : AuditEvent) : event.toDict.depth ≤ 1 := by
  rw [AuditEvent.toDict, Value.depth, Nat.succ_le_succ_iff, Value.depthFields_le]
  intro field member
  rcases fields_scalar event field member with ⟨text, same⟩ | ⟨number, same⟩ | same <;>
    (rw [same]; exact le_rfl)

theorem loads_toDict (interpreter : Interpreter) (event : AuditEvent) :
    loads interpreter (dumps event.toDict) = .ok event.toDict.decoded := by
  refine loads_dumps interpreter ?_ (printable_toDict interpreter event)
  exact (depth_toDict_le event).trans
    (Nat.le_trans (by decide) interpreter.recursionLimit_sufficient)

end Text

namespace AuditStore

open AnchorProcess

section Rows

variable {interpreter : Interpreter} {verifier : AuditVerifier}

theorem toBytes_joined (event : AuditEvent) : event.joined.toBytes = event.toBytes :=
  congrArg asciiBytes (dumps_toDict_joined event)

/-- The bytes of an event are read as the event with its pairs joined. -/
theorem event_toBytes {other found : AuditEvent} :
    event interpreter (some other.toBytes) = .ok found ↔ other.joined = found := by
  have text : decodeAscii other.toBytes = some (dumps other.toDict) :=
    decodeAscii_canonicalBytes other.toDict
  simp only [event, text, Option.bind_some, loads_toDict, Except.toOption, bind_eq_ok,
    rehydrateEvent_decoded, Except.ok.injEq, exists_eq_left', guarded_eq_ok, pure_eq_ok, not_not,
    toBytes_joined, true_and]

theorem joined_joined (event : AuditEvent) : event.joined.joined = event.joined := by
  have read : AuditStore.event literalInterpreter (some event.joined.toBytes) =
      .ok event.joined := by
    rw [toBytes_joined]
    exact event_toBytes.mpr rfl
  exact event_toBytes.mp read

/-- A stored event is its canonical bytes, with its pairs joined. -/
theorem event_eq_ok {raw : Bytes} {found : AuditEvent} :
    event interpreter (some raw) = .ok found ↔ raw = found.toBytes ∧ found.joined = found := by
  constructor
  · intro accepted
    have same : raw = found.toBytes := by
      simp only [event] at accepted
      split at accepted
      · exact (fail_ne_ok accepted).elim
      · obtain ⟨other, _, checked⟩ := bind_eq_ok.mp accepted
        obtain ⟨exact, checked⟩ := guarded_eq_ok.mp checked
        rw [← pure_eq_ok.mp checked]
        exact not_not.mp exact
    rw [same] at accepted
    exact ⟨same, event_toBytes.mp accepted⟩
  · rintro ⟨rfl, joined⟩
    exact event_toBytes.mpr joined

/-- The row of a record. -/
def chainRow (record : CheckedRecord) : ChainRow :=
  ⟨record.index, record.previousHash.val, record.recordHash.val, record.event.toBytes⟩

def stored (record : CheckedRecord) : StoredRecord :=
  ⟨record.index, record.event, record.previousHash.val, record.recordHash.val⟩

/-- An event that a row can hold and that comes back from it. -/
def Storable (event : AuditEvent) : Prop :=
  event.joined = event ∧ event.toBytes.length ≤ maxEventBytes

theorem storedRecord_eq_ok {row : ChainRow} {record : CheckedRecord} :
    storedRecord interpreter row = .ok (stored record) ↔
      row = chainRow record ∧ Storable record.event := by
  obtain ⟨index, previousHash, recordHash, raw⟩ := row
  simp only [storedRecord, bind_eq_ok, pure_eq_ok, stored, chainRow, Storable,
    StoredRecord.mk.injEq, ChainRow.mk.injEq]
  split_ifs with short
  · simp only [event_eq_ok]
    constructor
    · rintro ⟨found, ⟨rfl, joined⟩, rfl, rfl, rfl, rfl⟩
      exact ⟨⟨rfl, rfl, rfl, rfl⟩, joined, short⟩
    · rintro ⟨⟨rfl, rfl, rfl, rfl⟩, joined, _⟩
      exact ⟨_, ⟨rfl, joined⟩, rfl, rfl, rfl, rfl⟩
  · constructor
    · rintro ⟨found, accepted, _⟩
      exact (fail_ne_ok accepted).elim
    · rintro ⟨⟨rfl, rfl, rfl, rfl⟩, _, bounded⟩
      exact (short bounded).elim

theorem mapM_storedRecord {rows : List ChainRow} {records : List CheckedRecord} :
    rows.mapM (storedRecord interpreter) = .ok (records.map stored) ↔
      rows = records.map chainRow ∧ ∀ record ∈ records, Storable record.event := by
  induction rows generalizing records with
  | nil =>
      cases records with
      | nil => exact iff_of_true rfl ⟨rfl, List.forall_mem_nil _⟩
      | cons record records => exact iff_of_false (fun same => nomatch same) (fun h => nomatch h.1)
  | cons row rows ih =>
      simp only [List.mapM_cons, bind_eq_ok, pure_eq_ok]
      cases records with
      | nil => simp
      | cons record records =>
          simp only [List.map_cons, List.cons.injEq, List.forall_mem_cons]
          constructor
          · rintro ⟨first, read, rest, later, rfl, rfl⟩
            obtain ⟨rfl, storable⟩ := storedRecord_eq_ok.mp read
            obtain ⟨rfl, others⟩ := ih.mp later
            exact ⟨⟨rfl, rfl⟩, storable, others⟩
          · rintro ⟨⟨rfl, rfl⟩, storable, others⟩
            exact ⟨_, storedRecord_eq_ok.mpr ⟨rfl, storable⟩, _, ih.mpr ⟨rfl, others⟩, rfl, rfl⟩

theorem encodedLength_headVersion : encodedLength headVersion ≤ maxHeadVersionBytes := by decide

/-- The head a row holds. -/
def headOf (row : HeadRow) : AuditHead :=
  ⟨.str row.version, .int row.count, .str row.headHash, .str (hex row.signature)⟩

/-- A row holds a signed head that ends with a record. -/
structure Binds (verifier : AuditVerifier) (row : HeadRow) (record : CheckedRecord) : Prop where
  length_signature : row.signature.length = 64
  createdAt_eq : row.createdAt = record.event.occurredAt.val
  verified : ∃ claimed, verifyHead verifier (some (headOf row)) = .ok claimed ∧
    (claimed.count : Int) = record.index + 1 ∧ claimed.headHash = record.recordHash

theorem storedHead_eq_ok {position : Nat} {row : HeadRow} {record : CheckedRecord}
    {head : AuditHead} {claimed : Committed} :
    storedHead verifier position row (stored record) = .ok (head, claimed) ↔
      row.signature.length = 64 ∧ row.createdAt = record.event.occurredAt.val ∧
        head = headOf row ∧ verifyHead verifier (some head) = .ok claimed ∧
        claimed.count = position := by
  simp only [storedHead, guarded_eq_ok, not_not, not_lt, bind_eq_ok, pure_eq_ok, Prod.mk.injEq]
  constructor
  · rintro ⟨counted, _, signed, created, other, verified, rfl, rfl⟩
    refine ⟨signed, created, rfl, verified, ?_⟩
    obtain ⟨signature, same, _⟩ := verifyHead_eq_ok.mp verified
    have count : row.count = other.count := by simpa using congrArg AuditHead.count (Option.some.inj same)
    omega
  · rintro ⟨signed, created, rfl, verified, counted⟩
    obtain ⟨signature, same, _⟩ := verifyHead_eq_ok.mp verified
    have count : row.count = claimed.count := by
      simpa [headOf] using congrArg AuditHead.count (Option.some.inj same)
    have version : row.version = headVersion := by
      simpa [headOf] using congrArg AuditHead.version (Option.some.inj same)
    exact ⟨by omega, version ▸ encodedLength_headVersion, signed, created, claimed, verified, rfl, rfl⟩

/-- The heads that were read bind the records of a chain, one by one. -/
theorem storedHeads_of_binds {rows : List HeadRow} {events : List AuditEvent} {position : Nat}
    {previous : Digest}
    (bound : List.Forall₂ (Binds verifier) rows (recordsFrom position previous events)) :
    ∃ heads, storedHeads verifier (position + 1) rows
        ((recordsFrom position previous events).map stored) = .ok heads ∧
      heads.map Prod.fst = rows.map headOf ∧
      heads.map (fun head => head.2.headHash.val) =
        (recordsFrom position previous events).map fun record => record.recordHash.val := by
  induction events generalizing rows position previous with
  | nil =>
      obtain rfl := List.forall₂_nil_right_iff.mp bound
      exact ⟨[], rfl, rfl, rfl⟩
  | cons event events ih =>
      obtain ⟨row, rest, ⟨signed, created, claimed, verified, counted, hashed⟩, later, rfl⟩ :=
        List.forall₂_cons_right_iff.mp bound
      obtain ⟨heads, read, firsts, hashes⟩ := ih later
      have next : claimed.count = position + 1 := Int.ofNat.inj counted
      refine ⟨(headOf row, claimed) :: heads, ?_, ?_, ?_⟩
      · rw [recordsFrom, List.map_cons, storedHeads, storedHead_eq_ok.mpr
          ⟨signed, created, rfl, verified, next⟩, read]
        rfl
      · rw [List.map_cons, List.map_cons, firsts]
      · rw [List.map_cons, recordsFrom, List.map_cons, hashes, hashed]

theorem binds_of_storedHeads {rows : List HeadRow} {events : List AuditEvent} {position : Nat}
    {previous : Digest} {heads : List (AuditHead × Committed)}
    (whole : rows.length = events.length)
    (read : storedHeads verifier (position + 1) rows
      ((recordsFrom position previous events).map stored) = .ok heads)
    (hashes : heads.map (fun head => head.2.headHash.val) =
      (recordsFrom position previous events).map fun record => record.recordHash.val) :
    List.Forall₂ (Binds verifier) rows (recordsFrom position previous events) ∧
      heads.map Prod.fst = rows.map headOf := by
  induction events generalizing rows position previous heads with
  | nil =>
      obtain rfl := List.length_eq_zero_iff.mp whole
      obtain rfl := Except.ok.inj read
      exact ⟨List.Forall₂.nil, rfl⟩
  | cons event events ih =>
      cases rows with
      | nil => cases whole
      | cons row rows =>
          rw [recordsFrom, List.map_cons, storedHeads] at read
          obtain ⟨⟨head, claimed⟩, first, read⟩ := bind_eq_ok.mp read
          obtain ⟨others, later, same⟩ := bind_eq_ok.mp read
          obtain rfl := pure_eq_ok.mp same
          obtain ⟨signed, created, rfl, verified, counted⟩ := storedHead_eq_ok.mp first
          rw [List.map_cons, recordsFrom, List.map_cons, List.cons.injEq] at hashes
          obtain ⟨bound, firsts⟩ := ih (Nat.succ.inj whole) later hashes.2
          refine ⟨List.Forall₂.cons ⟨signed, created, claimed, verified, ?_, ?_⟩ bound, ?_⟩
          · exact congrArg Int.ofNat counted
          · exact Subtype.ext hashes.1
          · rw [List.map_cons, List.map_cons, firsts]

/-- The last head of a chain claims the chain. -/
theorem last_verified {headRows : List HeadRow} {events : List AuditEvent} {row : HeadRow}
    (bound : List.Forall₂ (Binds verifier) headRows (recordsFrom 0 emptyHash events))
    (last : headRows.getLast? = some row) :
    ∃ claimed, verifyHead verifier (some (headOf row)) = .ok claimed ∧ Verified claimed events := by
  obtain ⟨front, rfl⟩ := List.getLast?_eq_some_iff.mp last
  have reversed := List.rel_reverse bound
  rw [List.reverse_append, List.reverse_singleton, List.singleton_append] at reversed
  induction events using List.reverseRecOn with
  | nil => cases reversed
  | append_singleton events event _ =>
      have length : (0 + events.length : Nat) = events.length := Nat.zero_add _
      rw [recordsFrom_append, recordsFrom, recordsFrom, List.reverse_append,
        List.reverse_singleton, List.singleton_append, length] at reversed
      obtain ⟨claimed, verified, counted, hashed⟩ := (List.forall₂_cons.mp reversed).1.verified
      refine ⟨claimed, verified, ?_, ?_⟩
      · rw [List.length_append, List.length_singleton]
        exact (Int.ofNat.inj counted).symm
      · rw [written_append, tip_append, length_written, length, hashed]
        rfl

theorem length_storedHeads {rows : List HeadRow} {records : List StoredRecord} {position : Nat}
    {heads : List (AuditHead × Committed)} (whole : rows.length = records.length)
    (read : storedHeads verifier position rows records = .ok heads) :
    heads.length = rows.length := by
  induction rows generalizing records position heads with
  | nil =>
      have empty : storedHeads verifier position [] records = .ok [] := by
        cases records <;> rfl
      rw [empty] at read
      rw [← Except.ok.inj read, List.length_nil, List.length_nil]
  | cons row rows ih =>
      cases records with
      | nil => cases whole
      | cons record records =>
          obtain ⟨head, _, read⟩ := bind_eq_ok.mp read
          obtain ⟨others, later, same⟩ := bind_eq_ok.mp read
          rw [← pure_eq_ok.mp same, List.length_cons, ih (Nat.succ.inj whole) later,
            List.length_cons]

theorem stored_toItem_injective : Function.Injective StoredRecord.toItem := by
  rintro ⟨index, event, previous, hash⟩ ⟨index', event', previous', hash'⟩ same
  simpa [StoredRecord.toItem] using same

theorem map_stored_toItem (records : List CheckedRecord) :
    (records.map stored).map StoredRecord.toItem = records.map CheckedRecord.toItem := by
  rw [List.map_map]
  rfl

theorem map_stored_recordHash (records : List CheckedRecord) :
    (records.map stored).map StoredRecord.recordHash =
      records.map fun record => record.recordHash.val := by
  rw [List.map_map]
  rfl

/-- What `_stored_snapshot` accepts, and what it returns. -/
theorem storedSnapshot_eq_ok {rows : List ChainRow} {headRows : List HeadRow}
    {head : Option AuditHead} {records : List CheckedRecord} :
    storedSnapshot interpreter verifier rows headRows = .ok (head, records) ↔
      ∃ events, events.length ≤ maxCount ∧ (∀ event ∈ events, Storable event) ∧
        rows = (recordsFrom 0 emptyHash events).map chainRow ∧
        List.Forall₂ (Binds verifier) headRows (recordsFrom 0 emptyHash events) ∧
        records = recordsFrom 0 emptyHash events ∧ head = headRows.getLast?.map headOf := by
  simp only [storedSnapshot, guarded_eq_ok, not_or, not_lt, bind_eq_ok, not_not]
  constructor
  · rintro ⟨⟨few, _⟩, read, mapped, whole, heads, loaded, rest⟩
    have length := length_storedHeads whole loaded
    split at rest
    · rename_i empty
      obtain rfl := List.getLast?_eq_none_iff.mp empty
      obtain rfl := List.length_eq_zero_iff.mp length.symm
      obtain rfl := List.length_eq_zero_iff.mp whole.symm
      obtain ⟨rfl, rfl⟩ := Prod.mk.inj (pure_eq_ok.mp rest)
      have nothing : rows.mapM (storedRecord interpreter) =
          .ok (([] : List CheckedRecord).map stored) := mapped
      obtain ⟨rfl, _⟩ := mapM_storedRecord.mp nothing
      exact ⟨[], Nat.zero_le _, List.forall_mem_nil _, rfl, List.Forall₂.nil, rfl, rfl⟩
    · rename_i last claim ends
      obtain ⟨⟨claimed, checked⟩, verified, rest⟩ := bind_eq_ok.mp rest
      obtain ⟨hashes, rest⟩ := guarded_eq_ok.mp rest
      obtain ⟨rfl, rfl⟩ := Prod.mk.inj (pure_eq_ok.mp rest)
      obtain ⟨_, events, whole', rfl, items⟩ := verifyChain_eq_ok.mp verified
      obtain rfl : read = (recordsFrom 0 emptyHash events).map stored :=
        List.map_injective_iff.mpr stored_toItem_injective (items.trans (map_stored_toItem _).symm)
      obtain ⟨rfl, storable⟩ := mapM_storedRecord.mp mapped
      rw [List.length_map, length_recordsFrom] at whole few
      obtain ⟨bound, firsts⟩ := binds_of_storedHeads whole loaded
        ((not_not.mp hashes).trans (map_stored_recordHash _))
      refine ⟨events, few, ?_, rfl, bound, rfl, ?_⟩
      · intro event member
        rw [← map_event_recordsFrom 0 emptyHash events] at member
        obtain ⟨record, inside, rfl⟩ := List.mem_map.mp member
        exact storable record inside
      · have lasts := congrArg List.getLast? firsts
        rwa [List.getLast?_map, List.getLast?_map, ends] at lasts
  · rintro ⟨events, few, storable, rfl, bound, rfl, rfl⟩
    obtain ⟨heads, loaded, firsts, hashes⟩ := storedHeads_of_binds bound
    have length := bound.length_eq
    rw [length_recordsFrom] at length
    have mapped : ((recordsFrom 0 emptyHash events).map chainRow).mapM (storedRecord interpreter) =
        .ok ((recordsFrom 0 emptyHash events).map stored) := by
      refine mapM_storedRecord.mpr ⟨rfl, fun record inside => storable _ ?_⟩
      rw [← map_event_recordsFrom 0 emptyHash events]
      exact List.mem_map_of_mem inside
    refine ⟨⟨?_, ?_⟩, _, mapped, ?_, heads, loaded, ?_⟩
    · rwa [List.length_map, length_recordsFrom]
    · rwa [length]
    · rw [List.length_map, length_recordsFrom, length]
    · have lasts := congrArg List.getLast? firsts
      rw [List.getLast?_map, List.getLast?_map] at lasts
      cases ends : heads.getLast? with
      | none =>
          rw [ends] at lasts
          obtain rfl := List.getLast?_eq_none_iff.mp ends
          obtain rfl := List.length_eq_zero_iff.mp ((List.length_map ..).symm.trans
            ((congrArg List.length firsts).symm))
          obtain rfl := List.length_eq_zero_iff.mp length.symm
          rfl
      | some last =>
          obtain ⟨head, claim⟩ := last
          rw [ends, Option.map_some] at lasts
          obtain ⟨row, final, same⟩ := Option.map_eq_some_iff.mp lasts.symm
          obtain rfl : headOf row = head := same
          obtain ⟨claimed, verified, chain⟩ := last_verified bound final
          refine bind_eq_ok.mpr ⟨(claimed, recordsFrom 0 emptyHash events), ?_, ?_⟩
          · rw [map_stored_toItem]
            exact verifyChain_eq_ok.mpr ⟨verified, events, chain, rfl, rfl⟩
          · refine guarded_eq_ok.mpr ⟨not_not.mpr (hashes.trans (map_stored_recordHash _).symm), ?_⟩
            rw [pure_eq_ok, ← lasts]

end Rows

section Tables

variable {interpreter : Interpreter} {verifier : AuditVerifier} {tables : Tables}

def sortedChain (tables : Tables) : List ChainRow :=
  tables.chain.mergeSort fun row other => row.index ≤ other.index

def sortedHeads (tables : Tables) : List HeadRow :=
  tables.heads.mergeSort fun row other => row.count ≤ other.count

/-- The tables hold the chain of some events and a head for each of its records. -/
structure Holds (verifier : AuditVerifier) (tables : Tables) (events : List AuditEvent) : Prop where
  storable : ∀ event ∈ events, Storable event
  chain_eq : sortedChain tables = (recordsFrom 0 emptyHash events).map chainRow
  binds : List.Forall₂ (Binds verifier) (sortedHeads tables) (recordsFrom 0 emptyHash events)
  length_le : events.length ≤ maxStoredRecords
  bytes_le : eventBytes tables ≤ maxRequestBytes

theorem holds_empty (verifier : AuditVerifier) : Holds verifier ⟨[], []⟩ [] where
  storable := List.forall_mem_nil _
  chain_eq := by rw [sortedChain, List.mergeSort_nil]; rfl
  binds := by rw [sortedHeads, List.mergeSort_nil]; exact List.Forall₂.nil
  length_le := Nat.zero_le _
  bytes_le := Nat.zero_le _

theorem Holds.length_chain {events : List AuditEvent} (holds : Holds verifier tables events) :
    tables.chain.length = events.length := by
  have length := congrArg List.length holds.chain_eq
  rwa [sortedChain, List.length_mergeSort, List.length_map, length_recordsFrom] at length

theorem Holds.length_heads {events : List AuditEvent} (holds : Holds verifier tables events) :
    tables.heads.length = events.length := by
  have length := holds.binds.length_eq
  rwa [sortedHeads, List.length_mergeSort, length_recordsFrom] at length

theorem largestEvent_le {bound : Nat} :
    largestEvent tables ≤ bound ↔ ∀ row ∈ tables.chain, row.event.length ≤ bound := by
  rw [largestEvent]
  induction tables.chain with
  | nil => simp
  | cons row rows ih => simp [ih]

theorem Holds.largestEvent_le {events : List AuditEvent} (holds : Holds verifier tables events) :
    largestEvent tables ≤ maxEventBytes := by
  refine AuditStore.largestEvent_le.mpr fun row member => ?_
  have sorted : row ∈ sortedChain tables := List.mem_mergeSort.mpr member
  rw [holds.chain_eq] at sorted
  obtain ⟨record, inside, rfl⟩ := List.mem_map.mp sorted
  have event : record.event ∈ events := by
    rw [← map_event_recordsFrom 0 emptyHash events]
    exact List.mem_map_of_mem inside
  exact (holds.storable _ event).2

/-- The tables are read exactly when they hold a chain, and its records are read. -/
theorem read_eq_ok {head : Option AuditHead} {records : List CheckedRecord} :
    read interpreter verifier tables = .ok (head, records) ↔
      ∃ events, Holds verifier tables events ∧ records = recordsFrom 0 emptyHash events ∧
        head = (sortedHeads tables).getLast?.map headOf := by
  simp only [read, guarded_eq_ok, not_or, not_lt, not_not]
  have chainWhole : tables.chain.length ≤ maxStoredRecords → chainRows tables = sortedChain tables := by
    intro short
    refine List.take_of_length_le ?_
    rw [List.length_mergeSort]
    omega
  have headsWhole : tables.heads.length ≤ maxStoredRecords → headRows tables = sortedHeads tables := by
    intro short
    refine List.take_of_length_le ?_
    rw [List.length_mergeSort]
    omega
  constructor
  · rintro ⟨⟨few, few'⟩, _, bytes, _, snapshot⟩
    rw [chainWhole few, headsWhole few'] at snapshot
    obtain ⟨events, _, storable, rows, bound, rfl, rfl⟩ := storedSnapshot_eq_ok.mp snapshot
    have length := congrArg List.length rows
    rw [sortedChain, List.length_mergeSort, List.length_map, length_recordsFrom] at length
    exact ⟨events, ⟨storable, rows, bound, by omega, bytes⟩, rfl, rfl⟩
  · rintro ⟨events, holds, rfl, rfl⟩
    have few := holds.length_chain.trans_le holds.length_le
    have few' := holds.length_heads.trans_le holds.length_le
    refine ⟨⟨few, few'⟩, holds.largestEvent_le, holds.bytes_le,
      holds.length_chain.trans holds.length_heads.symm, ?_⟩
    rw [chainWhole few, headsWhole few']
    exact storedSnapshot_eq_ok.mpr ⟨events, holds.length_le.trans (Nat.min_le_left _ _),
      holds.storable, holds.chain_eq, holds.binds, rfl, rfl⟩

end Tables

section Append

variable {verifier : AuditVerifier} {tables : Tables} {events : List AuditEvent}

/-- A row with the largest key of a table comes last. -/
theorem mergeSort_append_singleton {Row : Type} (key : Row → Int) {rows : List Row} {row : Row}
    (distinct : (rows.map key).Nodup) (above : ∀ other ∈ rows, key other < key row) :
    (rows ++ [row]).mergeSort (fun first second => key first ≤ key second) =
      rows.mergeSort (fun first second => key first ≤ key second) ++ [row] := by
  have sorted : ∀ list : List Row,
      (list.mergeSort fun first second => key first ≤ key second).Pairwise
        fun first second => decide (key first ≤ key second) = true := by
    refine List.pairwise_mergeSort (fun first second third before after => ?_)
      fun first second => ?_
    · rw [decide_eq_true_eq] at before after ⊢
      exact before.trans after
    · rw [Bool.or_eq_true, decide_eq_true_eq, decide_eq_true_eq]
      exact le_total _ _
  have extended : ((rows ++ [row]).map key).Nodup := by
    rw [List.map_append, List.map_singleton, List.nodup_append]
    refine ⟨distinct, List.nodup_singleton _, ?_⟩
    intro value member other single same
    obtain ⟨old, inside, rfl⟩ := List.mem_map.mp member
    rw [List.mem_singleton] at single
    have less := above old inside
    omega
  have perm : (rows.mergeSort (fun first second => key first ≤ key second) ++ [row]).Perm
      (rows ++ [row]) := (List.mergeSort_perm _ _).append_right _
  refine List.Perm.eq_of_pairwise ?_ (sorted _) ?_ ((List.mergeSort_perm _ _).trans perm.symm)
  · intro first second inside inside' before after
    rw [decide_eq_true_eq] at before after
    exact List.inj_on_of_nodup_map extended (List.mem_mergeSort.mp inside)
      (perm.mem_iff.mp inside') (le_antisymm before after)
  · rw [List.pairwise_append]
    refine ⟨sorted rows, List.pairwise_singleton _ _, fun other inside last single => ?_⟩
    rw [List.mem_singleton] at single
    rw [single, decide_eq_true_eq]
    exact (above other (List.mem_mergeSort.mp inside)).le

theorem index_recordsFrom (position : Nat) (previous : Digest) (events : List AuditEvent) :
    (recordsFrom position previous events).map CheckedRecord.index =
      (List.range' position events.length).map Int.ofNat := by
  induction events generalizing position previous with
  | nil => rfl
  | cons event events ih =>
      rw [recordsFrom, List.map_cons, ih, List.length_cons, List.range'_succ, List.map_cons]
      rfl

theorem Binds.count_eq {row : HeadRow} {record : CheckedRecord} (bound : Binds verifier row record) :
    row.count = record.index + 1 := by
  obtain ⟨claimed, verified, counted, _⟩ := bound.verified
  obtain ⟨signature, same, _⟩ := verifyHead_eq_ok.mp verified
  have count : row.count = claimed.count := by
    simpa [headOf] using congrArg AuditHead.count (Option.some.inj same)
  exact count.trans counted

/-- The indices of the stored rows are the first numbers, in some order. -/
theorem Holds.index_perm (holds : Holds verifier tables events) :
    (tables.chain.map ChainRow.index).Perm ((List.range' 0 events.length).map Int.ofNat) := by
  have sorted : (sortedChain tables).map ChainRow.index =
      (List.range' 0 events.length).map Int.ofNat := by
    rw [holds.chain_eq, List.map_map, ← index_recordsFrom 0 emptyHash]
    rfl
  rw [← sorted]
  exact ((List.mergeSort_perm _ _).map _).symm

theorem Holds.count_perm (holds : Holds verifier tables events) :
    (tables.heads.map HeadRow.count).Perm
      ((List.range' 0 events.length).map fun index => Int.ofNat index + 1) := by
  have counts : ∀ {rows : List HeadRow} {records : List CheckedRecord},
      List.Forall₂ (Binds verifier) rows records →
        rows.map HeadRow.count = records.map fun record => record.index + 1 := by
    intro rows records bound
    induction bound with
    | nil => rfl
    | cons first _ ih => rw [List.map_cons, List.map_cons, first.count_eq, ih]
  have sorted : (sortedHeads tables).map HeadRow.count =
      (List.range' 0 events.length).map fun index => Int.ofNat index + 1 := by
    have indices := congrArg (List.map (· + 1)) (index_recordsFrom 0 emptyHash events)
    rw [List.map_map, List.map_map] at indices
    exact (counts holds.binds).trans indices
  rw [← sorted]
  exact ((List.mergeSort_perm _ _).map _).symm

theorem Holds.sortedHeads_append (holds : Holds verifier tables events) (chain : List ChainRow)
    {row : HeadRow} (next : row.count = events.length + 1) :
    sortedHeads ⟨chain, tables.heads ++ [row]⟩ = sortedHeads tables ++ [row] := by
  rw [sortedHeads, mergeSort_append_singleton HeadRow.count, sortedHeads]
  · refine holds.count_perm.nodup_iff.mpr ((List.nodup_range' ..).map fun _ _ same => ?_)
    exact Int.ofNat.inj (add_right_cancel same)
  · intro other member
    obtain ⟨position, inside, same⟩ := List.mem_map.mp
      (holds.count_perm.mem_iff.mp (List.mem_map_of_mem member))
    have below := (List.mem_range'_1.mp inside).2
    rw [next, ← same]
    exact Int.add_lt_add_right (Int.ofNat_lt.mpr (by omega)) 1

theorem recordsFrom_concat (events : List AuditEvent) (event : AuditEvent) :
    recordsFrom 0 emptyHash (events ++ [event]) =
      recordsFrom 0 emptyHash events ++ [nextRecord (recordsFrom 0 emptyHash events) event] :=
  (append_recordsFrom events event).symm

theorem Holds.eventBytes_eq (holds : Holds verifier tables events) :
    eventBytes tables = (events.map fun event => event.toBytes.length).sum := by
  have sorted : ((sortedChain tables).map fun row => row.event.length).sum = eventBytes tables :=
    ((List.mergeSort_perm _ _).map _).sum_eq
  rw [← sorted, holds.chain_eq, List.map_map]
  conv_rhs => rw [← map_event_recordsFrom 0 emptyHash events, List.map_map]
  rfl

theorem eventBytes_append (tables : Tables) (row : ChainRow) (heads : List HeadRow) :
    eventBytes ⟨tables.chain ++ [row], heads⟩ = eventBytes tables + row.event.length := by
  rw [eventBytes, List.map_append, List.map_singleton, List.sum_append, List.sum_singleton,
    eventBytes]

/-- One more record and its head are read back as the longer chain. -/
theorem Holds.append (holds : Holds verifier tables events) {event : AuditEvent} {row : HeadRow}
    (storable : Storable event)
    (bound : Binds verifier row (nextRecord (recordsFrom 0 emptyHash events) event))
    (few : events.length + 1 ≤ maxStoredRecords)
    (bytes : eventBytes tables + event.toBytes.length ≤ maxRequestBytes) :
    Holds verifier ⟨tables.chain ++ [chainRow (nextRecord (recordsFrom 0 emptyHash events) event)],
      tables.heads ++ [row]⟩ (events ++ [event]) := by
  have next := recordsFrom_concat events event
  have index : (nextRecord (recordsFrom 0 emptyHash events) event).index = events.length := by
    rw [nextRecord, length_recordsFrom]
  refine ⟨?_, ?_, ?_, ?_, ?_⟩
  · intro other member
    rcases List.mem_append.mp member with inside | single
    · exact holds.storable other inside
    · rwa [List.mem_singleton.mp single]
  · rw [sortedChain, mergeSort_append_singleton ChainRow.index, next, List.map_append,
      ← holds.chain_eq]
    · rfl
    · exact holds.index_perm.nodup_iff.mpr
        ((List.nodup_range' ..).map (fun _ _ same => Int.ofNat.inj same))
    · intro other member
      obtain ⟨position, inside, same⟩ := List.mem_map.mp
        (holds.index_perm.mem_iff.mp (List.mem_map_of_mem member))
      have below := (List.mem_range'_1.mp inside).2
      have here : (chainRow (nextRecord (recordsFrom 0 emptyHash events) event)).index =
        events.length := index
      rw [here, ← same]
      exact Int.ofNat_lt.mpr (by omega)
  · rw [holds.sortedHeads_append _ (bound.count_eq.trans (congrArg (· + 1) index)), next]
    exact List.rel_append holds.binds (List.Forall₂.cons bound List.Forall₂.nil)
  · rw [List.length_append, List.length_singleton]
    exact few
  · exact (eventBytes_append tables _ _).trans_le bytes

end Append

end AuditStore

end GeniusNew
