import GeniusNew.Audit.Restart

/-! # What comes back from the database

Events appended one by one to empty tables are read back as the chain that an
`AuditChain` in memory would hold for them. An event is stored as its canonical
text, and a surrogate pair that an identifier holds as two code points comes back
from there joined to one.
-/

namespace GeniusNew

open Json

namespace AuditStore

open AnchorProcess

variable {interpreter : Interpreter} {authority : AuditAuthority} {tables : Tables}

/-- Appends one after the other, with the records they return. -/
def appendAll (interpreter : Interpreter) (authority : AuditAuthority) :
    List AuditEvent → Tables → Outcome (List CheckedRecord × Tables)
  | [], tables => .ok ([], tables)
  | event :: events, tables => do
      let (record, tables) ← append interpreter authority event tables
      let (records, tables) ← appendAll interpreter authority events tables
      return (record :: records, tables)

theorem appended_eq_recordsFrom (events : List AuditEvent) :
    AuditChain.appended events = recordsFrom 0 emptyHash events := by
  induction events using List.reverseRecOn with
  | nil => rfl
  | append_singleton events event ih =>
      rw [AuditChain.appended, List.foldl_append, List.foldl_cons, List.foldl_nil,
        ← AuditChain.appended, ih, append_recordsFrom]

theorem Holds.unique {first second : List AuditEvent} {verifier : AuditVerifier}
    (one : Holds verifier tables first) (two : Holds verifier tables second) : first = second := by
  have left : read literalInterpreter verifier tables =
      .ok (_, recordsFrom 0 emptyHash first) := read_eq_ok.mpr ⟨first, one, rfl, rfl⟩
  have right : read literalInterpreter verifier tables =
      .ok (_, recordsFrom 0 emptyHash second) := read_eq_ok.mpr ⟨second, two, rfl, rfl⟩
  have records : recordsFrom 0 emptyHash first = recordsFrom 0 emptyHash second :=
    congrArg Prod.snd (Except.ok.inj (left.symm.trans right))
  rw [← map_event_recordsFrom 0 emptyHash first, ← map_event_recordsFrom 0 emptyHash second, records]

theorem lastHash_map_joined (base : Digest) (records : List CheckedRecord) :
    lastHash base (records.map joinedRecord) = lastHash base records := by
  rw [lastHash, List.getLast?_map, Option.map_map]
  rfl

theorem nextRecord_map_joined (records : List CheckedRecord) (event : AuditEvent) :
    nextRecord (records.map joinedRecord) event = nextRecord records event := by
  rw [nextRecord, lastHash_map_joined, List.length_map]
  rfl

/-- The tables after some appends: the chain they hold, and the head they end
with. -/
structure Grown (authority : AuditAuthority) (tables : Tables) (events : List AuditEvent) :
    Prop where
  holds : Holds authority.verifier tables (events.map AuditEvent.joined)
  last : events ≠ [] → ∃ head,
    AuditChain.snapshot authority (recordsFrom 0 emptyHash events) =
        .ok (head, recordsFrom 0 emptyHash events) ∧
      (sortedHeads tables).getLast?.map headOf = some head

theorem grown_empty (authority : AuditAuthority) : Grown authority ⟨[], []⟩ [] :=
  ⟨holds_empty _, fun nonempty => (nonempty rfl).elim⟩

theorem snapshot_concat {events : List AuditEvent} {event : AuditEvent}
    (small : events.length + 1 ≤ maxCount) :
    AuditChain.snapshot authority (recordsFrom 0 emptyHash (events ++ [event])) =
      .ok (authority.signed (grownTo events event small),
        recordsFrom 0 emptyHash (events ++ [event])) := by
  have hash : lastHash emptyHash (recordsFrom 0 emptyHash (events ++ [event])) =
      (nextRecord (recordsFrom 0 emptyHash events) event).recordHash := by
    rw [recordsFrom_concat, lastHash, List.getLast?_concat]
    rfl
  have length : (recordsFrom 0 emptyHash (events ++ [event])).length = events.length + 1 := by
    rw [length_recordsFrom, List.length_append, List.length_singleton]
  have counted : count (.int (events.length + 1 : Nat)) "count" = .ok ⟨events.length + 1, small⟩ :=
    count_eq_ok.mpr rfl
  rw [AuditChain.snapshot, signHead, hash, length, counted]
  rfl

theorem Grown.append {events : List AuditEvent} {event : AuditEvent} {record : CheckedRecord}
    {after : Tables} (grown : Grown authority tables events)
    (accepted : append interpreter authority event tables = .ok (record, after)) :
    record = nextRecord (recordsFrom 0 emptyHash events) event ∧
      Grown authority after (events ++ [event]) := by
  obtain ⟨before, small, holds, linked, longer, last, _⟩ := holds_after_append accepted
  obtain rfl := grown.holds.unique holds
  have short : events.length + 1 ≤ maxCount := by rwa [List.length_map] at small
  have same : nextRecord (recordsFrom 0 emptyHash (events.map AuditEvent.joined)) event =
      nextRecord (recordsFrom 0 emptyHash events) event := by
    rw [recordsFrom_joined, nextRecord_map_joined]
  refine ⟨linked.trans same, ?_, fun _ => ⟨_, snapshot_concat short, ?_⟩⟩
  · rw [List.map_append, List.map_singleton]
    exact longer
  · rw [last]
    have claim : grownTo (events.map AuditEvent.joined) event small = grownTo events event short := by
      refine Committed.ext ?_ (congrArg CheckedRecord.recordHash same)
      exact congrArg (· + 1) (List.length_map _)
    rw [claim]

theorem Grown.appendAll {events more : List AuditEvent} {records : List CheckedRecord}
    {after : Tables} (grown : Grown authority tables events)
    (accepted : appendAll interpreter authority more tables = .ok (records, after)) :
    recordsFrom 0 emptyHash (events ++ more) = recordsFrom 0 emptyHash events ++ records ∧
      Grown authority after (events ++ more) := by
  induction more generalizing events records tables with
  | nil =>
      obtain ⟨rfl, rfl⟩ := Prod.mk.inj (Except.ok.inj accepted)
      rw [List.append_nil, List.append_nil]
      exact ⟨rfl, grown⟩
  | cons event more ih =>
      obtain ⟨⟨record, middle⟩, first, accepted⟩ := bind_eq_ok.mp accepted
      obtain ⟨⟨rest, final⟩, others, ends⟩ := bind_eq_ok.mp accepted
      obtain ⟨rfl, rfl⟩ := Prod.mk.inj (pure_eq_ok.mp ends)
      obtain ⟨rfl, longer⟩ := grown.append first
      obtain ⟨records, finally_⟩ := ih longer others
      rw [List.append_assoc, List.singleton_append] at records finally_
      rw [records, recordsFrom_concat, List.append_assoc, List.singleton_append]
      exact ⟨rfl, finally_⟩

theorem Grown.read {events : List AuditEvent} (grown : Grown authority tables events) :
    read interpreter authority.verifier tables =
      .ok ((sortedHeads tables).getLast?.map headOf,
        (recordsFrom 0 emptyHash events).map joinedRecord) :=
  read_eq_ok.mpr ⟨_, grown.holds, (recordsFrom_joined 0 emptyHash events).symm, rfl⟩

theorem storedSnapshot_of_read {verifier : AuditVerifier} {head : Option AuditHead}
    {records : List CheckedRecord}
    (accepted : AuditStore.read interpreter verifier tables = .ok (head, records)) :
    storedSnapshot interpreter verifier (chainRows tables) (headRows tables) =
      .ok (head, records) := by
  simp only [AuditStore.read, guarded_eq_ok] at accepted
  exact accepted.2.2.2.2

/-- The rows hold the bytes of the events, and each is read as an event with
these bytes. -/
theorem Grown.rows {events : List AuditEvent} (grown : Grown authority tables events) :
    List.Forall₂ (fun event (row : ChainRow) => row.event = event.toBytes ∧
      ∃ read, AuditStore.event interpreter (some row.event) = .ok read ∧
        read.toBytes = row.event) events (chainRows tables) := by
  have whole : chainRows tables = sortedChain tables := by
    have few := grown.holds.length_chain.trans_le grown.holds.length_le
    refine List.take_of_length_le ?_
    rw [List.length_mergeSort]
    omega
  have mapped : (recordsFrom 0 emptyHash (events.map AuditEvent.joined)).map chainRow =
      (recordsFrom 0 emptyHash events).map chainRow := by
    rw [recordsFrom_joined, List.map_map]
    exact List.map_congr_left fun record _ => chainRow_joinedRecord record
  rw [whole, grown.holds.chain_eq, mapped, List.forall₂_map_right_iff]
  have listed := map_event_recordsFrom 0 emptyHash events
  nth_rewrite 1 [← listed]
  rw [List.forall₂_map_left_iff, List.forall₂_same]
  intro record _
  exact ⟨rfl, _, event_toBytes.mpr rfl, toBytes_joined record.event⟩

end AuditStore

open AuditStore AnchorProcess in
/-- Events appended to empty tables come back as the chain an `AuditChain` holds
for them, with the last head and every surrogate pair joined. -/
theorem stored_chain_round_trip (interpreter : Interpreter) (authority : AuditAuthority)
    (events : List AuditEvent) (records : List CheckedRecord) (tables : Tables)
    (accepted : appendAll interpreter authority events ⟨[], []⟩ = .ok (records, tables)) :
    records = AuditChain.appended events ∧
      (∃ head,
        read interpreter authority.verifier tables =
          .ok (head, (AuditChain.appended events).map joinedRecord) ∧
        storedSnapshot interpreter authority.verifier (chainRows tables) (headRows tables) =
          .ok (head, (AuditChain.appended events).map joinedRecord) ∧
        (events = [] → head = none) ∧
        (events ≠ [] → ∃ signed, head = some signed ∧
          AuditChain.snapshot authority (AuditChain.appended events) =
            .ok (signed, AuditChain.appended events))) ∧
      List.Forall₂ (fun event (row : ChainRow) => row.event = event.toBytes ∧
        ∃ read, AuditStore.event interpreter (some row.event) = .ok read ∧
          read.toBytes = row.event) events (chainRows tables) := by
  obtain ⟨linked, grown⟩ := (grown_empty authority).appendAll accepted
  rw [List.nil_append] at linked grown
  rw [appended_eq_recordsFrom]
  refine ⟨linked.symm, ⟨_, grown.read, storedSnapshot_of_read grown.read, ?_, ?_⟩, grown.rows⟩
  · rintro rfl
    have none_left := grown.holds.length_heads
    have empty : sortedHeads tables = [] := by
      rw [List.eq_nil_iff_length_eq_zero, sortedHeads, List.length_mergeSort, none_left]
      rfl
    rw [empty]
    rfl
  · intro nonempty
    obtain ⟨head, signed, last⟩ := grown.last nonempty
    exact ⟨head, last, signed⟩

open AuditStore AnchorProcess in
theorem stored_chain_round_trip_first : ∃ records tables,
    appendAll literalInterpreter digestAuthority [firstIssued] ⟨[], []⟩ = .ok (records, tables) ∧
      records = AuditChain.appended [firstIssued] := by
  have short : firstIssued.toBytes.length ≤ maxEventBytes := by
    rw [AuditEvent.toBytes, length_canonicalBytes, length_dumps_sample]
    decide
  obtain ⟨record, after, accepted⟩ := append_first short
  have appended : appendAll literalInterpreter digestAuthority [firstIssued] ⟨[], []⟩ =
      .ok ([record], after) := bind_eq_ok.mpr ⟨_, accepted, rfl⟩
  exact ⟨_, _, appended, (stored_chain_round_trip literalInterpreter digestAuthority _ _ _
    appended).1⟩

/-- An emoji as the pair of surrogates that encodes it. -/
def pairedIdentifier : Identifier := ⟨[0xd83d, 0xde00], by decide⟩

def pairedEvent : AuditEvent := { issuedAt ⟨1, first_second_occurs⟩ with traceId := pairedIdentifier }

open AuditStore AnchorProcess in
/-- The trace id of an event comes back as another text. -/
theorem stored_pair_comes_back_joined : ∃ records tables head back,
    appendAll literalInterpreter digestAuthority [pairedEvent] ⟨[], []⟩ = .ok (records, tables) ∧
      storedSnapshot literalInterpreter digestAuthority.verifier (chainRows tables)
        (headRows tables) = .ok (head, back) ∧
      back.map (fun record => record.event.toDict) ≠
        (AuditChain.appended [pairedEvent]).map fun record => record.event.toDict := by
  have short : pairedEvent.toBytes.length ≤ maxEventBytes := by
    rw [AuditEvent.toBytes, length_canonicalBytes]
    decide +kernel
  obtain ⟨record, after, accepted⟩ := append_first short
  have appended : appendAll literalInterpreter digestAuthority [pairedEvent] ⟨[], []⟩ =
      .ok ([record], after) := bind_eq_ok.mpr ⟨_, accepted, rfl⟩
  obtain ⟨_, grown⟩ := (grown_empty digestAuthority).appendAll appended
  refine ⟨_, _, _, _, appended, storedSnapshot_of_read grown.read, ?_⟩
  intro same
  have dicts : pairedEvent.joined.toDict = pairedEvent.toDict := List.head_eq_of_cons_eq same
  have texts : some (Value.str [0x1f600]) = some (Value.str [0xd83d, 0xde00]) :=
    congrArg (fun value => value.get? (str "trace_id")) dicts
  cases texts

end GeniusNew
