import GeniusNew.Anchor.Delivered
import GeniusNew.Audit.Refusals

/-! # The out-of-process anchor is the in-process anchor

A commit sent to the anchor process succeeds, refuses and moves the committed
state as the call on the writer's own objects would. A request that does not
come through the encoding is one the in-process anchor refuses as well.
-/

namespace GeniusNew

open Json HashChain

/-- What fails, fails with a `ContractError`. -/
def Refusing {α : Type} (outcome : Outcome α) : Prop :=
  ∀ raised, outcome = .error raised → ∃ message, raised = .contractError message

namespace Refusing

variable {α β : Type}

theorem ok (value : α) : Refusing (.ok value) := fun _ same => nomatch same

theorem pure (value : α) : Refusing (Pure.pure value) := ok value

theorem fail (message : String) : Refusing (GeniusNew.fail message : Outcome α) :=
  fun _ same => ⟨message, (Except.error.inj same).symm⟩

theorem bind {outcome : Outcome α} {next : α → Outcome β} (first : Refusing outcome)
    (second : ∀ value, Refusing (next value)) : Refusing (outcome >>= next) := by
  intro raised same
  cases outcome with
  | error other => exact first raised (congrArg _ (Except.error.inj same))
  | ok value => exact second value raised same

theorem ite {condition : Prop} [Decidable condition] {first second : Outcome α}
    (holds : Refusing first) (fails : Refusing second) :
    Refusing (if condition then first else second) := by
  split_ifs
  · exact holds
  · exact fails

theorem map {outcome : Outcome α} {f : α → β} (first : Refusing outcome) :
    Refusing (outcome.map f) := by
  intro raised same
  cases outcome with
  | error other => exact first raised (congrArg _ (Except.error.inj same))
  | ok value => cases same

end Refusing

section Refusing

theorem RefusesWith.refusing {α : Type} {property : String → Prop} {outcome : Outcome α}
    (refuses : RefusesWith property outcome) : Refusing outcome := fun raised same =>
  let ⟨message, sentence, _⟩ := refuses raised same
  ⟨message, sentence⟩

end Refusing

namespace AnchorProcess

section Requests

/-- Keys that come back from JSON text as they are. -/
structure PlainKeys (wanted : List Str) : Prop where
  nodup : wanted.Nodup
  plain : ∀ key ∈ wanted, joinSurrogates key = key

theorem plain_headKeys : PlainKeys headKeys := ⟨by decide, by decide⟩

theorem plain_recordKeys : PlainKeys recordKeys := ⟨by decide, by decide⟩

theorem plain_commit2Keys : PlainKeys commit2Keys := ⟨by decide, by decide⟩

/-- A received dictionary still has its keys, and each names its decoded value. -/
theorem received_fields (fields : List (Str × Value)) {wanted : List Str}
    (plain : PlainKeys wanted) (named : keys fields = wanted) :
    Value.decoded (.dict fields) = .dict (receivedFields fields) ∧
      hasKeys (receivedFields fields) wanted = true ∧
      ∀ key, (receivedFields fields).lookup key = (fields.lookup key).map Value.decoded := by
  subst named
  exact ⟨Value.decoded_dict_of_keys plain.nodup plain.plain,
    by rw [hasKeys_receivedFields, hasKeys_self], lookup_receivedFields plain.nodup⟩

theorem head_received (sent : AuditHead) :
    head (headDict sent).decoded = .ok (receivedHead sent) := by
  obtain ⟨shape, named, looked⟩ := received_fields (headFields sent) plain_headKeys rfl
  generalize receivedFields _ = message at shape named looked
  have version : message.lookup (str "version") = some sent.version.decoded := looked _
  have counted : message.lookup (str "count") = some sent.count.decoded := looked _
  have hash : message.lookup (str "head_hash") = some sent.headHash.decoded := looked _
  have signature : message.lookup (str "signature") = some sent.signature.decoded := looked _
  rw [headDict, shape]
  simp only [head, named, ↓reduceIte, version, counted, hash, signature, Option.getD_some,
    receivedHead]

theorem record_received {sent : AuditRecord} {dict : Value} (written : sent.toDict = some dict) :
    record dict.decoded = .ok (receivedRecord sent) := by
  obtain ⟨event, carried, rfl⟩ := Option.map_eq_some_iff.mp written
  obtain ⟨shape, named, looked⟩ := received_fields [(str "event", event.toDict),
    (str "index", sent.index), (str "previous_hash", sent.previousHash),
    (str "record_hash", sent.recordHash)] plain_recordKeys rfl
  generalize receivedFields _ = message at shape named looked
  have event' : message.lookup (str "event") = some event.toDict.decoded := looked _
  have index : message.lookup (str "index") = some sent.index.decoded := looked _
  have previous : message.lookup (str "previous_hash") = some sent.previousHash.decoded := looked _
  have hash : message.lookup (str "record_hash") = some sent.recordHash.decoded := looked _
  rw [shape]
  simp only [record, named, ↓reduceIte, event', index, previous, hash, Option.getD_some,
    rehydrateEvent_decoded, bind, Except.bind, receivedRecord, carried, Option.map_some]
  rfl

/-- The records of a request are rebuilt one for one. -/
theorem records_received {chain : List Item} {dicts : List Value}
    (sent : recordDicts chain = .ok dicts) :
    records (Value.decoded (.list dicts)) = .ok (chain.map received) := by
  have listed : chain.mapM Item.toDict = some dicts := by
    cases shape : chain.mapM Item.toDict with
    | none => simp [recordDicts, shape, fail] at sent
    | some found =>
        rw [recordDicts, shape] at sent
        rw [Except.ok.inj sent]
  rw [Value.decoded_list, records]
  have rebuilt : ∀ {chain : List Item} {dicts : List Value}, chain.mapM Item.toDict = some dicts →
      ∃ rebuilt, (dicts.map Value.decoded).mapM record = .ok rebuilt ∧
        rebuilt.map Item.record = chain.map received := by
    intro chain
    induction chain with
    | nil =>
        intro dicts same
        obtain rfl : dicts = [] := by simpa using same.symm
        exact ⟨[], rfl, rfl⟩
    | cons item chain ih =>
        intro dicts same
        rw [List.mapM_cons] at same
        obtain ⟨dict, first, same⟩ := Option.bind_eq_some_iff.mp same
        obtain ⟨others, later, same⟩ := Option.bind_eq_some_iff.mp same
        obtain rfl := Option.some.inj same
        obtain ⟨rest, read, mapped⟩ := ih later
        obtain content | _ := item
        · refine ⟨receivedRecord content :: rest, ?_, by rw [List.map_cons, mapped]; rfl⟩
          rw [List.map_cons, List.mapM_cons, record_received first, read]
          rfl
        · cases first
  obtain ⟨found, read, mapped⟩ := rebuilt listed
  rw [read, ← mapped]
  rfl

theorem isKind_of_lookup {message : List (Str × Value)} {text : Str}
    (found : message.lookup (str "kind") = some (.str text)) (kind : String) :
    isKind message kind = decide (text = str kind) := by
  rw [isKind, found]

def commitFields (sent : AuditHead) (dicts : List Value) : List (Str × Value) :=
  [(str "head", headDict sent), (str "kind", .str (str "commit")), (str "records", .list dicts)]

def commit2Fields (fromCount : Int) (sent : AuditHead) (dicts : List Value) :
    List (Str × Value) :=
  [(str "from_count", .int fromCount), (str "head", headDict sent),
    (str "kind", .str (str "commit2")), (str "records", .list dicts)]

theorem readRequest_commit2 {interpreter : Interpreter} {sent : AuditHead} {chain : List Item}
    {dicts : List Value} {state : Committed} {data : Bytes}
    (rebuilt : recordDicts chain = .ok dicts)
    (encoded : canonical interpreter (.dict (receivedFields (commit2Fields state.count sent dicts)))
      = .ok data) (bounded : data.length ≤ maxDeltaRequestBytes) :
    readRequest interpreter (receivedFields (commit2Fields state.count sent dicts)) state =
      .ok (.commit2 (receivedHead sent) (chain.map received)) := by
  obtain ⟨_, named, looked⟩ := received_fields (commit2Fields state.count sent dicts)
    plain_commit2Keys rfl
  generalize receivedFields _ = message at named looked encoded
  have from' : message.lookup (str "from_count") = some (.int state.count) := looked _
  have head' : message.lookup (str "head") = some (headDict sent).decoded := looked _
  have records' : message.lookup (str "records") = some (Value.decoded (.list dicts)) := looked _
  have kind : message.lookup (str "kind") = some (.str (str "commit2")) := looked _
  have first : isKind message "committed" = false := isKind_of_lookup kind _
  have second : isKind message "commit2" = true := isKind_of_lookup kind _
  have within : count (.int state.count) "from_count" = .ok ⟨state.count, state.count_le⟩ :=
    count_eq_ok.mpr rfl
  have small : ¬ data.length > maxDeltaRequestBytes := not_lt.mpr bounded
  simp only [readRequest, first, second, named, Bool.false_and, Bool.false_eq_true, Bool.true_and,
    ↓reduceIte, encoded, small, from', head', records', Option.getD_some, head_received, within,
    records_received rebuilt, bind, Except.bind, ne_eq, not_true_eq_false]
  rfl

theorem tidy_of_fields {fields : List (Str × Value)} {wanted : List Str}
    (plain : PlainKeys wanted) (named : keys fields = wanted)
    (neat : ∀ field ∈ fields, field.2.tidy = true) : (Value.dict fields).tidy = true := by
  subst named
  exact Value.tidy_dict.mpr ⟨plain.nodup, plain.plain, neat⟩

theorem tidy_toDict (event : AuditEvent) : event.toDict.tidy = true := by
  refine Value.tidy_dict.mpr ⟨event.keys_fields_nodup, event.keys_fields_plain,
    fun field member => ?_⟩
  rcases fields_scalar event field member with ⟨text, same⟩ | ⟨number, same⟩ | same <;>
    (rw [same]; rfl)

/-- The dictionary of a checked record. -/
def recordDict (record : CheckedRecord) : Value :=
  .dict [(str "event", record.event.toDict), (str "index", .int record.index),
    (str "previous_hash", .str record.previousHash.val),
    (str "record_hash", .str record.recordHash.val)]

theorem recordDicts_toItem (records : List CheckedRecord) :
    recordDicts (records.map CheckedRecord.toItem) = .ok (records.map recordDict) := by
  have listed : (records.map CheckedRecord.toItem).mapM Item.toDict =
      some (records.map recordDict) := by
    induction records with
    | nil => rfl
    | cons record records ih =>
        rw [List.map_cons, List.mapM_cons, ih]
        rfl
  rw [recordDicts, listed]

/-- The dictionaries of a chain come back intact. -/
theorem tidy_recordDicts (records : List CheckedRecord) :
    (Value.list (records.map recordDict)).tidy = true := by
  refine Value.tidyItems_iff.mpr fun dict member => ?_
  obtain ⟨record, _, rfl⟩ := List.mem_map.mp member
  refine tidy_of_fields plain_recordKeys rfl fun field inside => ?_
  simp only [List.mem_cons, List.not_mem_nil, or_false] at inside
  rcases inside with rfl | rfl | rfl | rfl
  · exact tidy_toDict record.event
  · rfl
  · rfl
  · rfl

theorem tidy_headDict {verifier : AuditVerifier} {sent : AuditHead} {claimed : Committed}
    (verified : verifyHead verifier (some sent) = .ok claimed) : (headDict sent).tidy = true := by
  obtain ⟨signature, same, _⟩ := verifyHead_eq_ok.mp verified
  obtain rfl := Option.some.inj same
  refine tidy_of_fields plain_headKeys rfl fun field inside => ?_
  simp only [headFields, List.mem_cons, List.not_mem_nil, or_false] at inside
  rcases inside with rfl | rfl | rfl | rfl <;> rfl

end Requests

/-- A call through the process agrees with the call itself: both return, and the
reply names the state returned, or both refuse; and they leave one state. -/
def Agrees (remote : Option (Outcome Value) × Committed) (call : Outcome Committed × Committed) :
    Prop :=
  remote.2 = call.2 ∧
    ((∃ result, call.1 = .ok result ∧ remote.1 = some (.ok (committed result))) ∨
      ∃ message message', call.1 = .error (.contractError message) ∧
        remote.1 = some (.error (.contractError message')))

section Agreement

variable {state : Committed} {outcome outcome' : Outcome Committed}

end Agreement

section Exchange

variable {interpreter : Interpreter} {verifier : AuditVerifier} {state : Committed}

theorem commitRequest_eq_ok {sent : AuditHead} {items : List Item} {request : Value} :
    commitRequest (some sent) items = .ok request ↔ ∃ claimed dicts,
      count sent.count "head.count" = .ok claimed ∧
      recordDicts (items.take (claimed.val + 1)) = .ok dicts ∧
      .dict (commitFields sent dicts) = request := by
  simp only [commitRequest, bind_eq_ok, pure_eq_ok, commitFields]
  constructor
  · rintro ⟨claimed, counted, dicts, rebuilt, same⟩
    exact ⟨claimed, dicts, counted, rebuilt, same⟩
  · rintro ⟨claimed, dicts, counted, rebuilt, same⟩
    exact ⟨claimed, counted, dicts, rebuilt, same⟩

end Exchange

end AnchorProcess

section Instance

end Instance

end GeniusNew
