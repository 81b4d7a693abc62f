import GeniusNew.Anchor.Process
import GeniusNew.Audit.Incremental

/-! # What arrives at the anchor process

A request that fits its frame arrives with every value decoded. What the process
rebuilds from it are the writer's head and records with their surrogate pairs
joined (`received`), and a chain of such records is accepted exactly when the
writer's own chain is.
-/

namespace GeniusNew

open Json HashChain

namespace AnchorProcess

section Frame

theorem toNat_ofNat_mod (n : Nat) : (UInt8.ofNat n).toNat = n % 256 := UInt8.toNat_ofNat'

/-- The four bytes of a header stand for the size they were made of. -/
theorem size_of_header {size : Nat} (small : size < 2 ^ 32) :
    (UInt8.ofNat (size / 2 ^ 24)).toNat * 2 ^ 24 + (UInt8.ofNat (size / 2 ^ 16)).toNat * 2 ^ 16 +
      (UInt8.ofNat (size / 2 ^ 8)).toNat * 2 ^ 8 + (UInt8.ofNat size).toNat = size := by
  simp only [toNat_ofNat_mod]
  omega

/-- A frame within the bound is read back whole. -/
theorem readFrame_frameHeader {data : Bytes} (bounded : data.length ≤ maxRequestBytes) :
    readFrame (frameHeader data.length ++ data) = some (data, []) := by
  have size := size_of_header (Nat.lt_of_le_of_lt bounded (by decide : maxRequestBytes < 2 ^ 32))
  simp only [frameHeader, List.cons_append, List.nil_append, readFrame, size]
  rw [if_neg (not_lt.mpr bounded), if_neg (lt_irrefl _), List.take_length, List.drop_length]

theorem canonical_decoded {interpreter : Interpreter} {value : Value} {data : Bytes}
    (encoded : canonical interpreter value = .ok data) :
    canonical interpreter value.decoded = .ok (canonicalBytes value.decoded) := by
  obtain ⟨shallow, printed, _⟩ := canonical_eq_ok.mp encoded
  exact canonical_eq_ok.mpr
    ⟨(Value.depth_decoded_le value).trans shallow, Value.printable_decoded printed, rfl⟩

/-- The decoded fields of a dictionary whose keys are plain and distinct. -/
def receivedFields (fields : List (Str × Value)) : List (Str × Value) :=
  (sortKeys fields).map fun field => (field.1, field.2.decoded)

/-- Decoding a canonical text gives the decoded dictionary, if that has the same
text again. -/
theorem decode_canonical {interpreter : Interpreter} {fields : List (Str × Value)} {data : Bytes}
    {noun : String} (distinct : (keys fields).Nodup)
    (plain : ∀ key ∈ keys fields, joinSurrogates key = key)
    (encoded : canonical interpreter (.dict fields) = .ok data) :
    decode interpreter data noun =
      if canonicalBytes (Value.decoded (.dict fields)) ≠ canonicalBytes (.dict fields) then
        fail (noun ++ " is not canonical JSON")
      else .ok (receivedFields fields) := by
  have again := canonical_decoded encoded
  obtain ⟨shallow, printed, rfl⟩ := canonical_eq_ok.mp encoded
  have shape := Value.decoded_dict_of_keys distinct plain
  have read : loads interpreter (dumps (.dict fields)) = .ok (Value.decoded (.dict fields)) :=
    loads_dumps interpreter shallow printed
  rw [shape] at again read ⊢
  simp only [decode, decodeAscii_canonicalBytes, Option.bind_some, read, Except.toOption, again,
    bind, Except.bind]
  rfl

/-- A tidy dictionary is decoded from its canonical text. -/
theorem decode_of_tidy {interpreter : Interpreter} {fields : List (Str × Value)} {data : Bytes}
    {noun : String} (neat : (Value.dict fields).tidy = true)
    (encoded : canonical interpreter (.dict fields) = .ok data) :
    decode interpreter data noun = .ok (receivedFields fields) := by
  obtain ⟨distinct, plain, _⟩ := Value.tidy_dict.mp neat
  rw [decode_canonical distinct plain encoded]
  exact if_neg (not_not.mpr (congrArg asciiBytes (Value.dumps_decoded neat)))

/-- What decodes has every key once and is its own canonical text. -/
theorem decode_eq_ok {interpreter : Interpreter} {data : Bytes} {noun : String}
    {fields : List (Str × Value)} (decoded : decode interpreter data noun = .ok fields) :
    (keys fields).Nodup ∧ canonical interpreter (.dict fields) = .ok data := by
  simp only [decode] at decoded
  split at decoded
  · rename_i found loaded
    obtain ⟨text, _, parsed⟩ := Option.bind_eq_some_iff.mp loaded
    obtain ⟨encoded, canonicalized, checked⟩ := bind_eq_ok.mp decoded
    obtain ⟨same, kept⟩ := guarded_eq_ok.mp checked
    obtain rfl := pure_eq_ok.mp kept
    rw [not_not.mp same] at canonicalized
    refine ⟨?_, canonicalized⟩
    cases read : loads interpreter text with
    | error raised => rw [read] at parsed; cases parsed
    | ok value =>
        rw [read] at parsed
        obtain rfl : value = .dict found := Option.some.inj parsed
        exact nodup_of_loads read
  · exact (fail_ne_ok decoded).elim

theorem frame_eq_ok {interpreter : Interpreter} {message : Value} {limit : Nat} {sent : Bytes} :
    frame interpreter message limit = .ok sent ↔ ∃ data, canonical interpreter message = .ok data ∧
      data.length ≤ limit ∧ frameHeader data.length ++ data = sent := by
  simp only [frame, bind_eq_ok, guarded_eq_ok, pure_eq_ok, not_lt]

theorem lookup_receivedFields {fields : List (Str × Value)} (distinct : (keys fields).Nodup)
    (key : Str) :
    (receivedFields fields).lookup key = (fields.lookup key).map Value.decoded :=
  lookup_map_sortKeys Value.decoded distinct key

theorem hasKeys_receivedFields (fields : List (Str × Value)) (wanted : List Str) :
    hasKeys (receivedFields fields) wanted = hasKeys fields wanted :=
  hasKeys_map_sortKeys Value.decoded fields wanted

end Frame

section Rebuilt

theorem joinSurrogates_eq_of_plane {text : Str} (plane : ∀ c ∈ joinSurrogates text, c.val < 0x10000) :
    joinSurrogates text = text := by
  induction text using joinSurrogates.induct with
  | case1 => rfl
  | case2 c => rfl
  | case3 high low rest pair ih =>
      rw [joinSurrogates, if_pos pair] at plane
      have bound := plane _ List.mem_cons_self
      simp only [isHighSurrogate, isLowSurrogate, Bool.and_eq_true, decide_eq_true_eq] at pair
      rw [Fin.val_ofNat] at bound
      omega
  | case4 high low rest pair ih =>
      rw [joinSurrogates, if_neg pair] at plane ⊢
      rw [ih fun c member => plane c (List.mem_cons_of_mem _ member)]

theorem decoded_eq_int {value : Value} {number : Int} : value.decoded = .int number ↔
    value = .int number := by
  cases value with
  | int other => rfl
  | list items => simp
  | dict fields => simp [Value.decoded_dict]
  | _ => simp

/-- Only a text itself comes back as a text without pairs. -/
theorem decoded_eq_str {value : Value} {text : Str} (plane : ∀ c ∈ text, c.val < 0xd800) :
    value.decoded = .str text ↔ value = .str text := by
  cases value with
  | str other =>
      rw [Value.decoded_str, Value.str.injEq, Value.str.injEq]
      constructor
      · rintro rfl
        exact (joinSurrogates_eq_of_plane fun c member => (plane c member).trans (by decide)).symm
      · rintro rfl
        exact joinSurrogates_of_ascii plane
  | list items => simp
  | dict fields => simp [Value.decoded_dict]
  | _ => simp

theorem plane_of_isHexText {count : Nat} {text : Str} (accepted : isHexText count text = true) :
    ∀ c ∈ text, c.val < 0xd800 := by
  intro c member
  simp only [isHexText, Bool.and_eq_true, List.all_eq_true] at accepted
  have digit := accepted.2 c member
  simp only [isLowerHex, isDigit, Bool.or_eq_true, Bool.and_eq_true, decide_eq_true_eq] at digit
  omega

theorem plane_headVersion : ∀ c ∈ headVersion, c.val < 0xd800 := by
  have plain : headVersion.all (fun c => c.val < 0xd800) = true := by decide
  intro c member
  exact of_decide_eq_true (List.all_eq_true.mp plain c member)

def receivedHead (head : AuditHead) : AuditHead where
  version := head.version.decoded
  count := head.count.decoded
  headHash := head.headHash.decoded
  signature := head.signature.decoded

def receivedRecord (record : AuditRecord) : AuditRecord where
  index := record.index.decoded
  event := record.event.map AuditEvent.joined
  previousHash := record.previousHash.decoded
  recordHash := record.recordHash.decoded

def received : Item → Item
  | .record content => .record (receivedRecord content)
  | .other => .other

theorem receivedHead_eq {head : AuditHead} {claimed : Committed} {signature : Str}
    (hexadecimal : isHexText 128 signature = true) :
    receivedHead head = ⟨.str headVersion, .int claimed.count, .str claimed.headHash.val,
      .str signature⟩ ↔ head = ⟨.str headVersion, .int claimed.count,
        .str claimed.headHash.val, .str signature⟩ := by
  obtain ⟨version, counted, hash, signed⟩ := head
  simp only [receivedHead, AuditHead.mk.injEq, decoded_eq_int, decoded_eq_str plane_headVersion,
    decoded_eq_str (plane_of_isHexText claimed.headHash.property),
    decoded_eq_str (plane_of_isHexText hexadecimal)]

/-- A head verifies at the process exactly when it verifies at the writer. -/
theorem verifyHead_received {verifier : AuditVerifier} {head : AuditHead} {claimed : Committed} :
    verifyHead verifier (some (receivedHead head)) = .ok claimed ↔
      verifyHead verifier (some head) = .ok claimed := by
  rw [verifyHead_eq_ok, verifyHead_eq_ok]
  refine exists_congr fun signature => ?_
  rw [Option.some.injEq, Option.some.injEq]
  constructor
  · rintro ⟨same, hexadecimal, verifies⟩
    exact ⟨(receivedHead_eq hexadecimal).mp same, hexadecimal, verifies⟩
  · rintro ⟨same, hexadecimal, verifies⟩
    exact ⟨(receivedHead_eq hexadecimal).mpr same, hexadecimal, verifies⟩

def joinedRecord (record : CheckedRecord) : CheckedRecord :=
  { record with event := record.event.joined }

/-- An item that arrives well formed was well formed when it was sent. -/
theorem received_eq_toItem {item : Item} {record : CheckedRecord} :
    received item = record.toItem ↔
      ∃ origin : CheckedRecord, item = origin.toItem ∧ joinedRecord origin = record := by
  constructor
  · intro same
    obtain ⟨index, event, previous, hash⟩ | _ := item
    · simp only [received, receivedRecord, CheckedRecord.toItem, Item.record.injEq,
        AuditRecord.mk.injEq, decoded_eq_int,
        decoded_eq_str (plane_of_isHexText record.previousHash.property),
        decoded_eq_str (plane_of_isHexText record.recordHash.property),
        Option.map_eq_some_iff] at same
      obtain ⟨rfl, ⟨origin, rfl, joined⟩, rfl, rfl⟩ := same
      refine ⟨⟨record.index, origin, record.previousHash, record.recordHash⟩, rfl, ?_⟩
      rw [joinedRecord, joined]
    · cases same
  · rintro ⟨origin, rfl, rfl⟩
    simp only [received, receivedRecord, CheckedRecord.toItem, joinedRecord, Value.decoded_int,
      Value.decoded_str, joinSurrogates_of_isHexText origin.previousHash.property,
      joinSurrogates_of_isHexText origin.recordHash.property, Option.map_some]

/-- A record hash is taken over the canonical text, so joining pairs keeps it. -/
theorem link_joined (position : Nat) (event : AuditEvent) (previous : Digest) :
    link (position, event.joined.toDict, previous) = link (position, event.toDict, previous) := by
  have texts : dumps (hashedRecord position event.joined.toDict previous.val) =
      dumps (hashedRecord position event.toDict previous.val) := by
    simp only [hashedRecord, dumps, dumpsFields, dumps_toDict_joined]
  rw [link, link, canonicalBytes, canonicalBytes, texts]

theorem recordsFrom_joined (position : Nat) (previous : Digest) (events : List AuditEvent) :
    recordsFrom position previous (events.map AuditEvent.joined) =
      (recordsFrom position previous events).map joinedRecord := by
  induction events generalizing position previous with
  | nil => rfl
  | cons event events ih =>
      have same : recordHash position event.joined previous = recordHash position event previous :=
        link_joined position event previous
      rw [List.map_cons, recordsFrom, recordsFrom, same, ih, List.map_cons]
      rfl

theorem tip_joined (position : Nat) (previous : Digest) (events : List AuditEvent) :
    tip link position previous (written (events.map AuditEvent.joined)) =
      tip link position previous (written events) := by
  induction events generalizing position previous with
  | nil => rfl
  | cons event events ih =>
      rw [List.map_cons, written, written, List.map_cons, List.map_cons, tip_cons, tip_cons,
        link_joined]
      exact ih _ _

/-- A log arrives as a chain exactly when it was sent as one. -/
theorem map_received_eq_records {items : List Item} {position : Nat} {previous : Digest}
    {events : List AuditEvent} :
    items.map received = (recordsFrom position previous events).map CheckedRecord.toItem ↔
      ∃ origins : List AuditEvent, origins.map AuditEvent.joined = events ∧
        items = (recordsFrom position previous origins).map CheckedRecord.toItem := by
  constructor
  · intro same
    induction items generalizing position previous events with
    | nil =>
        obtain rfl : events = [] := by
          have length := congrArg List.length same
          rw [List.length_map, List.length_map, length_recordsFrom] at length
          exact List.length_eq_zero_iff.mp length.symm
        exact ⟨[], rfl, rfl⟩
    | cons item items ih =>
        obtain _ | ⟨event, events⟩ := events
        · cases same
        rw [List.map_cons, recordsFrom, List.map_cons, List.cons.injEq] at same
        obtain ⟨⟨index, origin, before, hash⟩, rfl, joined⟩ := received_eq_toItem.mp same.1
        simp only [joinedRecord, CheckedRecord.mk.injEq] at joined
        obtain ⟨rfl, rfl, rfl, rfl⟩ := joined
        obtain ⟨origins, rfl, rfl⟩ := ih same.2
        have kept : recordHash position origin.joined before = recordHash position origin before :=
          link_joined position origin before
        refine ⟨origin :: origins, rfl, ?_⟩
        rw [recordsFrom, List.map_cons, kept]
  · rintro ⟨origins, rfl, rfl⟩
    rw [recordsFrom_joined, List.map_map, List.map_map]
    apply List.map_congr_left
    intro record _
    exact received_eq_toItem.mpr ⟨record, rfl, rfl⟩

section Calls

variable {verifier : AuditVerifier} {head : AuditHead} {items : List Item}
  {state result : Committed}

theorem commit_eq_ok_iff {head : Option AuditHead} :
    (AuditAnchor.commit verifier head items state).1 = .ok result ↔
      ∃ events, verifyHead verifier head = .ok result ∧ Verified result events ∧
        items = chainItems events ∧
        AuditAnchor.commitLocked result (recordsFrom 0 emptyHash events) state = .ok result := by
  constructor
  · intro accepted
    obtain ⟨events, verified, whole, same, _, locked⟩ := commit_eq_ok accepted
    exact ⟨events, verified, whole, same, locked⟩
  · rintro ⟨events, verified, whole, rfl, locked⟩
    have prepared : AuditAnchor.prepare verifier head (chainItems events) =
        .ok (result, recordsFrom 0 emptyHash events) :=
      prepare_eq_ok.mpr ⟨verified, events, whole, rfl, rfl⟩
    simp only [AuditAnchor.commit, prepared, bind, Except.bind, locked, AuditAnchor.settle]

theorem commitDelta_received :
    (AuditAnchor.commitDelta verifier (some (receivedHead head)) (items.map received) state).1 =
      .ok result ↔
        (AuditAnchor.commitDelta verifier (some head) items state).1 = .ok result := by
  simp only [AuditAnchor.commitDelta_eq_ok, extend_eq_ok, verifyHead_received]
  constructor
  · rintro ⟨records, verified, bounded, events, counted, ends, rfl, same⟩
    obtain ⟨origins, rfl, rfl⟩ := map_received_eq_records.mp same
    rw [List.length_map] at counted
    rw [tip_joined] at ends
    exact ⟨_, verified, bounded, origins, counted, ends, rfl, rfl⟩
  · rintro ⟨records, verified, bounded, origins, counted, ends, rfl, rfl⟩
    refine ⟨_, verified, bounded, origins.map AuditEvent.joined, ?_, ?_, rfl, ?_⟩
    · rwa [List.length_map]
    · rwa [tip_joined]
    · exact map_received_eq_records.mpr ⟨origins, rfl, rfl⟩

end Calls

end Rebuilt

end AnchorProcess

end GeniusNew
