import GeniusNew.Audit.Chain
import GeniusNew.HashChain.Tip

/-! # What verification accepts

A log passes `verify` exactly when it is the chain built from some list of
events, with the length and the tip the signed head claims. The lemmas here are
the only place that looks into the record loop; everything later speaks about
`recordsFrom` and about `HashChain.tip`.
-/

namespace GeniusNew

open Json HashChain

section Fields

theorem digest_eq_ok {value : Value} {field : String} {result : Digest} :
    digest value field = .ok result ↔ value = .str result.val := by
  cases value with
  | str text =>
      by_cases accepted : isHexText 64 text = true
      · simp [digest, accepted, Subtype.ext_iff]
      · refine iff_of_false ?_ ?_
        · simpa [digest, accepted] using fail_ne_ok
        · intro same
          obtain rfl : text = result.val := Value.str.inj same
          exact accepted result.property
  | _ => exact iff_of_false fail_ne_ok (by simp)

theorem count_eq_ok {value : Value} {field : String} {result : { count : Nat // count ≤ maxCount }} :
    count value field = .ok result ↔ value = .int result.val := by
  cases value with
  | int number =>
      simp only [count, guarded_eq_ok, Value.int.injEq]
      have bound := result.property
      split_ifs with bounded
      · rw [Except.ok.injEq, Subtype.ext_iff]
        simp only
        omega
      · refine iff_of_false (fun both => fail_ne_ok both.2) ?_
        omega
  | _ => exact iff_of_false fail_ne_ok (by simp)

/-- A head that verifies is its own claim: the count and the hash stand in it. -/
theorem verifyHead_eq_ok {verifier : AuditVerifier} {head : Option AuditHead} {claimed : Committed} :
    verifyHead verifier head = .ok claimed ↔
      ∃ signature, head = some ⟨.str headVersion, .int claimed.count, .str claimed.headHash.val,
          .str signature⟩ ∧ isHexText 128 signature = true ∧
        verifier.verifies (canonicalBytes (.dict [(str "count", .int claimed.count),
          (str "head_hash", .str claimed.headHash.val), (str "version", .str headVersion)]))
          (fromHex signature) = true := by
  constructor
  · intro verified
    obtain _ | ⟨version, number, headHash, signature⟩ := head
    · exact (fail_ne_ok verified).elim
    cases version with
    | str version =>
        simp only [verifyHead] at verified
        obtain ⟨rfl, verified⟩ := guard_eq_ok.mp verified
        obtain ⟨counted, counts, verified⟩ := bind_eq_ok.mp verified
        obtain ⟨hashed, hashes, verified⟩ := bind_eq_ok.mp verified
        obtain rfl := count_eq_ok.mp counts
        obtain rfl := digest_eq_ok.mp hashes
        cases signature with
        | str signature =>
            obtain ⟨signed, same⟩ := guard_eq_ok.mp verified
            obtain rfl := pure_eq_ok.mp same
            rw [Bool.and_eq_true] at signed
            exact ⟨signature, rfl, signed.1, signed.2⟩
        | _ => exact (fail_ne_ok verified).elim
    | _ => exact (fail_ne_ok verified).elim
  · rintro ⟨signature, rfl, wellFormed, verifies⟩
    have counts : count (.int claimed.count) "head.count" =
        .ok ⟨claimed.count, claimed.count_le⟩ := count_eq_ok.mpr rfl
    have hashes : digest (.str claimed.headHash.val) "head.head_hash" = .ok claimed.headHash :=
      digest_eq_ok.mpr rfl
    simp only [verifyHead, counts, hashes, wellFormed, AuditHead.body, verifies]
    rfl

theorem verifyHead_signed (authority : AuditAuthority) (claimed : Committed) :
    verifyHead authority.verifier (some (authority.signed claimed)) = .ok claimed := by
  refine verifyHead_eq_ok.mpr ⟨_, rfl, ?_, ?_⟩
  · have text := isHexText_hex (authority.sign (canonicalBytes (AuditHead.claiming claimed []).body))
    rwa [authority.length_sign] at text
  · rw [fromHex_hex]
    exact authority.sign_verifies _

theorem checkedRecord_eq_ok {item : Item} {position : Nat} {record : CheckedRecord} :
    checkedRecord item position = .ok record ↔ item = record.toItem := by
  constructor
  · intro checked
    obtain ⟨index, event, previous, hash⟩ | _ := item
    · simp only [checkedRecord] at checked
      split at checked
      · split at checked
        · obtain ⟨before, links, checked⟩ := bind_eq_ok.mp checked
          obtain ⟨own, hashes, checked⟩ := bind_eq_ok.mp checked
          obtain rfl := pure_eq_ok.mp checked
          rw [digest_eq_ok] at links hashes
          simp_all [CheckedRecord.toItem]
        · exact (fail_ne_ok checked).elim
      · exact (fail_ne_ok checked).elim
    · exact (fail_ne_ok checked).elim
  · rintro rfl
    simp only [checkedRecord, CheckedRecord.toItem, bind_eq_ok, digest_eq_ok]
    exact ⟨record.previousHash, rfl, record.recordHash, rfl, rfl⟩

end Fields

/-- A record hash as a function of a position, a written event and a hash. -/
def link (input : Nat × Value × Digest) : Digest :=
  sha256 (canonicalBytes (hashedRecord input.1 input.2.1 input.2.2.val))

def written (events : List AuditEvent) : List Value := events.map AuditEvent.toDict

@[simp] theorem length_written (events : List AuditEvent) :
    (written events).length = events.length := List.length_map _

theorem written_append (first second : List AuditEvent) :
    written (first ++ second) = written first ++ written second := List.map_append

theorem written_take (events : List AuditEvent) (count : Nat) :
    written (events.take count) = (written events).take count := List.map_take

/-- The chain of a list of events. -/
def recordsFrom (position : Nat) (previous : Digest) : List AuditEvent → List CheckedRecord
  | [] => []
  | event :: events =>
      { index := position
        event
        previousHash := previous
        recordHash := recordHash position event previous } ::
        recordsFrom (position + 1) (recordHash position event previous) events

section Records

variable {position : Nat} {previous : Digest}

theorem length_recordsFrom (events : List AuditEvent) :
    (recordsFrom position previous events).length = events.length := by
  induction events generalizing position previous with
  | nil => rfl
  | cons event events ih => simp [recordsFrom, ih]

theorem map_event_recordsFrom (position : Nat) (previous : Digest) (events : List AuditEvent) :
    (recordsFrom position previous events).map CheckedRecord.event = events := by
  induction events generalizing position previous with
  | nil => rfl
  | cons event events ih => rw [recordsFrom, List.map_cons, ih]

theorem recordsFrom_append (first second : List AuditEvent) :
    recordsFrom position previous (first ++ second) = recordsFrom position previous first ++
      recordsFrom (position + first.length) (tip link position previous (written first)) second := by
  induction first generalizing position previous with
  | nil => rfl
  | cons event first ih =>
      simp only [List.cons_append, recordsFrom, ih, written, List.map_cons, tip_cons,
        List.length_cons, link, recordHash]
      congr 3
      omega

theorem lastHash_cons (base : Digest) (record : CheckedRecord) (records : List CheckedRecord) :
    lastHash base (record :: records) = lastHash record.recordHash records := by
  cases records with
  | nil => rfl
  | cons other records =>
      obtain ⟨last, ends⟩ : ∃ last, (other :: records).getLast? = some last :=
        ⟨_, List.getLast?_eq_some_getLast (List.cons_ne_nil other records)⟩
      rw [lastHash, lastHash, List.getLast?_cons_cons, ends]
      rfl

theorem lastHash_recordsFrom (events : List AuditEvent) :
    lastHash previous (recordsFrom position previous events) =
      tip link position previous (written events) := by
  induction events generalizing position previous with
  | nil => rfl
  | cons event events ih =>
      rw [recordsFrom, lastHash_cons, ih]
      rfl

theorem append_recordsFrom (events : List AuditEvent) (event : AuditEvent) :
    (AuditChain.append (recordsFrom 0 emptyHash events) event).2 =
      recordsFrom 0 emptyHash (events ++ [event]) := by
  rw [recordsFrom_append, recordsFrom, recordsFrom, Nat.zero_add, AuditChain.append,
    lastHash_recordsFrom, length_recordsFrom]

/-- The record loop accepts exactly the chains of events. -/
theorem verifyRecords_eq_ok {items : List Item} {records : List CheckedRecord} :
    verifyRecords items position previous = .ok records ↔
      ∃ events, records = recordsFrom position previous events ∧
        items = records.map CheckedRecord.toItem := by
  induction items generalizing position previous records with
  | nil =>
      constructor
      · intro accepted
        exact ⟨[], (Except.ok.inj accepted).symm, by rw [← Except.ok.inj accepted]; rfl⟩
      · rintro ⟨events, rfl, none⟩
        obtain _ | ⟨event, events⟩ := events
        · rfl
        · cases none
  | cons item items ih =>
      simp only [verifyRecords, bind_eq_ok, guarded_eq_ok, checkedRecord_eq_ok, ih, pure_eq_ok,
        not_not]
      constructor
      · rintro ⟨record, rfl, indexed, linked, hashed, rest, ⟨events, rfl, rfl⟩, rfl⟩
        refine ⟨record.event :: events, ?_, rfl⟩
        obtain ⟨index, event, before, own⟩ := record
        simp only at indexed linked hashed
        subst indexed linked hashed
        rfl
      · rintro ⟨events, rfl, same⟩
        obtain _ | ⟨event, events⟩ := events
        · cases same
        rw [recordsFrom, List.map_cons, List.cons.injEq] at same
        exact ⟨_, same.1, rfl, rfl, rfl, _, ⟨events, rfl, same.2⟩, rfl⟩

theorem take_recordsFrom (events : List AuditEvent) (count : Nat) :
    (recordsFrom position previous events).take count =
      recordsFrom position previous (events.take count) := by
  induction events generalizing position previous count with
  | nil => simp [recordsFrom]
  | cons event events ih =>
      cases count with
      | zero => rfl
      | succ count => simp [recordsFrom, ih]

/-- The hash at a committed position is the tip of the chain up to it. -/
theorem hashAt_recordsFrom {events : List AuditEvent} {count : Nat} (positive : count ≠ 0)
    (reached : count ≤ events.length) :
    hashAt (recordsFrom position previous events) count =
      some (tip link position previous (written (events.take count))) := by
  rw [← lastHash_recordsFrom, ← take_recordsFrom, lastHash, hashAt, List.getLast?_eq_getElem?,
    List.length_take, length_recordsFrom, Nat.min_eq_left reached, List.getElem?_take_of_lt (by omega),
    List.getElem?_eq_getElem (by rw [length_recordsFrom]; omega)]
  rfl

end Records

section Chain

variable {verifier : AuditVerifier} {head : Option AuditHead} {items : List Item}
  {claimed : Committed} {records : List CheckedRecord}

/-- A log that passes `verify` is the chain of the events its head claims. -/
structure Verified (claimed : Committed) (events : List AuditEvent) : Prop where
  length_eq : events.length = claimed.count
  tip_eq : tip link 0 emptyHash (written events) = claimed.headHash

def chainItems (events : List AuditEvent) : List Item :=
  (recordsFrom 0 emptyHash events).map CheckedRecord.toItem

theorem length_chainItems (events : List AuditEvent) :
    (chainItems events).length = events.length := by
  rw [chainItems, List.length_map, length_recordsFrom]

theorem verifyChain_eq_ok :
    verifyChain verifier items head = .ok (claimed, records) ↔
      verifyHead verifier head = .ok claimed ∧ ∃ events, Verified claimed events ∧
        records = recordsFrom 0 emptyHash events ∧ items = chainItems events := by
  simp only [verifyChain, bind_eq_ok, guarded_eq_ok, pure_eq_ok, Prod.mk.injEq, not_not, not_lt,
    verifyRecords_eq_ok]
  constructor
  · rintro ⟨claim, verified, _, exact, found, ⟨events, rfl, same⟩, ends, rfl, rfl⟩
    have whole : items.take (claim.count + 1) = items := by
      rw [List.length_take] at exact
      exact List.take_of_length_le (by omega)
    rw [whole] at exact same
    refine ⟨verified, events, ⟨?_, ?_⟩, rfl, same⟩
    · rw [← exact, same, List.length_map, length_recordsFrom]
    · rw [← ends, lastHash_recordsFrom]
  · rintro ⟨verified, events, ⟨length_eq, tip_eq⟩, rfl, rfl⟩
    have whole : (chainItems events).take (claimed.count + 1) = chainItems events :=
      List.take_of_length_le (by rw [length_chainItems]; omega)
    have exact : (chainItems events).length = claimed.count := by
      rw [length_chainItems, length_eq]
    refine ⟨claimed, verified, ?_, ?_, _, ⟨events, rfl, by rw [whole]; rfl⟩, ?_, rfl, rfl⟩
    · rw [whole, exact]
    · rw [whole, exact]
    · rw [lastHash_recordsFrom, tip_eq]

/-- `commit` reads no more of the log than `verify` does. -/
theorem prepare_eq_ok :
    AuditAnchor.prepare verifier head items = .ok (claimed, records) ↔
      verifyHead verifier head = .ok claimed ∧ ∃ events, Verified claimed events ∧
        records = recordsFrom 0 emptyHash events ∧ items = chainItems events := by
  simp only [AuditAnchor.prepare, bind_eq_ok, verifyChain_eq_ok]
  constructor
  · rintro ⟨claim, verified, again, events, ⟨length_eq, tip_eq⟩, rfl, same⟩
    obtain rfl := Except.ok.inj (verified.symm.trans again)
    refine ⟨verified, events, ⟨length_eq, tip_eq⟩, rfl, ?_⟩
    have bound := congrArg List.length same
    rw [List.length_take, length_chainItems] at bound
    rw [← same, List.take_of_length_le (by omega)]
  · rintro ⟨verified, events, ⟨length_eq, tip_eq⟩, rfl, rfl⟩
    refine ⟨claimed, verified, verified, events, ⟨length_eq, tip_eq⟩, rfl, ?_⟩
    exact List.take_of_length_le (by rw [length_chainItems]; omega)

/-- An extension is accepted exactly when it is the chain of events from its base. -/
theorem extend_eq_ok {base : Committed} :
    AuditAnchor.extend verifier head items base = .ok (claimed, records) ↔
      verifyHead verifier head = .ok claimed ∧ claimed.count - base.count ≤ maxDeltaRecords ∧
        ∃ events, base.count + events.length = claimed.count ∧
          tip link base.count base.headHash (written events) = claimed.headHash ∧
          records = recordsFrom base.count base.headHash events ∧
          items = records.map CheckedRecord.toItem := by
  simp only [AuditAnchor.extend, verifyExtension, bind_eq_ok, guarded_eq_ok, pure_eq_ok,
    Prod.mk.injEq, not_not, not_lt, verifyRecords_eq_ok, count_eq_ok, digest_eq_ok]
  constructor
  · rintro ⟨claim, verified, counted, counts, hashed, hashes, reached, bounded, _, exact, found,
      ⟨events, rfl, same⟩, ends, rfl, rfl⟩
    obtain rfl : hashed = base.headHash := Subtype.ext (Value.str.inj hashes).symm
    obtain ⟨counted, _⟩ := counted
    obtain rfl : base.count = counted := Int.ofNat.inj (Value.int.inj counts)
    simp only at *
    have whole : items.take (claim.count - base.count + 1) = items := by
      rw [List.length_take] at exact
      exact List.take_of_length_le (by omega)
    rw [whole] at exact same
    refine ⟨verified, bounded, events, ?_, ?_, rfl, same⟩
    · have sized := congrArg List.length same
      rw [List.length_map, length_recordsFrom] at sized
      omega
    · rw [← ends, lastHash_recordsFrom]
  · rintro ⟨verified, bounded, events, sized, ends, rfl, rfl⟩
    have whole : ((recordsFrom base.count base.headHash events).map CheckedRecord.toItem).take
        (claimed.count - base.count + 1) =
        (recordsFrom base.count base.headHash events).map CheckedRecord.toItem :=
      List.take_of_length_le (by rw [List.length_map, length_recordsFrom]; omega)
    refine ⟨claimed, verified, ⟨base.count, base.count_le⟩, rfl, base.headHash, rfl, ?_,
      bounded, ?_, ?_, _, ⟨events, rfl, whole⟩, ?_, rfl, rfl⟩
    · simp only
      omega
    · simp only [whole, List.length_map, length_recordsFrom]
      omega
    · simp only [whole, List.length_map, length_recordsFrom]
      omega
    · rw [lastHash_recordsFrom, ends]

end Chain

namespace AuditAnchor

section Settled

variable {state : Committed} {outcome : Outcome Committed}

/-- A call that answers moves the anchor to its answer. -/
theorem settle_eq_ok {result : Committed} (decided : (settle state outcome).1 = .ok result) :
    outcome = .ok result ∧ (settle state outcome).2 = result := by
  cases outcome with
  | ok next => exact ⟨decided, Except.ok.inj decided⟩
  | error reason => cases decided

/-- A call that raises leaves the anchor as it was. -/
theorem settle_error {raised : Raised} (decided : (settle state outcome).1 = .error raised) :
    (settle state outcome).2 = state := by
  cases outcome with
  | ok next => cases decided
  | error reason => rfl

end Settled

end AuditAnchor

end GeniusNew
