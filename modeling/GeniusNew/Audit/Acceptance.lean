import GeniusNew.Audit.Length
import GeniusNew.Audit.Restart
import Mathlib.Algebra.Group.Action.Defs

/-! # When an append is accepted

The tables must hold a chain, the hash of the next record must be new, and the commit of
the longer chain must fit in a request and its state in the state file. Nothing else
refuses an event, so a chain of a few thousand events takes the next one.
-/

namespace GeniusNew

open Json HashChain

namespace AuditStore

open AnchorProcess

variable {interpreter : Interpreter} {authority : AuditAuthority} {event : AuditEvent}
  {events : List AuditEvent} {before : Tables}

/-- The hashes of the stored records, in some order. -/
theorem Holds.recordHash_perm {verifier : AuditVerifier} (holds : Holds verifier before events) :
    (before.chain.map ChainRow.recordHash).Perm
      ((recordsFrom 0 emptyHash events).map fun record => record.recordHash.val) := by
  have sorted : (sortedChain before).map ChainRow.recordHash =
      (recordsFrom 0 emptyHash events).map fun record => record.recordHash.val := by
    rw [holds.chain_eq, List.map_map]
    rfl
  rw [← sorted]
  exact ((List.mergeSort_perm _ _).map _).symm

theorem Binds.headHash_eq {verifier : AuditVerifier} {row : HeadRow} {record : CheckedRecord}
    (bound : Binds verifier row record) : row.headHash = record.recordHash.val := by
  obtain ⟨claimed, verified, _, hash⟩ := bound.verified
  obtain ⟨signature, same, _⟩ := verifyHead_eq_ok.mp verified
  have headHash : row.headHash = claimed.headHash.val :=
    Value.str.inj (congrArg AuditHead.headHash (Option.some.inj same))
  rw [headHash, hash]

/-- The hashes that the stored heads claim. -/
theorem Holds.headHash_perm {verifier : AuditVerifier} (holds : Holds verifier before events) :
    (before.heads.map HeadRow.headHash).Perm
      ((recordsFrom 0 emptyHash events).map fun record => record.recordHash.val) := by
  have hashes : ∀ {rows : List HeadRow} {records : List CheckedRecord},
      List.Forall₂ (Binds verifier) rows records →
        rows.map HeadRow.headHash = records.map fun record => record.recordHash.val := by
    intro rows records bound
    induction bound with
    | nil => rfl
    | cons first _ ih => rw [List.map_cons, List.map_cons, first.headHash_eq, ih]
  rw [← hashes holds.binds]
  exact ((List.mergeSort_perm _ _).map _).symm

/-- The hash of the next record. -/
def nextHash (events : List AuditEvent) (event : AuditEvent) : Digest :=
  (nextRecord (recordsFrom 0 emptyHash events) event).recordHash

/-- The head of the longer chain, the request that commits it and the state file it needs. -/
def Fits (authority : AuditAuthority) (events : List AuditEvent) (event : AuditEvent)
    (small : events.length + 1 ≤ maxCount) : Prop :=
  (dumps (envelope (List.replicate (nonceBytes * 2) 48)
    (chainRequest (authority.signed (grownTo events event small))
      (recordsFrom 0 emptyHash (events ++ [event]))))).length ≤ maxRequestBytes ∧
  (events.length + 1) * (lineOf (authority.signed (grownTo events event small))).length ≤
    maxStateBytes

theorem checkCommitSize_grown (small : events.length + 1 ≤ maxCount) :
    checkCommitSize interpreter (authority.signed (grownTo events event small))
        ((recordsFrom 0 emptyHash (events ++ [event])).map CheckedRecord.toItem) = .ok () ↔
      Fits authority events event small := by
  have whole : (events ++ [event]).length ≤ (grownTo events event small).count := by
    rw [List.length_append, List.length_singleton]
    exact le_rfl
  exact checkCommitSize_eq_ok (verifyHead_signed authority (grownTo events event small)) whole

/-- What the two inserts of an append ask of the tables. -/
theorem insertRecord_eq_ok {after : Tables} (holds : Holds authority.verifier before events) :
    insertRecord (chainRow (nextRecord (recordsFrom 0 emptyHash events) event)) before = .ok after ↔
      nextHash events event ∉ (recordsFrom 0 emptyHash events).map CheckedRecord.recordHash ∧
      after = { before with
        chain := before.chain ++ [chainRow (nextRecord (recordsFrom 0 emptyHash events) event)] } := by
  have index : (chainRow (nextRecord (recordsFrom 0 emptyHash events) event)).index =
      events.length := by
    show ((recordsFrom 0 emptyHash events).length : Int) = _
    rw [length_recordsFrom]
  have new : (chainRow (nextRecord (recordsFrom 0 emptyHash events) event)).index ∉
      before.chain.map ChainRow.index := by
    rw [holds.index_perm.mem_iff, index]
    intro member
    obtain ⟨position, inside, same⟩ := List.mem_map.mp member
    have below := (List.mem_range'_1.mp inside).2
    have equal : position = events.length := Int.ofNat.inj same
    omega
  have hash : (chainRow (nextRecord (recordsFrom 0 emptyHash events) event)).recordHash ∈
      before.chain.map ChainRow.recordHash ↔
        nextHash events event ∈ (recordsFrom 0 emptyHash events).map CheckedRecord.recordHash := by
    have values : ((recordsFrom 0 emptyHash events).map fun record => record.recordHash.val) =
        ((recordsFrom 0 emptyHash events).map CheckedRecord.recordHash).map Subtype.val := by
      rw [List.map_map]
      rfl
    rw [holds.recordHash_perm.mem_iff, values]
    exact List.mem_map_of_injective Subtype.val_injective
  have positive : ¬ (chainRow (nextRecord (recordsFrom 0 emptyHash events) event)).index < 0 := by
    rw [index]
    exact not_lt.mpr (Int.natCast_nonneg _)
  unfold insertRecord
  rw [guarded_eq_ok, not_or, not_or, not_or, hash, Except.ok.injEq]
  constructor
  · rintro ⟨⟨_, _, fresh, _⟩, rfl⟩
    exact ⟨fresh, rfl⟩
  · rintro ⟨fresh, rfl⟩
    exact ⟨⟨positive, new, fresh, not_lt.mpr event.length_toBytes_le⟩, rfl⟩

theorem insertHead_signed (holds : Holds authority.verifier before events)
    (small : events.length + 1 ≤ maxCount) (chain : List ChainRow)
    (fresh : nextHash events event ∉ (recordsFrom 0 emptyHash events).map CheckedRecord.recordHash) :
    insertHead (signedRow authority (grownTo events event small) event) ⟨chain, before.heads⟩ =
      .ok ⟨chain, before.heads ++ [signedRow authority (grownTo events event small) event]⟩ := by
  let row := signedRow authority (grownTo events event small) event
  have count : row.count = events.length + 1 := rfl
  have positive : ¬ row.count ≤ 0 := by
    rw [count]
    omega
  have new : row.count ∉ before.heads.map HeadRow.count := by
    rw [holds.count_perm.mem_iff, count]
    intro member
    obtain ⟨position, inside, same⟩ := List.mem_map.mp member
    have below := (List.mem_range'_1.mp inside).2
    have equal : position = events.length := Int.ofNat.inj (add_right_cancel same)
    omega
  have hash : row.headHash ∉ before.heads.map HeadRow.headHash := by
    rw [holds.headHash_perm.mem_iff]
    intro member
    obtain ⟨record, inside, same⟩ := List.mem_map.mp member
    exact fresh (List.mem_map.mpr ⟨record, inside, Subtype.ext same⟩)
  have signed : ¬ row.signature.length ≠ 64 := not_not.mpr (authority.length_sign _)
  exact guarded_eq_ok.mpr ⟨not_or.mpr ⟨positive, not_or.mpr ⟨new, not_or.mpr ⟨hash, signed⟩⟩⟩, rfl⟩

/-- Few events make a short request. -/
theorem length_chainRequest_le {head : AuditHead} {claimed : Committed}
    (verified : verifyHead authority.verifier (some head) = .ok claimed)
    (few : events.length ≤ maxCount) :
    (dumps (chainRequest head (recordsFrom 0 emptyHash events))).length ≤
      320 + events.length * (maxEventBytes + 200) := by
  have each : ∀ record ∈ recordsFrom 0 emptyHash events,
      (dumps (recordDict record)).length + 1 ≤ maxEventBytes + 200 := by
    intro record member
    have index := List.mem_map_of_mem (f := CheckedRecord.index) member
    rw [index_recordsFrom] at index
    obtain ⟨position, inside, same⟩ := List.mem_map.mp index
    have below := (List.mem_range'_1.mp inside).2
    have digits : digitCount position ≤ 7 := digitCount_small (by omega)
    have bytes := record.event.length_toBytes_le
    rw [AuditEvent.toBytes, length_canonicalBytes] at bytes
    rw [length_recordDict same.symm]
    omega
  have head_ := length_headDict verified
  have digits : digitCount claimed.count ≤ 7 := digitCount_small claimed.count_le
  rw [length_chainRequest, head_]
  by_cases empty : events = []
  · subst empty
    have nothing : (dumps (.list (([] : List CheckedRecord).map recordDict))).length = 2 := by decide
    rw [recordsFrom, nothing]
    omega
  · have nonempty : (recordsFrom 0 emptyHash events).map recordDict ≠ [] := by
      intro none_
      have length := congrArg List.length none_
      rw [List.length_map, length_recordsFrom] at length
      exact empty (List.eq_nil_of_length_eq_zero length)
    have sum := List.sum_le_card_nsmul (((recordsFrom 0 emptyHash events).map recordDict).map
      fun item => (dumps item).length + 1) (maxEventBytes + 200) (by
        intro length member
        obtain ⟨item, inside, rfl⟩ := List.mem_map.mp member
        obtain ⟨record, known, rfl⟩ := List.mem_map.mp inside
        exact each record known)
    rw [List.length_map, List.length_map, length_recordsFrom, smul_eq_mul] at sum
    rw [length_dumps_list nonempty]
    omega

/-- A chain of a few thousand events has room for the next one. -/
theorem fits_of_few (authority : AuditAuthority) (event : AuditEvent)
    (few : events.length < 7000) : ∃ small, Fits authority events event small := by
  have bound : maxCount = 1000000 := rfl
  have small : events.length + 1 ≤ maxCount := by omega
  have verified := verifyHead_signed authority (grownTo events event small)
  have longer : (events ++ [event]).length = events.length + 1 := by
    rw [List.length_append, List.length_singleton]
  have nonce : isHexText (nonceBytes * 2) (List.replicate (nonceBytes * 2) 48) = true := by decide
  have request := length_chainRequest_le verified (longer.trans_le small)
  have line := length_lineOf verified
  have digits : digitCount (grownTo events event small).count ≤ 7 := digitCount_small small
  have limits : maxRequestBytes = 67108864 ∧ maxStateBytes = 16777216 ∧ maxEventBytes = 8192 := by
    decide
  refine ⟨small, ?_, ?_⟩
  · rw [longer, limits.2.2] at request
    rw [length_envelope nonce]
    omega
  · rw [line]
    have grown : (events.length + 1) * (269 + digitCount (grownTo events event small).count) ≤
        7000 * 276 := Nat.mul_le_mul (by omega) (by omega)
    exact grown.trans (by decide)

/-- What an append asks of the tables that it is given. -/
structure Accepts (authority : AuditAuthority) (event : AuditEvent) (before : Tables)
    (events : List AuditEvent) : Prop where
  holds : Holds authority.verifier before events
  fresh : nextHash events event ∉ (recordsFrom 0 emptyHash events).map CheckedRecord.recordHash
  fits : ∃ small, Fits authority events event small

theorem accepts_of_append {record : CheckedRecord} {after : Tables}
    (accepted : append interpreter authority event before = .ok (record, after)) :
    ∃ events, Accepts authority event before events := by
  obtain ⟨events, small, holds, same, _, sized, _⟩ := append_eq_ok accepted
  rw [same, ← recordsFrom_concat] at sized
  refine ⟨events, holds, ?_, small, (checkCommitSize_grown small).mp sized⟩
  simp only [append, bind_eq_ok] at accepted
  obtain ⟨⟨last, records⟩, found, _, _, _, _, tables, inserted, _⟩ := accepted
  have read_ : read interpreter authority.verifier before =
      .ok (_, recordsFrom 0 emptyHash events) := read_eq_ok.mpr ⟨events, holds, rfl, rfl⟩
  obtain ⟨_, rfl⟩ := Prod.mk.inj (Except.ok.inj (read_.symm.trans found))
  exact ((insertRecord_eq_ok holds).mp inserted).1

theorem Accepts.append (interpreter : Interpreter)
    (accepts : Accepts authority event before events) :
    ∃ record after, AuditStore.append interpreter authority event before = .ok (record, after) := by
  obtain ⟨holds, fresh, small, fits⟩ := accepts
  have found : read interpreter authority.verifier before =
      .ok (_, recordsFrom 0 emptyHash events) := read_eq_ok.mpr ⟨events, holds, rfl, rfl⟩
  have sized : checkCommitSize interpreter (authority.signed (grownTo events event small))
      ((recordsFrom 0 emptyHash (events ++ [event])).map CheckedRecord.toItem) = .ok () :=
    (checkCommitSize_grown small).mpr fits
  rw [recordsFrom_concat] at sized
  have signed : signHead authority ((recordsFrom 0 emptyHash events).length + 1)
      (nextRecord (recordsFrom 0 emptyHash events) event).recordHash =
        .ok (authority.signed (grownTo events event small)) := by
    rw [length_recordsFrom]
    exact bind_eq_ok.mpr ⟨⟨events.length + 1, small⟩, count_eq_ok.mpr rfl, rfl⟩
  refine ⟨nextRecord (recordsFrom 0 emptyHash events) event,
    ⟨before.chain ++ [chainRow (nextRecord (recordsFrom 0 emptyHash events) event)],
      before.heads ++ [signedRow authority (grownTo events event small) event]⟩,
    bind_eq_ok.mpr ⟨_, found, bind_eq_ok.mpr ⟨_, signed, bind_eq_ok.mpr ⟨(), sized,
      bind_eq_ok.mpr ⟨_, (insertRecord_eq_ok holds).mpr ⟨fresh, rfl⟩, ?_⟩⟩⟩⟩⟩
  simp only [headRow_signed]
  exact bind_eq_ok.mpr ⟨_, insertHead_signed holds small _ fresh, rfl⟩

/-- An event is appended exactly when the tables hold a chain that has room for it and no
record with its hash. -/
theorem append_accepted_iff (interpreter : Interpreter) (authority : AuditAuthority)
    (event : AuditEvent) (before : Tables) :
    (∃ record after, append interpreter authority event before = .ok (record, after)) ↔
      ∃ events, Accepts authority event before events :=
  ⟨fun ⟨_, _, accepted⟩ => accepts_of_append accepted, fun ⟨_, accepts⟩ => accepts.append interpreter⟩

end AuditStore

end GeniusNew
