import GeniusNew.Anchor.State

/-! # How the state file grows

The line of a head is 269 bytes and the digits of its count. An anchor that
starts with no file and is given one record a commit writes one such line a
commit, up to the largest count.
-/

namespace GeniusNew

open Json HashChain Transition

namespace AnchorProcess

section Lengths

theorem length_headDict {verifier : AuditVerifier} {sent : AuditHead} {claimed : Committed}
    (verified : verifyHead verifier (some sent) = .ok claimed) :
    (dumps (headDict sent)).length = 268 + digitCount claimed.count := by
  obtain ⟨signature, same, hexadecimal, _⟩ := verifyHead_eq_ok.mp verified
  obtain rfl := Option.some.inj same
  have keyLengths : (quote (str "count")).length = 7 ∧ (quote (str "head_hash")).length = 11 ∧
      (quote (str "signature")).length = 11 ∧ (quote (str "version")).length = 9 ∧
      (dumps (.str headVersion)).length = 25 := by
    decide
  rw [headDict, headFields, length_dumps_dict (List.cons_ne_nil _ _)]
  simp only [List.map_cons, List.map_nil, List.sum_cons, List.sum_nil, fieldLength,
    length_dumps_nat, length_dumps_hex hexadecimal, length_dumps_hex claimed.headHash.property,
    keyLengths]
  omega

/-- Two lines differ in length by the digits of their counts only. -/
theorem length_lineOf {verifier : AuditVerifier} {sent : AuditHead} {claimed : Committed}
    (verified : verifyHead verifier (some sent) = .ok claimed) :
    (lineOf sent).length = 269 + digitCount claimed.count := by
  rw [lineOf, List.length_append, length_canonicalBytes, length_headDict verified,
    List.length_singleton]
  omega

theorem length_recordDict {record : CheckedRecord} {index : Nat} (indexed : record.index = index) :
    (dumps (recordDict record)).length =
      183 + digitCount index + (dumps record.event.toDict).length := by
  have keyLengths : (quote (str "event")).length = 7 ∧ (quote (str "index")).length = 7 ∧
      (quote (str "previous_hash")).length = 15 ∧ (quote (str "record_hash")).length = 13 := by
    decide
  rw [recordDict, length_dumps_dict (List.cons_ne_nil _ _), indexed]
  simp only [List.map_cons, List.map_nil, List.sum_cons, List.sum_nil, fieldLength,
    length_dumps_nat, length_dumps_hex record.previousHash.property,
    length_dumps_hex record.recordHash.property, keyLengths]
  omega

end Lengths

section Growth

/-! ## A chain that grows by one record a commit -/

def firstIssued : AuditEvent := issuedAt ⟨1, first_second_occurs⟩

def grownEvents (count : Nat) : List AuditEvent := List.replicate (min count maxCount) firstIssued

theorem length_grownEvents (count : Nat) : (grownEvents count).length = min count maxCount :=
  List.length_replicate

/-- The state after a number of one-record commits. -/
def grown (count : Nat) : Committed :=
  commitment (grownEvents count) (by rw [length_grownEvents]; exact Nat.min_le_right _ _)

theorem grown_count {count : Nat} (small : count ≤ maxCount) : (grown count).count = count := by
  exact (length_grownEvents count).trans (Nat.min_eq_left small)

theorem grown_headHash {count : Nat} (small : count < maxCount) :
    (grown (count + 1)).headHash =
      link (count, firstIssued.toDict, (grown count).headHash) := by
  have split : grownEvents (count + 1) = grownEvents count ++ [firstIssued] := by
    rw [grownEvents, grownEvents, Nat.min_eq_left small, Nat.min_eq_left small.le,
      List.replicate_succ']
  have length : (grownEvents count).length = count :=
    (length_grownEvents count).trans (Nat.min_eq_left small.le)
  have ends : (grown (count + 1)).headHash =
      tip link 0 emptyHash (written (grownEvents (count + 1))) := rfl
  rw [ends, split, written_append, tip_append, length_written, length, Nat.zero_add]
  rfl

/-- The one record after a number of records. -/
def grownRecord (count : Nat) : CheckedRecord where
  index := count
  event := firstIssued
  previousHash := (grown count).headHash
  recordHash := recordHash count firstIssued (grown count).headHash

/-- The delta commit of the next record, as it arrives at the process. -/
def grownFields (count : Nat) : List (Str × Value) :=
  commit2Fields count (digestAuthority.signed (grown (count + 1))) [recordDict (grownRecord count)]

def grownRequest (count : Nat) : ServeEvent :=
  .request (receivedFields (grownFields count)) .completes

theorem length_dumps_sample : (dumps firstIssued.toDict).length = 453 := by
  decide +kernel

theorem digitCount_small {count : Nat} (small : count ≤ maxCount) : digitCount count ≤ 7 :=
  digitCount_le (Nat.lt_of_le_of_lt small (by decide))

theorem length_grownFields {count : Nat} (small : count < maxCount) :
    (dumps (.dict (grownFields count))).length ≤ 1100 := by
  have keyLengths : (quote (str "from_count")).length = 12 ∧ (quote (str "head")).length = 6 ∧
      (quote (str "kind")).length = 6 ∧ (quote (str "records")).length = 9 ∧
      (dumps (.str (str "commit2"))).length = 9 := by
    decide
  have digits := digitCount_small small.le
  have digits' := digitCount_small (grown (count + 1)).count_le
  have dict : (dumps (recordDict (grownRecord count))).length =
      183 + digitCount count + (dumps firstIssued.toDict).length := length_recordDict rfl
  have sample := length_dumps_sample
  rw [grownFields, commit2Fields, length_dumps_dict (List.cons_ne_nil _ _)]
  simp only [List.map_cons, List.map_nil, List.sum_cons, List.sum_nil, fieldLength,
    length_dumps_nat, length_headDict (verifyHead_signed digestAuthority (grown (count + 1))),
    length_dumps_list (List.cons_ne_nil _ _), keyLengths]
  omega

theorem canonical_grownFields {count : Nat} (small : count < maxCount) :
    ∃ data, canonical literalInterpreter (.dict (grownFields count)) = .ok data ∧
      data.length ≤ maxDeltaRequestBytes := by
  refine ⟨_, canonical_eq_ok.mpr ⟨?_, ?_, rfl⟩, ?_⟩
  · have shallow : (Value.dict (grownFields count)).depth = 4 := rfl
    rw [shallow]
    decide
  · have event : firstIssued.toDict.printable literalInterpreter = true := by decide +kernel
    have headPrinted := (canonical_eq_ok.mp (canonical_headDict literalInterpreter
      (verifyHead_signed digestAuthority (grown (count + 1))))).2.1
    simp [grownFields, commit2Fields, recordDict, grownRecord, Value.printable, Value.printableFields,
      Value.printableItems, event, headPrinted, length_digits_le small.le]
  · rw [length_canonicalBytes]
    exact (length_grownFields small).trans (by decide)

theorem verifyHead_grown (count : Nat) :
    verifyHead digestAuthority.verifier (some (digestAuthority.signed (grown (count + 1)))) =
      .ok (grown (count + 1)) := verifyHead_signed _ _

/-- The next record extends the chain that has grown so far. -/
theorem commitDelta_grown {count : Nat} (small : count < maxCount) :
    (AuditAnchor.commitDelta digestAuthority.verifier
      (some (digestAuthority.signed (grown (count + 1)))) [(grownRecord count).toItem]
      (grown count)).1 = .ok (grown (count + 1)) := by
  refine AuditAnchor.commitDelta_eq_ok.mpr ⟨[grownRecord count], extend_eq_ok.mpr
    ⟨verifyHead_grown count, ?_, [firstIssued], ?_, ?_, ?_, rfl⟩⟩
  · have single : count + 1 - count = 1 := by omega
    rw [grown_count small, grown_count small.le, Nat.succ_eq_add_one, single]
    decide
  · rw [grown_count small, grown_count small.le, List.length_singleton]
  · rw [grown_headHash small, grown_count small.le]
    rfl
  · rw [grown_count small.le]
    rfl

theorem tidy_grownFields (count : Nat) : (Value.dict (grownFields count)).tidy = true := by
  refine tidy_of_fields plain_commit2Keys rfl fun field inside => ?_
  simp only [grownFields, commit2Fields, List.mem_cons, List.not_mem_nil, or_false] at inside
  rcases inside with rfl | rfl | rfl | rfl
  · rfl
  · exact tidy_headDict (verifyHead_grown count)
  · rfl
  · exact tidy_recordDicts [grownRecord count]

/-- The process answers the next delta by moving to the next state. -/
theorem handle_grown {count : Nat} (small : count < maxCount) :
    handle literalInterpreter digestAuthority.verifier (receivedFields (grownFields count))
      (grown count) = (.ok (committed (grown (count + 1))), grown (count + 1)) := by
  obtain ⟨data, encoded, bounded⟩ := canonical_grownFields small
  have dicts : recordDicts [(grownRecord count).toItem] = .ok [recordDict (grownRecord count)] := rfl
  have fields : grownFields count = commit2Fields (grown count).count
      (digestAuthority.signed (grown (count + 1))) [recordDict (grownRecord count)] := by
    rw [grownFields, grown_count small.le]
  have shape := (received_fields (grownFields count) plain_commit2Keys rfl).1
  have encoded' := canonical_decoded encoded
  have same : canonicalBytes (Value.dict (grownFields count)).decoded = data :=
    (congrArg asciiBytes (Value.dumps_decoded (tidy_grownFields count))).trans
      (canonical_eq_ok.mp encoded).2.2.symm
  rw [same, shape] at encoded'
  rw [fields] at encoded' ⊢
  have decided := commitDelta_received.mpr (commitDelta_grown small)
  have stored := (AuditAnchor.settle_eq_ok decided).2
  simp only [handle, readRequest_commit2 dicts encoded' bounded]
  refine Prod.ext (congrArg (Except.map committed) decided) stored

theorem head_grown (count : Nat) :
    head (((receivedFields (grownFields count)).lookup (str "head")).getD .null) =
      .ok (digestAuthority.signed (grown (count + 1))) := by
  have looked := (received_fields (grownFields count) plain_commit2Keys rfl).2.2 (str "head")
  have found : (grownFields count).lookup (str "head") =
      some (headDict (digestAuthority.signed (grown (count + 1)))) := rfl
  rw [looked, found, Option.map_some, Option.getD_some, head_received,
    receivedHead_of_verified (verifyHead_grown count)]

/-- The next delta is acknowledged, and its line is at the end of the file. -/
theorem step_grown {count : Nat} (small : count < maxCount) (file : Option Bytes)
    (reported : List Committed) :
    step literalInterpreter digestAuthority.verifier ⟨file, some (grown count), reported⟩
      (grownRequest count) = some ⟨
        some (file.getD [] ++ lineOf (digestAuthority.signed (grown (count + 1)))),
        some (grown (count + 1)), grown (count + 1) :: reported⟩ := by
  have moved : grown (count + 1) ≠ grown count := by
    intro same
    have counts := congrArg Committed.count same
    rw [grown_count small, grown_count small.le] at counts
    omega
  have line : headLine literalInterpreter (digestAuthority.signed (grown (count + 1))) =
      .ok (lineOf (digestAuthority.signed (grown (count + 1)))) :=
    headLine_eq (verifyHead_grown count)
  simp only [step, grownRequest, answer, handle_grown small, moved, ↓reduceIte, head_grown, line,
    bind, Except.bind, statedBy_committed, Option.toList_some, List.singleton_append, append]

/-- A start with no file and a number of one-record commits. -/
def grownRun (count : Nat) : List ServeEvent := .start true :: (List.range count).map grownRequest

theorem grownRun_succ (count : Nat) :
    grownRun (count + 1) = grownRun count ++ [grownRequest count] := by
  rw [grownRun, grownRun, List.range_succ, List.map_append, List.map_singleton, List.cons_append]

/-- Every one of these commits is acknowledged, and every one adds a line of at
least 270 bytes. -/
theorem run_grown {count : Nat} (small : count ≤ maxCount) :
    ∃ file reported, run (step literalInterpreter digestAuthority.verifier) ⟨none, none, []⟩
      (grownRun count) = some ⟨file, some (grown count), grown count :: reported⟩ ∧
      270 * count ≤ (file.getD []).length := by
  induction count with
  | zero => exact ⟨none, [], rfl, Nat.zero_le _⟩
  | succ count ih =>
      obtain ⟨file, reported, ran, long⟩ := ih (Nat.le_of_succ_le small)
      refine ⟨some (file.getD [] ++ lineOf (digestAuthority.signed (grown (count + 1)))),
        grown count :: reported, ?_, ?_⟩
      · rw [grownRun_succ, run_append_singleton]
        exact ⟨_, ran, step_grown small file _⟩
      · have one := digitCount_pos (grown (count + 1)).count
        rw [Option.getD_some, List.length_append, length_lineOf (verifyHead_grown count)]
        omega

end Growth

end AnchorProcess

end GeniusNew
