import GeniusNew.Approvals.Lifecycle
import GeniusNew.Database.Coherence
import GeniusNew.Transition.Simulation

/-! # The durable approvals are the process-local ones

Seen through its calls and what they return, the approval store of the database is a
process-local approval store: the calls that return, in the order in which their
transactions commit, return the same from a store that one process holds in memory.
Everything else the instances do is silent.
-/

namespace GeniusNew

open Json

deriving instance DecidableEq for ApprovalStore.Answer

/-- A call of a process-local store that returns an answer. -/
def ApprovalStore.observe (interpreter : Interpreter) (records : ApprovalStore.Records)
    (event : ApprovalStore.Call × ApprovalStore.Answer) : Option ApprovalStore.Records :=
  match ApprovalStore.perform interpreter records event.1 with
  | .ok (answer, after) => if answer = event.2 then some after else none
  | .error _ => none

namespace Database

open Orchestrator Transition

/-- A transaction, and the answer to a call of the approval store. -/
abbrev Event := Transaction × Option ApprovalStore.Answer

/-- The answer and the tables that a call leaves. -/
def respond (interpreter : Interpreter) (tables : Tables) :
    Transaction → Outcome (Option ApprovalStore.Answer × Tables)
  | .grant scope created now ttlSeconds drawn => do
      let (grant, after) ←
        PostgresApprovalStore.grant interpreter scope created now ttlSeconds drawn tables
      return (some (.granted grant), after)
  | .consume token scope now subject => do
      let (receipt, after) ←
        PostgresApprovalStore.consume interpreter token scope now subject tables
      return (some (.changed receipt), after)
  | .revoke token scope now => do
      let (receipt, after) ← PostgresApprovalStore.revoke interpreter token scope now tables
      return (some (.changed receipt), after)
  | other => do
      let after ← perform interpreter tables other
      return (none, after)

def observe (interpreter : Interpreter) (tables : Tables) (event : Event) : Option Tables :=
  match respond interpreter tables event.1 with
  | .ok (answer, after) => if answer = event.2 then some after else none
  | .error _ => none

/-- The call of a process-local store that a transaction is. -/
def Transaction.call : Transaction → Option ApprovalStore.Call
  | .grant scope created now ttlSeconds drawn =>
      some (.grant scope created now ttlSeconds drawn false)
  | .consume token scope now _ => some (.consume token scope now false)
  | .revoke token scope now => some (.revoke token scope now false)
  | _ => none

/-- What an event shows of the approval store. -/
def Event.shown (event : Event) : Option (ApprovalStore.Call × ApprovalStore.Answer) :=
  event.1.call.bind fun call => event.2.map fun answer => (call, answer)

/-- A scope with the origin of `create_scope` was made by it. -/
def Transaction.Honest (interpreter : Interpreter) : Transaction → Prop
  | .grant scope created _ _ _ => created = true → ApprovalStore.Created interpreter scope
  | _ => True

/-- The records of a process-local store are the current ones of the tables. -/
structure Represents (interpreter : Interpreter) (tables : Tables)
    (records : ApprovalStore.Records) : Prop where
  current : ∀ digest record, records.lookup digest = some record →
    record.tokenDigest = digest ∧ ∃ recordHash row,
      tables.tokens.lookup (hex digest) = some recordHash ∧
        tables.records.lookup recordHash = some row ∧ Holds interpreter recordHash row record
  known : ∀ digest, hex digest ∈ tables.tokens → (records.lookup digest).isSome = true

section Represents

variable {interpreter : Interpreter} {before after : Tables} {records : ApprovalStore.Records}
  {transaction : Transaction}

theorem hex_injective {one two : Bytes} (same : hex one = hex two) : one = two := by
  rw [← fromHex_hex one, same, fromHex_hex]

theorem joined_of_plain {scope : ApprovalScope} (plain : scope.Joined) : scope.joined = scope := by
  simp only [ApprovalScope.Joined, List.forall_mem_cons, List.not_mem_nil, false_implies,
    implies_true, and_true] at plain
  obtain ⟨job, user, worker, tier, version⟩ := plain
  cases scope
  simp only [ApprovalScope.joined, job, user, worker, tier, version]

/-- The current record of a token is the one that the process-local store has. -/
theorem Represents.lookup (represents : Represents interpreter before records) {digest : Bytes}
    {recordHash : Str} {row : ApprovalRow} {record : ApprovalRecord}
    (pointer : before.tokens.lookup (hex digest) = some recordHash)
    (found : before.records.lookup recordHash = some row)
    (holds : Holds interpreter recordHash row record) :
    records.lookup digest = some record ∧ record.tokenDigest = digest := by
  obtain ⟨other, present⟩ := Option.isSome_iff_exists.mp
    (represents.known digest (Table.mem_iff.mpr ⟨recordHash, pointer⟩))
  obtain ⟨owned, current, line, pointed, stored, held⟩ := represents.current digest other present
  obtain rfl := Option.some.inj (pointer.symm.trans pointed)
  obtain rfl := Option.some.inj (found.symm.trans stored)
  obtain rfl := held.unique holds
  exact ⟨present, owned⟩

/-- A record becomes the current one of its token, here and there. -/
theorem Represents.recorded (chained : Chained interpreter before)
    (represents : Represents interpreter before records) {left : ApprovalStore.Records}
    {digest : Bytes} {recordHash : Str} {row : ApprovalRow} {record : ApprovalRecord}
    (stored : after.records = before.records.insert recordHash row)
    (tokens : after.tokens = before.tokens.insert (hex digest) recordHash)
    (fresh : recordHash ∉ before.records) (owned : record.tokenDigest = digest)
    (holds : Holds interpreter recordHash row record)
    (written : ∀ other, left.lookup other =
      if other = digest then some record else records.lookup other) :
    Represents interpreter after left := by
  constructor
  · intro other held present
    rw [written] at present
    split_ifs at present with same
    · obtain rfl := Option.some.inj present
      rw [same, stored, tokens]
      exact ⟨owned, recordHash, row, AList.lookup_insert _, AList.lookup_insert _, holds⟩
    · obtain ⟨named, current, line, pointed, found, held⟩ := represents.current other held present
      have apart : hex other ≠ hex digest := fun equal => same (hex_injective equal)
      obtain ⟨_, there, _⟩ := (chained.history _ current pointed).current
      have different : current ≠ recordHash := fun equal =>
        fresh (Table.mem_iff.mpr ⟨_, equal ▸ there⟩)
      rw [stored, tokens]
      exact ⟨named, current, line, (AList.lookup_insert_ne apart).trans pointed,
        (AList.lookup_insert_ne different).trans found, held⟩
  · intro other member
    rw [written]
    split_ifs with same
    · rfl
    · rw [tokens, AList.mem_insert] at member
      obtain equal | member := member
      · exact absurd (hex_injective equal) same
      · exact represents.known other member

theorem Represents.frame (represents : Represents interpreter before records)
    (stored : after.records = before.records) (tokens : after.tokens = before.tokens) :
    Represents interpreter after records := by
  obtain ⟨current, known⟩ := represents
  constructor
  · rw [stored, tokens]
    exact current
  · rw [tokens]
    exact known

/-- A grant that the tables take is the one that the process-local store makes. -/
theorem Represents.grant (chained : Chained interpreter before)
    (represents : Represents interpreter before records) {scope : ApprovalScope} {created : Bool}
    {now ttlSeconds : Int} {drawn : Option Bytes} {granted : ApprovalGrant}
    (honest : created = true → ApprovalStore.Created interpreter scope)
    (returned : PostgresApprovalStore.grant interpreter scope created now ttlSeconds drawn before =
      .ok (granted, after)) : ∃ left,
    ApprovalStore.grant interpreter records scope created now ttlSeconds drawn false =
        .ok (granted, left) ∧ Represents interpreter after left := by
  obtain ⟨record, raw, grants, same, rfl⟩ := grant_effect returned
  obtain ⟨own, _, _, _, _, entry, seals⟩ := newGrant_eq_ok grants.minted
  obtain ⟨read, holds, scopes⟩ := grants.holds
  rw [joined_of_plain (honest own).joined] at scopes
  -- the row reads as the record that was minted
  have equal : read = record := by
    have columns := holds.columns
    have token := hex_injective (congrArg ApprovalRow.tokenDigest columns)
    have previous := Option.map_injective Subtype.val_injective
      (congrArg ApprovalRow.previousHash columns)
    have entries : read.toApprovalEntry = record.toApprovalEntry := by
      have issued : record.issuedAt = read.issuedAt := congrArg ApprovalRow.issuedAt columns
      have expires : record.expiresAt = read.expiresAt := congrArg ApprovalRow.expiresAt columns
      have state : record.state = read.state := congrArg ApprovalRow.state columns
      have changed : record.changedAt = read.changedAt := congrArg ApprovalRow.changedAt columns
      have scope : record.scope = read.scope := by rw [scopes, entry]
      cases read with
      | mk entries hash =>
          cases entries
          simp only at token previous issued expires state changed scope
          rw [← token, ← previous, ← issued, ← expires, ← state, ← changed, ← scope]
    have reads := holds.seals
    rw [ApprovalStore.Sealed, entries, seals] at reads
    exact (Except.ok.inj reads).symm
  rw [equal] at holds
  have free : records.lookup record.tokenDigest = none := by
    cases present : records.lookup record.tokenDigest with
    | none => rfl
    | some other =>
        obtain ⟨_, current, _, pointed, _⟩ := represents.current _ other present
        exact absurd (Table.mem_iff.mpr ⟨current, pointed⟩) grants.free
  refine ⟨records ++ [(record.tokenDigest, record)], ?_, ?_⟩
  · unfold ApprovalStore.grant
    rw [if_neg Bool.false_ne_true, grants.minted, same]
    refine bind_eq_ok.mpr ⟨_, rfl, ?_⟩
    dsimp only
    rw [free]
    rfl
  · exact represents.recorded chained rfl rfl grants.fresh rfl holds
      fun other => Assoc.lookup_concat free _

/-- So is a change of a current record. -/
theorem Represents.change (chained : Chained interpreter before)
    (represents : Represents interpreter before records) {token : Bytes} {scope : ApprovalScope}
    {now : Int} {state : ApprovalState} {current : Str} {row : ApprovalRow}
    {record updated : ApprovalRecord} {raw : Bytes}
    (succeeds : Succeeds interpreter before token scope now state current row record updated raw) :
    ∃ left, ApprovalStore.transition interpreter records token scope now state
        (decide (state = .consumed)) =
      .ok (⟨updated.scope, state, now, updated.recordHash⟩, left) ∧
    ∀ after : Tables, after.records =
        before.records.insert updated.recordHash.val (approvalRow updated raw) →
      after.tokens = before.tokens.insert (hex (Sha256.digest token)) updated.recordHash.val →
      Represents interpreter after left := by
  obtain ⟨present, owned⟩ :=
    represents.lookup succeeds.pointer succeeds.found (succeeds.holds chained)
  have entry := ApprovalStore.record_eq_ok succeeds.written
  have key : updated.tokenDigest = Sha256.digest token := by
    rw [entry]
    exact owned
  refine ⟨Assoc.replace records (Sha256.digest token) updated, ?_, ?_⟩
  · unfold ApprovalStore.transition
    rw [if_neg (not_lt.mpr succeeds.long), present]
    dsimp only
    rw [if_neg (not_not.mpr owned), succeeds.matched]
    refine bind_eq_ok.mpr ⟨true, rfl, guarded_eq_ok.mpr ⟨by simp, guarded_eq_ok.mpr
      ⟨not_not.mpr succeeds.granted, guarded_eq_ok.mpr ⟨not_lt.mpr succeeds.timed.1,
        guarded_eq_ok.mpr ⟨?_, bind_eq_ok.mpr ⟨updated, succeeds.written, rfl⟩⟩⟩⟩⟩⟩
    rintro ⟨consumes, late⟩
    exact absurd (succeeds.timely (of_decide_eq_true consumes)) (not_lt.mpr late)
  · intro after stored tokens
    refine represents.recorded chained stored tokens succeeds.fresh key (succeeds.columns chained).2
      fun other => ?_
    rw [Assoc.lookup_replace]
    split_ifs
    · rw [present]
      rfl
    · rfl

end Represents

section Simulation

variable {interpreter : Interpreter} {before after : Tables} {records : ApprovalStore.Records}

theorem observe_eq_some {event : Event} : observe interpreter before event = some after ↔
    respond interpreter before event.1 = .ok (event.2, after) := by
  unfold observe
  cases respond interpreter before event.1 with
  | error raised => simp
  | ok result =>
      dsimp only
      rw [Except.ok.injEq, Prod.ext_iff]
      split_ifs with same
      · simp [same]
      · simp [same]

/-- A transaction with its answer does what it does without. -/
theorem perform_of_respond {transaction : Transaction} {answer : Option ApprovalStore.Answer}
    (returned : respond interpreter before transaction = .ok (answer, after)) :
    perform interpreter before transaction = .ok after := by
  have silent {transaction : Transaction}
      (returned : (perform interpreter before transaction >>= fun after =>
        pure ((none : Option ApprovalStore.Answer), after)) = .ok (answer, after)) :
      perform interpreter before transaction = .ok after := by
    obtain ⟨left, performed, same⟩ := bind_eq_ok.mp returned
    obtain ⟨_, rfl⟩ := Prod.mk.inj (pure_eq_ok.mp same)
    exact performed
  cases transaction with
  | grant scope created now ttlSeconds drawn =>
      obtain ⟨⟨granted, left⟩, made, same⟩ := bind_eq_ok.mp returned
      obtain ⟨_, rfl⟩ := Prod.mk.inj (pure_eq_ok.mp same)
      exact bind_eq_ok.mpr ⟨_, made, rfl⟩
  | consume token scope now subject =>
      obtain ⟨⟨receipt, left⟩, made, same⟩ := bind_eq_ok.mp returned
      obtain ⟨_, rfl⟩ := Prod.mk.inj (pure_eq_ok.mp same)
      exact bind_eq_ok.mpr ⟨_, made, rfl⟩
  | revoke token scope now =>
      obtain ⟨⟨receipt, left⟩, made, same⟩ := bind_eq_ok.mp returned
      obtain ⟨_, rfl⟩ := Prod.mk.inj (pure_eq_ok.mp same)
      exact bind_eq_ok.mpr ⟨_, made, rfl⟩
  | add => exact silent returned
  | refuse => exact silent returned
  | reserveAdmitted => exact silent returned
  | commitExecution => exact silent returned
  | accept => exact silent returned

theorem approval_eq_some {call : ApprovalStore.Call} {answer : ApprovalStore.Answer}
    {left : ApprovalStore.Records}
    (performed : ApprovalStore.perform interpreter records call = .ok (answer, left)) :
    ApprovalStore.observe interpreter records (call, answer) = some left := by
  unfold ApprovalStore.observe
  rw [performed]
  exact if_pos rfl

/-- The tables and the store that one process holds in memory. -/
structure Related (interpreter : Interpreter) (tables : Tables) (records : ApprovalStore.Records) :
    Prop where
  coherent : Coherent interpreter tables
  represents : Represents interpreter tables records

theorem simulates (interpreter : Interpreter) :
    Simulates (observe interpreter) (ApprovalStore.observe interpreter) Event.shown
      (fun event => event.1.Honest interpreter) (Related interpreter) where
  matched := by
    rintro before ⟨transaction, answer⟩ after ⟨call, seen⟩ records honest shown
      ⟨coherent, represents⟩ stepped
    have returned := observe_eq_some.mp stepped
    have kept := coherent.effect (effect_of_perform (perform_of_respond returned))
    have chained := coherent.chained
    obtain ⟨made, called, answered⟩ := Option.bind_eq_some_iff.mp shown
    obtain ⟨given, rfl, same⟩ := Option.map_eq_some_iff.mp answered
    obtain ⟨rfl, rfl⟩ := Prod.mk.inj same
    cases transaction with
    | grant scope created now ttlSeconds drawn =>
        obtain rfl := Option.some.inj called
        obtain ⟨⟨granted, written⟩, stored, same⟩ := bind_eq_ok.mp returned
        obtain ⟨equal, rfl⟩ := Prod.mk.inj (pure_eq_ok.mp same)
        obtain rfl := Option.some.inj equal
        obtain ⟨left, local_, again⟩ := represents.grant chained honest stored
        exact ⟨left, approval_eq_some (bind_eq_ok.mpr ⟨_, local_, rfl⟩), kept, again⟩
    | consume token scope now subject =>
        obtain rfl := Option.some.inj called
        obtain ⟨⟨receipt, written⟩, stored, same⟩ := bind_eq_ok.mp returned
        obtain ⟨equal, rfl⟩ := Prod.mk.inj (pure_eq_ok.mp same)
        obtain rfl := Option.some.inj equal
        obtain ⟨current, row, record, updated, raw, succeeds, rfl, _, job, pending, _, _, _, _, _, _,
          _, rfl⟩ := change_eq_ok stored
        obtain ⟨left, local_, again⟩ := represents.change chained succeeds
        exact ⟨left, approval_eq_some (bind_eq_ok.mpr ⟨_, local_, rfl⟩), kept, again _ rfl rfl⟩
    | revoke token scope now =>
        obtain rfl := Option.some.inj called
        obtain ⟨⟨receipt, written⟩, stored, same⟩ := bind_eq_ok.mp returned
        obtain ⟨equal, rfl⟩ := Prod.mk.inj (pure_eq_ok.mp same)
        obtain rfl := Option.some.inj equal
        obtain ⟨current, row, record, updated, raw, succeeds, rfl, ends⟩ := change_eq_ok stored
        have ends : written = before.recorded _ _ _ := ends
        obtain ⟨left, local_, again⟩ := represents.change chained succeeds
        rw [ends] at kept ⊢
        exact ⟨left, approval_eq_some (bind_eq_ok.mpr ⟨_, local_, rfl⟩), kept, again _ rfl rfl⟩
    | _ => cases called
  silent := by
    rintro before ⟨transaction, answer⟩ after records honest hidden ⟨coherent, represents⟩ stepped
    have returned := observe_eq_some.mp stepped
    have effect := effect_of_perform (perform_of_respond returned)
    refine ⟨coherent.effect effect, ?_⟩
    cases effect with
    -- a call of the approval store that returns shows its answer
    | grant =>
        obtain ⟨_, _, same⟩ := bind_eq_ok.mp returned
        obtain ⟨rfl, _⟩ := Prod.mk.inj (pure_eq_ok.mp same)
        cases hidden
    | consume =>
        obtain ⟨_, _, same⟩ := bind_eq_ok.mp returned
        obtain ⟨rfl, _⟩ := Prod.mk.inj (pure_eq_ok.mp same)
        cases hidden
    | revoke =>
        obtain ⟨_, _, same⟩ := bind_eq_ok.mp returned
        obtain ⟨rfl, _⟩ := Prod.mk.inj (pure_eq_ok.mp same)
        cases hidden
    | add => exact represents.frame rfl rfl
    | refuse => exact represents.frame rfl rfl
    | burned => exact represents
    | admitted => exact represents
    | replayed => exact represents
    | reserve => exact represents.frame rfl rfl
    | commit => exact represents.frame rfl rfl
    | accept => exact represents.frame rfl rfl

end Simulation

end Database

end GeniusNew
