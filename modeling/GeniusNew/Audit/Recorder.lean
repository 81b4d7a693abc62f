import GeniusNew.Audit.Incremental

/-! # The recorder of a chain and its anchor

`_AnchoredAudit` appends an event and has the anchor acknowledge the chain under
one lock. A commit that raises leaves a flag behind, and the next append commits
again before it links anything. The commits themselves may raise before or after
the anchor moved; which of the two happened is part of a step's label.
-/

namespace GeniusNew.AnchoredAudit

open Json HashChain Transition

/-- What the lock of a recorder guards. -/
structure Recorder where
  chain : List CheckedRecord
  anchor : Committed
  needsReanchor : Bool

/-- What becomes of one `anchor.commit`: its own outcome comes back, or it
raises with the anchor not moved, or it raises after the anchor has moved. -/
inductive Reply where
  | answered
  | refused (reason : Raised)
  | lost (reason : Raised)

def commit (authority : AuditAuthority) (reply : Reply) (head : AuditHead)
    (records : List CheckedRecord) (anchor : Committed) : Outcome Committed × Committed :=
  let (outcome, moved) :=
    AuditAnchor.commit authority.verifier (some head) (records.map CheckedRecord.toItem) anchor
  match reply with
  | .answered => (outcome, moved)
  | .refused reason => (.error reason, anchor)
  | .lost reason => (.error reason, moved)

/-- `acknowledged == (head.count, head.head_hash)`. -/
def acknowledges (head : AuditHead) (acknowledged : Committed) : Bool :=
  match head.count, head.headHash with
  | .int count, .str headHash =>
      count == acknowledged.count && headHash == acknowledged.headHash.val
  | _, _ => false

/-- `_commit_locked`. -/
def commitLocked (authority : AuditAuthority) (reply : Reply) (recorder : Recorder) :
    Outcome AuditHead × Recorder :=
  match AuditChain.snapshot authority recorder.chain with
  | .error raised => (.error raised, recorder)
  | .ok (head, records) =>
      let (outcome, anchor) := commit authority reply head records recorder.anchor
      let checked : Outcome AuditHead := do
        let acknowledged ← outcome
        if acknowledges head acknowledged then return head
        else fail "anchor acknowledgement does not match the submitted head"
      (checked, { recorder with anchor })

/-- `_ack_locked`. -/
def ackLocked (authority : AuditAuthority) (reply : Reply) (recorder : Recorder) :
    Outcome AuditHead × Recorder :=
  match commitLocked authority reply recorder with
  | (.ok head, after) => (.ok head, { after with needsReanchor := false })
  | (.error raised, after) => (.error raised, { after with needsReanchor := true })

/-- `_recover_locked`. -/
def recoverLocked (authority : AuditAuthority) (reply : Reply) (recorder : Recorder) :
    Outcome Unit × Recorder :=
  if recorder.needsReanchor then
    match ackLocked authority reply recorder with
    | (.ok _, after) => (.ok (), after)
    | (.error raised, after) => (.error raised, after)
  else (.ok (), recorder)

/-- `self.chain.append(event)`. -/
def Recorder.linked (event : AuditEvent) (recorder : Recorder) : Recorder :=
  { recorder with chain := (AuditChain.append recorder.chain event).2 }

/-- `append` with nothing else running: `recovery` is what becomes of the commit
before the event is linked, where there is one. -/
def append (authority : AuditAuthority) (event : AuditEvent) (recovery acknowledgement : Reply)
    (recorder : Recorder) : Outcome Unit × Recorder :=
  match recoverLocked authority recovery recorder with
  | (.error raised, after) => (.error raised, after)
  | (.ok (), recovered) =>
      match ackLocked authority acknowledgement (recovered.linked event) with
      | (.ok _, after) => (.ok (), after)
      | (.error raised, after) => (.error raised, after)

inductive Call where
  | append (event : AuditEvent)
  | head

/-- Where a call stands. From `entered` on until it returns or raises it holds
the lock. -/
inductive Phase where
  | called (call : Call)
  | entered (call : Call)
  | recovered (event : AuditEvent)
  | linked
  | returned (head : Option AuditHead)
  | raised (reason : Raised)

def Phase.holds : Phase → Bool
  | .entered _ | .recovered _ | .linked => true
  | _ => false

/-- A recorder, who holds its lock, and the calls of all threads, each at the
index that names it. -/
structure Shared where
  recorder : Recorder
  lock : Option Nat
  calls : List Phase

def Shared.moved (shared : Shared) (caller : Nat) (phase : Phase) (recorder : Recorder) : Shared :=
  { shared with recorder, calls := shared.calls.set caller phase }

/-- A call leaves the critical section. -/
def Shared.left (shared : Shared) (caller : Nat) (phase : Phase) (recorder : Recorder) : Shared :=
  { recorder, lock := none, calls := shared.calls.set caller phase }

/-- The last acknowledgement of a call, which ends it either way. -/
def Shared.acknowledge (authority : AuditAuthority) (reply : Reply) (caller : Nat)
    (result : AuditHead → Option AuditHead) (shared : Shared) : Shared :=
  match ackLocked authority reply shared.recorder with
  | (.ok head, recorder) => shared.left caller (.returned (result head)) recorder
  | (.error reason, recorder) => shared.left caller (.raised reason) recorder

/-- One step of one call, with what becomes of the commit it makes, if any. -/
def step (authority : AuditAuthority) (shared : Shared) : Nat × Reply → Option Shared
  | (caller, reply) =>
      match shared.calls[caller]? with
      | some (.called call) =>
          match shared.lock with
          | some _ => none
          | none => some { shared with
              lock := some caller
              calls := shared.calls.set caller (.entered call) }
      | some (.entered (.append event)) =>
          match recoverLocked authority reply shared.recorder with
          | (.ok (), recorder) => some (shared.moved caller (.recovered event) recorder)
          | (.error reason, recorder) => some (shared.left caller (.raised reason) recorder)
      | some (.recovered event) =>
          some (shared.moved caller .linked (shared.recorder.linked event))
      | some .linked => some (shared.acknowledge authority reply caller fun _ => none)
      | some (.entered .head) => some (shared.acknowledge authority reply caller some)
      | _ => none

/-- A recorder whose chain and anchor hold the chain of the given events. -/
def Recorder.holding (events : List AuditEvent) (short : events.length ≤ maxCount) : Recorder where
  chain := recordsFrom 0 emptyHash events
  anchor := commitment events short
  needsReanchor := false

def Shared.start (events : List AuditEvent) (short : events.length ≤ maxCount) (calls : List Call) :
    Shared where
  recorder := .holding events short
  lock := none
  calls := calls.map .called

/-- The chain extends what the anchor committed by at most one record. -/
def Recorder.Trails (recorder : Recorder) : Prop :=
  ∃ committed ahead : List AuditEvent, ahead.length ≤ 1 ∧ Verified recorder.anchor committed ∧
    recorder.chain = recordsFrom 0 emptyHash (committed ++ ahead)

/-- The anchor has committed the whole chain. -/
def Recorder.CaughtUp (recorder : Recorder) : Prop :=
  recorder.anchor.count = recorder.chain.length ∧
    recorder.anchor.headHash = lastHash emptyHash recorder.chain

section Acknowledgement

variable {authority : AuditAuthority} {reply : Reply} {recorder : Recorder}

theorem snapshot_eq_ok {records : List CheckedRecord} {head : AuditHead}
    {copied : List CheckedRecord}
    (signed : AuditChain.snapshot authority records = .ok (head, copied)) :
    copied = records ∧ ∃ short : records.length ≤ maxCount,
      head = authority.signed ⟨records.length, lastHash emptyHash records, short⟩ := by
  obtain ⟨own, signs, same⟩ := bind_eq_ok.mp signed
  obtain ⟨⟨counted, short⟩, counts, rest⟩ := bind_eq_ok.mp signs
  obtain rfl := pure_eq_ok.mp rest
  obtain ⟨rfl, rfl⟩ := Prod.mk.inj (pure_eq_ok.mp same)
  obtain rfl : records.length = counted := Int.ofNat.inj (Value.int.inj (count_eq_ok.mp counts))
  exact ⟨rfl, short, rfl⟩

section Anchor

variable {head : AuditHead} {events : List AuditEvent} {anchor committed : Committed}

theorem verified_of_commit
    (answer : (AuditAnchor.commit authority.verifier (some head) (chainItems events) anchor).1 =
      .ok committed) :
    Verified (AuditAnchor.commit authority.verifier (some head) (chainItems events) anchor).2
      events := by
  obtain ⟨others, _, whole, items, moved, _⟩ := commit_eq_ok answer
  obtain rfl := AuditAnchor.chainItems_injective items
  rw [moved]
  exact whole

theorem kept_of_commit {raised : Raised}
    (answer : (AuditAnchor.commit authority.verifier (some head) (chainItems events) anchor).1 =
      .error raised) :
    (AuditAnchor.commit authority.verifier (some head) (chainItems events) anchor).2 = anchor := by
  unfold AuditAnchor.commit at answer ⊢
  exact AuditAnchor.settle_error answer

/-- A commit of a chain of events leaves the anchor as it was or commits them
all, whatever is heard of it. -/
theorem commit_moves :
    (commit authority reply head (recordsFrom 0 emptyHash events) anchor).2 = anchor ∨
      Verified (commit authority reply head (recordsFrom 0 emptyHash events) anchor).2 events := by
  have moves : (AuditAnchor.commit authority.verifier (some head) (chainItems events) anchor).2 =
      anchor ∨ Verified (AuditAnchor.commit authority.verifier (some head)
        (chainItems events) anchor).2 events := by
    cases answer : (AuditAnchor.commit authority.verifier (some head) (chainItems events) anchor).1
      with
    | error raised => exact Or.inl (kept_of_commit answer)
    | ok committed => exact Or.inr (verified_of_commit answer)
  unfold commit
  cases reply with
  | answered => exact moves
  | refused reason => exact Or.inl rfl
  | lost reason => exact moves

theorem commit_answered
    (answer : (commit authority reply head (recordsFrom 0 emptyHash events) anchor).1 =
      .ok committed) :
    Verified (commit authority reply head (recordsFrom 0 emptyHash events) anchor).2 events := by
  unfold commit at answer ⊢
  cases reply with
  | answered => exact verified_of_commit answer
  | refused reason => cases answer
  | lost reason => cases answer

end Anchor

theorem Recorder.Trails.length_le (trails : recorder.Trails) :
    recorder.anchor.count ≤ recorder.chain.length ∧
      recorder.chain.length ≤ recorder.anchor.count + 1 := by
  obtain ⟨committed, ahead, few, whole, chained⟩ := trails
  rw [chained, length_recordsFrom, List.length_append, whole.length_eq]
  omega

theorem caughtUp_of_verified {events : List AuditEvent}
    (chained : recorder.chain = recordsFrom 0 emptyHash events)
    (whole : Verified recorder.anchor events) : recorder.CaughtUp := by
  refine ⟨?_, ?_⟩
  · rw [chained, length_recordsFrom, whole.length_eq]
  · rw [chained, lastHash_recordsFrom, whole.tip_eq]

/-- A chain the anchor has committed in full. -/
theorem Recorder.Trails.verified (trails : recorder.Trails) (caughtUp : recorder.CaughtUp) :
    ∃ events, recorder.chain = recordsFrom 0 emptyHash events ∧ Verified recorder.anchor events := by
  obtain ⟨committed, ahead, few, whole, chained⟩ := trails
  have sized := caughtUp.1
  rw [chained, length_recordsFrom, List.length_append, whole.length_eq] at sized
  obtain rfl : ahead = [] := List.length_eq_zero_iff.mp (by omega)
  rw [List.append_nil] at chained
  exact ⟨committed, chained, whole⟩

/-- A record linked to a committed chain is the only one the anchor lacks. -/
theorem Recorder.Trails.linked (event : AuditEvent) (trails : recorder.Trails)
    (caughtUp : recorder.CaughtUp) : (recorder.linked event).Trails := by
  obtain ⟨events, chained, whole⟩ := trails.verified caughtUp
  refine ⟨events, [event], le_refl _, whole, ?_⟩
  rw [Recorder.linked, chained, append_recordsFrom]

/-- A recorder whose chain its anchor trails, and whose anchor has not moved back. -/
def Recorder.Moved (before after : Recorder) : Prop :=
  after.Trails ∧ before.anchor.count ≤ after.anchor.count

/-- Everything an acknowledgement can do to a recorder: it succeeds and the
anchor has the whole chain, or it raises and the flag is up. -/
theorem ackLocked_cases (authority : AuditAuthority) (reply : Reply) (trails : recorder.Trails) :
    (∃ head anchor, ackLocked authority reply recorder =
        (.ok head, ⟨recorder.chain, anchor, false⟩) ∧
      (Recorder.mk recorder.chain anchor false).CaughtUp ∧
      recorder.Moved ⟨recorder.chain, anchor, false⟩) ∨
    (∃ reason anchor, ackLocked authority reply recorder =
        (.error reason, ⟨recorder.chain, anchor, true⟩) ∧
      recorder.Moved ⟨recorder.chain, anchor, true⟩) := by
  obtain ⟨committed, ahead, few, whole, chained⟩ := trails
  have trailing : ∀ anchor flag, anchor = recorder.anchor ∨ Verified anchor (committed ++ ahead) →
      recorder.Moved ⟨recorder.chain, anchor, flag⟩ := by
    rintro anchor flag (rfl | all)
    · exact ⟨⟨committed, ahead, few, whole, chained⟩, le_refl _⟩
    · refine ⟨⟨committed ++ ahead, [], Nat.zero_le _, all, ?_⟩, ?_⟩
      · rw [List.append_nil]
        exact chained
      · show recorder.anchor.count ≤ anchor.count
        rw [← whole.length_eq, ← all.length_eq, List.length_append]
        omega
  cases signed : AuditChain.snapshot authority recorder.chain with
  | error raised =>
      refine Or.inr ⟨raised, recorder.anchor, ?_, trailing _ _ (Or.inl rfl)⟩
      simp only [ackLocked, commitLocked, signed]
  | ok copied =>
      obtain ⟨head, records⟩ := copied
      obtain ⟨rfl, _⟩ := snapshot_eq_ok signed
      have moves : (commit authority reply head recorder.chain recorder.anchor).2 =
          recorder.anchor ∨ Verified (commit authority reply head recorder.chain
            recorder.anchor).2 (committed ++ ahead) := by
        rw [chained]
        exact commit_moves
      have answered : ∀ acknowledged, (commit authority reply head recorder.chain
          recorder.anchor).1 = .ok acknowledged → Verified (commit authority reply head
            recorder.chain recorder.anchor).2 (committed ++ ahead) := by
        rw [chained]
        exact fun _ answer => commit_answered answer
      simp only [ackLocked, commitLocked, signed]
      generalize commit authority reply head recorder.chain recorder.anchor = answer at moves answered ⊢
      obtain ⟨outcome, anchor⟩ := answer
      cases outcome with
      | error reason => exact Or.inr ⟨reason, anchor, rfl, trailing _ _ moves⟩
      | ok acknowledged =>
          have all := answered acknowledged rfl
          by_cases same : acknowledges head acknowledged = true
          · refine Or.inl ⟨head, anchor, ?_, caughtUp_of_verified chained all,
              trailing _ _ (Or.inr all)⟩
            simp only [bind, Except.bind, same, ↓reduceIte, pure, Except.pure]
          · refine Or.inr ⟨.contractError "anchor acknowledgement does not match the submitted head",
              anchor, ?_, trailing _ _ moves⟩
            simp only [bind, Except.bind, same]
            rfl

/-- What a chain of events within bounds and its signed head make of the anchor. -/
theorem commit_trailing {committed ahead : List AuditEvent}
    (short : (committed ++ ahead).length ≤ maxCount) (whole : Verified recorder.anchor committed) :
    AuditAnchor.commit authority.verifier
        (some (authority.signed (commitment (committed ++ ahead) short)))
        (chainItems (committed ++ ahead)) recorder.anchor =
      (.ok (commitment (committed ++ ahead) short), commitment (committed ++ ahead) short) := by
  have committed_first : (committed ++ ahead).take recorder.anchor.count = committed := by
    rw [← whole.length_eq]
    exact List.take_left
  have reached : recorder.anchor.count ≤ (committed ++ ahead).length := by
    rw [← whole.length_eq, List.length_append]
    omega
  have passes : tip link 0 emptyHash (written ((committed ++ ahead).take recorder.anchor.count)) =
      recorder.anchor.headHash := by
    rw [committed_first]
    exact whole.tip_eq
  have answer := AuditAnchor.commit_of_verified (verifyHead_signed authority _)
    (verified_commitment short) reached passes
  exact Prod.ext answer (AuditAnchor.settle_eq_ok answer).2

/-- A commit that reaches the anchor of a chain within bounds moves it there,
whether or not that is heard of. -/
theorem ackLocked_trailing (authority : AuditAuthority) (recorder : Recorder)
    (committed ahead : List AuditEvent) (short : (committed ++ ahead).length ≤ maxCount)
    (whole : Verified recorder.anchor committed)
    (chained : recorder.chain = recordsFrom 0 emptyHash (committed ++ ahead)) :
    let all := commitment (committed ++ ahead) short
    ackLocked authority .answered recorder =
        (.ok (authority.signed all), ⟨recorder.chain, all, false⟩) ∧
      (∀ reason, ackLocked authority (.lost reason) recorder =
        (.error reason, ⟨recorder.chain, all, true⟩)) ∧
      ∀ reason, ackLocked authority (.refused reason) recorder =
        (.error reason, ⟨recorder.chain, recorder.anchor, true⟩) := by
  intro all
  have counted : recorder.chain.length = all.count := by
    rw [chained]
    exact length_recordsFrom _
  have signed : AuditChain.snapshot authority recorder.chain =
      .ok (authority.signed all, recorder.chain) := by
    have short' : recorder.chain.length ≤ maxCount := counted ▸ short
    have ends : lastHash emptyHash recorder.chain = all.headHash := by
      rw [chained]
      exact lastHash_recordsFrom _
    have same : (⟨recorder.chain.length, lastHash emptyHash recorder.chain, short'⟩ : Committed) =
        all := Committed.ext counted ends
    have fits : count (.int recorder.chain.length) "count" = .ok ⟨recorder.chain.length, short'⟩ :=
      count_eq_ok.mpr rfl
    rw [AuditChain.snapshot, signHead, fits, ← same]
    rfl
  have moved : AuditAnchor.commit authority.verifier (some (authority.signed all))
      (recorder.chain.map CheckedRecord.toItem) recorder.anchor = (.ok all, all) := by
    rw [chained]
    exact commit_trailing short whole
  have agrees : acknowledges (authority.signed all) all = true := by
    simp only [acknowledges, AuditAuthority.signed, AuditHead.claiming, beq_self_eq_true,
      Bool.and_self]
  refine ⟨?_, fun reason => ?_, fun reason => ?_⟩
  · simp only [ackLocked, commitLocked, signed, commit, moved, bind, Except.bind, agrees,
      ↓reduceIte, pure, Except.pure]
  · simp only [ackLocked, commitLocked, signed, commit, moved, bind, Except.bind]
  · simp only [ackLocked, commitLocked, signed, commit, bind, Except.bind]

/-- The recovery before an event is linked: unless it raises, nothing is left
unacknowledged. -/
theorem recoverLocked_cases (authority : AuditAuthority) (reply : Reply)
    (trails : recorder.Trails) (settled : recorder.needsReanchor = false → recorder.CaughtUp) :
    (∃ anchor, recoverLocked authority reply recorder =
        (.ok (), ⟨recorder.chain, anchor, false⟩) ∧
      (Recorder.mk recorder.chain anchor false).CaughtUp ∧
      recorder.Moved ⟨recorder.chain, anchor, false⟩) ∨
    (∃ reason anchor, recoverLocked authority reply recorder =
        (.error reason, ⟨recorder.chain, anchor, true⟩) ∧
      recorder.Moved ⟨recorder.chain, anchor, true⟩) := by
  unfold recoverLocked
  by_cases flagged : recorder.needsReanchor = true
  · rw [if_pos flagged]
    obtain ⟨head, anchor, acked, caughtUp, trailing⟩ | ⟨reason, anchor, acked, trailing⟩ :=
      ackLocked_cases authority reply trails
    · exact Or.inl ⟨anchor, by rw [acked], caughtUp, trailing⟩
    · exact Or.inr ⟨reason, anchor, by rw [acked], trailing⟩
  · rw [if_neg flagged]
    rw [Bool.not_eq_true] at flagged
    have caughtUp := settled flagged
    obtain ⟨chain, anchor, flag⟩ := recorder
    obtain rfl : flag = false := flagged
    exact Or.inl ⟨anchor, rfl, caughtUp, trails, le_refl _⟩

/-- Between two calls: the anchor has the whole chain unless the flag is up. -/
structure Recorder.Settled (recorder : Recorder) : Prop where
  trails : recorder.Trails
  caughtUp : recorder.needsReanchor = false → recorder.CaughtUp

/-- Everything an append alone can do: it raises before the chain, or it links
its record and raises, or it returns and the anchor has the record. -/
theorem append_cases (authority : AuditAuthority) (event : AuditEvent)
    (recovery acknowledgement : Reply) (settled : recorder.Settled) :
    ∃ outcome after, append authority event recovery acknowledgement recorder = (outcome, after) ∧
      after.Settled ∧ recorder.anchor.count ≤ after.anchor.count ∧
      ((after.chain = recorder.chain ∧ outcome ≠ .ok ()) ∨
        (after.chain = (recorder.linked event).chain ∧ (outcome = .ok () → after.CaughtUp))) := by
  unfold append
  obtain ⟨anchor, recovered, caughtUp, trails, further⟩ | ⟨reason, anchor, recovered, trails, further⟩ :=
    recoverLocked_cases authority recovery settled.trails settled.caughtUp
  · rw [recovered]
    have linked := trails.linked event caughtUp
    obtain ⟨head, later, acked, whole, left, beyond⟩ | ⟨reason, later, acked, left, beyond⟩ :=
      ackLocked_cases authority acknowledgement linked
    · dsimp only
      rw [acked]
      exact ⟨_, _, rfl, ⟨left, fun _ => whole⟩, further.trans beyond, Or.inr ⟨rfl, fun _ => whole⟩⟩
    · dsimp only
      rw [acked]
      refine ⟨_, _, rfl, ⟨left, fun flag => ?_⟩, further.trans beyond, Or.inr ⟨rfl, fun same => ?_⟩⟩
      · cases flag
      · cases same
  · rw [recovered]
    refine ⟨_, _, rfl, ⟨trails, fun flag => ?_⟩, further, Or.inl ⟨rfl, fun same => ?_⟩⟩
    · cases flag
    · cases same

end Acknowledgement

end GeniusNew.AnchoredAudit
