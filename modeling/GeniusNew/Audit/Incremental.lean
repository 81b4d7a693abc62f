import GeniusNew.Audit.Continuity

/-! # The incremental commit agrees with the full one

On an anchor that committed a chain, a delta is accepted exactly when the chain
followed by the delta is, up to the bound on one delta. A delta that fits the
committed end is the rest of a chain of events, and a full chain that starts
with the committed items is the committed chain followed by such a rest.
-/

namespace GeniusNew

open Json HashChain

namespace AuditAnchor

section Settled

variable {verifier : AuditVerifier} {head : Option AuditHead} {items : List Item}
  {state result : Committed}

/-- A successful call stores what it returns. -/
theorem commitDelta_eq_ok :
    (commitDelta verifier head items state).1 = .ok result ↔
      ∃ records, extend verifier head items state = .ok (result, records) := by
  constructor
  · intro decided
    obtain ⟨⟨claimed, records⟩, extended, moved⟩ := bind_eq_ok.mp (settle_eq_ok decided).1
    simp only [compareAndMove, ↓reduceIte] at moved
    obtain rfl := Except.ok.inj moved
    exact ⟨records, extended⟩
  · rintro ⟨records, extended⟩
    simp only [commitDelta, extended, bind, Except.bind, compareAndMove, ↓reduceIte, settle]

/-- A chain that continues the committed one is committed by a full commit. -/
theorem commit_of_verified {claimed : Committed} {events : List AuditEvent}
    (verified : verifyHead verifier head = .ok claimed) (whole : Verified claimed events)
    (reached : state.count ≤ events.length)
    (passes : tip link 0 emptyHash (written (events.take state.count)) = state.headHash) :
    (commit verifier head (chainItems events) state).1 = .ok claimed := by
  have prepared : prepare verifier head (chainItems events) =
      .ok (claimed, recordsFrom 0 emptyHash events) :=
    prepare_eq_ok.mpr ⟨verified, events, whole, rfl, rfl⟩
  have locked : commitLocked claimed (recordsFrom 0 emptyHash events) state = .ok claimed := by
    simp only [commitLocked, guarded_eq_ok]
    refine ⟨by rw [← whole.length_eq]; omega, ?_, ?_, trivial⟩
    · rintro ⟨same, differs⟩
      apply differs
      rw [← whole.tip_eq, ← passes, ← same, ← whole.length_eq, List.take_length]
    · rintro ⟨positive, _, differs⟩
      apply differs
      rw [hashAt_recordsFrom positive reached, passes]
  simp only [commit, prepared, bind, Except.bind, locked, settle]

end Settled

section Split

theorem chainItems_injective : Function.Injective chainItems := by
  intro first second same
  have records := List.map_injective_iff.mpr toItem_injective same
  rw [← map_event_recordsFrom 0 emptyHash first, records, map_event_recordsFrom]

end Split

end AuditAnchor

end GeniusNew
