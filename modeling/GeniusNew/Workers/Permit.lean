import GeniusNew.Transition.Run
import GeniusNew.Workers.Escaping

/-! # One permit, any number of calls

Calls with the same permit share its use state, a flag behind a lock. The steps of their
consumptions interleave as they like; the call that finds the flag unset goes on alone.
-/

namespace GeniusNew

open Json Transition

namespace Workers

/-- Where a call of `execute` stands. A call that leaves the lock knows whether it found
the permit unused. -/
inductive Phase where
  | idle
  | called (runner : WorkerRunner) (now : Int)
  | locked (runner : WorkerRunner) (now : Int)
  | unused (runner : WorkerRunner) (now : Int)
  | leaving (runner : WorkerRunner) (now : Int) (passed : Bool)
  | past (runner : WorkerRunner) (now : Int)
  | finished (runner : WorkerRunner) (now : Int) (answer : Answer Bytes)
  | refused

namespace Phase

/-- The call holds the lock. -/
def holds : Phase → Bool
  | locked _ _ => true
  | unused _ _ => true
  | leaving _ _ _ => true
  | _ => false

/-- The call read the flag and did not set it yet. -/
def reading : Phase → Bool
  | unused _ _ => true
  | _ => false

/-- The call is past the consumption of the permit. -/
def consumed : Phase → Bool
  | leaving _ _ passed => passed
  | past _ _ => true
  | finished _ _ _ => true
  | _ => false

end Phase

/-- The use state of a permit and the calls that present it. -/
structure Calls where
  used : Bool
  lock : Option Nat
  phase : Nat → Phase

namespace Calls

def initial : Calls := ⟨false, none, fun _ => .idle⟩

def setPhase (calls : Calls) (index : Nat) (phase : Phase) : Calls :=
  { calls with phase := Function.update calls.phase index phase }

end Calls

inductive Label where
  | call (index : Nat) (runner : WorkerRunner) (now : Int)
  | turn (index : Nat)

variable (interpreter : Interpreter) (permit : DispatchPermit)

/-- The next step of a call on its own. -/
def turn (calls : Calls) (index : Nat) : Option Calls :=
  match calls.phase index with
  | .called runner now =>
      match calls.lock with
      | none => some { calls.setPhase index (.locked runner now) with lock := some index }
      | some _ => none
  | .locked runner now =>
      some (calls.setPhase index
        (if calls.used then .leaving runner now false else .unused runner now))
  | .unused runner now => some { calls.setPhase index (.leaving runner now true) with used := true }
  | .leaving runner now passed =>
      some { calls.setPhase index (if passed then .past runner now else .refused) with lock := none }
  | .past runner now =>
      some (calls.setPhase index (.finished runner now (runner.perform interpreter permit now)))
  | _ => none

def step (calls : Calls) : Label → Option Calls
  | .call index runner now =>
      match calls.phase index with
      | .idle =>
          match handoffDigest permit.handoff with
          | .ok _ => some (calls.setPhase index (.called runner now))
          | .error _ => some (calls.setPhase index .refused)
      | _ => none
  | .turn index => turn interpreter permit calls index

/-- One call at most is past the consumption, and it answers as the runner performs. -/
structure Exclusive (calls : Calls) : Prop where
  holder : ∀ index, (calls.phase index).holds = true → calls.lock = some index
  fresh : ∀ index, (calls.phase index).reading = true → calls.used = false
  spent : ∀ index, (calls.phase index).consumed = true → calls.used = true
  once : ∀ index other, (calls.phase index).consumed = true →
    (calls.phase other).consumed = true → index = other
  answered : ∀ index runner now answer, calls.phase index = .finished runner now answer →
    answer = runner.perform interpreter permit now

variable {interpreter permit} {calls next : Calls} {index : Nat}

theorem exclusive_initial : Exclusive interpreter permit .initial where
  holder := nofun
  fresh := nofun
  spent := nofun
  once := nofun
  answered := nofun

/-- What a step has to see to when it moves one call. -/
theorem Exclusive.moves (exclusive : Exclusive interpreter permit calls) (phase : Phase)
    (used : Bool) (lock : Option Nat)
    (holder : phase.holds = true → lock = some index)
    (holders : ∀ other, other ≠ index → calls.lock = some other → lock = some other)
    (fresh : phase.reading = true → used = false)
    (readers : used = true → calls.used = false → ∀ other, other ≠ index →
      (calls.phase other).reading = false)
    (spent : phase.consumed = true → used = true) (kept : calls.used = true → used = true)
    (once : phase.consumed = true → (calls.phase index).consumed = true ∨ calls.used = false)
    (answered : ∀ runner now answer, phase = .finished runner now answer →
      answer = runner.perform interpreter permit now) :
    Exclusive interpreter permit ⟨used, lock, Function.update calls.phase index phase⟩ := by
  have others : ∀ other, other ≠ index → phase.consumed = true →
      (calls.phase other).consumed = false := by
    intro other apart consumed
    rw [Bool.eq_false_iff]
    intro also
    rcases once consumed with already | free
    · exact apart (exclusive.once other index also already)
    · rw [exclusive.spent other also] at free
      cases free
  constructor
  all_goals dsimp only
  · intro other holds
    by_cases same : other = index
    · subst same
      rw [Function.update_self] at holds
      exact holder holds
    · rw [Function.update_of_ne same] at holds
      exact holders other same (exclusive.holder other holds)
  · intro other reading
    by_cases same : other = index
    · subst same
      rw [Function.update_self] at reading
      exact fresh reading
    · rw [Function.update_of_ne same] at reading
      rw [Bool.eq_false_iff]
      intro set
      have absent := readers set (exclusive.fresh other reading) other same
      rw [reading] at absent
      cases absent
  · intro other consumed
    by_cases same : other = index
    · subst same
      rw [Function.update_self] at consumed
      exact spent consumed
    · rw [Function.update_of_ne same] at consumed
      exact kept (exclusive.spent other consumed)
  · intro one two first second
    by_cases here : one = index
    · by_cases there : two = index
      · rw [here, there]
      · rw [here, Function.update_self] at first
        rw [Function.update_of_ne there, others two there first] at second
        cases second
    · by_cases there : two = index
      · rw [there, Function.update_self] at second
        rw [Function.update_of_ne here, others one here second] at first
        cases first
      · rw [Function.update_of_ne here] at first
        rw [Function.update_of_ne there] at second
        exact exclusive.once one two first second
  · intro other runner now answer ended
    by_cases same : other = index
    · subst same
      rw [Function.update_self] at ended
      exact answered runner now answer ended
    · rw [Function.update_of_ne same] at ended
      exact exclusive.answered other runner now answer ended

/-- A call that holds no lock and consumed nothing may go where neither is needed. -/
theorem Exclusive.rests (exclusive : Exclusive interpreter permit calls) {phase : Phase}
    (free : phase.holds = false) (unread : phase.reading = false) (waits : phase.consumed = false) :
    Exclusive interpreter permit (calls.setPhase index phase) := by
  refine exclusive.moves phase calls.used calls.lock ?_ (fun _ _ => id) ?_ ?_ ?_ id ?_ ?_
  · intro holds
    rw [free] at holds
    cases holds
  · intro reading
    rw [unread] at reading
    cases reading
  · intro set unset
    rw [set] at unset
    cases unset
  · intro consumed
    rw [waits] at consumed
    cases consumed
  · intro consumed
    rw [waits] at consumed
    cases consumed
  · intro runner now answer ended
    rw [ended] at waits
    cases waits

theorem Exclusive.turn (exclusive : Exclusive interpreter permit calls)
    (moved : Workers.turn interpreter permit calls index = some next) :
    Exclusive interpreter permit next := by
  unfold Workers.turn at moved
  split at moved
  · next runner now here =>
      split at moved
      · next free =>
          obtain rfl := Option.some.inj moved
          refine exclusive.moves (.locked runner now) calls.used (some index) (fun _ => rfl) ?_ nofun
            ?_ nofun id nofun nofun
          · intro other _ held
            rw [free] at held
            cases held
          · intro set unset
            rw [set] at unset
            cases unset
      · cases moved
  · next runner now here =>
      have mine : calls.lock = some index := exclusive.holder index (by rw [here]; rfl)
      obtain rfl := Option.some.inj moved
      by_cases set : calls.used = true
      · rw [if_pos set]
        refine exclusive.moves (.leaving runner now false) calls.used calls.lock (fun _ => mine)
          (fun _ _ => id) nofun ?_ nofun id nofun nofun
        intro _ unset
        rw [set] at unset
        cases unset
      · rw [if_neg set]
        refine exclusive.moves (.unused runner now) calls.used calls.lock (fun _ => mine)
          (fun _ _ => id) (fun _ => Bool.eq_false_iff.mpr set) ?_ nofun id nofun nofun
        intro found
        exact (set found).elim
  · next runner now here =>
      have mine : calls.lock = some index := exclusive.holder index (by rw [here]; rfl)
      have unset : calls.used = false := exclusive.fresh index (by rw [here]; rfl)
      obtain rfl := Option.some.inj moved
      refine exclusive.moves (.leaving runner now true) true calls.lock (fun _ => mine)
        (fun _ _ => id) nofun ?_ (fun _ => rfl) (fun _ => rfl) (fun _ => .inr unset) nofun
      -- whoever else reads the flag would hold the lock as well
      intro _ _ other apart
      rw [Bool.eq_false_iff]
      intro reading
      have holds : (calls.phase other).holds = true := by
        cases phase : calls.phase other <;> rw [phase] at reading <;> first | rfl | cases reading
      have theirs := exclusive.holder other holds
      rw [mine] at theirs
      exact apart (Option.some.inj theirs).symm
  · next runner now passed here =>
      have mine : calls.lock = some index := exclusive.holder index (by rw [here]; rfl)
      obtain rfl := Option.some.inj moved
      have released : ∀ other, other ≠ index → calls.lock = some other → none = some other := by
        intro other apart theirs
        rw [mine] at theirs
        exact (apart (Option.some.inj theirs).symm).elim
      have settled : calls.used = true → calls.used = false → ∀ other, other ≠ index →
          (calls.phase other).reading = false := by
        intro set unset
        rw [set] at unset
        cases unset
      cases passed with
      | true =>
          have consumed : (calls.phase index).consumed = true := by rw [here]; rfl
          exact exclusive.moves (.past runner now) calls.used none nofun released nofun settled
            (fun _ => exclusive.spent index consumed) id (fun _ => .inl consumed) nofun
      | false =>
          exact exclusive.moves .refused calls.used none nofun released nofun settled nofun id nofun
            nofun
  · next runner now here =>
      have consumed : (calls.phase index).consumed = true := by rw [here]; rfl
      obtain rfl := Option.some.inj moved
      refine exclusive.moves _ calls.used calls.lock nofun (fun _ _ => id) nofun ?_
        (fun _ => exclusive.spent index consumed) id (fun _ => .inl consumed) ?_
      · intro set unset
        rw [set] at unset
        cases unset
      · intro other time answer same
        injection same with runner_ now_ answer_
        rw [← runner_, ← now_, ← answer_]
  · cases moved

theorem Exclusive.step {label : Label} (exclusive : Exclusive interpreter permit calls)
    (moved : Workers.step interpreter permit calls label = some next) :
    Exclusive interpreter permit next := by
  cases label with
  | turn index => exact exclusive.turn moved
  | call index runner now =>
      unfold Workers.step at moved
      dsimp only at moved
      split at moved
      · split at moved
        · obtain rfl := Option.some.inj moved
          exact exclusive.rests rfl rfl rfl
        · obtain rfl := Option.some.inj moved
          exact exclusive.rests rfl rfl rfl
      · cases moved

/-- In every run the calls of a permit exclude each other. -/
theorem exclusive_of_run {labels : List Label}
    (ran : run (step interpreter permit) .initial labels = some calls) :
    Exclusive interpreter permit calls :=
  run_invariant (Exclusive interpreter permit)
    (fun _ _ _ _ exclusive moved => exclusive.step moved) exclusive_initial ran

end Workers

end GeniusNew
