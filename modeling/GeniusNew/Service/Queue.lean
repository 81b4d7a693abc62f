import GeniusNew.Service.Turns
import GeniusNew.Transition.Run

/-! # The queue of pending jobs

Any number of callers share one `PendingJobs`: jobs are added under fresh ids,
decided, taken by a caller and put back by the one that took them, in any order and
with any clocks. `PendingJobs.add` bounds the queue and `PendingJobs.restore` does
not, so the bound is an invariant of the runs that put a job back only where there
is room.
-/

namespace GeniusNew.Wiring.PendingJobs

open Json Transition

/-- The queue, the ids that were handed to `add` with the subject of each, and the
jobs that callers hold. -/
structure Desk where
  jobs : PendingJobs
  minted : List (Str × Str)
  held : List (Nat × Str × Waiting)
  deriving DecidableEq

def Desk.empty : Desk := ⟨[], [], []⟩

/-- The ids in the queue and in the hands of callers. -/
def Desk.ids (desk : Desk) : List Str :=
  desk.jobs.map Prod.fst ++ desk.held.map fun entry => entry.2.1

/-- A call, or a caller that ends without putting its job back. -/
inductive Use where
  | add (jobId : Str) (waiting : Waiting) (now : Int)
  | decide (jobId approverUserId : Str) (now ttlSeconds : Int)
  | take (caller : Nat) (jobId subject : Str)
  | restore (caller : Nat)
  | leave (caller : Nat)

def Desk.release (desk : Desk) (caller : Nat) : List (Nat × Str × Waiting) :=
  desk.held.filter fun entry => entry.1 ≠ caller

def step (desk : Desk) : Use → Option Desk
  | .add jobId waiting now =>
      -- the service mints the id of each job it adds
      if jobId ∈ desk.minted.map Prod.fst then none
      else some { desk with
        jobs := (PendingJobs.add desk.jobs jobId waiting now).2
        minted := (jobId, waiting.subject) :: desk.minted }
  | .decide jobId approverUserId now ttlSeconds =>
      match PendingJobs.decide desk.jobs jobId approverUserId now ttlSeconds with
      | .error _ => some desk
      | .ok (_, jobs) => some { desk with jobs }
  | .take caller jobId subject =>
      if (desk.held.lookup caller).isSome then none
      else
        match PendingJobs.take desk.jobs jobId subject with
        | .error _ => some desk
        | .ok (waiting, jobs) =>
            some { desk with jobs, held := (caller, jobId, waiting) :: desk.held }
  | .restore caller =>
      match desk.held.lookup caller with
      | none => none
      | some (jobId, waiting) =>
          some { desk with
            jobs := PendingJobs.restore desk.jobs jobId waiting
            held := desk.release caller }
  | .leave caller => some { desk with held := desk.release caller }

/-- A job is put back only where the queue has room. -/
def Roomy (desk : Desk) : Use → Prop
  | .restore _ => desk.jobs.length < maxPending
  | _ => True

/-- What every interleaving keeps. -/
structure Orderly (desk : Desk) : Prop where
  distinct : desk.ids.Nodup
  callers : (desk.held.map Prod.fst).Nodup
  minted : (desk.minted.map Prod.fst).Nodup
  queued : ∀ entry ∈ desk.jobs, (entry.1, entry.2.subject) ∈ desk.minted
  owned : ∀ entry ∈ desk.held, (entry.2.1, entry.2.2.subject) ∈ desk.minted

section Steps

variable {desk next : Desk} {jobs after : PendingJobs} {jobId subject userId : Str}
  {waiting : Waiting} {now ttlSeconds : Int} {caller : Nat} {use : Use}

/-- What `add` leaves: the entries that have not expired, and the new one if it
was accepted. -/
theorem add_after (jobs : PendingJobs) (jobId : Str) (waiting : Waiting) (now : Int) :
    let kept := jobs.filter fun entry => ¬ entry.2.handoff.expiresAt ≤ now
    (PendingJobs.add jobs jobId waiting now).2 = kept ∨
      (jobId ∉ kept.map Prod.fst ∧ kept.length < maxPending ∧
        (PendingJobs.add jobs jobId waiting now).2 = kept ++ [(jobId, waiting)]) := by
  intro kept
  unfold PendingJobs.add
  dsimp only
  split_ifs with present full
  · exact .inl rfl
  · exact .inl rfl
  · rw [Assoc.lookup_isSome_iff] at present
    exact .inr ⟨present, not_le.mp full, rfl⟩

theorem take_eq_ok (taken : PendingJobs.take jobs jobId subject = .ok (waiting, after)) :
    jobs.lookup jobId = some waiting ∧ waiting.subject = subject ∧
      after = jobs.filter fun entry => entry.1 ≠ jobId := by
  unfold PendingJobs.take at taken
  split at taken
  · cases taken
  next found =>
    split_ifs at taken with owned
    · cases taken
    · obtain ⟨rfl, rfl⟩ := Prod.mk.inj (Except.ok.inj taken)
      exact ⟨found, not_not.mp owned, rfl⟩

theorem take_of_lookup (found : jobs.lookup jobId = some waiting) (owned : waiting.subject = subject) :
    PendingJobs.take jobs jobId subject =
      .ok (waiting, jobs.filter fun entry => entry.1 ≠ jobId) := by
  unfold PendingJobs.take
  rw [found]
  exact if_neg (not_not.mpr owned)

theorem restore_of_absent (absent : jobId ∉ jobs.map Prod.fst) :
    PendingJobs.restore jobs jobId waiting = jobs ++ [(jobId, waiting)] := by
  have missing : ¬ (jobs.lookup jobId).isSome = true := fun present =>
    absent (Assoc.lookup_isSome_iff.mp present)
  rw [PendingJobs.restore, if_neg missing]

theorem keys_replace (jobs : PendingJobs) (jobId : Str) (waiting : Waiting) :
    (Assoc.replace jobs jobId waiting).map Prod.fst = jobs.map Prod.fst := by
  rw [Assoc.replace, List.map_map]
  refine List.map_congr_left fun entry _ => ?_
  rw [Function.comp_apply]
  split_ifs with same
  · exact same.symm
  · rfl

theorem mem_release {entry : Nat × Str × Waiting} :
    entry ∈ desk.release caller ↔ entry ∈ desk.held ∧ entry.1 ≠ caller := by
  rw [Desk.release, List.mem_filter, decide_eq_true_eq]

theorem Orderly.release (orderly : Orderly desk) :
    Orderly { desk with held := desk.release caller } where
  distinct := orderly.distinct.sublist
    ((List.Sublist.refl _).append ((List.filter_sublist).map _))
  callers := orderly.callers.sublist ((List.filter_sublist).map _)
  minted := orderly.minted
  queued := orderly.queued
  owned entry member := orderly.owned entry (mem_release.mp member).1

theorem Orderly.mem_ids (orderly : Orderly desk) (member : jobId ∈ desk.ids) :
    jobId ∈ desk.minted.map Prod.fst := by
  rcases List.mem_append.mp member with queued | held
  · obtain ⟨entry, inside, rfl⟩ := List.mem_map.mp queued
    exact List.mem_map.mpr ⟨_, orderly.queued entry inside, rfl⟩
  · obtain ⟨entry, inside, rfl⟩ := List.mem_map.mp held
    exact List.mem_map.mpr ⟨_, orderly.owned entry inside, rfl⟩

theorem Orderly.add (orderly : Orderly desk) (fresh : jobId ∉ desk.minted.map Prod.fst) :
    Orderly { desk with
      jobs := (PendingJobs.add desk.jobs jobId waiting now).2
      minted := (jobId, waiting.subject) :: desk.minted } := by
  have unheld : jobId ∉ desk.ids := fun member => fresh (orderly.mem_ids member)
  have known : ∀ entry ∈ (PendingJobs.add desk.jobs jobId waiting now).2,
      entry ∈ desk.jobs ∨ entry = (jobId, waiting) := by
    intro entry member
    obtain same | ⟨_, _, same⟩ := add_after desk.jobs jobId waiting now
    · rw [same] at member
      exact .inl (List.mem_filter.mp member).1
    · rw [same] at member
      rcases List.mem_append.mp member with old | new
      · exact .inl (List.mem_filter.mp old).1
      · exact .inr (List.mem_singleton.mp new)
  refine ⟨?_, orderly.callers, ?_, fun entry member => ?_, fun entry member => ?_⟩
  · have smaller : ((desk.jobs.filter fun entry => ¬ entry.2.handoff.expiresAt ≤ now).map Prod.fst ++
        desk.held.map fun entry => entry.2.1).Nodup :=
      orderly.distinct.sublist ((List.filter_sublist.map _).append (List.Sublist.refl _))
    unfold Desk.ids
    dsimp only
    obtain same | ⟨_, _, same⟩ := add_after desk.jobs jobId waiting now
    · rw [same]
      exact smaller
    · rw [same, List.map_append, List.map_singleton, List.append_assoc, List.singleton_append]
      refine List.perm_middle.nodup_iff.mpr (List.nodup_cons.mpr ⟨fun member => unheld ?_, smaller⟩)
      exact ((List.filter_sublist.map _).append (List.Sublist.refl _)).subset member
  · rw [List.map_cons, List.nodup_cons]
    exact ⟨fresh, orderly.minted⟩
  · rcases known entry member with old | rfl
    · exact List.mem_cons_of_mem _ (orderly.queued entry old)
    · exact List.mem_cons_self
  · exact List.mem_cons_of_mem _ (orderly.owned entry member)

theorem Orderly.decide (orderly : Orderly desk)
    (decided : PendingJobs.decide desk.jobs jobId userId now ttlSeconds = .ok (waiting, after)) :
    Orderly { desk with jobs := after } := by
  obtain ⟨found, _, _, expires, _, rfl⟩ := decide_eq_ok decided
  have keys := keys_replace desk.jobs jobId { waiting with decisionExpiresAt := expires }
  refine ⟨?_, orderly.callers, orderly.minted, fun entry member => ?_, orderly.owned⟩
  · rw [Desk.ids, keys]
    exact orderly.distinct
  · obtain ⟨old, inside, rfl⟩ := List.mem_map.mp member
    split_ifs with same
    · have kept := orderly.queued _ (Assoc.mem_of_lookup found)
      exact kept
    · exact orderly.queued old inside

theorem Orderly.take (orderly : Orderly desk) (free : desk.held.lookup caller = none)
    (taken : PendingJobs.take desk.jobs jobId subject = .ok (waiting, after)) :
    Orderly { desk with jobs := after, held := (caller, jobId, waiting) :: desk.held } := by
  obtain ⟨found, _, rfl⟩ := take_eq_ok taken
  have member := Assoc.mem_of_lookup found
  have idle : caller ∉ desk.held.map Prod.fst := by
    rw [← Assoc.lookup_isSome_iff, free]
    exact Bool.false_ne_true
  have distinct := orderly.distinct
  refine ⟨?_, List.nodup_cons.mpr ⟨idle, orderly.callers⟩, orderly.minted, fun entry kept => ?_,
    fun entry held => ?_⟩
  · -- the id moves from the queue to the caller
    unfold Desk.ids at distinct ⊢
    dsimp only
    rw [List.map_cons]
    refine List.perm_middle.nodup_iff.mpr (List.nodup_cons.mpr ⟨fun present => ?_,
      distinct.sublist ((List.filter_sublist.map _).append (List.Sublist.refl _))⟩)
    rcases List.mem_append.mp present with queued | held
    · obtain ⟨entry, kept, same⟩ := List.mem_map.mp queued
      exact of_decide_eq_true (List.mem_filter.mp kept).2 same
    · exact List.disjoint_of_nodup_append distinct (List.mem_map.mpr ⟨_, member, rfl⟩) held
  · exact orderly.queued entry (List.mem_filter.mp kept).1
  · rcases List.mem_cons.mp held with rfl | old
    · exact orderly.queued _ member
    · exact orderly.owned entry old

/-- Whoever puts a job back held it, so its id is not in the queue. -/
theorem Orderly.absent (orderly : Orderly desk)
    (held : desk.held.lookup caller = some (jobId, waiting)) : jobId ∉ desk.jobs.map Prod.fst := by
  intro queued
  have member : (caller, jobId, waiting) ∈ desk.held := Assoc.mem_of_lookup held
  exact List.disjoint_of_nodup_append orderly.distinct queued (List.mem_map.mpr ⟨_, member, rfl⟩)

theorem Orderly.restore (orderly : Orderly desk)
    (held : desk.held.lookup caller = some (jobId, waiting)) :
    Orderly { desk with
      jobs := PendingJobs.restore desk.jobs jobId waiting
      held := desk.release caller } := by
  have member := Assoc.mem_of_lookup held
  have absent := orderly.absent held
  have released := @Orderly.release desk caller orderly
  refine ⟨?_, released.callers, orderly.minted, fun entry present => ?_, released.owned⟩
  · -- the id moves from the caller to the queue
    unfold Desk.ids
    dsimp only
    rw [restore_of_absent absent, List.map_append, List.map_singleton, List.append_assoc,
      List.singleton_append]
    refine List.perm_middle.nodup_iff.mpr (List.nodup_cons.mpr ⟨fun present => ?_,
      released.distinct⟩)
    rcases List.mem_append.mp present with queued | other
    · exact absent queued
    · obtain ⟨entry, kept, same⟩ := List.mem_map.mp other
      obtain ⟨old, apart⟩ := mem_release.mp kept
      -- two callers would hold the id
      have once := (List.nodup_append.mp orderly.distinct).2.1
      have equal := List.inj_on_of_nodup_map once old member same
      exact apart (congrArg Prod.fst equal)
  · rw [restore_of_absent absent] at present
    rcases List.mem_append.mp present with old | new
    · exact orderly.queued entry old
    · rw [List.mem_singleton.mp new]
      exact orderly.owned _ member

theorem Orderly.step (orderly : Orderly desk)
    (stepped : PendingJobs.step desk use = some next) : Orderly next := by
  cases use with
  | add jobId waiting now =>
      unfold PendingJobs.step at stepped
      dsimp only at stepped
      split_ifs at stepped with known
      obtain rfl := Option.some.inj stepped
      exact orderly.add known
  | decide jobId userId now ttlSeconds =>
      unfold PendingJobs.step at stepped
      dsimp only at stepped
      split at stepped
      · obtain rfl := Option.some.inj stepped
        exact orderly
      next decided =>
        obtain rfl := Option.some.inj stepped
        exact orderly.decide decided
  | take caller jobId subject =>
      unfold PendingJobs.step at stepped
      dsimp only at stepped
      split_ifs at stepped with busy
      split at stepped
      · obtain rfl := Option.some.inj stepped
        exact orderly
      next taken =>
        obtain rfl := Option.some.inj stepped
        exact orderly.take (Option.not_isSome_iff_eq_none.mp busy) taken
  | restore caller =>
      unfold PendingJobs.step at stepped
      dsimp only at stepped
      split at stepped
      · cases stepped
      next held =>
        obtain rfl := Option.some.inj stepped
        exact orderly.restore held
  | leave caller =>
      obtain rfl := Option.some.inj stepped
      exact orderly.release

theorem orderly_empty : Orderly .empty where
  distinct := List.nodup_nil
  callers := List.nodup_nil
  minted := List.nodup_nil
  queued _ member := nomatch member
  owned _ member := nomatch member

/-- A step that puts a job back only where there is room keeps the bound. -/
theorem bounded_step (bounded : desk.jobs.length ≤ maxPending) (roomy : Roomy desk use)
    (stepped : PendingJobs.step desk use = some next) : next.jobs.length ≤ maxPending := by
  cases use with
  | add jobId waiting now =>
      unfold PendingJobs.step at stepped
      dsimp only at stepped
      split_ifs at stepped
      obtain rfl := Option.some.inj stepped
      dsimp only
      obtain same | ⟨_, room, same⟩ := add_after desk.jobs jobId waiting now
      · rw [same]
        exact (List.length_filter_le _ _).trans bounded
      · rw [same, List.length_append, List.length_singleton]
        exact room
  | decide jobId userId now ttlSeconds =>
      unfold PendingJobs.step at stepped
      dsimp only at stepped
      split at stepped
      · obtain rfl := Option.some.inj stepped
        exact bounded
      next decided =>
        obtain rfl := Option.some.inj stepped
        obtain ⟨_, _, _, _, _, rfl⟩ := decide_eq_ok decided
        rw [Assoc.replace, List.length_map]
        exact bounded
  | take caller jobId subject =>
      unfold PendingJobs.step at stepped
      dsimp only at stepped
      split_ifs at stepped
      split at stepped
      · obtain rfl := Option.some.inj stepped
        exact bounded
      next taken =>
        obtain rfl := Option.some.inj stepped
        obtain ⟨_, _, rfl⟩ := take_eq_ok taken
        exact (List.length_filter_le _ _).trans bounded
  | restore caller =>
      unfold PendingJobs.step at stepped
      dsimp only at stepped
      split at stepped
      · cases stepped
      next held =>
        obtain rfl := Option.some.inj stepped
        rw [PendingJobs.restore]
        split_ifs
        · exact bounded
        · rw [List.length_append, List.length_singleton]
          exact roomy
  | leave caller =>
      obtain rfl := Option.some.inj stepped
      exact bounded

/-- A job is taken for the subject it was added for. -/
theorem Orderly.owner (orderly : Orderly desk)
    (stepped : PendingJobs.step desk (.take caller jobId subject) = some next) :
    next = desk ∨ ∃ waiting, desk.jobs.lookup jobId = some waiting ∧ waiting.subject = subject ∧
      (jobId, subject) ∈ desk.minted ∧ next.held = (caller, jobId, waiting) :: desk.held := by
  unfold PendingJobs.step at stepped
  dsimp only at stepped
  split_ifs at stepped
  split at stepped
  · exact .inl (Option.some.inj stepped).symm
  next waiting jobs taken =>
    obtain rfl := Option.some.inj stepped
    obtain ⟨found, owned, _⟩ := take_eq_ok taken
    refine .inr ⟨waiting, found, owned, ?_, rfl⟩
    rw [← owned]
    exact orderly.queued _ (Assoc.mem_of_lookup found)

/-- An added job replaces nothing that has not expired. -/
theorem Orderly.unexpired (orderly : Orderly desk) {entry : Str × Waiting}
    (stepped : PendingJobs.step desk (.add jobId waiting now) = some next)
    (member : entry ∈ desk.jobs) (current : now < entry.2.handoff.expiresAt) :
    next.jobs.lookup entry.1 = some entry.2 := by
  have after := orderly.step stepped
  unfold PendingJobs.step at stepped
  dsimp only at stepped
  split_ifs at stepped
  obtain rfl := Option.some.inj stepped
  have kept : entry ∈ desk.jobs.filter fun entry => ¬ entry.2.handoff.expiresAt ≤ now :=
    List.mem_filter.mpr ⟨member, decide_eq_true (not_le.mpr current)⟩
  refine Assoc.lookup_of_mem_nodup (List.nodup_append.mp after.distinct).1 ?_
  obtain same | ⟨_, _, same⟩ := add_after desk.jobs jobId waiting now
  · rw [same]
    exact kept
  · rw [same]
    exact List.mem_append_left _ kept

end Steps

/-- In every run that puts jobs back only where there is room, the queue is bounded;
each job is in the queue once, with one caller, or gone; only its subject takes it;
and adding a job replaces none that has not expired. -/
theorem queue_bounded_and_owned (labels : List Use) (desk : Desk)
    (ran : run step .empty labels = some desk) (roomy : Along step Roomy .empty labels) :
    desk.jobs.length ≤ maxPending ∧ desk.ids.Nodup ∧
      (∀ caller jobId subject next, step desk (.take caller jobId subject) = some next →
        next = desk ∨ ∃ waiting, desk.jobs.lookup jobId = some waiting ∧
          waiting.subject = subject ∧ (jobId, subject) ∈ desk.minted ∧
          next.held = (caller, jobId, waiting) :: desk.held) ∧
      ∀ jobId waiting now next entry, step desk (.add jobId waiting now) = some next →
        entry ∈ desk.jobs → now < entry.2.handoff.expiresAt →
        next.jobs.lookup entry.1 = some entry.2 := by
  have orderly : Orderly desk :=
    run_invariant Orderly (fun _ _ _ _ held stepped => held.step stepped) orderly_empty ran
  have bounded : desk.jobs.length ≤ maxPending :=
    run_invariant_along (fun desk => desk.jobs.length ≤ maxPending)
      (fun _ _ _ roomy bounded stepped => bounded_step bounded roomy stepped) (Nat.zero_le _)
      roomy ran
  exact ⟨bounded, orderly.distinct, fun _ _ _ _ => orderly.owner,
    fun _ _ _ _ _ => orderly.unexpired⟩

section Instance

def demoWaiting : Waiting :=
  ⟨str "subject-demo", (demoHandoff true).toBytes, demoHandoff true, str "trace-demo", 0⟩

/-- The id of the job added as the one with the number. -/
def demoId (number : Nat) : Str := List.replicate (number + 1) 97

theorem demoId_injective : Function.Injective demoId := by
  intro one two same
  have lengths := congrArg List.length same
  simpa [demoId] using lengths

/-- Where nothing has expired, a fresh job that finds room is appended. -/
theorem add_of_room {jobs : PendingJobs} {jobId : Str} {waiting : Waiting} {now : Int}
    (current : ∀ entry ∈ jobs, now < entry.2.handoff.expiresAt)
    (fresh : jobId ∉ jobs.map Prod.fst) (room : jobs.length < maxPending) :
    (PendingJobs.add jobs jobId waiting now).2 = jobs ++ [(jobId, waiting)] := by
  have kept : (jobs.filter fun entry => ¬ entry.2.handoff.expiresAt ≤ now) = jobs := by
    refine List.filter_eq_self.mpr fun entry member => ?_
    exact decide_eq_true (not_le.mpr (current entry member))
  have missing : ¬ (jobs.lookup jobId).isSome = true := fun present =>
    fresh (Assoc.lookup_isSome_iff.mp present)
  unfold PendingJobs.add
  dsimp only
  rw [kept, if_neg missing, if_neg (not_le.mpr room)]

def demoJobs (numbers : List Nat) : PendingJobs :=
  numbers.map fun number => (demoId number, demoWaiting)

theorem length_demoJobs (numbers : List Nat) : (demoJobs numbers).length = numbers.length :=
  List.length_map _

theorem mem_demoJobs {numbers : List Nat} {number : Nat} :
    demoId number ∈ (demoJobs numbers).map Prod.fst ↔ number ∈ numbers := by
  rw [demoJobs, List.map_map]
  exact List.mem_map_of_injective demoId_injective

theorem current_demoJobs (numbers : List Nat) :
    ∀ entry ∈ demoJobs numbers, (0 : Int) < entry.2.handoff.expiresAt := by
  intro entry member
  obtain ⟨number, _, rfl⟩ := List.mem_map.mp member
  exact (by decide : (0 : Int) < (demoHandoff true).expiresAt)

def demoMinted (numbers : List Nat) : List (Str × Str) :=
  numbers.map fun number => (demoId number, str "subject-demo")

theorem mem_demoMinted {numbers : List Nat} {number : Nat} :
    demoId number ∈ (demoMinted numbers).map Prod.fst ↔ number ∈ numbers := by
  rw [demoMinted, List.map_map]
  exact List.mem_map_of_injective demoId_injective

/-- One more job is added while there is room. -/
theorem step_demo_add {numbers minted : List Nat} {held : List (Nat × Str × Waiting)} {number : Nat}
    (fresh : number ∉ minted) (absent : number ∉ numbers) (room : numbers.length < maxPending) :
    step ⟨demoJobs numbers, demoMinted minted, held⟩ (.add (demoId number) demoWaiting 0) =
      some ⟨demoJobs (numbers ++ [number]), demoMinted (number :: minted), held⟩ := by
  have unminted : demoId number ∉ (demoMinted minted).map Prod.fst := fun known =>
    fresh (mem_demoMinted.mp known)
  have unqueued : demoId number ∉ (demoJobs numbers).map Prod.fst := fun known =>
    absent (mem_demoJobs.mp known)
  have added : (PendingJobs.add (demoJobs numbers) (demoId number) demoWaiting 0).2 =
      demoJobs numbers ++ [(demoId number, demoWaiting)] :=
    add_of_room (current_demoJobs numbers) unqueued ((length_demoJobs _).trans_lt room)
  unfold step
  dsimp only
  rw [if_neg unminted, added]
  exact congrArg (fun jobs => some (Desk.mk jobs _ held)) (by
    rw [demoJobs, demoJobs, List.map_append, List.map_singleton])

theorem run_demo_adds (count : Nat) (room : count ≤ maxPending) :
    run step .empty ((List.range count).map fun number => .add (demoId number) demoWaiting 0) =
      some ⟨demoJobs (List.range count), demoMinted (List.range count).reverse, []⟩ := by
  induction count with
  | zero => rfl
  | succ count ih =>
      have unused : count ∉ List.range count := fun member => absurd (List.mem_range.mp member) (lt_irrefl _)
      have small : (List.range count).length < maxPending := by
        rw [List.length_range]
        omega
      rw [List.range_succ, List.map_append, List.map_singleton, List.reverse_append]
      refine (run_append_singleton step).mpr ⟨_, ih (by omega), ?_⟩
      exact step_demo_add (fun member => unused (List.mem_reverse.mp member)) unused small

/-- The first job is taken. -/
theorem step_demo_take {rest minted : List Nat} (apart : 0 ∉ rest) :
    step ⟨demoJobs (0 :: rest), demoMinted minted, []⟩ (.take 0 (demoId 0) (str "subject-demo")) =
      some ⟨demoJobs rest, demoMinted minted, [(0, demoId 0, demoWaiting)]⟩ := by
  have found : (demoJobs (0 :: rest)).lookup (demoId 0) = some demoWaiting := List.lookup_cons_self
  have others : ((demoJobs rest).filter fun entry => entry.1 ≠ demoId 0) = demoJobs rest := by
    refine List.filter_eq_self.mpr fun entry member => decide_eq_true fun same => apart ?_
    rw [← mem_demoJobs, ← same]
    exact List.mem_map_of_mem member
  have left : ((demoJobs (0 :: rest)).filter fun entry => entry.1 ≠ demoId 0) = demoJobs rest := by
    rw [← others]
    exact List.filter_cons_of_neg (by simp)
  have taken : PendingJobs.take (demoJobs (0 :: rest)) (demoId 0) (str "subject-demo") =
      .ok (demoWaiting, demoJobs rest) := by
    have owned : demoWaiting.subject = str "subject-demo" := rfl
    rw [take_of_lookup found owned, left]
  unfold step
  dsimp only
  rw [taken]
  rfl

/-- And put back, whatever the queue holds by then. -/
theorem step_demo_restore {numbers minted : List Nat} (absent : 0 ∉ numbers) :
    step ⟨demoJobs numbers, demoMinted minted, [(0, demoId 0, demoWaiting)]⟩ (.restore 0) =
      some ⟨demoJobs (numbers ++ [0]), demoMinted minted, []⟩ := by
  have unqueued : demoId 0 ∉ (demoJobs numbers).map Prod.fst := fun known =>
    absent (mem_demoJobs.mp known)
  have restored := @restore_of_absent (demoJobs numbers) (demoId 0) demoWaiting unqueued
  have held : List.lookup 0 [(0, demoId 0, demoWaiting)] = some (demoId 0, demoWaiting) := rfl
  unfold step
  dsimp only
  rw [held]
  dsimp only
  rw [restored, demoJobs, demoJobs, List.map_append]
  rfl

/-- A full queue from which a job is taken, another added and the first put back
holds one job too many. -/
theorem queue_overfull : ∃ labels desk, run step .empty labels = some desk ∧
    desk.jobs.length = maxPending + 1 := by
  let rest := (List.range 999).map Nat.succ
  have all : List.range 1000 = 0 :: rest := List.range_succ_eq_map
  have filled := run_demo_adds 1000 le_rfl
  rw [all] at filled
  have apart : 0 ∉ rest := fun member => by
    obtain ⟨number, _, same⟩ := List.mem_map.mp member
    cases same
  have size : rest.length = 999 := by rw [List.length_map, List.length_range]
  have unminted : 1000 ∉ (0 :: rest).reverse := by
    rw [List.mem_reverse, ← all, List.mem_range]
    exact lt_irrefl _
  have unqueued : 1000 ∉ rest := fun member =>
    unminted (List.mem_reverse.mpr (List.mem_cons_of_mem _ member))
  have absent : 0 ∉ rest ++ [1000] := by
    rw [List.mem_append, not_or]
    exact ⟨apart, by decide⟩
  have room : rest.length < maxPending := by
    rw [size]
    decide
  let labels : List Use := (0 :: rest).map (fun number => .add (demoId number) demoWaiting 0) ++
    [.take 0 (demoId 0) (str "subject-demo"), .add (demoId 1000) demoWaiting 0, .restore 0]
  let final : Desk := ⟨demoJobs (rest ++ [1000] ++ [0]), demoMinted (1000 :: (0 :: rest).reverse), []⟩
  have ran : run step .empty labels = some final := by
    refine (run_append step).mpr ⟨_, filled, (run_cons step).mpr ⟨_, step_demo_take apart, ?_⟩⟩
    refine (run_cons step).mpr ⟨_, step_demo_add unminted unqueued room, ?_⟩
    exact (run_cons step).mpr ⟨_, step_demo_restore absent, rfl⟩
  have length : final.jobs.length = maxPending + 1 := by
    rw [length_demoJobs, List.length_append, List.length_append, size, maxPending]
    simp only [List.length_singleton]
  exact ⟨labels, final, ran, length⟩

/-- One job is added, taken by its subject and put back. -/
theorem queue_bounded_and_owned_demo : ∃ labels desk, run step .empty labels = some desk ∧
    desk.jobs = [(demoId 0, demoWaiting)] ∧ desk.jobs.length ≤ maxPending := by
  let labels : List Use := [.add (demoId 0) demoWaiting 0,
    .take 0 (demoId 0) (str "subject-demo"), .restore 0]
  have added : step .empty (.add (demoId 0) demoWaiting 0) =
      some ⟨demoJobs [0], demoMinted [0], []⟩ :=
    @step_demo_add [] [] [] 0 List.not_mem_nil List.not_mem_nil (by decide)
  have taken := @step_demo_take [] [0] List.not_mem_nil
  have restored := @step_demo_restore [] [0] List.not_mem_nil
  have ran : run step .empty labels = some ⟨demoJobs [0], demoMinted [0], []⟩ := by
    refine (run_cons step).mpr ⟨_, added, (run_cons step).mpr ⟨_, taken, ?_⟩⟩
    exact (run_cons step).mpr ⟨_, restored, rfl⟩
  have roomy : Along step Roomy .empty labels := by
    refine along_cons trivial added (along_cons trivial taken (along_cons ?_ restored along_nil))
    exact (by decide : 0 < maxPending)
  exact ⟨_, _, ran, rfl, (queue_bounded_and_owned _ _ ran roomy).1⟩

end Instance

end GeniusNew.Wiring.PendingJobs
