import GeniusNew.Contracts.Basic
import GeniusNew.TokenBucket.Basic
import Mathlib.Data.Rat.Defs
import Mathlib.Algebra.Order.Ring.Rat

/-! # The request budget of each subject

Clock readings are exact rationals. A subject's bucket is full at its first call and
is touched by its own calls alone.
-/

namespace GeniusNew.HttpEntry

open Json

/-- An integer that `_bounded` lets through. -/
abbrev Bounded (ceiling : Int) := { value : Int // 1 ≤ value ∧ value ≤ ceiling }

def bounded (value : Int) (name : String) (ceiling : Int) : Outcome (Bounded ceiling) :=
  if within : 1 ≤ value ∧ value ≤ ceiling then pure ⟨value, within⟩
  else fail (name ++ " must be an integer between 1 and " ++ toString ceiling)

/-- `_Buckets`: the settings are integers that `_bounded` let through. -/
structure Buckets where
  ratePerMinute : Int
  burst : Int
  paced : 1 ≤ ratePerMinute
  roomy : 1 ≤ burst
  state : Str → Option (TokenBucket ℚ)

namespace Buckets

def rate (buckets : Buckets) : ℚ := buckets.ratePerMinute / 60

/-- The subject's bucket at a reading: a new one is full and starts at that reading. -/
def bucket (buckets : Buckets) (subject : Str) (now : ℚ) : TokenBucket ℚ :=
  (buckets.state subject).getD ⟨buckets.burst, now⟩

def take (buckets : Buckets) (subject : Str) (now : ℚ) : Bool × Buckets :=
  let (granted, after) := (buckets.bucket subject now).take buckets.rate buckets.burst now
  (granted, { buckets with state := Function.update buckets.state subject (some after) })

/-- No subject has called yet. -/
def new {rateCeiling burstCeiling : Int} (ratePerMinute : Bounded rateCeiling)
    (burst : Bounded burstCeiling) : Buckets where
  ratePerMinute := ratePerMinute
  burst := burst
  paced := ratePerMinute.2.1
  roomy := burst.2.1
  state _ := none

/-- Calls of `take`, each with the clock reading it makes. -/
abbrev Calls := List (Str × ℚ)

def run (buckets : Buckets) : Calls → Buckets
  | [] => buckets
  | (subject, now) :: calls => run (buckets.take subject now).2 calls

/-- What each call answers, with the subject it answers for. -/
def answers (buckets : Buckets) : Calls → List (Str × Bool)
  | [] => []
  | (subject, now) :: calls =>
      (subject, (buckets.take subject now).1) :: answers (buckets.take subject now).2 calls

/-- The entries of one subject. -/
def own {α : Type} (subject : Str) (entries : List (Str × α)) : List α :=
  (entries.filter (·.1 = subject)).map (·.2)

/-- The greatest reading of a list, and zero before the first one. -/
def greatest : List ℚ → ℚ
  | [] => 0
  | first :: rest => rest.foldl max first

/-- How far the greatest reading grows over a window, from the window's first reading. -/
def advance (before window : List ℚ) : ℚ :=
  greatest (before ++ window) - greatest (before ++ window.take 1)

section Own

variable {α : Type} {subject other : Str} {entry : α} {entries later : List (Str × α)}

@[simp] theorem own_nil : own subject ([] : List (Str × α)) = [] := rfl

@[simp] theorem own_cons_self :
    own subject ((subject, entry) :: entries) = entry :: own subject entries := by
  simp [own]

theorem own_cons_of_ne (differ : other ≠ subject) :
    own subject ((other, entry) :: entries) = own subject entries := by
  simp [own, differ]

@[simp] theorem own_append :
    own subject (entries ++ later) = own subject entries ++ own subject later := by
  simp [own]

end Own

variable {buckets : Buckets} {subject other : Str} {now : ℚ} {calls later : Calls}

theorem rate_pos : 0 < buckets.rate := by
  have paced : (0 : ℚ) < buckets.ratePerMinute := by exact_mod_cast buckets.paced
  unfold rate
  linarith

theorem burst_room : (1 : ℚ) ≤ buckets.burst := by exact_mod_cast buckets.roomy

theorem take_bucket_self (next : ℚ) : (buckets.take subject now).2.bucket subject next =
    ((buckets.bucket subject now).take buckets.rate buckets.burst now).2 := by
  simp [take, bucket]

theorem take_bucket_of_ne (differ : other ≠ subject) (next : ℚ) :
    (buckets.take other now).2.bucket subject next = buckets.bucket subject next := by
  simp [take, bucket, Function.update_of_ne (Ne.symm differ)]

theorem run_append : buckets.run (calls ++ later) = (buckets.run calls).run later := by
  induction calls generalizing buckets with
  | nil => rfl
  | cons call calls ih => exact ih

@[simp] theorem run_rate : (buckets.run calls).rate = buckets.rate := by
  induction calls generalizing buckets with
  | nil => rfl
  | cons call calls ih => exact ih

@[simp] theorem run_burst : (buckets.run calls).burst = buckets.burst := by
  induction calls generalizing buckets with
  | nil => rfl
  | cons call calls ih => exact ih

/-- What a subject is answered are the answers of its own bucket to its own readings. -/
theorem own_answers : own subject (buckets.answers calls) =
    match own subject calls with
    | [] => []
    | first :: rest =>
        (buckets.bucket subject first).grants buckets.rate buckets.burst (first :: rest) := by
  induction calls generalizing buckets with
  | nil => rfl
  | cons call calls ih =>
      obtain ⟨caller, now⟩ := call
      unfold answers
      by_cases same : caller = subject
      · subst same
        rw [own_cons_self, own_cons_self, ih]
        cases own caller calls with
        | nil => rfl
        | cons first rest =>
            change _ :: TokenBucket.grants _ _ _ _ = _ :: TokenBucket.grants _ _ _ _
            rw [take_bucket_self]
            rfl
      · rw [own_cons_of_ne same, own_cons_of_ne same, ih]
        cases own subject calls with
        | nil => rfl
        | cons first rest =>
            change TokenBucket.grants _ _ _ _ = TokenBucket.grants _ _ _ _
            rw [take_bucket_of_ne same]
            rfl

/-- After any calls a subject's bucket is the one its own readings leave. -/
theorem run_bucket (next : ℚ) : (buckets.run calls).bucket subject next =
    match own subject calls with
    | [] => buckets.bucket subject next
    | first :: rest =>
        (buckets.bucket subject first).run buckets.rate buckets.burst (first :: rest) := by
  induction calls generalizing buckets with
  | nil => rfl
  | cons call calls ih =>
      obtain ⟨caller, now⟩ := call
      change ((buckets.take caller now).2.run calls).bucket subject next = _
      rw [ih]
      by_cases same : caller = subject
      · subst same
        rw [own_cons_self]
        cases own caller calls with
        | nil => exact take_bucket_self next
        | cons first rest =>
            change TokenBucket.run _ _ _ _ = TokenBucket.run _ _ _ _
            rw [take_bucket_self]
            rfl
      · rw [own_cons_of_ne same]
        cases own subject calls with
        | nil => exact take_bucket_of_ne same next
        | cons first rest =>
            change TokenBucket.run _ _ _ _ = TokenBucket.run _ _ _ _
            rw [take_bucket_of_ne same]
            rfl

section Known

variable {known : TokenBucket ℚ} (kept : ∀ next, buckets.bucket subject next = known)

include kept

/-- A subject that has a bucket is answered from it. -/
theorem own_answers_of_known : own subject (buckets.answers calls) =
    known.grants buckets.rate buckets.burst (own subject calls) := by
  rw [own_answers]
  cases own subject calls with
  | nil => rfl
  | cons first rest => rw [← kept first]

theorem run_bucket_of_known (next : ℚ) : (buckets.run calls).bucket subject next =
    known.run buckets.rate buckets.burst (own subject calls) := by
  rw [run_bucket]
  cases own subject calls with
  | nil => exact kept next
  | cons first rest => rw [← kept first]

end Known

/-- Once the greatest reading grew by a token's worth since a call after which the
subject was granted none, it is granted the next. -/
theorem take_of_advance {between : Calls} {start : ℚ}
    (full : 0 ≤ (buckets.bucket subject start).tokens)
    (denied : ∀ answer ∈ own subject ((buckets.take subject start).2.answers between),
      answer = false)
    (advanced : 1 / buckets.rate ≤
      (own subject between ++ [now]).foldl max (max (buckets.bucket subject start).last start) -
        max (buckets.bucket subject start).last start) :
    (((buckets.take subject start).2.run between).take subject now).1 = true := by
  have kept := @take_bucket_self buckets subject start
  have room := @burst_room buckets
  have paced := @rate_pos buckets
  have left := TokenBucket.take_tokens_nonneg start paced.le (le_trans zero_le_one room) full
  rw [own_answers_of_known kept] at denied
  change (TokenBucket.take _ _ _ now).1 = true
  rw [run_rate, run_burst, run_bucket_of_known kept]
  apply TokenBucket.take_of_advance paced room left denied
  rw [TokenBucket.run_last, TokenBucket.take_last]
  rw [List.foldl_append] at advanced
  exact advanced

theorem greatest_concat_append (before rest : List ℚ) :
    greatest (before ++ now :: rest) = rest.foldl max (greatest (before ++ [now])) := by
  cases before with
  | nil => rfl
  | cons first before =>
      change (before ++ now :: rest).foldl max first = rest.foldl max ((before ++ [now]).foldl max first)
      rw [← List.foldl_append]
      simp

section New

variable {rateCeiling burstCeiling : Int} {ratePerMinute : Bounded rateCeiling}
  {burst : Bounded burstCeiling}

@[simp] theorem new_burst : (new ratePerMinute burst).burst = burst := rfl

theorem new_bucket : (new ratePerMinute burst).bucket subject now = ⟨burst, now⟩ := rfl

theorem new_run_tokens (next : ℚ) :
    0 ≤ (((new ratePerMinute burst).run calls).bucket subject next).tokens := by
  have full : (0 : ℚ) ≤ (new ratePerMinute burst).burst := le_trans zero_le_one burst_room
  rw [run_bucket]
  cases own subject calls with
  | nil => exact full
  | cons first rest => exact TokenBucket.run_tokens_nonneg rate_pos.le full full (first :: rest)

/-- What a bucket keeps is the greatest of its subject's readings. -/
theorem new_run_last : max (((new ratePerMinute burst).run calls).bucket subject now).last now =
    greatest (own subject calls ++ [now]) := by
  rw [run_bucket]
  cases own subject calls with
  | nil => exact max_self now
  | cons first rest =>
      change max (TokenBucket.run _ _ _ (first :: rest)).last now = _
      rw [TokenBucket.run_last]
      change max ((first :: rest).foldl max first) now = (rest ++ [now]).foldl max first
      rw [List.foldl_append, List.foldl_cons, max_self]
      rfl

theorem count_window_le (before window : Calls) :
    ((own subject (((new ratePerMinute burst).run before).answers window)).count true : ℚ) ≤
      burst + (new ratePerMinute burst).rate *
        advance (own subject before) (own subject window) := by
  have full : (0 : ℚ) ≤ burst := le_trans zero_le_one (@burst_room (new ratePerMinute burst))
  rw [own_answers, run_rate, run_burst]
  cases own subject window with
  | nil => simpa [advance] using full
  | cons first rest =>
      have bound := TokenBucket.count_le (@rate_pos (new ratePerMinute burst)).le full
        (@new_run_tokens subject before _ _ ratePerMinute burst first) first rest
      rw [TokenBucket.run_last, List.foldl_cons, new_run_last, ← greatest_concat_append] at bound
      exact bound

theorem take_first (fresh : own subject calls = []) :
    (((new ratePerMinute burst).run calls).take subject now).1 = true := by
  apply decide_eq_true
  rw [run_rate, run_burst, run_bucket, fresh, new_bucket]
  have room := @burst_room (new ratePerMinute burst)
  apply le_min room
  simpa using room

theorem take_after_advance {before between : Calls} {start : ℚ}
    (denied : ∀ answer ∈ own subject
      ((((new ratePerMinute burst).run before).take subject start).2.answers between),
        answer = false)
    (advanced : 1 / (new ratePerMinute burst).rate ≤
      advance (own subject before) (start :: own subject between ++ [now])) :
    (((((new ratePerMinute burst).run before).take subject start).2.run between).take
      subject now).1 = true := by
  have latest := @new_run_last subject start before _ _ ratePerMinute burst
  apply take_of_advance (new_run_tokens start) denied
  rw [run_rate, latest, ← greatest_concat_append]
  exact advanced

/-- Over any calls from the start: a subject is granted at most its burst and what the
growth of its greatest reading pays over every window, its answers are those its own
readings determine, and it is granted its first take and every take by which its greatest
reading grew by a token's worth since a call after which it was granted none. -/
theorem rate_limited (ratePerMinute : Bounded rateCeiling) (burst : Bounded burstCeiling)
    (subject : Str) :
    (∀ before window : Calls,
      ((own subject (((new ratePerMinute burst).run before).answers window)).count true : ℚ) ≤
        burst + (new ratePerMinute burst).rate *
          advance (own subject before) (own subject window)) ∧
    (∀ calls others : Calls, own subject calls = own subject others →
      own subject ((new ratePerMinute burst).answers calls) =
        own subject ((new ratePerMinute burst).answers others)) ∧
    (∀ (before : Calls) (now : ℚ), own subject before = [] →
      (((new ratePerMinute burst).run before).take subject now).1 = true) ∧
    ∀ (before between : Calls) (start now : ℚ),
      (∀ answer ∈ own subject
        ((((new ratePerMinute burst).run before).take subject start).2.answers between),
          answer = false) →
      1 / (new ratePerMinute burst).rate ≤
        advance (own subject before) (start :: own subject between ++ [now]) →
      (((((new ratePerMinute burst).run before).take subject start).2.run between).take
        subject now).1 = true := by
  refine ⟨count_window_le, ?_, fun before now fresh => take_first fresh, ?_⟩
  · intro calls others same
    rw [own_answers, own_answers, same]
  · intro before between start now denied advanced
    exact take_after_advance denied advanced

-- A clock stepping back mints nothing, also once it has caught up again.
example : own (str "subject-a")
    ((new (⟨60, by decide⟩ : Bounded 6000) (⟨1, by decide⟩ : Bounded 1000)).answers
      [((str "subject-a"), 7200), ((str "subject-a"), 3600), ((str "subject-a"), 7200)]) =
    [true, false, false] := by decide +kernel

end New

end Buckets

end GeniusNew.HttpEntry
