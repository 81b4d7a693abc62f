import Mathlib.Algebra.Order.Field.Basic
import Mathlib.Algebra.Order.Group.MinMax
import Mathlib.Data.List.Count
import Mathlib.Tactic.Linarith
import Mathlib.Tactic.Ring

/-! # Token buckets

A bucket holds up to `burst` tokens and gains `rate` of them for each unit by which
its greatest clock reading grows. A take is granted when the bucket holds a token,
which it spends. What the tokens are worth over a list of readings is a potential:
grants and tokens together never gain more than the clock's advance pays for.
-/

/-- The tokens of a bucket and its greatest reading. -/
structure TokenBucket (K : Type*) where
  tokens : K
  last : K

namespace TokenBucket

variable {K : Type*} [Field K] [LinearOrder K] (rate burst : K)

/-- The tokens at a reading, before anything is spent. -/
def refill (bucket : TokenBucket K) (now : K) : K :=
  min burst (bucket.tokens + max 0 (now - bucket.last) * rate)

/-- Whether a take is granted, and the bucket after it. -/
def take (bucket : TokenBucket K) (now : K) : Bool × TokenBucket K :=
  let tokens := bucket.refill rate burst now
  (decide (1 ≤ tokens), ⟨if 1 ≤ tokens then tokens - 1 else tokens, max bucket.last now⟩)

/-- The answers to takes at a list of readings. -/
def grants (bucket : TokenBucket K) : List K → List Bool
  | [] => []
  | now :: readings => (bucket.take rate burst now).1 :: grants (bucket.take rate burst now).2 readings

/-- The bucket after takes at a list of readings. -/
def run (bucket : TokenBucket K) : List K → TokenBucket K
  | [] => bucket
  | now :: readings => run (bucket.take rate burst now).2 readings

section Runs

variable {rate burst} (bucket : TokenBucket K) (now : K) (readings later : List K)

@[simp] theorem take_last : (bucket.take rate burst now).2.last = max bucket.last now := rfl

theorem run_append : bucket.run rate burst (readings ++ later) =
    (bucket.run rate burst readings).run rate burst later := by
  induction readings generalizing bucket with
  | nil => rfl
  | cons now readings ih => exact ih _

/-- The greatest reading is the running maximum. -/
theorem run_last : (bucket.run rate burst readings).last = readings.foldl max bucket.last := by
  induction readings generalizing bucket with
  | nil => rfl
  | cons now readings ih => exact ih _

end Runs

section Refill

variable [IsStrictOrderedRing K] (bucket : TokenBucket K) (now : K)

/-- A refill pays for the growth of the greatest reading alone. -/
theorem refill_eq : bucket.refill rate burst now =
    min burst (bucket.tokens + rate * (max bucket.last now - bucket.last)) := by
  have advance : max 0 (now - bucket.last) = max bucket.last now - bucket.last := by
    rw [← max_sub_sub_right, sub_self]
  unfold refill
  rw [advance, mul_comm rate]

theorem refill_le : bucket.refill rate burst now ≤
    bucket.tokens + rate * (max bucket.last now - bucket.last) := by
  rw [refill_eq]
  exact min_le_right _ _

omit [IsStrictOrderedRing K] in
theorem refill_le_burst : bucket.refill rate burst now ≤ burst := by
  unfold refill
  exact min_le_left _ _

variable {rate burst bucket} in
theorem refill_nonneg (positive : 0 ≤ rate) (room : 0 ≤ burst) (full : 0 ≤ bucket.tokens) :
    0 ≤ bucket.refill rate burst now := by
  have gained : 0 ≤ max 0 (now - bucket.last) * rate := mul_nonneg (le_max_left _ _) positive
  exact le_min room (add_nonneg full gained)

omit [IsStrictOrderedRing K] in
/-- A take turns the refilled tokens into its grant and the tokens it leaves. -/
theorem grant_add_tokens : (if (bucket.take rate burst now).1 then 1 else 0) +
    (bucket.take rate burst now).2.tokens = bucket.refill rate burst now := by
  unfold take
  by_cases enough : 1 ≤ bucket.refill rate burst now
  · simp [enough]
  · simp [enough]

variable {rate burst bucket} in
theorem take_tokens_nonneg (positive : 0 ≤ rate) (room : 0 ≤ burst) (full : 0 ≤ bucket.tokens) :
    0 ≤ (bucket.take rate burst now).2.tokens := by
  have left := refill_nonneg now positive room full
  unfold take
  dsimp only
  split_ifs with enough
  · exact sub_nonneg.mpr enough
  · exact left

end Refill

section Potential

variable [IsStrictOrderedRing K] {rate burst : K}

theorem run_tokens_nonneg (positive : 0 ≤ rate) (room : 0 ≤ burst) {bucket : TokenBucket K}
    (full : 0 ≤ bucket.tokens) (readings : List K) :
    0 ≤ (bucket.run rate burst readings).tokens := by
  induction readings generalizing bucket with
  | nil => exact full
  | cons now readings ih => exact ih (take_tokens_nonneg now positive room full)

omit [IsStrictOrderedRing K] in
theorem count_cons (bucket : TokenBucket K) (now : K) (readings : List K) :
    ((bucket.grants rate burst (now :: readings)).count true : K) =
      (if (bucket.take rate burst now).1 then 1 else 0) +
        ((bucket.take rate burst now).2.grants rate burst readings).count true := by
  change ((_ :: grants rate burst (bucket.take rate burst now).2 readings).count true : K) = _
  rw [List.count_cons, Nat.cast_add, add_comm]
  by_cases granted : (bucket.take rate burst now).1 = true
  · simp [granted]
  · simp [granted]

variable (rate burst) in
/-- Grants and tokens together gain at most what the greatest reading's growth pays. -/
theorem count_add_tokens_le (bucket : TokenBucket K) (readings : List K) :
    ((bucket.grants rate burst readings).count true : K) +
        (bucket.run rate burst readings).tokens ≤
      bucket.tokens + rate * ((bucket.run rate burst readings).last - bucket.last) := by
  induction readings generalizing bucket with
  | nil => simp [grants, run]
  | cons now readings ih =>
    have later := ih (bucket.take rate burst now).2
    have spent := grant_add_tokens rate burst bucket now
    have gained := refill_le rate burst bucket now
    rw [count_cons]
    change _ + (run rate burst (bucket.take rate burst now).2 readings).tokens ≤
      _ + rate * ((run rate burst (bucket.take rate burst now).2 readings).last - _)
    rw [take_last] at later
    linarith

/-- After any history, grants over a window are bounded by the burst and the growth of
the greatest reading since the window's first take. -/
theorem count_le (positive : 0 ≤ rate) (room : 0 ≤ burst) {bucket : TokenBucket K}
    (full : 0 ≤ bucket.tokens) (now : K) (readings : List K) :
    ((bucket.grants rate burst (now :: readings)).count true : K) ≤
      burst + rate * ((bucket.run rate burst (now :: readings)).last - max bucket.last now) := by
  have bound := count_add_tokens_le rate burst
    (bucket.take rate burst now).2 readings
  have spent := grant_add_tokens rate burst bucket now
  have capped := refill_le_burst rate burst bucket now
  have left := run_tokens_nonneg positive room (take_tokens_nonneg now positive room full) readings
  rw [count_cons]
  change _ ≤ burst + rate * ((run rate burst (bucket.take rate burst now).2 readings).last - _)
  rw [take_last] at bound
  linarith

end Potential

section Refilled

variable [IsStrictOrderedRing K] {rate burst : K}

omit [IsStrictOrderedRing K] in
/-- A take that is not granted keeps all it refilled. -/
theorem take_of_denied {bucket : TokenBucket K} {now : K}
    (denied : (bucket.take rate burst now).1 = false) :
    bucket.refill rate burst now < 1 ∧
      (bucket.take rate burst now).2.tokens = bucket.refill rate burst now := by
  have short : ¬ 1 ≤ bucket.refill rate burst now := of_decide_eq_false denied
  refine ⟨not_le.mp short, ?_⟩
  exact if_neg short

/-- While takes are denied, what the growth of the greatest reading pays adds up. -/
theorem run_of_denied (room : 1 ≤ burst) {bucket : TokenBucket K} {readings : List K}
    (denied : ∀ granted ∈ bucket.grants rate burst readings, granted = false) :
    (bucket.run rate burst readings).tokens =
      bucket.tokens + rate * ((bucket.run rate burst readings).last - bucket.last) := by
  induction readings generalizing bucket with
  | nil => simp [run]
  | cons now readings ih =>
    have ⟨short, kept⟩ := take_of_denied (denied _ (List.mem_cons_self ..))
    have later := ih fun granted member => denied granted (List.mem_cons_of_mem _ member)
    have refilled : bucket.refill rate burst now =
        bucket.tokens + rate * (max bucket.last now - bucket.last) := by
      rw [refill_eq] at short ⊢
      apply min_eq_right
      by_contra beyond
      rw [min_eq_left (le_of_not_ge beyond)] at short
      exact absurd room (not_le.mpr short)
    change (run rate burst (bucket.take rate burst now).2 readings).tokens = _ +
      rate * ((run rate burst (bucket.take rate burst now).2 readings).last - _)
    rw [later, take_last, kept, refilled]
    ring

/-- Once the growth of the greatest reading over denied takes is worth a token, the
next take is granted. -/
theorem take_of_advance (positive : 0 < rate) (room : 1 ≤ burst) {bucket : TokenBucket K}
    (full : 0 ≤ bucket.tokens) {readings : List K} {now : K}
    (denied : ∀ granted ∈ bucket.grants rate burst readings, granted = false)
    (advanced : 1 / rate ≤ max (bucket.run rate burst readings).last now - bucket.last) :
    ((bucket.run rate burst readings).take rate burst now).1 = true := by
  have kept := run_of_denied room denied
  have worth : 1 ≤ rate * (max (bucket.run rate burst readings).last now - bucket.last) := by
    rwa [div_le_iff₀' positive] at advanced
  apply decide_eq_true
  rw [refill_eq, kept]
  apply le_min room
  linarith

end Refilled

end TokenBucket
