import Mathlib.Data.Set.Insert
import Mathlib.Logic.Function.Basic

/-! # Custody

Keys are moved by holders. Whoever holds a key knows every mark it has passed,
and a key passes a mark only under its holder. If keys enter fresh and are handed
over, never shared, each key has at most one holder at any time, and what its
holder knows of it is all that happened to it.
-/

/-- Who holds which key, with the marks the holder knows of; the marks each key
has passed; and the keys that ever entered. -/
structure Custody (Holder Key Mark : Type*) where
  holds : Holder → Key → List Mark → Prop
  past : Key → List Mark
  known : Set Key

namespace Custody

variable {Holder Key Mark : Type*}

/-- Every key has at most one holder, which knows what it has passed; what a key
has passed keeps the course; and only keys that entered are held or pass marks. -/
structure Kept (Course : List Mark → Prop) (custody : Custody Holder Key Mark) : Prop where
  informed : ∀ {holder key marks}, custody.holds holder key marks → custody.past key = marks
  alone : ∀ {one two key marks others}, custody.holds one key marks →
    custody.holds two key others → one = two
  course : ∀ key, Course (custody.past key)
  entered : ∀ {holder key marks}, custody.holds holder key marks → key ∈ custody.known
  untouched : ∀ {key}, key ∉ custody.known → custody.past key = []

section Moves

variable {Course : List Mark → Prop} {before after : Custody Holder Key Mark}

/-- Nothing is held and nothing has happened. -/
theorem kept_of_empty {custody : Custody Holder Key Mark} (course : Course [])
    (nobody : ∀ holder key marks, ¬custody.holds holder key marks)
    (past : ∀ key, custody.past key = []) : custody.Kept Course where
  informed held := (nobody _ _ _ held).elim
  alone held _ := (nobody _ _ _ held).elim
  course key := by
    rw [past]
    exact course
  entered held := (nobody _ _ _ held).elim
  untouched _ := past _

theorem Kept.not_held (kept : before.Kept Course) {key : Key} (fresh : key ∉ before.known)
    (holder : Holder) (marks : List Mark) : ¬before.holds holder key marks :=
  fun held => fresh (kept.entered held)

theorem Kept.drops (kept : before.Kept Course) (past : after.past = before.past)
    (known : after.known = before.known)
    (left : ∀ holder key marks, after.holds holder key marks → before.holds holder key marks) :
    after.Kept Course where
  informed held := by
    rw [past]
    exact kept.informed (left _ _ _ held)
  alone one two := kept.alone (left _ _ _ one) (left _ _ _ two)
  course := by
    rw [past]
    exact kept.course
  entered held := by
    rw [known]
    exact kept.entered (left _ _ _ held)
  untouched fresh := by
    rw [past]
    rw [known] at fresh
    exact kept.untouched fresh

theorem Kept.enters (kept : before.Kept Course) {holder : Holder} {key : Key}
    (past : after.past = before.past) (known : after.known = insert key before.known)
    (fresh : key ∉ before.known)
    (left : ∀ other same marks, after.holds other same marks →
      before.holds other same marks ∨ other = holder ∧ same = key ∧ marks = []) :
    after.Kept Course where
  informed held := by
    rw [past]
    obtain old | ⟨_, rfl, rfl⟩ := left _ _ _ held
    · exact kept.informed old
    · exact kept.untouched fresh
  alone one two := by
    obtain old | ⟨rfl, rfl, _⟩ := left _ _ _ one
    · obtain also | ⟨_, rfl, _⟩ := left _ _ _ two
      · exact kept.alone old also
      · exact (kept.not_held fresh _ _ old).elim
    · obtain also | ⟨rfl, _⟩ := left _ _ _ two
      · exact (kept.not_held fresh _ _ also).elim
      · rfl
  course := by
    rw [past]
    exact kept.course
  entered held := by
    rw [known]
    obtain old | ⟨_, rfl, _⟩ := left _ _ _ held
    · exact Set.mem_insert_of_mem _ (kept.entered old)
    · exact Set.mem_insert _ _
  untouched other := by
    rw [past]
    rw [known] at other
    exact kept.untouched fun old => other (Set.mem_insert_of_mem _ old)

theorem Kept.hands (kept : before.Kept Course) {source target : Holder} {key : Key}
    {marks : List Mark} (past : after.past = before.past) (known : after.known = before.known)
    (held : before.holds source key marks) (released : ∀ others, ¬after.holds source key others)
    (left : ∀ holder same others, after.holds holder same others →
      before.holds holder same others ∨ holder = target ∧ same = key ∧ others = marks) :
    after.Kept Course := by
  -- whoever held the key before is the one that has released it
  have gone : ∀ holder others, after.holds holder key others → holder = target := by
    intro holder others now
    obtain old | ⟨rfl, _⟩ := left _ _ _ now
    · obtain rfl := kept.alone old held
      exact (released others now).elim
    · rfl
  refine ⟨fun now => ?_, fun {one two same _ _} first second => ?_, ?_, fun now => ?_,
    fun fresh => ?_⟩
  · rw [past]
    obtain old | ⟨_, rfl, rfl⟩ := left _ _ _ now
    · exact kept.informed old
    · exact kept.informed held
  · by_cases moved : same = key
    · subst moved
      exact (gone one _ first).trans (gone two _ second).symm
    · obtain old | ⟨_, same, _⟩ := left _ _ _ first
      · obtain also | ⟨_, same, _⟩ := left _ _ _ second
        · exact kept.alone old also
        · exact (moved same).elim
      · exact (moved same).elim
  · rw [past]
    exact kept.course
  · rw [known]
    obtain old | ⟨_, rfl, _⟩ := left _ _ _ now
    · exact kept.entered old
    · exact kept.entered held
  · rw [past]
    rw [known] at fresh
    exact kept.untouched fresh

end Moves

variable [DecidableEq Key]

/-- One step of custody, along a course that says which marks may follow which. -/
inductive Step (Course : List Mark → Prop) (before after : Custody Holder Key Mark) : Prop where
  /-- Holders keep what they have, or drop it. -/
  | drops (past : after.past = before.past) (known : after.known = before.known)
      (kept : ∀ holder key marks, after.holds holder key marks → before.holds holder key marks)
  /-- A fresh key enters. -/
  | enters (holder : Holder) (key : Key) (past : after.past = before.past)
      (known : after.known = insert key before.known) (fresh : key ∉ before.known)
      (kept : ∀ other same marks, after.holds other same marks →
        before.holds other same marks ∨ other = holder ∧ same = key ∧ marks = [])
  /-- A key changes hands. -/
  | hands (source target : Holder) (key : Key) (marks : List Mark)
      (past : after.past = before.past) (known : after.known = before.known)
      (held : before.holds source key marks) (released : ∀ others, ¬after.holds source key others)
      (kept : ∀ holder same others, after.holds holder same others →
        before.holds holder same others ∨ holder = target ∧ same = key ∧ others = marks)
  /-- A key passes a mark under its holder, which drops whatever else it has. -/
  | passes (holder : Holder) (key : Key) (marks : List Mark) (mark : Mark)
      (held : before.holds holder key marks)
      (past : after.past = Function.update before.past key (before.past key ++ [mark]))
      (known : after.known = before.known) (due : Course (marks ++ [mark]))
      (kept : ∀ other same others, after.holds other same others →
        other ≠ holder ∧ before.holds other same others ∨
          other = holder ∧ same = key ∧ others = marks ++ [mark])

section Steps

variable {Course : List Mark → Prop} {before after : Custody Holder Key Mark}

theorem Kept.passes (kept : before.Kept Course) {holder : Holder} {key : Key}
    {marks : List Mark} {mark : Mark} (held : before.holds holder key marks)
    (past : after.past = Function.update before.past key (before.past key ++ [mark]))
    (known : after.known = before.known) (due : Course (marks ++ [mark]))
    (left : ∀ other same others, after.holds other same others →
      other ≠ holder ∧ before.holds other same others ∨
        other = holder ∧ same = key ∧ others = marks ++ [mark]) :
    after.Kept Course := by
  have informed := kept.informed held
  rw [informed] at past
  -- nobody else holds the key that passes the mark
  have apart : ∀ other same others, other ≠ holder → before.holds other same others → same ≠ key := by
    rintro other same others distinct also rfl
    exact distinct (kept.alone also held)
  refine ⟨fun now => ?_, fun first second => ?_, fun same => ?_, fun now => ?_,
    fun {other} fresh => ?_⟩
  · rw [past]
    obtain ⟨distinct, old⟩ | ⟨_, rfl, rfl⟩ := left _ _ _ now
    · rw [Function.update_of_ne (apart _ _ _ distinct old)]
      exact kept.informed old
    · rw [Function.update_self]
  · obtain ⟨distinct, old⟩ | ⟨rfl, rfl, _⟩ := left _ _ _ first
    · obtain ⟨_, also⟩ | ⟨_, same, _⟩ := left _ _ _ second
      · exact kept.alone old also
      · exact (apart _ _ _ distinct old same).elim
    · obtain ⟨distinct, also⟩ | ⟨rfl, _⟩ := left _ _ _ second
      · exact (apart _ _ _ distinct also rfl).elim
      · rfl
  · rw [past]
    by_cases moved : same = key
    · rw [moved, Function.update_self]
      exact due
    · rw [Function.update_of_ne moved]
      exact kept.course same
  · rw [known]
    obtain ⟨_, old⟩ | ⟨_, rfl, _⟩ := left _ _ _ now
    · exact kept.entered old
    · exact kept.entered held
  · rw [known] at fresh
    have moved : other ≠ key := by
      rintro rfl
      exact fresh (kept.entered held)
    rw [past, Function.update_of_ne moved]
    exact kept.untouched fresh

theorem Kept.step (kept : before.Kept Course) (stepped : Step Course before after) :
    after.Kept Course := by
  cases stepped with
  | drops past known left => exact kept.drops past known left
  | enters holder key past known fresh left => exact kept.enters past known fresh left
  | hands source target key marks past known held released left =>
      exact kept.hands past known held released left
  | passes holder key marks mark held past known due left =>
      exact kept.passes held past known due left

end Steps

end Custody
