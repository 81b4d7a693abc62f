import GeniusNew.Json.Grammar

/-! # The levels a reading takes

The reader recurses on the bracket levels that are left to it. A reading that does not run out
of them is the same with any number of levels more, so the levels a text takes are those of
the smallest limit at which its reading ends on its own: by accepting a value or by the first
other error.
-/

namespace Json

section Extends

variable {α β : Type} {first more : Except ReadError α} {next then_ : α → Except ReadError β}

/-- The other outcome is the same where this one does not run out of levels. -/
def Agrees (first more : Except ReadError α) : Prop :=
  first ≠ .error .recursion → more = first

theorem Agrees.bind (agree : Agrees first more)
    (later : ∀ value, first = .ok value → Agrees (next value) (then_ value)) :
    Agrees (first >>= next) (more >>= then_) := by
  intro ended
  have here : first ≠ .error .recursion := by
    intro same
    apply ended
    rw [same]
    rfl
  rw [agree here]
  cases shape : first with
  | error raised => rfl
  | ok value =>
      apply later value shape
      intro same
      apply ended
      rw [shape]
      exact same

theorem agrees_refl (first : Except ReadError α) : Agrees first first := fun _ => rfl

variable {item deeper : Reader Value}

theorem agrees_readItems (agree : ∀ text, Agrees (item text) (deeper text)) (fuel : Nat)
    (text : Str) : Agrees (readItems item fuel text) (readItems deeper fuel text) := by
  induction fuel generalizing text with
  | zero => exact agrees_refl _
  | succ fuel ih =>
      rw [readItems, readItems]
      apply (agree text).bind
      intro read _
      obtain ⟨value, rest⟩ := read
      dsimp only
      split
      · exact agrees_refl _
      · split_ifs
        · exact agrees_refl _
        · exact (ih _).bind fun _ _ => agrees_refl _
        · exact agrees_refl _

theorem agrees_readPairs (agree : ∀ text, Agrees (item text) (deeper text)) (fuel : Nat)
    (text : Str) : Agrees (readPairs item fuel text) (readPairs deeper fuel text) := by
  induction fuel generalizing text with
  | zero => exact agrees_refl _
  | succ fuel ih =>
      cases text with
      | nil => exact agrees_refl _
      | cons quotation text =>
          simp only [readPairs]
          split_ifs
          · apply (agrees_refl _).bind
            intro read _
            obtain ⟨key, rest⟩ := read
            dsimp only
            split
            · exact agrees_refl _
            · split_ifs
              · apply (agree _).bind
                intro read _
                obtain ⟨value, rest⟩ := read
                dsimp only
                split
                · exact agrees_refl _
                · split_ifs
                  · exact agrees_refl _
                  · exact (ih _).bind fun _ _ => agrees_refl _
                  · exact agrees_refl _
              · exact agrees_refl _
          · exact agrees_refl _

theorem agrees_readArray (agree : ∀ text, Agrees (item text) (deeper text)) (text : Str) :
    Agrees (readArray item text) (readArray deeper text) := by
  unfold readArray
  split
  · exact agrees_refl _
  · split_ifs
    · exact agrees_refl _
    · exact (agrees_readItems agree _ _).bind fun _ _ => agrees_refl _

theorem agrees_readObject (agree : ∀ text, Agrees (item text) (deeper text)) (text : Str) :
    Agrees (readObject item text) (readObject deeper text) := by
  unfold readObject
  split
  · exact agrees_refl _
  · split_ifs
    · exact agrees_refl _
    · exact (agrees_readPairs agree _ _).bind fun _ _ => agrees_refl _

theorem agrees_readWith {interpreter : Interpreter} {nested : Option (Reader Value)}
    (agree : ∀ item ∈ nested, ∀ text, Agrees (item text) (deeper text)) (text : Str) :
    Agrees (readWith interpreter nested text) (readWith interpreter (some deeper) text) := by
  cases text with
  | nil => exact agrees_refl _
  | cons c text =>
      simp only [readWith]
      split_ifs with quotation brace bracket
      · exact agrees_refl _
      · cases nested with
        | none => exact fun ended => (ended rfl).elim
        | some item => exact agrees_readObject (agree item rfl) text
      · cases nested with
        | none => exact fun ended => (ended rfl).elim
        | some item => exact agrees_readArray (agree item rfl) text
      all_goals exact agrees_refl _

theorem agrees_readValue_succ (interpreter : Interpreter) (level : Nat) (text : Str) :
    Agrees (readValue interpreter level text) (readValue interpreter (level + 1) text) := by
  induction level generalizing text with
  | zero =>
      apply agrees_readWith
      intro item member
      cases member
  | succ level ih =>
      apply agrees_readWith
      intro item member
      obtain rfl := Option.some.inj member
      exact ih

/-- A reading that ends on its own is the same with more levels. -/
theorem agrees_readValue (interpreter : Interpreter) {level higher : Nat} (le : level ≤ higher)
    (text : Str) :
    Agrees (readValue interpreter level text) (readValue interpreter higher text) := by
  induction higher, le using Nat.le_induction with
  | base => exact agrees_refl _
  | succ higher _ ih =>
      intro ended
      have same := ih ended
      rw [agrees_readValue_succ interpreter higher text (by rwa [same]), same]

end Extends

section Levels

/-- The reading ran out of levels. -/
def ranOut {α : Type} (outcome : Except ReadError α) : Bool :=
  match outcome with
  | .error .recursion => true
  | _ => false

theorem ranOut_iff {α : Type} {outcome : Except ReadError α} :
    ranOut outcome = true ↔ outcome = .error .recursion := by
  match outcome with
  | .error .recursion => exact ⟨fun _ => rfl, fun _ => rfl⟩
  | .error .value => exact ⟨fun ran => (by cases ran), fun same => (by cases same)⟩
  | .error .digits => exact ⟨fun ran => (by cases ran), fun same => (by cases same)⟩
  | .ok value => exact ⟨fun ran => (by cases ran), fun same => (by cases same)⟩

end Levels

end Json
