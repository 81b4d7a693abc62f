import GeniusNew.Anchor.Growth

/-! # A persisted anchor is never rolled back

Over any run of starts, requests, torn appends and stops, what a start resumes
from is at least as far as everything the process ever reported, and while the
process lives, the last line of its file is the head it stands at.
-/

namespace GeniusNew

open Json HashChain Transition

namespace AnchorProcess

variable {interpreter : Interpreter} {verifier : AuditVerifier}

/-- A file that a process at `state` may have: empty for a new anchor, or lines
of which the last one claims the state. -/
def Holds (verifier : AuditVerifier) (file : Option Bytes) (state : Committed) : Prop :=
  file.getD [] = [] ∧ state = .initial ∨ Recorded verifier (file.getD []) (some state)

theorem load_holds {file : Option Bytes} {state : Committed} :
    load interpreter verifier file = .ok state ↔
      (file.getD []).length ≤ maxStateBytes ∧ Holds verifier file state := by
  cases file with
  | some data => exact load_eq_ok
  | none =>
      constructor
      · intro loaded
        exact ⟨Nat.zero_le _, Or.inl ⟨rfl, (Except.ok.inj loaded).symm⟩⟩
      · rintro ⟨_, ⟨_, rfl⟩ | recorded⟩
        · rfl
        · rcases loadLines_of_recorded interpreter recorded with
            ⟨_, none⟩ | ⟨front, empty, _⟩
          · cases none
          · exact absurd empty.symm (List.append_ne_nil_of_right_ne_nil _ (List.cons_ne_nil _ _))

theorem Holds.unique (interpreter : Interpreter) {file : Option Bytes} {state other : Committed}
    (holds : Holds verifier file state) (holds' : Holds verifier file other) : state = other := by
  rcases holds with ⟨empty, rfl⟩ | recorded
  · rcases holds' with ⟨_, rfl⟩ | recorded'
    · rfl
    · rw [empty] at recorded'
      rcases loadLines_of_recorded interpreter recorded' with ⟨_, none⟩ | ⟨front, split, _⟩
      · cases none
      · exact absurd split.symm (List.append_ne_nil_of_right_ne_nil _ (List.cons_ne_nil _ _))
  · rcases loadLines_of_recorded interpreter recorded with ⟨_, none⟩ | ⟨front, split, loaded⟩
    · cases none
    rcases holds' with ⟨empty, _⟩ | recorded'
    · rw [empty] at split
      exact absurd split.symm (List.append_ne_nil_of_right_ne_nil _ (List.cons_ne_nil _ _))
    · rcases loadLines_of_recorded interpreter recorded' with ⟨_, none⟩ | ⟨front', split', loaded'⟩
      · cases none
      · obtain rfl : front = front' := List.append_cancel_right (split.symm.trans split')
        exact Option.some.inj (Except.ok.inj (loaded.symm.trans loaded'))

/-- A completed append leaves the file at the new head. -/
theorem Holds.append {file : Option Bytes} {state next : Committed} {sent : AuditHead}
    (holds : Holds verifier file state) (verified : verifyHead verifier (some sent) = .ok next)
    (less : state.count < next.count) :
    Holds verifier (append file (lineOf sent) .completes) next := by
  right
  rcases holds with ⟨empty, _⟩ | recorded
  · rw [AnchorProcess.append, empty, Option.getD_some]
    refine Recorded.line sent next Recorded.empty verified ?_
    intro earlier absent
    cases absent
  · refine Recorded.line sent next recorded verified fun earlier member => ?_
    rwa [← Option.mem_some_iff.mp member]

/-- A line that is cut off is empty, whole, or without its line break. -/
theorem take_lineOf (sent : AuditHead) (count : Nat) :
    (lineOf sent).take count = [] ∨ (lineOf sent).take count = lineOf sent ∨
      ((lineOf sent).take count ≠ [] ∧ (10 : UInt8) ∉ (lineOf sent).take count) := by
  rcases Nat.lt_or_ge (canonicalBytes (headDict sent)).length count with long | short
  · right; left
    apply List.take_of_length_le
    rw [lineOf, List.length_append, List.length_singleton]
    exact long
  · by_cases empty : (lineOf sent).take count = []
    · exact Or.inl empty
    · refine Or.inr (Or.inr ⟨empty, fun member => ?_⟩)
      rw [lineOf, List.take_append_of_le_length short] at member
      exact not_newline_canonicalBytes _ (List.mem_of_mem_take member)

/-- However the write of a line went, the file loads to the state before it, to
the head of the line, or not at all. -/
theorem holds_of_append (interpreter : Interpreter) {file : Option Bytes}
    {state next resumed : Committed} {sent : AuditHead} {write : Append}
    (holds : Holds verifier file state) (verified : verifyHead verifier (some sent) = .ok next)
    (less : state.count < next.count)
    (resumes : Holds verifier (append file (lineOf sent) write) resumed) :
    resumed = state ∨ resumed = next := by
  cases write with
  | completes => exact Or.inr (resumes.unique interpreter (holds.append verified less))
  | unopened => exact Or.inl (resumes.unique interpreter holds)
  | torn count =>
      rcases take_lineOf sent count with empty | whole | ⟨nonempty, solid⟩
      · left
        rw [append, empty, List.append_nil] at resumes
        exact resumes.unique interpreter holds
      · right
        rw [append, whole] at resumes
        exact resumes.unique interpreter (holds.append verified less)
      · -- a line cut inside does not end the file with a line break
        exfalso
        obtain ⟨start, last, ends⟩ := (List.eq_nil_or_concat _).resolve_left nonempty
        rw [List.concat_eq_append] at ends
        have kept : last ≠ 10 := by
          rintro rfl
          exact solid (ends ▸ List.mem_append_right _ List.mem_cons_self)
        rw [append, ends] at resumes
        rcases resumes with ⟨empty, _⟩ | recorded
        · exact absurd empty (by simp)
        · rcases loadLines_of_recorded interpreter recorded with ⟨_, none⟩ | ⟨front, split, _⟩
          · cases none
          · have same := congrArg List.getLast? split
            rw [Option.getD_some, ← List.append_assoc, List.getLast?_concat,
              List.getLast?_concat] at same
            exact kept (Option.some.inj same)

/-- The last line of a recorded file is the line of the head it claims. -/
theorem Recorded.last_line {data : Bytes} {state : Committed}
    (recorded : Recorded verifier data (some state)) :
    ∃ sent front, verifyHead verifier (some sent) = .ok state ∧ data = front ++ lineOf sent ∧
      (front = [] ∨ front.getLast? = some 10) := by
  cases recorded with
  | line sent claimed before verified rises =>
      refine ⟨sent, _, verified, rfl, ?_⟩
      cases before with
      | empty => exact Or.inl rfl
      | line earlier => exact Or.inr (by rw [lineOf, ← List.append_assoc, List.getLast?_concat])

/-- The invariant of a run: a live process stands where its file ends, ahead of
all it reported, and a stopped one can only resume ahead of all it reported. -/
def Ahead (interpreter : Interpreter) (verifier : AuditVerifier) (served : Served) : Prop :=
  match served.live with
  | some state => Holds verifier served.file state ∧
      ∀ earlier ∈ served.reported, Continues earlier state
  | none => ∀ resumed, load interpreter verifier served.file = .ok resumed →
      ∀ earlier ∈ served.reported, Continues earlier resumed

theorem ahead_of_stopped (interpreter : Interpreter) {file : Option Bytes} {state : Committed}
    {reported : List Committed} (holds : Holds verifier file state)
    (ahead : ∀ earlier ∈ reported, Continues earlier state) :
    Ahead interpreter verifier ⟨file, none, reported⟩ := by
  intro resumed loaded earlier member
  rw [← holds.unique interpreter (load_holds.mp loaded).2]
  exact ahead earlier member

theorem ahead_of_torn (interpreter : Interpreter) {file : Option Bytes} {state next : Committed}
    {reported : List Committed} {sent : AuditHead} (write : Append)
    (holds : Holds verifier file state) (verified : verifyHead verifier (some sent) = .ok next)
    (less : state.count < next.count) (behind : ∀ earlier ∈ reported, Continues earlier state) :
    Ahead interpreter verifier ⟨append file (lineOf sent) write, none, reported⟩ := by
  intro resumed loaded earlier member
  rcases holds_of_append interpreter holds verified less (load_holds.mp loaded).2 with rfl | rfl
  · exact behind earlier member
  · exact (behind earlier member).trans (Or.inl less)

theorem step_ahead {served next : Served} {event : ServeEvent}
    (ahead : Ahead interpreter verifier served)
    (stepped : step interpreter verifier served event = some next) :
    Ahead interpreter verifier next := by
  obtain ⟨file, live, reported⟩ := served
  cases event with
  | start readable =>
      cases live with
      | some state => cases stepped
      | none =>
          cases readable with
          | false =>
              obtain rfl := Option.some.inj stepped
              exact ahead
          | true =>
              simp only [step, ↓reduceIte] at stepped
              cases loaded : load interpreter verifier file with
              | error raised =>
                  rw [loaded] at stepped
                  obtain rfl := Option.some.inj stepped
                  exact ahead
              | ok state =>
                  rw [loaded] at stepped
                  obtain rfl := Option.some.inj stepped
                  refine ⟨(load_holds.mp loaded).2, fun earlier member => ?_⟩
                  rw [statedBy_committed, Option.toList_some, List.singleton_append] at member
                  rcases List.mem_cons.mp member with rfl | inside
                  · exact Or.inr rfl
                  · exact ahead state loaded earlier inside
  | stop =>
      cases live with
      | none => cases stepped
      | some state =>
          obtain rfl := Option.some.inj stepped
          exact ahead_of_stopped interpreter ahead.1 ahead.2
  | request message write =>
      cases live with
      | none => cases stepped
      | some state =>
          obtain ⟨holds, behind⟩ := ahead
          simp only [step] at stepped
          rcases answer_cases interpreter verifier message write state file with
            ⟨reply, answered, stated⟩ | ⟨after, sent, less, verified, _, answered⟩
          · rw [answered] at stepped
            cases reply with
            | none =>
                obtain rfl := Option.some.inj stepped
                exact ahead_of_stopped interpreter holds behind
            | some reply =>
                obtain rfl := Option.some.inj stepped
                refine ⟨holds, fun earlier member => ?_⟩
                rcases List.mem_append.mp member with said | inside
                · rcases stated reply rfl with none | same
                  · rw [none] at said
                    cases said
                  · rw [same, Option.toList_some, List.mem_singleton] at said
                    exact Or.inr said
                · exact behind earlier inside
          · rw [answered] at stepped
            have forward : ∀ earlier ∈ reported, Continues earlier after :=
              fun earlier member => (behind earlier member).trans (Or.inl less)
            cases write with
            | completes =>
                obtain rfl := Option.some.inj stepped
                refine ⟨holds.append verified less, fun earlier member => ?_⟩
                rw [statedBy_committed, Option.toList_some, List.singleton_append] at member
                rcases List.mem_cons.mp member with rfl | inside
                · exact Or.inr rfl
                · exact forward earlier inside
            | torn count =>
                obtain rfl := Option.some.inj stepped
                exact ahead_of_torn interpreter (.torn count) holds verified less behind
            | unopened =>
                obtain rfl := Option.some.inj stepped
                exact ahead_of_torn interpreter .unopened holds verified less behind

end AnchorProcess

open AnchorProcess in
/-- From any file at all, whatever a run of starts, requests, torn writes and
stops does: what the file loads to afterwards, if it loads, is at least as far
as every state an `ok` reply has reported, and the last line of a live process
that has committed records is the head it stands at. -/
theorem persisted_anchor_never_rolled_back (interpreter : Interpreter) (verifier : AuditVerifier)
    (file : Option Bytes) (events : List ServeEvent) (final : Served)
    (ran : run (step interpreter verifier) ⟨file, none, []⟩ events = some final) :
    (∀ resumed, load interpreter verifier final.file = .ok resumed →
      ∀ reported ∈ final.reported, reported.count ≤ resumed.count ∧
        (reported.count = resumed.count → reported.headHash = resumed.headHash)) ∧
    ∀ state, final.live = some state → 0 < state.count →
      ∃ sent front, verifyHead verifier (some sent) = .ok state ∧
        headLine interpreter sent = .ok (lineOf sent) ∧
        final.file = some (front ++ lineOf sent) ∧ (front = [] ∨ front.getLast? = some 10) := by
  have ahead : Ahead interpreter verifier final := by
    refine run_invariant (Ahead interpreter verifier) ?_ ?_ ran
    · intro served event next _ before stepped
      exact step_ahead before stepped
    · intro resumed loaded earlier member
      cases member
  obtain ⟨data, live, reported⟩ := final
  constructor
  · intro resumed loaded earlier member
    have continues : Continues earlier resumed := by
      cases live with
      | none => exact ahead resumed loaded earlier member
      | some state =>
          rw [← ahead.1.unique interpreter (load_holds.mp loaded).2]
          exact ahead.2 earlier member
    rcases continues with less | rfl
    · exact ⟨less.le, fun same => absurd same (by omega)⟩
    · exact ⟨le_refl _, fun _ => rfl⟩
  · intro state alive positive
    obtain rfl : live = some state := alive
    rcases ahead.1 with ⟨_, rfl⟩ | recorded
    · exact absurd positive (lt_irrefl 0)
    · obtain ⟨sent, front, verified, split, ends⟩ := recorded.last_line
      refine ⟨sent, front, verified, headLine_eq verified, ?_, ends⟩
      cases data with
      | none => exact absurd split.symm (by simp [lineOf])
      | some data => exact congrArg some split

open AnchorProcess in
theorem persisted_anchor_first_commit : ∃ final,
    run (step literalInterpreter digestAuthority.verifier) ⟨none, none, []⟩ (grownRun 1) =
      some final ∧ final.live = some (grown 1) ∧ ∃ sent front,
        verifyHead digestAuthority.verifier (some sent) = .ok (grown 1) ∧
        final.file = some (front ++ lineOf sent) := by
  have small : 1 ≤ maxCount := by decide
  obtain ⟨file, reported, ran, _⟩ := run_grown small
  obtain ⟨_, last⟩ := persisted_anchor_never_rolled_back literalInterpreter
    digestAuthority.verifier none (grownRun 1) _ ran
  have positive : 0 < (grown 1).count := by
    rw [grown_count small]
    exact Nat.one_pos
  obtain ⟨sent, front, verified, _, ends, _⟩ := last (grown 1) rfl positive
  exact ⟨_, ran, rfl, sent, front, verified, ends⟩

end GeniusNew
