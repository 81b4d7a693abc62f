import GeniusNew.WorkerService.Transport
import GeniusNew.Workers.Patterns

/-! # The sender of a connection

One `FrameIdentity` is given the fragments of a connection in turn. What it asks about
descriptors is answered by the kernel's description of a pidfd and by a poll
(`WorkerService.View`). It is bound at most once, to a live process that a fragment names in
its credentials and by its pidfd, and every descriptor that comes with a fragment is closed by
the call that is given it, but the pidfd it is bound by.
-/

namespace GeniusNew

open Json

namespace WorkerService

/-- What the kernel says of the receiver's descriptors while a fragment is handled: the text
under `/proc/self/fdinfo`, which is ASCII, and the event masks of a poll. Either is absent
where the descriptor cannot be asked. -/
structure View where
  fdinfo : Int → Option Str
  poll : Int → Option (List Nat)

/-- `str.splitlines` of an ASCII text, with the line that is open. -/
def splitLines (line : Str) : Str → List Str
  | [] => if line = [] then [] else [line]
  | c :: rest =>
      if (10 ≤ c.val && c.val ≤ 13) || (28 ≤ c.val && c.val ≤ 30) then line :: splitLines [] rest
      else splitLines (line ++ [c]) rest

/-- The values of the lines `Pid:`. -/
def pidFields (text : Str) : List Str :=
  ((splitLines [] text).filter fun line => (str "Pid:").isPrefixOf line).map fun line =>
    Workers.strip (line.drop 4)

/-- `_pidfd_pid`. -/
def pidfdPid (view : View) (fd : Int) : Except String Int :=
  match view.fdinfo fd with
  | none => .error "worker pidfd cannot be inspected"
  | some text =>
      match pidFields text with
      | [pid] =>
          if pid ≠ [] ∧ pid.all isDigit then .ok (digitsValue pid)
          else .error "worker pidfd has no unambiguous PID"
      | _ => .error "worker pidfd has no unambiguous PID"

def pollIn : Nat := 1

def pollErr : Nat := 8

def pollHup : Nat := 16

def pollNval : Nat := 32

/-- `_pidfd_exited`. -/
def pidfdExited (view : View) (fd : Int) : Except String Bool :=
  match view.poll fd with
  | none => .error "worker pidfd state is unreadable"
  | some masks =>
      if masks.any fun mask => mask &&& (pollErr ||| pollNval) ≠ 0 then
        .error "worker pidfd state is unreadable"
      else if masks.any fun mask => mask &&& pollHup ≠ 0 && mask &&& pollIn = 0 then
        .error "worker pidfd exit state is ambiguous"
      else .ok (masks.any fun mask => mask &&& pollIn ≠ 0)

/-- What `recvmsg` returned, and the kernel's view while it is accepted. -/
structure Fragment where
  data : Bytes
  controls : List Control
  flags : Nat
  view : View

namespace Fragment

variable (fragment : Fragment)

/-- The one credential record. -/
def peer : Option (Int × Int × Int) :=
  (FrameIdentity.single (FrameIdentity.credentials fragment.controls)).bind FrameIdentity.ucreds

/-- The one pidfd. -/
def pidfd : Option Int :=
  (FrameIdentity.single (FrameIdentity.pidfds fragment.controls)).bind FrameIdentity.descriptor

/-- The descriptors that came with the fragment. -/
def received : List Int := FrameIdentity.ownedFds fragment.controls

end Fragment

namespace FrameIdentity

/-- `FrameIdentity(expected_uid, expected_gid)`. -/
def fresh (uid gid : Int) : FrameIdentity := ⟨uid, gid, none, none⟩

/-- The answers `accept` can ask for: a received pidfd's process, and whether the process of
the retained pidfd has exited, or of the received one while none is retained. -/
def probe (identity : FrameIdentity) (fragment : Fragment) : Probe where
  pid := pidfdPid fragment.view (fragment.pidfd.getD (-1))
  exited := pidfdExited fragment.view (identity.pidfd.getD (fragment.pidfd.getD (-1)))

end FrameIdentity

/-- One call of `accept`: what it was given, whether it raised, what it closed. -/
structure Acceptance where
  fragment : Fragment
  before : FrameIdentity
  after : FrameIdentity
  accepted : Bool
  closed : List Int

/-- A refusal leaves the identity as it was. -/
def call (identity : FrameIdentity) (fragment : Fragment) : Acceptance :=
  match identity.accept fragment.controls fragment.data fragment.flags
      (identity.probe fragment) with
  | (.ok after, closed) => ⟨fragment, identity, after, true, closed⟩
  | (.error _, closed) => ⟨fragment, identity, identity, false, closed⟩

/-- The calls for a sequence of fragments. -/
def calls (identity : FrameIdentity) : List Fragment → List Acceptance
  | [] => []
  | fragment :: rest => call identity fragment :: calls (call identity fragment).after rest

section Step

variable {identity after : FrameIdentity} {fragment : Fragment} {probe : Probe}

theorem answer_eq_ok {α : Type} {answered : Except String α} {value : α} :
    Probe.answer answered = .ok value ↔ answered = .ok value := by
  cases answered with
  | error message => exact iff_of_false fail_ne_ok (fun absurd => nomatch absurd)
  | ok found => exact ⟨fun same => congrArg _ (Except.ok.inj same), fun same =>
      congrArg _ (Except.ok.inj same)⟩

/-- The end of the stream is accepted by a bound identity only, with no descriptor. -/
structure Ends (identity : FrameIdentity) (fragment : Fragment) (after : FrameIdentity) : Prop where
  empty : fragment.data = []
  bound : identity.pid ≠ none
  expected : FrameIdentity.unexpected fragment.controls = false
  alone : FrameIdentity.pidfds fragment.controls = []
  same : after = identity

/-- A fragment of the expected user is accepted; it binds an identity without a pidfd to the
live process it names, and leaves another one as it is. -/
structure Carries (identity : FrameIdentity) (fragment : Fragment) (probe : Probe)
    (after : FrameIdentity) (pid fd : Int) : Prop where
  nonempty : fragment.data ≠ []
  expected : FrameIdentity.unexpected fragment.controls = false
  peer : fragment.peer = some (pid, identity.expectedUid, identity.expectedGid)
  positive : 0 < pid
  known : identity.pid = none ∨ identity.pid = some pid
  pidfd : fragment.pidfd = some fd
  binds : (identity.pidfd = none ∧ 0 ≤ fd ∧ probe.pid = .ok pid ∧ probe.exited = .ok false ∧
      after = { identity with pid := some pid, pidfd := some fd }) ∨
    (identity.pidfd ≠ none ∧ after = identity)

/-- All that `accept` asks before it accepts. -/
theorem authenticate_cases (accepted : identity.authenticate fragment.controls fragment.data
      fragment.flags probe = .ok after) :
    Ends identity fragment after ∨ ∃ pid fd, Carries identity fragment probe after pid fd := by
  unfold FrameIdentity.authenticate at accepted
  by_cases empty : fragment.data = []
  · rw [if_pos empty] at accepted
    obtain ⟨checked, same⟩ := guarded_eq_ok.mp accepted
    simp only [not_or, not_not, Bool.not_eq_true] at checked
    obtain ⟨bound, _, expected, alone, _⟩ := checked
    exact .inl ⟨empty, bound, expected, alone, (Except.ok.inj same).symm⟩
  · rw [if_neg empty] at accepted
    rw [guarded_eq_ok] at accepted
    obtain ⟨clean, accepted⟩ := accepted
    rw [not_or, Bool.not_eq_true] at clean
    split at accepted
    · exact (fail_ne_ok accepted).elim
    next pid uid gid peer =>
    rw [guarded_eq_ok] at accepted
    obtain ⟨matched, accepted⟩ := accepted
    simp only [not_or, not_le, not_not, Bool.not_eq_true] at matched
    obtain ⟨positive, rfl, rfl, known⟩ := matched
    have same : identity.pid = none ∨ identity.pid = some pid := by
      cases held : identity.pid with
      | none => exact .inl rfl
      | some other =>
          rw [held, Option.any_some, decide_eq_false_iff_not, not_not] at known
          exact .inr (congrArg some known)
    right
    split at accepted
    · exact (fail_ne_ok accepted).elim
    · next fd pidfd unbound =>
      simp only [guarded_eq_ok, bind_eq_ok, pure_eq_ok, not_not, Bool.not_eq_true] at accepted
      obtain ⟨live, _, asked, rfl, _, polled, rfl, rfl⟩ := accepted
      exact ⟨_, fd, empty, clean.2, peer, positive, same, pidfd, .inl ⟨unbound, not_lt.mp live,
        answer_eq_ok.mp asked, answer_eq_ok.mp polled, rfl⟩⟩
    · next fd held pidfd bound =>
      refine ⟨pid, fd, empty, clean.2, peer, positive, same, pidfd, .inr ⟨by rw [bound]; simp, ?_⟩⟩
      obtain ⟨_, accepted⟩ := guarded_eq_ok.mp accepted
      split at accepted
      · obtain ⟨exited, _, accepted⟩ := bind_eq_ok.mp accepted
        obtain ⟨_, accepted⟩ := guard_eq_ok.mp accepted
        exact (pure_eq_ok.mp accepted).symm
      · obtain ⟨named, _, accepted⟩ := bind_eq_ok.mp accepted
        obtain ⟨_, accepted⟩ := guarded_eq_ok.mp accepted
        exact (pure_eq_ok.mp accepted).symm

theorem eq_singleton_of_single {α : Type} {values : List α} {value : α}
    (one : FrameIdentity.single values = some value) : values = [value] := by
  match values with
  | [] => cases one
  | [_] => rw [Option.some.inj one]
  | _ :: _ :: _ => cases one

/-- A received pidfd is among the descriptors that came with the fragment. -/
theorem mem_received {fd : Int} (carried : fragment.pidfd = some fd) (live : 0 ≤ fd) :
    fd ∈ fragment.received := by
  obtain ⟨value, alone, unpacked⟩ := Option.bind_eq_some_iff.mp carried
  have sole := eq_singleton_of_single alone
  have known : value ∈ FrameIdentity.pidfds fragment.controls := by
    rw [sole]
    exact List.mem_singleton_self _
  obtain ⟨control, kept, rfl⟩ := List.mem_map.mp known
  obtain ⟨inside, kind⟩ := List.mem_filter.mp kept
  apply List.mem_flatMap.mpr
  refine ⟨control, inside, ?_⟩
  unfold FrameIdentity.descriptor at unpacked
  split at unpacked
  · next four numbers =>
    cases unpacked
    have installs : (control.isRights || (control.isPidfd && control.value.length = 4)) = true := by
      rw [kind, four]
      simp
    rw [Control.descriptors, if_pos installs, numbers]
    exact List.mem_filter.mpr ⟨List.mem_singleton_self _, decide_eq_true live⟩
  · cases unpacked

theorem received_of_expected (expected : FrameIdentity.unexpected fragment.controls = false)
    (alone : FrameIdentity.pidfds fragment.controls = []) : fragment.received = [] := by
  rw [FrameIdentity.unexpected, List.any_eq_false] at expected
  apply List.flatMap_eq_nil_iff.mpr
  intro control member
  have kind := expected control member
  have other : control.isPidfd = false := by
    by_contra pidfd
    have listed : control.value ∈ FrameIdentity.pidfds fragment.controls :=
      List.mem_map_of_mem (List.mem_filter.mpr ⟨member, Bool.eq_true_of_not_eq_false pidfd⟩)
    rw [alone] at listed
    cases listed
  have credentials : control.isCredentials = true := by
    simpa [other] using kind
  have rights : control.isRights = false := by
    simp only [Control.isCredentials, Bool.and_eq_true, decide_eq_true_eq] at credentials
    simp [Control.isRights, credentials.2]
  rw [Control.descriptors, rights, other]
  rfl

end Step

section Acceptance

variable {identity : FrameIdentity} {fragment : Fragment} {uid gid : Int}

namespace Acceptance

/-- The pidfd that a call retained. -/
def retained (call : Acceptance) : Option Int :=
  if call.before.pidfd = none then call.after.pidfd else none

/-- The call binds the identity: the one credential record of its fragment is of the expected
user, and its one pidfd is that of the live process in it. -/
structure Binds (call : Acceptance) : Prop where
  unbound : call.before.pid = none ∧ call.before.pidfd = none
  accepted : call.accepted = true
  named : ∃ record value pid fd,
    FrameIdentity.credentials call.fragment.controls = [record] ∧
    FrameIdentity.ucreds record = some (pid, call.before.expectedUid, call.before.expectedGid) ∧
    FrameIdentity.pidfds call.fragment.controls = [value] ∧
    FrameIdentity.descriptor value = some fd ∧ fd ∈ call.fragment.received ∧
    pidfdPid call.fragment.view fd = .ok pid ∧ pidfdExited call.fragment.view fd = .ok false ∧
    call.after = { call.before with pid := some pid, pidfd := some fd }

/-- Every descriptor that came with the fragment is closed once, but the retained one. -/
def Closes (call : Acceptance) : Prop :=
  ∀ fd, call.closed.count fd =
    if fd ∈ call.fragment.received ∧ call.retained ≠ some fd then 1 else 0

/-- What an accepted call says of its fragment. -/
structure Admits (call : Acceptance) : Prop where
  carried : call.accepted = true → call.fragment.data ≠ [] → ∃ pid, call.after.pid = some pid ∧
    call.fragment.peer = some (pid, call.before.expectedUid, call.before.expectedGid)
  ended : call.accepted = true → call.fragment.data = [] →
    call.before.pid ≠ none ∧ call.fragment.received = [] ∧ call.after = call.before

end Acceptance

/-- The process and its pidfd are known together. -/
structure FrameIdentity.Paired (uid gid : Int) (identity : FrameIdentity) : Prop where
  expectedUid : identity.expectedUid = uid
  expectedGid : identity.expectedGid = gid
  paired : identity.pid = none ↔ identity.pidfd = none

theorem paired_fresh (uid gid : Int) : (FrameIdentity.fresh uid gid).Paired uid gid :=
  ⟨rfl, rfl, iff_of_true rfl rfl⟩

theorem accept_fst (identity : FrameIdentity) (controls : List Control) (data : Bytes)
    (flags : Nat) (probe : Probe) : (identity.accept controls data flags probe).1 =
      identity.authenticate controls data flags probe := by
  unfold FrameIdentity.accept
  split
  · next accepted _ => exact accepted.symm
  · rfl

theorem call_accepted {after : FrameIdentity}
    (accepted : identity.authenticate fragment.controls fragment.data fragment.flags
      (identity.probe fragment) = .ok after) :
    (call identity fragment).after = after ∧ (call identity fragment).accepted = true := by
  have outcome := accept_fst identity fragment.controls fragment.data fragment.flags
    (identity.probe fragment)
  unfold call
  split
  · next found closed same =>
    rw [same, accepted] at outcome
    exact ⟨Except.ok.inj outcome, rfl⟩
  · next raised closed same =>
    rw [same, accepted] at outcome
    cases outcome

theorem call_refused {raised : Raised}
    (refused : identity.authenticate fragment.controls fragment.data fragment.flags
      (identity.probe fragment) = .error raised) :
    (call identity fragment).after = identity ∧ (call identity fragment).accepted = false := by
  have outcome := accept_fst identity fragment.controls fragment.data fragment.flags
    (identity.probe fragment)
  unfold call
  split
  · next found closed same =>
    rw [same, refused] at outcome
    cases outcome
  · exact ⟨rfl, rfl⟩

@[simp] theorem call_before : (call identity fragment).before = identity := by
  unfold call
  split <;> rfl

@[simp] theorem call_fragment : (call identity fragment).fragment = fragment := by
  unfold call
  split <;> rfl

/-- What a call closes is what came, less what it retained. -/
theorem call_closed : (call identity fragment).closed =
    match (call identity fragment).retained with
    | some fd => fragment.received.erase fd
    | none => fragment.received := by
  cases outcome : identity.authenticate fragment.controls fragment.data fragment.flags
      (identity.probe fragment) with
  | error raised =>
      have kept := (call_refused outcome).1
      have nothing : (call identity fragment).retained = none := by
        rw [Acceptance.retained, call_before, kept]
        split_ifs with unbound
        · exact unbound
        · rfl
      rw [nothing]
      unfold call FrameIdentity.accept
      rw [outcome]
      rfl
  | ok after =>
      have kept := (call_accepted outcome).1
      rw [Acceptance.retained, call_before, kept]
      unfold call FrameIdentity.accept
      rw [outcome]
      obtain ⟨expectedUid, expectedGid, pid, pidfd⟩ := after
      cases identity.pidfd with
      | some held => cases pidfd <;> rfl
      | none => cases pidfd <;> rfl

theorem call_closes (distinct : fragment.received.Nodup) : (call identity fragment).Closes := by
  intro fd
  rw [call_closed, call_fragment]
  cases (call identity fragment).retained with
  | none =>
      rw [distinct.count]
      simp
  | some held =>
      rw [List.count_erase, distinct.count]
      by_cases same : fd = held
      · subst same
        simp only [beq_self_eq_true, if_true, ne_eq, not_true_eq_false, and_false, if_false]
        split_ifs <;> rfl
      · have apart : (held == fd) = false := beq_eq_false_iff_ne.mpr fun other => same other.symm
        simp [apart, Ne.symm same]

/-- What one call does: it leaves the identity as it is, or binds it. -/
theorem call_step (fragment : Fragment) (paired : identity.Paired uid gid) :
    (call identity fragment).after.Paired uid gid ∧
      ((call identity fragment).after = identity ∨ (call identity fragment).Binds) ∧
      (call identity fragment).Admits := by
  cases outcome : identity.authenticate fragment.controls fragment.data fragment.flags
      (identity.probe fragment) with
  | error raised =>
      obtain ⟨kept, refused⟩ := call_refused outcome
      have never : ¬ (call identity fragment).accepted = true := by
        rw [refused]
        exact Bool.false_ne_true
      rw [kept]
      exact ⟨paired, .inl rfl, ⟨fun accepted => (never accepted).elim,
        fun accepted => (never accepted).elim⟩⟩
  | ok after =>
      obtain ⟨kept, accepted⟩ := call_accepted outcome
      rcases authenticate_cases outcome with ends | ⟨pid, fd, carries⟩
      · obtain ⟨empty, bound, expected, alone, rfl⟩ := ends
        rw [kept]
        refine ⟨paired, .inl rfl, ?_, ?_⟩
        · intro _ nonempty
          rw [call_fragment] at nonempty
          exact (nonempty empty).elim
        · intro _ _
          rw [call_before, call_fragment, kept]
          exact ⟨bound, received_of_expected expected alone, rfl⟩
      · rcases carries.binds with ⟨unbound, live, named, alive, rfl⟩ | ⟨held, rfl⟩
        · have unnamed := paired.paired.mpr unbound
          rw [kept]
          refine ⟨⟨paired.expectedUid, paired.expectedGid, ?_⟩, .inr ?_, ?_, ?_⟩
          · exact iff_of_false (Option.some_ne_none _) (Option.some_ne_none _)
          · obtain ⟨record, one, unpacked⟩ := Option.bind_eq_some_iff.mp carries.peer
            obtain ⟨value, sole, described⟩ := Option.bind_eq_some_iff.mp carries.pidfd
            rw [FrameIdentity.probe, carries.pidfd, Option.getD_some] at named
            rw [FrameIdentity.probe, unbound, Option.getD_none, carries.pidfd,
              Option.getD_some] at alive
            refine ⟨?_, accepted, record, value, pid, fd, ?_⟩
            · rw [call_before]
              exact ⟨unnamed, unbound⟩
            · rw [call_fragment, call_before, kept]
              exact ⟨eq_singleton_of_single one, unpacked, eq_singleton_of_single sole, described,
                mem_received carries.pidfd live, named, alive, rfl⟩
          · intro _ _
            rw [call_before, call_fragment, kept]
            exact ⟨pid, rfl, carries.peer⟩
          · intro _ empty
            rw [call_fragment] at empty
            exact (carries.nonempty empty).elim
        · have known : after.pid = some pid := carries.known.resolve_left fun unnamed =>
            held (paired.paired.mp unnamed)
          rw [kept]
          refine ⟨paired, .inl rfl, ?_, ?_⟩
          · intro _ _
            rw [call_before, call_fragment, kept]
            exact ⟨pid, known, carries.peer⟩
          · intro _ empty
            rw [call_fragment] at empty
            exact (carries.nonempty empty).elim

end Acceptance

section Run

variable {identity : FrameIdentity} {uid gid : Int} {fragments : List Fragment}

/-- What holds of every call of a connection. -/
structure Acceptance.Sound (uid gid : Int) (call : Acceptance) : Prop where
  before : call.before.Paired uid gid
  after : call.after.Paired uid gid
  moves : call.after = call.before ∨ call.Binds
  admits : call.Admits
  closes : call.Closes

theorem sound_calls (paired : identity.Paired uid gid)
    (distinct : ∀ fragment ∈ fragments, fragment.received.Nodup) :
    ∀ call ∈ calls identity fragments, call.Sound uid gid := by
  induction fragments generalizing identity with
  | nil =>
      intro call member
      cases member
  | cons fragment fragments ih =>
      intro other member
      obtain ⟨next, moves, admits⟩ := call_step fragment paired
      rcases List.mem_cons.mp member with rfl | later
      · constructor
        · rwa [call_before]
        · exact next
        · rwa [call_before]
        · exact admits
        · exact call_closes (distinct fragment List.mem_cons_self)
      · apply ih next _ other later
        intro one inside
        exact distinct one (List.mem_cons_of_mem _ inside)

/-- A bound identity stays as it is. -/
theorem calls_of_bound (paired : identity.Paired uid gid) (bound : identity.pid ≠ none) :
    ∀ call ∈ calls identity fragments, call.before = identity ∧ call.after = identity := by
  induction fragments generalizing identity with
  | nil =>
      intro call member
      cases member
  | cons fragment fragments ih =>
      intro other member
      obtain ⟨_, moves, _⟩ := call_step fragment paired
      have kept : (call identity fragment).after = identity := by
        rcases moves with kept | binds
        · exact kept
        · have unnamed := binds.unbound.1
          rw [call_before] at unnamed
          exact (bound unnamed).elim
      rcases List.mem_cons.mp member with rfl | later
      · exact ⟨call_before, kept⟩
      · rw [calls, kept] at member
        rw [kept] at later
        exact ih paired bound other later

theorem calls_pairwise (paired : identity.Paired uid gid) :
    (calls identity fragments).Pairwise fun first second => first.after.pid ≠ none →
      second.before = first.after ∧ second.after = first.after := by
  induction fragments generalizing identity with
  | nil => exact List.Pairwise.nil
  | cons fragment fragments ih =>
      obtain ⟨next, _, _⟩ := call_step fragment paired
      apply List.Pairwise.cons
      · intro second later bound
        exact calls_of_bound next bound second later
      · exact ih next

end Run

/-- The identity of a connection's sender. For every sequence of fragments the process and its
pidfd are known together, are bound at most once, by a fragment whose one credential record is
of the expected user and whose one pidfd is that of the live process in it, and never change
afterwards; every fragment accepted with data carries the process and the expected user; the
end of the stream is accepted only from a bound sender and without descriptors; and every
descriptor that a call received is closed once by that call, except the pidfd it retained. -/
theorem sender_identity (uid gid : Int) (fragments : List Fragment)
    (distinct : ∀ fragment ∈ fragments, fragment.received.Nodup) :
    (∀ call ∈ calls (.fresh uid gid) fragments,
      (call.after.expectedUid = uid ∧ call.after.expectedGid = gid) ∧
      (call.after.pid = none ↔ call.after.pidfd = none) ∧
      (call.after = call.before ∨ call.Binds) ∧
      (call.accepted = true → call.fragment.data ≠ [] →
        ∃ pid, call.after.pid = some pid ∧ call.fragment.peer = some (pid, uid, gid)) ∧
      (call.accepted = true → call.fragment.data = [] →
        call.before.pid ≠ none ∧ call.fragment.received = [] ∧ call.after = call.before) ∧
      ∀ fd, call.closed.count fd =
        if fd ∈ call.fragment.received ∧ call.retained ≠ some fd then 1 else 0) ∧
    (calls (.fresh uid gid) fragments).Pairwise fun first second =>
      (first.after.pid ≠ none → second.before = first.after ∧ second.after = first.after) ∧
      (first.Binds → ¬second.Binds) := by
  have paired := paired_fresh uid gid
  constructor
  · intro call member
    have sound := sound_calls paired distinct call member
    refine ⟨⟨sound.after.expectedUid, sound.after.expectedGid⟩, sound.after.paired, sound.moves, ?_,
      sound.admits.ended, sound.closes⟩
    intro accepted nonempty
    have carried := sound.admits.carried accepted nonempty
    rwa [sound.before.expectedUid, sound.before.expectedGid] at carried
  · apply (calls_pairwise paired).imp
    intro first second keeps
    refine ⟨keeps, ?_⟩
    intro binds again
    obtain ⟨_, _, pid, fd, _, _, _, _, _, _, _, after⟩ := binds.named
    have bound : first.after.pid ≠ none := by
      rw [after]
      exact Option.some_ne_none _
    have before := (keeps bound).1
    rw [← before] at bound
    exact bound again.unbound.1

/-- A fragment of process 7 under user 1000 with its pidfd, and one that passes two
descriptors beside it. -/
def demoFragments : List Fragment :=
  let credentials : Control := ⟨1, 2, [7, 0, 0, 0, 232, 3, 0, 0, 232, 3, 0, 0]⟩
  let view : View := ⟨fun _ => some (str "pos:\t0\nPid:\t7\nNSpid:\t7\n"), fun _ => some []⟩
  [⟨[1], [credentials, ⟨1, 4, [5, 0, 0, 0]⟩], 0, view⟩,
    ⟨[1], [credentials, ⟨1, 4, [6, 0, 0, 0]⟩, ⟨1, 1, [8, 0, 0, 0, 9, 0, 0, 0]⟩], 0, view⟩]

theorem sender_identity_demo :
    ((calls (.fresh 1000 1000) demoFragments).map fun call => (call.accepted, call.closed)) =
      [(true, []), (false, [6, 8, 9])] ∧
    ∀ call ∈ calls (.fresh 1000 1000) demoFragments,
      call.after.pid = none ↔ call.after.pidfd = none := by
  constructor
  · decide
  · intro call member
    have distinct : ∀ fragment ∈ demoFragments, fragment.received.Nodup := by decide
    exact ((sender_identity 1000 1000 demoFragments distinct).1 call member).2.1

end WorkerService

end GeniusNew
