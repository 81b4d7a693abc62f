import GeniusNew.Bpf.Classic
import GeniusNew.Contracts.Basic

/-! # The process filter

The seccomp program that the worker's process is put under. The kernel runs it on
every system call, over the call's architecture, number and arguments.
-/

namespace GeniusNew

open Bpf

namespace Isolation

/-- What the filter knows of a machine. -/
structure FilterArch where
  arch : Word
  kill : List Word
  clone : Word
  clone3 : Word
  prctl : Word

def x86_64 : FilterArch where
  arch := 0xC000003E
  kill := [57, 58, 59, 105, 106, 113, 114, 116, 117, 119, 122, 123, 126, 157, 322]
  clone := 56
  clone3 := 435
  prctl := 157

/-- `_FILTER_ARCHES`. -/
def filterArches : List (String × FilterArch) := [("x86_64", x86_64)]

def x32SyscallBit : Word := 0x40000000

def cloneThread : Word := 0x00010000

def enosys : Word := 38

def retKillProcess : Word := 0x80000000

def retErrno : Word := 0x00050000

def retAllow : Word := 0x7FFF0000

/-- The action of `EPERM`. -/
def threadNameAction : Word := retErrno ||| 1

def prSetName : Word := 15

/-- The end of the filter: the calls that clone. -/
def cloneProgram (spec : FilterArch) : List Insn :=
  [⟨0x15, 0, 1, spec.clone3⟩,
    ⟨0x06, 0, 0, retErrno ||| enosys⟩,
    ⟨0x15, 0, 3, spec.clone⟩,
    ⟨0x20, 0, 0, 16⟩,
    ⟨0x45, 1, 0, cloneThread⟩,
    ⟨0x06, 0, 0, retKillProcess⟩,
    ⟨0x06, 0, 0, retAllow⟩]

/-- The instructions of `_process_filter`. -/
def filterProgram (spec : FilterArch) : List Insn :=
  let kill : Insn := ⟨0x06, 0, 0, retKillProcess⟩
  [⟨0x20, 0, 0, 4⟩,
    ⟨0x15, 1, 0, spec.arch⟩,
    kill,
    ⟨0x20, 0, 0, 0⟩,
    ⟨0x35, 0, 1, x32SyscallBit⟩,
    kill,
    ⟨0x15, 0, 3, spec.prctl⟩,
    ⟨0x20, 0, 0, 16⟩,
    ⟨0x15, 0, 1, prSetName⟩,
    ⟨0x06, 0, 0, threadNameAction⟩,
    ⟨0x20, 0, 0, 0⟩] ++
  (spec.kill.flatMap fun number => [⟨0x15, 0, 1, number⟩, kill]) ++ cloneProgram spec

/-- `_process_filter`. -/
def processFilter (machine : String) : Outcome Bytes :=
  match filterArches.lookup machine with
  | none => fail "no seccomp process filter for this architecture"
  | some spec => .ok ((filterProgram spec).flatMap Insn.toBytes)

/-- `struct seccomp_data`. -/
structure SeccompData where
  nr : Word
  arch : Word
  instructionPointer : BitVec 64
  args : Fin 6 → BitVec 64

namespace SeccompData

def low (value : BitVec 64) : Word := value.extractLsb' 0 32

def high (value : BitVec 64) : Word := value.extractLsb' 32 32

/-- The words of a little-endian machine. -/
def words (data : SeccompData) : List Word :=
  [data.nr, data.arch, low data.instructionPointer, high data.instructionPointer] ++
    (List.finRange 6).flatMap fun index => [low (data.args index), high (data.args index)]

/-- The word at a byte offset: the kernel takes aligned offsets inside the data. -/
def load (data : SeccompData) (offset : Nat) : Option Word :=
  if offset % 4 = 0 then data.words[offset / 4]? else none

theorem load_nr (data : SeccompData) : data.load 0 = some data.nr := rfl

theorem load_arch (data : SeccompData) : data.load 4 = some data.arch := rfl

theorem load_first (data : SeccompData) : data.load 16 = some (low (data.args 0)) := rfl

end SeccompData

section Verdict

variable {spec : FilterArch} (data : SeccompData)

/-- The end of the filter, from the number of the call. -/
theorem exec_cloneProgram : exec data.load (cloneProgram spec) 0 data.nr =
    .returned (if data.nr = spec.clone3 then retErrno ||| enosys
      else if data.nr = spec.clone ∧ SeccompData.low (data.args 0) &&& cloneThread = 0 then
        retKillProcess
      else retAllow) := by
  rw [cloneProgram, exec_jumpEq]
  by_cases third : data.nr = spec.clone3
  · rw [if_pos third, if_pos third]
    rfl
  rw [if_neg third, if_neg third]
  change exec data.load (⟨0x15, 0, 3, spec.clone⟩ :: _) 0 data.nr = _
  rw [exec_jumpEq]
  by_cases cloning : data.nr = spec.clone
  · rw [if_pos cloning]
    change exec data.load (⟨0x20, 0, 0, 16⟩ :: _) 0 data.nr = _
    rw [exec_load data.load _ 0 0 16 _ data.load_first, exec_jumpSet]
    by_cases threads : SeccompData.low (data.args 0) &&& cloneThread = 0
    · rw [if_neg (not_not.mpr threads), if_pos ⟨cloning, threads⟩]
      rfl
    · rw [if_pos threads, if_neg fun both => threads both.2]
      rfl
  · rw [if_neg cloning, if_neg fun both => cloning both.1]
    rfl

/-- What the filter returns for a call. -/
theorem run_filterProgram : run data.load (filterProgram spec) =
    .returned (if data.arch ≠ spec.arch ∨ x32SyscallBit ≤ data.nr then retKillProcess
      else if data.nr = spec.prctl ∧ SeccompData.low (data.args 0) = prSetName then
        threadNameAction
      else if data.nr ∈ spec.kill then retKillProcess
      else if data.nr = spec.clone3 then retErrno ||| enosys
      else if data.nr = spec.clone ∧ SeccompData.low (data.args 0) &&& cloneThread = 0 then
        retKillProcess
      else retAllow) := by
  have listed (accumulator : Word) := exec_anyOf data.load (cloneProgram spec)
    accumulator retKillProcess spec.kill
  -- what runs once the accumulator holds the number again
  have rest : exec data.load ((spec.kill.flatMap fun number =>
      [⟨0x15, 0, 1, number⟩, ⟨0x06, 0, 0, retKillProcess⟩]) ++ cloneProgram spec) 0 data.nr =
      .returned (if data.nr ∈ spec.kill then retKillProcess
        else if data.nr = spec.clone3 then retErrno ||| enosys
        else if data.nr = spec.clone ∧ SeccompData.low (data.args 0) &&& cloneThread = 0 then
          retKillProcess
        else retAllow) := by
    rw [listed, exec_cloneProgram]
    split_ifs <;> rfl
  change exec data.load (⟨0x20, 0, 0, 4⟩ :: _) 0 0 = _
  rw [exec_load data.load _ 0 0 4 _ data.load_arch]
  change exec data.load (⟨0x15, 1, 0, spec.arch⟩ :: _) 0 data.arch = _
  rw [exec_jumpEq]
  by_cases known : data.arch = spec.arch
  swap
  · rw [if_neg known, if_pos (.inl known)]
    rfl
  rw [if_pos known]
  change exec data.load (⟨0x20, 0, 0, 0⟩ :: _) 0 data.arch = _
  rw [exec_load data.load _ 0 0 0 _ data.load_nr]
  change exec data.load (⟨0x35, 0, 1, x32SyscallBit⟩ :: _) 0 data.nr = _
  rw [exec_jumpGe]
  by_cases wide : x32SyscallBit ≤ data.nr
  · rw [if_pos wide, if_pos (.inr wide)]
    rfl
  rw [if_neg wide, if_neg (not_or.mpr ⟨not_not.mpr known, wide⟩)]
  change exec data.load (⟨0x15, 0, 3, spec.prctl⟩ :: _) 0 data.nr = _
  rw [exec_jumpEq]
  by_cases naming : data.nr = spec.prctl
  · rw [if_pos naming]
    change exec data.load (⟨0x20, 0, 0, 16⟩ :: _) 0 data.nr = _
    rw [exec_load data.load _ 0 0 16 _ data.load_first]
    change exec data.load (⟨0x15, 0, 1, prSetName⟩ :: _) 0 (SeccompData.low (data.args 0)) = _
    rw [exec_jumpEq]
    by_cases named : SeccompData.low (data.args 0) = prSetName
    · rw [if_pos named, if_pos ⟨naming, named⟩]
      rfl
    · rw [if_neg named, if_neg fun both => named both.2]
      change exec data.load (⟨0x20, 0, 0, 0⟩ :: _) 0 (SeccompData.low (data.args 0)) = _
      rw [exec_load data.load _ 0 0 0 _ data.load_nr]
      exact rest
  · rw [if_neg naming, if_neg fun both => naming both.1]
    change exec data.load (⟨0x20, 0, 0, 0⟩ :: _) 0 data.nr = _
    rw [exec_load data.load _ 0 0 0 _ data.load_nr]
    exact rest

/-- The filter of an x86_64 machine, for every call: a foreign architecture, an x32
number, a listed number other than a `prctl` that sets the name and a `clone` of a
process kill the process; that `prctl` is refused with `EPERM` and `clone3` with
`ENOSYS`; everything else is allowed. -/
theorem process_filter_verdict (data : SeccompData) : ∃ bytes program,
    processFilter "x86_64" = .ok bytes ∧ decode bytes = some program ∧
    jumpsInside program = true ∧
    ∃ value, run data.load program = .returned value ∧
      (data.arch ≠ 0xC000003E → value = retKillProcess) ∧
      (0x40000000 ≤ data.nr → value = retKillProcess) ∧
      (data.arch = 0xC000003E → data.nr < 0x40000000 →
        (data.nr ∈ x86_64.kill → (data.nr = 157 → SeccompData.low (data.args 0) ≠ 15) →
          value = retKillProcess) ∧
        (data.nr = 56 → SeccompData.low (data.args 0) &&& cloneThread = 0 →
          value = retKillProcess) ∧
        (data.nr = 157 → SeccompData.low (data.args 0) = 15 → value = retErrno ||| 1) ∧
        (data.nr = 435 → value = retErrno ||| 38) ∧
        (data.nr ∉ x86_64.kill → data.nr ≠ 435 →
          (data.nr = 56 → SeccompData.low (data.args 0) &&& cloneThread ≠ 0) →
            value = retAllow)) := by
  refine ⟨_, filterProgram x86_64, rfl, decode_toBytes _, by decide, _, run_filterProgram data, ?_⟩
  refine ⟨fun foreign => if_pos (.inl foreign), fun wide => if_pos (.inr wide), fun known narrow => ?_⟩
  have ours : ¬(data.arch ≠ x86_64.arch ∨ x32SyscallBit ≤ data.nr) :=
    not_or.mpr ⟨not_not.mpr known, BitVec.not_le.mpr narrow⟩
  rw [if_neg ours]
  have apart : (56 : Word) ∉ x86_64.kill ∧ (435 : Word) ∉ x86_64.kill ∧
      (157 : Word) ∈ x86_64.kill := by decide
  refine ⟨fun listed other => ?_, fun clones forks => ?_, fun names name => ?_, fun third => ?_,
    fun free other threads => ?_⟩
  · rw [if_neg fun both => other both.1 both.2, if_pos listed]
  · rw [if_neg fun both => absurd (clones.symm.trans both.1) (by decide),
      if_neg (clones ▸ apart.1), if_neg fun both => absurd (clones.symm.trans both) (by decide),
      if_pos ⟨clones, forks⟩]
  · rw [if_pos ⟨names, name⟩]
    rfl
  · rw [if_neg fun both => absurd (third.symm.trans both.1) (by decide),
      if_neg (third ▸ apart.2.1)]
    exact if_pos third
  · have unnamed : ¬(data.nr = x86_64.prctl ∧ SeccompData.low (data.args 0) = prSetName) :=
      fun both => free (both.1 ▸ apart.2.2)
    have joined : ¬(data.nr = x86_64.clone ∧
        SeccompData.low (data.args 0) &&& cloneThread = 0) := fun both => threads both.1 both.2
    have kept : data.nr ≠ x86_64.clone3 := other
    rw [if_neg unnamed, if_neg free, if_neg kept, if_neg joined]

end Verdict

end Isolation

end GeniusNew
