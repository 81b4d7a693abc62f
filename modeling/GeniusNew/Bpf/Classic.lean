import Mathlib.Data.List.Basic

/-! # Classic BPF

The instructions of a classic BPF filter that load a word, compare it and return,
with their encoding in eight bytes. A filter runs over words at byte offsets; its
jumps go forward only, so a run ends with its program.
-/

namespace Bpf

abbrev Word := BitVec 32

/-- `struct sock_filter`. -/
structure Insn where
  code : BitVec 16
  jt : BitVec 8
  jf : BitVec 8
  k : Word
  deriving DecidableEq

namespace Insn

def byte {w : Nat} (value : BitVec w) (index : Nat) : UInt8 :=
  UInt8.ofBitVec (value.extractLsb' (8 * index) 8)

/-- The little-endian layout of an instruction. -/
def toBytes (insn : Insn) : List UInt8 :=
  [byte insn.code 0, byte insn.code 1, byte insn.jt 0, byte insn.jf 0,
    byte insn.k 0, byte insn.k 1, byte insn.k 2, byte insn.k 3]

end Insn

/-- The whole instructions of a program. -/
def decode : List UInt8 → Option (List Insn)
  | [] => some []
  | c₀ :: c₁ :: jt :: jf :: k₀ :: k₁ :: k₂ :: k₃ :: rest => do
      let program ← decode rest
      return ⟨c₁.toBitVec ++ c₀.toBitVec, jt.toBitVec, jf.toBitVec,
        k₃.toBitVec ++ k₂.toBitVec ++ k₁.toBitVec ++ k₀.toBitVec⟩ :: program
  | _ => none

section Encoding

theorem half_bytes (value : BitVec 16) :
    (Insn.byte value 1).toBitVec ++ (Insn.byte value 0).toBitVec = value := by
  ext i inside
  simp only [Insn.byte, UInt8.toBitVec_ofBitVec, BitVec.getElem_append, BitVec.getElem_extractLsb']
  split <;> simp <;> grind

theorem single_byte (value : BitVec 8) : (Insn.byte value 0).toBitVec = value := by
  ext i inside
  simp [Insn.byte]

theorem word_bytes (value : Word) :
    (Insn.byte value 3).toBitVec ++ (Insn.byte value 2).toBitVec ++ (Insn.byte value 1).toBitVec ++
      (Insn.byte value 0).toBitVec = value := by
  ext i inside
  simp only [Insn.byte, UInt8.toBitVec_ofBitVec, BitVec.getElem_append, BitVec.getElem_extractLsb']
  split
  · simp
    grind
  · split
    · simp
      grind
    · split <;> simp <;> grind

/-- A program is read back from its bytes. -/
theorem decode_toBytes (program : List Insn) :
    decode (program.flatMap Insn.toBytes) = some program := by
  induction program with
  | nil => rfl
  | cons insn program ih =>
      rw [List.flatMap_cons, Insn.toBytes]
      simp only [List.cons_append, List.nil_append, decode, ih, half_bytes, single_byte, word_bytes]
      rfl

end Encoding

/-- The instructions a filter may use. -/
inductive Op where
  | loadWord
  | jumpEq
  | jumpGe
  | jumpSet
  | ret

def Op.ofCode (code : BitVec 16) : Option Op :=
  if code = 0x20 then some .loadWord
  else if code = 0x15 then some .jumpEq
  else if code = 0x35 then some .jumpGe
  else if code = 0x45 then some .jumpSet
  else if code = 0x06 then some .ret
  else none

/-- How a run ends: with a value, after the last instruction, or at an instruction
that the machine does not have or whose load is outside the data. -/
inductive Result where
  | returned (value : Word)
  | outside
  | illegal
  deriving DecidableEq

/-- Run a program with so many instructions to skip and an accumulator. -/
def exec (load : Nat → Option Word) : List Insn → Nat → Word → Result
  | [], _, _ => .outside
  | _ :: program, skip + 1, accumulator => exec load program skip accumulator
  | insn :: program, 0, accumulator =>
      match Op.ofCode insn.code with
      | none => .illegal
      | some .loadWord =>
          match load insn.k.toNat with
          | none => .illegal
          | some word => exec load program 0 word
      | some .jumpEq =>
          exec load program (if accumulator = insn.k then insn.jt.toNat else insn.jf.toNat) accumulator
      | some .jumpGe =>
          exec load program (if insn.k ≤ accumulator then insn.jt.toNat else insn.jf.toNat) accumulator
      | some .jumpSet =>
          exec load program (if accumulator &&& insn.k ≠ 0 then insn.jt.toNat else insn.jf.toNat)
            accumulator
      | some .ret => .returned insn.k

/-- A run from the first instruction, with nothing in the accumulator. -/
def run (load : Nat → Option Word) (program : List Insn) : Result := exec load program 0 0

/-- Whether an instruction is a jump. -/
def Insn.jumps (insn : Insn) : Bool :=
  match Op.ofCode insn.code with
  | some .jumpEq => true
  | some .jumpGe => true
  | some .jumpSet => true
  | _ => false

/-- Both branches of every jump end at an instruction of the program. -/
def jumpsInside : List Insn → Bool
  | [] => true
  | insn :: program =>
      (!insn.jumps || decide (insn.jt.toNat < program.length ∧ insn.jf.toNat < program.length)) &&
        jumpsInside program

section Steps

variable (load : Nat → Option Word) (program : List Insn) (jt jf : BitVec 8) (k accumulator : Word)

theorem exec_load {word : Word} (known : load k.toNat = some word) :
    exec load (⟨0x20, jt, jf, k⟩ :: program) 0 accumulator = exec load program 0 word := by
  have loads : exec load (⟨0x20, jt, jf, k⟩ :: program) 0 accumulator =
      match load k.toNat with
      | none => .illegal
      | some word => exec load program 0 word := rfl
  rw [loads, known]

theorem exec_jumpEq : exec load (⟨0x15, jt, jf, k⟩ :: program) 0 accumulator =
    exec load program (if accumulator = k then jt.toNat else jf.toNat) accumulator := rfl

theorem exec_jumpGe : exec load (⟨0x35, jt, jf, k⟩ :: program) 0 accumulator =
    exec load program (if k ≤ accumulator then jt.toNat else jf.toNat) accumulator := rfl

theorem exec_jumpSet : exec load (⟨0x45, jt, jf, k⟩ :: program) 0 accumulator =
    exec load program (if accumulator &&& k ≠ 0 then jt.toNat else jf.toNat) accumulator := rfl

/-- A list of words that all lead to one value: the run ends with the value at a
word of the list, and goes on behind it at any other. -/
theorem exec_anyOf (value : Word) (words : List Word) :
    exec load (words.flatMap (fun word => [⟨0x15, 0, 1, word⟩, ⟨0x06, 0, 0, value⟩]) ++ program)
      0 accumulator =
      if accumulator ∈ words then .returned value else exec load program 0 accumulator := by
  induction words with
  | nil => rfl
  | cons word words ih =>
      rw [List.flatMap_cons, List.append_assoc, List.cons_append, exec_jumpEq]
      by_cases same : accumulator = word
      · rw [if_pos same, if_pos (same ▸ List.mem_cons_self)]
        rfl
      · rw [if_neg same]
        simp only [List.mem_cons, same, false_or]
        exact ih

end Steps

end Bpf
