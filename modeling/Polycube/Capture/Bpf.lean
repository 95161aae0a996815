import Mathlib.Data.BitVec
import Polycube.Lib.Machine

/-!
# Classic BPF

The programs `cbpf2c` translates, and what they mean: a machine with an accumulator, an index
register and scratch memory that reads a packet and returns a word.  A load behind the end of the
packet, and a division by zero, return 0.
-/

namespace Polycube.Capture

open Lib

abbrev Word := BitVec 32

/-- `BPF_W`, `BPF_H`, `BPF_B` -/
inductive Size
  | word | half | byte
  deriving DecidableEq

def Size.bytes : Size → ℕ
  | .word => 4
  | .half => 2
  | .byte => 1

/-- An operand: `BPF_K`, `BPF_X` -/
inductive Src
  | k (k : Word)
  | x
  deriving DecidableEq

inductive AluOp
  | add | sub | mul | div | mod | and | or | xor | lsh | rsh
  deriving DecidableEq

inductive JmpOp
  | jeq | jgt | jge | jset
  deriving DecidableEq

/-- What a program returns: `BPF_K`, `BPF_A`, `BPF_X` -/
inductive RetVal
  | k (k : Word)
  | a
  | x
  deriving DecidableEq

/-- An instruction: what `code` stands for, with its fields. -/
inductive Insn
  | ldAbs (size : Size) (k : Word)
  | ldInd (size : Size) (k : Word)
  | ldLen
  | ldImm (k : Word)
  | ldMem (k : Word)
  | ldxImm (k : Word)
  | ldxMem (k : Word)
  | ldxLen
  | ldxMsh (k : Word)
  | st (k : Word)
  | stx (k : Word)
  | alu (op : AluOp) (src : Src)
  | neg
  | ja (k : Word)
  | jmp (op : JmpOp) (src : Src) (jt jf : BitVec 8)
  | tax
  | txa
  | ret (v : RetVal)
  deriving DecidableEq

abbrev Packet := List (BitVec 8)

structure Regs where
  a : Word
  x : Word
  m : ℕ → Word

def Src.val (s : Regs) : Src → Word
  | .k v => v
  | .x => s.x

def bigEndian (bytes : List (BitVec 8)) : Word :=
  bytes.foldl (fun w b => (w <<< 8) ||| b.setWidth 32) 0

def loadAt (pkt : Packet) (size : Size) (off : ℕ) : Option Word :=
  if off + size.bytes ≤ pkt.length then
    some (bigEndian ((List.range size.bytes).map fun i : ℕ => pkt.getD (off + i) 0))
  else none

def AluOp.apply (a v : Word) : AluOp → Option Word
  | .add => some (a + v)
  | .sub => some (a - v)
  | .mul => some (a * v)
  | .div => if v = 0 then none else some (a / v)
  | .mod => if v = 0 then none else some (a % v)
  | .and => some (a &&& v)
  | .or => some (a ||| v)
  | .xor => some (a ^^^ v)
  | .lsh => some (a <<< v.toNat)
  | .rsh => some (a >>> v.toNat)

def JmpOp.test (a v : Word) : JmpOp → Bool
  | .jeq => a == v
  | .jgt => v < a
  | .jge => v ≤ a
  | .jset => a &&& v ≠ 0

def orReturn (v : Option Word) (f : Word → Next Regs Word) : Next Regs Word :=
  match v with
  | some v => f v
  | none => .halt 0

def Insn.step (pkt : Packet) (pc : ℕ) (s : Regs) : Insn → Next Regs Word
  | .ldAbs size k => orReturn (loadAt pkt size k.toNat) fun v => .goto (pc + 1) { s with a := v }
  | .ldInd size k =>
    orReturn (loadAt pkt size (s.x.toNat + k.toNat)) fun v => .goto (pc + 1) { s with a := v }
  | .ldLen => .goto (pc + 1) { s with a := BitVec.ofNat 32 pkt.length }
  | .ldImm k => .goto (pc + 1) { s with a := k }
  | .ldMem k => .goto (pc + 1) { s with a := s.m k.toNat }
  | .ldxImm k => .goto (pc + 1) { s with x := k }
  | .ldxMem k => .goto (pc + 1) { s with x := s.m k.toNat }
  | .ldxLen => .goto (pc + 1) { s with x := BitVec.ofNat 32 pkt.length }
  | .ldxMsh k =>
    orReturn (loadAt pkt .byte k.toNat) fun v =>
      .goto (pc + 1) { s with x := (v &&& 0xf) <<< (2 : ℕ) }
  | .st k => .goto (pc + 1) { s with m := Function.update s.m k.toNat s.a }
  | .stx k => .goto (pc + 1) { s with m := Function.update s.m k.toNat s.x }
  | .alu op src => orReturn (op.apply s.a (src.val s)) fun v => .goto (pc + 1) { s with a := v }
  | .neg => .goto (pc + 1) { s with a := -s.a }
  | .ja k => .goto ((pc : ℤ) + 1 + k.toInt).toNat s
  | .jmp op src jt jf =>
    .goto (pc + 1 + if op.test s.a (src.val s) then jt.toNat else jf.toNat) s
  | .tax => .goto (pc + 1) { s with x := s.a }
  | .txa => .goto (pc + 1) { s with a := s.x }
  | .ret (.k k) => .halt k
  | .ret .a => .halt s.a
  | .ret .x => .halt s.x

def bpfStep (prog : List Insn) (pkt : Packet) (pc : ℕ) (s : Regs) : Next Regs Word :=
  match prog[pc]? with
  | none => .halt 0
  | some i => i.step pkt pc s

def Returns (prog : List Insn) (pkt : Packet) (r : Word) : Prop :=
  ∃ n, runFrom (bpfStep prog pkt) n 0 ⟨0, 0, fun _ => 0⟩ = some r

/-- `BPF_MEMWORDS` -/
def memWords : ℕ := 16

/-- `cbpf_validate` of one instruction; offsets are of 32 bits. -/
def Insn.valid (len i : ℕ) : Insn → Bool
  | .ldMem k | .ldxMem k | .st k | .stx k => k.toNat < memWords
  | .alu .div (.k k) | .alu .mod (.k k) => k ≠ 0
  | .ja k => (i + 1 + k.toNat) % 2 ^ 32 < len
  | .jmp _ _ jt jf => i + 1 + jt.toNat < len && i + 1 + jf.toNat < len
  | _ => true

def Insn.isRet : Insn → Bool
  | .ret _ => true
  | _ => false

/-- `cbpf_validate` -/
def cbpfValidate (prog : List Insn) : Bool :=
  prog.zipIdx.all (fun i => i.1.valid prog.length i.2) && (prog.getLast?.any Insn.isRet)

end Polycube.Capture
