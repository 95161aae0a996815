import Polycube.Capture.Bpf

/-!
# The filter compiler

`cbpfDump` makes a piece of C text of each instruction, behind a label with its number; the text
takes the place of `//CUSTOM_FILTER_CODE` in `handle_rx`.  The pieces are kept as what they say,
one constructor for each format.  `cStep` is what they do, `compiles` what of them is C.
-/

namespace Polycube.Capture

open Lib

inductive CubeType
  | tc | xdp
  deriving DecidableEq

/-- `a` and `x`, variables of the filter code. -/
inductive Reg
  | a | x
  deriving DecidableEq

inductive Operand
  /-- `0x%x` -/
  | hex (v : Word)
  /-- `%d` -/
  | dec (v : Word)
  | reg (r : Reg)
  /-- `x + %d` -/
  | xPlus (v : Word)
  /-- `m[%d]` -/
  | mem (v : Word)
  /-- `4*([%d]&0xf)` -/
  | msh (v : Word)
  /-- a name that is declared nowhere -/
  | name (s : String)
  deriving DecidableEq

inductive CExpr
  | empty
  /-- `a += x`, and so on -/
  | assign (op : AluOp) (rhs : Operand)
  /-- `a & x`, and so on -/
  | value (op : AluOp) (rhs : Operand)
  /-- what becomes of `a % %d` and `a % x`, where `% %` and `% x` are conversions -/
  | garbled
  deriving DecidableEq

inductive Line
  /-- ` unimp`, with no end of line -/
  | unimp
  /-- ` unimp`, with an end of line -/
  | unimpLine
  /-- `if(a == …) { goto …; } else { goto …; }` -/
  | branch (op : JmpOp) (rhs : Operand) (jt jf : ℕ)
  /-- `return RX_OK;` -/
  | returnOk
  /-- the packet is handed to the control plane -/
  | submit (cubeType : CubeType)
  /-- `a = x;` or `x = a;` -/
  | copy (dst src : Reg)
  /-- `m[%d]=a;` or `m[%d]=x;` -/
  | store (slot : Operand) (src : Reg)
  /-- `if((data + bound) > data_end){ return RX_DROP; } a = …data[offset]…;` -/
  | load (dst : Reg) (size : Size) (bound offset : Operand)
  /-- `…;` -/
  | expr (e : CExpr)
  deriving DecidableEq

/-- `SKF_AD_OFF` -/
def skfAdOff : Word := BitVec.ofInt 32 (-0x1000)

/-- The names of `cbpf_dump_linux_k`. -/
def linuxNames : List (Word × String) :=
  [(0, "proto"), (4, "type"), (8, "ifidx"), (12, "nla"), (16, "nlan"), (20, "mark"),
    (24, "queue"), (28, "hatype"), (32, "rxhash"), (36, "cpu"), (44, "vlant"), (48, "vlanp"),
    (52, "poff")]

/-- `cbpf_dump_linux_k`, with the value printed: the name is chosen by `k`. -/
def cbpfDumpLinuxK (k v : Word) : Operand :=
  match linuxNames.find? fun n => skfAdOff + n.1 = k with
  | some n => .name n.2
  | none => .dec v

def loadLine (dst : Reg) (size : Size) (fmt : Word → Operand) (v : Word) : Line :=
  .load dst size (fmt (v + BitVec.ofNat 32 size.bytes)) (fmt v)

def jumpOperand : Src → Operand
  | .k k => .hex k
  | .x => .reg .x

def AluOp.expr (hex dec : Operand) : AluOp → CExpr
  | .add => .assign .add dec
  | .sub => .assign .sub dec
  | .mul => .assign .mul dec
  | .div => .assign .div dec
  | .mod => .garbled
  | .and => .value .and hex
  | .or => .value .or hex
  | .xor => .value .xor hex
  | .lsh => .value .lsh dec
  | .rsh => .value .rsh dec

def aluExpr (op : AluOp) : Src → CExpr
  | .k v => op.expr (.hex v) (.dec v)
  | .x => op.expr (.reg .x) (.reg .x)

/-- `_cbpf_dump` -/
def cbpfDump (cubeType : CubeType) (n : ℕ) : Insn → Line
  | .ret (.k k) => if k = 0 then .returnOk else if k = 0xffffffff then .submit cubeType else .unimpLine
  | .ret .a | .ret .x => .unimpLine
  | .ldAbs size k => loadLine .a size (cbpfDumpLinuxK k) k
  | .ldLen => .load .a .word (.name "len") (.name "len")
  -- no size but that of a word is told apart here
  | .ldInd _ k => loadLine .a .word .xPlus k
  | .ldImm k => loadLine .a .word .hex k
  | .ldxImm k => loadLine .x .word .hex k
  | .ldxMsh k => loadLine .x .byte .msh k
  | .ldMem k => loadLine .a .word .mem k
  | .ldxMem k => loadLine .x .word .mem k
  | .st k => .store (.mem k) .a
  | .stx k => .store (.mem k) .x
  | .jmp op src jt jf => .branch op (jumpOperand src) (n + 1 + jt.toNat) (n + 1 + jf.toNat)
  | .alu op src => .expr (aluExpr op src)
  | .neg => .expr .empty
  | .tax => .copy .a .x
  | .txa => .copy .x .a
  | .ja _ | .ldxLen => .unimp

/-- `bpf_dump_all`.  `ToC` only reports what is not valid. -/
def toC (cubeType : CubeType) (prog : List Insn) : List Line :=
  prog.zipIdx.map fun i => cbpfDump cubeType i.2 i.1

/-! ### What the text means -/

structure CState where
  a : Word
  x : Word
  m : ℕ → Word
  submitted : ℕ
  packet : Packet

inductive RxCode
  | ok | drop
  deriving DecidableEq

/-- The number an operand stands for behind `data +`. -/
def Operand.offset (s : CState) : Operand → ℤ
  | .hex v => v.toNat
  | .dec v => v.toInt
  | .reg .a => s.a.toNat
  | .reg .x => s.x.toNat
  | .xPlus v => s.x.toNat + v.toInt
  | .mem v => (s.m v.toNat).toNat
  | .msh _ | .name _ => 0

/-- The number it stands for as an index of `data`: a sum is one of 32 bits. -/
def Operand.index (s : CState) : Operand → ℤ
  | .xPlus v => (s.x + v).toNat
  | o => o.offset s

def Operand.word (s : CState) (o : Operand) : Word := BitVec.ofInt 32 (o.offset s)

/-- `a /= …`.  The constant -2147483648 is of type `long`, as 2147483648 is; a register of BPF
divided by 0 is 0. -/
def cDiv (a : Word) (s : CState) (rhs : Operand) : Word :=
  if rhs = .dec 0x80000000 then BitVec.ofInt 32 (Int.tdiv a.toNat (-0x80000000))
  else a / rhs.word s

def assigned (s : CState) (op : AluOp) (rhs : Operand) : Word :=
  match op with
  | .add => s.a + rhs.word s
  | .sub => s.a - rhs.word s
  | .mul => s.a * rhs.word s
  | .div => cDiv s.a s rhs
  | _ => s.a

def Reg.get (s : CState) : Reg → Word
  | .a => s.a
  | .x => s.x

def CState.set (s : CState) (r : Reg) (v : Word) : CState :=
  match r with
  | .a => { s with a := v }
  | .x => { s with x := v }

/-- The byte `o` behind `data`; `around` is what lies before and behind the packet. -/
def byteAt (around : ℤ → BitVec 8) (pkt : Packet) (o : ℤ) : BitVec 8 :=
  if 0 ≤ o ∧ o < pkt.length then pkt.getD o.toNat 0 else around o

/-- `ntohl(* ((uint32_t *) &data[…]))`, and so on -/
def readAt (around : ℤ → BitVec 8) (pkt : Packet) (size : Size) (o : ℤ) : Word :=
  bigEndian ((List.range size.bytes).map fun i : ℕ => byteAt around pkt (o + i))

/-- What the text of an instruction does.  A load that is `guarded` does not read behind the
packet. -/
def Line.step (around : ℤ → BitVec 8) (guarded : Bool) (pc : ℕ) (s : CState) :
    Line → Next CState (RxCode × CState)
  | .unimp | .unimpLine => .goto (pc + 1) s
  | .branch op rhs jt jf => .goto (if op.test s.a (rhs.word s) then jt else jf) s
  | .returnOk => .halt (.ok, s)
  | .submit _ => .goto (pc + 1) { s with submitted := s.submitted + 1 }
  | .copy dst src => .goto (pc + 1) (s.set dst (src.get s))
  | .store (.mem v) src => .goto (pc + 1) { s with m := Function.update s.m v.toNat (src.get s) }
  | .store _ _ => .goto (pc + 1) s
  | .load dst size bound offset =>
    if guarded ∧ (s.packet.length : ℤ) < bound.offset s then .halt (.drop, s)
    else .goto (pc + 1) (s.set dst (readAt around s.packet size (offset.index s)))
  | .expr (.assign op rhs) => .goto (pc + 1) { s with a := assigned s op rhs }
  | .expr _ => .goto (pc + 1) s

/-- A step of `handle_rx`; behind the filter code it returns `RX_OK`. -/
def cStep (around : ℤ → BitVec 8) (text : List Line) (pc : ℕ) (s : CState) :
    Next CState (RxCode × CState) :=
  match text[pc]? with
  | none => .halt (.ok, s)
  | some line => line.step around true pc s

def Operand.isC : Operand → Bool
  | .msh _ | .name _ => false
  | _ => true

/-- The label `L%d` is in the text.  An `unimp` with no end of line becomes part of the next one. -/
def declared (text : List Line) (n : ℕ) : Bool :=
  n < text.length && (n == 0 || text[n - 1]? != some .unimp)

def Line.isC (text : List Line) : Line → Bool
  | .unimpLine | .expr .garbled => false
  | .branch _ rhs jt jf => rhs.isC && declared text jt && declared text jf
  | .load _ _ bound offset => bound.isC && offset.isC
  | _ => true

/-- The text compiles; an `unimp` at its end stands before the `return` of `handle_rx`. -/
def compiles (text : List Line) : Bool :=
  text.all (Line.isC text) && text.getLast? != some .unimp

/-- `handle_rx` with the filter code, on the values its variables happen to have. -/
def handleRx (around : ℤ → BitVec 8) (text : List Line) (s : CState) : Option (RxCode × CState) :=
  if compiles text then runFrom (cStep around text) (text.length + 1) 0 s else none

end Polycube.Capture
