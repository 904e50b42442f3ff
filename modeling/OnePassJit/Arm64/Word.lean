/-!
A64 instruction words.

Every A64 instruction is one 32-bit word: a fixed opcode pattern with register numbers
and immediates in fields. This module holds the operand kinds of the instruction forms
the backend uses, their opcode patterns, and the word sequences that load a constant.
Register number 31 is the zero register in data processing operands.

A 64-bit constant loads with the fewest words: when more of its four 16-bit halves are
all ones than all zeros, `movn` writes the inverse of the first half that is not all
ones and `movk` each later half that is not all ones; otherwise `movz` writes the first
half that is not zero and `movk` each later half that is not zero.
-/

namespace OnePassJit.Arm64

/-- Operand width of an integer instruction. -/
inductive Width where
  | w32
  | w64
  deriving DecidableEq, Repr, Inhabited

namespace Width

def of (is32 : Bool) : Width := if is32 then .w32 else .w64

def bits : Width → Nat
  | .w32 => 32
  | .w64 => 64

def sf : Width → UInt32
  | .w32 => 0
  | .w64 => (1 : UInt32) <<< 31

end Width

def ftype (is32 : Bool) : UInt32 := if is32 then 0 else (1 : UInt32) <<< 22

/-- Condition codes, in encoding order. -/
inductive Cond where
  | eq
  | ne
  | hs
  | lo
  | mi
  | pl
  | vs
  | vc
  | hi
  | ls
  | ge
  | lt
  | gt
  | le
  deriving DecidableEq, Repr, Inhabited

namespace Cond

def code : Cond → UInt32
  | .eq => 0
  | .ne => 1
  | .hs => 2
  | .lo => 3
  | .mi => 4
  | .pl => 5
  | .vs => 6
  | .vc => 7
  | .hi => 8
  | .ls => 9
  | .ge => 10
  | .lt => 11
  | .gt => 12
  | .le => 13

def invert : Cond → Cond
  | .eq => .ne
  | .ne => .eq
  | .hs => .lo
  | .lo => .hs
  | .mi => .pl
  | .pl => .mi
  | .vs => .vc
  | .vc => .vs
  | .hi => .ls
  | .ls => .hi
  | .ge => .lt
  | .lt => .ge
  | .gt => .le
  | .le => .gt

theorem invert_invert (c : Cond) : c.invert.invert = c := by
  cases c <;> rfl

end Cond

/-- Integer loads: access size and extension into the destination. -/
inductive LoadKind where
  | u8
  | s8To32
  | s8To64
  | u16
  | s16To32
  | s16To64
  | u32
  | s32To64
  | u64
  deriving DecidableEq, Repr, Inhabited

namespace LoadKind

def opcode : LoadKind → UInt32
  | .u8 => 0x39400000
  | .s8To32 => 0x39C00000
  | .s8To64 => 0x39800000
  | .u16 => 0x79400000
  | .s16To32 => 0x79C00000
  | .s16To64 => 0x79800000
  | .u32 => 0xB9400000
  | .s32To64 => 0xB9800000
  | .u64 => 0xF9400000

def size : LoadKind → Nat
  | .u8 | .s8To32 | .s8To64 => 1
  | .u16 | .s16To32 | .s16To64 => 2
  | .u32 | .s32To64 => 4
  | .u64 => 8

end LoadKind

def storeOpcode (bytes : Nat) : UInt32 :=
  match bytes with
  | 1 => 0x39000000
  | 2 => 0x79000000
  | 4 => 0xB9000000
  | _ => 0xF9000000

def vectorLoadOpcode (bytes : Nat) : UInt32 :=
  match bytes with
  | 4 => 0xBD400000
  | 8 => 0xFD400000
  | _ => 0x3DC00000

def vectorStoreOpcode (bytes : Nat) : UInt32 :=
  match bytes with
  | 4 => 0xBD000000
  | 8 => 0xFD000000
  | _ => 0x3D800000

/-- The register-offset form of an unsigned-offset load or store opcode; `scaled`
shifts the index by the access size. -/
def registerOffsetForm (opcode : UInt32) (scaled : Bool) : UInt32 :=
  let bit (n : UInt32) : UInt32 := 1 <<< n
  (opcode &&& ~~~(bit 24)) ||| bit 21 ||| ((0b011 : UInt32) <<< 13) ||| bit 11 |||
    ((if scaled then (1 : UInt32) else 0) <<< 12)

def unscaledForm (opcode : UInt32) : UInt32 := opcode &&& ~~~((1 : UInt32) <<< 24)

/-- Scalar float operations of two sources. -/
inductive FloatBinOp where
  | add
  | sub
  | mul
  | div
  | min
  | max
  deriving DecidableEq, Repr, Inhabited

def FloatBinOp.opcode : FloatBinOp → UInt32
  | .mul => 0x1E200800
  | .div => 0x1E201800
  | .add => 0x1E202800
  | .sub => 0x1E203800
  | .max => 0x1E204800
  | .min => 0x1E205800

/-- Scalar float operations of one source. -/
inductive FloatUnOp where
  | mov
  | abs
  | neg
  | sqrt
  /-- Round to nearest, ties to even. -/
  | roundNearest
  | roundUp
  | roundDown
  | roundToZero
  deriving DecidableEq, Repr, Inhabited

def FloatUnOp.opcode : FloatUnOp → UInt32
  | .mov => 0x1E204000
  | .abs => 0x1E20C000
  | .neg => 0x1E214000
  | .sqrt => 0x1E21C000
  | .roundNearest => 0x1E244000
  | .roundUp => 0x1E24C000
  | .roundDown => 0x1E254000
  | .roundToZero => 0x1E25C000

def movzWord (w : Width) (rd : UInt32) (imm : UInt32) (hw : Nat) : UInt32 :=
  (0x52800000 : UInt32) ||| w.sf ||| (hw.toUInt32 <<< 21) ||| ((imm &&& 0xFFFF) <<< 5) ||| rd

def movkWord (w : Width) (rd : UInt32) (imm : UInt32) (hw : Nat) : UInt32 :=
  (0x72800000 : UInt32) ||| w.sf ||| (hw.toUInt32 <<< 21) ||| ((imm &&& 0xFFFF) <<< 5) ||| rd

def movnWord (w : Width) (rd : UInt32) (imm : UInt32) (hw : Nat) : UInt32 :=
  (0x12800000 : UInt32) ||| w.sf ||| (hw.toUInt32 <<< 21) ||| ((imm &&& 0xFFFF) <<< 5) ||| rd

def halves (v : UInt64) : List UInt32 :=
  (List.range 4).map fun i => ((v >>> (16 * i).toUInt64) &&& 0xFFFF).toUInt32

def firstIndex (xs : List UInt32) (p : UInt32 → Bool) : Nat := (xs.findIdx? p).getD 0

def movImmWords (rd : UInt32) (v : UInt64) : List UInt32 :=
  let hs := halves v
  let zeros := (hs.filter (· == 0)).length
  let ones := (hs.filter (· == 0xFFFF)).length
  if ones > zeros then
    let first := firstIndex hs (· != 0xFFFF)
    movnWord .w64 rd (~~~(hs.getD first 0) &&& 0xFFFF) first ::
      ((hs.zipIdx.drop (first + 1)).filter (·.1 != 0xFFFF)).map fun (h, i) => movkWord .w64 rd h i
  else
    let first := firstIndex hs (· != 0)
    movzWord .w64 rd (hs.getD first 0) first ::
      ((hs.zipIdx.drop (first + 1)).filter (·.1 != 0)).map fun (h, i) => movkWord .w64 rd h i

/-- Put `imm` into the 16-bit immediate field (bits 5 to 20) of a move word. -/
def withImm16 (word imm : UInt32) : UInt32 :=
  (word &&& ~~~((0xFFFF : UInt32) <<< 5)) ||| ((imm &&& 0xFFFF) <<< 5)

def laneSize (laneBytes : Nat) : UInt32 := (Nat.log2 laneBytes).toUInt32

def laneImm5 (laneBytes lane : Nat) : UInt32 :=
  (((lane.toUInt32 <<< 1) ||| 1) <<< laneSize laneBytes) &&& 0x1F

end OnePassJit.Arm64
