import OnePassJit.Arm64.Emit

/-!
Constants, comparisons, integer and float arithmetic and conversions on arm64.

A64 already has most of the IR's numeric meaning: shift counts are taken modulo the
width, division by zero does not fault, `fmin`/`fmax` propagate NaN and order signed
zeros, and float to integer conversions saturate. Only the traps need explicit checks:
a zero divisor, the one signed quotient that overflows, and a trapping conversion,
detected through the invalid operation flag of the float status register.
-/

namespace OnePassJit.Arm64.Lower

def invalidOperationBit : Nat := 0

def unsignedFlag : Flag → Flag
  | .slt => .ult
  | .sle => .ule
  | .sgt => .ugt
  | .sge => .uge
  | f => f

/-- The flag that tests a float comparison after `fcmp`, false on unordered operands. -/
def floatFlag : Flag → Flag
  | .slt => .minus
  | .sle => .ule
  | f => f

def intSlot (is32 : Bool) : SlotType := if is32 then .i32 else .i64

def floatSlot (is32 : Bool) : SlotType := if is32 then .f32 else .f64

def popTwo : LowerM (Location × Location) := do
  let x2 ← popToRegister
  let x1 ← popToRegister
  pure (x1, x2)

def finishBinary (x1 x2 : Location) : LowerM Unit := do
  release x2
  pushRegister (← regOf x1) x1.type

def constInt (t : SlotType) (v : UInt64) : LowerM Unit := do
  materializeTopFlag
  let r ← allocate .gp
  asm (Enc.movImm r v)
  pushRegister r t

def constFloat (is32 : Bool) (bits : UInt64) : LowerM Unit := do
  materializeTopFlag
  let r ← floatConst is32 bits
  pushRegister r (floatSlot is32)

def eqOrNe (t : NumType) (isEq : Bool) : LowerM Unit := do
  let (x1, x2) ← popTwo
  let r1 ← regOf x1
  let r2 ← regOf x2
  match t with
  | .i32 | .i64 => asm (Enc.cmpRR (Width.of (t == .i32)) r1 r2)
  | .f32 | .f64 => asm (Enc.fcmp (t == .f32) r1 r2)
  release x1
  release x2
  pushFlag (if isEq then .eq else .ne)

def eqz (t : IntWidth) : LowerM Unit := do
  let x ← popToRegister
  asm (Enc.cmpRI (Width.of t.is32) (← regOf x) 0)
  release x
  pushFlag .eq

def compare (t : CmpType) (flag : Flag) : LowerM Unit := do
  let (x1, x2) ← popTwo
  let r1 ← regOf x1
  let r2 ← regOf x2
  let result ← match t with
    | .s32 | .s64 => do
      asm (Enc.cmpRR (Width.of (t == .s32)) r1 r2)
      pure flag
    | .u32 | .u64 => do
      asm (Enc.cmpRR (Width.of (t == .u32)) r1 r2)
      pure (unsignedFlag flag)
    | .f32 | .f64 => do
      asm (Enc.fcmp (t == .f32) r1 r2)
      pure (floatFlag flag)
  release x1
  release x2
  pushFlag result

/-- Two-operand operations that share one lowering. -/
inductive ArithOp where
  | add
  | sub
  | mul
  | and
  | or
  | xor
  deriving DecidableEq, Repr

/-- Shifts and rotations. -/
inductive ShiftOp where
  | shl
  | shr
  | sar
  | rol
  | ror
  deriving DecidableEq, Repr

def addSubMul (t : NumType) (op : ArithOp) : LowerM Unit := do
  let (x1, x2) ← popTwo
  let r1 ← regOf x1
  let r2 ← regOf x2
  match t with
  | .i32 | .i64 =>
    let w := Width.of (t == .i32)
    match op with
    | .add => asm (Enc.addRR w r1 r1 r2)
    | .sub => asm (Enc.subRR w r1 r1 r2)
    | _ => asm (Enc.mul w r1 r1 r2)
  | .f32 | .f64 =>
    let fop : FloatBinOp := match op with
      | .add => .add
      | .sub => .sub
      | _ => .mul
    asm (Enc.fbin fop (t == .f32) r1 r1 r2)
  finishBinary x1 x2

def bitwise (t : IntWidth) (op : ArithOp) : LowerM Unit := do
  let (x1, x2) ← popTwo
  let r1 ← regOf x1
  let r2 ← regOf x2
  let w := Width.of t.is32
  match op with
  | .and => asm (Enc.andRR w r1 r1 r2)
  | .or => asm (Enc.orrRR w r1 r1 r2)
  | _ => asm (Enc.eorRR w r1 r1 r2)
  finishBinary x1 x2

/-- Count leading zeros; trailing zeros are the leading zeros of the bit-reversed value. -/
def countZeros (t : IntWidth) (isClz : Bool) : LowerM Unit := do
  let x ← popToRegister
  let r ← regOf x
  let w := Width.of t.is32
  if !isClz then asm (Enc.rbit w r r)
  asm (Enc.clz w r r)
  pushRegister r x.type

/-- No scalar population count: count the bits of each byte in a vector register and
add the counts. -/
def popcnt : LowerM Unit := do
  let x ← popToRegister
  let r ← regOf x
  asm (Enc.fmovFromGp .w64 vecScratch0 r)
  asm (Enc.cnt8b vecScratch0 vecScratch0)
  asm (Enc.addv8b vecScratch0 vecScratch0)
  asm (Enc.umov 1 r vecScratch0 0)
  pushRegister r x.type

/-- Integer division or remainder. A zero divisor traps. A signed quotient of the
minimum by -1 wraps without faulting, so it traps explicitly; the remainder is then 0
by itself. -/
def intDivision (t : IntType) (isRem : Bool) : LowerM Unit := do
  let w := Width.of t.is32
  let (x1, x2) ← popTwo
  let r1 ← regOf x1
  let d ← regOf x2
  let nonZero ← asm Enc.createLabel
  asm (Enc.cbnz w d nonZero)
  exit (.trap .integerDivisionByZero)
  asm (Enc.bind nonZero)
  if t.isSigned && !isRem then
    let regular ← asm Enc.createLabel
    asm (Enc.cmnRI w d 1)
    asm (Enc.bCond .ne regular)
    asm (Enc.movImm scratch0 (if t.is32 then 0x80000000 else 0x8000000000000000))
    asm (Enc.cmpRR w r1 scratch0)
    asm (Enc.bCond .ne regular)
    exit (.trap .integerOverflow)
    asm (Enc.bind regular)
  if isRem then
    asm (Enc.div w t.isSigned scratch0 r1 d)
    asm (Enc.msub w r1 scratch0 d r1)
  else
    asm (Enc.div w t.isSigned r1 r1 d)
  release x2
  pushRegister r1 (intSlot t.is32)

def div (t : CmpType) : LowerM Unit :=
  match t with
  | .s32 => intDivision .s32 false
  | .u32 => intDivision .u32 false
  | .s64 => intDivision .s64 false
  | .u64 => intDivision .u64 false
  | .f32 | .f64 => do
    let (x1, x2) ← popTwo
    let r1 ← regOf x1
    asm (Enc.fbin .div (t == .f32) r1 r1 (← regOf x2))
    finishBinary x1 x2

def shift (is32 : Bool) (op : ShiftOp) : LowerM Unit := do
  let (value, count) ← popTwo
  let r ← regOf value
  let c ← regOf count
  let w := Width.of is32
  match op with
  | .shl => asm (Enc.lslv w r r c)
  | .shr => asm (Enc.lsrv w r r c)
  | .sar => asm (Enc.asrv w r r c)
  | .ror => asm (Enc.rorv w r r c)
  | .rol =>
    -- Rotating left by n is rotating right by -n.
    asm (Enc.neg w scratch0 c)
    asm (Enc.rorv w r r scratch0)
  finishBinary value count

def signExtend (w : Width) (fromBits : Nat) : LowerM Unit := do
  let x ← popToRegister
  let r ← regOf x
  asm (Enc.sxt w fromBits r r)
  pushRegister r (intSlot (w == .w32))

def wrap : LowerM Unit := do
  let x ← popToRegister
  let r ← regOf x
  asm (Enc.movRR .w32 r r)
  pushRegister r .i32

def extend (signed : Bool) : LowerM Unit := do
  let x ← popToRegister
  let r ← regOf x
  if signed then asm (Enc.sxt .w64 32 r r) else asm (Enc.movRR .w32 r r)
  pushRegister r .i64

def floatUnary (t : FloatType) (op : FloatUnOp) : LowerM Unit := do
  let x ← popToRegister
  let r ← regOf x
  asm (Enc.fun1 op t.is32 r r)
  pushRegister r x.type

def minMax (t : FloatType) (isMin : Bool) : LowerM Unit := do
  let (x1, x2) ← popTwo
  let r1 ← regOf x1
  let r2 ← regOf x2
  asm (Enc.fbin (if isMin then .min else .max) t.is32 r1 r1 r2)
  finishBinary x1 x2

/-- The sign bit of `x2` on the magnitude of `x1`, spliced in general registers. -/
def copysign (t : FloatType) : LowerM Unit := do
  let (x1, x2) ← popTwo
  let r1 ← regOf x1
  let r2 ← regOf x2
  let w := Width.of t.is32
  let signShift := if t.is32 then 31 else 63
  asm (Enc.fmovToGp w scratch0 r1)
  asm (Enc.fmovToGp w scratch1 r2)
  asm (Enc.lslRI w scratch0 scratch0 1)
  asm (Enc.lsrRI w scratch0 scratch0 1)
  asm (Enc.lsrRI w scratch1 scratch1 signShift)
  asm (Enc.lslRI w scratch1 scratch1 signShift)
  asm (Enc.orrRR w scratch0 scratch0 scratch1)
  asm (Enc.fmovFromGp w r1 scratch0)
  finishBinary x1 x2

def demote : LowerM Unit := do
  let x ← popToRegister
  let r ← regOf x
  asm (Enc.fcvt false r r)
  pushRegister r .f32

def promote : LowerM Unit := do
  let x ← popToRegister
  let r ← regOf x
  asm (Enc.fcvt true r r)
  pushRegister r .f64

def reinterpret (target : SlotType) : LowerM Unit := do
  let x ← popToRegister
  let src ← regOf x
  let dst ← allocate target.regKind
  let w := Width.of target.is32
  match target with
  | .i32 | .i64 => asm (Enc.fmovToGp w dst src)
  | _ => asm (Enc.fmovFromGp w dst src)
  release x
  pushRegister dst target

def convertFromInt (input : IntType) (output : FloatType) : LowerM Unit := do
  let x ← popToRegister
  let src ← regOf x
  let dst ← allocate .vector
  asm (Enc.intToFloat input.isSigned output.is32 (Width.of input.is32) dst src)
  release x
  pushRegister dst (floatSlot output.is32)

/-- A trapping conversion: the invalid operation flag is cleared, the conversion run,
and the flag read back; when set, a NaN input is an invalid conversion and anything
else an overflow. -/
def trappingTrunc (signed src32 : Bool) (w : Width) (dst src : Reg) : LowerM Unit := do
  let ok ← asm Enc.createLabel
  let nan ← asm Enc.createLabel
  asm (Enc.msrFpsr zr)
  asm (Enc.fcvtz signed src32 w dst src)
  asm (Enc.mrsFpsr scratch0)
  asm (Enc.tbz false scratch0 invalidOperationBit ok)
  asm (Enc.fcmp src32 src src)
  asm (Enc.bCond .vs nan)
  exit (.trap .integerOverflow)
  asm (Enc.bind nan)
  exit (.trap .invalidConversion)
  asm (Enc.bind ok)

def truncToInt (input : FloatType) (output : IntType) (nonTrapping : Bool) : LowerM Unit := do
  let x ← popToRegister
  let src ← regOf x
  let dst ← allocate .gp
  let w := Width.of output.is32
  if nonTrapping then asm (Enc.fcvtz output.isSigned input.is32 w dst src)
  else trappingTrunc output.isSigned input.is32 w dst src
  release x
  pushRegister dst (intSlot output.is32)

end OnePassJit.Arm64.Lower
