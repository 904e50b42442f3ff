import OnePassJit.Amd64.Emit

/-!
Constants, comparisons, integer and float arithmetic and conversions on amd64.

Integer comparisons leave their result in the flags. A float comparison uses only
"above" conditions, which are false on unordered operands, swapping the operands of
`lt` and `le`. Division goes through `rdx:rax`: a zero divisor traps, the signed
quotient of the minimum by -1 traps while the matching remainder is 0. Shifts take
their count in `cl`, which the hardware masks like the IR does. Float min and max
handle equal operands (zeros of either sign) and NaN before `minss`/`maxss`, which get
both wrong. A float to integer truncation runs the fast conversion and only on its
sentinel result checks for NaN and range, trapping or saturating.
-/

namespace OnePassJit.Amd64.Lower

def f32Sign : UInt64 := 0x80000000
def f64Sign : UInt64 := 0x8000000000000000

def popTwo : LowerM (Location × Location) := do
  let x2 ← popToRegister
  let x1 ← popToRegister
  pure (x1, x2)

def setFloatBits (r : Reg) (is32 : Bool) (bits : UInt64) : LowerM Unit := do
  asm (Asm.movRI64 scratchGp bits)
  asm (Asm.movGpToXmm (Width.of is32) r scratchGp)

def constInt (t : SlotType) (v : UInt64) : LowerM Unit := do
  materializeTopFlag
  let r ← allocate .gp
  if v == 0 then asm (Asm.aluRR .xor .w32 r r) else asm (Asm.movRI64 r v)
  pushRegister r t

def constFloat (is32 : Bool) (bits : UInt64) : LowerM Unit := do
  materializeTopFlag
  let r ← floatConst is32 bits
  pushRegister r (if is32 then .f32 else .f64)

def eqOrNe (t : NumType) (isEq : Bool) : LowerM Unit := do
  let (x1, x2) ← popTwo
  let r1 ← regOf x1
  let r2 ← regOf x2
  match t with
  | .i32 | .i64 =>
    asm (Asm.aluRR .cmp (Width.of (t == .i32)) r1 r2)
    release x1
    release x2
    pushFlag (if isEq then .eq else .ne)
  | .f32 | .f64 =>
    -- Unordered operands set ZF and PF together.
    asm (Asm.scalar .ucomis (t == .f32) r1 r2)
    let result ← allocate .gp
    let parity ← allocate .gp
    if isEq then
      asm (Asm.setcc .e result)
      asm (Asm.setcc .np parity)
      asm (Asm.aluRR .and .w32 result parity)
    else
      asm (Asm.setcc .ne result)
      asm (Asm.setcc .p parity)
      asm (Asm.aluRR .or .w32 result parity)
    asm (Asm.movzx8RR result result)
    releaseReg parity
    release x1
    release x2
    pushRegister result .i32

def eqz (t : IntWidth) : LowerM Unit := do
  let x ← popToRegister
  let r ← regOf x
  asm (Asm.testRR (Width.of t.is32) r r)
  release x
  pushFlag .eq

def Flag.unsigned : Flag → Flag
  | .slt => .ult
  | .sle => .ule
  | .sgt => .ugt
  | .sge => .uge
  | f => f

def compare (t : CmpType) (flag : Flag) : LowerM Unit := do
  let (x1, x2) ← popTwo
  let r1 ← regOf x1
  let r2 ← regOf x2
  let result ← match t with
    | .s32 | .s64 => do
      asm (Asm.aluRR .cmp (Width.of (t == .s32)) r1 r2)
      pure flag
    | .u32 | .u64 => do
      asm (Asm.aluRR .cmp (Width.of (t == .u32)) r1 r2)
      pure (Flag.unsigned flag)
    | .f32 | .f64 => do
      let is32 := t == .f32
      match flag with
      | .slt =>
        asm (Asm.scalar .ucomis is32 r2 r1)
        pure .ugt
      | .sle =>
        asm (Asm.scalar .ucomis is32 r2 r1)
        pure .uge
      | .sgt =>
        asm (Asm.scalar .ucomis is32 r1 r2)
        pure .ugt
      | _ =>
        asm (Asm.scalar .ucomis is32 r1 r2)
        pure .uge
  release x1
  release x2
  pushFlag result

/-- Two-operand arithmetic and bitwise operations. -/
inductive ArithOp where
  | add
  | sub
  | mul
  | and
  | or
  | xor
  deriving DecidableEq

def addSubMul (t : NumType) (op : ArithOp) : LowerM Unit := do
  let (x1, x2) ← popTwo
  let r1 ← regOf x1
  let r2 ← regOf x2
  match t with
  | .i32 | .i64 =>
    let w := Width.of (t == .i32)
    match op with
    | .add => asm (Asm.aluRR .add w r1 r2)
    | .sub => asm (Asm.aluRR .sub w r1 r2)
    | _ => asm (Asm.imulRR w r1 r2)
  | .f32 | .f64 =>
    let is32 := t == .f32
    match op with
    | .add => asm (Asm.scalar .add is32 r1 r2)
    | .sub => asm (Asm.scalar .sub is32 r1 r2)
    | _ => asm (Asm.scalar .mul is32 r1 r2)
  release x2
  pushRegister r1 x1.type

def bitwise (t : IntWidth) (op : ArithOp) : LowerM Unit := do
  let (x1, x2) ← popTwo
  let r1 ← regOf x1
  let r2 ← regOf x2
  let w := Width.of t.is32
  match op with
  | .and => asm (Asm.aluRR .and w r1 r2)
  | .or => asm (Asm.aluRR .or w r1 r2)
  | _ => asm (Asm.aluRR .xor w r1 r2)
  release x2
  pushRegister r1 x1.type

def bits (t : IntWidth) : Nat := if t.is32 then 32 else 64

/-- Leading zeros; without `lzcnt`, `bsr` gives the index of the highest set bit and
zero is handled apart. -/
def clz (t : IntWidth) : LowerM Unit := do
  let x ← popToRegister
  let r ← regOf x
  let w := Width.of t.is32
  if (← get).features.lzcnt then
    asm (Asm.bitRR .lzcnt w r r)
  else
    let nonZero ← asm Asm.createLabel
    let done ← asm Asm.createLabel
    asm (Asm.testRR w r r)
    asm (Asm.jcc .ne nonZero)
    asm (Asm.movRI32 r (bits t).toUInt32)
    asm (Asm.jmp done)
    asm (Asm.bind nonZero)
    asm (Asm.bitRR .bsr w r r)
    asm (Asm.aluRI .xor w r (bits t - 1))
    asm (Asm.bind done)
  pushRegister r x.type

def ctz (t : IntWidth) : LowerM Unit := do
  let x ← popToRegister
  let r ← regOf x
  let w := Width.of t.is32
  if (← get).features.tzcnt then
    asm (Asm.bitRR .tzcnt w r r)
  else
    let nonZero ← asm Asm.createLabel
    let done ← asm Asm.createLabel
    asm (Asm.testRR w r r)
    asm (Asm.jcc .ne nonZero)
    asm (Asm.movRI32 r (bits t).toUInt32)
    asm (Asm.jmp done)
    asm (Asm.bind nonZero)
    asm (Asm.bitRR .bsf w r r)
    asm (Asm.bind done)
  pushRegister r x.type

def popcnt (t : IntWidth) : LowerM Unit := do
  let x ← popToRegister
  let r ← regOf x
  asm (Asm.bitRR .popcnt (Width.of t.is32) r r)
  pushRegister r x.type

def intDivision (t : IntType) (isRem : Bool) : LowerM Unit := do
  let w := Width.of t.is32
  let resultType : SlotType := if t.is32 then .i32 else .i64
  let fixed := RegSet.ofList [rax, rdx]
  let divisor ← loadDetached (← popLocation) fixed
  let dividend ← popLocation
  let _ ← moveToFixed dividend rax
  evict rdx
  stk (StackM.markUsed rdx)
  let d ← regOf divisor
  let nonZero ← asm Asm.createLabel
  asm (Asm.testRR w d d)
  asm (Asm.jcc .ne nonZero)
  exit (.trap .integerDivisionByZero)
  asm (Asm.bind nonZero)
  let done ← asm Asm.createLabel
  if t.isSigned then
    let regular ← asm Asm.createLabel
    asm (Asm.aluRI .cmp w d (-1))
    asm (Asm.jcc .ne regular)
    if isRem then
      asm (Asm.aluRR .xor .w32 rdx rdx)
      asm (Asm.jmp done)
    else
      if t.is32 then
        asm (Asm.aluRI .cmp w rax (-2147483648))
      else
        asm (Asm.movRI64 scratchGp 0x8000000000000000)
        asm (Asm.aluRR .cmp w rax scratchGp)
      asm (Asm.jcc .ne regular)
      exit (.trap .integerOverflow)
    asm (Asm.bind regular)
    asm (Asm.signExtendAcc w)
    asm (Asm.div w true d)
  else
    asm (Asm.aluRR .xor .w32 rdx rdx)
    asm (Asm.div w false d)
  asm (Asm.bind done)
  release divisor
  let (result, other) := if isRem then (rdx, rax) else (rax, rdx)
  releaseReg other
  pushRegister result resultType

def div (t : CmpType) : LowerM Unit :=
  match t with
  | .s32 => intDivision .s32 false
  | .u32 => intDivision .u32 false
  | .s64 => intDivision .s64 false
  | .u64 => intDivision .u64 false
  | .f32 | .f64 => do
    let (x1, x2) ← popTwo
    let r1 ← regOf x1
    asm (Asm.scalar .div (t == .f32) r1 (← regOf x2))
    release x2
    pushRegister r1 x1.type

def shift (is32 : Bool) (op : ShiftOp) : LowerM Unit := do
  let count ← moveToFixed (← popLocation) rcx
  let value ← loadDetached (← popLocation) (RegSet.ofList [rcx])
  let r ← regOf value
  asm (Asm.shiftCL op (Width.of is32) r)
  release count
  pushRegister r value.type

def signExtend (w : Width) (fromBits : Nat) : LowerM Unit := do
  let x ← popToRegister
  let r ← regOf x
  asm (Asm.movsxRR w fromBits r r)
  pushRegister r (if w == .w32 then .i32 else .i64)

def wrap : LowerM Unit := do
  let r ← regOf (← popToRegister)
  asm (Asm.movRR .w32 r r)
  pushRegister r .i32

def extend (signed : Bool) : LowerM Unit := do
  let r ← regOf (← popToRegister)
  if signed then asm (Asm.movsxRR .w64 32 r r) else asm (Asm.movRR .w32 r r)
  pushRegister r .i64

def signMask (t : FloatType) (isAbs : Bool) : LowerM Unit := do
  let is32 := t.is32
  let x ← popToRegister
  let r ← regOf x
  let sign := if is32 then f32Sign else f64Sign
  if isAbs then
    let mask ← floatConst is32 (~~~sign &&& (if is32 then 0xFFFFFFFF else 0xFFFFFFFFFFFFFFFF))
    asm (Asm.scalar .and is32 r mask)
    releaseReg mask
  else
    let mask ← floatConst is32 sign
    asm (Asm.scalar .xor is32 r mask)
    releaseReg mask
  pushRegister r x.type

def roundNearest : Nat := 0
def roundDown : Nat := 1
def roundUp : Nat := 2
def roundToZero : Nat := 3

def round (t : FloatType) (mode : Nat) : LowerM Unit := do
  let x ← popToRegister
  let r ← regOf x
  asm (Asm.round t.is32 mode r r)
  pushRegister r x.type

def sqrt (t : FloatType) : LowerM Unit := do
  let x ← popToRegister
  let r ← regOf x
  asm (Asm.scalar .sqrt t.is32 r r)
  pushRegister r x.type

def minMax (t : FloatType) (isMin : Bool) : LowerM Unit := do
  let is32 := t.is32
  let (x1, x2) ← popTwo
  let r1 ← regOf x1
  let r2 ← regOf x2
  let differ ← asm Asm.createLabel
  let nan ← asm Asm.createLabel
  let done ← asm Asm.createLabel
  asm (Asm.scalar .ucomis is32 r1 r2)
  asm (Asm.jcc .ne differ)
  asm (Asm.jcc .p nan)
  -- Equal, maybe zeros of both signs: `or` keeps -0 for min, `and` keeps +0 for max.
  if isMin then asm (Asm.scalar .or is32 r1 r2) else asm (Asm.scalar .and is32 r1 r2)
  asm (Asm.jmp done)
  asm (Asm.bind nan)
  asm (Asm.scalar .add is32 r1 r2)
  asm (Asm.jmp done)
  asm (Asm.bind differ)
  if isMin then asm (Asm.scalar .min is32 r1 r2) else asm (Asm.scalar .max is32 r1 r2)
  asm (Asm.bind done)
  release x2
  pushRegister r1 x1.type

def copysign (t : FloatType) : LowerM Unit := do
  let is32 := t.is32
  let (x1, x2) ← popTwo
  let r1 ← regOf x1
  let r2 ← regOf x2
  let mask ← floatConst is32 (if is32 then f32Sign else f64Sign)
  asm (Asm.scalar .and is32 r2 mask)
  asm (Asm.scalar .andn is32 mask r1)
  asm (Asm.scalar .or is32 mask r2)
  release x1
  release x2
  pushRegister mask x1.type

def reinterpret (target : SlotType) : LowerM Unit := do
  let x ← popToRegister
  let src ← regOf x
  let dst ← allocate target.regKind
  let w := Width.of target.is32
  match target with
  | .i32 | .i64 => asm (Asm.movXmmToGp w dst src)
  | _ => asm (Asm.movGpToXmm w dst src)
  release x
  pushRegister dst target

def convertFromInt (input : IntType) (output : FloatType) : LowerM Unit := do
  let is32 := output.is32
  let x ← popToRegister
  let src ← regOf x
  let dst ← allocate .vector
  match input with
  | .s32 => asm (Asm.cvtFromInt is32 .w32 dst src)
  -- Zero extended, so the 64-bit signed conversion is exact.
  | .s64 | .u32 => asm (Asm.cvtFromInt is32 .w64 dst src)
  | .u64 =>
    let large ← asm Asm.createLabel
    let done ← asm Asm.createLabel
    asm (Asm.testRR .w64 src src)
    asm (Asm.jcc .s large)
    asm (Asm.cvtFromInt is32 .w64 dst src)
    asm (Asm.jmp done)
    -- Halve with the low bit folded in for the right rounding, convert, double.
    asm (Asm.bind large)
    asm (Asm.movRR .w64 scratchGp src)
    asm (Asm.shiftRI .shr .w64 scratchGp 1)
    asm (Asm.aluRI .and .w64 src 1)
    asm (Asm.aluRR .or .w64 scratchGp src)
    asm (Asm.cvtFromInt is32 .w64 dst scratchGp)
    asm (Asm.scalar .add is32 dst dst)
    asm (Asm.bind done)
  release x
  pushRegister dst (if is32 then .f32 else .f64)

/-- Where a conversion fails: a saturating one sets its answer and joins at `done`, a
trapping one leaves with `st`. -/
def saturateOrTrap (saturating : Bool) (st : Status) (answer : LowerM Unit) (done : Nat) :
    LowerM Unit :=
  if saturating then do
    answer
    asm (Asm.jmp done)
  else exit st

/-- The float the signed checks compare with, and the condition under which an input lies
below the range: the least value of the output, except that `f64` has values between
`-2 ^ 31 - 1` and `-2 ^ 31`, which truncate into the range, so a 32-bit output compares with
`-2 ^ 31 - 1` and counts what equals it as below. -/
def signedBound : FloatType → Bool → UInt64 × Cond
  | .f32, true => (0xCF000000, .b)
  | .f64, true => (0xC1E0000000200000, .be)
  | .f32, false => (0xDF000000, .b)
  | .f64, false => (0xC3E0000000000000, .b)

/-- `2 ^ 32` or `2 ^ 64`, one past the greatest unsigned output, as a float of the input type. -/
def unsignedLimit : FloatType → Bool → UInt64
  | .f32, true => 0x4F800000
  | .f64, true => 0x41F0000000000000
  | .f32, false => 0x5F800000
  | .f64, false => 0x43F0000000000000

/-- Signed truncation: the conversion answers the minimum for NaN and out of range
inputs, and only then are the slow checks run. -/
def truncSigned (input : FloatType) (output : IntType) (saturating : Bool) (src dst : Reg) :
    LowerM Unit := do
  let is32 := input.is32
  let w := Width.of output.is32
  let done ← asm Asm.createLabel
  let nan ← asm Asm.createLabel
  let negative ← asm Asm.createLabel
  let positive ← asm Asm.createLabel
  asm (Asm.cvtt is32 w dst src)
  asm (Asm.aluRI .cmp w dst 1)
  asm (Asm.jcc .no done)
  asm (Asm.scalar .ucomis is32 src src)
  asm (Asm.jcc .p nan)
  let (bound, below) := signedBound input output.is32
  setFloatBits scratchVec is32 bound
  asm (Asm.scalar .ucomis is32 src scratchVec)
  asm (Asm.jcc below negative)
  asm (Asm.vec .pxor scratchVec scratchVec)
  asm (Asm.scalar .ucomis is32 src scratchVec)
  asm (Asm.jcc .ae positive)
  -- Exactly the minimum.
  asm (Asm.jmp done)
  asm (Asm.bind nan)
  saturateOrTrap saturating (.trap .invalidConversion) (asm (Asm.aluRR .xor .w32 dst dst)) done
  asm (Asm.bind positive)
  saturateOrTrap saturating (.trap .integerOverflow)
    (if output.is32 then asm (Asm.movRI32 dst 0x7fffffff)
    else asm (Asm.movRI64 dst 0x7fffffffffffffff)) done
  asm (Asm.bind negative)
  -- The conversion already answered the minimum.
  saturateOrTrap saturating (.trap .integerOverflow) (pure ()) done
  asm (Asm.bind done)

/-- Unsigned truncation of an input in `(-1, 2 ^ bits)`: one 64-bit signed conversion, or,
for a 64-bit output and an input of `2 ^ 63` or more, a conversion of the input less
`2 ^ 63` with the top bit put back. -/
def truncUnsignedInRange (input : FloatType) (output : IntType) (src dst limit : Reg)
    (done : Nat) : LowerM Unit :=
  let is32 := input.is32
  if output.is32 then
    -- Below 2^32 the 64-bit signed conversion is exact.
    asm (Asm.cvtt is32 .w64 dst src)
  else do
    let large ← asm Asm.createLabel
    setFloatBits limit is32 (if is32 then 0x5F000000 else 0x43E0000000000000)
    asm (Asm.scalar .ucomis is32 src limit)
    asm (Asm.jcc .ae large)
    asm (Asm.cvtt is32 .w64 dst src)
    asm (Asm.jmp done)
    asm (Asm.bind large)
    asm (Asm.scalar .sub is32 src limit)
    asm (Asm.cvtt is32 .w64 dst src)
    asm (Asm.movRI64 scratchGp 0x8000000000000000)
    asm (Asm.aluRR .xor .w64 dst scratchGp)

def truncUnsigned (input : FloatType) (output : IntType) (saturating : Bool) (src dst : Reg) :
    LowerM Unit := do
  let is32 := input.is32
  let done ← asm Asm.createLabel
  let nan ← asm Asm.createLabel
  let negative ← asm Asm.createLabel
  let positive ← asm Asm.createLabel
  let limit ← allocate .vector
  asm (Asm.scalar .ucomis is32 src src)
  asm (Asm.jcc .p nan)
  -- (-1, 0) truncates to 0, so only -1 and below are out of range.
  setFloatBits limit is32 (if is32 then 0xBF800000 else 0xBFF0000000000000)
  asm (Asm.scalar .ucomis is32 src limit)
  asm (Asm.jcc .be negative)
  setFloatBits limit is32 (unsignedLimit input output.is32)
  asm (Asm.scalar .ucomis is32 src limit)
  asm (Asm.jcc .ae positive)
  truncUnsignedInRange input output src dst limit done
  asm (Asm.jmp done)
  releaseReg limit
  asm (Asm.bind nan)
  saturateOrTrap saturating (.trap .invalidConversion) (asm (Asm.aluRR .xor .w32 dst dst)) done
  asm (Asm.bind negative)
  saturateOrTrap saturating (.trap .integerOverflow) (asm (Asm.aluRR .xor .w32 dst dst)) done
  asm (Asm.bind positive)
  saturateOrTrap saturating (.trap .integerOverflow)
    (if output.is32 then asm (Asm.movRI32 dst 0xffffffff)
    else asm (Asm.movRI64 dst 0xffffffffffffffff)) done
  asm (Asm.bind done)

def truncToInt (input : FloatType) (output : IntType) (saturating : Bool) : LowerM Unit := do
  let x ← popToRegister
  let src ← regOf x
  let dst ← allocate .gp
  if output.isSigned then truncSigned input output saturating src dst
  else truncUnsigned input output saturating src dst
  release x
  pushRegister dst (if output.is32 then .i32 else .i64)

def demote : LowerM Unit := do
  let r ← regOf (← popToRegister)
  asm (Asm.vec .cvtsd2ss r r)
  pushRegister r .f32

def promote : LowerM Unit := do
  let r ← regOf (← popToRegister)
  asm (Asm.vec .cvtss2sd r r)
  pushRegister r .f64

end OnePassJit.Amd64.Lower
