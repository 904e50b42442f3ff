import OnePassJit.Arm64.Control
import OnePassJit.Arm64.Memory
import OnePassJit.Arm64.Numeric
import OnePassJit.Arm64.Vector
import OnePassJit.Backend

/-!
Lowering of every IR operation to arm64, and the finished function.

When the function is finished, its stack ceiling in bytes is written into the move
pair of the stack check at its entry, and every branch gets its offset.
-/

namespace OnePassJit.Arm64.Lower

def checkExitCode : LowerM Unit := do
  releaseAllToStack
  callBuiltin .checkExitCode

def operation : Operation → LowerM Unit
  | .unreachable => exit (.trap .unreachable)
  | .label l => discard (bindLabel l)
  | .br l => branchInto l
  | .brIf t e => brIf t e
  | .brTable ts d => brTable ts d
  | .call f => call f
  | .callIndirect ty tb => callIndirect ty tb
  | .drop r => dropRange r
  | .select v => select v
  | .pick d v => pick d v
  | .set d _ => setDepth d
  | .globalGet i => globalGet i
  | .globalSet i => globalSet i
  | .load .i32 a => loadInt .u32 4 .i32 a
  | .load .i64 a => loadInt .u64 8 .i64 a
  | .load .f32 a => loadVector 4 .f32 a
  | .load .f64 a => loadVector 8 .f64 a
  | .load8 .s32 a => loadInt .s8To32 1 .i32 a
  | .load8 .u32 a => loadInt .u8 1 .i32 a
  | .load8 .s64 a => loadInt .s8To64 1 .i64 a
  | .load8 .u64 a => loadInt .u8 1 .i64 a
  | .load16 .s32 a => loadInt .s16To32 2 .i32 a
  | .load16 .u32 a => loadInt .u16 2 .i32 a
  | .load16 .s64 a => loadInt .s16To64 2 .i64 a
  | .load16 .u64 a => loadInt .u16 2 .i64 a
  | .load32 s a => loadInt (if s then .s32To64 else .u32) 4 .i64 a
  | .store t a => store (if t == .i32 || t == .f32 then 4 else 8) a
  | .store8 a => store 1 a
  | .store16 a => store 2 a
  | .store32 a => store 4 a
  | .memorySize => memorySize
  | .memoryGrow => memoryGrow
  | .constI32 v => constInt .i32 v.toUInt64
  | .constI64 v => constInt .i64 v
  | .constF32 b => constFloat true b.toUInt64
  | .constF64 b => constFloat false b
  | .eq t => eqOrNe t true
  | .ne t => eqOrNe t false
  | .eqz t => eqz t
  | .lt t => compare t .slt
  | .gt t => compare t .sgt
  | .le t => compare t .sle
  | .ge t => compare t .sge
  | .add t => addSubMul t .add
  | .sub t => addSubMul t .sub
  | .mul t => addSubMul t .mul
  | .clz t => countZeros t true
  | .ctz t => countZeros t false
  | .popcnt _ => popcnt
  | .div t => div t
  | .rem t => intDivision t true
  | .and t => bitwise t .and
  | .or t => bitwise t .or
  | .xor t => bitwise t .xor
  | .shl t => shift t.is32 .shl
  | .shr t => shift t.is32 (if t.isSigned then .sar else .shr)
  | .rotl t => shift t.is32 .rol
  | .rotr t => shift t.is32 .ror
  | .abs t => floatUnary t .abs
  | .neg t => floatUnary t .neg
  | .ceil t => floatUnary t .roundUp
  | .floor t => floatUnary t .roundDown
  | .trunc t => floatUnary t .roundToZero
  | .nearest t => floatUnary t .roundNearest
  | .sqrt t => floatUnary t .sqrt
  | .min t => minMax t true
  | .max t => minMax t false
  | .copysign t => copysign t
  | .wrapI64 => wrap
  | .truncFromFloat i o s => truncToInt i o s
  | .convertFromInt i o => convertFromInt i o
  | .demoteF64 => demote
  | .promoteF32 => promote
  | .i32OfF32Bits => reinterpret .i32
  | .i64OfF64Bits => reinterpret .i64
  | .f32OfI32Bits => reinterpret .f32
  | .f64OfI64Bits => reinterpret .f64
  | .extendI32 s => extend s
  | .extend32From8 => signExtend .w32 8
  | .extend32From16 => signExtend .w32 16
  | .extend64From8 => signExtend .w64 8
  | .extend64From16 => signExtend .w64 16
  | .extend64From32 => signExtend .w64 32
  | .memoryInit d => memoryInit d
  | .dataDrop d => segmentDrop Abi.ctxDataSegments d
  | .memoryCopy => memoryCopy
  | .memoryFill => memoryFill
  | .tableInit e t => tableInit e t
  | .elemDrop e => segmentDrop Abi.ctxElementSegments e
  | .tableCopy s d => tableCopy s d
  | .refFunc f => refFunc f
  | .tableGet t => tableGet t
  | .tableSet t => tableSet t
  | .tableSize t => tableSize t
  | .tableGrow t => tableGrow t
  | .tableFill t => tableFill t
  | .v128Const lo hi => v128Const lo hi
  | .v128Add s => v128AddSub s true
  | .v128Sub s => v128AddSub s false
  | .v128And => v128Bitwise .and
  | .v128Or => v128Bitwise .or
  | .v128Xor => v128Bitwise .xor
  | .v128Not => v128Not
  | .v128Load a => loadVector 16 .v128lo a
  | .v128Store a => store 16 a
  | .v128Splat s => v128Splat s
  | .v128ExtractLane l s sh => v128ExtractLane l s sh
  | .v128ReplaceLane l sh => v128ReplaceLane l sh
  | .v128AnyTrue => v128AnyTrue
  | .checkExitCode => checkExitCode

end OnePassJit.Arm64.Lower

namespace OnePassJit.Arm64.Compiler

/-- A compiler for one function; arm64 code needs no optional extension. -/
def start (ir : FunctionIr) (cfg : CompilerConfig) : Except CompileError Compiler :=
  pure { stack := ValueStack.new gpPool vecPool, fn := ir, listener := cfg.listener }

/-- The machine code and the stack ceiling in slots. A label some branch refers to but
that was never bound is an error, and so is a ceiling of 2^32 bytes or more. -/
def finish (c : Compiler) : Except CompileError (ByteArray × Nat × Unit) := do
  if let some l := c.labels.dangling.head? then throw (.unknownLabel l.render)
  let ceil := c.stack.ceil
  let asm ← match c.stackCheckPatch with
    | some pos =>
      if ceil * 8 ≥ Nat.pow 2 63 then throw (.invalidIndex .stackSlot ceil.toUInt32)
      else if ceil * 8 ≥ Nat.pow 2 32 then throw (.codeGeneration .ceilingTooWide)
      else
        match (Enc.patchImm32 pos (ceil * 8).toUInt32).run c.asm with
        | .ok ((), e) => pure e
        | .error e => throw (.encoding e)
    | none => pure c.asm
  match asm.finalize with
  | .ok code => pure (code, ceil, ())
  | .error e => throw (.encoding e)

end OnePassJit.Arm64.Compiler

namespace OnePassJit.Arm64

def backend : Backend Compiler Unit where
  start := Compiler.start
  preamble := Lower.preamble
  host := Lower.hostFunction
  bindLabel := Lower.bindLabel
  checkExitCode := Lower.checkExitCode
  lower := Lower.operation
  spills := (·.spills)
  finish := Compiler.finish

end OnePassJit.Arm64
