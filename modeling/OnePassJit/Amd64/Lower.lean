import OnePassJit.Amd64.Control
import OnePassJit.Amd64.Memory
import OnePassJit.Amd64.Numeric
import OnePassJit.Amd64.Vector
import OnePassJit.Backend

/-!
Lowering of every IR operation to amd64, and the finished function.

Each operation pops its operands from the value stack, emits code and pushes the
locations of its results. When the function is finished, its stack ceiling (the deepest
stack it uses) is patched into the stack check at its entry.
-/

namespace OnePassJit.Amd64.Lower

def checkExitCode : LowerM Unit := do
  releaseAllToStack
  callBuiltin .checkExitCode

def operation : Operation → LowerM Unit
  | .unreachable => exit (.trap .unreachable)
  | .label l => discard (bindLabel l)
  | .br l => branchInto l
  | .brIf t e => brIf t e
  | .brTable ts d => brTable ts d
  | .call f => call f
  | .callIndirect ty tb => callIndirect ty tb
  | .drop r => dropRange r
  | .select v => select v
  | .pick d v => pick d v
  | .set d _ => setDepth d
  | .globalGet i => globalGet i
  | .globalSet i => globalSet i
  | .load .i32 a => loadInt .u32 4 .i32 a
  | .load .i64 a => loadInt .u64 8 .i64 a
  | .load .f32 a => loadVector 4 .f32 a
  | .load .f64 a => loadVector 8 .f64 a
  | .load8 .s32 a => loadInt .s8To32 1 .i32 a
  | .load8 .u32 a => loadInt .u8To32 1 .i32 a
  | .load8 .s64 a => loadInt .s8To64 1 .i64 a
  | .load8 .u64 a => loadInt .u8To32 1 .i64 a
  | .load16 .s32 a => loadInt .s16To32 2 .i32 a
  | .load16 .u32 a => loadInt .u16To32 2 .i32 a
  | .load16 .s64 a => loadInt .s16To64 2 .i64 a
  | .load16 .u64 a => loadInt .u16To32 2 .i64 a
  | .load32 s a => loadInt (if s then .s32To64 else .u32) 4 .i64 a
  | .store t a => store (if t == .i32 || t == .f32 then 4 else 8) a
  | .store8 a => store 1 a
  | .store16 a => store 2 a
  | .store32 a => store 4 a
  | .memorySize => memorySize
  | .memoryGrow => memoryGrow
  | .constI32 v => constInt .i32 v.toUInt64
  | .constI64 v => constInt .i64 v
  | .constF32 b => constFloat true b.toUInt64
  | .constF64 b => constFloat false b
  | .eq t => eqOrNe t true
  | .ne t => eqOrNe t false
  | .eqz t => eqz t
  | .lt t => compare t .slt
  | .gt t => compare t .sgt
  | .le t => compare t .sle
  | .ge t => compare t .sge
  | .add t => addSubMul t .add
  | .sub t => addSubMul t .sub
  | .mul t => addSubMul t .mul
  | .clz t => clz t
  | .ctz t => ctz t
  | .popcnt t => popcnt t
  | .div t => div t
  | .rem t => intDivision t true
  | .and t => bitwise t .and
  | .or t => bitwise t .or
  | .xor t => bitwise t .xor
  | .shl t => shift t.is32 .shl
  | .shr t => shift t.is32 (if t.isSigned then .sar else .shr)
  | .rotl t => shift t.is32 .rol
  | .rotr t => shift t.is32 .ror
  | .abs t => signMask t true
  | .neg t => signMask t false
  | .ceil t => round t roundUp
  | .floor t => round t roundDown
  | .trunc t => round t roundToZero
  | .nearest t => round t roundNearest
  | .sqrt t => sqrt t
  | .min t => minMax t true
  | .max t => minMax t false
  | .copysign t => copysign t
  | .wrapI64 => wrap
  | .truncFromFloat i o s => truncToInt i o s
  | .convertFromInt i o => convertFromInt i o
  | .demoteF64 => demote
  | .promoteF32 => promote
  | .i32OfF32Bits => reinterpret .i32
  | .i64OfF64Bits => reinterpret .i64
  | .f32OfI32Bits => reinterpret .f32
  | .f64OfI64Bits => reinterpret .f64
  | .extendI32 s => extend s
  | .extend32From8 => signExtend .w32 8
  | .extend32From16 => signExtend .w32 16
  | .extend64From8 => signExtend .w64 8
  | .extend64From16 => signExtend .w64 16
  | .extend64From32 => signExtend .w64 32
  | .memoryInit d => memoryInit d
  | .dataDrop d => segmentDrop Abi.ctxDataSegments d
  | .memoryCopy => memoryCopy
  | .memoryFill => memoryFill
  | .tableInit e t => tableInit e t
  | .elemDrop e => segmentDrop Abi.ctxElementSegments e
  | .tableCopy s d => tableCopy s d
  | .refFunc f => refFunc f
  | .tableGet t => tableGet t
  | .tableSet t => tableSet t
  | .tableSize t => tableSize t
  | .tableGrow t => tableGrow t
  | .tableFill t => tableFill t
  | .v128Const lo hi => v128Const lo hi
  | .v128Add s => v128Binary (LaneShape.addOp s)
  | .v128Sub s => v128Binary (LaneShape.subOp s)
  | .v128And => v128Binary .pand
  | .v128Or => v128Binary .por
  | .v128Xor => v128Binary .pxor
  | .v128Not => v128Not
  | .v128Load a => loadVector 16 .v128lo a
  | .v128Store a => store 16 a
  | .v128Splat s => v128Splat s
  | .v128ExtractLane l s sh => v128ExtractLane l s sh
  | .v128ReplaceLane l sh => v128ReplaceLane l sh
  | .v128AnyTrue => v128AnyTrue
  | .checkExitCode => checkExitCode

end OnePassJit.Amd64.Lower

namespace OnePassJit.Amd64.Compiler

def start (ir : FunctionIr) (cfg : CompilerConfig) : Except CompileError Compiler := do
  cfg.features.checkRequired
  pure { stack := ValueStack.new gpPool vecPool, fn := ir, listener := cfg.listener,
         features := cfg.features }

/-- The machine code and the stack ceiling in slots. A label some branch refers to but
that was never bound is an error. -/
def finish (c : Compiler) : Except CompileError (ByteArray × Nat × Array Placed) := do
  if let some l := c.labels.dangling.head? then throw (.unknownLabel l.render)
  let ceil := c.stack.ceil
  let asm ← match c.stackCheckPatch with
    | some after =>
      if ceil * 8 < Nat.pow 2 31 then pure { c.asm with patches := c.asm.patches ++ [(after, (ceil * 8).toUInt32)] }
      else throw (.invalidIndex .stackCeiling ceil.toUInt32)
    | none => pure c.asm
  match asm.finish with
  | .ok (placed, code) => pure (code, ceil, placed)
  | .error e => throw (.encoding e)

end OnePassJit.Amd64.Compiler

namespace OnePassJit.Amd64

def backend : Backend Compiler (Array Placed) where
  start := Compiler.start
  preamble := Lower.preamble
  host := Lower.hostFunction
  bindLabel := Lower.bindLabel
  checkExitCode := Lower.checkExitCode
  lower := Lower.operation
  spills := (·.spills)
  finish := Compiler.finish

end OnePassJit.Amd64
