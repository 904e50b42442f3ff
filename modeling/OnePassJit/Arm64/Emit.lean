import OnePassJit.Arm64.Encoder
import OnePassJit.Arm64.Reg
import OnePassJit.LabelTable
import OnePassJit.Ir.Module
import OnePassJit.Config
import OnePassJit.Exit
import OnePassJit.Abi

/-!
The state of arm64 code generation for one function, and the moves every lowering
shares.

Values live in stack slots, registers or the condition flags exactly as on amd64, and
registers are allocated and spilled the same way. Nothing operates on memory directly:
call context fields and stack slots move through x27 and x28, which the allocator never
hands out. An exit records the status and the stack pointer in the call context and
branches to the landing address the host stored there.
-/

namespace OnePassJit.Arm64

/-- Code generation state for one function. -/
structure Compiler where
  asm : Encoder := {}
  stack : ValueStack
  labels : LabelTable Nat := {}
  fn : FunctionIr
  listener : Bool
  spills : Nat := 0
  /-- Word index of the move pair loading the stack ceiling. -/
  stackCheckPatch : Option Nat := none

abbrev LowerM := StateT Compiler (Except CompileError)

def condOf : Flag → Cond
  | .eq => .eq
  | .ne => .ne
  | .slt => .lt
  | .sle => .le
  | .sgt => .gt
  | .sge => .ge
  | .ult => .lo
  | .ule => .ls
  | .ugt => .hi
  | .uge => .hs
  | .minus => .mi
  | .plusOrZero => .pl

namespace Lower

def asm {α : Type} (m : EncM α) : LowerM α := fun c =>
  match m c.asm with
  | .ok (a, s) => .ok (a, { c with asm := s })
  | .error e => .error (.encoding e)

def stk {α : Type} (m : StackM α) : LowerM α := fun c =>
  match m c.stack with
  | .ok a s => .ok (a, { c with stack := s })
  | .error e _ => .error (.invalidStack e)

def fn : LowerM FunctionIr := do pure (← get).fn

def scaled (index scale : Nat) (space : IndexSpace) : LowerM Int :=
  if index * scale < Nat.pow 2 63 then pure (index * scale)
  else throw (.invalidIndex space index.toUInt32)

def slot (i : Nat) : LowerM Int := scaled i 8 .stackSlot

def loadCtx (r : Reg) (field : Int) : LowerM Unit := asm (Enc.load64 r contextReg field)

def storeCtx (r : Reg) (field : Int) : LowerM Unit := asm (Enc.store64 r contextReg field)

def regOf (l : Location) : LowerM Reg :=
  match l.reg with
  | some r => pure r
  | none => throw (.codeGeneration (.notOnRegister l.slot))

def loadSlot (r : Reg) (i : Nat) (t : SlotType) : LowerM Unit := do
  let off ← slot i
  match t with
  | .i32 => asm (Enc.load .u32 r stackBaseReg off)
  | .i64 => asm (Enc.load64 r stackBaseReg off)
  | .f32 => asm (Enc.loadVector 4 r stackBaseReg off)
  | .f64 => asm (Enc.loadVector 8 r stackBaseReg off)
  | .v128lo => asm (Enc.loadVector 16 r stackBaseReg off)
  | t => throw (.invalidStack (.cannotLoad t))

def storeSlot (r : Reg) (i : Nat) (t : SlotType) : LowerM Unit := do
  let off ← slot i
  match t with
  | .i32 => asm (Enc.store 4 r stackBaseReg off)
  | .i64 => asm (Enc.store64 r stackBaseReg off)
  | .f32 => asm (Enc.storeVector 4 r stackBaseReg off)
  | .f64 => asm (Enc.storeVector 8 r stackBaseReg off)
  | .v128lo => asm (Enc.storeVector 16 r stackBaseReg off)
  | t => throw (.invalidStack (.cannotStore t))

def movValue (d s : Reg) (t : SlotType) : LowerM Unit :=
  if d == s then pure ()
  else match t.regKind with
    | .vector => asm (Enc.vmov d s)
    | .gp => asm (Enc.movRR .w64 d s)

def spill (i : Nat) : LowerM Unit := do
  let l ← stk (StackM.get i)
  match l.reg with
  | some r =>
    storeSlot r i l.type
    stk (StackM.markOnStack i)
  | none => pure ()

/-- A free register of `kind` outside `exclude`, marked used; when none is free, the
bottom-most holder of one is spilled. -/
def allocate (kind : RegKind) (exclude : RegSet := {}) : LowerM Reg := do
  let c ← get
  match c.stack.takeFree kind exclude with
  | some r =>
    stk (StackM.markUsed r)
    pure r
  | none =>
    match c.stack.stealTarget kind exclude with
    | none => throw (.registerAllocation kind)
    | some victim =>
      let r ← regOf (← stk (StackM.get victim))
      spill victim
      modify fun c => { c with spills := c.spills + 1 }
      stk (StackM.markUsed r)
      pure r

def releaseReg (r : Reg) : LowerM Unit := stk (StackM.markUnused r)

def release (l : Location) : LowerM Unit :=
  match l.reg with
  | some r => releaseReg r
  | none => pure ()

def flagToRegister (f : Flag) : LowerM Reg := do
  let r ← allocate .gp
  asm (Enc.cset r (condOf f))
  pure r

def releaseAllToStack : LowerM Unit := do
  for i in (← get).stack.nonMemoryResident do
    let l ← stk (StackM.get i)
    if let some f := l.flag then
      let r ← flagToRegister f
      stk (StackM.setRegister i r)
    spill i

def materializeTopFlag : LowerM Unit := do
  match (← get).stack.slots.back? with
  | some top =>
    if let some f := top.flag then
      let i := (← get).stack.sp - 1
      let r ← flagToRegister f
      stk (StackM.setRegister i r)
  | none => pure ()

/-- Copy a popped value into `r` from wherever it lives; its old register is released. -/
def fillRegister (l : Location) (r : Reg) : LowerM Location := do
  let l ← match l.reg, l.flag with
    | some old, _ => do
      movValue r old l.type
      releaseReg old
      pure l
    | none, some f => do
      asm (Enc.cset r (condOf f))
      pure { l with type := .i32 }
    | none, none => do
      loadSlot r l.slot l.type
      pure l
  stk (StackM.markUsed r)
  pure (l.setRegister r)

def loadDetached (l : Location) (exclude : RegSet := {}) : LowerM Location := do
  match l.reg with
  | some r => if exclude.contains r then fillRegister l (← allocate l.regKind exclude) else pure l
  | none => fillRegister l (← allocate l.regKind exclude)

def popLocation : LowerM Location := do
  let top ← stk StackM.peek
  if top.type == .v128hi then stk StackM.popV128 else stk StackM.pop

def popToRegister : LowerM Location := do
  loadDetached (← popLocation)

def pushRegister (r : Reg) (t : SlotType) : LowerM Unit :=
  if t == .v128lo then discard (stk (StackM.pushV128OnRegister r))
  else discard (stk (StackM.pushOnRegister r t))

def pushFlag (f : Flag) : LowerM Unit := discard (stk (StackM.pushOnFlag f))

def discardSlots : Nat → LowerM Unit
  | 0 => pure ()
  | n + 1 => do
    release (← stk StackM.pop)
    discardSlots n

def floatConst (is32 : Bool) (bits : UInt64) : LowerM Reg := do
  let r ← allocate .vector
  if bits == 0 then
    asm (Enc.fmovFromGp (Width.of is32) r zr)
  else
    asm (Enc.movImm scratch0 bits)
    asm (Enc.fmovFromGp (Width.of is32) r scratch0)
  pure r

/-! Exits. -/

def writeExitStatus (st : Status) : LowerM Unit := do
  asm (Enc.movImm scratch0 st.code.toUInt64)
  asm (Enc.store 4 scratch0 contextReg Abi.ctxStatus)
  asm (Enc.movImm scratch0 (← get).stack.sp.toUInt64)
  storeCtx scratch0 Abi.ctxStackPointer

def jumpToHost : LowerM Unit := do
  loadCtx scratch0 Abi.ctxHostReturn
  asm (Enc.br scratch0)

def exit (st : Status) : LowerM Unit := do
  writeExitStatus st
  let here ← asm Enc.bindNew
  asm (Enc.adr scratch0 here)
  storeCtx scratch0 Abi.ctxReturnAddress
  jumpToHost

/-- Leave generated code so that the host can resume right after the exit. -/
def exitResumable (st : Status) : LowerM Unit := do
  writeExitStatus st
  let resume ← asm Enc.createLabel
  asm (Enc.adr scratch0 resume)
  storeCtx scratch0 Abi.ctxReturnAddress
  jumpToHost
  asm (Enc.bind resume)

def initStackBase : LowerM Unit := do
  loadCtx stackBaseReg Abi.ctxStackStart
  loadCtx scratch0 Abi.ctxStackBase
  asm (Enc.addRR .w64 stackBaseReg stackBaseReg scratch0)

def initMemory : LowerM Unit := do
  if (← fn).module.hasMemory then loadCtx memoryBaseReg Abi.ctxMemoryBase

def callBuiltin (b : Builtin) : LowerM Unit := do
  asm (Enc.movImm scratch0 b.code.toUInt64)
  asm (Enc.store 4 scratch0 contextReg Abi.ctxBuiltin)
  exitResumable .callBuiltin
  initStackBase
  initMemory

def copyModuleField (src dst : Int) : LowerM Unit := do
  asm (Enc.load64 scratch0 moduleReg src)
  storeCtx scratch0 dst

/-- Cache the module's resources in the call context unless it already holds them. -/
def initModuleContext : LowerM Unit := do
  let m := (← fn).module
  let done ← asm Enc.createLabel
  loadCtx scratch0 Abi.ctxModule
  asm (Enc.cmpRR .w64 scratch0 moduleReg)
  asm (Enc.bCond .eq done)
  storeCtx moduleReg Abi.ctxModule
  if !m.globals.isEmpty then copyModuleField Abi.modGlobals Abi.ctxGlobals
  if m.hasMemory then
    copyModuleField Abi.modMemory Abi.ctxMemoryRecord
    asm (Enc.load64 scratch1 scratch0 Abi.memoryBase)
    storeCtx scratch1 Abi.ctxMemoryBase
    asm (Enc.load64 scratch1 scratch0 Abi.memoryLen)
    storeCtx scratch1 Abi.ctxMemoryLen
  if m.hasTable then copyModuleField Abi.modTables Abi.ctxTables
  if !m.functions.isEmpty then copyModuleField Abi.modFunctions Abi.ctxFunctions
  if !m.types.isEmpty then copyModuleField Abi.modTypeIds Abi.ctxTypeIds
  if m.dataCount > 0 then copyModuleField Abi.modDataSegments Abi.ctxDataSegments
  if m.elementCount > 0 then copyModuleField Abi.modElementSegments Abi.ctxElementSegments
  asm (Enc.bind done)

def nativeLabel (l : Label) : LowerM Nat := do
  match ((← get).labels.get? l).bind (·.native) with
  | some n => pure n
  | none =>
    let n ← asm Enc.createLabel
    modify fun c => { c with labels := (c.labels.nativeOrInsert l n).2 }
    pure n

end Lower

end OnePassJit.Arm64
