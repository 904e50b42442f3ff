import OnePassJit.Amd64.Asm
import OnePassJit.Amd64.Reg
import OnePassJit.LabelTable
import OnePassJit.Ir.Module
import OnePassJit.Config
import OnePassJit.Exit
import OnePassJit.Abi

/-!
The state of amd64 code generation for one function, and the moves every lowering
shares.

A value lives in its 64-bit stack slot, in a register, or (a comparison result) in the
condition flags. Registers are allocated from a pool; when none is free, the bottom-most
value holding one of the right kind is written back to its slot and its register is
taken (a spill). A flag-resident value is turned into a register (`setcc`, then zero
extension) before anything that could clobber the flags.

Generated code leaves to the host through an exit: it records a status and its stack
pointer in the call context and returns. A resumable exit also records where to
continue, which the host uses after running a host function or a builtin.
-/

namespace OnePassJit.Amd64

/-- Code generation state for one function. -/
structure Compiler where
  asm : Assembler := {}
  stack : ValueStack
  labels : LabelTable Nat := {}
  fn : FunctionIr
  listener : Bool
  features : Features
  spills : Nat := 0
  /-- Label right after the immediate of the stack growth check. -/
  stackCheckPatch : Option Nat := none

abbrev LowerM := StateT Compiler (Except CompileError)

def condOf : Flag → Cond
  | .eq => .e
  | .ne => .ne
  | .slt => .l
  | .sle => .le
  | .sgt => .g
  | .sge => .ge
  | .ult => .b
  | .ule => .be
  | .ugt => .a
  | .uge => .ae
  | .minus => .s
  | .plusOrZero => .ns

namespace Lower

def asm {α : Type} (m : AsmM α) : LowerM α := fun c =>
  match m c.asm with
  | .ok (a, s) => .ok (a, { c with asm := s })
  | .error e => .error (.encoding e)

def stk {α : Type} (m : StackM α) : LowerM α := fun c =>
  match m c.stack with
  | .ok a s => .ok (a, { c with stack := s })
  | .error e _ => .error (.invalidStack e)

def fn : LowerM FunctionIr := do pure (← get).fn

def disp (index scale : Nat) (space : IndexSpace) : LowerM Int :=
  if index * scale < Nat.pow 2 31 then pure (index * scale)
  else throw (.invalidIndex space index.toUInt32)

def ctx (offset : Int) : MemRef := .at contextReg offset

def slot (i : Nat) : LowerM MemRef := do
  pure (.at stackBaseReg (← disp i 8 .stackSlot))

def regOf (l : Location) : LowerM Reg :=
  match l.reg with
  | some r => pure r
  | none => throw (.codeGeneration (.notOnRegister l.slot))

def loadSlot (r : Reg) (i : Nat) (t : SlotType) : LowerM Unit := do
  let m ← slot i
  match t with
  | .i32 => asm (Asm.load .u32 r m)
  | .i64 => asm (Asm.load .u64 r m)
  | .f32 => asm (Asm.loadXmm 4 r m)
  | .f64 => asm (Asm.loadXmm 8 r m)
  | .v128lo => asm (Asm.loadXmm 16 r m)
  | t => throw (.invalidStack (.cannotLoad t))

def storeSlot (r : Reg) (i : Nat) (t : SlotType) : LowerM Unit := do
  let m ← slot i
  match t with
  | .i32 => asm (Asm.store 4 m r)
  | .i64 => asm (Asm.store 8 m r)
  | .f32 => asm (Asm.storeXmm 4 m r)
  | .f64 => asm (Asm.storeXmm 8 m r)
  | .v128lo => asm (Asm.storeXmm 16 m r)
  | t => throw (.invalidStack (.cannotStore t))

def movValue (d s : Reg) (t : SlotType) : LowerM Unit :=
  if d == s then pure ()
  else match t.regKind with
    | .vector => asm (Asm.vec .movdqa d s)
    | .gp => asm (Asm.movRR .w64 d s)

def countSpill : LowerM Unit := modify fun c => { c with spills := c.spills + 1 }

def spill (i : Nat) : LowerM Unit := do
  let l ← stk (StackM.get i)
  match l.reg with
  | some r =>
    storeSlot r i l.type
    stk (StackM.markOnStack i)
  | none => pure ()

/-- A free register of `kind` outside `exclude`, marked used; when none is free, the
bottom-most holder of one is spilled. -/
def allocate (kind : RegKind) (exclude : RegSet := {}) : LowerM Reg := do
  let c ← get
  match c.stack.takeFree kind exclude with
  | some r =>
    stk (StackM.markUsed r)
    pure r
  | none =>
    match c.stack.stealTarget kind exclude with
    | none => throw (.registerAllocation kind)
    | some victim =>
      let r ← regOf (← stk (StackM.get victim))
      spill victim
      countSpill
      stk (StackM.markUsed r)
      pure r

def releaseReg (r : Reg) : LowerM Unit := stk (StackM.markUnused r)

def release (l : Location) : LowerM Unit :=
  match l.reg with
  | some r => releaseReg r
  | none => pure ()

def flagToRegister (f : Flag) : LowerM Reg := do
  let r ← allocate .gp
  asm (Asm.setcc (condOf f) r)
  asm (Asm.movzx8RR r r)
  pure r

def releaseAllToStack : LowerM Unit := do
  for i in (← get).stack.nonMemoryResident do
    let l ← stk (StackM.get i)
    if let some f := l.flag then
      let r ← flagToRegister f
      stk (StackM.setRegister i r)
    spill i

def materializeTopFlag : LowerM Unit := do
  match (← get).stack.slots.back? with
  | some top =>
    if let some f := top.flag then
      let i := (← get).stack.sp - 1
      let r ← flagToRegister f
      stk (StackM.setRegister i r)
  | none => pure ()

/-- Copy a popped value into `r` from wherever it lives; its old register is released. -/
def fillRegister (l : Location) (r : Reg) : LowerM Location := do
  let l ← match l.reg, l.flag with
    | some old, _ => do
      movValue r old l.type
      releaseReg old
      pure l
    | none, some f => do
      asm (Asm.setcc (condOf f) r)
      asm (Asm.movzx8RR r r)
      pure { l with type := .i32 }
    | none, none => do
      loadSlot r l.slot l.type
      pure l
  stk (StackM.markUsed r)
  pure (l.setRegister r)

def loadDetached (l : Location) (exclude : RegSet := {}) : LowerM Location := do
  match l.reg with
  | some r => if exclude.contains r then fillRegister l (← allocate l.regKind exclude) else pure l
  | none => fillRegister l (← allocate l.regKind exclude)

def popLocation : LowerM Location := do
  let top ← stk StackM.peek
  if top.type == .v128hi then stk StackM.popV128 else stk StackM.pop

def popToRegister : LowerM Location := do
  loadDetached (← popLocation)

/-- Move a popped value into exactly `fixed`, spilling the value holding it. -/
def moveToFixed (l : Location) (fixed : Reg) : LowerM Location := do
  if l.reg == some fixed then return l
  if let some owner := (← get).stack.registerOwner fixed then
    spill owner
    countSpill
  stk (StackM.markUsed fixed)
  fillRegister l fixed

def evict (r : Reg) : LowerM Unit := do
  if let some owner := (← get).stack.registerOwner r then
    spill owner
    countSpill

def pushRegister (r : Reg) (t : SlotType) : LowerM Unit :=
  if t == .v128lo then discard (stk (StackM.pushV128OnRegister r))
  else discard (stk (StackM.pushOnRegister r t))

def pushFlag (f : Flag) : LowerM Unit := discard (stk (StackM.pushOnFlag f))

def discardSlots : Nat → LowerM Unit
  | 0 => pure ()
  | n + 1 => do
    release (← stk StackM.pop)
    discardSlots n

def floatConst (is32 : Bool) (bits : UInt64) : LowerM Reg := do
  let r ← allocate .vector
  if bits == 0 then
    asm (Asm.vec .pxor r r)
  else
    asm (Asm.movRI64 scratchGp bits)
    asm (Asm.movGpToXmm (Width.of is32) r scratchGp)
  pure r

/-! Exits. -/

def writeExitStatus (st : Status) : LowerM Unit := do
  let sp ← disp (← get).stack.sp 1 .stackPointer
  asm (Asm.storeImm32 (ctx Abi.ctxStatus) st.code)
  asm (Asm.storeImm64 (ctx Abi.ctxStackPointer) sp)

/-- Leave generated code for good, recording where. The memory base register is
clobbered, so nothing resumes here. -/
def exit (st : Status) : LowerM Unit := do
  writeExitStatus st
  let here ← asm Asm.bindNew
  asm (Asm.leaLabel memoryBaseReg here)
  asm (Asm.store64 (ctx Abi.ctxReturnAddress) memoryBaseReg)
  asm Asm.ret

/-- Leave generated code so that the host can resume right after the exit. -/
def exitResumable (st : Status) : LowerM Unit := do
  writeExitStatus st
  let resume ← asm Asm.createLabel
  asm (Asm.leaLabel scratchGp resume)
  asm (Asm.store64 (ctx Abi.ctxReturnAddress) scratchGp)
  asm Asm.ret
  asm (Asm.bind resume)

def initStackBase : LowerM Unit := do
  asm (Asm.load64 stackBaseReg (ctx Abi.ctxStackStart))
  asm (Asm.addRM stackBaseReg (ctx Abi.ctxStackBase))

def initMemory : LowerM Unit := do
  if (← fn).module.hasMemory then
    asm (Asm.load64 memoryBaseReg (ctx Abi.ctxMemoryBase))

def callBuiltin (b : Builtin) : LowerM Unit := do
  asm (Asm.storeImm32 (ctx Abi.ctxBuiltin) b.code)
  exitResumable .callBuiltin
  initStackBase
  initMemory

def copyModuleField (tmp : Reg) (src dst : Int) : LowerM Unit := do
  asm (Asm.load64 tmp (.at moduleReg src))
  asm (Asm.store64 (ctx dst) tmp)

/-- Cache the module's resources in the call context unless it already holds them. -/
def initModuleContext : LowerM Unit := do
  let m := (← fn).module
  let tmp ← allocate .gp
  let field ← allocate .gp
  let done ← asm Asm.createLabel
  asm (Asm.cmpMR (ctx Abi.ctxModule) moduleReg)
  asm (Asm.jcc .e done)
  asm (Asm.store64 (ctx Abi.ctxModule) moduleReg)
  if !m.globals.isEmpty then copyModuleField tmp Abi.modGlobals Abi.ctxGlobals
  if m.hasMemory then
    copyModuleField tmp Abi.modMemory Abi.ctxMemoryRecord
    asm (Asm.load64 field (.at tmp Abi.memoryBase))
    asm (Asm.store64 (ctx Abi.ctxMemoryBase) field)
    asm (Asm.load64 field (.at tmp Abi.memoryLen))
    asm (Asm.store64 (ctx Abi.ctxMemoryLen) field)
  if m.hasTable then copyModuleField tmp Abi.modTables Abi.ctxTables
  if !m.functions.isEmpty then copyModuleField tmp Abi.modFunctions Abi.ctxFunctions
  if !m.types.isEmpty then copyModuleField tmp Abi.modTypeIds Abi.ctxTypeIds
  if m.dataCount > 0 then copyModuleField tmp Abi.modDataSegments Abi.ctxDataSegments
  if m.elementCount > 0 then
    copyModuleField tmp Abi.modElementSegments Abi.ctxElementSegments
  releaseReg tmp
  releaseReg field
  asm (Asm.bind done)

def nativeLabel (l : Label) : LowerM Nat := do
  match ((← get).labels.get? l).bind (·.native) with
  | some n => pure n
  | none =>
    let n ← asm Asm.createLabel
    modify fun c => { c with labels := (c.labels.nativeOrInsert l n).2 }
    pure n

end Lower

end OnePassJit.Amd64
