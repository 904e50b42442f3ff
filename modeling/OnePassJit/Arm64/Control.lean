import OnePassJit.Arm64.Emit

/-!
Function entry and exit, branches, calls and stack shuffling on arm64.

The control flow follows amd64: a label reached from more than one branch is entered
with every value in memory, and a call stores the caller's frame base, function and
return address in three slots above the arguments before it branches to the callee.
The stack check compares the free stack bytes with a `movz`/`movk` pair that gets the
function's ceiling once it is known.
-/

namespace OnePassJit.Arm64.Lower

/-- Grow the value stack until the function's ceiling fits above the frame base. -/
def emitStackCheck : LowerM Unit := do
  let check ← asm Enc.bindNew
  let fits ← asm Enc.createLabel
  loadCtx scratch0 Abi.ctxStackLen
  loadCtx scratch1 Abi.ctxStackBase
  asm (Enc.subRR .w64 scratch0 scratch0 scratch1)
  let patch ← asm (Enc.movImm32Patchable scratch1)
  modify fun c => { c with stackCheckPatch := some patch }
  asm (Enc.cmpRR .w64 scratch0 scratch1)
  asm (Enc.bCond .hs fits)
  callBuiltin .growStack
  asm (Enc.b check)
  asm (Enc.bind fits)

/-- Entry sequence: stack layout, module context, stack check, listener. -/
def preamble : LowerM Unit := do
  stk (StackM.init (← fn).signature)
  initModuleContext
  emitStackCheck
  if (← get).listener then callBuiltin .listenerBefore
  initStackBase
  initMemory

def emitReturn : LowerM Unit := do
  releaseAllToStack
  if (← get).listener then callBuiltin .listenerAfter
  let frame := ValueStack.frameLocations (← fn).signature
  let hasCaller ← asm Enc.createLabel
  asm (Enc.load64 scratch0 stackBaseReg (← slot frame.returnAddress))
  asm (Enc.cbnz .w64 scratch0 hasCaller)
  exit .returned
  asm (Enc.bind hasCaller)
  asm (Enc.load64 scratch1 stackBaseReg (← slot frame.callerFunction))
  storeCtx scratch1 Abi.ctxFunction
  asm (Enc.load64 moduleReg scratch1 Abi.fnModule)
  asm (Enc.load64 scratch1 stackBaseReg (← slot frame.callerBase))
  storeCtx scratch1 Abi.ctxStackBase
  asm (Enc.br scratch0)

/-- Body of a host function: exit to the host with the arguments in place, then return
the results like any other function. -/
def hostFunction : LowerM Unit := do
  let sig := (← fn).signature
  stk (StackM.init sig)
  emitStackCheck
  initStackBase
  if (← get).listener then callBuiltin .listenerBefore
  exitResumable .callHost
  initStackBase
  -- The host may have entered other modules, so the cached module is stale.
  storeCtx zr Abi.ctxModule
  stk (StackM.truncate 0)
  for t in sig.results do
    discard (stk (StackM.pushValue t))
  emitReturn

def bindLabel (l : Label) : LowerM Bool := do
  let (entry, labels) := (← get).labels.resolve l
  modify fun c => { c with labels }
  match entry with
  | none => pure true
  | some s =>
    let native ← nativeLabel l
    asm (Enc.bind native)
    modify fun c => { c with stack := c.stack.adopt s }
    pure false

def branchInto (target : Label) : LowerM Unit := do
  materializeTopFlag
  if target.isReturn then return ← emitReturn
  if (← fn).labelCallers.count target > 1 then releaseAllToStack
  modify fun c => { c with labels := c.labels.setEntryIfAbsent target c.stack }
  let native ← nativeLabel target
  asm (Enc.b native)

def dropRange : Option DropRange → LowerM Unit
  | none => pure ()
  | some r =>
    if r.start == 0 then discardSlots r.len.toNat
    else do
      materializeTopFlag
      for m in ← stk (StackM.dropRange r) do
        asm (Enc.load64 scratch0 stackBaseReg (← slot m.src))
        asm (Enc.store64 scratch0 stackBaseReg (← slot m.dst))

def brIf (thenT elseT : BranchTarget) : LowerM Unit := do
  let cond ← stk StackM.pop
  let thenStub ← asm Enc.createLabel
  match cond.flag with
  | some f => asm (Enc.bCond (condOf f) thenStub)
  | none =>
    let cond ← loadDetached cond
    asm (Enc.cbnz .w32 (← regOf cond) thenStub)
    release cond
  let saved := (← get).stack
  dropRange elseT.drop
  branchInto elseT.label
  modify fun c => { c with stack := saved }
  asm (Enc.bind thenStub)
  dropRange thenT.drop
  branchInto thenT.label

/-- An indexed jump through a table of offsets from the table's start; an index out of
range selects the default, stored last. -/
def brTable (targets : List BranchTarget) (default : BranchTarget) : LowerM Unit := do
  let index ← popToRegister
  if targets.isEmpty then
    release index
    dropRange default.drop
    branchInto default.label
  else
    let idx ← regOf index
    asm (Enc.movImm scratch0 targets.length.toUInt64)
    asm (Enc.cmpRR .w32 idx scratch0)
    asm (Enc.csel .w32 idx scratch0 idx .hs)
    let table ← asm Enc.createLabel
    asm (Enc.adr scratch0 table)
    asm (Enc.loadIndexed .u32 scratch1 scratch0 idx true)
    asm (Enc.addRR .w64 scratch0 scratch0 scratch1)
    asm (Enc.br scratch0)
    releaseReg idx
    let stubs ← (targets ++ [default]).mapM fun _ => asm Enc.createLabel
    asm (Enc.jumpTable table stubs)
    let saved := (← get).stack
    for (t, stub) in (targets ++ [default]).zip stubs do
      modify fun c => { c with stack := saved }
      asm (Enc.bind stub)
      dropRange t.drop
      branchInto t.label

/-- Where a call goes. -/
inductive CallTarget where
  | direct (index : UInt32)
  /-- A register holding the address of the callee's function record. -/
  | indirect (r : Reg)

/-- Call `callee` with its arguments on top of the stack; its results replace them. -/
def emitCall (callee : Signature) (target : CallTarget) : LowerM Unit := do
  releaseAllToStack
  let function ← match target with
    | .direct i => do
      let r ← allocate .gp
      loadCtx r Abi.ctxFunctions
      let off ← scaled i.toNat Abi.fnSize .function
      if off != 0 then asm (Enc.addRI .w64 r r off.toNat.toUInt64)
      pure r
    | .indirect r => pure r
  let sp := (← get).stack.sp
  if sp < callee.paramSlots then throw (.invalidStack .callTooFewValues)
  let nextBase := sp - callee.paramSlots
  let frame ← stk (StackM.pushCallFrame callee)
  loadCtx scratch0 Abi.ctxStackBase
  asm (Enc.store64 scratch0 stackBaseReg (← slot frame.callerBase))
  let advance ← slot nextBase
  if advance != 0 then asm (Enc.addRI .w64 scratch0 scratch0 advance.toNat.toUInt64)
  storeCtx scratch0 Abi.ctxStackBase
  loadCtx scratch0 Abi.ctxFunction
  asm (Enc.store64 scratch0 stackBaseReg (← slot frame.callerFunction))
  storeCtx function Abi.ctxFunction
  let back ← asm Enc.createLabel
  asm (Enc.adr scratch0 back)
  asm (Enc.store64 scratch0 stackBaseReg (← slot frame.returnAddress))
  asm (Enc.load64 scratch0 function Abi.fnCode)
  asm (Enc.load64 moduleReg function Abi.fnModule)
  asm (Enc.br scratch0)
  releaseReg function
  asm (Enc.bind back)
  initModuleContext
  initStackBase
  initMemory
  stk (StackM.truncate nextBase)
  for t in callee.results do
    discard (stk (StackM.pushValue t))

def call (index : UInt32) : LowerM Unit := do
  match (← fn).module.functionSignature? index.toNat with
  | some sig => emitCall sig (.direct index)
  | none => throw (.invalidIndex .function index)

/-- Call through a table: bounds, null and signature are checked at run time. -/
def callIndirect (typeIndex tableIndex : UInt32) : LowerM Unit := do
  let some callee := (← fn).module.types[typeIndex.toNat]?
    | throw (.invalidIndex .type typeIndex)
  let offset ← popToRegister
  let function ← regOf offset
  loadCtx scratch0 Abi.ctxTables
  asm (Enc.load64 scratch0 scratch0 (← scaled tableIndex.toNat 8 .table))
  asm (Enc.load64 scratch1 scratch0 Abi.tableLen)
  let inBounds ← asm Enc.createLabel
  asm (Enc.cmpRR .w64 function scratch1)
  asm (Enc.bCond .lo inBounds)
  exit (.trap .invalidTableAccess)
  asm (Enc.bind inBounds)
  asm (Enc.load64 scratch0 scratch0 Abi.tableElements)
  asm (Enc.loadIndexed .u64 function scratch0 function true)
  let notNull ← asm Enc.createLabel
  asm (Enc.cbnz .w64 function notNull)
  exit (.trap .invalidTableAccess)
  asm (Enc.bind notNull)
  loadCtx scratch0 Abi.ctxTypeIds
  asm (Enc.load .u32 scratch0 scratch0 (← scaled typeIndex.toNat 4 .type))
  asm (Enc.load .u32 scratch1 function Abi.fnTypeId)
  let typed ← asm Enc.createLabel
  asm (Enc.cmpRR .w32 scratch0 scratch1)
  asm (Enc.bCond .eq typed)
  exit (.trap .indirectCallTypeMismatch)
  asm (Enc.bind typed)
  emitCall callee (.indirect function)

def select (vector : Bool) : LowerM Unit := do
  let cond ← loadDetached (← stk StackM.pop)
  let x2 ← popToRegister
  let x1 ← popToRegister
  let c ← regOf cond
  let r1 ← regOf x1
  let r2 ← regOf x2
  if vector || x1.regKind == .vector then
    let keep ← asm Enc.createLabel
    asm (Enc.cbnz .w32 c keep)
    asm (Enc.vmov r1 r2)
    asm (Enc.bind keep)
  else
    asm (Enc.cmpRI .w32 c 0)
    asm (Enc.csel .w64 r1 r1 r2 .ne)
  release cond
  release x2
  pushRegister r1 x1.type

def depthIndex (depth : UInt32) : LowerM Nat := do
  let sp := (← get).stack.sp
  if sp < 1 + depth.toNat then throw (.invalidStack (.belowBottom depth))
  pure (sp - 1 - depth.toNat)

def pick (depth : UInt32) (vector : Bool) : LowerM Unit := do
  materializeTopFlag
  let i ← depthIndex depth
  let kind := (← stk (StackM.get i)).regKind
  let r ← allocate kind
  -- The allocation may have spilled the picked value.
  let picked ← stk (StackM.get i)
  if vector && picked.type != .v128lo then
    throw (.invalidStack (.pickOfVector i picked.type))
  match picked.reg with
  | some src => movValue r src picked.type
  | none => loadSlot r i picked.type
  pushRegister r picked.type

def setDepth (depth : UInt32) : LowerM Unit := do
  let i ← depthIndex depth
  let value ← popToRegister
  if let some old := (← stk (StackM.get i)).reg then releaseReg old
  stk (StackM.setRegister i (← regOf value))

end OnePassJit.Arm64.Lower
