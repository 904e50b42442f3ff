import OnePassJit.Amd64.Emit

/-!
Function entry and exit, branches, calls and stack shuffling on amd64.

A label reached from more than one branch is entered with every value in memory, the
only state all paths can agree on; a label with one branch keeps that branch's
registers. A call stores the caller's frame base, function and return address in three
slots above the arguments, moves the frame base to the first argument and jumps to the
callee; a return reads them back, or exits to the host from the outermost frame.
-/

namespace OnePassJit.Amd64.Lower

/-- Grow the value stack until the function's ceiling fits above the frame base. The
ceiling is only known at the end, so its size in bytes is patched in then. -/
def emitStackCheck : LowerM Unit := do
  let tmp ← allocate .gp
  let check ← asm Asm.createLabel
  let fits ← asm Asm.createLabel
  asm (Asm.bind check)
  asm (Asm.load64 tmp (ctx Abi.ctxStackLen))
  asm (Asm.subRM tmp (ctx Abi.ctxStackBase))
  asm (Asm.aluRI .cmp .w64 tmp 0x7fffffff)
  let after ← asm Asm.bindNew
  asm (Asm.jcc .ae fits)
  releaseReg tmp
  modify fun c => { c with stackCheckPatch := some after }
  callBuiltin .growStack
  asm (Asm.jmp check)
  asm (Asm.bind fits)

/-- Entry sequence: stack layout, module context, stack check, listener. -/
def preamble : LowerM Unit := do
  stk (StackM.init (← fn).signature)
  initModuleContext
  emitStackCheck
  if (← get).listener then callBuiltin .listenerBefore
  initStackBase
  initMemory

def emitReturn : LowerM Unit := do
  releaseAllToStack
  if (← get).listener then callBuiltin .listenerAfter
  let frame := ValueStack.frameLocations (← fn).signature
  let ra ← allocate .gp
  let tmp ← allocate .gp
  let hasCaller ← asm Asm.createLabel
  asm (Asm.load64 ra (← slot frame.returnAddress))
  asm (Asm.testRR .w64 ra ra)
  asm (Asm.jcc .ne hasCaller)
  exit .returned
  asm (Asm.bind hasCaller)
  asm (Asm.load64 tmp (← slot frame.callerFunction))
  asm (Asm.store64 (ctx Abi.ctxFunction) tmp)
  asm (Asm.load64 moduleReg (.at tmp Abi.fnModule))
  asm (Asm.load64 tmp (← slot frame.callerBase))
  asm (Asm.store64 (ctx Abi.ctxStackBase) tmp)
  asm (Asm.jmpR ra)
  releaseReg tmp
  releaseReg ra

/-- Body of a host function: exit to the host with the arguments in place, then return
the results like any other function. -/
def hostFunction : LowerM Unit := do
  let sig := (← fn).signature
  stk (StackM.init sig)
  emitStackCheck
  initStackBase
  if (← get).listener then callBuiltin .listenerBefore
  exitResumable .callHost
  initStackBase
  -- The host may have entered other modules, so the cached module is stale.
  asm (Asm.storeImm64 (ctx Abi.ctxModule) 0)
  stk (StackM.truncate 0)
  for t in sig.results do
    discard (stk (StackM.pushValue t))
  emitReturn

/-- Bind an IR label; answers whether no branch reaches it, so that what follows up to
the next label is dead. -/
def bindLabel (l : Label) : LowerM Bool := do
  let (entry, labels) := (← get).labels.resolve l
  modify fun c => { c with labels }
  match entry with
  | none => pure true
  | some s =>
    let native ← nativeLabel l
    asm (Asm.bind native)
    modify fun c => { c with stack := c.stack.adopt s }
    pure false

def branchInto (target : Label) : LowerM Unit := do
  materializeTopFlag
  if target.isReturn then return ← emitReturn
  if (← fn).labelCallers.count target > 1 then releaseAllToStack
  modify fun c => { c with labels := c.labels.setEntryIfAbsent target c.stack }
  let native ← nativeLabel target
  asm (Asm.jmp native)

def dropRange : Option DropRange → LowerM Unit
  | none => pure ()
  | some r =>
    if r.start == 0 then discardSlots r.len.toNat
    else do
      materializeTopFlag
      for m in ← stk (StackM.dropRange r) do
        asm (Asm.copyQword (← slot m.dst) (← slot m.src))

def brIf (thenT elseT : BranchTarget) : LowerM Unit := do
  let cond ← stk StackM.pop
  let thenStub ← asm Asm.createLabel
  match cond.flag with
  | some f => asm (Asm.jcc (condOf f) thenStub)
  | none =>
    let cond ← loadDetached cond
    let r ← regOf cond
    asm (Asm.testRR .w32 r r)
    release cond
    asm (Asm.jcc .ne thenStub)
  let saved := (← get).stack
  dropRange elseT.drop
  branchInto elseT.label
  modify fun c => { c with stack := saved }
  asm (Asm.bind thenStub)
  dropRange thenT.drop
  branchInto thenT.label

def brTable (targets : List BranchTarget) (default : BranchTarget) : LowerM Unit := do
  let index ← popToRegister
  if targets.isEmpty then
    release index
    dropRange default.drop
    branchInto default.label
  else
    if targets.length ≥ Nat.pow 2 32 then throw (.codeGeneration .tooManyTargets)
    let idx ← regOf index
    let tmp ← allocate .gp
    -- An index out of range selects the default, stored last.
    asm (Asm.movRI32 tmp targets.length.toUInt32)
    asm (Asm.aluRR .cmp .w32 idx tmp)
    asm (Asm.cmovRR .ae .w32 idx tmp)
    let table ← asm Asm.createLabel
    asm (Asm.leaLabel tmp table)
    asm (Asm.load .u32 idx (.indexed tmp idx .s4 0))
    asm (Asm.aluRR .add .w64 tmp idx)
    asm (Asm.jmpR tmp)
    releaseReg tmp
    releaseReg idx
    let jt ← asm (Asm.jumpTable table (targets.length + 1))
    let saved := (← get).stack
    for (t, i) in (targets ++ [default]).zipIdx do
      modify fun c => { c with stack := saved }
      asm (Asm.bindTableTarget jt i)
      dropRange t.drop
      branchInto t.label

/-- Where a call goes. -/
inductive CallTarget where
  | direct (index : UInt32)
  /-- A register holding the address of the callee's function record. -/
  | indirect (r : Reg)

/-- Call `callee` with its arguments on top of the stack; its results replace them. -/
def emitCall (callee : Signature) (target : CallTarget) : LowerM Unit := do
  releaseAllToStack
  let exclude : RegSet := match target with
    | .indirect r => RegSet.empty.insert r
    | .direct _ => {}
  let tmp ← allocate .gp exclude
  let function ← match target with
    | .direct i => do
      let r ← allocate .gp
      asm (Asm.load64 r (ctx Abi.ctxFunctions))
      let off ← disp i.toNat Abi.fnSize .function
      if off != 0 then asm (Asm.aluRI .add .w64 r off)
      pure r
    | .indirect r => pure r
  let sp := (← get).stack.sp
  if sp < callee.paramSlots then throw (.invalidStack .callTooFewValues)
  let nextBase := sp - callee.paramSlots
  let frame ← stk (StackM.pushCallFrame callee)
  asm (Asm.load64 tmp (ctx Abi.ctxStackBase))
  asm (Asm.store64 (← slot frame.callerBase) tmp)
  let advance ← disp nextBase 8 .stackBase
  if advance != 0 then asm (Asm.aluRI .add .w64 tmp advance)
  asm (Asm.store64 (ctx Abi.ctxStackBase) tmp)
  asm (Asm.load64 tmp (ctx Abi.ctxFunction))
  asm (Asm.store64 (← slot frame.callerFunction) tmp)
  asm (Asm.store64 (ctx Abi.ctxFunction) function)
  let back ← asm Asm.createLabel
  asm (Asm.leaLabel tmp back)
  asm (Asm.store64 (← slot frame.returnAddress) tmp)
  asm (Asm.load64 tmp (.at function Abi.fnCode))
  asm (Asm.load64 moduleReg (.at function Abi.fnModule))
  asm (Asm.jmpR tmp)
  releaseReg tmp
  releaseReg function
  asm (Asm.bind back)
  initModuleContext
  initStackBase
  initMemory
  stk (StackM.truncate nextBase)
  for t in callee.results do
    discard (stk (StackM.pushValue t))

def call (index : UInt32) : LowerM Unit := do
  match (← fn).module.functionSignature? index.toNat with
  | some sig => emitCall sig (.direct index)
  | none => throw (.invalidIndex .function index)

/-- The signature check of a call through a table: the callee's type id, in the record
`function` points at, against the module's id of type `typeIndex`; `tmp` is a scratch
register. -/
def checkSignature (typeIndex : UInt32) (function tmp : Reg) : LowerM Unit := do
  asm (Asm.load64 tmp (ctx Abi.ctxTypeIds))
  asm (Asm.load .u32 tmp (.at tmp (← disp typeIndex.toNat 4 .type)))
  let typed ← asm Asm.createLabel
  asm (Asm.cmpRM .w32 tmp (.at function Abi.fnTypeId))
  asm (Asm.jcc .e typed)
  exit (.trap .indirectCallTypeMismatch)
  asm (Asm.bind typed)

/-- Call through a table: bounds, null and signature are checked at run time. -/
def callIndirect (typeIndex tableIndex : UInt32) : LowerM Unit := do
  let some callee := (← fn).module.types[typeIndex.toNat]?
    | throw (.invalidIndex .type typeIndex)
  let offset ← popToRegister
  let function ← regOf offset
  let tmp ← allocate .gp
  asm (Asm.load64 tmp (ctx Abi.ctxTables))
  asm (Asm.load64 tmp (.at tmp (← disp tableIndex.toNat 8 .table)))
  let inBounds ← asm Asm.createLabel
  asm (Asm.cmpRM .w64 function (.at tmp Abi.tableLen))
  asm (Asm.jcc .b inBounds)
  exit (.trap .invalidTableAccess)
  asm (Asm.bind inBounds)
  asm (Asm.load64 tmp (.at tmp Abi.tableElements))
  asm (Asm.load64 function (.indexed tmp function .s8 0))
  let notNull ← asm Asm.createLabel
  asm (Asm.testRR .w64 function function)
  asm (Asm.jcc .ne notNull)
  exit (.trap .invalidTableAccess)
  asm (Asm.bind notNull)
  checkSignature typeIndex function tmp
  releaseReg tmp
  emitCall callee (.indirect function)

def select (vector : Bool) : LowerM Unit := do
  let cond ← loadDetached (← stk StackM.pop)
  let x2 ← popToRegister
  let x1 ← popToRegister
  let c ← regOf cond
  let r1 ← regOf x1
  let r2 ← regOf x2
  asm (Asm.testRR .w32 c c)
  if vector || x1.regKind == .vector then
    let keep ← asm Asm.createLabel
    asm (Asm.jcc .ne keep)
    asm (Asm.vec .movdqa r1 r2)
    asm (Asm.bind keep)
  else
    asm (Asm.cmovRR .e .w64 r1 r2)
  release cond
  release x2
  pushRegister r1 x1.type

def depthIndex (depth : UInt32) : LowerM Nat := do
  let sp := (← get).stack.sp
  if sp < 1 + depth.toNat then throw (.invalidStack (.belowBottom depth))
  pure (sp - 1 - depth.toNat)

def pick (depth : UInt32) (vector : Bool) : LowerM Unit := do
  materializeTopFlag
  let i ← depthIndex depth
  let kind := (← stk (StackM.get i)).regKind
  let r ← allocate kind
  -- The allocation may have spilled the picked value.
  let picked ← stk (StackM.get i)
  if vector && picked.type != .v128lo then
    throw (.invalidStack (.pickOfVector i picked.type))
  match picked.reg with
  | some src => movValue r src picked.type
  | none => loadSlot r i picked.type
  pushRegister r picked.type

def setDepth (depth : UInt32) : LowerM Unit := do
  let i ← depthIndex depth
  let value ← popToRegister
  if let some old := (← stk (StackM.get i)).reg then releaseReg old
  stk (StackM.setRegister i (← regOf value))

end OnePassJit.Amd64.Lower
