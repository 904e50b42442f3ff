import OnePassJit.Engine.Instance

/-!
Calling a function of an instance: the host loop around generated code.

A call gets a fresh value stack holding its parameters and a fresh call context, then
enters the function's code. Generated code runs until it exits to the host, with a
status in the call context: a return ends the call with the first result slots of the
stack; a host function or builtin routine is serviced and the code resumes where it
exited; a trap ends the call with the indices of the functions whose frames are on
the stack, innermost first. Everything the instance holds (memory, tables, globals,
exit code) keeps what the call did to it, also when the call fails.
-/

namespace OnePassJit

open Amd64

abbrev EngineM := ExceptT ExecutionError (StateM Instance)

def growFailed : UInt64 := 0xFFFFFFFF

/-- Slots of a call frame record: return address, caller's stack base, caller. -/
def callFrameSlots : Nat := 3

def stepsPerEntry : Nat := Nat.pow 2 40

def exitsPerCall : Nat := Nat.pow 2 40

/-- The mask of each slot of values of the given types: 32-bit values use the low half. -/
def slotMasks (ts : List ValueType) : List UInt64 :=
  ts.flatMap fun
    | .i32 | .f32 => [0xFFFFFFFF]
    | .v128 => [0xFFFFFFFFFFFFFFFF, 0xFFFFFFFFFFFFFFFF]
    | _ => [0xFFFFFFFFFFFFFFFF]

namespace Dispatch

def ctxAddr (field : Int) : UInt64 := Area.context.base + UInt64.ofInt field

def readCtx (field : Int) (n : Nat := 8) : EngineM UInt64 := do
  pure ((← get).space.peek (ctxAddr field) n)

def writeCtx (field : Int) (v : UInt64) (n : Nat := 8) : EngineM Unit :=
  modify fun inst => { inst with space := inst.space.poke (ctxAddr field) n v }

def stackLen : EngineM Nat := do
  let inst ← get
  pure ((inst.space.area .valueStack).size / 8)

def readSlot (i : Nat) : EngineM UInt64 := do
  pure (readLE ((← get).space.area .valueStack) (8 * i) 8)

def writeSlot (i : Nat) (v : UInt64) : EngineM Unit :=
  modify fun inst =>
    { inst with space := inst.space.poke (Area.valueStack.base + (8 * i).toUInt64) 8 v }

def readSlots (start n : Nat) : EngineM (List UInt64) :=
  (List.range n).mapM fun k => readSlot (start + k)

def stackBase : EngineM Nat := do pure ((← readCtx Abi.ctxStackBase) >>> 3).toNat

def enter (code module : UInt64) : EngineM Unit := do
  let inst ← get
  let top := Area.nativeStack.base + nativeStackSize.toUInt64
  let cpu := inst.cpu.setGp Machine.r13 Area.context.base
  let cpu := cpu.setGp Machine.r12 module
  let cpu := cpu.setGp Machine.rsp (top - 8)
  let mem := inst.space.poke (top - 8) 8 hostReturnAddress
  match Machine.runUntil inst.program hostReturnAddress stepsPerEntry
      { cpu := { cpu with rip := code }, mem } with
  | .ok m => set { inst with cpu := m.cpu, space := m.mem }
  | .error f => throw (.fault f)

def currentFunction : EngineM Nat := do
  let f ← readCtx Abi.ctxFunction
  match (← get).functionIndex? f with
  | some i => pure i
  | none => throw (.foreignFunction f)

def info (i : Nat) : EngineM FunctionInfo := do pure ((← get).functions.getD i default)

def refreshMemory : EngineM Unit := do
  if let some m := (← get).memory? then
    writeCtx Abi.ctxMemoryBase Area.memory.base
    writeCtx Abi.ctxMemoryLen m.size.toUInt64

/-- Grow the memory by `delta` pages: the previous page count, or `growFailed`. -/
def growMemory (m : LinearMemory) (delta : UInt64) : EngineM UInt64 :=
  match m.grow delta.toUInt32 with
  | some (old, m) => do
    modify (·.setMemory m)
    pure old.toUInt64
  | none => pure growFailed

/-- Run a host routine on its frame of slots; `params` are the parameter slots,
masked to their types. -/
def hostRoutine (r : HostRoutine) (params : List UInt64) (frame : List UInt64) :
    EngineM (List UInt64) := do
  let p (i : Nat) : UInt64 := params.getD i 0
  let firstThenZeros (v : UInt64) : List UInt64 := (List.range frame.length).map
    fun k => if k == 0 then v else 0
  let cleared := frame.map fun _ => (0 : UInt64)
  match r with
  | .sum => pure (firstThenZeros (params.foldl (· + ·) 0))
  | .echo => pure ((List.range frame.length).map fun k =>
      if k < params.length then p k else k.toUInt64)
  | .close =>
    modify (·.close (p 0).toUInt32)
    pure cleared
  | .fail => throw (.invalidArguments s!"host rejected {p 0}")
  | .memWrite =>
    let some m := (← get).memory? | throw (.unsupported "host write without memory")
    let addr := (p 0).toNat
    match m.write? addr ⟨#[(p 1).toUInt8]⟩ with
    | some m =>
      modify (·.setMemory m)
      pure cleared
    | none => throw (.unsupported "host write out of bounds")
  | .memGrow =>
    let some m := (← get).memory? | throw (.unsupported "host grow without memory")
    pure (firstThenZeros (← growMemory m (p 0)))
  | .memSize =>
    let len := match (← get).memory? with
      | some m => m.size
      | none => 0
    pure (firstThenZeros len.toUInt64)

def callHost : EngineM Unit := do
  let index ← currentFunction
  let fi ← info index
  let some h := fi.host | throw (.unsupported s!"function {index} is not a host function")
  let base ← stackBase
  let len := fi.signature.frameOffset
  if base + len > (← stackLen) then throw (.unsupported "host frame outside the stack")
  let frame ← readSlots base len
  let params := (frame.zip (slotMasks h.params)).map fun (v, m) => v &&& m
  let frame ← hostRoutine h.routine params frame
  frame.zipIdx.forM fun (v, k) => writeSlot (base + k) v
  refreshMemory

/-- Replace the value stack by one twice as long plus the running function's ceiling. -/
def growStack : EngineM Unit := do
  let oldLen ← stackLen
  if oldLen > (← get).config.callStackCeiling then throw .stackOverflow
  let index ← currentFunction
  let newLen := oldLen * 2 + (← info index).ceil
  modify fun inst =>
    let stack := resizeBytes (inst.space.area .valueStack) (8 * newLen)
    { inst with space := inst.space.setArea .valueStack stack }
  writeCtx Abi.ctxStackLen (8 * newLen).toUInt64

def callBuiltin : EngineM Unit := do
  let raw ← readCtx Abi.ctxBuiltin 4
  let some b := Builtin.ofCode? raw.toUInt32 | throw (.unsupported s!"unknown builtin {raw}")
  let base ← stackBase
  let top := base + (← readCtx Abi.ctxStackPointer).toNat
  match b with
  | .growStack => growStack
  | .memoryGrow =>
    let some m := (← get).memory? | throw (.unsupported "memory.grow without memory")
    if top == 0 || top > (← stackLen) then throw (.unsupported "memory.grow with an empty stack")
    let delta ← readSlot (top - 1)
    writeSlot (top - 1) (← growMemory m delta)
    refreshMemory
  | .tableGrow =>
    if top < 3 || top > (← stackLen) then throw (.unsupported "table.grow with a short stack")
    let init ← readSlot (top - 3)
    let delta := (← readSlot (top - 2)).toUInt32
    let t := (← readSlot (top - 1)).toUInt32
    let some table := (← get).table? t.toNat | throw (.compile (.invalidIndex .table t))
    match table.grow delta init with
    | some (old, table) =>
      modify (·.setTable t.toNat table)
      writeSlot (top - 3) old.toUInt64
    | none => writeSlot (top - 3) growFailed
  | .listenerBefore =>
    let index ← currentFunction
    let n := (← info index).signature.paramSlots
    let vs ← if base + n ≤ (← stackLen) then readSlots base n else pure []
    modify fun inst => { inst with events := inst.events.push (.before index vs) }
  | .listenerAfter =>
    let index ← currentFunction
    let n := (← info index).signature.resultSlots
    let vs ← if base + n ≤ (← stackLen) then readSlots base n else pure []
    modify fun inst => { inst with events := inst.events.push (.after index vs) }
  | .checkExitCode =>
    if let some c := (← get).exitCode then throw (.moduleClosed c)

/-- Function indices of the frames on the stack, innermost first: each frame record
names the caller and its stack base; a zero return address marks the outermost. -/
def backtrace : EngineM (List Nat) := do
  let stack := (← get).space.area .valueStack
  let len := stack.size / 8
  let slot (i : Nat) : UInt64 := readLE stack (8 * i) 8
  let inst ← get
  let rec walk (fuel : Nat) (function : UInt64) (base : Nat) (frames : List Nat) : List Nat :=
    match fuel with
    | 0 => frames
    | fuel + 1 =>
      match inst.functionIndex? function with
      | none => frames
      | some index =>
        let frames := frames ++ [index]
        if frames.length > len then frames else
        let offset := base + (inst.functions.getD index default).signature.frameOffset
        if offset + callFrameSlots > len then frames else
        if slot offset == 0 then frames else
        walk fuel (slot (offset + 2)) (slot (offset + 1) >>> 3).toNat frames
  pure (walk (len + 2) (← readCtx Abi.ctxFunction) (← stackBase) [])

def loop : Nat → UInt64 → UInt64 → EngineM Unit
  | 0, _, _ => throw (.fault .outOfSteps)
  | fuel + 1, code, module => do
    enter code module
    let raw ← readCtx Abi.ctxStatus 4
    match Status.ofCode? raw.toUInt32 with
    | none => throw (.unsupported s!"unknown status code {raw}")
    | some .returned => pure ()
    | some .moduleClosed => throw (.moduleClosed ((← get).exitCode.getD 0))
    | some (.trap k) => throw (.trap k (← backtrace))
    | some .callHost | some .callBuiltin =>
      if raw.toUInt32 == Status.callHost.code then callHost else callBuiltin
      let code ← readCtx Abi.ctxReturnAddress
      let m ← readCtx Abi.ctxModule
      loop fuel code (if m != 0 then m else module)

end Dispatch

namespace Instance

open Dispatch in
/-- Call function `index` with one value per slot; answers its result slots. -/
def call (index : UInt32) (params : List UInt64) : EngineM (List UInt64) := do
  let inst ← get
  if let some c := inst.exitCode then throw (.moduleClosed c)
  if inst.config.compiler.arch != .amd64 then
    throw (.unsupported s!"code compiled for {inst.config.compiler.arch.name} cannot run on this host")
  let some fi := inst.functions[index.toNat]? | throw (.unknownFunction index)
  let sig := fi.signature
  if params.length != sig.paramSlots then
    throw (.invalidArguments
      s!"function {index} takes {sig.paramSlots} slots, got {params.length}")
  let slots := max inst.config.initialStackSlots (sig.frameOffset + callFrameSlots)
  let stack := params.zipIdx.foldl (fun b (v, k) => writeLE b (8 * k) 8 v) (zeros (8 * slots))
  let ctx := writeLE (zeros Abi.ctxSize) Abi.ctxFunction.toNat 8 (functionRecord index.toNat)
  let ctx := writeLE ctx Abi.ctxStackStart.toNat 8 Area.valueStack.base
  let ctx := writeLE ctx Abi.ctxStackLen.toNat 8 (8 * slots).toUInt64
  set { inst with space := (inst.space.setArea .valueStack stack).setArea .context ctx }
  loop exitsPerCall (inst.space.peek (functionRecord index.toNat) 8) Area.module.base
  readSlots 0 sig.resultSlots

end Instance

end OnePassJit
