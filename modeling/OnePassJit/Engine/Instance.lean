import OnePassJit.Engine.Error
import OnePassJit.Engine.Image
import OnePassJit.ModuleDef
import OnePassJit.Session
import OnePassJit.CodeSegment
import OnePassJit.Instance.Memory
import OnePassJit.Instance.Table

/-!
Instantiating a module: compiling every function, laying the code out in one segment
and placing every structure the code addresses.

Signatures get engine-wide ids, dense in order of first appearance, so that an
indirect call compares plain integers. Element segments are resolved to function
references and data segments copied in order; an active segment is copied into its
table or memory and then kept empty, a passive one is kept for `table.init` and
`memory.init`. A segment that does not fit traps, with no frames.
-/

namespace OnePassJit

open Amd64

/-- What the host knows about one function. -/
structure FunctionInfo where
  signature : Signature
  /-- Deepest value stack the function needs, in slots. -/
  ceil : Nat
  host : Option HostFunction
  deriving Inhabited

/-- One call of the listener hooks: the function and the slots it saw. -/
inductive ListenerEvent where
  | before (function : Nat) (params : List UInt64)
  | after (function : Nat) (results : List UInt64)
  deriving Inhabited

/-- An instantiated module. -/
structure Instance where
  config : EngineConfig
  functions : Array FunctionInfo
  program : Program
  segment : CodeSegment
  /-- Everything generated code addresses. -/
  space : AddressSpace
  cpu : Cpu := {}
  /-- Maximum pages of the memory, if there is one. -/
  memoryMax : Option UInt32
  /-- Declared maximum of every table. -/
  tableMax : Array (Option UInt32)
  globalTypes : Array ValueType
  exitCode : Option UInt32 := none
  /-- Listener calls recorded so far. -/
  events : Array ListenerEvent := #[]
  deriving Inhabited

/-- Engine-wide id of `s` given the signatures `seen` so far, in order of first appearance,
and the signatures seen after: a signature seen before keeps its id, a new one takes the
next. -/
def typeId (seen : List Signature) (s : Signature) : UInt32 × List Signature :=
  match seen.idxOf? s with
  | some i => (i.toUInt32, seen)
  | none => (seen.length.toUInt32, seen ++ [s])

/-- Intern one more signature: the signatures seen and the ids given so far. -/
def internStep (acc : List Signature × List UInt32) (s : Signature) : List Signature × List UInt32 :=
  let (id, seen) := typeId acc.1 s
  (seen, acc.2 ++ [id])

/-- Ids of `types` from the registry `seen`, and the registry after them: equal signatures
share the id of the first. -/
def internTypes (seen types : List Signature) : List Signature × List UInt32 :=
  types.foldl internStep (seen, [])

/-- An engine: its configuration and its type registry, the signatures given ids so far in
order of first appearance. Every module the engine instantiates takes its type ids from
the one registry. -/
structure Engine where
  config : EngineConfig
  types : List Signature := []

def programOf (compiled : List Compiled) (offsets : List Nat) (size : Nat) : Program :=
  let base := Area.code.base
  let place (slots : Array (Option (Instr UInt64 × Nat))) (c : Compiled × Nat) :=
    match c.1.listing with
    | .amd64 placed =>
      placed.foldl (fun slots p =>
        let origin := base + (c.2 : Nat).toUInt64
        slots.set! (c.2 + p.offset)
          (some (p.instr.mapTarget fun t => origin + t.toUInt64, p.bytes.length))) slots
    | .arm64 => slots
  { base, slots := (compiled.zip offsets).foldl place (Array.replicate size none) }

namespace Instance

def functionReference? (inst : Instance) (i : UInt32) : Option UInt64 :=
  if i.toNat < inst.functions.size then some (functionRecord i.toNat) else none

def functionIndex? (inst : Instance) (ref : UInt64) : Option Nat :=
  OnePassJit.functionIndex? inst.functions.size ref

def memory? (inst : Instance) : Option LinearMemory :=
  inst.memoryMax.map (LinearMemory.ofBytes (inst.space.area .memory))

def setMemory (inst : Instance) (m : LinearMemory) : Instance :=
  let space := inst.space.setArea .memory m.bytes
  let len := m.size.toUInt64
  { inst with space := space.poke (Area.memoryRecord.base + UInt64.ofInt Abi.memoryLen) 8 len }

def tableCount (inst : Instance) : Nat := inst.tableMax.size

def table? (inst : Instance) (i : Nat) : Option RefTable :=
  inst.tableMax[i]?.map fun mx => ⟨bytesToWords (inst.space.area (.tableElements i)), mx⟩

def setTable (inst : Instance) (i : Nat) (t : RefTable) : Instance :=
  let space := inst.space.setArea (.tableElements i) (wordsToBytes t.elements)
  let len := t.elements.size.toUInt64
  { inst with space := space.poke (tableRecord i + UInt64.ofInt Abi.tableLen) 8 len }

def global (inst : Instance) (i : Nat) : UInt64 × UInt64 :=
  (inst.space.peek (globalRecord i + UInt64.ofInt Abi.globalValue) 8,
    inst.space.peek (globalRecord i + UInt64.ofInt Abi.globalHigh) 8)

def close (inst : Instance) (code : UInt32) : Instance :=
  if inst.exitCode.isSome then inst else { inst with exitCode := some code }

def writeMemory (inst : Instance) (addr : Nat) (data : ByteArray) : Instance × Bool :=
  match inst.memory? with
  | none => (inst, false)
  | some m =>
    match m.write? addr data with
    | some m => (inst.setMemory m, true)
    | none => (inst, false)

end Instance

/-- Records of a list of byte runs placed in consecutive regions from `area 0`. -/
def segmentRecords (area : Nat → Area) (lens : List Nat) : ByteArray :=
  wordsToBytes ((lens.zipIdx.map fun (len, i) => #[(area i).base, len.toUInt64]).toArray.flatten)

/-- Resolve the references of element segments and copy the active ones; answers the
kept references of every segment. -/
def initElements (inst : Instance) (segs : List ElementSegment) :
    Except ExecutionError (Instance × List (Array UInt64)) :=
  segs.foldlM (fun (acc : Instance × List (Array UInt64)) seg => do
    let (inst, kept) := acc
    let refs ← seg.functions.toArray.mapM fun
      | some i =>
        match inst.functionReference? i with
        | some r => .ok r
        | none => .error (.unknownFunction i)
      | none => .ok 0
    match seg.mode with
    | .active offset =>
      let some t := inst.table? seg.table.toNat
        | throw (.compile (.invalidIndex .table seg.table))
      if offset.toNat + refs.size ≤ t.size then
        let elements := (List.range refs.size).foldl
          (fun es k => es.set! (offset.toNat + k) (refs.getD k 0)) t.elements
        pure (inst.setTable seg.table.toNat { t with elements }, kept ++ [#[]])
      else throw (.trap .invalidTableAccess [])
    | .passive => pure (inst, kept ++ [refs])) (inst, [])

/-- Copy the active data segments into memory; answers the kept bytes of every segment. -/
def initData (inst : Instance) (segs : List DataSegment) :
    Except ExecutionError (Instance × List ByteArray) :=
  segs.foldlM (fun (acc : Instance × List ByteArray) seg => do
    let (inst, kept) := acc
    match seg.mode with
    | .active offset =>
      let some m := inst.memory? | throw (.unsupported "active data segment without memory")
      match m.write? offset.toNat seg.bytes with
      | some m => pure (inst.setMemory m, kept ++ [.empty])
      | none => throw (.trap .memoryOutOfBounds [])
    | .passive => pure (inst, kept ++ [seg.bytes])) (inst, [])

/-- Record `i` written into `b`: code address, type id, module record and index. -/
def writeFunctionRecord (b : ByteArray) (i : Nat) (code : UInt64) (typeId : UInt32) : ByteArray :=
  let r := i * Abi.fnSize
  let b := writeLE b r 8 code
  let b := writeLE b (r + 8) 4 typeId.toUInt64
  let b := writeLE b (r + 16) 8 Area.module.base
  writeLE b (r + 24) 4 i.toUInt64

def functionRecords (m : ModuleDef) (offsets : List Nat) (typeIds : List UInt32) : ByteArray :=
  (List.range m.functions.size).foldl (fun b i =>
    writeFunctionRecord b i (Area.code.base + (offsets.getD i 0).toUInt64)
      (typeIds.getD (m.functions.getD i default).typeIndex.toNat 0))
    (zeros (m.functions.size * Abi.fnSize))

def typeIdBytes (typeIds : List UInt32) : ByteArray :=
  typeIds.foldl (fun b t => writeLE (b ++ zeros 4) b.size 4 t.toUInt64) .empty

/-- The address space of a fresh instance: code, records and initial contents. -/
def initialSpace (m : ModuleDef) (segment : CodeSegment) (offsets : List Nat)
    (typeIds : List UInt32) : AddressSpace :=
  let globals := m.globals.toList.zipIdx.foldl (fun b (g, i) =>
    let b := writeLE b (i * Abi.globalSize + 8) 8 g.value
    writeLE b (i * Abi.globalSize + 16) 8 g.hi) (zeros (m.globals.size * Abi.globalSize))
  let modRecord := wordsToBytes #[Area.globalPointers.base,
    if m.memory.isSome then Area.memoryRecord.base else 0, Area.tablePointers.base,
    Area.functions.base, Area.typeIds.base, Area.dataRecords.base, Area.elementRecords.base]
  let memBytes := match m.memory with
    | some (lo, hi) => (LinearMemory.new lo hi).bytes
    | none => .empty
  let space : AddressSpace := {}
  let space := space.setArea .code segment.bytes
  let space := space.setArea .context (zeros Abi.ctxSize)
  let space := space.setArea .nativeStack (zeros nativeStackSize)
  let space := space.setArea .module modRecord
  let space := space.setArea .functions (functionRecords m offsets typeIds)
  let space := space.setArea .globals globals
  let space := space.setArea .globalPointers
    (wordsToBytes ((Array.range m.globals.size).map globalRecord))
  let space := space.setArea .memoryRecord (wordsToBytes #[Area.memory.base, memBytes.size.toUInt64])
  let space := space.setArea .memory memBytes
  let space := space.setArea .tablePointers
    (wordsToBytes ((Array.range m.tables.size).map tableRecord))
  let space := space.setArea .tableRecords
    (segmentRecords Area.tableElements (m.tables.toList.map (·.min.toNat)))
  let space := space.setArea .typeIds (typeIdBytes typeIds)
  m.tables.toList.zipIdx.foldl (fun space (t, i) =>
    space.setArea (.tableElements i) (zeros (8 * t.min.toNat))) space

def compileFunctions (cfg : EngineConfig) (m : ModuleDef) :
    Except ExecutionError (List FunctionIr × List Compiled) := do
  let irs ← match m.functionIrs with
    | .ok irs => pure irs
    | .error i => throw (.compile (.invalidIndex .type i))
  let (compiled, _) ← match compileModule cfg.compiler irs with
    | .ok r => pure r
    | .error e => throw (.compile e)
  pure (irs, compiled)

def layOut (cfg : EngineConfig) (m : ModuleDef) (irs : List FunctionIr)
    (compiled : List Compiled) (typeIds : List UInt32) : Except ExecutionError Instance := do
  let codes := compiled.map (·.code)
  let segment := CodeSegment.ofFunctions codes
  let offsets := CodeSegment.offsets codes
  let functions := (m.functions.toList.zip (irs.zip compiled)).map fun (f, ir, c) =>
    { signature := ir.signature, ceil := c.ceil,
      host := match f.body with
        | .host h => some h
        | .code _ => none : FunctionInfo }
  let inst : Instance :=
    { config := cfg, functions := functions.toArray
      program := programOf compiled offsets segment.size
      segment
      space := initialSpace m segment offsets typeIds
      memoryMax := m.memory.map (·.2)
      tableMax := m.tables.map (·.max)
      globalTypes := m.globals.map (·.ty) }
  let (inst, refs) ← initElements inst m.elements.toList
  let (inst, bytes) ← initData inst m.data.toList
  let space := inst.space.setArea .elementRecords
    (segmentRecords Area.elementRefs (refs.map (·.size)))
  let space := space.setArea .dataRecords (segmentRecords Area.dataBytes (bytes.map (·.size)))
  let space := refs.zipIdx.foldl (fun s (r, i) => s.setArea (.elementRefs i) (wordsToBytes r)) space
  let space := bytes.zipIdx.foldl (fun s (b, i) => s.setArea (.dataBytes i) b) space
  pure { inst with space }

/-- Compile and lay out a module on an engine. Once the functions compile, the module's types
take their ids from the engine's registry, which keeps them for later modules also when
laying out fails. -/
def instantiate (m : ModuleDef) : EStateM ExecutionError Engine Instance := do
  let engine ← get
  let (irs, compiled) ← MonadExcept.ofExcept (compileFunctions engine.config m)
  let (types, typeIds) := internTypes engine.types m.types.toList
  set { engine with types }
  MonadExcept.ofExcept (layOut engine.config m irs compiled typeIds)

end OnePassJit
