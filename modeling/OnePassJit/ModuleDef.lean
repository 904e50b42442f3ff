import OnePassJit.Ir.Module

/-!
A module ready to be instantiated: lowered function bodies and the initial state of its
resources.

Types are kept as given; `ModuleDef.addType` reuses an equal earlier type. Host
functions name one of a fixed set of host routines. `ModuleDef.decls` is what the
compiler may know about the module.
-/

namespace OnePassJit

/-- The host routines a host function can stand for. -/
inductive HostRoutine where
  /-- The wrapping sum of all parameter slots. -/
  | sum
  /-- Parameters back as results; result slots beyond them hold their own index. -/
  | echo
  /-- Close the module with the first parameter as exit code. -/
  | close
  /-- Reject the call. -/
  | fail
  /-- Store the low byte of the second parameter at the address given by the first. -/
  | memWrite
  /-- Grow memory by the first parameter's pages. -/
  | memGrow
  /-- Memory length in bytes. -/
  | memSize
  deriving DecidableEq, Repr, Inhabited

/-- A host function: its routine, and the parameter types by which the routine reads
its frame. These are the parameters of its type as the module knew it when the function
was added, none when that type was not defined yet. -/
structure HostFunction where
  routine : HostRoutine
  params : List ValueType
  deriving Inhabited

/-- Body of a function of a module. -/
inductive FunctionBody where
  | code (ops : List Operation)
  | host (h : HostFunction)
  deriving Inhabited

structure FunctionDef where
  typeIndex : UInt32
  body : FunctionBody
  deriving Inhabited

/-- A global with its initial value; `hi` is the upper half of a vector. -/
structure GlobalDef where
  ty : ValueType
  mutable : Bool
  value : UInt64
  hi : UInt64 := 0
  deriving DecidableEq, Repr, Inhabited

/-- Where a segment goes at instantiation. -/
inductive SegmentMode where
  /-- Kept for `memory.init` / `table.init`. -/
  | passive
  /-- Copied at instantiation, then dropped. -/
  | active (offset : UInt32)
  deriving DecidableEq, Repr, Inhabited

structure DataSegment where
  mode : SegmentMode
  bytes : ByteArray
  deriving Inhabited

structure ElementSegment where
  table : UInt32
  mode : SegmentMode
  /-- Function indices, `none` for null references. -/
  functions : List (Option UInt32)
  deriving Inhabited

/-- A module definition. -/
structure ModuleDef where
  types : Array Signature := #[]
  functions : Array FunctionDef := #[]
  globals : Array GlobalDef := #[]
  /-- Minimum and maximum pages. -/
  memory : Option (UInt32 × UInt32) := none
  tables : Array TableDecl := #[]
  data : Array DataSegment := #[]
  elements : Array ElementSegment := #[]
  deriving Inhabited

namespace ModuleDef

/-- Index of a type equal to `sig`, appending it when there is none. -/
def addType (m : ModuleDef) (sig : Signature) : UInt32 × ModuleDef :=
  match m.types.findIdx? (· == sig) with
  | some i => (i.toUInt32, m)
  | none => (m.types.size.toUInt32, { m with types := m.types.push sig })

def pushFunction (m : ModuleDef) (typeIndex : UInt32) (body : FunctionBody) : ModuleDef :=
  { m with functions := m.functions.push ⟨typeIndex, body⟩ }

def addFunction (m : ModuleDef) (sig : Signature) (body : FunctionBody) : ModuleDef :=
  let (i, m) := m.addType sig
  m.pushFunction i body

/-- Parameters of type `i` as the module knows it now, none when it is not defined. -/
def paramsOf (m : ModuleDef) (i : UInt32) : List ValueType :=
  (m.types[i.toNat]?.map (·.params)).getD []

def addTable (m : ModuleDef) (min : UInt32) (max : Option UInt32) : ModuleDef :=
  { m with tables := m.tables.push { min, max } }

/-- What the compiler knows about the module. -/
def decls (m : ModuleDef) : ModuleDecls where
  globals := m.globals.map fun g => ⟨g.ty, g.mutable⟩
  functions := m.functions.map (·.typeIndex)
  types := m.types
  tables := m.tables
  hasMemory := m.memory.isSome
  dataCount := m.data.size.toUInt32
  elementCount := m.elements.size.toUInt32

/-- The IR of every function against the module's declarations, or the first type
index that is out of range. -/
def functionIrs (m : ModuleDef) : Except UInt32 (List FunctionIr) :=
  let d := m.decls
  m.functions.toList.mapM fun f =>
    match m.types[f.typeIndex.toNat]? with
    | none => .error f.typeIndex
    | some sig =>
      match f.body with
      | .code ops => .ok (FunctionIr.ofBody sig d ops)
      | .host _ => .ok (FunctionIr.host sig d)

end ModuleDef

end OnePassJit
