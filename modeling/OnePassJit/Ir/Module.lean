import OnePassJit.Ir.Operation

/-!
Module declarations and the per-function compilation input.

A function body may refer to globals, other functions' signatures, tables, a memory and
data or element segments of its module; `ModuleDecls` lists them. `FunctionIr` pairs a
body with its signature and the facts derived from the body: how many branch sites
target each label, and whether it touches linear memory.
-/

namespace OnePassJit

/-- A global declared by the module. -/
structure GlobalDecl where
  ty : ValueType
  mutable : Bool
  deriving DecidableEq, Repr, Inhabited

/-- A table declared by the module. -/
structure TableDecl where
  elementType : ValueType := .funcref
  min : UInt32
  max : Option UInt32
  deriving DecidableEq, Repr, Inhabited

/-- Everything a function body may refer to outside itself. -/
structure ModuleDecls where
  globals : Array GlobalDecl := #[]
  /-- Type index of every function of the module. -/
  functions : Array UInt32 := #[]
  types : Array Signature := #[]
  tables : Array TableDecl := #[]
  hasMemory : Bool := false
  dataCount : UInt32 := 0
  elementCount : UInt32 := 0
  deriving Repr, Inhabited

namespace ModuleDecls

def functionSignature? (m : ModuleDecls) (i : Nat) : Option Signature := do
  let t ← m.functions[i]?
  m.types[t.toNat]?

def hasTable (m : ModuleDecls) : Bool := !m.tables.isEmpty

end ModuleDecls

abbrev LabelCallers := List (Label × Nat)

namespace LabelCallers

def record (cs : LabelCallers) (l : Label) : LabelCallers :=
  match cs with
  | [] => [(l, 1)]
  | (k, n) :: rest => if k = l then (k, n + 1) :: rest else (k, n) :: record rest l

def count (cs : LabelCallers) (l : Label) : Nat :=
  match cs.find? (·.1 = l) with
  | some (_, n) => n
  | none => 0

/-- Branch sites of every label of a body; the return label is not counted. -/
def ofOperations (ops : List Operation) : LabelCallers :=
  ops.foldl (fun cs op =>
    (op.branchLabels.filter (!·.isReturn)).foldl record cs) []

end LabelCallers

/-- One function's IR with the facts the compiler derives from it. -/
structure FunctionIr where
  signature : Signature
  module : ModuleDecls
  operations : List Operation
  labelCallers : LabelCallers
  usesMemory : Bool
  isHost : Bool
  deriving Inhabited

namespace FunctionIr

/-- IR of a function body; callers and memory use come from the operations. -/
def ofBody (sig : Signature) (m : ModuleDecls) (ops : List Operation) : FunctionIr where
  signature := sig
  module := m
  operations := ops
  labelCallers := LabelCallers.ofOperations ops
  usesMemory := ops.any Operation.touchesMemory
  isHost := false

def host (sig : Signature) (m : ModuleDecls) : FunctionIr where
  signature := sig
  module := m
  operations := []
  labelCallers := []
  usesMemory := false
  isHost := true

end FunctionIr

end OnePassJit
