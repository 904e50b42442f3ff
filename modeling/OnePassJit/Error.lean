import OnePassJit.Location

/-!
Why compiling a function can fail.

Every failure aborts the function. The causes are data (`StackFault`, `EncodeError`,
`CompileError`); the wording of each lives in one `message` function per type, and the
name of the cause's class in `CompileError.kind`.
-/

namespace OnePassJit

/-- Misuse of the operand stack by an IR body. -/
inductive StackFault where
  | popEmpty
  | peekEmpty
  | beyond (index sp : Nat)
  | notVector (lo hi : SlotType)
  | badDropRange (start stop : UInt32) (sp : Nat)
  | cannotLoad (t : SlotType)
  | cannotStore (t : SlotType)
  | pickOfVector (index : Nat) (t : SlotType)
  | belowBottom (depth : UInt32)
  | callTooFewValues
  deriving DecidableEq, Repr

def StackFault.message : StackFault → String
  | .popEmpty => "pop from empty value stack"
  | .peekEmpty => "peek on empty value stack"
  | .beyond i sp => s!"slot {i} beyond stack pointer {sp}"
  | .notVector lo hi => s!"expected a v128 value, found {lo.display}/{hi.display}"
  | .badDropRange s e sp => s!"drop range {s.toNat}..={e.toNat} exceeds stack pointer {sp}"
  | .cannotLoad t => s!"cannot load a {t.display} slot"
  | .cannotStore t => s!"cannot store a {t.display} slot"
  | .pickOfVector i t => s!"pick of a vector at slot {i} holding {t.display}"
  | .belowBottom d => s!"depth {d.toNat} below the stack bottom"
  | .callTooFewValues => "call with fewer values than parameters"

/-- Inconsistencies found while generating code. -/
inductive CodegenFault where
  | notOnRegister (slot : Nat)
  | noCode
  | negativeCeiling
  | ceilingTooWide
  | tooManyTargets
  | objectFile (text : String)
  deriving DecidableEq, Repr

def CodegenFault.message : CodegenFault → String
  | .notOnRegister s => s!"value at slot {s} is not on a register"
  | .noCode => "backend produced no code"
  | .negativeCeiling => "negative stack ceiling"
  | .ceilingTooWide => "stack ceiling does not fit 32 bits"
  | .tooManyTargets => "br_table with more than u32::MAX targets"
  | .objectFile t => s!"object file: {t}"

/-- Index spaces whose indices or byte offsets can fall out of range. -/
inductive IndexSpace where
  | type
  | function
  | global
  | stackSlot
  | table
  | segment
  | stackBase
  | stackPointer
  | stackCeiling
  deriving DecidableEq, Repr

def IndexSpace.name : IndexSpace → String
  | .type => "type"
  | .function => "function"
  | .global => "global"
  | .stackSlot => "stack slot"
  | .table => "table"
  | .segment => "segment"
  | .stackBase => "stack base"
  | .stackPointer => "stack pointer"
  | .stackCeiling => "stack ceiling"

/-- Failures of an instruction encoder. -/
inductive EncodeError where
  | invalidRegister (operation : String) (r : Reg)
  | immediateOutOfRange (operation : String) (value : Int)
  | branchOutOfRange (distance : Int)
  | unboundLabel (id : Nat)
  | assembly (text : String)
  deriving DecidableEq, Repr

def hexDigits (n : Nat) : String :=
  String.ofList (Nat.toDigits 16 n)

def hex64 (v : Int) : String := "0x" ++ hexDigits (v % Nat.pow 2 64).toNat

def EncodeError.message : EncodeError → String
  | .invalidRegister op r => s!"Invalid register {r.render} for {op}"
  | .immediateOutOfRange op v => s!"Immediate {hex64 v} out of range for {op}"
  | .branchOutOfRange d => s!"Branch displacement {d} out of range"
  | .unboundLabel n => s!"Label {n} was never bound"
  | .assembly t => s!"Assembly error: {t}"

/-- Why one function could not be compiled. -/
inductive CompileError where
  | registerAllocation (kind : RegKind)
  | codeGeneration (fault : CodegenFault)
  | encoding (e : EncodeError)
  | invalidStack (fault : StackFault)
  | unknownLabel (label : String)
  | invalidIndex (space : IndexSpace) (index : UInt32)
  | unsupportedFeature (feature : String)
  deriving DecidableEq, Repr

namespace CompileError

/-- Name of the class of the failure. -/
def kind : CompileError → String
  | .registerAllocation _ => "RegisterAllocation"
  | .codeGeneration _ => "CodeGeneration"
  | .encoding _ => "Encoding"
  | .invalidStack _ => "InvalidStack"
  | .unknownLabel _ => "UnknownLabel"
  | .invalidIndex .. => "InvalidIndex"
  | .unsupportedFeature _ => "UnsupportedFeature"

def message : CompileError → String
  | .registerAllocation .gp => "Register allocation failed: no GeneralPurpose register to steal"
  | .registerAllocation .vector => "Register allocation failed: no Vector register to steal"
  | .codeGeneration f => s!"Code generation failed: {f.message}"
  | .encoding e => e.message
  | .invalidStack f => s!"Invalid value stack: {f.message}"
  | .unknownLabel l => s!"Unknown label {l}"
  | .invalidIndex s i => s!"{s.name} index {i.toNat} out of range"
  | .unsupportedFeature f => s!"Target CPU lacks required feature {f}"

end CompileError

abbrev CompileResult (α : Type) := Except CompileError α

end OnePassJit
