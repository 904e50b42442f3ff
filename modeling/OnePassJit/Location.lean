import OnePassJit.Ir.Types
import OnePassJit.Register

/-!
Where a live operand lives during compilation.

Each u64 slot of the operand stack has a runtime type, and its value sits in a register,
in the CPU condition flags (a comparison not yet materialised), or in its memory slot at
stack base + 8 · index. A `v128` value takes a low and a high slot that share one vector
register.
-/

namespace OnePassJit

/-- Runtime type of one stack slot. `none` marks slots whose content is never read
(reserved result slots). -/
inductive SlotType where
  | none
  | i32
  | i64
  | f32
  | f64
  | v128lo
  | v128hi
  deriving DecidableEq, Repr, Inhabited

namespace SlotType

/-- Type of the (lower) slot of an IR value; references are 64-bit integers. -/
def ofValue : ValueType → SlotType
  | .i32 => .i32
  | .i64 | .funcref | .externref => .i64
  | .f32 => .f32
  | .f64 => .f64
  | .v128 => .v128lo

/-- Floats and vectors live in vector registers, everything else in general ones. -/
def regKind : SlotType → RegKind
  | .f32 | .f64 | .v128lo | .v128hi => .vector
  | _ => .gp

def is32 : SlotType → Bool
  | .i32 | .f32 => true
  | _ => false

/-- Name of the type as it appears in diagnostics: `None`, `I32`, …, `V128Hi`. -/
def display : SlotType → String
  | .none => "None"
  | .i32 => "I32"
  | .i64 => "I64"
  | .f32 => "F32"
  | .f64 => "F64"
  | .v128lo => "V128Lo"
  | .v128hi => "V128Hi"

end SlotType

/-- Condition held in the CPU flags after a comparison. -/
inductive Flag where
  | eq
  | ne
  | slt
  | sle
  | sgt
  | sge
  | ult
  | ule
  | ugt
  | uge
  | minus
  | plusOrZero
  deriving DecidableEq, Repr, Inhabited

namespace Flag

def invert : Flag → Flag
  | .eq => .ne
  | .ne => .eq
  | .slt => .sge
  | .sge => .slt
  | .sle => .sgt
  | .sgt => .sle
  | .ult => .uge
  | .uge => .ult
  | .ule => .ugt
  | .ugt => .ule
  | .minus => .plusOrZero
  | .plusOrZero => .minus

@[simp]
theorem invert_invert (f : Flag) : f.invert.invert = f := by
  cases f <;> rfl

end Flag

/-- Where one live slot currently resides. -/
structure Location where
  type : SlotType
  reg : Option Reg := none
  flag : Option Flag := none
  /-- Index of the u64 slot backing this value. -/
  slot : Nat
  deriving DecidableEq, Repr, Inhabited

namespace Location

def onRegister (l : Location) : Bool := l.reg.isSome

def onFlag (l : Location) : Bool := l.flag.isSome

/-- The value is in its memory slot: neither in a register nor in the flags. -/
def onStack (l : Location) : Bool := l.reg.isNone && l.flag.isNone

def regKind (l : Location) : RegKind := l.type.regKind

def setRegister (l : Location) (r : Reg) : Location := { l with reg := some r, flag := none }

def setOnStack (l : Location) : Location := { l with reg := none, flag := none }

@[simp]
theorem onStack_setOnStack (l : Location) : l.setOnStack.onStack = true := rfl

end Location

end OnePassJit
