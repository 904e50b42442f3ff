/-!
Value types of the stack IR and the operand-type families of typed operations.

Every IR value lives in u64 slots of the operand stack: a `v128` takes two slots,
everything else one. A signature is measured in those slots, and a function's own
call frame starts right above the larger of its parameter and result areas.
-/

namespace OnePassJit

/-- Type of one IR value. -/
inductive ValueType where
  | i32
  | i64
  | f32
  | f64
  | v128
  | funcref
  | externref
  deriving DecidableEq, Repr, Inhabited, Hashable

namespace ValueType

def slots : ValueType → Nat
  | .v128 => 2
  | _ => 1

theorem slots_pos (t : ValueType) : 0 < t.slots := by
  cases t <;> decide

end ValueType

/-- Parameter and result types of a function. -/
structure Signature where
  params : List ValueType
  results : List ValueType
  deriving DecidableEq, Repr, Inhabited, Hashable

namespace Signature

def slotCount (ts : List ValueType) : Nat :=
  (ts.map ValueType.slots).foldr (· + ·) 0

def paramSlots (s : Signature) : Nat := slotCount s.params

def resultSlots (s : Signature) : Nat := slotCount s.results

/-- Index of the first call frame slot relative to the function's stack base. -/
def frameOffset (s : Signature) : Nat := max s.paramSlots s.resultSlots

theorem paramSlots_le_frameOffset (s : Signature) : s.paramSlots ≤ s.frameOffset :=
  Nat.le_max_left _ _

theorem resultSlots_le_frameOffset (s : Signature) : s.resultSlots ≤ s.frameOffset :=
  Nat.le_max_right _ _

end Signature

/-- Operand types of arithmetic that does not depend on signedness. -/
inductive NumType where
  | i32
  | i64
  | f32
  | f64
  deriving DecidableEq, Repr, Inhabited

/-- Operand types of operations whose meaning depends on signedness. -/
inductive CmpType where
  | s32
  | u32
  | s64
  | u64
  | f32
  | f64
  deriving DecidableEq, Repr, Inhabited

/-- Integer operand types with signedness. -/
inductive IntType where
  | s32
  | u32
  | s64
  | u64
  deriving DecidableEq, Repr, Inhabited

namespace IntType

def is32 : IntType → Bool
  | .s32 | .u32 => true
  | _ => false

def isSigned : IntType → Bool
  | .s32 | .s64 => true
  | _ => false

end IntType

/-- Integer operand widths. -/
inductive IntWidth where
  | i32
  | i64
  deriving DecidableEq, Repr, Inhabited

def IntWidth.is32 : IntWidth → Bool
  | .i32 => true
  | .i64 => false

/-- Float operand types. -/
inductive FloatType where
  | f32
  | f64
  deriving DecidableEq, Repr, Inhabited

def FloatType.is32 : FloatType → Bool
  | .f32 => true
  | .f64 => false

/-- Lane interpretation of a 128-bit vector. -/
inductive LaneShape where
  | i8x16
  | i16x8
  | i32x4
  | i64x2
  | f32x4
  | f64x2
  deriving DecidableEq, Repr, Inhabited

namespace LaneShape

def laneCount : LaneShape → Nat
  | .i8x16 => 16
  | .i16x8 => 8
  | .i32x4 | .f32x4 => 4
  | .i64x2 | .f64x2 => 2

def isFloat : LaneShape → Bool
  | .f32x4 | .f64x2 => true
  | _ => false

def laneType : LaneShape → ValueType
  | .i8x16 | .i16x8 | .i32x4 => .i32
  | .i64x2 => .i64
  | .f32x4 => .f32
  | .f64x2 => .f64

def laneBytes (s : LaneShape) : Nat := 16 / s.laneCount

theorem laneCount_mul_laneBytes (s : LaneShape) : s.laneCount * s.laneBytes = 16 := by
  cases s <;> decide

end LaneShape

end OnePassJit
