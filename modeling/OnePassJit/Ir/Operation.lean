import OnePassJit.Ir.Types

/-!
Operations of the stack IR.

A function body is a flat list of operations over the operand stack. Branches name
structured labels (loop headers, else arms, continuations and the function return);
a branch may drop an inclusive range of slots counted from the top on its way.
-/

namespace OnePassJit

/-- Kind of a structured branch target. -/
inductive LabelKind where
  | header
  | elseArm
  | continuation
  | ret
  deriving DecidableEq, Repr, Inhabited, Hashable

/-- A branch target: its kind and the frame it belongs to. -/
structure Label where
  kind : LabelKind
  frame : UInt32
  deriving DecidableEq, Repr, Inhabited, Hashable

namespace Label

def ret : Label := ⟨.ret, 0⟩

def isReturn (l : Label) : Bool := l.kind == .ret

/-- Assembly-style text of a label: `.L7`, `.L7_else`, `.L7_cont` or `.return`. -/
def render (l : Label) : String :=
  match l.kind with
  | .header => s!".L{l.frame.toNat}"
  | .elseArm => s!".L{l.frame.toNat}_else"
  | .continuation => s!".L{l.frame.toNat}_cont"
  | .ret => ".return"

end Label

/-- Slots counted from the top of the stack (0 is the top), both ends included. -/
structure DropRange where
  start : UInt32
  stop : UInt32
  deriving DecidableEq, Repr, Inhabited

def DropRange.len (r : DropRange) : UInt32 := r.stop - r.start + 1

/-- A branch target together with the slots dropped on the way there. -/
structure BranchTarget where
  label : Label
  drop : Option DropRange := none
  deriving DecidableEq, Repr, Inhabited

/-- Static part of a memory access. -/
structure MemArg where
  offset : UInt32 := 0
  align : UInt32 := 0
  deriving DecidableEq, Repr, Inhabited

/-- One IR operation. Float constants are given by their bit patterns. -/
inductive Operation where
  | unreachable
  | label (l : Label)
  | br (target : Label)
  | brIf (thenTarget elseTarget : BranchTarget)
  | brTable (targets : List BranchTarget) (dflt : BranchTarget)
  | call (func : UInt32)
  | callIndirect (typeIndex tableIndex : UInt32)
  | drop (range : Option DropRange)
  | select (vector : Bool)
  | pick (depth : UInt32) (vector : Bool)
  | set (depth : UInt32) (vector : Bool)
  | globalGet (index : UInt32)
  | globalSet (index : UInt32)
  | load (t : NumType) (arg : MemArg)
  | load8 (t : IntType) (arg : MemArg)
  | load16 (t : IntType) (arg : MemArg)
  | load32 (signed : Bool) (arg : MemArg)
  | store (t : NumType) (arg : MemArg)
  | store8 (arg : MemArg)
  | store16 (arg : MemArg)
  | store32 (arg : MemArg)
  | memorySize
  | memoryGrow
  | constI32 (v : UInt32)
  | constI64 (v : UInt64)
  | constF32 (bits : UInt32)
  | constF64 (bits : UInt64)
  | eq (t : NumType)
  | ne (t : NumType)
  | eqz (t : IntWidth)
  | lt (t : CmpType)
  | gt (t : CmpType)
  | le (t : CmpType)
  | ge (t : CmpType)
  | add (t : NumType)
  | sub (t : NumType)
  | mul (t : NumType)
  | clz (t : IntWidth)
  | ctz (t : IntWidth)
  | popcnt (t : IntWidth)
  | div (t : CmpType)
  | rem (t : IntType)
  | and (t : IntWidth)
  | or (t : IntWidth)
  | xor (t : IntWidth)
  | shl (t : IntWidth)
  | shr (t : IntType)
  | rotl (t : IntWidth)
  | rotr (t : IntWidth)
  | abs (t : FloatType)
  | neg (t : FloatType)
  | ceil (t : FloatType)
  | floor (t : FloatType)
  | trunc (t : FloatType)
  | nearest (t : FloatType)
  | sqrt (t : FloatType)
  | min (t : FloatType)
  | max (t : FloatType)
  | copysign (t : FloatType)
  | wrapI64
  | truncFromFloat (input : FloatType) (output : IntType) (saturating : Bool)
  | convertFromInt (input : IntType) (output : FloatType)
  | demoteF64
  | promoteF32
  | i32OfF32Bits
  | i64OfF64Bits
  | f32OfI32Bits
  | f64OfI64Bits
  | extendI32 (signed : Bool)
  | extend32From8
  | extend32From16
  | extend64From8
  | extend64From16
  | extend64From32
  | memoryInit (data : UInt32)
  | dataDrop (data : UInt32)
  | memoryCopy
  | memoryFill
  | tableInit (elem table : UInt32)
  | elemDrop (elem : UInt32)
  | tableCopy (src dst : UInt32)
  | refFunc (func : UInt32)
  | tableGet (table : UInt32)
  | tableSet (table : UInt32)
  | tableSize (table : UInt32)
  | tableGrow (table : UInt32)
  | tableFill (table : UInt32)
  | v128Const (lo hi : UInt64)
  | v128Add (shape : LaneShape)
  | v128Sub (shape : LaneShape)
  | v128And
  | v128Or
  | v128Xor
  | v128Not
  | v128Load (arg : MemArg)
  | v128Store (arg : MemArg)
  | v128Splat (shape : LaneShape)
  | v128ExtractLane (lane : UInt8) (signed : Bool) (shape : LaneShape)
  | v128ReplaceLane (lane : UInt8) (shape : LaneShape)
  | v128AnyTrue
  | checkExitCode
  deriving Repr, Inhabited

namespace Operation

def name : Operation → String
  | .unreachable => "unreachable"
  | .label _ => "label"
  | .br _ => "br"
  | .brIf .. => "br_if"
  | .brTable .. => "br_table"
  | .call _ => "call"
  | .callIndirect .. => "call_indirect"
  | .drop _ => "drop"
  | .select _ => "select"
  | .pick .. => "pick"
  | .set .. => "set"
  | .globalGet _ => "global.get"
  | .globalSet _ => "global.set"
  | .load .. => "load"
  | .load8 .. => "load8"
  | .load16 .. => "load16"
  | .load32 .. => "load32"
  | .store .. => "store"
  | .store8 _ => "store8"
  | .store16 _ => "store16"
  | .store32 _ => "store32"
  | .memorySize => "memory.size"
  | .memoryGrow => "memory.grow"
  | .constI32 _ => "i32.const"
  | .constI64 _ => "i64.const"
  | .constF32 _ => "f32.const"
  | .constF64 _ => "f64.const"
  | .eq _ => "eq"
  | .ne _ => "ne"
  | .eqz _ => "eqz"
  | .lt _ => "lt"
  | .gt _ => "gt"
  | .le _ => "le"
  | .ge _ => "ge"
  | .add _ => "add"
  | .sub _ => "sub"
  | .mul _ => "mul"
  | .clz _ => "clz"
  | .ctz _ => "ctz"
  | .popcnt _ => "popcnt"
  | .div _ => "div"
  | .rem _ => "rem"
  | .and _ => "and"
  | .or _ => "or"
  | .xor _ => "xor"
  | .shl _ => "shl"
  | .shr _ => "shr"
  | .rotl _ => "rotl"
  | .rotr _ => "rotr"
  | .abs _ => "abs"
  | .neg _ => "neg"
  | .ceil _ => "ceil"
  | .floor _ => "floor"
  | .trunc _ => "trunc"
  | .nearest _ => "nearest"
  | .sqrt _ => "sqrt"
  | .min _ => "min"
  | .max _ => "max"
  | .copysign _ => "copysign"
  | .wrapI64 => "i32.wrap_i64"
  | .truncFromFloat .. => "trunc_from_float"
  | .convertFromInt .. => "convert_from_int"
  | .demoteF64 => "f32.demote_f64"
  | .promoteF32 => "f64.promote_f32"
  | .i32OfF32Bits => "i32.reinterpret_f32"
  | .i64OfF64Bits => "i64.reinterpret_f64"
  | .f32OfI32Bits => "f32.reinterpret_i32"
  | .f64OfI64Bits => "f64.reinterpret_i64"
  | .extendI32 _ => "i64.extend_i32"
  | .extend32From8 => "i32.extend8_s"
  | .extend32From16 => "i32.extend16_s"
  | .extend64From8 => "i64.extend8_s"
  | .extend64From16 => "i64.extend16_s"
  | .extend64From32 => "i64.extend32_s"
  | .memoryInit _ => "memory.init"
  | .dataDrop _ => "data.drop"
  | .memoryCopy => "memory.copy"
  | .memoryFill => "memory.fill"
  | .tableInit .. => "table.init"
  | .elemDrop _ => "elem.drop"
  | .tableCopy .. => "table.copy"
  | .refFunc _ => "ref.func"
  | .tableGet _ => "table.get"
  | .tableSet _ => "table.set"
  | .tableSize _ => "table.size"
  | .tableGrow _ => "table.grow"
  | .tableFill _ => "table.fill"
  | .v128Const .. => "v128.const"
  | .v128Add _ => "v128.add"
  | .v128Sub _ => "v128.sub"
  | .v128And => "v128.and"
  | .v128Or => "v128.or"
  | .v128Xor => "v128.xor"
  | .v128Not => "v128.not"
  | .v128Load _ => "v128.load"
  | .v128Store _ => "v128.store"
  | .v128Splat _ => "v128.splat"
  | .v128ExtractLane .. => "v128.extract_lane"
  | .v128ReplaceLane .. => "v128.replace_lane"
  | .v128AnyTrue => "v128.any_true"
  | .checkExitCode => "check_exit_code"

/-- Labels an operation names, in order: `br_if` gives then before else, `br_table`
its targets before the default. -/
def labels : Operation → List Label
  | .label l => [l]
  | .br l => [l]
  | .brIf t e => [t.label, e.label]
  | .brTable ts d => ts.map (·.label) ++ [d.label]
  | _ => []

def branchLabels : Operation → List Label
  | .br l => [l]
  | .brIf t e => [t.label, e.label]
  | .brTable ts d => ts.map (·.label) ++ [d.label]
  | _ => []

def touchesMemory : Operation → Bool
  | .load .. | .load8 .. | .load16 .. | .load32 .. | .store .. | .store8 _ | .store16 _
  | .store32 _ | .memorySize | .memoryGrow | .memoryInit _ | .memoryCopy | .memoryFill
  | .v128Load _ | .v128Store _ => true
  | _ => false

end Operation

end OnePassJit
