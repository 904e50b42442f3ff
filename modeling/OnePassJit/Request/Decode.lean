import OnePassJit.Json.Decode
import OnePassJit.ModuleDef
import OnePassJit.Config

/-!
Reading IR, modules and compiler settings from JSON requests.

An operation is an array whose first element is its name (`Operation.name`) followed
by its arguments; type codes, labels (`ret`, `hN`, `eN`, `cN`) and branch targets
(a label, or `[label, start, end]` with a drop range) are strings and arrays.
-/

namespace OnePassJit

namespace JsonNode

def keyword {α : Type} (what : String) (table : List (String × α)) (j : JsonNode) : Decode α := do
  let s ← j.asString
  match table.find? (·.1 == s) with
  | some (_, v) => pure v
  | none => throw s!"unknown {what} {s}"

def valueType : JsonNode → Decode ValueType :=
  keyword "value type" [("i32", .i32), ("i64", .i64), ("f32", .f32), ("f64", .f64),
    ("v128", .v128), ("funcref", .funcref), ("externref", .externref)]

def numType : JsonNode → Decode NumType :=
  keyword "unsigned type" [("i32", .i32), ("i64", .i64), ("f32", .f32), ("f64", .f64)]

def cmpType : JsonNode → Decode CmpType :=
  keyword "signed type" [("s32", .s32), ("u32", .u32), ("s64", .s64), ("u64", .u64), ("f32", .f32),
    ("f64", .f64)]

def intType : JsonNode → Decode IntType :=
  keyword "signed int" [("s32", .s32), ("u32", .u32), ("s64", .s64), ("u64", .u64)]

def intWidth : JsonNode → Decode IntWidth :=
  keyword "unsigned int" [("i32", .i32), ("i64", .i64)]

def floatType : JsonNode → Decode FloatType :=
  keyword "float kind" [("f32", .f32), ("f64", .f64)]

def laneShape : JsonNode → Decode LaneShape :=
  keyword "shape" [("i8x16", .i8x16), ("i16x8", .i16x8), ("i32x4", .i32x4), ("i64x2", .i64x2),
    ("f32x4", .f32x4), ("f64x2", .f64x2)]

def regKind : JsonNode → Decode RegKind :=
  keyword "register kind" [("gp", .gp), ("vec", .vector)]

def flag : JsonNode → Decode Flag :=
  keyword "flag" [("eq", .eq), ("ne", .ne), ("slt", .slt), ("sle", .sle), ("sgt", .sgt),
    ("sge", .sge), ("ult", .ult), ("ule", .ule), ("ugt", .ugt), ("uge", .uge), ("mi", .minus),
    ("pl", .plusOrZero)]

def slotType : JsonNode → Decode SlotType :=
  keyword "runtime type" [("none", .none), ("i32", .i32), ("i64", .i64), ("f32", .f32),
    ("f64", .f64), ("v128lo", .v128lo), ("v128hi", .v128hi)]

def label (j : JsonNode) : Decode Label := do
  let s ← j.asString
  if s == "ret" then return Label.ret
  let kind? : Option LabelKind := match s.toList.head? with
    | some 'h' => some .header
    | some 'e' => some .elseArm
    | some 'c' => some .continuation
    | _ => none
  match kind?, Text.readUnsigned 10 (Nat.pow 2 32) (s.drop 1).toString with
  | some kind, .ok n => return ⟨kind, n.toUInt32⟩
  | _, _ => throw s!"bad label {s}"

def reg (j : JsonNode) : Decode Reg := do
  let s ← j.asString
  let byte? (t : List Char) : Option UInt8 :=
    (Text.readUnsigned 10 256 (String.ofList t)).toOption.map (·.toUInt8)
  let r? : Option Reg := match s.toList with
    | 'r' :: t => (byte? t).map Reg.gp
    | 'v' :: t => (byte? t).map Reg.vec
    | 'b' :: t =>
      match t.span (· != ':') with
      | (b, ':' :: i) => match byte? b, byte? i with
        | some b, some i => some ⟨b, i⟩
        | _, _ => none
      | _ => none
    | _ => none
  match r? with
  | some r => return r
  | none => throw s!"bad register {s}"

def branchTarget (j : JsonNode) : Decode BranchTarget :=
  match j with
  | .arr [l, a, b] => do return ⟨← label l, some ⟨← a.asU32, ← b.asU32⟩⟩
  | .arr _ => throw "branch target must be [label, start, end]"
  | j => do return ⟨← label j, none⟩

def signature (j : JsonNode) : Decode Signature := do
  return ⟨← j.fieldOr "params" (list valueType) [], ← j.fieldOr "results" (list valueType) []⟩

end JsonNode

namespace Operation

open JsonNode

/-- Argument `i` of the command array `xs` named `name`, which must be there. -/
def arg (name : String) (xs : List JsonNode) (i : Nat) : Decode JsonNode :=
  match xs[i]? with
  | some j => .ok j
  | none => .error s!"{name}: missing argument {i}"

/-- Optional argument `i`: `d` when missing, decoded by `f` when present. -/
def argOr {α : Type} (xs : List JsonNode) (i : Nat) (f : JsonNode → Decode α) (d : α) :
    Decode α :=
  match xs[i]? with
  | none => .ok d
  | some j => f j

def memArg (xs : List JsonNode) (i : Nat) : Decode MemArg := do
  return ⟨← argOr xs i asU32 0, ← argOr xs (i + 1) asU32 0⟩

def decode (j : JsonNode) : Decode Operation := do
  let xs ← j.asArray
  let some n := xs.head? | throw "empty operation"
  let name ← n.asString
  let a (i : Nat) := arg name xs i
  match name with
  | "unreachable" => return .unreachable
  | "label" => return .label (← JsonNode.label (← a 1))
  | "br" => return .br (← JsonNode.label (← a 1))
  | "br_if" => return .brIf (← branchTarget (← a 1)) (← branchTarget (← a 2))
  | "br_table" => return .brTable (← list branchTarget (← a 1)) (← branchTarget (← a 2))
  | "call" => return .call (← (← a 1).asU32)
  | "call_indirect" => return .callIndirect (← (← a 1).asU32) (← (← a 2).asU32)
  | "drop" =>
    if xs.length ≤ 1 then return .drop none
    else return .drop (some ⟨← (← a 1).asU32, ← (← a 2).asU32⟩)
  | "select" => return .select (← argOr xs 1 asBool false)
  | "pick" => return .pick (← (← a 1).asU32) (← argOr xs 2 asBool false)
  | "set" => return .set (← (← a 1).asU32) (← argOr xs 2 asBool false)
  | "global.get" => return .globalGet (← (← a 1).asU32)
  | "global.set" => return .globalSet (← (← a 1).asU32)
  | "load" => return .load (← numType (← a 1)) (← memArg xs 2)
  | "load8" => return .load8 (← intType (← a 1)) (← memArg xs 2)
  | "load16" => return .load16 (← intType (← a 1)) (← memArg xs 2)
  | "load32" => return .load32 (← (← a 1).asBool) (← memArg xs 2)
  | "store" => return .store (← numType (← a 1)) (← memArg xs 2)
  | "store8" => return .store8 (← memArg xs 1)
  | "store16" => return .store16 (← memArg xs 1)
  | "store32" => return .store32 (← memArg xs 1)
  | "memory.size" => return .memorySize
  | "memory.grow" => return .memoryGrow
  | "memory.copy" => return .memoryCopy
  | "memory.fill" => return .memoryFill
  | "memory.init" => return .memoryInit (← (← a 1).asU32)
  | "data.drop" => return .dataDrop (← (← a 1).asU32)
  | "i32.const" => return .constI32 (← (← a 1).asU64).toUInt32
  | "i64.const" => return .constI64 (← (← a 1).asU64)
  | "f32.const" => return .constF32 (← (← a 1).asU64).toUInt32
  | "f64.const" => return .constF64 (← (← a 1).asU64)
  | "eq" => return .eq (← numType (← a 1))
  | "ne" => return .ne (← numType (← a 1))
  | "eqz" => return .eqz (← intWidth (← a 1))
  | "lt" => return .lt (← cmpType (← a 1))
  | "gt" => return .gt (← cmpType (← a 1))
  | "le" => return .le (← cmpType (← a 1))
  | "ge" => return .ge (← cmpType (← a 1))
  | "add" => return .add (← numType (← a 1))
  | "sub" => return .sub (← numType (← a 1))
  | "mul" => return .mul (← numType (← a 1))
  | "div" => return .div (← cmpType (← a 1))
  | "rem" => return .rem (← intType (← a 1))
  | "clz" => return .clz (← intWidth (← a 1))
  | "ctz" => return .ctz (← intWidth (← a 1))
  | "popcnt" => return .popcnt (← intWidth (← a 1))
  | "and" => return .and (← intWidth (← a 1))
  | "or" => return .or (← intWidth (← a 1))
  | "xor" => return .xor (← intWidth (← a 1))
  | "shl" => return .shl (← intWidth (← a 1))
  | "shr" => return .shr (← intType (← a 1))
  | "rotl" => return .rotl (← intWidth (← a 1))
  | "rotr" => return .rotr (← intWidth (← a 1))
  | "abs" => return .abs (← floatType (← a 1))
  | "neg" => return .neg (← floatType (← a 1))
  | "ceil" => return .ceil (← floatType (← a 1))
  | "floor" => return .floor (← floatType (← a 1))
  | "trunc" => return .trunc (← floatType (← a 1))
  | "nearest" => return .nearest (← floatType (← a 1))
  | "sqrt" => return .sqrt (← floatType (← a 1))
  | "min" => return .min (← floatType (← a 1))
  | "max" => return .max (← floatType (← a 1))
  | "copysign" => return .copysign (← floatType (← a 1))
  | "i32.wrap_i64" => return .wrapI64
  | "f32.demote_f64" => return .demoteF64
  | "f64.promote_f32" => return .promoteF32
  | "i32.reinterpret_f32" => return .i32OfF32Bits
  | "i64.reinterpret_f64" => return .i64OfF64Bits
  | "f32.reinterpret_i32" => return .f32OfI32Bits
  | "f64.reinterpret_i64" => return .f64OfI64Bits
  | "trunc_from_float" =>
    return .truncFromFloat (← floatType (← a 1)) (← intType (← a 2)) (← (← a 3).asBool)
  | "convert_from_int" => return .convertFromInt (← intType (← a 1)) (← floatType (← a 2))
  | "i64.extend_i32" => return .extendI32 (← (← a 1).asBool)
  | "i32.extend8_s" => return .extend32From8
  | "i32.extend16_s" => return .extend32From16
  | "i64.extend8_s" => return .extend64From8
  | "i64.extend16_s" => return .extend64From16
  | "i64.extend32_s" => return .extend64From32
  | "table.init" => return .tableInit (← (← a 1).asU32) (← (← a 2).asU32)
  | "elem.drop" => return .elemDrop (← (← a 1).asU32)
  | "table.copy" => return .tableCopy (← (← a 1).asU32) (← (← a 2).asU32)
  | "ref.func" => return .refFunc (← (← a 1).asU32)
  | "table.get" => return .tableGet (← (← a 1).asU32)
  | "table.set" => return .tableSet (← (← a 1).asU32)
  | "table.size" => return .tableSize (← (← a 1).asU32)
  | "table.grow" => return .tableGrow (← (← a 1).asU32)
  | "table.fill" => return .tableFill (← (← a 1).asU32)
  | "v128.const" => return .v128Const (← (← a 1).asU64) (← (← a 2).asU64)
  | "v128.add" => return .v128Add (← laneShape (← a 1))
  | "v128.sub" => return .v128Sub (← laneShape (← a 1))
  | "v128.and" => return .v128And
  | "v128.or" => return .v128Or
  | "v128.xor" => return .v128Xor
  | "v128.not" => return .v128Not
  | "v128.any_true" => return .v128AnyTrue
  | "v128.load" => return .v128Load (← memArg xs 1)
  | "v128.store" => return .v128Store (← memArg xs 1)
  | "v128.splat" => return .v128Splat (← laneShape (← a 1))
  | "v128.extract_lane" =>
    return .v128ExtractLane (← (← a 1).asU64).toUInt8 (← (← a 2).asBool) (← laneShape (← a 3))
  | "v128.replace_lane" => return .v128ReplaceLane (← (← a 1).asU64).toUInt8 (← laneShape (← a 2))
  | "check_exit_code" => return .checkExitCode
  | other => throw s!"unknown operation {other}"

end Operation

namespace JsonNode

def hostRoutine : JsonNode → Decode HostRoutine :=
  keyword "host function" [("sum", .sum), ("echo", .echo), ("close", .close), ("fail", .fail),
    ("mem_write", .memWrite), ("mem_grow", .memGrow), ("mem_size", .memSize)]

def segmentMode (j : JsonNode) : Decode SegmentMode := do
  match ← j.nullableField "offset" asU32 with
  | some o => return .active o
  | none => return .passive

/-- Add one function entry: its type index if it gives one, then its host kind or body,
then, without a type index, its signature through `addType`. A host function reads its
frame by the parameters of its type as known at this point. -/
def addFunction (m : ModuleDef) (j : JsonNode) : Decode ModuleDef := do
  let given ← j.optField "type" asU32
  let host ← match j.field? "host" with
    | some h => some <$> hostRoutine h
    | none => pure none
  let code ← match host with
    | some _ => pure []
    | none => j.fieldOr "body" (list Operation.decode) []
  let (typeIndex, m) ← match given with
    | some t => pure (t, m)
    | none => do pure (m.addType (← signature j))
  let body := match host with
    | some h => FunctionBody.host ⟨h, m.paramsOf typeIndex⟩
    | none => FunctionBody.code code
  return m.pushFunction typeIndex body

/-- A global; `index` is its position, for the message about a funcref with a value. -/
def globalDef (index : Nat) (j : JsonNode) : Decode GlobalDef := do
  let ty ← match j.field? "type" with
    | some t => valueType t
    | none => throw "global without type"
  let mutable ← j.fieldOr "mutable" asBool false
  let value ← if ty == .funcref then
      match j.field? "value" with
      | some .null | none => pure 0
      | some _ => throw s!"global {index}: funcref globals start null"
    else j.fieldOr "value" asU64 0
  return { ty, mutable, value, hi := ← j.fieldOr "hi" asU64 0 }

/-- The sizes of a table: its greatest size if it gives one, then its least size, which
it must give. -/
def tableSizes (t : JsonNode) : Decode (UInt32 × Option UInt32) := do
  let max ← t.nullableField "max" asU32
  match t.field? "min" with
  | some v => return (← v.asU32, max)
  | none => throw "table min"

def elementSegment (j : JsonNode) : Decode ElementSegment := do
  let table ← j.fieldOr "table" asU32 0
  let functions ← j.fieldOr "functions" (list fun f => match f with
    | .null => pure none
    | f => some <$> f.asU32) []
  return { table, mode := ← segmentMode j, functions }

/-- A module definition; every part is optional, and `memory` may be `null`. -/
def moduleBody (j : JsonNode) : Decode ModuleDef := do
  let types ← j.fieldOr "types" (list signature) []
  let m : ModuleDef := { types := types.toArray }
  let fs ← j.fieldOr "functions" asArray []
  let m ← fs.foldlM addFunction m
  let globals ← match j.field? "globals" with
    | some gs => do (← gs.asArray).zipIdx.mapM fun (g, i) => globalDef i g
    | none => pure []
  let memory ← j.nullableField "memory" fun mj => do
    let xs ← mj.asArray
    let bound (i : Nat) (what : String) : Decode UInt32 :=
      match xs[i]? with
      | some v => v.asU32
      | none => throw what
    return (← bound 0 "memory min", ← bound 1 "memory max")
  let tables ← j.fieldOr "tables" (list fun t => do
      let (min, max) ← tableSizes t
      return ({ min, max } : TableDecl)) []
  let data ← j.fieldOr "data" (list fun d => do
      let bytes ← bytesOfHex (← d.fieldOr "bytes" asString "")
      return ({ mode := ← segmentMode d, bytes } : DataSegment)) []
  let elements ← j.fieldOr "elements" (list elementSegment) []
  return { m with globals := globals.toArray, memory, tables := tables.toArray,
                  data := data.toArray, elements := elements.toArray }

/-- The module of a request: absent or `null` for the empty module, else an object. -/
def moduleDef (j : JsonNode) : Decode ModuleDef :=
  match j.field? "module" with
  | none | some .null => moduleBody (.obj [])
  | some (.obj kvs) => moduleBody (.obj kvs)
  | some _ => throw "module must be an object"

/-- Compiler settings: the target, listener and termination checks, worker count and
amd64 extensions over their baseline. -/
def compilerConfig (arch : Arch) (j : JsonNode) : Decode CompilerConfig := do
  let flag (k : String) (d : Bool) : Decode Bool := j.fieldOr k asBool d
  let lzcnt ← flag "lzcnt" false
  let tzcnt ← flag "tzcnt" false
  let sse41 ← flag "sse41" true
  let popcnt ← flag "popcnt" true
  return { arch
           listener := ← flag "listener" false
           ensureTermination := ← flag "ensure_termination" false
           parallelism := max 1 (← j.fieldOr "parallelism" asNat 1)
           features := { sse41, popcnt, lzcnt, tzcnt } }

def arch : JsonNode → Decode Arch :=
  keyword "arch" [("amd64", .amd64), ("arm64", .arm64)]

end JsonNode

end OnePassJit
