import OnePassJit.Request.Decode
import OnePassJit.Script.ValueStack
import OnePassJit.Script.LabelTable
import OnePassJit.Exit
import OnePassJit.Instance.Memory
import OnePassJit.Instance.Table
import OnePassJit.CodeSegment
import OnePassJit.Amd64.Reg
import OnePassJit.Arm64.Reg

/-!
Requests that inspect one part of the library directly: IR facts, status and builtin
codes with memory and table growth, code segment layout, and scripts over a value stack
or a label table.
-/

namespace OnePassJit

namespace Arch

def gpPool : Arch → List Reg
  | .amd64 => Amd64.gpPool
  | .arm64 => Arm64.gpPool

def vecPool : Arch → List Reg
  | .amd64 => Amd64.vecPool
  | .arm64 => Arm64.vecPool

end Arch

namespace JsonNode

def ofBool (b : Bool) : JsonNode := .bool b

def ofSlotType : SlotType → String
  | .none => "none"
  | .i32 => "i32"
  | .i64 => "i64"
  | .f32 => "f32"
  | .f64 => "f64"
  | .v128lo => "v128lo"
  | .v128hi => "v128hi"

def ofFlag : Flag → String
  | .eq => "eq"
  | .ne => "ne"
  | .slt => "slt"
  | .sle => "sle"
  | .sgt => "sgt"
  | .sge => "sge"
  | .ult => "ult"
  | .ule => "ule"
  | .ugt => "ugt"
  | .uge => "uge"
  | .minus => "mi"
  | .plusOrZero => "pl"

def ofRegKind : RegKind → String
  | .gp => "gp"
  | .vector => "vec"

def ofLocation (l : Location) : JsonNode :=
  .obj [("type", .str (ofSlotType l.type)),
    ("reg", match l.reg with
      | some r => .str r.render
      | none => .null),
    ("flag", match l.flag with
      | some f => .str (ofFlag f)
      | none => .null),
    ("slot", nat l.slot)]

def ofFrame (f : FrameSlots) : JsonNode := nats [f.returnAddress, f.callerBase, f.callerFunction]

def ofStackAnswer : StackAnswer → JsonNode
  | .unit => .null
  | .index n => nat n
  | .location l => ofLocation l
  | .bool b => .bool b
  | .reg? r => match r with
    | some r => .str r.render
    | none => .null
  | .index? n => nat? n
  | .indices ns => nats ns
  | .frame f => ofFrame f
  | .moves ms => .arr (ms.map fun m => nats [m.src, m.dst])
  | .flag f => .str (ofFlag f)
  | .facts f => .obj [("on_register", .bool f.onRegister), ("on_condition_flag", .bool f.onFlag),
      ("on_stack", .bool f.onStack), ("kind", .str (ofRegKind f.kind)), ("is_32bit", .bool f.is32)]
  | .regSet f => .obj [("was_empty", .bool f.wasEmpty), ("is_empty", .bool f.isEmpty),
      ("union", strs (f.members.map Reg.render)), ("count", nats f.counts),
      ("contains", .arr (f.contains.map JsonNode.bool)),
      ("kinds", .arr (f.kinds.map fun (r, k) =>
        .arr [.str (ofRegKind k), .bool r.isVector, nat k.bank.toNat, .str r.render]))]

def stackCommand (j : JsonNode) : Decode StackCommand := do
  let xs ← j.asArray
  let some n := xs.head? | throw "empty vls op"
  let name ← n.asString
  let a (i : Nat) := Operation.arg name xs i
  let sig : Decode Signature := do
    return ⟨← Operation.argOr xs 1 (list valueType) [], ← Operation.argOr xs 2 (list valueType) []⟩
  let exclude : Decode (List Reg) := Operation.argOr xs 2 (list reg) []
  match name with
  | "push_reg" => return .pushReg (← reg (← a 1)) (← slotType (← a 2))
  | "push_stack" => return .pushStack (← slotType (← a 1))
  | "push_flag" => return .pushFlag (← flag (← a 1))
  | "push_v128_reg" => return .pushV128Reg (← reg (← a 1))
  | "push_v128_stack" => return .pushV128Stack
  | "push_value" => return .pushValue (← valueType (← a 1))
  | "pop" => return .pop
  | "pop_v128" => return .popV128
  | "peek" => return .peek
  | "get" => return .get (← (← a 1).asNat)
  | "mark_used" => return .markUsed (← reg (← a 1))
  | "mark_unused" => return .markUnused (← reg (← a 1))
  | "is_used" => return .isUsed (← reg (← a 1))
  | "take_free" => return .takeFree (← regKind (← a 1)) (← exclude)
  | "steal_target" => return .stealTarget (← regKind (← a 1)) (← exclude)
  | "register_owner" => return .registerOwner (← reg (← a 1))
  | "mark_on_stack" => return .markOnStack (← (← a 1).asNat)
  | "set_register" => return .setRegister (← (← a 1).asNat) (← reg (← a 2))
  | "non_memory_resident" => return .nonMemoryResident
  | "init" => return .init (← sig)
  | "call_frame_locations" => return .frameLocations (← sig)
  | "push_call_frame" => return .pushCallFrame (← sig)
  | "truncate" => return .truncate (← (← a 1).asNat)
  | "drop_range" => return .dropRange (← (← a 1).asU32) (← (← a 2).asU32)
  | "invert" => return .invert (← flag (← a 1))
  | "loc_info" => return .locInfo (← (← a 1).asNat)
  | "regset" => return .regSet (← list reg (← a 1)) (← Operation.argOr xs 2 (list reg) [])
  | "fork" => return .fork
  | "adopt" => return .adopt
  | other => throw s!"unknown vls op {other}"

/-- A label table command: its name, then for `set_initial` the depth before the label. -/
def labelCommand (j : JsonNode) : Decode LabelCommand := do
  let xs ← j.asArray
  let some n := xs.head? | throw "empty labels op"
  let name ← n.asString
  let l : Decode Label := match xs[1]? with
    | some v => label v
    | none => throw "labels op needs a label"
  match name with
  | "state" => return .state (← l)
  | "native" => return .native (← l)
  | "set_initial" =>
    let depth ← match xs[2]? with
      | some v => v.asNat
      | none => throw "set_initial needs a depth"
    return .setEntry (← l) depth
  | "resolve" => return .resolve (← l)
  | "get" => return .get (← l)
  | "entry_bound" => return .entryBound (← l)
  | "dangling" => return .dangling
  | other => throw s!"unknown labels op {other}"

def ofLabelAnswer : LabelAnswer → JsonNode
  | .state s => .str s.name
  | .native n => nat n
  | .unit => .null
  | .entry e => match e with
    | some (sp, ceil) => nats [sp, ceil]
    | none => .null
  | .info i => match i with
    | some i => .obj [("native", nat? i.native), ("initial_sp", nat? (i.entry.map (·.sp))),
        ("bound", .bool i.bound), ("state", .str i.state.name)]
    | none => .null
  | .bool b => .bool b
  | .labels ls => strs ls

end JsonNode

namespace Request

open JsonNode

/-- Run the commands of a value stack script as they are read: a command that cannot be
read, or a fault, stops the script there. -/
def runStackScript (s : StackSession) :
    List JsonNode → Decode (List (Except CompileError StackAnswer × ValueStack))
  | [] => pure []
  | j :: js => do
    match s.step (← stackCommand j) with
    | .error f => throw f.message
    | .ok (a, s') => return (a, s'.stack) :: (← runStackScript s' js)

def scriptOps (what : String) (j : JsonNode) : Decode (List JsonNode) :=
  match j.field? "ops" with
  | some o => o.asArray
  | none => throw s!"{what} needs ops"

def valueStack (j : JsonNode) : Decode JsonNode := do
  let arch ← j.fieldOr "arch" JsonNode.arch .amd64
  let gp ← j.fieldOr "gp" (list reg) arch.gpPool
  let vec ← j.fieldOr "vec" (list reg) arch.vecPool
  let steps ← runStackScript { stack := ValueStack.new gp vec } (← scriptOps "vls" j)
  return .obj [("steps", .arr (steps.map fun (r, s) =>
      .obj [(match r with
          | .ok a => ("result", ofStackAnswer a)
          | .error e => ("error", ofCompileError e)),
        ("sp", nat s.sp), ("ceil", nat s.ceil),
        ("used", strs (s.used.toList.map Reg.render)),
        ("stack", .arr (s.slots.toList.map ofLocation))]))]

def labelTable (j : JsonNode) : Decode JsonNode := do
  let cmds ← (← scriptOps "labels" j).mapM labelCommand
  return .obj [("steps", .arr ((LabelCommand.run Amd64.gpPool Amd64.vecPool cmds).map
    ofLabelAnswer))]

def ir (j : JsonNode) : Decode JsonNode := do
  let sig ← signature j
  let ops ← j.fieldOr "body" (list Operation.decode) []
  let m ← moduleDef j
  let shapes ← j.fieldOr "shapes" (list laneShape) []
  let d := m.decls
  let f := FunctionIr.ofBody sig d ops
  let h := FunctionIr.host sig d
  let callers := f.labelCallers.map (fun (l, n) => (l.render, n))
  let callers := callers.mergeSort (fun a b => decide (a.1 ≤ b.1))
  let lowerType : ValueType → String
    | .i32 => "i32" | .i64 => "i64" | .f32 => "f32" | .f64 => "f64"
    | .v128 => "v128" | .funcref => "funcref" | .externref => "externref"
  return .obj [
    ("names", strs (ops.map Operation.name)),
    ("labels", .arr ((ops.flatMap Operation.labels).map fun l =>
      .arr [.str l.render, .bool l.isReturn])),
    ("label_callers", .arr (callers.map fun (s, n) => .arr [.str s, nat n])),
    ("uses_memory", .bool f.usesMemory),
    ("host", .arr [.bool h.isHost, nat h.operations.length, nat h.labelCallers.length]),
    ("param_slots", nat sig.paramSlots),
    ("result_slots", nat sig.resultSlots),
    ("call_frame_offset", nat sig.frameOffset),
    ("drop_lens", .arr (ops.filterMap fun
      | .drop r => some (match r with
        | some r => if r.start ≤ r.stop then nat r.len.toNat else .null
        | none => .null)
      | _ => none)),
    ("shapes", .arr (shapes.map fun s => .obj [("lane_count", nat s.laneCount),
      ("is_float", .bool s.isFloat), ("lane_type", .str (lowerType s.laneType)),
      ("lane_slots", nat s.laneType.slots)])),
    ("function_signatures", .arr ((List.range (d.functions.size + 1)).map fun i =>
      match d.functionSignature? i with
      | some s => nats [s.paramSlots, s.resultSlots, s.frameOffset]
      | none => .null)),
    ("has_table", .bool d.hasTable),
    ("has_memory", .bool d.hasMemory),
    ("data_count", nat d.dataCount.toNat),
    ("element_count", nat d.elementCount.toNat)]

def runtimeObjects (j : JsonNode) : Decode JsonNode := do
  let mut out : List (String × JsonNode) := []
  if let some raws ← j.optField "status" (list asU32) then
    out := out ++ [("status", .arr (raws.map fun raw =>
      match Status.ofCode? raw with
      | some s => .obj [("status", .str s.name), ("raw", nat raw.toNat),
          ("trap", match s.trapKind? with
            | some k => .str k.name
            | none => .null),
          ("text", match s.trapKind? with
            | some k => .str k.message
            | none => .null)]
      | none => .null))]
  if let some raws ← j.optField "builtin" (list asU32) then
    out := out ++ [("builtin", .arr (raws.map fun raw =>
      match Builtin.ofCode? raw with
      | some b => .str b.name
      | none => .null))]
  if let some mj := j.field? "memory" then
    let mem ← match ← mj.optField "len" asNat with
      | some l => pure (LinearMemory.ofLength l)
      | none => do
        let bound (k : String) : Decode UInt32 :=
          match mj.field? k with
          | some v => v.asU32
          | none => throw s!"memory {k}"
        pure (LinearMemory.new (← bound "min") (← bound "max"))
    let grows ← j.fieldOr "memory_grow" (list asU32) []
    let row (r : Option UInt32) (m : LinearMemory) : JsonNode :=
      .arr [nat? (r.map (·.toNat)), nat m.pages.toNat, nat m.size, nat m.size]
    let (rows, _) := grows.foldl (fun (acc : List JsonNode × LinearMemory) d =>
      match acc.2.grow d with
      | some (old, m) => (acc.1 ++ [row (some old) m], m)
      | none => (acc.1 ++ [row none acc.2], acc.2)) ([row none mem], mem)
    out := out ++ [("memory", .arr rows)]
  if let some tj := j.field? "table" then
    let (min, max) ← tableSizes tj
    let t := RefTable.new min max
    let grows ← j.fieldOr "table_grow" (list fun p => do
        let xs ← p.asArray
        let part (i : Nat) (what : String) : Decode JsonNode :=
          match xs[i]? with
          | some v => pure v
          | none => throw s!"table_grow {what}"
        let delta ← (← part 0 "delta").asU32
        return (delta, ← (← part 1 "init").asU64)) []
    let elements (t : RefTable) : JsonNode := .arr (t.elements.toList.map fun e => nat e.toNat)
    let row (r : Option UInt32) (t : RefTable) : JsonNode :=
      .arr [nat? (r.map (·.toNat)), nat t.size, if t.size > 64 then nat t.size else elements t]
    let (rows, _) := grows.foldl (fun (acc : List JsonNode × RefTable) (d, init) =>
      match acc.2.grow d init with
      | some (old, t) => (acc.1 ++ [row (some old) t], t)
      | none => (acc.1 ++ [row none acc.2], acc.2)) ([.arr [.null, nat t.size, elements t]], t)
    out := out ++ [("table", .arr rows)]
  return .obj out

def codeSegment (j : JsonNode) : Decode JsonNode := do
  let fs ← match j.field? "functions" with
    | some f => list (fun f => do bytesOfHex (← f.asString)) f
    | none => throw "code_segment needs functions"
  let seg := CodeSegment.ofFunctions fs
  let single := CodeSegment.ofFunctions [fs.headD ByteArray.empty]
  return .obj [("offsets", nats (CodeSegment.offsets fs)),
    ("len", nat seg.size), ("is_empty", .bool seg.isEmpty), ("bytes", .str (hexOf seg.bytes)),
    ("contains", .arr [.bool (seg.containsOffset 0), .bool (seg.containsOffset seg.size),
      .bool (seg.containsOffset (-1))]),
    ("single_len", nat single.size), ("single_bytes", .str (hexOf single.bytes))]

end Request

end OnePassJit
