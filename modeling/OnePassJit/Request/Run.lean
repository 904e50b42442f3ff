import OnePassJit.Request.Decode
import OnePassJit.Engine.Call

/-!
The `run` request: instantiate a module, then call its functions, close it, write to
its memory or look at it, one action at a time. After each action the answer shows
what the instance holds: its globals, memory and tables when it has them, and its exit
code.
-/

namespace OnePassJit.Request

open JsonNode

/-- What a request asks of an instance. -/
inductive Action where
  | call (function : UInt32) (args : List JsonNode)
  | close (code : UInt32)
  | closeHandle (code : UInt32)
  | writeMemory (addr : Nat) (bytes : ByteArray)
  | inspect

/-- An action is told by the first of its keys `call`, `close`, `close_handle`,
`write_memory` and `inspect` that it has. -/
def action (j : JsonNode) : Decode Action := do
  if let some f := j.field? "call" then
    return .call (← f.asU32) (← j.fieldOr "args" asArray [])
  if let some c := j.field? "close" then return .close (← c.asU32)
  if let some c := j.field? "close_handle" then return .closeHandle (← c.asU32)
  if let some w := j.field? "write_memory" then
    let xs ← w.asArray
    let part (i : Nat) (what : String) : Decode JsonNode :=
      match xs[i]? with
      | some v => pure v
      | none => throw s!"write_memory {what}"
    let addr ← (← part 0 "addr").asNat
    return .writeMemory addr (← bytesOfHex (← (← part 1 "bytes").asString))
  if (j.field? "inspect").isSome then return .inspect
  throw s!"unknown action {j.render}"

def engineConfig (j : JsonNode) : Decode EngineConfig := do
  let arch ← j.fieldOr "arch" arch .amd64
  let compiler ← compilerConfig arch j
  return { initialStackSlots := max 1 (← j.fieldOr "initial_stack_slots" asNat 1024)
           callStackCeiling := ← j.fieldOr "call_stack_ceiling" asNat 5000000
           compiler }

/-- The slots of one call's arguments, each read by its parameter's type. -/
def argSlots (inst : Instance) (params : List ValueType) (args : List JsonNode) :
    Decode (List UInt64) := do
  let slots ← args.zipIdx.mapM fun (a, k) =>
    match params[k]?, a with
    | some .funcref, .null => pure [0]
    | some .funcref, a => do
      match inst.functionReference? (← a.asU32) with
      | some r => pure [r]
      | none => throw "funcref argument names unknown function"
    | some .v128, a => do
      match ← a.asArray with
      | [lo, hi] => pure [← lo.asU64, ← hi.asU64]
      | _ => throw "v128 argument must be [lo, hi]"
    | _, a => do pure [← a.asU64]
  pure slots.flatten

def ofReference (inst : Instance) (r : UInt64) : JsonNode :=
  if r == 0 then .null
  else match inst.functionIndex? r with
    | some i => nat i
    | none => .str "foreign"

/-- Values of the given types from their slots; a vector gives two strings. -/
def ofValues (inst : Instance) : List ValueType → List UInt64 → List JsonNode
  | .v128 :: ts, lo :: hi :: vs => u64 lo :: u64 hi :: ofValues inst ts vs
  | .funcref :: ts, v :: vs => ofReference inst v :: ofValues inst ts vs
  | .i32 :: ts, v :: vs | .f32 :: ts, v :: vs => u64 (v &&& 0xFFFFFFFF) :: ofValues inst ts vs
  | _ :: ts, v :: vs => u64 v :: ofValues inst ts vs
  | _, _ => []

def byteRuns (b : ByteArray) : List JsonNode :=
  let close (acc : Array JsonNode) (run : Option (Nat × Nat × UInt8)) : Array JsonNode :=
    match run with
    | some (s, n, v) => acc.push (nats [s, n, v.toNat])
    | none => acc
  let (acc, run) := (List.range b.size).foldl (fun (acc, run) i =>
    let v := b.get! i
    match run with
    | some (s, n, w) =>
      if v == w then (acc, some (s, n + 1, w))
      else (close acc run, if v == 0 then none else some (i, 1, v))
    | none => (acc, if v == 0 then none else some (i, 1, v))) (#[], none)
  (close acc run).toList

def ofEvent (inst : Instance) : ListenerEvent → JsonNode
  | .before f vs =>
    .arr [.str "before", nat f, .arr (ofValues inst (inst.functions.getD f default).signature.params vs)]
  | .after f vs =>
    .arr [.str "after", nat f, .arr (ofValues inst (inst.functions.getD f default).signature.results vs)]

/-- What the instance holds: globals, memory and tables when it has them, exit code. -/
def ofState (inst : Instance) : List (String × JsonNode) :=
  let globals := (inst.globalTypes.toList.zipIdx.map fun (t, i) =>
    let (lo, hi) := inst.global i
    match t with
    | .v128 => JsonNode.arr [u64 lo, u64 hi]
    | t => (ofValues inst [t] [lo]).headD .null)
  let memory := match inst.memory? with
    | some m => [("memory", JsonNode.obj [("pages", nat m.pages.toNat), ("len", nat m.size),
        ("runs", .arr (byteRuns m.bytes))])]
    | none => []
  let tables := (List.range inst.tableCount).map fun i =>
    JsonNode.arr (((inst.table? i).map (·.elements.toList)).getD [] |>.map (ofReference inst))
  (if globals.isEmpty then [] else [("globals", .arr globals)]) ++ memory ++
  (if tables.isEmpty then [] else [("tables", .arr tables)]) ++
  [("exit_code", match inst.exitCode with
    | some c => nat c.toNat
    | none => .null)]

def ofExecutionError (e : ExecutionError) : JsonNode :=
  match e with
  | .trap k frames => .obj [("error", .str "Trap"), ("message", .str e.message),
      ("trap", .str k.name), ("frames", nats frames)]
  | .moduleClosed c => .obj [("error", .str e.kind), ("message", .str e.message),
      ("exit_code", nat c.toNat)]
  | .compile c => ofCompileError c
  | .foreignFunction _ => .obj [("error", .str e.kind)]
  | e => .obj [("error", .str e.kind), ("message", .str e.message)]

def perform (inst : Instance) : Action → Decode (Instance × List (String × JsonNode))
  | .call f args => do
    let params := match inst.functions[f.toNat]? with
      | some fi => fi.signature.params
      | none => []
    let slots ← argSlots inst params args
    let (r, inst) := (Instance.call f slots).run.run inst
    match r with
    | .ok vs =>
      let results := match inst.functions[f.toNat]? with
        | some fi => ofValues inst fi.signature.results vs
        | none => []
      pure (inst, [("results", .arr results)])
    | .error e => pure (inst, [("error", ofExecutionError e)])
  | .close c => pure (inst.close c, [("closed", .bool true)])
  | .closeHandle c => pure (inst.close c, [("closed", .bool true)])
  | .writeMemory addr bytes =>
    let (inst, ok) := inst.writeMemory addr bytes
    pure (inst, [("written", .bool ok)])
  | .inspect =>
    let s := inst.segment
    pure (inst, [("code_segment", .obj [("len", nat s.size), ("is_empty", .bool s.isEmpty),
      ("contains_start", .bool (s.containsOffset 0)),
      ("contains_end", .bool (s.containsOffset s.size)), ("bytes_len", nat s.size)]),
      ("function_count", nat inst.functions.size)])

/-- Answer a `run` request. -/
def run (j : JsonNode) : Decode JsonNode := do
  let cfg ← engineConfig ((← j.nullableField "config" pure).getD (.obj []))
  let m ← moduleDef j
  match (instantiate m).run { config := cfg } with
  | .error e _ => pure (.obj [("instantiate", ofExecutionError e)])
  | .ok inst _ =>
    -- each action is read just before it is carried out
    let actions ← j.fieldOr "actions" asArray []
    let (_, steps) ← actions.foldlM (fun (acc : Instance × Array JsonNode) aj => do
      let a ← action aj
      let inst := { acc.1 with events := #[] }
      let (inst, own) ← perform inst a
      let isCall := match a with
        | .call _ _ => true
        | _ => false
      let events := if cfg.compiler.listener && isCall then
          [("events", JsonNode.arr (inst.events.toList.map (ofEvent inst)))]
        else []
      pure (inst, acc.2.push (.obj (own ++ events ++ ofState inst)))) (inst, #[])
    pure (.obj [("instantiate", .str "ok"), ("steps", .arr steps.toList)])

end OnePassJit.Request
