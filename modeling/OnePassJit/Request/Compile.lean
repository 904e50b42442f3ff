import OnePassJit.Request.Decode
import OnePassJit.Session
import OnePassJit.Elf.Object

/-!
The `compile` request: compile every function of a module without running it, and
answer the machine code of each with the session's statistics.
-/

namespace OnePassJit.Request

open JsonNode

def ofCompiledCode (c : Compiled) : JsonNode :=
  .obj [("code", .str (hexOf c.code)), ("size", nat c.code.size), ("ceil", nat c.ceil),
    ("spills", nat c.spills), ("lowered", nat c.lowered)]

def ofSessionStats (s : SessionStats) : JsonNode :=
  .obj [("functions_compiled", nat s.functionsCompiled),
    ("host_trampolines", nat s.hostTrampolines),
    ("total_code_size", nat s.totalCodeSize),
    ("operations_lowered", nat s.operationsLowered),
    ("register_spills", nat s.registerSpills),
    ("max_stack_ceil", nat s.maxStackCeil)]

/-- The object file of a module's functions: whether a fresh object is empty, how many
functions it holds after they are added, their offsets and the file's bytes. -/
def ofObjectDump (arch : Arch) (codes : List Compiled) : JsonNode :=
  let (o, offsets) := Elf.ObjectFile.ofFunctions arch (codes.map (·.code))
  .obj [("empty_before", .bool (Elf.ObjectFile.new arch).isEmpty),
    ("functions", nat o.functionCount), ("offsets", .arr (offsets.map nat)),
    ("elf", .str (hexOf o.write))]

/-- Answer a `compile` request. -/
def compile (j : JsonNode) : Decode JsonNode := do
  let arch ← j.fieldOr "arch" arch .amd64
  let cfg ← compilerConfig arch ((← j.nullableField "config" pure).getD (.obj []))
  let m ← moduleDef j
  match m.functionIrs with
  | .error t => pure (ofCompileError (.invalidIndex .type t))
  | .ok irs =>
    match compileModule cfg irs with
    | .error e => pure (ofCompileError e)
    | .ok (codes, stats) =>
      let withText ← j.fieldOr "stats_text" asBool false
      let withDump ← j.fieldOr "dump" asBool false
      let base := [("functions", .arr (codes.map ofCompiledCode)),
        ("stats", ofSessionStats stats)]
      let text := if withText then
          [("stats_text", .str stats.render), ("session_arch", .str arch.name)]
        else []
      let dump := if withDump then [("dump", ofObjectDump arch codes)] else []
      pure (.obj (base ++ text ++ dump))

end OnePassJit.Request
