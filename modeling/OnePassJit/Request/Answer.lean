import OnePassJit.Request.Inspect
import OnePassJit.Request.Compile
import OnePassJit.Request.Run
import OnePassJit.Json.Read

/-!
Answering one request: the field `op` selects the kind, and a malformed request is
answered with the reason it cannot be read.
-/

namespace OnePassJit.Request

open JsonNode

def answer (j : JsonNode) : JsonNode :=
  let result : Decode JsonNode := do
    match j.field? "op" with
    | some (.str "vls") => valueStack j
    | some (.str "labels") => labelTable j
    | some (.str "ir") => ir j
    | some (.str "runtime") => runtimeObjects j
    | some (.str "code_segment") => codeSegment j
    | some (.str "compile") => compile j
    | some (.str "run") => run j
    | _ => throw "unknown op"
  match result with
  | .ok a => a
  | .error msg => badInput msg

/-- The answer to one request line, as compact JSON text; a line that is not JSON is a
malformed request. -/
def answerText (line : String) : String :=
  match read? line with
  | .ok j => (answer j).render
  | .error e => (badInput e.message).render

end OnePassJit.Request
