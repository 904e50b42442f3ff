/-!
Byte layout of the records that generated code reads and writes.

Generated code keeps no state of its own between exits: everything it needs lives in a
call context (one per call chain, addressed through a reserved register), in function
records, in the instance record of each module and in the records it points to. Every
field is a 64-bit word unless noted.
-/

namespace OnePassJit.Abi

/-! Call context. -/

def ctxFunction : Int := 0
def ctxModule : Int := 8
def ctxGlobals : Int := 16
def ctxMemoryBase : Int := 24
def ctxMemoryLen : Int := 32
def ctxMemoryRecord : Int := 40
def ctxTables : Int := 48
def ctxFunctions : Int := 56
def ctxTypeIds : Int := 64
def ctxDataSegments : Int := 72
def ctxElementSegments : Int := 80
def ctxStackPointer : Int := 88
/-- Base of the current frame, in bytes from the start of the value stack. -/
def ctxStackBase : Int := 96
def ctxStackStart : Int := 104
def ctxStackLen : Int := 112
def ctxStatus : Int := 120
def ctxBuiltin : Int := 124
/-- Where to resume after a host or builtin call; where a trap happened. -/
def ctxReturnAddress : Int := 128
def ctxHostReturn : Int := 136
def ctxSize : Nat := 144

/-! Function record. -/

def fnCode : Int := 0
def fnTypeId : Int := 8
def fnModule : Int := 16
def fnIndex : Int := 24
def fnSize : Nat := 32

/-! Module instance record: where each resource array starts. -/

def modGlobals : Int := 0
def modMemory : Int := 8
def modTables : Int := 16
def modFunctions : Int := 24
def modTypeIds : Int := 32
def modDataSegments : Int := 40
def modElementSegments : Int := 48
def modSize : Nat := 56

/-! Global, memory, table and segment records. -/

def globalValue : Int := 8
def globalHigh : Int := 16
def globalSize : Nat := 24
def memoryBase : Int := 0
def memoryLen : Int := 8
def tableElements : Int := 0
def tableLen : Int := 8
def segmentStart : Int := 0
def segmentLen : Int := 8
def segmentSize : Nat := 16

end OnePassJit.Abi
