import OnePassJit.Register

/-!
Register assignment of arm64 code.

x0 holds the call context, x1 the current function's stack base, x2 the linear memory
base and x29 the module instance. x27 and x28 are general scratch registers, v30 and v31
vector scratch registers, and x16 is reserved to the encoder. The allocator hands out
x3 to x15, x19 to x26 and v0 to v29.
-/

namespace OnePassJit.Arm64

def contextReg : Reg := .gp 0
def stackBaseReg : Reg := .gp 1
def memoryBaseReg : Reg := .gp 2
def moduleReg : Reg := .gp 29
def scratch0 : Reg := .gp 27
def scratch1 : Reg := .gp 28
def vecScratch0 : Reg := .vec 30
def vecScratch1 : Reg := .vec 31

def gpPool : List Reg :=
  ((List.range 13).map fun i => Reg.gp (i + 3).toUInt8) ++
    ((List.range 8).map fun i => Reg.gp (i + 19).toUInt8)

def vecPool : List Reg := (List.range 30).map fun i => .vec i.toUInt8

end OnePassJit.Arm64
