import OnePassJit.Amd64.Machine.AddressSpace
import OnePassJit.Abi

/-!
Where an instance keeps what generated code addresses.

Every structure gets a region of the machine's address space of its own, so a stack,
memory or table that grows keeps its address. Records of one kind (functions, globals,
tables, segments) sit side by side in one region; the bytes of the `i`-th table, data
segment and element segment get regions of their own after the fixed ones.
-/

namespace OnePassJit

open Amd64

/-- The regions of an instance. -/
inductive Area where
  | code
  | context
  | nativeStack
  | valueStack
  | module
  | functions
  | globals
  | globalPointers
  | memoryRecord
  | memory
  | tablePointers
  | tableRecords
  | typeIds
  | dataRecords
  | elementRecords
  | tableElements (i : Nat)
  | dataBytes (i : Nat)
  | elementRefs (i : Nat)
  deriving DecidableEq, Repr

namespace Area

/-- Region number; region 0 is left unmapped so that null is never an address. -/
def index : Area → Nat
  | .code => 1
  | .context => 2
  | .nativeStack => 3
  | .valueStack => 4
  | .module => 5
  | .functions => 6
  | .globals => 7
  | .globalPointers => 8
  | .memoryRecord => 9
  | .memory => 10
  | .tablePointers => 11
  | .tableRecords => 12
  | .typeIds => 13
  | .dataRecords => 14
  | .elementRecords => 15
  | .tableElements i => 16 + 3 * i
  | .dataBytes i => 17 + 3 * i
  | .elementRefs i => 18 + 3 * i

def base (a : Area) : UInt64 := regionBase a.index

end Area

def nativeStackSize : Nat := 4096

/-- Where generated code returns to when it exits: outside every region with code. -/
def hostReturnAddress : UInt64 := 16

def functionRecord (i : Nat) : UInt64 := Area.functions.base + (i * Abi.fnSize).toUInt64

def globalRecord (i : Nat) : UInt64 := Area.globals.base + (i * Abi.globalSize).toUInt64

def tableRecordSize : Nat := 16

def tableRecord (i : Nat) : UInt64 := Area.tableRecords.base + (i * tableRecordSize).toUInt64

/-- Function index of a reference: the address of a function record among `count`. -/
def functionIndex? (count : Nat) (ref : UInt64) : Option Nat :=
  if ref < Area.functions.base then none
  else
    let off := (ref - Area.functions.base).toNat
    if off % Abi.fnSize == 0 && off / Abi.fnSize < count then some (off / Abi.fnSize) else none

def wordsToBytes (ws : Array UInt64) : ByteArray :=
  ws.foldl (fun b w => writeLE (b ++ zeros 8) b.size 8 w) .empty

def bytesToWords (b : ByteArray) : Array UInt64 :=
  (Array.range (b.size / 8)).map fun i => readLE b (8 * i) 8

namespace Amd64.AddressSpace

/-- Write a word at an address that lies in a region; other writes are dropped. -/
def poke (m : AddressSpace) (addr : UInt64) (n : Nat) (v : UInt64) : AddressSpace :=
  (m.write addr n v).getD m

def peek (m : AddressSpace) (addr : UInt64) (n : Nat) : UInt64 :=
  (m.read addr n).getD 0

def setArea (m : AddressSpace) (a : Area) (b : ByteArray) : AddressSpace := m.setRegion a.index b

def area (m : AddressSpace) (a : Area) : ByteArray := m.region a.index

end Amd64.AddressSpace

end OnePassJit
