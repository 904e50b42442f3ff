import OnePassJit.Amd64.Emit

/-!
Globals, linear memory, bulk memory and tables on amd64.

Every linear memory access computes `base + offset + size` as a 64-bit ceiling and
compares it with the memory length, so an access that starts in bounds but straddles
the end traps too. The access itself addresses `memory + ceiling - size`. Bulk
operations check both ranges first and then run a byte or word loop; a copy runs
backwards when the destination lies above the source, so overlapping ranges are copied
correctly.
-/

namespace OnePassJit.Amd64.Lower

def vectorBytes : SlotType → Nat
  | .f32 => 4
  | .f64 => 8
  | _ => 16

/-- A register holding the address of global `index`, and the global's slot type. -/
def globalAddress (index : UInt32) : LowerM (Reg × SlotType) := do
  let some g := (← fn).module.globals[index.toNat]?
    | throw (.invalidIndex .global index)
  let r ← allocate .gp
  asm (Asm.load64 r (ctx Abi.ctxGlobals))
  asm (Asm.load64 r (.at r (← disp index.toNat 8 .global)))
  pure (r, SlotType.ofValue g.ty)

def globalGet (index : UInt32) : LowerM Unit := do
  let (addr, t) ← globalAddress index
  let value : MemRef := .at addr Abi.globalValue
  match t with
  | .i32 =>
    asm (Asm.load .u32 addr value)
    pushRegister addr t
  | .i64 =>
    asm (Asm.load64 addr value)
    pushRegister addr t
  | _ =>
    let r ← allocate .vector
    asm (Asm.loadXmm (vectorBytes t) r value)
    releaseReg addr
    pushRegister r t

def globalSet (index : UInt32) : LowerM Unit := do
  let value ← popToRegister
  let (addr, t) ← globalAddress index
  let r ← regOf value
  let target : MemRef := .at addr Abi.globalValue
  match value.regKind with
  | .gp => asm (Asm.store64 target r)
  | .vector => asm (Asm.storeXmm (vectorBytes t) target r)
  release value
  releaseReg addr

/-- Add the constant `k` to the 64-bit register `r`: as an immediate when it fits 31 bits,
through a temporary otherwise. -/
def addConstant (r : Reg) (k : Nat) : LowerM Unit := do
  if k < Nat.pow 2 31 then
    asm (Asm.aluRI .add .w64 r k)
  else
    let tmp ← allocate .gp
    asm (Asm.movRI64 tmp k.toUInt64)
    asm (Asm.aluRR .add .w64 r tmp)
    releaseReg tmp

/-- Pop the base address and trap unless `base + offset + size` fits the memory; answers
the register holding that ceiling. -/
def boundsCheckedCeil (arg : MemArg) (size : Nat) : LowerM Reg := do
  let r ← regOf (← popToRegister)
  addConstant r (arg.offset.toNat + size)
  let ok ← asm Asm.createLabel
  asm (Asm.cmpRM .w64 r (ctx Abi.ctxMemoryLen))
  asm (Asm.jcc .be ok)
  exit (.trap .memoryOutOfBounds)
  asm (Asm.bind ok)
  pure r

def accessed (ceil : Reg) (size : Nat) : MemRef := .indexed memoryBaseReg ceil .s1 (-size)

def loadInt (kind : LoadKind) (size : Nat) (result : SlotType) (arg : MemArg) :
    LowerM Unit := do
  let r ← boundsCheckedCeil arg size
  asm (Asm.load kind r (accessed r size))
  pushRegister r result

def loadVector (size : Nat) (result : SlotType) (arg : MemArg) : LowerM Unit := do
  let ceil ← boundsCheckedCeil arg size
  let r ← allocate .vector
  asm (Asm.loadXmm size r (accessed ceil size))
  releaseReg ceil
  pushRegister r result

/-- Store the low `size` bytes of the register `r`, of kind `kind`, at `target`. -/
def storeFrom (kind : RegKind) (size : Nat) (target : MemRef) (r : Reg) : LowerM Unit :=
  match kind with
  | .gp => asm (Asm.store size target r)
  | .vector => asm (Asm.storeXmm size target r)

def store (size : Nat) (arg : MemArg) : LowerM Unit := do
  let value ← popToRegister
  let ceil ← boundsCheckedCeil arg size
  let r ← regOf value
  storeFrom value.regKind size (accessed ceil size) r
  release value
  releaseReg ceil

def memorySize : LowerM Unit := do
  materializeTopFlag
  let r ← allocate .gp
  asm (Asm.load64 r (ctx Abi.ctxMemoryLen))
  asm (Asm.shiftRI .shr .w64 r 16)
  pushRegister r .i32

/-- The page delta stays in its slot; the host replaces it with the result. -/
def memoryGrow : LowerM Unit := do
  releaseAllToStack
  callBuiltin .memoryGrow
  discard (stk StackM.pop)
  discard (stk (StackM.pushOnStack .i32))

def checkRange (offset count : Reg) (limit : MemRef) (oob : Nat) : LowerM Unit := do
  let tmp ← allocate .gp
  asm (Asm.movRR .w64 tmp offset)
  asm (Asm.aluRR .add .w64 tmp count)
  asm (Asm.cmpRM .w64 tmp limit)
  asm (Asm.jcc .a oob)
  releaseReg tmp

/-- Direction of an element copy loop. -/
inductive Direction where
  | forward
  | backward
  deriving DecidableEq

def Scale.ofBytes : Nat → Scale
  | 1 => .s1
  | 2 => .s2
  | 4 => .s4
  | _ => .s8

/-- Copy `count` elements of `scale` bytes from `src` to `dst`, both absolute
addresses; all three registers are clobbered. -/
def copyLoop (src dst count : Reg) (scale : Nat) (dir : Direction) : LowerM Unit := do
  let tmp ← allocate .gp
  let head ← asm Asm.createLabel
  let done ← asm Asm.createLabel
  asm (Asm.bind head)
  asm (Asm.testRR .w64 count count)
  asm (Asm.jcc .e done)
  let (src', dst') ← match dir with
    | .forward => pure ((MemRef.at src 0), (MemRef.at dst 0))
    | .backward => do
      asm (Asm.aluRI .sub .w64 count 1)
      pure (MemRef.indexed src count (Scale.ofBytes scale) 0,
        MemRef.indexed dst count (Scale.ofBytes scale) 0)
  if scale == 1 then
    asm (Asm.load .u8To32 tmp src')
    asm (Asm.store 1 dst' tmp)
  else
    asm (Asm.load64 tmp src')
    asm (Asm.store64 dst' tmp)
  if dir == .forward then
    asm (Asm.aluRI .add .w64 src scale)
    asm (Asm.aluRI .add .w64 dst scale)
    asm (Asm.aluRI .sub .w64 count 1)
  asm (Asm.jmp head)
  asm (Asm.bind done)
  releaseReg tmp

/-- A copy that is right for overlapping ranges: backwards when `dst` lies above `src`. -/
def overlappingCopy (src dst count : Reg) (scale : Nat) : LowerM Unit := do
  let backward ← asm Asm.createLabel
  let done ← asm Asm.createLabel
  asm (Asm.aluRR .cmp .w64 dst src)
  asm (Asm.jcc .a backward)
  copyLoop src dst count scale .forward
  asm (Asm.jmp done)
  asm (Asm.bind backward)
  copyLoop src dst count scale .backward
  asm (Asm.bind done)

def popThree : LowerM (Reg × Reg × Reg) := do
  let count ← regOf (← popToRegister)
  let src ← regOf (← popToRegister)
  let dst ← regOf (← popToRegister)
  pure (dst, src, count)

def releaseThree (a b c : Reg) : LowerM Unit := do
  releaseReg a
  releaseReg b
  releaseReg c

/-- A register holding the address of segment `index` of the array at `field`. -/
def segmentAddress (field : Int) (index : UInt32) : LowerM Reg := do
  let r ← allocate .gp
  asm (Asm.load64 r (ctx field))
  let off ← disp index.toNat Abi.segmentSize .segment
  if off != 0 then asm (Asm.aluRI .add .w64 r off)
  pure r

def tableAddress (index : UInt32) : LowerM Reg := do
  let r ← allocate .gp
  asm (Asm.load64 r (ctx Abi.ctxTables))
  asm (Asm.load64 r (.at r (← disp index.toNat 8 .table)))
  pure r

def trapBlock (oob : Nat) (st : Status) : LowerM Unit := do
  let checked ← asm Asm.createLabel
  asm (Asm.jmp checked)
  asm (Asm.bind oob)
  exit st
  asm (Asm.bind checked)

def memoryInit (index : UInt32) : LowerM Unit := do
  let (dst, src, count) ← popThree
  let seg ← segmentAddress Abi.ctxDataSegments index
  let oob ← asm Asm.createLabel
  checkRange src count (.at seg Abi.segmentLen) oob
  checkRange dst count (ctx Abi.ctxMemoryLen) oob
  trapBlock oob (.trap .memoryOutOfBounds)
  asm (Asm.addRM src (.at seg Abi.segmentStart))
  asm (Asm.aluRR .add .w64 dst memoryBaseReg)
  releaseReg seg
  copyLoop src dst count 1 .forward
  releaseThree dst src count

def memoryCopy : LowerM Unit := do
  let (dst, src, count) ← popThree
  let oob ← asm Asm.createLabel
  checkRange src count (ctx Abi.ctxMemoryLen) oob
  checkRange dst count (ctx Abi.ctxMemoryLen) oob
  trapBlock oob (.trap .memoryOutOfBounds)
  asm (Asm.aluRR .add .w64 src memoryBaseReg)
  asm (Asm.aluRR .add .w64 dst memoryBaseReg)
  overlappingCopy src dst count 1
  releaseThree dst src count

def memoryFill : LowerM Unit := do
  let (dst, value, count) ← popThree
  let oob ← asm Asm.createLabel
  checkRange dst count (ctx Abi.ctxMemoryLen) oob
  trapBlock oob (.trap .memoryOutOfBounds)
  asm (Asm.aluRR .add .w64 dst memoryBaseReg)
  let head ← asm Asm.createLabel
  let done ← asm Asm.createLabel
  asm (Asm.bind head)
  asm (Asm.testRR .w64 count count)
  asm (Asm.jcc .e done)
  asm (Asm.aluRI .sub .w64 count 1)
  asm (Asm.store 1 (.indexed dst count .s1 0) value)
  asm (Asm.jmp head)
  asm (Asm.bind done)
  releaseThree dst value count

def segmentDrop (field : Int) (index : UInt32) : LowerM Unit := do
  let seg ← segmentAddress field index
  asm (Asm.storeImm64 (.at seg Abi.segmentLen) 0)
  releaseReg seg

/-- Trap unless `offset` is below the table length; `table` then points at the
elements, and the answer addresses the element. -/
def tableElement (table offset : Reg) : LowerM MemRef := do
  let ok ← asm Asm.createLabel
  asm (Asm.cmpRM .w64 offset (.at table Abi.tableLen))
  asm (Asm.jcc .b ok)
  exit (.trap .invalidTableAccess)
  asm (Asm.bind ok)
  asm (Asm.load64 table (.at table Abi.tableElements))
  pure (.indexed table offset .s8 0)

def tableGet (index : UInt32) : LowerM Unit := do
  let offset ← regOf (← popToRegister)
  let table ← tableAddress index
  let element ← tableElement table offset
  asm (Asm.load64 offset element)
  releaseReg table
  pushRegister offset .i64

def tableSet (index : UInt32) : LowerM Unit := do
  let reference ← regOf (← popToRegister)
  let offset ← regOf (← popToRegister)
  let table ← tableAddress index
  let element ← tableElement table offset
  asm (Asm.store64 element reference)
  releaseThree reference offset table

def tableSize (index : UInt32) : LowerM Unit := do
  materializeTopFlag
  let table ← tableAddress index
  asm (Asm.load .u32 table (.at table Abi.tableLen))
  pushRegister table .i32

def signed32 (v : UInt32) : Int := if v.toNat < Nat.pow 2 31 then v.toNat else (v.toNat : Int) - Nat.pow 2 32

/-- The host reads `(init, delta, table index)` from the top three slots and writes the
previous size, or -1, over `init`. -/
def tableGrow (index : UInt32) : LowerM Unit := do
  discard (stk (StackM.pushOnStack .i32))
  let indexSlot ← slot ((← get).stack.sp - 1)
  releaseAllToStack
  asm (Asm.storeImm64 indexSlot (signed32 index))
  callBuiltin .tableGrow
  discardSlots 3
  discard (stk (StackM.pushOnStack .i32))

def tableFill (index : UInt32) : LowerM Unit := do
  let (offset, reference, count) ← popThree
  let table ← tableAddress index
  let oob ← asm Asm.createLabel
  checkRange offset count (.at table Abi.tableLen) oob
  trapBlock oob (.trap .invalidTableAccess)
  asm (Asm.load64 table (.at table Abi.tableElements))
  asm (Asm.lea offset (.indexed table offset .s8 0))
  let head ← asm Asm.createLabel
  let done ← asm Asm.createLabel
  asm (Asm.bind head)
  asm (Asm.testRR .w64 count count)
  asm (Asm.jcc .e done)
  asm (Asm.aluRI .sub .w64 count 1)
  asm (Asm.store64 (.indexed offset count .s8 0) reference)
  asm (Asm.jmp head)
  asm (Asm.bind done)
  releaseThree offset reference count
  releaseReg table

def tableCopy (srcTable dstTable : UInt32) : LowerM Unit := do
  let (dst, src, count) ← popThree
  let src0 ← tableAddress srcTable
  let dst0 ← tableAddress dstTable
  let oob ← asm Asm.createLabel
  checkRange src count (.at src0 Abi.tableLen) oob
  checkRange dst count (.at dst0 Abi.tableLen) oob
  trapBlock oob (.trap .invalidTableAccess)
  asm (Asm.load64 src0 (.at src0 Abi.tableElements))
  asm (Asm.load64 dst0 (.at dst0 Abi.tableElements))
  asm (Asm.lea src (.indexed src0 src .s8 0))
  asm (Asm.lea dst (.indexed dst0 dst .s8 0))
  releaseReg src0
  releaseReg dst0
  overlappingCopy src dst count 8
  releaseThree dst src count

def tableInit (elemIndex tableIndex : UInt32) : LowerM Unit := do
  let (dst, src, count) ← popThree
  let seg ← segmentAddress Abi.ctxElementSegments elemIndex
  let table ← tableAddress tableIndex
  let oob ← asm Asm.createLabel
  checkRange src count (.at seg Abi.segmentLen) oob
  checkRange dst count (.at table Abi.tableLen) oob
  trapBlock oob (.trap .invalidTableAccess)
  asm (Asm.load64 seg (.at seg Abi.segmentStart))
  asm (Asm.load64 table (.at table Abi.tableElements))
  asm (Asm.lea src (.indexed seg src .s8 0))
  asm (Asm.lea dst (.indexed table dst .s8 0))
  releaseReg seg
  releaseReg table
  copyLoop src dst count 8 .forward
  releaseThree dst src count

def refFunc (index : UInt32) : LowerM Unit := do
  materializeTopFlag
  let r ← allocate .gp
  asm (Asm.load64 r (ctx Abi.ctxFunctions))
  let off ← disp index.toNat Abi.fnSize .function
  if off != 0 then asm (Asm.aluRI .add .w64 r off)
  pushRegister r .i64

end OnePassJit.Amd64.Lower
