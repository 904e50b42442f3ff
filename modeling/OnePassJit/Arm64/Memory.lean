import OnePassJit.Arm64.Emit

/-!
Globals, linear memory, bulk memory and tables on arm64.

A linear memory access computes `base + offset + size`, traps unless it is at most the
memory length, and then addresses `memory + base + offset` with a register index.
Bulk operations check both ranges before a byte or word loop; a copy runs backwards
when the destination lies above the source.
-/

namespace OnePassJit.Arm64.Lower

def vectorBytes : SlotType → Nat
  | .f32 => 4
  | .f64 => 8
  | _ => 16

/-- A register holding the address of global `index`, and the global's slot type. -/
def globalAddress (index : UInt32) : LowerM (Reg × SlotType) := do
  let some g := (← fn).module.globals[index.toNat]?
    | throw (.invalidIndex .global index)
  let r ← allocate .gp
  loadCtx r Abi.ctxGlobals
  asm (Enc.load64 r r (← scaled index.toNat 8 .global))
  pure (r, SlotType.ofValue g.ty)

def globalGet (index : UInt32) : LowerM Unit := do
  materializeTopFlag
  let (addr, t) ← globalAddress index
  match t with
  | .i32 =>
    asm (Enc.load .u32 addr addr Abi.globalValue)
    pushRegister addr t
  | .i64 =>
    asm (Enc.load64 addr addr Abi.globalValue)
    pushRegister addr t
  | _ =>
    let r ← allocate .vector
    asm (Enc.loadVector (vectorBytes t) r addr Abi.globalValue)
    releaseReg addr
    pushRegister r t

def globalSet (index : UInt32) : LowerM Unit := do
  let value ← popToRegister
  let (addr, t) ← globalAddress index
  let r ← regOf value
  match value.regKind with
  | .gp => asm (Enc.store64 r addr Abi.globalValue)
  | .vector => asm (Enc.storeVector (vectorBytes t) r addr Abi.globalValue)
  release value
  releaseReg addr

/-- Pop the base address, trap unless `base + offset + size` fits the memory, and
answer the register holding `base + offset`. -/
def boundsCheckedAddress (arg : MemArg) (size : Nat) : LowerM Reg := do
  let base ← popToRegister
  let r ← regOf base
  asm (Enc.addRI .w64 r r (arg.offset.toUInt64 + size.toUInt64))
  loadCtx scratch0 Abi.ctxMemoryLen
  let ok ← asm Enc.createLabel
  asm (Enc.cmpRR .w64 r scratch0)
  asm (Enc.bCond .ls ok)
  exit (.trap .memoryOutOfBounds)
  asm (Enc.bind ok)
  asm (Enc.subRI .w64 r r size.toUInt64)
  pure r

def loadInt (kind : LoadKind) (size : Nat) (result : SlotType) (arg : MemArg) : LowerM Unit := do
  let r ← boundsCheckedAddress arg size
  asm (Enc.loadIndexed kind r memoryBaseReg r false)
  pushRegister r result

def loadVector (size : Nat) (result : SlotType) (arg : MemArg) : LowerM Unit := do
  let addr ← boundsCheckedAddress arg size
  let r ← allocate .vector
  asm (Enc.loadVectorIndexed size r memoryBaseReg addr)
  releaseReg addr
  pushRegister r result

def store (size : Nat) (arg : MemArg) : LowerM Unit := do
  let value ← popToRegister
  let addr ← boundsCheckedAddress arg size
  let r ← regOf value
  match value.regKind with
  | .gp => asm (Enc.storeIndexed size r memoryBaseReg addr false)
  | .vector => asm (Enc.storeVectorIndexed size r memoryBaseReg addr)
  release value
  releaseReg addr

def memorySize : LowerM Unit := do
  materializeTopFlag
  let r ← allocate .gp
  loadCtx r Abi.ctxMemoryLen
  asm (Enc.lsrRI .w64 r r 16)
  pushRegister r .i32

def memoryGrow : LowerM Unit := do
  releaseAllToStack
  callBuiltin .memoryGrow
  discard (stk StackM.pop)
  discard (stk (StackM.pushOnStack .i32))

/-- A 64-bit field: base register and offset. -/
structure Field where
  base : Reg
  offset : Int

def Field.ctx (offset : Int) : Field := ⟨contextReg, offset⟩

def checkRange (offset count : Reg) (limit : Field) (oob : Nat) : LowerM Unit := do
  asm (Enc.addRR .w64 scratch0 offset count)
  asm (Enc.load64 scratch1 limit.base limit.offset)
  asm (Enc.cmpRR .w64 scratch0 scratch1)
  asm (Enc.bCond .hi oob)

inductive Direction where
  | forward
  | backward
  deriving DecidableEq

/-- Copy `count` elements of `scale` bytes from `src` to `dst`, both absolute
addresses; all three registers are clobbered. -/
def copyLoop (src dst count : Reg) (scale : Nat) (dir : Direction) : LowerM Unit := do
  let kind : LoadKind := if scale == 1 then .u8 else .u64
  let head ← asm Enc.bindNew
  let done ← asm Enc.createLabel
  asm (Enc.cbz .w64 count done)
  match dir with
  | .forward =>
    asm (Enc.load kind scratch0 src 0)
    asm (Enc.store scale scratch0 dst 0)
    asm (Enc.addRI .w64 src src scale.toUInt64)
    asm (Enc.addRI .w64 dst dst scale.toUInt64)
    asm (Enc.subRI .w64 count count 1)
  | .backward =>
    asm (Enc.subRI .w64 count count 1)
    asm (Enc.loadIndexed kind scratch0 src count (scale != 1))
    asm (Enc.storeIndexed scale scratch0 dst count (scale != 1))
  asm (Enc.b head)
  asm (Enc.bind done)

/-- A copy that is right for overlapping ranges: backwards when `dst` lies above `src`. -/
def overlappingCopy (src dst count : Reg) (scale : Nat) : LowerM Unit := do
  let backward ← asm Enc.createLabel
  let done ← asm Enc.createLabel
  asm (Enc.cmpRR .w64 dst src)
  asm (Enc.bCond .hi backward)
  copyLoop src dst count scale .forward
  asm (Enc.b done)
  asm (Enc.bind backward)
  copyLoop src dst count scale .backward
  asm (Enc.bind done)

def fillLoop (dst value count : Reg) (scale : Nat) : LowerM Unit := do
  let head ← asm Enc.bindNew
  let done ← asm Enc.createLabel
  asm (Enc.cbz .w64 count done)
  asm (Enc.subRI .w64 count count 1)
  asm (Enc.storeIndexed scale value dst count (scale != 1))
  asm (Enc.b head)
  asm (Enc.bind done)

def popThree : LowerM (Reg × Reg × Reg) := do
  let count ← regOf (← popToRegister)
  let src ← regOf (← popToRegister)
  let dst ← regOf (← popToRegister)
  pure (dst, src, count)

def releaseThree (a b c : Reg) : LowerM Unit := do
  releaseReg a
  releaseReg b
  releaseReg c

def segmentAddress (field : Int) (index : UInt32) : LowerM Reg := do
  let r ← allocate .gp
  loadCtx r field
  let off ← scaled index.toNat Abi.segmentSize .segment
  if off != 0 then asm (Enc.addRI .w64 r r off.toNat.toUInt64)
  pure r

def tableAddress (index : UInt32) : LowerM Reg := do
  let r ← allocate .gp
  loadCtx r Abi.ctxTables
  asm (Enc.load64 r r (← scaled index.toNat 8 .table))
  pure r

/-- The trap that the range checks branching to `oob` lead to, out of line. -/
def trapBlock (oob : Nat) (st : Status) : LowerM Unit := do
  let checked ← asm Enc.createLabel
  asm (Enc.b checked)
  asm (Enc.bind oob)
  exit st
  asm (Enc.bind checked)

def memoryInit (index : UInt32) : LowerM Unit := do
  let (dst, src, count) ← popThree
  let seg ← segmentAddress Abi.ctxDataSegments index
  let oob ← asm Enc.createLabel
  checkRange src count ⟨seg, Abi.segmentLen⟩ oob
  checkRange dst count (.ctx Abi.ctxMemoryLen) oob
  trapBlock oob (.trap .memoryOutOfBounds)
  asm (Enc.load64 seg seg Abi.segmentStart)
  asm (Enc.addRR .w64 src src seg)
  asm (Enc.addRR .w64 dst dst memoryBaseReg)
  releaseReg seg
  copyLoop src dst count 1 .forward
  releaseThree dst src count

def memoryCopy : LowerM Unit := do
  let (dst, src, count) ← popThree
  let oob ← asm Enc.createLabel
  checkRange src count (.ctx Abi.ctxMemoryLen) oob
  checkRange dst count (.ctx Abi.ctxMemoryLen) oob
  trapBlock oob (.trap .memoryOutOfBounds)
  asm (Enc.addRR .w64 src src memoryBaseReg)
  asm (Enc.addRR .w64 dst dst memoryBaseReg)
  overlappingCopy src dst count 1
  releaseThree dst src count

def memoryFill : LowerM Unit := do
  let (dst, value, count) ← popThree
  let oob ← asm Enc.createLabel
  checkRange dst count (.ctx Abi.ctxMemoryLen) oob
  trapBlock oob (.trap .memoryOutOfBounds)
  asm (Enc.addRR .w64 dst dst memoryBaseReg)
  fillLoop dst value count 1
  releaseThree dst value count

def segmentDrop (field : Int) (index : UInt32) : LowerM Unit := do
  let seg ← segmentAddress field index
  asm (Enc.store64 zr seg Abi.segmentLen)
  releaseReg seg

/-- Trap unless `offset` is below the table's length, then point `table` at its
elements. -/
def tableElements (table offset : Reg) : LowerM Unit := do
  asm (Enc.load64 scratch0 table Abi.tableLen)
  let ok ← asm Enc.createLabel
  asm (Enc.cmpRR .w64 offset scratch0)
  asm (Enc.bCond .lo ok)
  exit (.trap .invalidTableAccess)
  asm (Enc.bind ok)
  asm (Enc.load64 table table Abi.tableElements)

def tableGet (index : UInt32) : LowerM Unit := do
  let offset ← regOf (← popToRegister)
  let table ← tableAddress index
  tableElements table offset
  asm (Enc.loadIndexed .u64 offset table offset true)
  releaseReg table
  pushRegister offset .i64

def tableSet (index : UInt32) : LowerM Unit := do
  let ref ← regOf (← popToRegister)
  let offset ← regOf (← popToRegister)
  let table ← tableAddress index
  tableElements table offset
  asm (Enc.storeIndexed 8 ref table offset true)
  releaseThree ref offset table

def tableSize (index : UInt32) : LowerM Unit := do
  materializeTopFlag
  let table ← tableAddress index
  asm (Enc.load .u32 table table Abi.tableLen)
  pushRegister table .i32

/-- The host reads `(init, delta, table index)` from the top three slots and writes the
previous size, or -1, over `init`. -/
def tableGrow (index : UInt32) : LowerM Unit := do
  discard (stk (StackM.pushOnStack .i32))
  let indexSlot ← slot ((← get).stack.sp - 1)
  releaseAllToStack
  asm (Enc.movImm scratch0 index.toUInt64)
  asm (Enc.store64 scratch0 stackBaseReg indexSlot)
  callBuiltin .tableGrow
  discardSlots 3
  discard (stk (StackM.pushOnStack .i32))

def tableFill (index : UInt32) : LowerM Unit := do
  let (offset, ref, count) ← popThree
  let table ← tableAddress index
  let oob ← asm Enc.createLabel
  checkRange offset count ⟨table, Abi.tableLen⟩ oob
  trapBlock oob (.trap .invalidTableAccess)
  asm (Enc.load64 table table Abi.tableElements)
  asm (Enc.addShifted offset table offset 3)
  fillLoop offset ref count 8
  releaseThree offset ref count
  releaseReg table

def tableCopy (srcTable dstTable : UInt32) : LowerM Unit := do
  let (dst, src, count) ← popThree
  let src0 ← tableAddress srcTable
  let dst0 ← tableAddress dstTable
  let oob ← asm Enc.createLabel
  checkRange src count ⟨src0, Abi.tableLen⟩ oob
  checkRange dst count ⟨dst0, Abi.tableLen⟩ oob
  trapBlock oob (.trap .invalidTableAccess)
  asm (Enc.load64 src0 src0 Abi.tableElements)
  asm (Enc.load64 dst0 dst0 Abi.tableElements)
  asm (Enc.addShifted src src0 src 3)
  asm (Enc.addShifted dst dst0 dst 3)
  releaseReg src0
  releaseReg dst0
  overlappingCopy src dst count 8
  releaseThree dst src count

def tableInit (elemIndex tableIndex : UInt32) : LowerM Unit := do
  let (dst, src, count) ← popThree
  let seg ← segmentAddress Abi.ctxElementSegments elemIndex
  let table ← tableAddress tableIndex
  let oob ← asm Enc.createLabel
  checkRange src count ⟨seg, Abi.segmentLen⟩ oob
  checkRange dst count ⟨table, Abi.tableLen⟩ oob
  trapBlock oob (.trap .invalidTableAccess)
  asm (Enc.load64 seg seg Abi.segmentStart)
  asm (Enc.load64 table table Abi.tableElements)
  asm (Enc.addShifted src seg src 3)
  asm (Enc.addShifted dst table dst 3)
  releaseReg seg
  releaseReg table
  copyLoop src dst count 8 .forward
  releaseThree dst src count

def refFunc (index : UInt32) : LowerM Unit := do
  materializeTopFlag
  let r ← allocate .gp
  loadCtx r Abi.ctxFunctions
  let off ← scaled index.toNat Abi.fnSize .function
  if off != 0 then asm (Enc.addRI .w64 r r off.toNat.toUInt64)
  pushRegister r .i64

end OnePassJit.Arm64.Lower
