import OnePassJit.Arm64.Word
import OnePassJit.Register
import OnePassJit.Error

/-!
An A64 encoder: instruction words in order, labels, and the words waiting for a label.

Registers are checked against the bank each operand needs, in the order the operands
are encoded. A word that refers to a label is emitted with an empty offset field and
recorded; once every label is bound, each recorded word gets its field filled in, in
order of emission, and the first that cannot be is the error. Binding a label never
patches earlier code. Loads, stores and additions whose immediate does not fit their
field load it into x16 first, which the backend never allocates.
-/

namespace OnePassJit.Arm64

/-- How a word refers to a label. -/
inductive FixupKind where
  /-- `b`: signed 26-bit word offset in bits 0 to 25. -/
  | branch26
  /-- `b.cond`, `cbz`, `cbnz`: signed 19-bit word offset in bits 5 to 23. -/
  | branch19
  /-- `tbz`, `tbnz`: signed 14-bit word offset in bits 5 to 18. -/
  | branch14
  /-- `adr`: signed 21-bit byte offset, low two bits in bits 29 and 30. -/
  | adr
  /-- A jump table entry: bytes from the table's label to the target. -/
  | tableEntry (table : Nat)
  deriving DecidableEq, Repr, Inhabited

/-- A word waiting for the position of a label. -/
structure Fixup where
  pos : Nat
  label : Nat
  kind : FixupKind
  deriving Repr, Inhabited

/-- The encoder state. -/
structure Encoder where
  words : Array UInt32 := #[]
  /-- Word index each label is bound to. -/
  labels : Array (Option Nat) := #[]
  fixups : Array Fixup := #[]
  deriving Inhabited

abbrev EncM := StateT Encoder (Except EncodeError)

def zr : Reg := .gp 31

def ip0 : Reg := .gp 16

/-- Signed field of `bits` bits holding `v`, or the distance is out of range. -/
def signedField (bits : Nat) (v : Int) : Except EncodeError UInt32 :=
  if -(Nat.pow 2 (bits - 1) : Int) ≤ v ∧ v < Nat.pow 2 (bits - 1) then
    .ok ((UInt32.ofInt v) &&& (((1 : UInt32) <<< bits.toUInt32) - 1))
  else .error (.branchOutOfRange v)

/-- Fill in the offset field of a word referring to a label bound at `target`. -/
def resolveFixup (labels : Array (Option Nat)) (word : UInt32) (f : Fixup) (target : Nat) :
    Except EncodeError UInt32 := do
  let distance : Int := (target : Int) - f.pos
  match f.kind with
  | .branch26 => pure (word ||| (← signedField 26 distance))
  | .branch19 => pure (word ||| ((← signedField 19 distance) <<< 5))
  | .branch14 => pure (word ||| ((← signedField 14 distance) <<< 5))
  | .adr =>
    let bytes ← signedField 21 (distance * 4)
    pure (word ||| ((bytes &&& 3) <<< 29) ||| ((bytes >>> 2) <<< 5))
  | .tableEntry table =>
    match (labels[table]?).bind id with
    | some start => pure (UInt32.ofInt (((target : Int) - start) * 4))
    | none => throw (.unboundLabel table)

namespace Encoder

def finalize (e : Encoder) : Except EncodeError ByteArray := do
  let mut words := e.words
  for f in e.fixups do
    let some target := (e.labels[f.label]?).bind id | throw (.unboundLabel f.label)
    words := words.set! f.pos (← resolveFixup e.labels (words.getD f.pos 0) f target)
  pure ⟨(words.toList.flatMap fun (w : UInt32) =>
    [w.toUInt8, (w >>> 8).toUInt8, (w >>> 16).toUInt8, (w >>> 24).toUInt8]).toArray⟩

end Encoder

namespace Enc

def fail {α : Type} (e : EncodeError) : EncM α := throw e

def emit (w : UInt32) : EncM Unit := modify fun e => { e with words := e.words.push w }

def emitAll (ws : List UInt32) : EncM Unit := ws.forM emit

def position : EncM Nat := do pure (← get).words.size

def createLabel : EncM Nat := do
  let e ← get
  set { e with labels := e.labels.push none }
  pure e.labels.size

def bind (l : Nat) : EncM Unit := do
  let e ← get
  match e.labels[l]? with
  | none => fail (.unboundLabel l)
  | some (some _) => fail (.assembly s!"label {l} bound twice")
  | some none => set { e with labels := e.labels.set! l (some e.words.size) }

def bindNew : EncM Nat := do
  let l ← createLabel
  bind l
  pure l

def reference (l : Nat) (kind : FixupKind) (word : UInt32) : EncM Unit := do
  modify fun e => { e with fixups := e.fixups.push ⟨e.words.size, l, kind⟩ }
  emit word

/-- Bind `table` and emit one word per target holding its distance from the table. -/
def jumpTable (table : Nat) (targets : List Nat) : EncM Unit := do
  bind table
  targets.forM fun t => reference t (.tableEntry table) 0

def gp (op : String) (r : Reg) : EncM UInt32 :=
  if r.bank != 0 || r.id > 31 then fail (.invalidRegister op r) else pure r.id.toUInt32

def vr (op : String) (r : Reg) : EncM UInt32 :=
  if r.bank != 1 || r.id > 31 then fail (.invalidRegister op r) else pure r.id.toUInt32

/-! Moves and immediates. -/

/-- Three general registers: `rm`, `rn` and `rd` are checked in that order. -/
def rrr (op : String) (base : UInt32) (rd rn rm : Reg) : EncM Unit := do
  let m ← gp op rm
  let n ← gp op rn
  let d ← gp op rd
  emit (base ||| (m <<< 16) ||| (n <<< 5) ||| d)

def orrRR (w : Width) (rd rn rm : Reg) : EncM Unit := rrr "orr" ((0x2A000000 : UInt32) ||| w.sf) rd rn rm

def movRR (w : Width) (rd rn : Reg) : EncM Unit := orrRR w rd zr rn

def movImm (rd : Reg) (v : UInt64) : EncM Unit := do
  emitAll (movImmWords (← gp "mov" rd) v)

/-- A `movz`/`movk` pair loading a 32-bit value written later by `patchImm32`. -/
def movImm32Patchable (rd : Reg) : EncM Nat := do
  let d ← gp "mov" rd
  let pos ← position
  emit (movzWord .w64 d 0 0)
  emit (movkWord .w64 d 0 1)
  pure pos

def patchImm32 (pos : Nat) (v : UInt32) : EncM Unit :=
  modify fun e =>
    let set (ws : Array UInt32) (i : Nat) (h : UInt32) :=
      if i < ws.size then ws.set! i (withImm16 (ws.getD i 0) h) else ws
    { e with words := set (set e.words pos (v &&& 0xFFFF)) (pos + 1) (v >>> 16) }

/-! Integer arithmetic. -/

def addRR (w : Width) (rd rn rm : Reg) : EncM Unit := rrr "add" ((0x0B000000 : UInt32) ||| w.sf) rd rn rm

def addShifted (rd rn rm : Reg) (shift : Nat) : EncM Unit :=
  if shift > 63 then fail (.immediateOutOfRange "add" shift)
  else rrr "add" ((0x8B000000 : UInt32) ||| (shift.toUInt32 <<< 10)) rd rn rm

def subRR (w : Width) (rd rn rm : Reg) : EncM Unit := rrr "sub" ((0x4B000000 : UInt32) ||| w.sf) rd rn rm

def cmpRR (w : Width) (rn rm : Reg) : EncM Unit := rrr "cmp" ((0x6B000000 : UInt32) ||| w.sf) zr rn rm

def andRR (w : Width) (rd rn rm : Reg) : EncM Unit := rrr "and" ((0x0A000000 : UInt32) ||| w.sf) rd rn rm

def eorRR (w : Width) (rd rn rm : Reg) : EncM Unit := rrr "eor" ((0x4A000000 : UInt32) ||| w.sf) rd rn rm

def tstRR (w : Width) (rn rm : Reg) : EncM Unit := rrr "tst" ((0x6A000000 : UInt32) ||| w.sf) zr rn rm

def mul (w : Width) (rd rn rm : Reg) : EncM Unit := rrr "mul" ((0x1B007C00 : UInt32) ||| w.sf) rd rn rm

def msub (w : Width) (rd rn rm ra : Reg) : EncM Unit := do
  let a ← gp "msub" ra
  rrr "msub" ((0x1B008000 : UInt32) ||| w.sf ||| (a <<< 10)) rd rn rm

def div (w : Width) (signed : Bool) (rd rn rm : Reg) : EncM Unit :=
  rrr "div" ((if signed then (0x1AC00C00 : UInt32) else (0x1AC00800 : UInt32)) ||| w.sf) rd rn rm

def lslv (w : Width) (rd rn rm : Reg) : EncM Unit := rrr "lsl" ((0x1AC02000 : UInt32) ||| w.sf) rd rn rm

def lsrv (w : Width) (rd rn rm : Reg) : EncM Unit := rrr "lsr" ((0x1AC02400 : UInt32) ||| w.sf) rd rn rm

def asrv (w : Width) (rd rn rm : Reg) : EncM Unit := rrr "asr" ((0x1AC02800 : UInt32) ||| w.sf) rd rn rm

def rorv (w : Width) (rd rn rm : Reg) : EncM Unit := rrr "ror" ((0x1AC02C00 : UInt32) ||| w.sf) rd rn rm

def neg (w : Width) (rd rm : Reg) : EncM Unit := subRR w rd zr rm

def clz (w : Width) (rd rn : Reg) : EncM Unit := rrr "clz" ((0x5AC01000 : UInt32) ||| w.sf) rd rn zr

def rbit (w : Width) (rd rn : Reg) : EncM Unit := rrr "rbit" ((0x5AC00000 : UInt32) ||| w.sf) rd rn zr

/-- Add or subtract an immediate: a 12-bit immediate, one shifted by 12, or `x16`
loaded with it. `rd` and `rn` are checked first. -/
def addSubImm (op : String) (base : UInt32) (w : Width) (rd rn : Reg) (imm : UInt64)
    (regBase : UInt32) : EncM Unit := do
  let d ← gp op rd
  let n ← gp op rn
  if imm < (1 : UInt64) <<< 12 then
    emit (base ||| w.sf ||| (imm.toUInt32 <<< 10) ||| (n <<< 5) ||| d)
  else if imm &&& 0xFFF == 0 && imm < (1 : UInt64) <<< 24 then
    emit (base ||| w.sf ||| ((1 : UInt32) <<< 22) ||| ((imm >>> 12).toUInt32 <<< 10) ||| (n <<< 5) ||| d)
  else
    movImm ip0 imm
    rrr op (regBase ||| w.sf) rd rn ip0

def addRI (w : Width) (rd rn : Reg) (imm : UInt64) : EncM Unit :=
  addSubImm "add" (0x11000000 : UInt32) w rd rn imm (0x0B000000 : UInt32)

def subRI (w : Width) (rd rn : Reg) (imm : UInt64) : EncM Unit :=
  addSubImm "sub" (0x51000000 : UInt32) w rd rn imm (0x4B000000 : UInt32)

def cmpRI (w : Width) (rn : Reg) (imm : UInt64) : EncM Unit :=
  addSubImm "cmp" (0x71000000 : UInt32) w zr rn imm (0x6B000000 : UInt32)

def cmnRI (w : Width) (rn : Reg) (imm : UInt64) : EncM Unit :=
  addSubImm "cmn" (0x31000000 : UInt32) w zr rn imm (0x2B000000 : UInt32)

def bitfield (op : String) (base : UInt32) (w : Width) (rd rn : Reg) (immr imms : Nat) :
    EncM Unit := do
  let nBit : UInt32 := if w == .w64 then (1 : UInt32) <<< 22 else 0
  let n ← gp op rn
  let d ← gp op rd
  emit (base ||| w.sf ||| nBit ||| (immr.toUInt32 <<< 16) ||| (imms.toUInt32 <<< 10) |||
    (n <<< 5) ||| d)

def lsrRI (w : Width) (rd rn : Reg) (shift : Nat) : EncM Unit :=
  bitfield "lsr" (0x53000000 : UInt32) w rd rn (shift % w.bits) (w.bits - 1)

def lslRI (w : Width) (rd rn : Reg) (shift : Nat) : EncM Unit :=
  let s := shift % w.bits
  bitfield "lsl" (0x53000000 : UInt32) w rd rn ((w.bits - s) % w.bits) (w.bits - 1 - s)

def sxt (w : Width) (fromBits : Nat) (rd rn : Reg) : EncM Unit :=
  if !(fromBits == 8 || fromBits == 16 || fromBits == 32) || (fromBits == 32 && w == .w32) then
    fail (.immediateOutOfRange "sxt" fromBits)
  else bitfield "sxt" (0x13000000 : UInt32) w rd rn 0 (fromBits - 1)

def csel (w : Width) (rd rn rm : Reg) (c : Cond) : EncM Unit :=
  rrr "csel" ((0x1A800000 : UInt32) ||| w.sf ||| (c.code <<< 12)) rd rn rm

def cset (rd : Reg) (c : Cond) : EncM Unit :=
  rrr "cset" ((0x1A800400 : UInt32) ||| (c.invert.code <<< 12)) rd zr zr

/-! Loads and stores. -/

/-- Emit `opcode` addressing `[rn + offset]` in the cheapest form: a scaled unsigned
offset, an unscaled signed 9-bit offset, or `x16` holding the offset. -/
def memory (opcode : UInt32) (size : Nat) (rt : UInt32) (rn : Reg) (offset : Int) :
    EncM Unit := do
  let n ← gp "ldr/str" rn
  if offset ≥ 0 ∧ offset % size == 0 ∧ offset / size < 4096 then
    emit (opcode ||| ((offset / size).toNat.toUInt32 <<< 10) ||| (n <<< 5) ||| rt)
  else if -256 ≤ offset ∧ offset < 256 then
    emit (unscaledForm opcode ||| (((UInt32.ofInt offset) &&& 0x1FF) <<< 12) ||| (n <<< 5) ||| rt)
  else
    if rn == ip0 then fail (.immediateOutOfRange "ldr/str" offset)
    movImm ip0 (UInt64.ofInt offset)
    emit (registerOffsetForm opcode false ||| ((16 : UInt32) <<< 16) ||| (n <<< 5) ||| rt)

/-- `[rn + rm]`, the index shifted by the access size when `scaled`; `rm` is checked
before `rn`. -/
def memoryIndexed (opcode : UInt32) (rt : UInt32) (rn rm : Reg) (scaled : Bool) : EncM Unit := do
  let m ← gp "ldr/str" rm
  let n ← gp "ldr/str" rn
  emit (registerOffsetForm opcode scaled ||| (m <<< 16) ||| (n <<< 5) ||| rt)

def load (k : LoadKind) (rt rn : Reg) (offset : Int) : EncM Unit := do
  memory k.opcode k.size (← gp "ldr" rt) rn offset

def load64 (rt rn : Reg) (offset : Int) : EncM Unit := load .u64 rt rn offset

def loadIndexed (k : LoadKind) (rt rn rm : Reg) (scaled : Bool) : EncM Unit := do
  memoryIndexed k.opcode (← gp "ldr" rt) rn rm scaled

def store (bytes : Nat) (rt rn : Reg) (offset : Int) : EncM Unit := do
  memory (storeOpcode bytes) bytes (← gp "str" rt) rn offset

def store64 (rt rn : Reg) (offset : Int) : EncM Unit := store 8 rt rn offset

def storeIndexed (bytes : Nat) (rt rn rm : Reg) (scaled : Bool) : EncM Unit := do
  memoryIndexed (storeOpcode bytes) (← gp "str" rt) rn rm scaled

def loadVector (bytes : Nat) (vt rn : Reg) (offset : Int) : EncM Unit := do
  memory (vectorLoadOpcode bytes) bytes (← vr "ldr" vt) rn offset

def loadVectorIndexed (bytes : Nat) (vt rn rm : Reg) : EncM Unit := do
  memoryIndexed (vectorLoadOpcode bytes) (← vr "ldr" vt) rn rm false

def storeVector (bytes : Nat) (vt rn : Reg) (offset : Int) : EncM Unit := do
  memory (vectorStoreOpcode bytes) bytes (← vr "str" vt) rn offset

def storeVectorIndexed (bytes : Nat) (vt rn rm : Reg) : EncM Unit := do
  memoryIndexed (vectorStoreOpcode bytes) (← vr "str" vt) rn rm false

/-! Control flow. -/

def b (target : Nat) : EncM Unit := reference target .branch26 (0x14000000 : UInt32)

def bCond (c : Cond) (target : Nat) : EncM Unit := reference target .branch19 ((0x54000000 : UInt32) ||| c.code)

def cbz (w : Width) (rt : Reg) (target : Nat) : EncM Unit := do
  reference target .branch19 ((0x34000000 : UInt32) ||| w.sf ||| (← gp "cbz" rt))

def cbnz (w : Width) (rt : Reg) (target : Nat) : EncM Unit := do
  reference target .branch19 ((0x35000000 : UInt32) ||| w.sf ||| (← gp "cbnz" rt))

def tbz (isSet : Bool) (rt : Reg) (bit : Nat) (target : Nat) : EncM Unit := do
  if bit > 63 then fail (.immediateOutOfRange "tbz" bit)
  let base : UInt32 := if isSet then (0x37000000 : UInt32) else (0x36000000 : UInt32)
  let word := base ||| ((bit / 32).toUInt32 <<< 31) ||| ((bit % 32).toUInt32 <<< 19) |||
    (← gp "tbz" rt)
  reference target .branch14 word

def br (rn : Reg) : EncM Unit := do emit ((0xD61F0000 : UInt32) ||| ((← gp "br" rn) <<< 5))

def adr (rd : Reg) (target : Nat) : EncM Unit := do
  reference target .adr ((0x10000000 : UInt32) ||| (← gp "adr" rd))

def brk : EncM Unit := emit (0xD4200000 : UInt32)

/-! Scalar float. -/

/-- Three vector registers: `rm`, `rn` and `rd` are checked in that order. -/
def vvv (op : String) (base : UInt32) (rd rn rm : Reg) : EncM Unit := do
  let m ← vr op rm
  let n ← vr op rn
  let d ← vr op rd
  emit (base ||| (m <<< 16) ||| (n <<< 5) ||| d)

def vv (op : String) (base : UInt32) (rd rn : Reg) : EncM Unit := do
  let n ← vr op rn
  let d ← vr op rd
  emit (base ||| (n <<< 5) ||| d)

def fbin (op : FloatBinOp) (is32 : Bool) (rd rn rm : Reg) : EncM Unit :=
  vvv "fbin" (op.opcode ||| ftype is32) rd rn rm

def fun1 (op : FloatUnOp) (is32 : Bool) (rd rn : Reg) : EncM Unit :=
  vv "fun" (op.opcode ||| ftype is32) rd rn

def fcmp (is32 : Bool) (rn rm : Reg) : EncM Unit := do
  let m ← vr "fcmp" rm
  let n ← vr "fcmp" rn
  emit ((0x1E202000 : UInt32) ||| ftype is32 ||| (m <<< 16) ||| (n <<< 5))

def fcsel (is32 : Bool) (rd rn rm : Reg) (c : Cond) : EncM Unit :=
  vvv "fcsel" ((0x1E200C00 : UInt32) ||| ftype is32 ||| (c.code <<< 12)) rd rn rm

def fcvt (toDouble : Bool) (rd rn : Reg) : EncM Unit :=
  vv "fcvt" (if toDouble then (0x1E22C000 : UInt32) else (0x1E624000 : UInt32)) rd rn

def fmovToGp (w : Width) (rd vn : Reg) : EncM Unit := do
  let base : UInt32 := if w == .w32 then (0x1E260000 : UInt32) else (0x9E660000 : UInt32)
  let n ← vr "fmov" vn
  let d ← gp "fmov" rd
  emit (base ||| (n <<< 5) ||| d)

def fmovFromGp (w : Width) (vd rn : Reg) : EncM Unit := do
  let base : UInt32 := if w == .w32 then (0x1E270000 : UInt32) else (0x9E670000 : UInt32)
  let n ← gp "fmov" rn
  let d ← vr "fmov" vd
  emit (base ||| (n <<< 5) ||| d)

/-- Truncating conversion to an integer; it saturates, and sets the invalid operation
flag for NaN and out of range inputs. -/
def fcvtz (signed src32 : Bool) (w : Width) (rd vn : Reg) : EncM Unit := do
  let base : UInt32 := if signed then (0x1E380000 : UInt32) else (0x1E390000 : UInt32)
  let n ← vr "fcvtz" vn
  let d ← gp "fcvtz" rd
  emit (base ||| w.sf ||| ftype src32 ||| (n <<< 5) ||| d)

def intToFloat (signed dst32 : Bool) (w : Width) (vd rn : Reg) : EncM Unit := do
  let base : UInt32 := if signed then (0x1E220000 : UInt32) else (0x1E230000 : UInt32)
  let n ← gp "cvtf" rn
  let d ← vr "cvtf" vd
  emit (base ||| w.sf ||| ftype dst32 ||| (n <<< 5) ||| d)

def mrsFpsr (rt : Reg) : EncM Unit := do emit ((0xD53B4420 : UInt32) ||| (← gp "mrs" rt))

def msrFpsr (rt : Reg) : EncM Unit := do emit ((0xD51B4420 : UInt32) ||| (← gp "msr" rt))

/-! Vector. -/

def vadd (laneBytes : Nat) (vd vn vm : Reg) : EncM Unit :=
  vvv "add" ((0x4E208400 : UInt32) ||| (laneSize laneBytes <<< 22)) vd vn vm

def vsub (laneBytes : Nat) (vd vn vm : Reg) : EncM Unit :=
  vvv "sub" ((0x6E208400 : UInt32) ||| (laneSize laneBytes <<< 22)) vd vn vm

def vfadd (is32 : Bool) (vd vn vm : Reg) : EncM Unit :=
  vvv "fadd" ((0x4E20D400 : UInt32) ||| ftype is32) vd vn vm

def vfsub (is32 : Bool) (vd vn vm : Reg) : EncM Unit :=
  vvv "fsub" ((0x4EA0D400 : UInt32) ||| ftype is32) vd vn vm

def vand (vd vn vm : Reg) : EncM Unit := vvv "and" (0x4E201C00 : UInt32) vd vn vm

def vorr (vd vn vm : Reg) : EncM Unit := vvv "orr" (0x4EA01C00 : UInt32) vd vn vm

def veor (vd vn vm : Reg) : EncM Unit := vvv "eor" (0x6E201C00 : UInt32) vd vn vm

def vnot (vd vn : Reg) : EncM Unit := vv "not" (0x6E205800 : UInt32) vd vn

def vmov (vd vn : Reg) : EncM Unit := vorr vd vn vn

def dupGp (laneBytes : Nat) (vd rn : Reg) : EncM Unit := do
  let n ← gp "dup" rn
  let d ← vr "dup" vd
  emit ((0x4E000C00 : UInt32) ||| (laneImm5 laneBytes 0 <<< 16) ||| (n <<< 5) ||| d)

def dupLane (laneBytes : Nat) (vd vn : Reg) (lane : Nat) : EncM Unit :=
  vv "dup" ((0x4E000400 : UInt32) ||| (laneImm5 laneBytes lane <<< 16)) vd vn

def umov (laneBytes : Nat) (rd vn : Reg) (lane : Nat) : EncM Unit := do
  let q : UInt32 := if laneBytes == 8 then (1 : UInt32) <<< 30 else 0
  let n ← vr "umov" vn
  let d ← gp "umov" rd
  emit ((0x0E003C00 : UInt32) ||| q ||| (laneImm5 laneBytes lane <<< 16) ||| (n <<< 5) ||| d)

def smov (laneBytes : Nat) (w : Width) (rd vn : Reg) (lane : Nat) : EncM Unit := do
  let q : UInt32 := if w == .w64 then (1 : UInt32) <<< 30 else 0
  let n ← vr "smov" vn
  let d ← gp "smov" rd
  emit ((0x0E002C00 : UInt32) ||| q ||| (laneImm5 laneBytes lane <<< 16) ||| (n <<< 5) ||| d)

def insGp (laneBytes : Nat) (vd : Reg) (lane : Nat) (rn : Reg) : EncM Unit := do
  let n ← gp "ins" rn
  let d ← vr "ins" vd
  emit ((0x4E001C00 : UInt32) ||| (laneImm5 laneBytes lane <<< 16) ||| (n <<< 5) ||| d)

def insLane (laneBytes : Nat) (vd : Reg) (dstLane : Nat) (vn : Reg) (srcLane : Nat) :
    EncM Unit :=
  let imm4 := (srcLane.toUInt32 <<< laneSize laneBytes) &&& 0xF
  vv "ins" ((0x6E000400 : UInt32) ||| (laneImm5 laneBytes dstLane <<< 16) ||| (imm4 <<< 11)) vd vn

def cnt8b (vd vn : Reg) : EncM Unit := vv "cnt" (0x0E205800 : UInt32) vd vn

def addv8b (vd vn : Reg) : EncM Unit := vv "addv" (0x0E31B800 : UInt32) vd vn

def umaxp4s (vd vn vm : Reg) : EncM Unit := vvv "umaxp" (0x6EA0A400 : UInt32) vd vn vm

end Enc

end OnePassJit.Arm64
