import OnePassJit.Amd64.Machine.Cpu

/-!
Integer operations of the machine with the flags they set.

Operands and results of width 32 live in the low half of a 64-bit word. Addition sets
the carry on an unsigned carry out and the overflow on a signed one, subtraction (and
comparison) sets the carry on a borrow; logic operations clear both. The zero, sign and
parity flags describe the result, parity being set when its low byte has an even
number of ones; a multiply clears the zero flag whatever its product. Shift counts are taken modulo the width; a zero count changes no flag.
-/

namespace OnePassJit.Amd64

def Width.mask : Width → UInt64
  | .w32 => low32
  | .w64 => 0xFFFFFFFFFFFFFFFF

def Width.signBit : Width → UInt64
  | .w32 => 0x80000000
  | .w64 => 0x8000000000000000

def evenParity (v : UInt64) : Bool :=
  let b := v &&& 0xFF
  let b := b ^^^ (b >>> 4)
  let b := b ^^^ (b >>> 2)
  let b := b ^^^ (b >>> 1)
  b &&& 1 == 0

def resultFlags (w : Width) (r : UInt64) (f : Flags) : Flags :=
  { f with zf := r == 0, sf := r &&& w.signBit != 0, pf := evenParity r }

def Width.signed (w : Width) (v : UInt64) : Int :=
  let v := v &&& w.mask
  if v &&& w.signBit != 0 then (v.toNat : Int) - Nat.pow 2 w.bits else v.toNat

def aluAdd (w : Width) (a b : UInt64) (f : Flags) : UInt64 × Flags :=
  let a := a &&& w.mask
  let b := b &&& w.mask
  let r := (a + b) &&& w.mask
  (r, resultFlags w r
    { f with cf := r < a, of := ((a ^^^ r) &&& (b ^^^ r)) &&& w.signBit != 0 })

def aluSub (w : Width) (a b : UInt64) (f : Flags) : UInt64 × Flags :=
  let a := a &&& w.mask
  let b := b &&& w.mask
  let r := (a - b) &&& w.mask
  (r, resultFlags w r
    { f with cf := a < b, of := ((a ^^^ b) &&& (a ^^^ r)) &&& w.signBit != 0 })

def aluLogic (w : Width) (r : UInt64) (f : Flags) : UInt64 × Flags :=
  let r := r &&& w.mask
  (r, resultFlags w r { f with cf := false, of := false })

/-- A two-operand ALU operation; `cmp` computes the difference for its flags. -/
def alu (op : AluOp) (w : Width) (a b : UInt64) (f : Flags) : UInt64 × Flags :=
  match op with
  | .add => aluAdd w a b f
  | .sub | .cmp => aluSub w a b f
  | .and => aluLogic w (a &&& b) f
  | .or => aluLogic w (a ||| b) f
  | .xor => aluLogic w (a ^^^ b) f

/-- Two-operand signed multiply: the low half, carry and overflow when the product
does not fit. The architecture leaves the other flags undefined; the processors the
code runs on clear the zero flag, even for a zero product, and set sign and parity from
the low half. -/
def imul (w : Width) (a b : UInt64) (f : Flags) : UInt64 × Flags :=
  let p := w.signed a * w.signed b
  let r := (UInt64.ofInt p) &&& w.mask
  let fits := w.signed r == p
  (r, { resultFlags w r { f with cf := !fits, of := !fits } with zf := false })

def shift (op : ShiftOp) (w : Width) (v count : UInt64) (f : Flags) : UInt64 × Flags :=
  let bits : UInt64 := w.bits.toUInt64
  let c := count &&& (bits - 1)
  let v := v &&& w.mask
  if c == 0 then (v, f) else
  let msb (x : UInt64) : Bool := x &&& w.signBit != 0
  match op with
  | .shl =>
    let r := (v <<< c) &&& w.mask
    let cf := (v >>> (bits - c)) &&& 1 == 1
    (r, resultFlags w r { f with cf, of := msb r != cf })
  | .shr =>
    let r := v >>> c
    (r, resultFlags w r { f with cf := (v >>> (c - 1)) &&& 1 == 1, of := msb v })
  | .sar =>
    let s := w.signed v
    let r := UInt64.ofInt (s / Nat.pow 2 c.toNat) &&& w.mask
    let cf := (UInt64.ofInt (s / Nat.pow 2 (c.toNat - 1))) &&& 1 == 1
    (r, resultFlags w r { f with cf, of := false })
  | .rol =>
    let r := ((v <<< c) ||| (v >>> (bits - c))) &&& w.mask
    let cf := r &&& 1 == 1
    (r, { f with cf, of := msb r != cf })
  | .ror =>
    let r := ((v >>> c) ||| (v <<< (bits - c))) &&& w.mask
    let cf := msb r
    (r, { f with cf, of := cf != msb (r <<< 1) })

def highestBit (v : UInt64) : UInt64 := (Nat.log2 v.toNat).toUInt64

/-- Number of trailing zero bits of a word of width `w`; the width for zero. -/
def trailingZeros (w : Width) (v : UInt64) : UInt64 :=
  let v := v &&& w.mask
  if v == 0 then w.bits.toUInt64 else
  (((List.range w.bits).find? fun i => (v >>> i.toUInt64) &&& 1 == 1).getD 0).toUInt64

def popCount (v : UInt64) : UInt64 :=
  ((List.range 64).filter fun i => (v >>> i.toUInt64) &&& 1 == 1).length.toUInt64

/-- Bit scans and counts: the result, or `none` when the destination is left as it is
(a scan of zero). -/
def bitOp (op : BitOp) (w : Width) (v : UInt64) (f : Flags) : Option UInt64 × Flags :=
  let v := v &&& w.mask
  match op with
  | .lzcnt =>
    let r := if v == 0 then w.bits.toUInt64 else w.bits.toUInt64 - 1 - highestBit v
    (some r, { f with cf := v == 0, zf := r == 0 })
  | .tzcnt =>
    let r := trailingZeros w v
    (some r, { f with cf := v == 0, zf := r == 0 })
  | .bsr => if v == 0 then (none, { f with zf := true }) else (some (highestBit v), { f with zf := false })
  | .bsf =>
    if v == 0 then (none, { f with zf := true }) else (some (trailingZeros w v), { f with zf := false })
  | .popcnt =>
    (some (popCount v), { cf := false, zf := v == 0, sf := false, of := false, pf := false })

end OnePassJit.Amd64
