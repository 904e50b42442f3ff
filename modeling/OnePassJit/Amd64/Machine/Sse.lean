import OnePassJit.Amd64.Machine.Alu
import OnePassJit.Ieee.Arith

/-!
Operations on xmm registers.

A 128-bit value is viewed as lanes of 8, 16, 32 or 64 bits, lane 0 lowest. Integer
lanes wrap. Float lanes are single (32-bit lanes) or double (64-bit lanes) precision
with the arithmetic of `Ieee`. A scalar operation changes only lane 0 of its
destination and keeps the rest.
-/

namespace OnePassJit.Amd64

open Ieee

namespace Vec128

def toNat (v : Vec128) : Nat := v.lo.toNat + v.hi.toNat * Nat.pow 2 64

def ofNat (n : Nat) : Vec128 := ⟨n.toUInt64, (n / Nat.pow 2 64).toUInt64⟩

def lane (v : Vec128) (bits i : Nat) : Nat := v.toNat / Nat.pow 2 (bits * i) % Nat.pow 2 bits

def setLane (v : Vec128) (bits i x : Nat) : Vec128 :=
  let n := v.toNat
  let old := n / Nat.pow 2 (bits * i) % Nat.pow 2 bits
  ofNat (n - old * Nat.pow 2 (bits * i) + (x % Nat.pow 2 bits) * Nat.pow 2 (bits * i))

def zipLanes (bits : Nat) (f : Nat → Nat → Nat) (a b : Vec128) : Vec128 :=
  (List.range (128 / bits)).foldl (fun acc i => acc.setLane bits i (f (a.lane bits i) (b.lane bits i))) a

def and (a b : Vec128) : Vec128 := ⟨a.lo &&& b.lo, a.hi &&& b.hi⟩

def or (a b : Vec128) : Vec128 := ⟨a.lo ||| b.lo, a.hi ||| b.hi⟩

def xor (a b : Vec128) : Vec128 := ⟨a.lo ^^^ b.lo, a.hi ^^^ b.hi⟩

def andNot (a b : Vec128) : Vec128 := ⟨~~~a.lo &&& b.lo, ~~~a.hi &&& b.hi⟩

def isZero (a : Vec128) : Bool := a.lo == 0 && a.hi == 0

def ofLow (x : UInt64) : Vec128 := ⟨x, 0⟩

end Vec128

def scalarLane (bits : Nat) (f : Nat → Nat → Nat) (d s : Vec128) : Vec128 :=
  d.setLane bits 0 (f (d.lane bits 0) (s.lane bits 0))

def VecOp.apply (op : VecOp) (d s : Vec128) : Vec128 :=
  match op with
  | .movdqa => s
  | .movsd => d.setLane 64 0 (s.lane 64 0)
  | .pand => d.and s
  | .por => d.or s
  | .pxor => d.xor s
  | .pcmpeqd => Vec128.zipLanes 32 (fun a b => if a == b then 0xFFFFFFFF else 0) d s
  | .ptest => d
  | .paddb => Vec128.zipLanes 8 (· + ·) d s
  | .paddw => Vec128.zipLanes 16 (· + ·) d s
  | .paddd => Vec128.zipLanes 32 (· + ·) d s
  | .paddq => Vec128.zipLanes 64 (· + ·) d s
  | .psubb => Vec128.zipLanes 8 (fun a b => a + Nat.pow 2 8 - b) d s
  | .psubw => Vec128.zipLanes 16 (fun a b => a + Nat.pow 2 16 - b) d s
  | .psubd => Vec128.zipLanes 32 (fun a b => a + Nat.pow 2 32 - b) d s
  | .psubq => Vec128.zipLanes 64 (fun a b => a + Nat.pow 2 64 - b) d s
  | .addps => Vec128.zipLanes 32 Format.single.add d s
  | .addpd => Vec128.zipLanes 64 Format.double.add d s
  | .subps => Vec128.zipLanes 32 Format.single.sub d s
  | .subpd => Vec128.zipLanes 64 Format.double.sub d s
  | .pshufb =>
    (List.range 16).foldl (fun acc i =>
      let sel := s.lane 8 i
      acc.setLane 8 i (if sel ≥ 128 then 0 else d.lane 8 (sel % 16))) d
  | .punpcklqdq => ⟨d.lo, s.lo⟩
  | .movlhps => ⟨d.lo, s.lo⟩
  | .movhlps => ⟨s.hi, d.hi⟩
  | .cvtss2sd => d.setLane 64 0 (Format.single.convert Format.double (s.lane 32 0))
  | .cvtsd2ss => d.setLane 32 0 (Format.double.convert Format.single (s.lane 64 0))

/-- `ptest`: zero when `d and s` is zero, carry when `s and not d` is zero. -/
def ptestFlags (d s : Vec128) : Flags :=
  { cf := (Vec128.andNot d s).isZero, zf := (d.and s).isZero, sf := false, of := false,
    pf := false }

/-- A scalar float operation of `ScalarOp` other than `ucomis`, destination first. -/
def ScalarOp.apply (op : ScalarOp) (is32 : Bool) (d s : Vec128) : Vec128 :=
  let f := if is32 then Format.single else Format.double
  let bits := if is32 then 32 else 64
  match op with
  | .add => scalarLane bits f.add d s
  | .sub => scalarLane bits f.sub d s
  | .mul => scalarLane bits f.mul d s
  | .div => scalarLane bits f.div d s
  | .min => scalarLane bits f.minimum d s
  | .max => scalarLane bits f.maximum d s
  | .sqrt => scalarLane bits (fun _ b => f.sqrt b) d s
  | .ucomis => d
  | .and => d.and s
  | .or => d.or s
  | .xor => d.xor s
  | .andn => Vec128.andNot d s

/-- The flags `ucomis` sets for operands that compare as `o`: unordered sets zero, parity and
carry; less sets carry; equal sets zero. -/
def ucomisOf : Ordering4 → Flags
  | .unordered => { zf := true, pf := true, cf := true, sf := false, of := false }
  | .greater => { zf := false, pf := false, cf := false, sf := false, of := false }
  | .less => { zf := false, pf := false, cf := true, sf := false, of := false }
  | .equal => { zf := true, pf := false, cf := false, sf := false, of := false }

def ucomisFlags (is32 : Bool) (d s : Vec128) : Flags :=
  if is32 then ucomisOf (Format.single.compare (d.lane 32 0) (s.lane 32 0))
  else ucomisOf (Format.double.compare (d.lane 64 0) (s.lane 64 0))

def roundModeOf (imm : Nat) : RoundMode :=
  match imm % 4 with
  | 0 => .nearest
  | 1 => .down
  | 2 => .up
  | _ => .towardZero

/-- Truncating conversion to a signed integer of width `w`; NaNs, infinities and values
out of range give the integer indefinite, the word with only the sign bit set. -/
def truncToInt (is32 : Bool) (w : Width) (x : Nat) : UInt64 :=
  let f := if is32 then Format.single else Format.double
  let indefinite := w.signBit
  if f.isNaN x || f.isInfinite x then indefinite
  else
    let t := f.truncate x
    if -(Nat.pow 2 (w.bits - 1) : Int) ≤ t && t < Nat.pow 2 (w.bits - 1) then UInt64.ofInt t &&& w.mask
    else indefinite

def ShuffleOp.apply (op : ShuffleOp) (imm : Nat) (d s : Vec128) : Vec128 :=
  let sel (j : Nat) : Nat := imm / Nat.pow 4 j % 4
  match op with
  | .pshufd => (List.range 4).foldl (fun acc j => acc.setLane 32 j (s.lane 32 (sel j))) d
  | .pshuflw =>
    let r := (List.range 4).foldl (fun acc j => acc.setLane 16 j (s.lane 16 (sel j))) d
    ⟨r.lo, s.hi⟩
  | .shufps =>
    let r := d.setLane 32 0 (d.lane 32 (sel 0))
    let r := r.setLane 32 1 (d.lane 32 (sel 1))
    let r := r.setLane 32 2 (s.lane 32 (sel 2))
    r.setLane 32 3 (s.lane 32 (sel 3))
  | .insertps =>
    let r := d.setLane 32 (imm / 16 % 4) (s.lane 32 (imm / 64 % 4))
    (List.range 4).foldl (fun acc j => if imm / Nat.pow 2 j % 2 == 1 then acc.setLane 32 j 0 else acc) r

end OnePassJit.Amd64
