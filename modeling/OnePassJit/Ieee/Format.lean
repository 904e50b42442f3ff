/-!
IEEE 754 binary interchange formats, read from their bit patterns.

A datum of width `1 + e + f` is a sign bit, an `e`-bit biased exponent and an `f`-bit
fraction. The exponent of all ones is an infinity (fraction zero) or a NaN, quiet when
the top fraction bit is set; exponent zero is a zero or a subnormal. A finite datum is
`(-1)^s · m · 2^q` for a natural significand `m` and an integer exponent `q`, the
exponent of its unit in the last place.
-/

namespace OnePassJit.Ieee

/-- A binary format: widths of the exponent and fraction fields. -/
structure Format where
  expBits : Nat
  fracBits : Nat
  deriving DecidableEq, Repr

namespace Format

def single : Format := ⟨8, 23⟩

def double : Format := ⟨11, 52⟩

variable (f : Format)

def width : Nat := 1 + f.expBits + f.fracBits

def bias : Nat := Nat.pow 2 (f.expBits - 1) - 1

def expMax : Nat := Nat.pow 2 f.expBits - 1

def minQuantum : Int := 1 - (f.bias : Int) - f.fracBits

def maxQuantum : Int := (f.bias : Int) - f.fracBits

def signMask : Nat := Nat.pow 2 (f.width - 1)

def quietBit : Nat := Nat.pow 2 (f.fracBits - 1)

end Format

/-- The value a bit pattern stands for. -/
inductive Value where
  | nan
  | infinite (negative : Bool)
  /-- `(-1)^negative · m · 2^q`. -/
  | finite (negative : Bool) (m : Nat) (q : Int)
  deriving DecidableEq, Repr

namespace Format

variable (f : Format)

def sign (b : Nat) : Bool := b / f.signMask % 2 == 1

def expField (b : Nat) : Nat := b / Nat.pow 2 f.fracBits % Nat.pow 2 f.expBits

def fracField (b : Nat) : Nat := b % Nat.pow 2 f.fracBits

def isNaN (b : Nat) : Bool := f.expField b == f.expMax && f.fracField b != 0

def isInfinite (b : Nat) : Bool := f.expField b == f.expMax && f.fracField b == 0

def isZero (b : Nat) : Bool := f.expField b == 0 && f.fracField b == 0

def magnitude (b : Nat) : Nat := b % f.signMask

def quiet (b : Nat) : Nat := b ||| f.quietBit

/-- The NaN an invalid operation produces: negative, quiet, payload zero. -/
def defaultNaN : Nat := f.signMask + f.expMax * Nat.pow 2 f.fracBits + f.quietBit

def zero (negative : Bool) : Nat := if negative then f.signMask else 0

def infinity (negative : Bool) : Nat := f.zero negative + f.expMax * Nat.pow 2 f.fracBits

def negate (b : Nat) : Nat := if f.sign b then b - f.signMask else b + f.signMask

/-- Significand and exponent of a finite pattern: its magnitude is `m · 2^q`. -/
def significand (b : Nat) : Nat × Int :=
  let e := f.expField b
  if e == 0 then (f.fracField b, f.minQuantum)
  else (f.fracField b + Nat.pow 2 f.fracBits, (e : Int) - f.bias - f.fracBits)

def decode (b : Nat) : Value :=
  if f.isNaN b then .nan
  else if f.isInfinite b then .infinite (f.sign b)
  else
    let (m, q) := f.significand b
    .finite (f.sign b) m q

def orderKey (b : Nat) : Int :=
  if f.sign b then -(f.magnitude b : Int) else f.magnitude b

end Format

end OnePassJit.Ieee
