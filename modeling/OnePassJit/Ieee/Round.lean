import OnePassJit.Ieee.Format

/-!
Rounding an exact value to the nearest datum of a format, ties to even.

The exact value is `(-1)^s · n / d · 2^q` with natural `n` and `d`. Its unit in the last
place is fixed by its binade, `⌊log₂⌋ - fracBits`, but never below the one of the
subnormals; the significand is the value in that unit rounded to the nearest integer,
ties to the even one. A significand that rounds up to a power of two moves to the next
binade, and a binade above the largest finite one is an infinity. A value that rounds
to zero keeps its sign.
-/

namespace OnePassJit.Ieee

def divRoundEven (n d : Nat) : Nat :=
  let q := n / d
  let r := n % d
  if 2 * r > d || (2 * r == d && q % 2 == 1) then q + 1 else q

def shiftScale (n : Nat) (k : Int) : Nat :=
  if k ≥ 0 then n * Nat.pow 2 k.toNat else n / Nat.pow 2 (-k).toNat

def ratioAtLeast (n d : Nat) (k : Int) : Bool :=
  if k ≥ 0 then n ≥ d * Nat.pow 2 k.toNat else n * Nat.pow 2 (-k).toNat ≥ d

def log2Ratio (n d : Nat) : Int :=
  let k : Int := (Nat.log2 n : Int) - Nat.log2 d
  if ratioAtLeast n d k then k else k - 1

namespace Format

variable (f : Format)

/-- The bits of a finite datum: `m · 2^q` with `m < 2^(fracBits + 1)`, `q` at least the
subnormal exponent and `q` exactly it when `m` is below `2^fracBits`. -/
def encodeFinite (negative : Bool) (m : Nat) (q : Int) : Nat :=
  if m < Nat.pow 2 f.fracBits then f.zero negative + m
  else f.zero negative + (q - f.minQuantum + 1).toNat * Nat.pow 2 f.fracBits + (m - Nat.pow 2 f.fracBits)

/-- The datum nearest to `(-1)^negative · n / d · 2^q`, ties to even; `d` is positive. -/
def round (negative : Bool) (n d : Nat) (q : Int) : Nat :=
  if n == 0 then f.zero negative
  else
    let k := log2Ratio n d + q
    let e := max (k - f.fracBits) f.minQuantum
    let shift := q - e
    let m := if shift ≥ 0 then divRoundEven (n * Nat.pow 2 shift.toNat) d
      else divRoundEven n (d * Nat.pow 2 (-shift).toNat)
    let (m, e) := if m == Nat.pow 2 (f.fracBits + 1) then (Nat.pow 2 f.fracBits, e + 1) else (m, e)
    if e > f.maxQuantum then f.infinity negative
    else f.encodeFinite negative m e

def ofInt (v : Int) : Nat := f.round (v < 0) v.natAbs 1 0

end Format

/-- `⌊√n⌋`, one bit at a time from bit `k - 1` down, above the partial root `r`. -/
def isqrtFrom (n : Nat) : Nat → Nat → Nat
  | 0, r => r
  | k + 1, r =>
    let c := r + Nat.pow 2 k
    if c * c ≤ n then isqrtFrom n k c else isqrtFrom n k r

def isqrt (n : Nat) : Nat := isqrtFrom n (Nat.log2 n / 2 + 1) 0

end OnePassJit.Ieee
