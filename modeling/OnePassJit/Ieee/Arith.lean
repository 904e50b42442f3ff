import OnePassJit.Ieee.Round

/-!
Arithmetic on bit patterns as the SSE unit computes it, rounding to nearest, ties to
even, with subnormals kept.

Finite operands are combined exactly and rounded once. NaNs follow the SSE rules: the
result of a two-operand operation is its first operand if that is a NaN, else its
second, made quiet; an invalid operation (`∞ - ∞`, `0 · ∞`, `0 / 0`, `∞ / ∞`, the root
of a negative number) gives the default NaN. An exact zero sum is `+0` unless both
addends are `-0`.
-/

namespace OnePassJit.Ieee

/-- Outcome of an ordered comparison. -/
inductive Ordering4 where
  | less
  | equal
  | greater
  | unordered
  deriving DecidableEq, Repr

/-- How `roundss` rounds to an integer, by its mode immediate. -/
inductive RoundMode where
  | nearest
  | down
  | up
  | towardZero
  deriving DecidableEq, Repr

namespace Format

variable (f : Format)

/-- The NaN rule of two-operand operations, or `none` when neither operand is a NaN. -/
def propagateNaN (a b : Nat) : Option Nat :=
  if f.isNaN a then some (f.quiet a)
  else if f.isNaN b then some (f.quiet b)
  else none

def scaledTo (b : Nat) (q : Int) : Int :=
  let (m, qb) := f.significand b
  let v : Int := m * Nat.pow 2 (qb - q).toNat
  if f.sign b then -v else v

def addNumbers (a b : Nat) : Nat :=
  if f.isInfinite a then
    if f.isInfinite b && f.sign a != f.sign b then f.defaultNaN else a
  else if f.isInfinite b then b
  else
    let q := min (f.significand a).2 (f.significand b).2
    let v := f.scaledTo a q + f.scaledTo b q
    if v == 0 then f.zero (f.sign a && f.sign b)
    else f.round (v < 0) v.natAbs 1 q

def add (a b : Nat) : Nat := (f.propagateNaN a b).getD (f.addNumbers a b)

def sub (a b : Nat) : Nat := (f.propagateNaN a b).getD (f.addNumbers a (f.negate b))

def mul (a b : Nat) : Nat :=
  (f.propagateNaN a b).getD <|
    let s := f.sign a != f.sign b
    if f.isInfinite a || f.isInfinite b then
      if f.isZero a || f.isZero b then f.defaultNaN else f.infinity s
    else
      let (ma, qa) := f.significand a
      let (mb, qb) := f.significand b
      f.round s (ma * mb) 1 (qa + qb)

def div (a b : Nat) : Nat :=
  (f.propagateNaN a b).getD <|
    let s := f.sign a != f.sign b
    if f.isInfinite a then
      if f.isInfinite b then f.defaultNaN else f.infinity s
    else if f.isInfinite b then f.zero s
    else if f.isZero b then
      if f.isZero a then f.defaultNaN else f.infinity s
    else
      let (ma, qa) := f.significand a
      let (mb, qb) := f.significand b
      f.round s ma mb (qa - qb)

/-- Square root: the exact root is `r + ε` with `r = ⌊√(m · 4^t)⌋`; with `r` at least
`fracBits + 3` bits long only whether `ε` is zero matters, so an inexact root rounds
like `r + 1/2`. -/
def sqrt (a : Nat) : Nat :=
  if f.isNaN a then f.quiet a
  else if f.isZero a then a
  else if f.sign a then f.defaultNaN
  else if f.isInfinite a then a
  else
    let (m, q) := f.significand a
    let (m, q) := if q % 2 == 0 then (m, q) else (2 * m, q - 1)
    let t := f.fracBits + 3
    let n := m * Nat.pow 4 t
    let r := isqrt n
    let e := q / 2 - t
    if r * r == n then f.round false r 1 e else f.round false (2 * r + 1) 2 e

def compare (a b : Nat) : Ordering4 :=
  if f.isNaN a || f.isNaN b then .unordered
  else
    let ka := f.orderKey a
    let kb := f.orderKey b
    if ka < kb then .less else if ka == kb then .equal else .greater

def minimum (a b : Nat) : Nat := if f.compare a b == .less then a else b

def maximum (a b : Nat) : Nat := if f.compare a b == .greater then a else b

/-- A NaN in another format: sign kept, payload aligned at its top, made quiet. -/
def convertNaN (g : Format) (b : Nat) : Nat :=
  let payload := f.fracField b
  let payload := if g.fracBits ≥ f.fracBits then payload * Nat.pow 2 (g.fracBits - f.fracBits)
    else payload / Nat.pow 2 (f.fracBits - g.fracBits)
  g.zero (f.sign b) + g.expMax * Nat.pow 2 g.fracBits + (payload ||| g.quietBit)

def convert (g : Format) (b : Nat) : Nat :=
  if f.isNaN b then f.convertNaN g b
  else if f.isInfinite b then g.infinity (f.sign b)
  else
    let (m, q) := f.significand b
    g.round (f.sign b) m 1 q

def truncate (b : Nat) : Int :=
  let (m, q) := f.significand b
  let v := shiftScale m q
  if f.sign b then -(v : Int) else v

/-- Round to an integral value; the result keeps the operand's sign, also when it is
zero. -/
def roundIntegral (mode : RoundMode) (b : Nat) : Nat :=
  if f.isNaN b then f.quiet b
  else if f.isInfinite b || f.isZero b then b
  else
    let (m, q) := f.significand b
    if q ≥ 0 then b
    else
      let unit := Nat.pow 2 (-q).toNat
      let whole := m / unit
      let exact := m % unit == 0
      let s := f.sign b
      let i := match mode with
        | .nearest => divRoundEven m unit
        | .towardZero => whole
        | .down => if s && !exact then whole + 1 else whole
        | .up => if !s && !exact then whole + 1 else whole
      f.round s i 1 0

end Format

end OnePassJit.Ieee
