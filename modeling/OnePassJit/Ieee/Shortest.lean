import OnePassJit.Ieee.Round

/-!
The shortest decimal that reads back as a given datum.

A positive finite datum `v` and a digit count `p` fix the decimal grid of unit
`10^t` with `t = ⌊log₁₀ v⌋ - p + 1`; of the two grid points around `v`, those that round
back to `v` are candidates. The fewest digits with a candidate win, and of two
candidates the nearer one, the even one on a tie. Seventeen digits always suffice for
binary64, so the search stops there.
-/

namespace OnePassJit.Ieee

def decadeAtLeast (n d : Nat) (k : Int) : Bool :=
  if k ≥ 0 then n ≥ d * Nat.pow 10 k.toNat else n * Nat.pow 10 (-k).toNat ≥ d

/-- `⌊log₁₀ (n / d)⌋` for positive `n` and `d`, from the binary logarithm and a
correction of at most two decades either way. -/
def log10Ratio (n d : Nat) : Int :=
  let k := log2Ratio n d * 30103 / 100000
  let k := if decadeAtLeast n d k then k else k - 1
  let k := if decadeAtLeast n d k then k else k - 1
  let k := if decadeAtLeast n d (k + 1) then k + 1 else k
  if decadeAtLeast n d (k + 1) then k + 1 else k

def dropTrailingZeros (c : Nat) (t : Int) : Nat × Int :=
  if h : c ≠ 0 ∧ c % 10 = 0 then dropTrailingZeros (c / 10) (t + 1) else (c, t)
termination_by c
decreasing_by omega

namespace Format

variable (f : Format)

def ofDecimal (negative : Bool) (c : Nat) (t : Int) : Nat :=
  if t ≥ 0 then f.round negative (c * Nat.pow 10 t.toNat) 1 0
  else f.round negative c (Nat.pow 10 (-t).toNat) 0

/-- Of the grid points `c · 10^t` and `(c + 1) · 10^t` around `n / d`, those with `p`
digits or fewer that round back to the magnitude `b`, the nearer first. -/
def gridCandidates (b n d : Nat) (t : Int) : List Nat :=
  let c := if t ≥ 0 then n / (d * Nat.pow 10 t.toNat) else n * Nat.pow 10 (-t).toNat / d
  -- Twice the value against the midpoint `(2c + 1) · 10^t`, both scaled to integers.
  let (twice, mid) := if t ≥ 0 then (2 * n, (2 * c + 1) * Nat.pow 10 t.toNat * d)
    else (2 * n * Nat.pow 10 (-t).toNat, (2 * c + 1) * d)
  let lowerFirst := twice < mid || (twice == mid && c % 2 == 0)
  let order := if lowerFirst then [c, c + 1] else [c + 1, c]
  order.filter fun x => x != 0 && f.ofDecimal false x t == b

/-- Digits `c` and exponent `t` of the shortest decimal `c · 10^t` that rounds to the
positive finite datum `b`, nearest among the shortest; `c` has no trailing zero. -/
def shortest (b : Nat) : Nat × Int :=
  let (m, q) := f.significand b
  let (n, d) := if q ≥ 0 then (m * Nat.pow 2 q.toNat, 1) else (m, Nat.pow 2 (-q).toNat)
  let e := log10Ratio n d
  let found := (List.range 17).findSome? fun (i : Nat) =>
    let t := e - (i : Int)
    (f.gridCandidates b n d t).head?.map fun c => (c, t)
  let (c, t) := found.getD
    (if e - 16 ≥ 0 then n / (d * Nat.pow 10 (e - 16).toNat)
      else n * Nat.pow 10 (16 - e).toNat / d, e - 16)
  dropTrailingZeros c t

end Format

end OnePassJit.Ieee
