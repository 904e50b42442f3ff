import OnePassJit.Proofs.Ieee.Order

/-!
Rounding integers to a format, and rounding twice.

An integer `n` of the binade `[2 ^ k, 2 ^ (k + 1))` above the width of the significand
rounds to its quotient by `2 ^ (k - fracBits)`, ties to even, at the binade's exponent
(`round_of_binade`); one of at most that width is exact (`round_of_binade_exact`). So every
integer of 64 bits is a pattern of the format (`ofInt_lt`), and two consequences follow for
code that converts a 64-bit unsigned integer through a signed conversion:

* doubling a datum is exact, the same significand one binade up (`add_self_encodeFinite`);
* halving with the shifted-out bit kept sticky leaves the quotient and every half-way
  comparison of the rounding as they were (`divRoundEven_sticky`), so rounding the half and
  doubling rounds the whole once (`add_self_round_halve`).
-/

namespace OnePassJit.Ieee

theorem divRoundEven_eq (n d : Nat) : divRoundEven n d =
    if d < 2 * (n % d) ∨ (2 * (n % d) = d ∧ n / d % 2 = 1) then n / d + 1 else n / d := by
  simp only [divRoundEven, gt_iff_lt, Bool.or_eq_true, decide_eq_true_eq, Bool.and_eq_true,
    beq_iff_eq]

theorem div_le_divRoundEven (n d : Nat) : n / d ≤ divRoundEven n d := by
  rw [divRoundEven_eq]
  split <;> omega

theorem divRoundEven_le (n d : Nat) : divRoundEven n d ≤ n / d + 1 := by
  rw [divRoundEven_eq]
  split <;> omega

/-- Halving with the shifted-out bits kept sticky in the low bit loses nothing that rounding
to a unit of `2 ^ (j + 1)`, `j ≥ 2`, looks at: the quotient is the same, and the remainder is
above, at or below half the unit exactly when the whole one is. -/
theorem divRoundEven_sticky {x j : Nat} (hj : 2 ≤ j) :
    divRoundEven (2 * (x / 4) + if x % 4 = 0 then 0 else 1) (2 ^ j) =
      divRoundEven x (2 ^ (j + 1)) := by
  obtain ⟨c, hc⟩ : ∃ c, 2 ^ j = 4 * c := ⟨2 ^ (j - 2), by
    rw [show j = j - 2 + 2 by omega, Nat.pow_add]; simp [Nat.mul_comm]⟩
  have hc' : 2 ^ (j + 1) = 8 * c := by rw [Nat.pow_succ, hc]; ring
  have hcpos : 0 < c := by have := Nat.two_pow_pos j; omega
  set q := x / (8 * c) with hq
  set r := x % (8 * c) with hr
  have hx : x = 8 * c * q + r := (Nat.div_add_mod x (8 * c)).symm
  have hrlt : r < 8 * c := Nat.mod_lt _ (by omega)
  set P := c * q
  have hx4 : x / 4 = 2 * P + r / 4 := by
    rw [hx, show 8 * c * q = 4 * (2 * P) by simp [P]; ring]; omega
  have hxm : x % 4 = r % 4 := by
    rw [hx, show 8 * c * q = 4 * (2 * P) by simp [P]; ring]; omega
  set s := if r % 4 = 0 then 0 else 1 with hs
  have hy : 2 * (x / 4) + (if x % 4 = 0 then 0 else 1) = (2 * (r / 4) + s) + 4 * c * q := by
    rw [hx4, hxm, show 4 * c * q = 4 * P by simp [P]; ring]; omega
  have hslt : 2 * (r / 4) + s < 4 * c := by
    have : s ≤ 1 := by rw [hs]; split <;> omega
    omega
  have hdiv : (2 * (r / 4) + s + 4 * c * q) / (4 * c) = q ∧
      (2 * (r / 4) + s + 4 * c * q) % (4 * c) = 2 * (r / 4) + s := by
    rw [Nat.add_mul_div_left _ _ (by omega), Nat.add_mul_mod_self_left, Nat.div_eq_of_lt hslt,
      Nat.mod_eq_of_lt hslt]
    simp
  rw [hy, hc, hc', divRoundEven_eq, divRoundEven_eq, hdiv.1, hdiv.2, ← hq, ← hr]
  have habove : 4 * c < 2 * (2 * (r / 4) + s) ↔ 8 * c < 2 * r := by
    rw [hs]; split <;> omega
  have hhalf : 2 * (2 * (r / 4) + s) = 4 * c ↔ 2 * r = 8 * c := by
    rw [hs]; split <;> omega
  simp only [habove, hhalf]

theorem divRoundEven_binade {n k p : Nat} (hlo : 2 ^ k ≤ n) (hhi : n < 2 ^ (k + 1))
    (hp : p ≤ k) :
    2 ^ p ≤ divRoundEven n (2 ^ (k - p)) ∧ divRoundEven n (2 ^ (k - p)) ≤ 2 ^ (p + 1) := by
  have hpow : 2 ^ p * 2 ^ (k - p) = 2 ^ k := by
    rw [← Nat.pow_add]; congr 1; omega
  have hq₁ : 2 ^ p ≤ n / 2 ^ (k - p) :=
    (Nat.le_div_iff_mul_le (Nat.two_pow_pos _)).mpr (by rw [hpow]; exact hlo)
  have hq₂ : n / 2 ^ (k - p) < 2 ^ (p + 1) :=
    (Nat.div_lt_iff_lt_mul (Nat.two_pow_pos _)).mpr (by
      rw [Nat.pow_succ, Nat.mul_right_comm, hpow, ← Nat.pow_succ]; exact hhi)
  have hm₁ := div_le_divRoundEven n (2 ^ (k - p))
  have hm₂ := divRoundEven_le n (2 ^ (k - p))
  omega

theorem log2Ratio_one {n k : Nat} (hlo : 2 ^ k ≤ n) (hhi : n < 2 ^ (k + 1)) :
    log2Ratio n 1 = k := by
  have hn : n ≠ 0 := by have := Nat.two_pow_pos k; omega
  have hlog : Nat.log2 n = k := (Nat.log2_eq_iff hn).mpr ⟨hlo, hhi⟩
  have h1 : Nat.log2 1 = 0 := (Nat.log2_eq_iff one_ne_zero).mpr ⟨le_rfl, by decide⟩
  simp only [log2Ratio, ratioAtLeast, hlog, h1]
  simp [hlo]

theorem half_or_low (n : Nat) : n / 2 ||| n % 2 = 2 * (n / 4) + if n % 4 = 0 then 0 else 1 := by
  have hb : ∀ (a : Nat) (b c : Bool), Nat.bit b a ||| Nat.bit c 0 = Nat.bit (b || c) a := by
    intro a b c
    rw [Nat.lor_bit, Nat.or_zero]
  have hn : n / 2 = Nat.bit (n / 2 % 2 == 1) (n / 4) := by
    rw [Nat.bit_val]
    cases h : n / 2 % 2 == 1 <;> simp at h <;> simp <;> omega
  have hm : n % 2 = Nat.bit (n % 2 == 1) 0 := by
    rw [Nat.bit_val]
    cases h : n % 2 == 1 <;> simp at h <;> simp <;> omega
  rw [hn, hm, hb, Nat.bit_val]
  by_cases h0 : n % 4 = 0
  · have h1 : n / 2 % 2 = 0 := by omega
    have h2 : n % 2 = 0 := by omega
    simp [h0, h1, h2]
  · rw [if_neg h0]
    have : (n / 2 % 2 == 1 || n % 2 == 1) = true := by
      simp only [Bool.or_eq_true, beq_iff_eq]
      omega
    simp [this]

namespace Format

variable {f : Format}

def carry (f : Format) (negative : Bool) (m : Nat) (e : Int) : Nat :=
  if m = 2 ^ (f.fracBits + 1) then f.encodeFinite negative (2 ^ f.fracBits) (e + 1)
  else f.encodeFinite negative m e

/-- An integer of the binade `[2 ^ k, 2 ^ (k + 1))`, wider than the significand and scaled by
`2 ^ q` into the normal range, rounds to its quotient by `2 ^ (k - fracBits)`, ties to even,
at the exponent `k - fracBits + q`. -/
theorem round_of_binade {n k : Nat} {q : Int} (negative : Bool) (hlo : 2 ^ k ≤ n)
    (hhi : n < 2 ^ (k + 1)) (hk : f.fracBits < k) (hmin : f.minQuantum ≤ k - f.fracBits + q)
    (hmax : k - f.fracBits + q + 1 ≤ f.maxQuantum) :
    f.round negative n 1 q =
      f.carry negative (divRoundEven n (2 ^ (k - f.fracBits))) (k - f.fracBits + q) := by
  have hn : (n == 0) = false := by
    have := Nat.two_pow_pos k
    simp only [beq_eq_false_iff_ne]; omega
  have he : max ((k : Int) + q - f.fracBits) f.minQuantum = k - f.fracBits + q := by
    rw [max_eq_left (by omega)]; ring
  have hs : ¬ (q - (k - f.fracBits + q) ≥ (0 : Int)) := by omega
  have ht : (-(q - (k - f.fracBits + q))).toNat = k - f.fracBits := by omega
  simp only [round, hn, log2Ratio_one hlo hhi, he, hs, ht, if_false, Nat.one_mul, Nat.pow_eq,
    beq_iff_eq, carry, Bool.false_eq_true, if_false]
  by_cases hm : divRoundEven n (2 ^ (k - f.fracBits)) = 2 ^ (f.fracBits + 1)
  · simp only [hm, if_true]
    rw [if_neg (by omega)]
  · simp only [hm, if_false]
    rw [if_neg (by omega)]

/-- An integer of the binade `[2 ^ k, 2 ^ (k + 1))` no wider than the significand is exact:
its significand is `n` shifted to `fracBits + 1` bits. -/
theorem round_of_binade_exact {n k : Nat} {q : Int} (negative : Bool) (hlo : 2 ^ k ≤ n)
    (hhi : n < 2 ^ (k + 1)) (hk : k ≤ f.fracBits) (hmin : f.minQuantum ≤ k - f.fracBits + q)
    (hmax : k - f.fracBits + q ≤ f.maxQuantum) :
    f.round negative n 1 q =
      f.encodeFinite negative (n * 2 ^ (f.fracBits - k)) (k - f.fracBits + q) := by
  have hn : (n == 0) = false := by
    have := Nat.two_pow_pos k
    simp only [beq_eq_false_iff_ne]; omega
  have he : max ((k : Int) + q - f.fracBits) f.minQuantum = k - f.fracBits + q := by
    rw [max_eq_left (by omega)]; ring
  have hs : q - (k - f.fracBits + q) ≥ (0 : Int) := by omega
  have ht : (q - (k - f.fracBits + q)).toNat = f.fracBits - k := by omega
  have hm : n * 2 ^ (f.fracBits - k) < 2 ^ (f.fracBits + 1) := by
    calc n * 2 ^ (f.fracBits - k) < 2 ^ (k + 1) * 2 ^ (f.fracBits - k) :=
          Nat.mul_lt_mul_of_pos_right hhi (Nat.two_pow_pos _)
      _ = 2 ^ (f.fracBits + 1) := by rw [← Nat.pow_add]; congr 1; omega
  have hdiv : divRoundEven (n * 2 ^ (f.fracBits - k)) 1 = n * 2 ^ (f.fracBits - k) := by
    simp [divRoundEven_eq, Nat.mod_one]
  simp only [round, hn, log2Ratio_one hlo hhi, he, hs, ht, if_true, Nat.pow_eq,
    beq_iff_eq, Bool.false_eq_true, if_false, hdiv, Nat.ne_of_lt hm]
  rw [if_neg (by omega)]

theorem toNat_lt_expMax {e : Int} (hx : 0 < f.expBits) (hlo : f.minQuantum ≤ e)
    (hhi : e ≤ f.maxQuantum) : (e - f.minQuantum + 1).toNat < f.expMax := by
  have h2 : 2 ^ f.expBits = 2 * 2 ^ (f.expBits - 1) := by
    rw [← Nat.pow_succ']; congr 1; omega
  have h1 := Nat.one_le_two_pow (n := f.expBits - 1)
  simp only [minQuantum, maxQuantum, bias, expMax, Nat.pow_eq] at hlo hhi ⊢
  omega

/-- A normal datum: significand `m` of `fracBits + 1` bits at exponent `e`. -/
structure Normal (f : Format) (m : Nat) (e : Int) : Prop where
  lo : 2 ^ f.fracBits ≤ m
  hi : m < 2 ^ (f.fracBits + 1)
  min : f.minQuantum ≤ e
  max : e ≤ f.maxQuantum

theorem encodeFinite_of_normal (negative : Bool) {m : Nat} {e : Int} (h : f.Normal m e) :
    f.encodeFinite negative m e =
      f.zero negative + ((e - f.minQuantum + 1).toNat * 2 ^ f.fracBits + (m - 2 ^ f.fracBits)) := by
  simp only [encodeFinite, Nat.pow_eq, if_neg (Nat.not_lt.mpr h.lo), Nat.add_assoc]

theorem encodeFinite_false {m : Nat} {e : Int} (h : f.Normal m e) :
    f.encodeFinite false m e =
      (e - f.minQuantum + 1).toNat * 2 ^ f.fracBits + (m - 2 ^ f.fracBits) := by
  rw [encodeFinite_of_normal false h, zero, if_neg Bool.false_ne_true, Nat.zero_add]

theorem fields_lt_signMask {m : Nat} {e : Int} (hx : 0 < f.expBits) (h : f.Normal m e) :
    (e - f.minQuantum + 1).toNat * 2 ^ f.fracBits + (m - 2 ^ f.fracBits) < f.signMask := by
  have hE := toNat_lt_expMax hx h.min h.max
  have hr : m - 2 ^ f.fracBits < 2 ^ f.fracBits := by
    have := h.hi; have := h.lo; rw [Nat.pow_succ] at *; omega
  rw [signMask_eq, Nat.pow_add]
  calc (e - f.minQuantum + 1).toNat * 2 ^ f.fracBits + (m - 2 ^ f.fracBits)
      < ((e - f.minQuantum + 1).toNat + 1) * 2 ^ f.fracBits := by rw [Nat.succ_mul]; omega
    _ ≤ 2 ^ f.expBits * 2 ^ f.fracBits :=
        Nat.mul_le_mul_right _ (hE.trans expMax_lt)

theorem encodeFinite_lt (negative : Bool) {m : Nat} {e : Int} (hx : 0 < f.expBits)
    (h : f.Normal m e) : f.encodeFinite negative m e < 2 ^ f.width := by
  have hf := fields_lt_signMask hx h
  rw [encodeFinite_of_normal negative h, two_pow_width]
  cases negative <;> simp only [zero, Bool.false_eq_true, if_false, if_true] <;> omega

theorem carry_lt (negative : Bool) {m : Nat} {e : Int} (hx : 0 < f.expBits)
    (hlo : 2 ^ f.fracBits ≤ m) (hhi : m ≤ 2 ^ (f.fracBits + 1)) (hmin : f.minQuantum ≤ e)
    (hmax : e + 1 ≤ f.maxQuantum) : f.carry negative m e < 2 ^ f.width := by
  unfold carry
  split
  · exact encodeFinite_lt negative hx ⟨le_rfl, Nat.pow_lt_pow_succ (by decide), by omega, hmax⟩
  · exact encodeFinite_lt negative hx ⟨hlo, lt_of_le_of_ne hhi ‹_›, hmin, by omega⟩

theorem significand_encodeFinite {m : Nat} {e : Int} (hx : 0 < f.expBits) (h : f.Normal m e) :
    f.significand (f.encodeFinite false m e) = (m, e) := by
  have hE := toNat_lt_expMax hx h.min h.max
  have hmin := h.min
  have hlo := h.lo
  have hr : m - 2 ^ f.fracBits < 2 ^ f.fracBits := by
    have := h.hi; rw [Nat.pow_succ] at this; omega
  rw [encodeFinite_false h, significand_of_fields (hE.trans expMax_lt) hr,
    if_neg (by omega), Prod.mk.injEq]
  simp only [minQuantum] at hmin ⊢
  omega

theorem classify_encodeFinite {m : Nat} {e : Int} (hx : 0 < f.expBits) (h : f.Normal m e) :
    f.isNaN (f.encodeFinite false m e) = false ∧
      f.isInfinite (f.encodeFinite false m e) = false ∧
      f.sign (f.encodeFinite false m e) = false := by
  have hE := toNat_lt_expMax hx h.min h.max
  have hr : m - 2 ^ f.fracBits < 2 ^ f.fracBits := by
    have := h.hi; have := h.lo; rw [Nat.pow_succ] at *; omega
  obtain ⟨hexp, -⟩ := fields_of_lt (hE.trans expMax_lt) hr
  rw [← encodeFinite_false h] at hexp
  have hlt : f.encodeFinite false m e < f.signMask := by
    rw [encodeFinite_false h]
    exact fields_lt_signMask hx h
  refine ⟨?_, ?_, ?_⟩
  · simp [isNaN, hexp, hE.ne]
  · simp [isInfinite, hexp, hE.ne]
  · simp [sign, Nat.div_eq_of_lt hlt]

/-- Doubling a normal datum is exact: its significand one binade up. -/
theorem add_self_encodeFinite {m : Nat} {e : Int} (hx : 0 < f.expBits) (h : f.Normal m e)
    (hmax : e + 2 ≤ f.maxQuantum) :
    f.add (f.encodeFinite false m e) (f.encodeFinite false m e) =
      f.encodeFinite false m (e + 1) := by
  obtain ⟨hnan, hinf, hsign⟩ := classify_encodeFinite hx h
  have hm := h.lo
  have hv : (f.scaledTo (f.encodeFinite false m e) e + f.scaledTo (f.encodeFinite false m e) e) =
      ((2 * m : Nat) : Int) := by
    simp only [scaledTo, significand_encodeFinite hx h, hsign, sub_self, Int.toNat_zero,
      Bool.false_eq_true, if_false]
    push_cast; ring
  have h2m : (2 * m : Nat) ≠ 0 := by have := Nat.two_pow_pos f.fracBits; omega
  simp only [add, propagateNaN, hnan, Bool.false_eq_true, if_false, Option.getD_none, addNumbers,
    hinf, significand_encodeFinite hx h, min_self, hv]
  have hz : ((2 * m : Nat) : Int) ≠ 0 := by exact_mod_cast h2m
  have hpos : decide (((2 * m : Nat) : Int) < 0) = false := by simp
  rw [if_neg (by simpa using hz), hpos, Int.natAbs_natCast]
  have hp := Nat.two_pow_pos f.fracBits
  have hhi := h.hi
  rw [Nat.pow_succ] at hhi
  rw [round_of_binade (k := f.fracBits + 1) false (by rw [Nat.pow_succ]; omega)
    (by rw [Nat.pow_succ, Nat.pow_succ]; omega) (by omega) (by have := h.min; push_cast; omega)
    (by push_cast; omega)]
  have hdiv : divRoundEven (2 * m) (2 ^ (f.fracBits + 1 - f.fracBits)) = m := by
    rw [show f.fracBits + 1 - f.fracBits = 1 by omega, divRoundEven_eq]
    simp
  rw [hdiv, carry, if_neg (by rw [Nat.pow_succ]; omega)]
  congr 1
  push_cast
  ring

theorem add_self_carry {m : Nat} {e : Int} (hx : 0 < f.expBits) (hlo : 2 ^ f.fracBits ≤ m)
    (hhi : m ≤ 2 ^ (f.fracBits + 1)) (hmin : f.minQuantum ≤ e) (hmax : e + 3 ≤ f.maxQuantum) :
    f.add (f.carry false m e) (f.carry false m e) = f.carry false m (e + 1) := by
  unfold carry
  by_cases hm : m = 2 ^ (f.fracBits + 1)
  · have hN : f.Normal (2 ^ f.fracBits) (e + 1) :=
      ⟨le_rfl, Nat.pow_lt_pow_succ (by decide), by omega, by omega⟩
    rw [if_pos hm, if_pos hm, add_self_encodeFinite hx hN (by omega)]
  · have hN : f.Normal m e := ⟨hlo, lt_of_le_of_ne hhi hm, hmin, by omega⟩
    rw [if_neg hm, if_neg hm, add_self_encodeFinite hx hN (by omega)]

/-- Rounding the half of `x` with a sticky low bit and doubling the result rounds `x` once:
with at least two bits below the significand, the sticky bit keeps every tie and every
half-way comparison of `x`. -/
theorem add_self_round_halve {x k : Nat} (hx : 0 < f.expBits) (hlo : 2 ^ (k + 1) ≤ x)
    (hhi : x < 2 ^ (k + 2)) (hk : f.fracBits + 2 ≤ k) (hmin : f.minQuantum ≤ k - f.fracBits)
    (hmax : k - f.fracBits + 3 ≤ f.maxQuantum) :
    f.add (f.round false (x / 2 ||| x % 2) 1 0) (f.round false (x / 2 ||| x % 2) 1 0) =
      f.round false x 1 0 := by
  obtain ⟨B, hB⟩ : ∃ B, 2 ^ k = 2 * B := ⟨2 ^ (k - 1), by
    rw [← Nat.pow_succ']; congr 1; omega⟩
  have hk1 : 2 ^ (k + 1) = 4 * B := by rw [Nat.pow_succ, hB]; ring
  have hk2 : 2 ^ (k + 2) = 8 * B := by rw [Nat.pow_succ, hk1]; ring
  rw [half_or_low]
  set y := 2 * (x / 4) + if x % 4 = 0 then 0 else 1 with hy
  have hys : y ≤ 2 * (x / 4) + 1 := by rw [hy]; split <;> omega
  have hylo : 2 ^ k ≤ y := by omega
  have hyhi : y < 2 ^ (k + 1) := by omega
  rw [round_of_binade false hylo hyhi (by omega) (by omega) (by omega),
    round_of_binade (k := k + 1) false hlo hhi (by omega) (by push_cast; omega)
      (by push_cast; omega),
    show k + 1 - f.fracBits = k - f.fracBits + 1 by omega,
    ← divRoundEven_sticky (x := x) (by omega), ← hy]
  obtain ⟨hm₁, hm₂⟩ := divRoundEven_binade hylo hyhi (by omega : f.fracBits ≤ k)
  rw [add_self_carry hx hm₁ hm₂ (by omega) (by omega)]
  congr 1
  push_cast
  ring

theorem ofInt_natCast (n : Nat) : f.ofInt n = f.round false n 1 0 := by
  rw [ofInt, Int.natAbs_natCast, decide_eq_false (Int.not_lt.mpr (Int.natCast_nonneg n))]

/-- Every integer of 64 bits rounds to a pattern of a format whose normal range holds them. -/
theorem ofInt_lt (hx : 0 < f.expBits) (hmin : f.minQuantum + f.fracBits ≤ 0)
    (hmax : 64 ≤ f.maxQuantum + f.fracBits) {v : Int} (hv : v.natAbs < 2 ^ 64) :
    f.ofInt v < 2 ^ f.width := by
  unfold ofInt
  by_cases h0 : v.natAbs = 0
  · have hv0 : v = 0 := Int.natAbs_eq_zero.mp h0
    subst hv0
    simp [round, zero]
  set n := v.natAbs
  have hlo : 2 ^ Nat.log2 n ≤ n := Nat.log2_self_le h0
  have hhi : n < 2 ^ (Nat.log2 n + 1) := Nat.lt_log2_self
  have hk : Nat.log2 n < 64 := (Nat.log2_lt h0).mpr hv
  by_cases hp : Nat.log2 n ≤ f.fracBits
  · -- exact
    rw [round_of_binade_exact _ hlo hhi hp (by omega) (by omega)]
    have hm : 2 ^ f.fracBits ≤ n * 2 ^ (f.fracBits - Nat.log2 n) := by
      calc 2 ^ f.fracBits = 2 ^ Nat.log2 n * 2 ^ (f.fracBits - Nat.log2 n) := by
            rw [← Nat.pow_add]; congr 1; omega
        _ ≤ n * 2 ^ (f.fracBits - Nat.log2 n) := Nat.mul_le_mul_right _ hlo
    have hm' : n * 2 ^ (f.fracBits - Nat.log2 n) < 2 ^ (f.fracBits + 1) := by
      calc n * 2 ^ (f.fracBits - Nat.log2 n)
          < 2 ^ (Nat.log2 n + 1) * 2 ^ (f.fracBits - Nat.log2 n) :=
            Nat.mul_lt_mul_of_pos_right hhi (Nat.two_pow_pos _)
        _ = 2 ^ (f.fracBits + 1) := by rw [← Nat.pow_add]; congr 1; omega
    exact encodeFinite_lt _ hx ⟨hm, hm', by omega, by omega⟩
  · -- rounded
    rw [round_of_binade _ hlo hhi (by omega) (by omega) (by omega)]
    obtain ⟨hm₁, hm₂⟩ := divRoundEven_binade hlo hhi (by omega : f.fracBits ≤ Nat.log2 n)
    exact carry_lt _ hx hm₁ hm₂ (by omega) (by omega)

end Format

end OnePassJit.Ieee
