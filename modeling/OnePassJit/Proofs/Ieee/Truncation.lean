import OnePassJit.Proofs.Ieee.Rounding

/-!
Truncating floating-point patterns toward zero.

A finite pattern stands for the rational `toRat b`, its magnitude `m · 2^q` with its sign in
front; `truncate`, what `cvttss2si` and `cvttsd2si` compute, is that rational rounded toward
zero (`truncate_eq_towardZero`). Whether the rounded value leaves an integer range is read off
the value alone, the infinities included (`truncBelow`, `truncAtLeast`): it lies below a bound
`L ≤ 0` exactly when the value is at most `L - 1`, and at or above a bound `H > 0` exactly when
the value is at least `H` (`truncBelow_iff_value_le`, `truncAtLeast_iff`). From `2 ^ fracBits`
on every pattern stands for an integer (`magValue_eq_natCast`), so below `-2 ^ fracBits` a
strict comparison with the bound itself says the same (`truncBelow_iff_value_lt`).

Subtracting the power of two that starts the binade of a pattern is exact (`sub_binade`):
both share the unit of that binade, and the difference has fewer bits than the significand.
-/

namespace OnePassJit.Ieee

def towardZero (q : ℚ) : ℤ := if q < 0 then -⌊-q⌋ else ⌊q⌋

theorem towardZero_of_nonneg {q : ℚ} (h : 0 ≤ q) : towardZero q = ⌊q⌋ := by
  rw [towardZero, if_neg (not_lt.mpr h)]

theorem towardZero_neg {q : ℚ} (h : 0 ≤ q) : towardZero (-q) = -⌊q⌋ := by
  rcases h.lt_or_eq with h | rfl
  · rw [towardZero, if_pos (neg_neg_of_pos h), neg_neg]
  · simp [towardZero]

theorem towardZero_nonneg {q : ℚ} (h : 0 ≤ q) : 0 ≤ towardZero q := by
  rw [towardZero_of_nonneg h]
  exact Int.floor_nonneg.mpr h

theorem towardZero_nonpos {q : ℚ} (h : q ≤ 0) : towardZero q ≤ 0 := by
  have h' : 0 ≤ -q := neg_nonneg.mpr h
  rw [← neg_neg q, towardZero_neg h']
  exact neg_nonpos.mpr (Int.floor_nonneg.mpr h')

theorem towardZero_lt_iff {q : ℚ} {L : ℤ} (hL : L ≤ 0) : towardZero q < L ↔ q ≤ L - 1 := by
  rcases lt_or_ge q 0 with hq | hq
  · rw [towardZero, if_pos hq, neg_lt, Int.lt_iff_add_one_le, Int.le_floor]
    push_cast
    constructor <;> intro h <;> linarith
  · have hL' : (L : ℚ) ≤ 0 := by exact_mod_cast hL
    have := towardZero_nonneg hq
    constructor
    · intro h
      omega
    · intro h
      linarith

theorem le_towardZero_iff {q : ℚ} {H : ℤ} (hH : 0 < H) : H ≤ towardZero q ↔ (H : ℚ) ≤ q := by
  rcases lt_or_ge q 0 with hq | hq
  · have hH' : (0 : ℚ) < H := by exact_mod_cast hH
    have := towardZero_nonpos hq.le
    constructor
    · intro h
      omega
    · intro h
      linarith
  · rw [towardZero_of_nonneg hq, Int.le_floor]

theorem towardZero_sub_intCast {q : ℚ} {n : ℤ} (hn : (n : ℚ) ≤ q) (h0 : 0 ≤ n) :
    towardZero (q - n) = towardZero q - n := by
  have hq : 0 ≤ q := le_trans (by exact_mod_cast h0) hn
  rw [towardZero_of_nonneg (sub_nonneg.mpr hn), towardZero_of_nonneg hq, Int.floor_sub_intCast]

theorem shiftScale_eq_floor (m : Nat) (q : Int) : (shiftScale m q : Int) = ⌊(m : ℚ) * 2 ^ q⌋ := by
  unfold shiftScale
  split
  · -- a unit at least one: the product is a natural number
    rename_i hq
    obtain ⟨n, rfl⟩ := Int.eq_ofNat_of_zero_le hq
    rw [Int.toNat_natCast, zpow_natCast, show (m : ℚ) * 2 ^ n = ((m * 2 ^ n : Nat) : ℚ) by push_cast; rfl,
      Int.floor_natCast]
    rfl
  · -- a unit below one: the product is a quotient
    rename_i hq
    obtain ⟨n, hn⟩ : ∃ n : Nat, q = -(n : Int) := ⟨(-q).toNat, by omega⟩
    subst hn
    have hfl := Rat.floor_intCast_div_natCast m (2 ^ n)
    push_cast at hfl
    rw [neg_neg, Int.toNat_natCast, zpow_neg, zpow_natCast, ← div_eq_mul_inv, hfl]
    norm_cast

namespace Format

variable {f : Format} {a b : Nat}

/-! The rational a finite pattern stands for. -/

variable (f) in
def toRat (b : Nat) : ℚ := if f.sign b then -f.magValue b else f.magValue b

theorem magValue_nonneg (b : Nat) : 0 ≤ f.magValue b := by
  unfold magValue
  positivity

theorem value_eq_toRat (h : f.isInfinite b = false) :
    f.value b = ((f.toRat b : WithTop ℚ) : WithBot (WithTop ℚ)) := by
  rw [value, if_neg (by simp [h])]
  rfl

theorem toRat_of_significand {m : Nat} {q : Int} (hs : f.significand b = (m, q)) :
    f.toRat b = if f.sign b then -((m : ℚ) * 2 ^ q) else (m : ℚ) * 2 ^ q := by
  simp only [toRat, magValue, hs]

theorem sign_of_toRat_pos (h : 0 < f.toRat b) : f.sign b = false := by
  by_contra hs
  rw [toRat, if_pos (by simpa using hs)] at h
  linarith [magValue_nonneg (f := f) b]

theorem toRat_of_sign_false (h : f.sign b = false) : f.toRat b = f.magValue b := by
  rw [toRat, if_neg (by simp [h])]

/-- `truncate` rounds the value of a pattern toward zero. -/
theorem truncate_eq_towardZero (b : Nat) : f.truncate b = towardZero (f.toRat b) := by
  rcases hsig : f.significand b with ⟨m, q⟩
  have hfl := shiftScale_eq_floor m q
  have hm : (0 : ℚ) ≤ (m : ℚ) * 2 ^ q := by positivity
  simp only [truncate, hsig, toRat_of_significand hsig]
  cases f.sign b
  · simp only [Bool.false_eq_true, if_false]
    rw [towardZero_of_nonneg hm, hfl]
  · simp only [if_true]
    rw [towardZero_neg hm, hfl]

/-! Patterns that stand for integers. -/

theorem significand_fst_lt (b : Nat) : (f.significand b).1 < 2 ^ (f.fracBits + 1) := by
  have hr := fracField_lt (f := f) b
  have hp : 2 ^ (f.fracBits + 1) = 2 * 2 ^ f.fracBits := Nat.pow_succ'
  simp only [significand]
  split <;> simp only [Nat.pow_eq] <;> omega

/-- From `2 ^ fracBits` on, a pattern stands for a natural number: its unit is at least one. -/
theorem magValue_eq_natCast (h : 2 ^ f.fracBits ≤ f.magValue b) : ∃ n : Nat, f.magValue b = n := by
  rcases hsig : f.significand b with ⟨m, q⟩
  have hm : m < 2 ^ (f.fracBits + 1) := by
    have := significand_fst_lt (f := f) b
    rwa [hsig] at this
  rw [magValue, hsig] at h ⊢
  rcases lt_or_ge q 0 with hq | hq
  · -- a unit below one leaves less than `2 ^ fracBits`
    exfalso
    have hmq : (m : ℚ) < 2 * 2 ^ f.fracBits := by
      have : ((m : Nat) : ℚ) < ((2 ^ (f.fracBits + 1) : Nat) : ℚ) := by exact_mod_cast hm
      rw [Nat.cast_pow, pow_succ'] at this
      exact_mod_cast this
    have hu : (2 : ℚ) ^ q ≤ 2 ^ (-1 : ℤ) := (zpow_le_zpow_iff_right₀ (by norm_num)).mpr (by omega)
    have : (m : ℚ) * 2 ^ q ≤ (m : ℚ) * 2 ^ (-1 : ℤ) :=
      mul_le_mul_of_nonneg_left hu (Nat.cast_nonneg m)
    rw [zpow_neg_one] at this
    linarith
  · obtain ⟨n, rfl⟩ := Int.eq_ofNat_of_zero_le hq
    exact ⟨m * 2 ^ n, by rw [zpow_natCast]; push_cast; rfl⟩

theorem toRat_le_sub_one {L : ℤ} (hL : L ≤ -2 ^ f.fracBits) (h : f.toRat b < L) :
    f.toRat b ≤ L - 1 := by
  have hL' : (L : ℚ) ≤ -2 ^ f.fracBits := by exact_mod_cast hL
  have hs : f.sign b = true := by
    by_contra hs
    rw [toRat_of_sign_false (by simpa using hs)] at h
    have : (0 : ℚ) < 2 ^ f.fracBits := by positivity
    linarith [magValue_nonneg (f := f) b]
  rw [toRat, if_pos hs] at h ⊢
  obtain ⟨n, hn⟩ := magValue_eq_natCast (f := f) (b := b) (by linarith)
  rw [hn] at h ⊢
  have : -(n : ℤ) < L := by exact_mod_cast h
  have : -(n : ℤ) ≤ L - 1 := by omega
  exact_mod_cast this

/-! Where truncation leaves an integer range. -/

variable (f) in
/-- The value of `b` rounded toward zero lies below the integer `L`; the negative infinity lies
below every integer. -/
def truncBelow (L : ℤ) (b : Nat) : Bool :=
  if f.isInfinite b then f.sign b else decide (towardZero (f.toRat b) < L)

variable (f) in
/-- The value of `b` rounded toward zero is at least the integer `H`; the positive infinity is
above every integer. -/
def truncAtLeast (H : ℤ) (b : Nat) : Bool :=
  if f.isInfinite b then !f.sign b else decide (H ≤ towardZero (f.toRat b))

theorem value_of_isInfinite (h : f.isInfinite b = true) :
    f.value b = if f.sign b then ⊥ else ⊤ := by
  rw [value, if_pos h]

/-- A pattern truncates below a bound `L ≤ 0` exactly when its value is at most `L - 1`. -/
theorem truncBelow_iff_value_le {L : ℤ} (hL : L ≤ 0) :
    f.truncBelow L b = true ↔
      f.value b ≤ ((((L - 1 : ℤ) : ℚ) : WithTop ℚ) : WithBot (WithTop ℚ)) := by
  unfold truncBelow
  cases hi : f.isInfinite b
  · rw [value_eq_toRat hi, WithBot.coe_le_coe, WithTop.coe_le_coe, if_neg Bool.false_ne_true,
      decide_eq_true_iff, towardZero_lt_iff hL]
    push_cast
    rfl
  · rw [value_of_isInfinite hi, if_pos rfl]
    cases f.sign b
    · simp only [Bool.false_eq_true, if_false, false_iff, not_le]
      exact WithBot.coe_lt_coe.mpr (WithTop.coe_lt_top _)
    · simp

/-- Below `-2 ^ fracBits`, a pattern truncates below a bound exactly when its value does. -/
theorem truncBelow_iff_value_lt {L : ℤ} (hL : L ≤ -2 ^ f.fracBits) :
    f.truncBelow L b = true ↔ f.value b < (((L : ℚ) : WithTop ℚ) : WithBot (WithTop ℚ)) := by
  have hL0 : L ≤ 0 := by
    have : (1 : ℤ) ≤ 2 ^ f.fracBits := one_le_pow₀ (by norm_num)
    omega
  rw [truncBelow_iff_value_le hL0]
  cases hi : f.isInfinite b
  · rw [value_eq_toRat hi, WithBot.coe_le_coe, WithTop.coe_le_coe, WithBot.coe_lt_coe,
      WithTop.coe_lt_coe]
    push_cast
    constructor
    · intro h
      linarith
    · exact toRat_le_sub_one hL
  · rw [value_of_isInfinite hi]
    cases f.sign b
    · simp only [Bool.false_eq_true, if_false]
      refine ⟨fun h => absurd h ?_, fun h => absurd h ?_⟩
      · exact not_le_of_gt (WithBot.coe_lt_coe.mpr (WithTop.coe_lt_top _))
      · exact not_lt_of_ge (WithBot.coe_le_coe.mpr le_top)
    · simp only [if_true, bot_le, true_iff]
      exact WithBot.bot_lt_coe _

/-- A pattern truncates to at least a bound `H > 0` exactly when its value is at least `H`. -/
theorem truncAtLeast_iff {H : ℤ} (hH : 0 < H) :
    f.truncAtLeast H b = true ↔ (((H : ℚ) : WithTop ℚ) : WithBot (WithTop ℚ)) ≤ f.value b := by
  unfold truncAtLeast
  cases hi : f.isInfinite b
  · rw [value_eq_toRat hi, WithBot.coe_le_coe, WithTop.coe_le_coe, if_neg Bool.false_ne_true,
      decide_eq_true_iff, le_towardZero_iff hH]
  · rw [value_of_isInfinite hi, if_pos rfl]
    cases f.sign b
    · simp only [Bool.not_false, if_false, Bool.false_eq_true, true_iff]
      exact WithBot.coe_le_coe.mpr le_top
    · simp only [Bool.not_true, if_true, Bool.false_eq_true, false_iff, not_le]
      exact WithBot.bot_lt_coe _

/-! Taking off the start of a binade. -/

theorem fields_add_signMask (hp : a < f.signMask) :
    f.expField (a + f.signMask) = f.expField a ∧ f.fracField (a + f.signMask) = f.fracField a ∧
      f.sign (a + f.signMask) = true := by
  have hm : f.magnitude (a + f.signMask) = a := by
    rw [magnitude, Nat.add_mod_right, Nat.mod_eq_of_lt hp]
  refine ⟨?_, ?_, ?_⟩
  · rw [← expField_magnitude, hm]
  · rw [← fracField_magnitude, hm]
  · have hpos : 0 < f.signMask := by rw [signMask_eq]; exact Nat.two_pow_pos _
    simp [sign, Nat.add_div_right _ hpos, Nat.div_eq_of_lt hp]

theorem negate_of_lt (hp : a < f.signMask) :
    f.significand (f.negate a) = f.significand a ∧ f.isNaN (f.negate a) = f.isNaN a ∧
      f.isInfinite (f.negate a) = f.isInfinite a ∧ f.sign (f.negate a) = true := by
  have hs : f.sign a = false := by simp [sign, Nat.div_eq_of_lt hp]
  have hneg : f.negate a = a + f.signMask := by rw [negate, if_neg (by simp [hs])]
  obtain ⟨he, hr, hsn⟩ := fields_add_signMask hp
  rw [hneg]
  exact ⟨by simp only [significand, he, hr], by simp only [isNaN, he, hr],
    by simp only [isInfinite, he, hr], hsn⟩

theorem zpow_two_add (m : Nat) (q : ℤ) : (2 : ℚ) ^ ((m : ℤ) + q) = 2 ^ m * 2 ^ q := by
  rw [zpow_add₀ two_ne_zero, zpow_natCast]

theorem significand_of_binade {k : ℤ} (hk : f.minQuantum + f.fracBits ≤ k)
    (hlo : (2 : ℚ) ^ k ≤ f.toRat b) (hhi : f.toRat b < 2 ^ (k + 1)) :
    f.sign b = false ∧ 2 ^ f.fracBits ≤ (f.significand b).1 ∧
      (f.significand b).2 = k - f.fracBits := by
  have hs := sign_of_toRat_pos (lt_of_lt_of_le (by positivity) hlo)
  rw [toRat_of_sign_false hs] at hlo hhi
  have hm := significand_fst_lt (f := f) b
  rcases hsig : f.significand b with ⟨m, q⟩
  rw [hsig] at hm
  rw [magValue, hsig] at hlo hhi
  dsimp only at hlo hhi hm ⊢
  have hm' : (m : ℚ) < 2 ^ (f.fracBits + 1) := by exact_mod_cast hm
  have hnorm : 2 ^ f.fracBits ≤ m := by
    by_contra hsub
    have hms : (m : ℚ) < 2 ^ f.fracBits := by exact_mod_cast (not_le.mp hsub)
    have hq : q = f.minQuantum := by
      simp only [significand] at hsig
      split at hsig
      · exact (Prod.mk.inj hsig).2.symm
      · exfalso
        have := (Prod.mk.inj hsig).1
        rw [Nat.pow_eq] at this
        omega
    have : (m : ℚ) * 2 ^ q < 2 ^ k := by
      calc (m : ℚ) * 2 ^ q < 2 ^ f.fracBits * 2 ^ q :=
            mul_lt_mul_of_pos_right hms (by positivity)
        _ = 2 ^ ((f.fracBits : ℤ) + q) := (zpow_two_add _ _).symm
        _ ≤ 2 ^ k := (zpow_le_zpow_iff_right₀ (by norm_num)).mpr (by omega)
    linarith
  have hnorm' : (2 : ℚ) ^ f.fracBits ≤ m := by exact_mod_cast hnorm
  have h₁ : (2 : ℚ) ^ ((f.fracBits : ℤ) + q) < 2 ^ (k + 1) := by
    rw [zpow_two_add]
    exact lt_of_le_of_lt (mul_le_mul_of_nonneg_right hnorm' (by positivity)) hhi
  have h₂ : (2 : ℚ) ^ k < 2 ^ (((f.fracBits + 1 : Nat) : ℤ) + q) := by
    rw [zpow_two_add]
    exact lt_of_le_of_lt hlo (mul_lt_mul_of_pos_right hm' (by positivity))
  rw [zpow_lt_zpow_iff_right₀ (by norm_num)] at h₁ h₂
  push_cast at h₂
  exact ⟨hs, hnorm, by omega⟩

theorem isNaN_zero (hx : 0 < f.expBits) : f.isNaN 0 = false ∧ f.isInfinite 0 = false := by
  have : 0 < f.expMax := by
    have := Nat.one_lt_two_pow (n := f.expBits) (by omega)
    simp only [expMax, Nat.pow_eq]
    omega
  have h0 : f.expField 0 = 0 := by simp [expField]
  simp [isNaN, isInfinite, h0, this.ne]

theorem toRat_zero : f.toRat 0 = 0 := by
  simp [toRat, magValue_zero]

/-- Taking `2 ^ k` off a pattern of the binade `[2 ^ k, 2 ^ (k + 1))` is exact; `p` is the pattern
of `2 ^ k`. -/
theorem sub_binade {x p : Nat} {k : ℤ} (hx : 0 < f.expBits)
    (hk : f.minQuantum + 2 * f.fracBits ≤ k) (hkmax : k ≤ f.maxQuantum + f.fracBits)
    (hxn : f.isNaN x = false) (hxi : f.isInfinite x = false)
    (hlo : (2 : ℚ) ^ k ≤ f.toRat x) (hhi : f.toRat x < 2 ^ (k + 1))
    (hpn : f.isNaN p = false) (hpi : f.isInfinite p = false) (hps : p < f.signMask)
    (hpsig : f.significand p = (2 ^ f.fracBits, k - f.fracBits)) :
    f.isNaN (f.sub x p) = false ∧ f.isInfinite (f.sub x p) = false ∧
      f.toRat (f.sub x p) = f.toRat x - 2 ^ k ∧ f.sub x p < 2 ^ f.width := by
  obtain ⟨hxs, hmx, hqx⟩ := significand_of_binade (by omega) hlo hhi
  have hmx' := significand_fst_lt (f := f) x
  rw [toRat_of_sign_false hxs, magValue] at hlo hhi ⊢
  obtain ⟨hnsig, -, hni, hns⟩ := negate_of_lt hps
  generalize hsig : f.significand x = sx at hmx hqx hmx' hlo hhi ⊢
  obtain ⟨mx, qx⟩ := sx
  dsimp only at hmx hqx hmx' hlo hhi ⊢
  subst hqx
  have hv : f.scaledTo x (k - f.fracBits) + f.scaledTo (f.negate p) (k - f.fracBits) =
      (((mx - 2 ^ f.fracBits : Nat) : Int)) := by
    simp only [scaledTo, hsig, hnsig, hpsig, hxs, hns, sub_self, Int.toNat_zero,
      Bool.false_eq_true, if_false, if_true]
    push_cast [hmx]
    ring_nf
  simp only [sub, propagateNaN, hxn, hpn, Bool.false_eq_true, if_false, Option.getD_none,
    addNumbers, hxi, hni, hpi, hnsig, hpsig, hsig, min_self, hv]
  by_cases h0 : mx - 2 ^ f.fracBits = 0
  · -- the pattern is `2 ^ k` itself: the difference is `+0`
    have hmx₀ : mx = 2 ^ f.fracBits := by omega
    rw [if_pos (by simp [h0]), hxs, hns, Bool.false_and, zero, if_neg Bool.false_ne_true]
    refine ⟨(isNaN_zero hx).1, (isNaN_zero hx).2, ?_, Nat.two_pow_pos _⟩
    rw [toRat_zero, hmx₀]
    push_cast
    rw [← zpow_natCast, ← zpow_add₀ two_ne_zero]
    ring_nf
  · -- fewer bits than the significand: rounding keeps the difference
    set n := mx - 2 ^ f.fracBits with hn
    have hnpos : n ≠ 0 := h0
    have hnlt : n < 2 ^ f.fracBits := by rw [Nat.pow_succ] at hmx'; omega
    have hlo' : 2 ^ Nat.log2 n ≤ n := Nat.log2_self_le hnpos
    have hhi' : n < 2 ^ (Nat.log2 n + 1) := Nat.lt_log2_self
    have hkn : Nat.log2 n < f.fracBits := (Nat.log2_lt hnpos).mpr hnlt
    have hz : ((n : Nat) : Int) ≠ 0 := by exact_mod_cast hnpos
    rw [if_neg (by simpa using hz), Int.natAbs_natCast,
      decide_eq_false (Int.not_lt.mpr (Int.natCast_nonneg n)),
      round_of_binade_exact _ hlo' hhi' hkn.le (by omega) (by omega)]
    have hN : f.Normal (n * 2 ^ (f.fracBits - Nat.log2 n))
        ((Nat.log2 n : Int) - f.fracBits + (k - f.fracBits)) := by
      refine ⟨?_, ?_, by omega, by omega⟩
      · calc 2 ^ f.fracBits = 2 ^ Nat.log2 n * 2 ^ (f.fracBits - Nat.log2 n) := by
              rw [← Nat.pow_add]; congr 1; omega
          _ ≤ n * 2 ^ (f.fracBits - Nat.log2 n) := Nat.mul_le_mul_right _ hlo'
      · calc n * 2 ^ (f.fracBits - Nat.log2 n)
            < 2 ^ (Nat.log2 n + 1) * 2 ^ (f.fracBits - Nat.log2 n) :=
              Nat.mul_lt_mul_of_pos_right hhi' (Nat.two_pow_pos _)
          _ = 2 ^ (f.fracBits + 1) := by rw [← Nat.pow_add]; congr 1; omega
    obtain ⟨hrn, hri, hrs⟩ := classify_encodeFinite hx hN
    refine ⟨hrn, hri, ?_, encodeFinite_lt _ hx hN⟩
    rw [toRat_of_sign_false hrs, magValue, significand_encodeFinite hx hN]
    dsimp only
    have hmn : (mx : ℚ) = n + 2 ^ f.fracBits := by
      rw [hn]; push_cast [show 2 ^ f.fracBits ≤ mx from hmx]; ring
    rw [hmn]
    push_cast
    rw [show ((Nat.log2 n : Int) - f.fracBits + (k - f.fracBits)) =
        -((f.fracBits - Nat.log2 n : Nat) : Int) + (k - f.fracBits) by push_cast [hkn.le]; ring,
      zpow_add₀ two_ne_zero, zpow_neg, zpow_natCast, show k = (f.fracBits : Int) + (k - f.fracBits) by ring,
      zpow_add₀ two_ne_zero (f.fracBits : Int), zpow_natCast]
    field_simp
    ring_nf

end Format

end OnePassJit.Ieee
