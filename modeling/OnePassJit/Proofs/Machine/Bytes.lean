import Mathlib
import OnePassJit.Amd64.Machine.AddressSpace

/-!
Reading back what the machine wrote.

A little endian write of `n` bytes changes exactly the bytes it covers (`byteAt_writeLE`),
so a read of other bytes sees what was there before (`readLE_writeLE_of_disjoint`) and a
read of the same bytes sees the low `n` bytes of the value written (`readLE_writeLE_self`).
The same holds of the address space, whose accesses are located in one region first: a
write keeps every region's size, so it locates every access as before (`locate_write`).
-/

namespace OnePassJit.Amd64

/-! Bytes of a region. -/

theorem byteAt_eq_getElem! (b : ByteArray) (j : Nat) : byteAt b j = b[j]! := by
  unfold byteAt
  split
  · rename_i h
    exact (getElem!_pos b j h).symm
  · rename_i h
    rw [getElem!_neg b j h]
    rfl

theorem set!_of_size_le (b : ByteArray) {i : Nat} (x : UInt8) (hi : b.size ≤ i) :
    b.set! i x = b := by
  cases b
  simp only [ByteArray.set!]
  simp only [ByteArray.size] at hi
  rw [Array.set!_eq_setIfInBounds, Array.setIfInBounds_eq_of_size_le hi]

theorem byteAt_set! (b : ByteArray) (i j : Nat) (x : UInt8) :
    byteAt (b.set! i x) j = if i = j ∧ i < b.size then x else byteAt b j := by
  rw [byteAt_eq_getElem!, byteAt_eq_getElem!]
  by_cases hi : i < b.size
  · rw [ByteArray.getElem!_set! _ _ _ _ hi]
    simp [hi]
  · rw [set!_of_size_le b x (by omega)]
    simp [hi]

theorem toNat_byte (v : UInt64) {k : Nat} (hk : k < 8) :
    ((v >>> (8 * k).toUInt64).toUInt8).toNat = v.toNat / 2 ^ (8 * k) % 256 := by
  have h64 : (8 * k) % 2 ^ 64 % 64 = 8 * k := by omega
  rw [UInt64.toNat_toUInt8, UInt64.toNat_shiftRight, Nat.toUInt64_eq, UInt64.toNat_ofNat', h64,
    Nat.shiftRight_eq_div_pow]

theorem writeLE_succ (b : ByteArray) (off n : Nat) (v : UInt64) :
    writeLE b off (n + 1) v = (writeLE b off n v).set! (off + n) (v >>> (8 * n).toUInt64).toUInt8 := by
  simp [writeLE, List.range_succ, List.foldl_append]

@[simp] theorem size_writeLE (b : ByteArray) (off n : Nat) (v : UInt64) :
    (writeLE b off n v).size = b.size := by
  induction n with
  | zero => rfl
  | succ n ih => rw [writeLE_succ, ByteArray.size_set!, ih]

/-- A write changes the bytes it covers and no other. -/
theorem byteAt_writeLE (b : ByteArray) (off n : Nat) (v : UInt64) (j : Nat) :
    byteAt (writeLE b off n v) j =
      if off ≤ j ∧ j < off + n ∧ j < b.size then (v >>> (8 * (j - off)).toUInt64).toUInt8
      else byteAt b j := by
  induction n with
  | zero =>
    simp only [Nat.add_zero]
    rw [if_neg (by omega)]
    rfl
  | succ n ih =>
    rw [writeLE_succ, byteAt_set!, size_writeLE, ih]
    by_cases hj : j = off + n
    · subst hj
      by_cases hs : off + n < b.size
      · simp [hs]
      · simp [hs]
    · rw [if_neg fun h => hj h.1.symm]
      by_cases hin : off ≤ j ∧ j < off + n ∧ j < b.size
      · rw [if_pos hin, if_pos ⟨hin.1, by omega, hin.2.2⟩]
      · rw [if_neg hin, if_neg (by omega)]

theorem readLE_zero (b : ByteArray) (off : Nat) : readLE b off 0 = 0 := rfl

theorem readLE_succ (b : ByteArray) (off n : Nat) :
    readLE b off (n + 1) = (readLE b (off + 1) n <<< 8) ||| (byteAt b off).toUInt64 := by
  simp only [readLE, List.range_succ_eq_map, List.foldr_cons, List.foldr_map, Nat.add_zero]
  congr
  funext k acc
  rw [show off + k.succ = off + 1 + k by omega]

theorem readLE_congr {b b' : ByteArray} {off off' n : Nat}
    (h : ∀ k < n, byteAt b (off + k) = byteAt b' (off' + k)) :
    readLE b off n = readLE b' off' n := by
  induction n generalizing off off' with
  | zero => rfl
  | succ n ih =>
    rw [readLE_succ, readLE_succ, ih fun k hk => ?_]
    · have h0 := h 0 (by omega)
      simp only [Nat.add_zero] at h0
      rw [h0]
    · have := h (k + 1) (by omega)
      rwa [← Nat.add_assoc, ← Nat.add_assoc, Nat.add_right_comm off, Nat.add_right_comm off'] at this

theorem toNat_shiftLeft8_or (x : UInt64) (y : UInt8) (hx : x.toNat < 2 ^ 56) :
    ((x <<< 8) ||| y.toUInt64).toNat = y.toNat + 256 * x.toNat := by
  have hy := y.toNat_lt
  rw [UInt64.toNat_or, UInt64.toNat_shiftLeft]
  have h8 : (8 : UInt64).toNat % 64 = 8 := by decide
  rw [h8, Nat.shiftLeft_eq, Nat.mod_eq_of_lt (by omega), UInt8.toNat_toUInt64]
  rw [← Nat.shiftLeft_eq, ← Nat.shiftLeft_add_eq_or_of_lt (by simpa using hy), Nat.shiftLeft_eq]
  omega

theorem toNat_readLE_lt (b : ByteArray) (off : Nat) {n : Nat} (hn : n ≤ 8) :
    (readLE b off n).toNat < 2 ^ (8 * n) := by
  induction n generalizing off with
  | zero => simp [readLE_zero]
  | succ n ih =>
    have hr := ih (off + 1) (by omega)
    have hpow : 2 ^ (8 * n) ≤ 2 ^ 56 := Nat.pow_le_pow_right (by omega) (by omega)
    have hb := (byteAt b off).toNat_lt
    rw [readLE_succ, toNat_shiftLeft8_or _ _ (by omega), show 8 * (n + 1) = 8 * n + 8 by omega,
      Nat.pow_add]
    omega

theorem toNat_readLE_succ (b : ByteArray) (off : Nat) {n : Nat} (hn : n < 8) :
    (readLE b off (n + 1)).toNat = (byteAt b off).toNat + 256 * (readLE b (off + 1) n).toNat := by
  have hr := toNat_readLE_lt b (off + 1) (n := n) (by omega)
  have hpow : 2 ^ (8 * n) ≤ 2 ^ 56 := Nat.pow_le_pow_right (by omega) (by omega)
  rw [readLE_succ, toNat_shiftLeft8_or _ _ (by omega)]

theorem toNat_readLE_of_bytes {b : ByteArray} {off n x : Nat} (hn : n ≤ 8)
    (h : ∀ k < n, (byteAt b (off + k)).toNat = x / 2 ^ (8 * k) % 256) :
    (readLE b off n).toNat = x % 2 ^ (8 * n) := by
  induction n generalizing off x with
  | zero => simp [readLE_zero, Nat.mod_one]
  | succ n ih =>
    have h0 := h 0 (by omega)
    simp only [Nat.add_zero, Nat.mul_zero, Nat.pow_zero, Nat.div_one] at h0
    have hrest : (readLE b (off + 1) n).toNat = x / 256 % 2 ^ (8 * n) := by
      refine ih (by omega) fun k hk => ?_
      rw [show off + 1 + k = off + (k + 1) by omega, h (k + 1) (by omega),
        show 8 * (k + 1) = 8 + 8 * k by omega, Nat.pow_add, ← Nat.div_div_eq_div_mul]
    rw [toNat_readLE_succ b off (by omega), h0, hrest, show 8 * (n + 1) = 8 + 8 * n by omega,
      Nat.pow_add, Nat.mod_mul]

theorem toNat_readLE_writeLE_self (b : ByteArray) {off n : Nat} (v : UInt64) (hn : n ≤ 8)
    (hfit : off + n ≤ b.size) :
    (readLE (writeLE b off n v) off n).toNat = v.toNat % 2 ^ (8 * n) := by
  refine toNat_readLE_of_bytes hn fun k hk => ?_
  rw [byteAt_writeLE, if_pos ⟨by omega, by omega, by omega⟩, Nat.add_sub_cancel_left,
    toNat_byte v (by omega)]

theorem readLE_writeLE_eight (b : ByteArray) {off : Nat} (v : UInt64) (hfit : off + 8 ≤ b.size) :
    readLE (writeLE b off 8 v) off 8 = v := by
  apply UInt64.toNat_inj.mp
  rw [toNat_readLE_writeLE_self b v (by omega) hfit]
  exact Nat.mod_eq_of_lt v.toNat_lt

/-- A read of other bytes than a write's sees what was there before. -/
theorem readLE_writeLE_of_disjoint (b : ByteArray) {off n off' n' : Nat} (v : UInt64)
    (h : off' + n' ≤ off ∨ off + n ≤ off') :
    readLE (writeLE b off n v) off' n' = readLE b off' n' :=
  readLE_congr fun k hk => by
    rw [byteAt_writeLE, if_neg (by omega)]

namespace AddressSpace

/-! The address space. -/

variable {m m' : AddressSpace} {addr : UInt64} {n : Nat} {i off : Nat}

theorem locate_eq_some (h : m.locate addr n = some (i, off)) :
    ∃ r, m.regions[i]? = some r ∧ off + n ≤ r.size := by
  unfold locate at h
  simp only at h
  split at h
  · rename_i r hr
    split at h
    · cases h
      exact ⟨r, hr, ‹_›⟩
    · cases h
  · cases h

theorem region_modifyRegion (f : ByteArray → ByteArray) (i j : Nat) :
    (m.modifyRegion i f).region j =
      if i = j ∧ i < m.regions.size then f (m.region j) else m.region j := by
  unfold region modifyRegion
  simp only [Array.getD_eq_getD_getElem?, Array.getElem?_modify]
  by_cases h : i = j
  · subst h
    by_cases hi : i < m.regions.size
    · simp [hi]
    · simp [hi]
  · simp [h]

theorem write_of_locate (h : m.locate addr n = some (i, off)) (v : UInt64) :
    m.write addr n v = some (m.modifyRegion i (writeLE · off n v)) := by
  simp [write, h, modifyRegion]

theorem write_eq_some {v : UInt64} (h : m.write addr n v = some m') :
    ∃ i off, m.locate addr n = some (i, off) ∧ m' = m.modifyRegion i (writeLE · off n v) := by
  cases hl : m.locate addr n with
  | none => simp [write, hl] at h
  | some p =>
    obtain ⟨i, off⟩ := p
    rw [write_of_locate hl v, Option.some.injEq] at h
    exact ⟨i, off, rfl, h.symm⟩

theorem read_of_locate (h : m.locate addr n = some (i, off)) :
    m.read addr n = some (readLE (m.region i) off n) := by
  simp [read, h, region]

theorem locate_modifyRegion {f : ByteArray → ByteArray} (hf : ∀ b, (f b).size = b.size)
    (j : Nat) (a : UInt64) (k : Nat) : (m.modifyRegion j f).locate a k = m.locate a k := by
  unfold locate modifyRegion
  simp only [Array.getElem?_modify]
  generalize ((a - addressBase) >>> regionBits.toUInt64).toNat = idx
  by_cases h : j = idx
  · subst h
    cases m.regions[j]? <;> simp [hf]
  · simp [h]

/-- A write keeps every region's size, so it locates every access as before. -/
theorem locate_write {v : UInt64} (h : m.write addr n v = some m') (a : UInt64) (k : Nat) :
    m'.locate a k = m.locate a k := by
  obtain ⟨i, off, -, rfl⟩ := write_eq_some h
  exact locate_modifyRegion (fun b => size_writeLE b off n v) i a k

theorem read_write_self {v : UInt64} (h : m.write addr n v = some m') (hn : n ≤ 8) :
    ∃ w, m'.read addr n = some w ∧ w.toNat = v.toNat % 2 ^ (8 * n) := by
  obtain ⟨i, off, hl, rfl⟩ := write_eq_some h
  obtain ⟨r, hr, hfit⟩ := locate_eq_some hl
  have hi : i < m.regions.size := (Array.getElem?_eq_some_iff.mp hr).1
  have hreg : m.region i = r := by simp [region, Array.getD_eq_getD_getElem?, hr]
  refine ⟨_, read_of_locate ((locate_write h addr n).trans hl), ?_⟩
  rw [region_modifyRegion, if_pos ⟨rfl, hi⟩, hreg]
  exact toNat_readLE_writeLE_self r v hn hfit

theorem read_write_of_separate {v : UInt64} {a' : UInt64} {n' i' off' : Nat}
    (h : m.write addr n v = some m') (hl : m.locate addr n = some (i, off))
    (hl' : m.locate a' n' = some (i', off')) (hsep : i ≠ i' ∨ off' + n' ≤ off ∨ off + n ≤ off') :
    m'.read a' n' = m.read a' n' := by
  obtain ⟨i₀, off₀, hl₀, rfl⟩ := write_eq_some h
  rw [hl] at hl₀
  obtain ⟨rfl, rfl⟩ := Prod.mk.inj (Option.some.inj hl₀)
  rw [read_of_locate ((locate_write h a' n').trans hl'), read_of_locate hl', region_modifyRegion]
  by_cases hii : i = i' ∧ i < m.regions.size
  · rw [if_pos hii]
    obtain ⟨rfl, -⟩ := hii
    have hd : off' + n' ≤ off ∨ off + n ≤ off' := by omega
    rw [readLE_writeLE_of_disjoint _ v hd]
  · rw [if_neg hii]
theorem locate_eq_of_offset {r : ByteArray} (a : UInt64)
    (hreg : ((a - addressBase) >>> regionBits.toUInt64).toNat = i)
    (hoff : ((a - addressBase) % (Nat.pow 2 regionBits : Nat).toUInt64).toNat = off)
    (hr : m.regions[i]? = some r) (hfit : off + n ≤ r.size) :
    m.locate a n = some (i, off) := by
  unfold locate
  simp only [hreg, hoff, hr, hfit, if_true]

theorem toNat_regionBase_add_sub (hi : i < 2 ^ 20) (hoff : off < 2 ^ 40) :
    (regionBase i + off.toUInt64 - addressBase).toNat = i * 2 ^ 40 + off := by
  unfold regionBase
  rw [UInt64.add_assoc, UInt64.add_comm addressBase, UInt64.add_sub_cancel, UInt64.toNat_add,
    Nat.toUInt64_eq, Nat.toUInt64_eq, UInt64.toNat_ofNat', UInt64.toNat_ofNat', regionBits,
    Nat.pow_eq]
  omega

theorem locate_regionBase_add {r : ByteArray} (hi : i < 2 ^ 20) (hoff : off < 2 ^ 40)
    (hr : m.regions[i]? = some r) (hfit : off + n ≤ r.size) :
    m.locate (regionBase i + off.toUInt64) n = some (i, off) := by
  have key := toNat_regionBase_add_sub hi hoff
  refine locate_eq_of_offset _ ?_ ?_ hr hfit
  · rw [UInt64.toNat_shiftRight, key, Nat.toUInt64_eq, UInt64.toNat_ofNat', regionBits,
      Nat.shiftRight_eq_div_pow]
    simp only [Nat.reducePow, Nat.reduceMod]
    omega
  · rw [UInt64.toNat_mod, key, Nat.toUInt64_eq, UInt64.toNat_ofNat', regionBits, Nat.pow_eq]
    simp only [Nat.reducePow, Nat.reduceMod]
    omega

end AddressSpace

end OnePassJit.Amd64
