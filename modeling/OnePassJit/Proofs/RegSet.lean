import Mathlib.Data.Nat.Bitwise
import OnePassJit.Register

/-!
Membership in a register set, read off its masks.

A register is a member when it is storable (bank 0 or 1, id below 64) and its bit is
set in its bank's mask. Inserting sets that bit and erasing clears it; registers that
cannot be stored are never members, so inserting one changes nothing. Every lemma
below is stated through `contains`, so later proofs never look at the masks.
-/

namespace OnePassJit.RegSet

theorem and_one_beq (x : UInt64) : (x &&& 1 == 1) = x.toNat.testBit 0 := by
  have hmod : (x &&& 1).toNat = x.toNat % 2 := by simp [Nat.and_one_is_mod]
  rw [Nat.testBit_zero]
  by_cases h : x.toNat % 2 = 1
  · have : x &&& 1 = 1 := UInt64.toNat_inj.mp (by simp_all)
    simp [this, h]
  · have : x &&& 1 ≠ 1 := fun e => h (by rw [← hmod, e]; rfl)
    simp [this, h]

theorem test_bit (m b : UInt64) (hb : b.toNat < 64) :
    ((m >>> b) &&& 1 == 1) = m.toNat.testBit b.toNat := by
  rw [and_one_beq, UInt64.toNat_shiftRight, Nat.mod_eq_of_lt hb, Nat.testBit_shiftRight]
  simp

theorem testBit_or_bit (m a : UInt64) (ha : a.toNat < 64) (i : Nat) :
    (m ||| ((1 : UInt64) <<< a)).toNat.testBit i = (m.toNat.testBit i || decide (a.toNat = i)) := by
  have h2 : 2 ^ a.toNat < 18446744073709551616 :=
    lt_of_lt_of_le (Nat.pow_lt_pow_right (by decide) ha) (by decide)
  rw [UInt64.toNat_or, Nat.testBit_or, UInt64.toNat_shiftLeft, Nat.mod_eq_of_lt ha]
  simp [Nat.one_shiftLeft, Nat.mod_eq_of_lt h2, Nat.testBit_two_pow]

theorem testBit_clear_bit (m a : UInt64) (ha : a.toNat < 64) (i : Nat) :
    (m &&& ~~~((1 : UInt64) <<< a)).toNat.testBit i =
      (m.toNat.testBit i && !decide (a.toNat = i)) := by
  have e : ∀ x : UInt64, x.toNat.testBit i = x.toBitVec.getLsbD i := fun _ => rfl
  rw [e, e]
  simp only [UInt64.toBitVec_and, UInt64.toBitVec_not, UInt64.toBitVec_shiftLeft,
    BitVec.getLsbD_and, BitVec.getLsbD_not]
  cases hm : m.toBitVec.getLsbD i
  · simp
  · have hi := BitVec.lt_of_getLsbD hm
    simp [hi, Nat.mod_eq_of_lt ha]
    rw [Bool.eq_iff_iff]
    simp only [Bool.or_eq_true, decide_eq_true_eq, Bool.not_eq_true', decide_eq_false_iff_not]
    omega

theorem id_lt_of_storable {r : Reg} (h : storable r = true) : r.id.toUInt64.toNat < 64 := by
  simp only [storable, Bool.and_eq_true, decide_eq_true_eq] at h
  have := h.2
  simp only [UInt8.toNat_toUInt64]
  exact UInt8.lt_iff_toNat_lt.mp this

theorem bank_lt_of_storable {r : Reg} (h : storable r = true) : r.bank.toNat < 2 := by
  simp only [storable, Bool.and_eq_true, decide_eq_true_eq] at h
  exact UInt8.lt_iff_toNat_lt.mp h.1

theorem reg_eq_iff (x r : Reg) : x = r ↔ x.bank = r.bank ∧ x.id = r.id := by
  cases x; cases r; simp

theorem contains_iff (s : RegSet) (r : Reg) :
    s.contains r = true ↔
      storable r = true ∧ (s.mask r.bank).toNat.testBit r.id.toUInt64.toNat = true := by
  unfold contains
  cases hs : storable r
  · simp
  · simp [test_bit _ _ (id_lt_of_storable hs)]

theorem storable_of_contains {s : RegSet} {r : Reg} (h : s.contains r = true) :
    storable r = true :=
  ((contains_iff s r).mp h).1

@[simp] theorem contains_empty (r : Reg) : (RegSet.empty).contains r = false := by
  cases h : (RegSet.empty).contains r
  · rfl
  · have := ((contains_iff _ r).mp h).2
    simp only [empty, mask] at this
    split at this <;> simp at this

@[simp] theorem contains_default (r : Reg) : ({} : RegSet).contains r = false :=
  contains_empty r

theorem bank_cases {r : Reg} (h : storable r = true) : r.bank = 0 ∨ r.bank = 1 := by
  have := bank_lt_of_storable h
  have : r.bank.toNat = 0 ∨ r.bank.toNat = 1 := by omega
  rcases this with h0 | h1
  · exact .inl (UInt8.toNat_inj.mp (by simpa using h0))
  · exact .inr (UInt8.toNat_inj.mp (by simpa using h1))

theorem id_toNat_inj {x r : Reg} (h : x.id.toUInt64.toNat = r.id.toUInt64.toNat) : x.id = r.id := by
  simp only [UInt8.toNat_toUInt64] at h
  exact UInt8.toNat_inj.mp h

theorem mask_insert (s : RegSet) {r : Reg} (hr : storable r = true) (b : UInt8) :
    (s.insert r).mask b = if r.bank = b then s.mask b ||| ((1 : UInt64) <<< r.id.toUInt64)
      else s.mask b := by
  unfold insert mask
  rcases bank_cases hr with h | h <;> by_cases hb0 : b = 0 <;> by_cases hb1 : b = 1 <;>
    simp_all
  all_goals intro e; subst e; simp_all

theorem mask_erase (s : RegSet) {r : Reg} (hr : storable r = true) (b : UInt8) :
    (s.erase r).mask b = if r.bank = b then s.mask b &&& ~~~((1 : UInt64) <<< r.id.toUInt64)
      else s.mask b := by
  unfold erase mask
  rcases bank_cases hr with h | h <;> by_cases hb0 : b = 0 <;> by_cases hb1 : b = 1 <;>
    simp_all
  all_goals intro e; subst e; simp_all

@[simp] theorem contains_insert (s : RegSet) (r x : Reg) :
    (s.insert r).contains x = ((x == r && storable r) || s.contains x) := by
  cases hr : storable r
  · simp [insert, hr]
  · rw [Bool.eq_iff_iff]
    simp only [Bool.or_eq_true, Bool.and_eq_true, beq_iff_eq, and_true, contains_iff,
      mask_insert s hr]
    by_cases hb : r.bank = x.bank
    · simp only [hb, ↓reduceIte, testBit_or_bit _ _ (id_lt_of_storable hr), Bool.or_eq_true,
        decide_eq_true_eq, reg_eq_iff]
      constructor
      · rintro ⟨hx, hbit | hid⟩
        · exact .inr ⟨hx, hbit⟩
        · exact .inl ⟨trivial, id_toNat_inj hid.symm⟩
      · rintro (⟨-, hxid⟩ | ⟨hx, hbit⟩)
        · obtain rfl : x = r := (reg_eq_iff x r).mpr ⟨hb.symm, hxid⟩
          exact ⟨hr, .inr rfl⟩
        · exact ⟨hx, .inl hbit⟩
    · simp only [hb, ↓reduceIte, reg_eq_iff]
      constructor
      · rintro ⟨hx, hbit⟩
        exact .inr ⟨hx, hbit⟩
      · rintro (⟨hxb, -⟩ | h)
        · exact absurd hxb.symm hb
        · exact h

@[simp] theorem contains_erase (s : RegSet) (r x : Reg) :
    (s.erase r).contains x = (s.contains x && !(x == r)) := by
  cases hr : storable r
  · have hs : s.erase r = s := by simp [erase, hr]
    rw [hs]
    cases hx : s.contains x
    · rfl
    · have hne : x ≠ r := fun e => by
        rw [e] at hx
        simp [storable_of_contains hx] at hr
      simp [hne]
  · rw [Bool.eq_iff_iff]
    simp only [Bool.and_eq_true, Bool.not_eq_true', beq_eq_false_iff_ne, contains_iff,
      mask_erase s hr]
    by_cases hb : r.bank = x.bank
    · simp only [hb, ↓reduceIte, testBit_clear_bit _ _ (id_lt_of_storable hr), Bool.and_eq_true,
        Bool.not_eq_true', decide_eq_false_iff_not, ne_eq, reg_eq_iff]
      constructor
      · rintro ⟨hx, hbit, hid⟩
        exact ⟨⟨hx, hbit⟩, fun ⟨_, h⟩ => hid (by rw [h])⟩
      · rintro ⟨⟨hx, hbit⟩, hne⟩
        exact ⟨hx, hbit, fun h => hne ⟨trivial, id_toNat_inj h.symm⟩⟩
    · simp only [hb, ↓reduceIte, ne_eq, reg_eq_iff]
      constructor
      · rintro ⟨hx, hbit⟩
        exact ⟨⟨hx, hbit⟩, fun ⟨h, _⟩ => hb h.symm⟩
      · rintro ⟨h, _⟩
        exact h

theorem mem_of_contains_ofList {rs : List Reg} {r : Reg} (h : (ofList rs).contains r = true) :
    r ∈ rs := by
  suffices ∀ s : RegSet, (rs.foldl insert s).contains r = true → s.contains r = true ∨ r ∈ rs by
    simpa using this empty h
  clear h
  induction rs with
  | nil => exact fun _ h => Or.inl h
  | cons x xs ih =>
    intro s hs
    rcases ih (s.insert x) hs with h' | h'
    · rw [contains_insert] at h'
      simp only [Bool.or_eq_true, Bool.and_eq_true, beq_iff_eq] at h'
      rcases h' with ⟨rfl, _⟩ | h'
      · exact Or.inr List.mem_cons_self
      · exact Or.inl h'
    · exact Or.inr (List.mem_cons_of_mem x h')

end OnePassJit.RegSet
