import Mathlib.Data.Finset.Card
import OnePassJit.ValueStack
import OnePassJit.Proofs.RegSet

/-!
The layout of the value stack, as the allocator keeps it between two operations.

A run of slots is a `Block` when every slot records its own index, a value in the flags
has no register, a vector is a low slot directly followed by its high slot naming the same
register, and two slots share a register only as the halves of one vector. `Layout s T`
adds the register bookkeeping: the used set holds exactly the registers of live values
and the temporaries `T` that an operation has taken but not yet pushed or released, and
no temporary is held by a live value. Between two operations `T` is empty.

Every stack operation is a cut (dropping the slots from some index on, their registers
becoming temporaries), an append of a block whose registers are temporaries, or a
change of the used set; `Layout.cut`, `Layout.append` and the `used` lemmas say what each
does to `T`.
-/

namespace OnePassJit.ValueStack

def regsOf (xs : Array Location) : Finset Reg := (xs.toList.filterMap (·.reg)).toFinset

theorem mem_regsOf {xs : Array Location} {r : Reg} :
    r ∈ regsOf xs ↔ ∃ (k : Nat) (l : Location), xs[k]? = some l ∧ l.reg = some r := by
  simp only [regsOf, List.mem_toFinset, List.mem_filterMap, Array.mem_toList_iff,
    Array.mem_iff_getElem?]
  constructor
  · rintro ⟨l, ⟨k, hk⟩, hr⟩
    exact ⟨k, l, hk, hr⟩
  · rintro ⟨k, l, hk, hr⟩
    exact ⟨l, ⟨k, hk⟩, hr⟩

def Holds (s : ValueStack) (r : Reg) : Prop := r ∈ regsOf s.slots

def NotHiAt (xs : Array Location) (n : Nat) : Prop := ∀ l, xs[n]? = some l → l.type ≠ .v128hi

/-- A run of slots placed from index `b` on. -/
structure Block (xs : Array Location) (b : Nat) : Prop where
  slot_eq : ∀ {k : Nat} {l : Location}, xs[k]? = some l → l.slot = b + k
  /-- A comparison result in the flags is an `i32` and holds no register. -/
  flagged : ∀ {k : Nat} {l : Location}, xs[k]? = some l → l.flag.isSome →
    l.reg = none ∧ l.type = .i32
  lo_hi : ∀ {k : Nat} {l : Location}, xs[k]? = some l → l.type = .v128lo →
    ∃ l' : Location, xs[k + 1]? = some l' ∧ l'.type = .v128hi ∧ l'.reg = l.reg
  hi_lo : ∀ {k : Nat} {l : Location}, xs[k]? = some l → l.type = .v128hi →
    ∃ (i : Nat) (l' : Location), k = i + 1 ∧ xs[i]? = some l' ∧ l'.type = .v128lo
  unique : ∀ {i j : Nat} {l l' : Location} {r : Reg}, i < j → xs[i]? = some l → xs[j]? = some l' →
    l.reg = some r → l'.reg = some r → j = i + 1 ∧ l.type = .v128lo

/-- The allocator's bookkeeping, with temporaries `T`. -/
structure Layout (s : ValueStack) (T : Finset Reg) : Prop extends Block s.slots 0 where
  used_iff : ∀ r, s.used.contains r = true ↔ s.Holds r ∨ r ∈ T
  temp_free : ∀ r ∈ T, ¬ s.Holds r

namespace Block

variable {xs ys : Array Location} {b n : Nat}

theorem empty (b : Nat) : Block #[] b where
  slot_eq := by simp
  flagged := by simp
  lo_hi := by simp
  hi_lo := by simp
  unique := by simp

theorem single {l : Location} (hs : l.slot = b) (hf : l.flag.isSome → l.reg = none ∧ l.type = .i32)
    (hlo : l.type ≠ .v128lo) (hhi : l.type ≠ .v128hi) : Block #[l] b where
  slot_eq := by
    intro k l' h
    simp only [Array.getElem?_singleton] at h
    split at h <;> simp_all
  flagged := by
    intro k l' h
    simp only [Array.getElem?_singleton] at h
    split at h <;> simp_all
  lo_hi := by
    intro k l' h
    simp only [Array.getElem?_singleton] at h
    split at h <;> simp_all
  hi_lo := by
    intro k l' h
    simp only [Array.getElem?_singleton] at h
    split at h <;> simp_all
  unique := by
    intro i j l₁ l₂ r hij h₁ h₂
    simp only [Array.getElem?_singleton] at h₁ h₂
    split at h₁ <;> split at h₂ <;> simp_all

theorem pair (reg : Option Reg) (b : Nat) :
    Block #[{ type := .v128lo, reg, slot := b }, { type := .v128hi, reg, slot := b + 1 }] b where
  slot_eq := by
    intro k l h
    match k with
    | 0 | 1 => simp at h; subst h; rfl
    | k + 2 => simp at h
  flagged := by
    intro k l h
    match k with
    | 0 | 1 => simp at h; subst h; simp
    | k + 2 => simp at h
  lo_hi := by
    intro k l h
    match k with
    | 0 | 1 => simp at h; subst h; simp
    | k + 2 => simp at h
  hi_lo := by
    intro k l h
    match k with
    | 0 | 1 => simp at h; subst h; simp
    | k + 2 => simp at h
  unique := by
    intro i j l₁ l₂ r hij h₁ h₂
    match i, j with
    | 0, 1 => simp at h₁; subst h₁; simp
    | 0, 0 | 1, 0 | 1, 1 => omega
    | _ + 2, _ => simp at h₁
    | _, _ + 2 => simp at h₂

theorem lt_size {k : Nat} {l : Location} (h : xs[k]? = some l) : k < xs.size := by
  by_contra hk
  rw [Array.getElem?_eq_none (by omega)] at h
  cases h

theorem last_not_lo (hb : Block xs b) {l : Location} (h : xs[xs.size - 1]? = some l) :
    l.type ≠ .v128lo := fun hlo => by
  obtain ⟨l', h', -⟩ := hb.lo_hi h hlo
  have := lt_size h'
  have := lt_size h
  omega

theorem take (hb : Block xs b) (hn : NotHiAt xs n) : Block (xs.extract 0 n) b where
  slot_eq := by
    intro k l h
    simp only [Array.getElem?_extract, Nat.sub_zero, Nat.zero_add] at h
    split at h
    · exact hb.slot_eq h
    · cases h
  flagged := by
    intro k l h
    simp only [Array.getElem?_extract, Nat.sub_zero, Nat.zero_add] at h
    split at h
    · exact hb.flagged h
    · cases h
  lo_hi := by
    intro k l h hlo
    simp only [Array.getElem?_extract, Nat.sub_zero, Nat.zero_add] at h ⊢
    split at h
    · rename_i hk
      obtain ⟨l', h', hhi, hr⟩ := hb.lo_hi h hlo
      have : k + 1 < n := by
        by_contra hkn
        exact hn l' (by rw [show n = k + 1 by omega]; exact h') hhi
      have := lt_size h'
      exact ⟨l', by rw [if_pos (by omega)]; exact h', hhi, hr⟩
    · cases h
  hi_lo := by
    intro k l h hhi
    simp only [Array.getElem?_extract, Nat.sub_zero, Nat.zero_add] at h ⊢
    split at h
    · obtain ⟨i, l', rfl, h', hlo⟩ := hb.hi_lo h hhi
      exact ⟨i, l', rfl, by rw [if_pos (by omega)]; exact h', hlo⟩
    · cases h
  unique := by
    intro i j l₁ l₂ r hij h₁ h₂
    simp only [Array.getElem?_extract, Nat.sub_zero, Nat.zero_add] at h₁ h₂
    split at h₁ <;> split at h₂
    · exact hb.unique hij h₁ h₂
    · cases h₂
    · cases h₁
    · cases h₁

theorem drop (hb : Block xs b) (hn : NotHiAt xs n) : Block (xs.extract n xs.size) (b + n) where
  slot_eq := by
    intro k l h
    simp only [Array.getElem?_extract, Nat.min_self] at h
    split at h
    · rw [hb.slot_eq h]; omega
    · cases h
  flagged := by
    intro k l h
    simp only [Array.getElem?_extract, Nat.min_self] at h
    split at h
    · exact hb.flagged h
    · cases h
  lo_hi := by
    intro k l h hlo
    simp only [Array.getElem?_extract, Nat.min_self] at h ⊢
    split at h
    · obtain ⟨l', h', hhi, hr⟩ := hb.lo_hi h hlo
      have := lt_size h'
      exact ⟨l', by rw [if_pos (by omega), ← Nat.add_assoc]; exact h', hhi, hr⟩
    · cases h
  hi_lo := by
    intro k l h hhi
    simp only [Array.getElem?_extract, Nat.min_self] at h ⊢
    split at h
    · obtain ⟨i, l', hi, h', hlo⟩ := hb.hi_lo h hhi
      have hk : k ≠ 0 := by
        rintro rfl
        exact hn l (by simpa using h) hhi
      refine ⟨k - 1, l', by omega, ?_, hlo⟩
      rw [if_pos (by omega), show n + (k - 1) = i by omega]
      exact h'
    · cases h
  unique := by
    intro i j l₁ l₂ r hij h₁ h₂ hr₁ hr₂
    simp only [Array.getElem?_extract, Nat.min_self] at h₁ h₂
    split at h₁ <;> split at h₂
    · have := hb.unique (by omega) h₁ h₂ hr₁ hr₂
      exact ⟨by omega, this.2⟩
    · cases h₂
    · cases h₁
    · cases h₁

/-- Two blocks side by side, sharing no register. -/
theorem append (hx : Block xs b) (hy : Block ys (b + xs.size))
    (hd : ∀ r ∈ regsOf xs, r ∉ regsOf ys) : Block (xs ++ ys) b where
  slot_eq := by
    intro k l h
    rw [Array.getElem?_append] at h
    split at h
    · exact hx.slot_eq h
    · rw [hy.slot_eq h]; omega
  flagged := by
    intro k l h
    rw [Array.getElem?_append] at h
    split at h
    · exact hx.flagged h
    · exact hy.flagged h
  lo_hi := by
    intro k l h hlo
    rw [Array.getElem?_append] at h
    simp only [Array.getElem?_append]
    split at h
    · obtain ⟨l', h', hhi, hr⟩ := hx.lo_hi h hlo
      have := lt_size h'
      exact ⟨l', by rw [if_pos this]; exact h', hhi, hr⟩
    · obtain ⟨l', h', hhi, hr⟩ := hy.lo_hi h hlo
      exact ⟨l', by rw [if_neg (by omega), show k + 1 - xs.size = k - xs.size + 1 by omega]; exact h',
        hhi, hr⟩
  hi_lo := by
    intro k l h hhi
    rw [Array.getElem?_append] at h
    simp only [Array.getElem?_append]
    split at h
    · obtain ⟨i, l', rfl, h', hlo⟩ := hx.hi_lo h hhi
      exact ⟨i, l', rfl, by rw [if_pos (by omega)]; exact h', hlo⟩
    · rename_i hk
      obtain ⟨i, l', hi, h', hlo⟩ := hy.hi_lo h hhi
      refine ⟨k - 1, l', by omega, ?_, hlo⟩
      rw [if_neg (by omega), show k - 1 - xs.size = i by omega]
      exact h'
  unique := by
    intro i j l₁ l₂ r hij h₁ h₂ hr₁ hr₂
    rw [Array.getElem?_append] at h₁ h₂
    split at h₁ <;> split at h₂
    · exact hx.unique hij h₁ h₂ hr₁ hr₂
    · exact absurd (mem_regsOf.mpr ⟨_, _, h₂, hr₂⟩) (hd r (mem_regsOf.mpr ⟨_, _, h₁, hr₁⟩))
    · omega
    · have := hy.unique (by omega) h₁ h₂ hr₁ hr₂
      exact ⟨by omega, this.2⟩

end Block

namespace Layout

variable {s s' : ValueStack} {T : Finset Reg}

theorem holds_iff {r : Reg} : s.Holds r ↔ ∃ (i : Nat) (l : Location), s.slots[i]? = some l ∧ l.reg = some r :=
  mem_regsOf

theorem storable_of_holds (h : Layout s T) {r : Reg} (hr : s.Holds r) : RegSet.storable r = true :=
  RegSet.storable_of_contains ((h.used_iff r).mpr (.inl hr))

theorem storable_of_mem (h : Layout s T) {r : Reg} (hr : r ∈ T) : RegSet.storable r = true :=
  RegSet.storable_of_contains ((h.used_iff r).mpr (.inr hr))

theorem congr (h : Layout s T) (hs : s'.slots = s.slots) (hu : s'.used = s.used) : Layout s' T where
  toBlock := hs ▸ h.toBlock
  used_iff := by
    intro r
    rw [hu, h.used_iff r, Holds, Holds, hs]
  temp_free := by
    intro r hr
    rw [Holds, hs]
    exact h.temp_free r hr

theorem insert_used (h : Layout s T) {r : Reg} (hr : ¬ s.Holds r)
    (hst : RegSet.storable r = true) : Layout { s with used := s.used.insert r } (insert r T) where
  toBlock := h.toBlock
  used_iff := by
    intro x
    simp only [RegSet.contains_insert, Bool.or_eq_true, Bool.and_eq_true, beq_iff_eq,
      Finset.mem_insert, h.used_iff x, Holds]
    by_cases hx : x = r
    · subst hx; simp [hst]
    · simp [hx]
  temp_free := by
    intro x hx
    rcases Finset.mem_insert.mp hx with rfl | hx
    · exact hr
    · exact h.temp_free x hx

theorem erase_used (h : Layout s T) {r : Reg} (hr : r ∈ T) :
    Layout { s with used := s.used.erase r } (T.erase r) where
  toBlock := h.toBlock
  used_iff := by
    intro x
    simp only [RegSet.contains_erase, Bool.and_eq_true, Bool.not_eq_true', beq_eq_false_iff_ne,
      Finset.mem_erase, h.used_iff x, Holds]
    by_cases hx : x = r
    · subst hx
      have := h.temp_free x hr
      simp_all [Holds]
    · simp [hx]
  temp_free := by
    intro x hx
    exact h.temp_free x (Finset.mem_of_mem_erase hx)

theorem erase_used_of_free (h : Layout s T) {r : Reg} (hh : ¬ s.Holds r) (hr : r ∉ T) :
    Layout { s with used := s.used.erase r } T where
  toBlock := h.toBlock
  used_iff := by
    intro x
    simp only [RegSet.contains_erase, Bool.and_eq_true, Bool.not_eq_true', beq_eq_false_iff_ne,
      h.used_iff x, Holds]
    by_cases hx : x = r
    · subst hx
      simp_all [Holds]
    · simp [hx]
  temp_free := h.temp_free

/-- Cutting the stack at a boundary that splits no vector: the registers of the removed
slots become temporaries. -/
theorem cut (h : Layout s T) {n : Nat} (hn : NotHiAt s.slots n)
    (hs : s'.slots = s.slots.extract 0 n) (hu : s'.used = s.used) :
    Layout s' (T ∪ regsOf (s.slots.extract n s.slots.size)) where
  toBlock := hs ▸ h.toBlock.take hn
  used_iff := by
    intro r
    rw [hu, h.used_iff r, Holds, Holds, hs, Finset.mem_union]
    simp only [mem_regsOf, Array.getElem?_extract, Nat.sub_zero, Nat.zero_add, Nat.min_self]
    constructor
    · rintro (⟨k, l, hk, hr⟩ | hT)
      · have hsize := Block.lt_size hk
        by_cases hkn : k < n
        · have hk' : (if k < min n s.slots.size then s.slots[k]? else none) = some l := by
            rw [if_pos (by omega)]; exact hk
          exact .inl ⟨k, l, hk', hr⟩
        · have hk' : (if k - n < s.slots.size - n then s.slots[n + (k - n)]? else none) =
              some l := by
            rw [if_pos (by omega), show n + (k - n) = k by omega]; exact hk
          exact .inr (.inr ⟨k - n, l, hk', hr⟩)
      · exact .inr (.inl hT)
    · rintro (⟨k, l, hk, hr⟩ | hT | ⟨k, l, hk, hr⟩)
      · split at hk
        · exact .inl ⟨k, l, hk, hr⟩
        · cases hk
      · exact .inr hT
      · split at hk
        · exact .inl ⟨n + k, l, hk, hr⟩
        · cases hk
  temp_free := by
    intro r hr hheld
    rw [Holds, hs, mem_regsOf] at hheld
    obtain ⟨k, l, hk, hlr⟩ := hheld
    simp only [Array.getElem?_extract, Nat.sub_zero, Nat.zero_add] at hk
    split at hk
    · rename_i hkn
      rcases Finset.mem_union.mp hr with hT | hR
      · exact h.temp_free r hT (mem_regsOf.mpr ⟨k, l, hk, hlr⟩)
      · obtain ⟨j, l', hj, hjr⟩ := mem_regsOf.mp hR
        simp only [Array.getElem?_extract, Nat.min_self] at hj
        split at hj
        · have hu := h.unique (by omega) hk hj hlr hjr
          obtain ⟨l'', h'', hhi, -⟩ := h.lo_hi hk hu.2
          have : j = 0 := by omega
          subst this
          rw [show k + 1 = n + 0 by omega] at h''
          rw [h''] at hj
          cases hj
          exact hn l' (by simpa using h'') hhi
        · cases hj
    · cases hk

/-- Appending a block whose registers are temporaries: they become held. -/
theorem append (h : Layout s T) {ys : Array Location} (hb : Block ys s.slots.size)
    (hy : ∀ r ∈ regsOf ys, r ∈ T) (hs : s'.slots = s.slots ++ ys)
    (hu : ∀ r, s'.used.contains r = s.used.contains r) : Layout s' (T \ regsOf ys) where
  toBlock := hs ▸ h.toBlock.append (by simpa using hb) (fun r hr hy' =>
    h.temp_free r (hy r hy') hr)
  used_iff := by
    intro r
    rw [hu, h.used_iff r, Holds, Holds, hs, Finset.mem_sdiff]
    simp only [mem_regsOf, Array.getElem?_append]
    constructor
    · rintro (⟨k, l, hk, hr⟩ | hT)
      · have := Block.lt_size hk
        exact .inl ⟨k, l, by rw [if_pos this]; exact hk, hr⟩
      · by_cases hR : ∃ (k : Nat) (l : Location), ys[k]? = some l ∧ l.reg = some r
        · obtain ⟨k, l, hk, hr⟩ := hR
          have hk' : (if s.slots.size + k < s.slots.size then s.slots[s.slots.size + k]?
              else ys[s.slots.size + k - s.slots.size]?) = some l := by
            rw [if_neg (by omega), Nat.add_sub_cancel_left]; exact hk
          exact .inl ⟨s.slots.size + k, l, hk', hr⟩
        · exact .inr ⟨hT, hR⟩
    · rintro (⟨k, l, hk, hr⟩ | ⟨hT, -⟩)
      · split at hk
        · exact .inl ⟨k, l, hk, hr⟩
        · exact .inr (hy r (mem_regsOf.mpr ⟨_, _, hk, hr⟩))
      · exact .inr hT
  temp_free := by
    intro r hr hheld
    rw [Finset.mem_sdiff] at hr
    rw [Holds, hs, mem_regsOf] at hheld
    obtain ⟨k, l, hk, hlr⟩ := hheld
    rw [Array.getElem?_append] at hk
    split at hk
    · exact h.temp_free r hr.1 (mem_regsOf.mpr ⟨k, l, hk, hlr⟩)
    · exact hr.2 (mem_regsOf.mpr ⟨_, _, hk, hlr⟩)

end Layout

end OnePassJit.ValueStack
