import Mathlib
import OnePassJit.Instance.Memory
import OnePassJit.Instance.Table

/-!
Growing memories and tables.

A memory grows by whole pages and answers its previous page count; a table grows by
elements set to one reference and answers its previous length. Both refuse a growth past
32 bits or past their limit, and then nothing changes.

`LinearMemory.Built` and `RefTable.Built` are the memories and tables an instance can
hold: made by a constructor and grown any number of times. For them `LinearMemory.grow_spec`
and `RefTable.grow_spec` say when growth succeeds and what it leaves. A memory's new length
is counted from its whole pages, so a memory made with a length that is not a whole number
of pages loses its last partial page on the first growth; one whose length is a whole
number of pages never shrinks (`LinearMemory.le_size_grow`).
-/

namespace OnePassJit

namespace LinearMemory

/-- Memories made by `new` or `ofLength` and grown any number of times. -/
inductive Built : LinearMemory → Prop
  | new (lo hi : UInt32) : Built (new lo hi)
  | ofLength (len : Nat) : Built (ofLength len)
  | grow {m m' : LinearMemory} {delta old : UInt32} : Built m → m.grow delta = some (old, m') →
      Built m'

theorem grow_eq_some_iff {m m' : LinearMemory} {delta old : UInt32} :
    m.grow delta = some (old, m') ↔
      m.pages.toNat + delta.toNat < 2 ^ 32 ∧ m.pages.toNat + delta.toNat ≤ m.maxPages.toNat ∧
      old = m.pages ∧
      m' = { m with
        size := (m.pages.toNat + delta.toNat) * pageSize
        written := if (m.pages.toNat + delta.toNat) * pageSize < m.written.size then
            m.written.extract 0 ((m.pages.toNat + delta.toNat) * pageSize)
          else m.written } := by
  simp only [grow]
  by_cases hc : m.pages.toNat + delta.toNat < Nat.pow 2 32 ∧
      m.pages.toNat + delta.toNat ≤ m.maxPages.toNat
  · rw [if_pos hc, Option.some.injEq, Prod.mk.injEq]
    constructor
    · rintro ⟨rfl, rfl⟩
      exact ⟨hc.1, hc.2, rfl, rfl⟩
    · rintro ⟨-, -, rfl, rfl⟩
      exact ⟨rfl, rfl⟩
  · rw [if_neg hc]
    simp only [reduceCtorEq, false_iff]
    rintro ⟨h₁, h₂, -⟩
    exact hc ⟨h₁, h₂⟩

theorem getElem?_extract_zero {b : ByteArray} {n a : Nat} (ha : a < n) :
    (b.extract 0 n)[a]? = b[a]? := by
  by_cases hb : a < b.size
  · rw [getElem?_pos (b.extract 0 n) a (by simp; omega), getElem?_pos b a hb,
      ByteArray.getElem_extract]
    simp
  · rw [getElem?_neg (b.extract 0 n) a (by simp; omega), getElem?_neg b a hb]

theorem Built.written_le (h : Built m) : m.written.size ≤ m.size := by
  induction h with
  | new => simp [LinearMemory.new]
  | ofLength => simp [LinearMemory.ofLength]
  | grow _ hg ih =>
    obtain ⟨-, -, -, rfl⟩ := grow_eq_some_iff.mp hg
    dsimp only
    split
    · simp only [ByteArray.size_extract]
      omega
    · omega

theorem read_eq_getD {m : LinearMemory} {a : Nat} (ha : a < m.size) :
    m.read a = m.written[a]?.getD 0 := by
  simp [read, ha]

/-- Growth of a built memory: it succeeds exactly when the new page count fits 32 bits
and the maximum; the new length is the new page count in bytes, the bytes both lengths
cover are kept and the added ones are zero. -/
theorem grow_spec {m : LinearMemory} (hb : Built m) (delta : UInt32) :
    ((∃ r, m.grow delta = some r) ↔
      m.pages.toNat + delta.toNat < 2 ^ 32 ∧ m.pages.toNat + delta.toNat ≤ m.maxPages.toNat) ∧
    ∀ old m', m.grow delta = some (old, m') →
      old = m.pages ∧ m'.size = (old.toNat + delta.toNat) * pageSize ∧
      m'.maxPages = m.maxPages ∧ Built m' ∧
      (∀ a, a < min m.size m'.size → m'.read a = m.read a) ∧
      (∀ a, m.size ≤ a → a < m'.size → m'.read a = 0) := by
  refine ⟨⟨fun ⟨⟨old, m'⟩, hg⟩ => ?_, fun hc => ⟨_, grow_eq_some_iff.mpr ⟨hc.1, hc.2, rfl, rfl⟩⟩⟩,
    fun old m' hg => ?_⟩
  · obtain ⟨h₁, h₂, -⟩ := grow_eq_some_iff.mp hg
    exact ⟨h₁, h₂⟩
  have hw := hb.written_le
  obtain ⟨-, -, rfl, rfl⟩ := grow_eq_some_iff.mp hg
  refine ⟨rfl, rfl, rfl, hb.grow hg, fun a ha => ?_, fun a ha ha' => ?_⟩
  · -- a byte both lengths cover comes from what was written, cut or not
    dsimp only at ha
    have ha₁ : a < m.size := by omega
    have ha₂ : a < (m.pages.toNat + delta.toNat) * pageSize := by omega
    rw [read_eq_getD ha₁, read_eq_getD ha₂]
    dsimp only
    split
    · rw [getElem?_extract_zero ha₂]
    · rfl
  · -- past the old length nothing was written
    rw [read_eq_getD ha']
    dsimp only at ha' ⊢
    split
    · omega
    · rw [getElem?_neg m.written a (by omega)]
      rfl

theorem size_new_eq_pages (lo hi : UInt32) :
    (new lo hi).size = (new lo hi).pages.toNat * pageSize := by
  have hlo := lo.toNat_lt
  simp only [LinearMemory.new, pages, pageSize, Nat.mul_div_cancel _ (by decide : 0 < 65536)]
  rw [Nat.toUInt32_eq, UInt32.toNat_ofNat', Nat.mod_eq_of_lt hlo]

/-- A memory of whole pages never shrinks, and stays a whole number of pages. -/
theorem le_size_grow {m m' : LinearMemory} {delta old : UInt32}
    (hw : m.size = m.pages.toNat * pageSize) (hg : m.grow delta = some (old, m')) :
    m.size ≤ m'.size ∧ m'.size = m'.pages.toNat * pageSize := by
  obtain ⟨hlt, -, -, rfl⟩ := grow_eq_some_iff.mp hg
  refine ⟨by dsimp only; rw [hw]; exact Nat.mul_le_mul_right _ (Nat.le_add_right _ _), ?_⟩
  show _ = (((m.pages.toNat + delta.toNat) * pageSize / pageSize).toUInt32).toNat * pageSize
  rw [Nat.mul_div_cancel _ (by decide : 0 < pageSize), Nat.toUInt32_eq, UInt32.toNat_ofNat',
    Nat.mod_eq_of_lt hlt]

theorem grow_zero_of_whole {m : LinearMemory} (hb : Built m)
    (hw : m.size = m.pages.toNat * pageSize) : m.grow 0 = none ∨ m.grow 0 = some (m.pages, m) := by
  cases hg : m.grow 0 with
  | none => exact .inl rfl
  | some r =>
    obtain ⟨old, m'⟩ := r
    obtain ⟨-, -, rfl, rfl⟩ := grow_eq_some_iff.mp hg
    have hsize : (m.pages.toNat + (0 : UInt32).toNat) * pageSize = m.size := by
      rw [hw]
      rfl
    refine .inr ?_
    rw [hsize, if_neg (Nat.not_lt.mpr hb.written_le)]

end LinearMemory

namespace RefTable

/-- Tables made by `new` and grown any number of times. -/
inductive Built : RefTable → Prop
  | new (min : UInt32) (max : Option UInt32) : Built (new min max)
  | grow {t t' : RefTable} {delta old : UInt32} {init : UInt64} : Built t →
      t.grow delta init = some (old, t') → Built t'

theorem limit_eq (t : RefTable) :
    t.limit = min ((t.max.map (·.toNat)).getD tableLengthLimit) tableLengthLimit := by
  unfold limit
  cases t.max <;> simp

theorem grow_eq_some_iff {t t' : RefTable} {delta old : UInt32} {init : UInt64} :
    t.grow delta init = some (old, t') ↔
      t.size.toUInt32.toNat + delta.toNat < 2 ^ 32 ∧
      t.size.toUInt32.toNat + delta.toNat ≤ t.limit ∧ old = t.size.toUInt32 ∧
      t' = { t with
        elements := if t.size.toUInt32.toNat + delta.toNat ≤ t.size then
            t.elements.extract 0 (t.size.toUInt32.toNat + delta.toNat)
          else t.elements ++ Array.replicate (t.size.toUInt32.toNat + delta.toNat - t.size) init } := by
  simp only [grow]
  by_cases hc : t.size.toUInt32.toNat + delta.toNat < Nat.pow 2 32 ∧
      t.size.toUInt32.toNat + delta.toNat ≤ t.limit
  · rw [if_pos hc, Option.some.injEq, Prod.mk.injEq]
    constructor
    · rintro ⟨rfl, rfl⟩
      exact ⟨hc.1, hc.2, rfl, rfl⟩
    · rintro ⟨-, -, rfl, rfl⟩
      exact ⟨rfl, rfl⟩
  · rw [if_neg hc]
    simp only [reduceCtorEq, false_iff]
    rintro ⟨h₁, h₂, -⟩
    exact hc ⟨h₁, h₂⟩

theorem toNat_toUInt32_size {t : RefTable} (hs : t.size < 2 ^ 32) :
    t.size.toUInt32.toNat = t.size := by
  rw [Nat.toUInt32_eq, UInt32.toNat_ofNat', Nat.mod_eq_of_lt hs]

theorem elements_grow {t t' : RefTable} {delta old : UInt32} {init : UInt64}
    (hs : t.size < 2 ^ 32) (hg : t.grow delta init = some (old, t')) :
    old.toNat = t.size ∧ t'.elements = t.elements ++ Array.replicate delta.toNat init ∧
      t'.max = t.max := by
  have hold := toNat_toUInt32_size hs
  obtain ⟨-, -, rfl, rfl⟩ := grow_eq_some_iff.mp hg
  refine ⟨hold, ?_, rfl⟩
  dsimp only
  rw [hold]
  split
  · -- nothing added: the elements are kept whole
    rename_i hle
    have hd : delta.toNat = 0 := by omega
    rw [hd, Nat.add_zero]
    show t.elements.extract 0 t.elements.size = t.elements ++ Array.replicate 0 init
    rw [Array.extract_size, Array.replicate_zero, Array.append_empty]
  · congr 2
    omega

theorem Built.size_lt {t : RefTable} (h : Built t) : t.size < 2 ^ 32 := by
  induction h with
  | new min max => rw [size_new]; exact min.toNat_lt
  | @grow t t' delta old init hb hg ih =>
    obtain ⟨-, helems, -⟩ := elements_grow ih hg
    obtain ⟨hlt, -, -⟩ := grow_eq_some_iff.mp hg
    have hsize : t'.size = t.size + delta.toNat := by simp [size, helems]
    rw [toNat_toUInt32_size ih] at hlt
    omega

/-- Growth of a built table: it succeeds exactly when the new length fits 32 bits and the
limit; the table then holds its elements followed by `delta` copies of `init`. -/
theorem grow_spec {t : RefTable} (hb : Built t) (delta : UInt32) (init : UInt64) :
    ((∃ r, t.grow delta init = some r) ↔ t.size + delta.toNat < 2 ^ 32 ∧
      t.size + delta.toNat ≤ min ((t.max.map (·.toNat)).getD tableLengthLimit) tableLengthLimit) ∧
    ∀ old t', t.grow delta init = some (old, t') →
      old.toNat = t.size ∧ t'.elements = t.elements ++ Array.replicate delta.toNat init ∧
      t'.max = t.max ∧ Built t' := by
  have hold := toNat_toUInt32_size hb.size_lt
  refine ⟨⟨fun ⟨⟨old, t'⟩, hg⟩ => ?_, fun hc => ?_⟩, fun old t' hg => ?_⟩
  · obtain ⟨h₁, h₂, -⟩ := grow_eq_some_iff.mp hg
    rw [hold] at h₁ h₂
    exact ⟨h₁, limit_eq t ▸ h₂⟩
  · refine ⟨_, grow_eq_some_iff.mpr ⟨?_, ?_, rfl, rfl⟩⟩
    · rw [hold]
      exact hc.1
    · rw [hold, limit_eq]
      exact hc.2
  · obtain ⟨h₁, h₂, h₃⟩ := elements_grow hb.size_lt hg
    exact ⟨h₁, h₂, h₃, hb.grow hg⟩

end RefTable

end OnePassJit
