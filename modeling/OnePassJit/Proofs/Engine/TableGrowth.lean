import OnePassJit.Proofs.Engine.Closing
import OnePassJit.Proofs.Growth

/-!
The host's `table.grow`.

Generated code leaves `table.grow` to the host with its three operands in the slots below
the stack pointer it records: the growth's initial reference, the growth and the table
index. The host reads them, grows the table and writes what `table.grow` answers over the
lowest of them (`Dispatch.callBuiltin_tableGrow`).

A table's elements have a region of their own and its length lies in its record, so the
host changes the table's elements, its length field and the answer's slot, and every other
access reads as before (`Dispatch.tableGrow_serviced`).
-/

namespace OnePassJit

namespace Amd64.AddressSpace

variable {m : AddressSpace} {a b v : UInt64} {n k i j off : Nat}

theorem regions_setRegion_self (m : AddressSpace) (i : Nat) (b : ByteArray) :
    (m.setRegion i b).regions[i]? = some b := by
  unfold setRegion
  dsimp only
  rw [Array.set!_eq_setIfInBounds, Array.getElem?_setIfInBounds_self_of_lt]
  split
  · simp only [Array.size_append, Array.size_replicate]
    omega
  · omega

theorem region_setRegion_self (bytes : ByteArray) (i : Nat) : (m.setRegion i bytes).region i = bytes := by
  rw [region, Array.getD_eq_getD_getElem?, regions_setRegion_self, Option.getD_some]

theorem region_setRegion_of_ne (bytes : ByteArray) (hij : i ≠ j) :
    (m.setRegion j bytes).region i = m.region i := by
  unfold setRegion region
  dsimp only
  rw [Array.set!_eq_setIfInBounds, Array.getD_eq_getD_getElem?, Array.getD_eq_getD_getElem?,
    Array.getElem?_setIfInBounds_ne (Ne.symm hij)]
  split
  · rw [Array.getElem?_append]
    split
    · rfl
    · rw [Array.getElem?_replicate, Array.getElem?_eq_none (by omega)]
      split <;> rfl
  · rfl

/-! Where an access is located. -/

theorem locate_eq_split {o : Nat} (h : m.locate a n = some (j, o)) :
    j = ((a - addressBase) >>> regionBits.toUInt64).toNat ∧
      o = ((a - addressBase) % (Nat.pow 2 regionBits : Nat).toUInt64).toNat := by
  unfold locate at h
  dsimp only at h
  split at h
  · split at h
    · cases h
      exact ⟨rfl, rfl⟩
    · cases h
  · cases h

theorem locate_regionBase_add_eq (hi : i < 2 ^ 20) (hoff : off < 2 ^ 40) {o : Nat}
    (h : m.locate (regionBase i + off.toUInt64) n = some (j, o)) : j = i ∧ o = off := by
  obtain ⟨hj, ho⟩ := locate_eq_split h
  have key := toNat_regionBase_add_sub hi hoff
  constructor
  · rw [hj, UInt64.toNat_shiftRight, key, Nat.toUInt64_eq, UInt64.toNat_ofNat', regionBits,
      Nat.shiftRight_eq_div_pow]
    simp only [Nat.reducePow, Nat.reduceMod]
    omega
  · rw [ho, UInt64.toNat_mod, key, Nat.toUInt64_eq, UInt64.toNat_ofNat', regionBits, Nat.pow_eq]
    simp only [Nat.reducePow, Nat.reduceMod]
    omega

theorem locate_setArea_of_ne {area : Area} (hl : m.locate a k = some (i, off)) (hi : i ≠ area.index)
    (bytes : ByteArray) : (m.setArea area bytes).locate a k = some (i, off) := by
  obtain ⟨r, hr, -⟩ := locate_eq_some hl
  exact locate_congr hl (regions_setRegion_of_ne _ hi (Array.getElem?_eq_some_iff.mp hr).1)

theorem read_setArea_of_ne {area : Area} (hl : m.locate a k = some (i, off)) (hi : i ≠ area.index)
    (bytes : ByteArray) : (m.setArea area bytes).read a k = m.read a k := by
  obtain ⟨r, hr, -⟩ := locate_eq_some hl
  exact read_congr hl (regions_setRegion_of_ne _ hi (Array.getElem?_eq_some_iff.mp hr).1)

/-! Pokes. -/

theorem locate_poke (m : AddressSpace) (b : UInt64) (n : Nat) (v a : UInt64) (k : Nat) :
    (m.poke b n v).locate a k = m.locate a k := by
  unfold poke
  rcases hw : m.write b n v with _ | m'
  · rfl
  · exact locate_write hw a k

theorem region_poke_of_ne (h : ∀ off, m.locate b n ≠ some (i, off)) (v : UInt64) :
    (m.poke b n v).region i = m.region i := by
  unfold poke
  rcases hw : m.write b n v with _ | m'
  · rfl
  · obtain ⟨j, off, hl, hm'⟩ := write_eq_some hw
    have hji : j ≠ i := by
      rintro rfl
      exact h off hl
    rw [Option.getD_some, hm', region_modifyRegion, if_neg (fun hc => hji hc.1)]

theorem read_poke_self (hl : m.locate a 8 = some (j, off)) (v : UInt64) :
    (m.poke a 8 v).read a 8 = some v := by
  have hw := write_of_locate hl v
  rw [poke_eq hw]
  obtain ⟨w, hr, hwv⟩ := read_write_self hw le_rfl
  rw [hr, UInt64.toNat_inj.mp (hwv.trans (Nat.mod_eq_of_lt v.toNat_lt))]

theorem read_poke_of_separate (hl : m.locate a k = some (i, off))
    (hsep : ∀ j o, m.locate b n = some (j, o) → j ≠ i ∨ off + k ≤ o ∨ o + n ≤ off) (v : UInt64) :
    (m.poke b n v).read a k = m.read a k := by
  unfold poke
  rcases hw : m.write b n v with _ | m'
  · rfl
  · obtain ⟨j, o, hl', -⟩ := write_eq_some hw
    exact read_write_of_separate hw hl' hl (hsep j o hl')

end Amd64.AddressSpace

open Amd64

theorem tableRecord_len (i : Nat) :
    tableRecord i + UInt64.ofInt Abi.tableLen =
      regionBase Area.tableRecords.index + (i * tableRecordSize + 8).toUInt64 := by
  rw [tableRecord, Area.base, Nat.toUInt64_eq, Nat.toUInt64_eq, UInt64.ofNat_add, UInt64.add_assoc]
  rfl

theorem locate_tableLen {m : AddressSpace} {i n j o : Nat} (hi : i < 2 ^ 32)
    (h : m.locate (tableRecord i + UInt64.ofInt Abi.tableLen) n = some (j, o)) :
    j = Area.tableRecords.index ∧ o = i * tableRecordSize + 8 := by
  rw [tableRecord_len] at h
  exact AddressSpace.locate_regionBase_add_eq (by decide)
    (show i * tableRecordSize + 8 < 2 ^ 40 by unfold tableRecordSize; omega) h

theorem RefTable.max_of_grow {t t' : RefTable} {delta old : UInt32} {init : UInt64}
    (hg : t.grow delta init = some (old, t')) : t'.max = t.max := by
  obtain ⟨-, -, -, rfl⟩ := RefTable.grow_eq_some_iff.mp hg
  rfl

theorem RefTable.size_lt_of_grow {t t' : RefTable} {delta old : UInt32} {init : UInt64}
    (hg : t.grow delta init = some (old, t')) : t'.size < 2 ^ 32 := by
  obtain ⟨hlt, -, -, rfl⟩ := RefTable.grow_eq_some_iff.mp hg
  unfold RefTable.size at hlt ⊢
  dsimp only
  split
  · simp only [Array.size_extract]
    omega
  · simp only [Array.size_append, Array.size_replicate]
    omega

namespace Instance

variable {inst : Instance} {i : Nat}

theorem table?_eq_some {t : RefTable} :
    inst.table? i = some t ↔
      inst.tableMax[i]? = some t.max ∧ bytesToWords (inst.space.area (.tableElements i)) = t.elements := by
  unfold table?
  cases inst.tableMax[i]? with
  | none => simp
  | some mx =>
    simp only [Option.map_some, Option.some.injEq]
    constructor
    · rintro rfl
      exact ⟨rfl, rfl⟩
    · rintro ⟨hmx, he⟩
      rw [he, hmx]

theorem table?_setTable_self (hi : i < 2 ^ 32) {t : RefTable} (hmax : inst.tableMax[i]? = some t.max) :
    (inst.setTable i t).table? i = some t := by
  refine table?_eq_some.mpr ⟨hmax, ?_⟩
  unfold setTable AddressSpace.area AddressSpace.setArea
  dsimp only
  rw [AddressSpace.region_poke_of_ne, AddressSpace.region_setRegion_self, bytesToWords_wordsToBytes]
  intro off hl
  have := (locate_tableLen hi hl).1
  exact absurd this (by simp [Area.index]; omega)

theorem area_setTable_of_ne (hi : i < 2 ^ 32) (t : RefTable) {a : Area}
    (hae : a.index ≠ (Area.tableElements i).index) (har : a.index ≠ Area.tableRecords.index) :
    (inst.setTable i t).space.area a = inst.space.area a := by
  unfold setTable AddressSpace.area AddressSpace.setArea
  dsimp only
  rw [AddressSpace.region_poke_of_ne, AddressSpace.region_setRegion_of_ne _ hae]
  intro off hl
  exact har (locate_tableLen hi hl).1

theorem locate_setTable_of_ne (t : RefTable) {a : UInt64} {k j off : Nat}
    (hl : inst.space.locate a k = some (j, off)) (hj : j ≠ (Area.tableElements i).index) :
    (inst.setTable i t).space.locate a k = some (j, off) :=
  (AddressSpace.locate_poke _ _ _ _ _ _).trans (AddressSpace.locate_setArea_of_ne hl hj _)

theorem read_setTable_of_separate (hi : i < 2 ^ 32) (t : RefTable) {a : UInt64} {k j off : Nat}
    (hl : inst.space.locate a k = some (j, off)) (hj : j ≠ (Area.tableElements i).index)
    (hrec : j = Area.tableRecords.index →
      off + k ≤ i * tableRecordSize + 8 ∨ i * tableRecordSize + 16 ≤ off) :
    (inst.setTable i t).space.read a k = inst.space.read a k := by
  unfold setTable
  dsimp only
  rw [AddressSpace.read_poke_of_separate (AddressSpace.locate_setArea_of_ne hl hj _),
    AddressSpace.read_setArea_of_ne hl hj]
  intro j' o hl'
  obtain ⟨rfl, rfl⟩ := locate_tableLen hi hl'
  by_cases hjr : j = Area.tableRecords.index
  · have := hrec hjr
    unfold tableRecordSize at this ⊢
    omega
  · exact .inl (Ne.symm hjr)

end Instance

namespace Dispatch

theorem run_stackBase (inst : Instance) :
    stackBase.run inst = (.ok ((inst.space.peek (ctxAddr Abi.ctxStackBase) 8 >>> 3).toNat), inst) := rfl

theorem run_stackLen (inst : Instance) :
    stackLen.run inst = (.ok ((inst.space.area .valueStack).size / 8), inst) := rfl

theorem run_readSlot (k : Nat) (inst : Instance) :
    (readSlot k).run inst = (.ok (readLE (inst.space.area .valueStack) (8 * k) 8), inst) := rfl

variable {inst : Instance} {base sp : Nat} {init : UInt64} {delta idx : UInt32} {t : RefTable}

/-- The host's `table.grow`: it reads the growth's initial reference, the growth and the table
index from the three slots below the stack pointer, grows the table, and writes what
`table.grow` answers over the lowest of them. -/
theorem callBuiltin_tableGrow
    (hb : inst.space.read (ctxAddr Abi.ctxBuiltin) 4 = some Builtin.tableGrow.code.toUInt64)
    (hbase : inst.space.read (ctxAddr Abi.ctxStackBase) 8 = some (8 * base).toUInt64)
    (hsp : inst.space.read (ctxAddr Abi.ctxStackPointer) 8 = some sp.toUInt64)
    (h64 : 8 * base < 2 ^ 64) (hsp64 : sp < 2 ^ 64) (h3 : 3 ≤ sp)
    (hlen : base + sp ≤ (inst.space.area .valueStack).size / 8)
    (hinit : readLE (inst.space.area .valueStack) (8 * (base + sp - 3)) 8 = init)
    (hdelta : (readLE (inst.space.area .valueStack) (8 * (base + sp - 2)) 8).toUInt32 = delta)
    (hidx : (readLE (inst.space.area .valueStack) (8 * (base + sp - 1)) 8).toUInt32 = idx)
    (ht : inst.table? idx.toNat = some t) :
    callBuiltin.run inst = (.ok (),
      let grown := match t.grow delta init with
        | some (_, t') => inst.setTable idx.toNat t'
        | none => inst
      let slot := Area.valueStack.base + (8 * (base + sp - 3)).toUInt64
      { grown with space := grown.space.poke slot 8 (t.growAnswer delta init) }) := by
  have hsp' : sp.toUInt64.toNat = sp := by
    rw [Nat.toUInt64_eq, UInt64.toNat_ofNat', Nat.mod_eq_of_lt hsp64]
  unfold callBuiltin
  rw [run_bind_ok (run_readCtx _ _ inst)]
  simp only [toUInt32_peek hb, Builtin.ofCode?_code]
  rw [run_bind_ok (run_stackBase inst), run_bind_ok (run_readCtx _ _ inst)]
  simp only [AddressSpace.peek_eq hbase, AddressSpace.peek_eq hsp, toNat_shiftRight_three h64, hsp']
  rw [run_bind_ok (run_stackLen inst), if_neg (by simp only [Bool.or_eq_true, decide_eq_true_eq]; omega)]
  rw [run_bind_ok (run_readSlot _ inst), run_bind_ok (run_readSlot _ inst),
    run_bind_ok (run_readSlot _ inst), run_bind_ok (run_get inst)]
  simp only [hinit, hdelta, hidx, ht]
  unfold RefTable.growAnswer
  cases t.grow delta init with
  | none => rfl
  | some p => rfl

theorem locate_stackSlot {m : AddressSpace} {k : Nat} (hk : 8 * k + 8 ≤ (m.area .valueStack).size)
    (h40 : 8 * k < 2 ^ 40) :
    m.locate (Area.valueStack.base + (8 * k).toUInt64) 8 = some (Area.valueStack.index, 8 * k) := by
  unfold AddressSpace.area AddressSpace.region at hk
  rw [Array.getD_eq_getD_getElem?] at hk
  cases hr : m.regions[Area.valueStack.index]? with
  | none =>
    rw [hr] at hk
    simp at hk
  | some r =>
    rw [hr, Option.getD_some] at hk
    exact AddressSpace.locate_regionBase_add (by decide) h40 hr hk

theorem table?_poke_stack {off n : Nat} (h40 : off < 2 ^ 40) (v : UInt64) (k : Nat) :
    ({ inst with space := inst.space.poke (Area.valueStack.base + off.toUInt64) n v }).table? k =
      inst.table? k := by
  unfold Instance.table?
  dsimp only
  unfold AddressSpace.area
  rw [AddressSpace.region_poke_of_ne]
  intro o hl
  have := (AddressSpace.locate_regionBase_add_eq (by decide) h40 hl).1
  simp [Area.index] at this
  omega

/-- What the host's `table.grow` leaves: the table grown, or as it was when growing fails; the
answer in the slot of the lowest operand; the new length in the table's record; every other
access, and the exit code, as they were. -/
theorem tableGrow_serviced
    (hb : inst.space.read (ctxAddr Abi.ctxBuiltin) 4 = some Builtin.tableGrow.code.toUInt64)
    (hbase : inst.space.read (ctxAddr Abi.ctxStackBase) 8 = some (8 * base).toUInt64)
    (hsp : inst.space.read (ctxAddr Abi.ctxStackPointer) 8 = some sp.toUInt64)
    (h40 : 8 * (base + sp - 1) < 2 ^ 40) (h3 : 3 ≤ sp)
    (hlen : base + sp ≤ (inst.space.area .valueStack).size / 8)
    (hinit : readLE (inst.space.area .valueStack) (8 * (base + sp - 3)) 8 = init)
    (hdelta : (readLE (inst.space.area .valueStack) (8 * (base + sp - 2)) 8).toUInt32 = delta)
    (hidx : (readLE (inst.space.area .valueStack) (8 * (base + sp - 1)) 8).toUInt32 = idx)
    (ht : inst.table? idx.toNat = some t)
    (hrec : ∃ off, inst.space.locate (tableRecord idx.toNat + UInt64.ofInt Abi.tableLen) 8 =
      some (Area.tableRecords.index, off)) :
    ∃ inst', callBuiltin.run inst = (.ok (), inst') ∧
      inst'.table? idx.toNat = some (t.afterGrow delta init) ∧
      inst'.space.read (Area.valueStack.base + (8 * (base + sp - 3)).toUInt64) 8 =
        some (t.growAnswer delta init) ∧
      (∀ old t', t.grow delta init = some (old, t') →
        inst'.space.read (tableRecord idx.toNat + UInt64.ofInt Abi.tableLen) 8 = some t'.size.toUInt64) ∧
      (∀ {a : UInt64} {k j off : Nat}, inst.space.locate a k = some (j, off) →
        j ≠ (Area.tableElements idx.toNat).index →
        (j = Area.tableRecords.index →
          off + k ≤ idx.toNat * tableRecordSize + 8 ∨ idx.toNat * tableRecordSize + 16 ≤ off) →
        (j = Area.valueStack.index → off + k ≤ 8 * (base + sp - 3) ∨ 8 * (base + sp - 3) + 8 ≤ off) →
        inst'.space.read a k = inst.space.read a k) ∧
      inst'.exitCode = inst.exitCode := by
  obtain ⟨hmax, -⟩ := Instance.table?_eq_some.mp ht
  have hidx32 : idx.toNat < 2 ^ 32 := idx.toNat_lt
  have hoff : 8 * (base + sp - 3) < 2 ^ 40 := by omega
  have harea : (match t.grow delta init with
      | some (_, t') => inst.setTable idx.toNat t'
      | none => inst).space.area .valueStack = inst.space.area .valueStack := by
    cases t.grow delta init with
    | none => rfl
    | some p => exact Instance.area_setTable_of_ne hidx32 _ (by simp [Area.index]; omega) (by decide)
  have hslot := locate_stackSlot (m := (match t.grow delta init with
      | some (_, t') => inst.setTable idx.toNat t'
      | none => inst).space) (by rw [harea]; omega) hoff
  refine ⟨_, callBuiltin_tableGrow hb hbase hsp (by omega) (by omega) h3 hlen hinit hdelta hidx ht,
    ?_, AddressSpace.read_poke_self hslot _, ?_, ?_, ?_⟩
  · -- the table
    rw [table?_poke_stack hoff]
    unfold RefTable.afterGrow
    cases hg : t.grow delta init with
    | none => exact ht
    | some p =>
      obtain ⟨old, t'⟩ := p
      refine Instance.table?_setTable_self hidx32 ?_
      rw [hmax, RefTable.max_of_grow hg]
  · -- the length, in the table's record
    intro old t' hg
    obtain ⟨off, hl⟩ := hrec
    simp only [hg]
    have hl₁ : (inst.space.setArea (.tableElements idx.toNat) (wordsToBytes t'.elements)).locate
        (tableRecord idx.toNat + UInt64.ofInt Abi.tableLen) 8 = some (Area.tableRecords.index, off) :=
      AddressSpace.locate_setArea_of_ne hl (by simp [Area.index]; omega) _
    rw [AddressSpace.read_poke_of_separate ((Instance.locate_setTable_of_ne t' hl
      (by simp [Area.index]; omega)))]
    · exact AddressSpace.read_poke_self hl₁ _
    · intro j o hs
      exact .inl (by rw [(AddressSpace.locate_regionBase_add_eq (by decide) hoff hs).1]; decide)
  · -- every other access
    intro a k j off hl hj hrec hstack
    have hgrown : (match t.grow delta init with
        | some (_, t') => inst.setTable idx.toNat t'
        | none => inst).space.read a k = inst.space.read a k ∧
        (match t.grow delta init with
        | some (_, t') => inst.setTable idx.toNat t'
        | none => inst).space.locate a k = some (j, off) := by
      cases t.grow delta init with
      | none => exact ⟨rfl, hl⟩
      | some p =>
        exact ⟨Instance.read_setTable_of_separate hidx32 _ hl hj hrec,
          Instance.locate_setTable_of_ne _ hl hj⟩
    rw [AddressSpace.read_poke_of_separate hgrown.2, hgrown.1]
    intro j' o hs
    obtain ⟨rfl, rfl⟩ := AddressSpace.locate_regionBase_add_eq (by decide) hoff hs
    by_cases hjv : j = Area.valueStack.index
    · exact .inr (hstack hjv)
    · exact .inl (Ne.symm hjv)
  · cases t.grow delta init <;> rfl

end Dispatch

end OnePassJit
