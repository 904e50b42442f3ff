import OnePassJit.Proofs.Machine.Spill

/-!
Machines that generated code can be entered in.

`Env` lists what generated code relies on. The host meets it by mapping the call context,
the native stack and the value stack, pointing `r13`, `r14` and `rsp` at them and leaving
the host's return address on top of the native stack: `Env.of_regions` says that this is
all it takes, whatever else the memory holds.

`entryMachine vals` is such a machine, with the values `vals` in the first slots of a frame
at byte 0, and `memoryStack ts` the stack of a function holding values of the types `ts`,
all in memory: `rep_entryMachine` says the one holds the other. Code placed one
instruction per address (`Code.spaced`) runs any assembled code. Together they give
concrete states in which the lowering lemmas apply.
-/

namespace OnePassJit.Amd64

open Lower ValueStack

/-! What the host sets up. -/

section Regions

variable {M : Machine} {fb cap off : Nat} {ctx ns vals : ByteArray}

theorem locate_area {a : Area} {r : ByteArray} {off n : Nat} (ha : a.index < 2 ^ 20)
    (hoff : off < 2 ^ 40) (hr : M.mem.regions[a.index]? = some r) (hfit : off + n ≤ r.size) :
    M.mem.locate (a.base + off.toUInt64) n = some (a.index, off) :=
  AddressSpace.locate_regionBase_add ha hoff hr hfit

/-- A machine whose context, native stack and value stack regions are mapped, with the
registers generated code reads pointing at them, is one generated code can run in. -/
theorem Env.of_regions (hgpr : M.cpu.gpr.size = 16) (hxmm : M.cpu.xmm.size = 16)
    (hctx : M.gp contextReg.gpr = Area.context.base)
    (hbase : M.gp stackBaseReg.gpr = Area.valueStack.base + fb.toUInt64)
    (hrsp : M.gp Machine.rsp = Area.nativeStack.base + off.toUInt64)
    (hc : M.mem.regions[Area.context.index]? = some ctx) (hcs : Abi.ctxSize ≤ ctx.size)
    (hn : M.mem.regions[Area.nativeStack.index]? = some ns) (hns : off + 8 ≤ ns.size)
    (hv : M.mem.regions[Area.valueStack.index]? = some vals) (hvs : fb + 8 * cap ≤ vals.size)
    (hbound : fb + 8 * cap < 2 ^ 40 ∧ off < 2 ^ 40)
    (hret : readLE ns off 8 = hostReturnAddress) : Env M fb cap where
  gpr_size := hgpr
  xmm_size := hxmm
  context := hctx
  stackBase := hbase
  locate_context {off' n} h := by
    have : Abi.ctxSize < 2 ^ 40 := by decide
    exact locate_area (by decide) (by omega) hc (by omega)
  locate_slot {i n} hi hn8 := locate_area (by decide) (by omega) hv (by omega)
  locate_rsp := ⟨off, by rw [hrsp]; exact locate_area (by decide) hbound.2 hn hns⟩
  hostReturn := by
    have hl := locate_area (by decide) hbound.2 hn hns
    rw [hrsp, AddressSpace.read_of_locate hl, AddressSpace.region, Array.getD_eq_getD_getElem?,
      hn, Option.getD_some, hret]

end Regions

/-! A machine entered with a frame of values. -/

def frameBytes (vals : List UInt64) : ByteArray :=
  ⟨Array.ofFn fun j : Fin (8 * vals.length) =>
    (vals.get ⟨j.val / 8, by omega⟩ >>> (8 * (j.val % 8)).toUInt64).toUInt8⟩

theorem size_frameBytes (vals : List UInt64) : (frameBytes vals).size = 8 * vals.length := by
  simp [frameBytes, ByteArray.size]

theorem readLE_frameBytes {vals : List UInt64} {i n : Nat} (hi : i < vals.length) (hn : n ≤ 8) :
    (readLE (frameBytes vals) (8 * i) n).toNat = (vals.get ⟨i, hi⟩).toNat % 2 ^ (8 * n) := by
  refine toNat_readLE_of_bytes hn fun k hk => ?_
  have hj : 8 * i + k < (frameBytes vals).size := by rw [size_frameBytes]; omega
  have hdiv : (8 * i + k) / 8 = i := by omega
  have hmod : (8 * i + k) % 8 = k := by omega
  unfold byteAt
  rw [dif_pos hj, ← toNat_byte _ (by omega), ByteArray.getElem_eq_getElem_data]
  simp only [frameBytes, Array.getElem_ofFn, hdiv, hmod]

def returnBytes : ByteArray := frameBytes [hostReturnAddress]

def entryMachine (vals : List UInt64) : Machine where
  cpu := { gpr := (((Array.replicate 16 0).set! 13 Area.context.base).set! 14
      Area.valueStack.base).set! 4 Area.nativeStack.base }
  mem := { regions := #[.empty, .empty, zeros Abi.ctxSize, returnBytes, frameBytes vals] }

theorem env_entryMachine {vals : List UInt64} (h : 8 * vals.length < 2 ^ 40) :
    Env (entryMachine vals) 0 vals.length := by
  refine @Env.of_regions (entryMachine vals) 0 vals.length 0 (zeros Abi.ctxSize) returnBytes
    (frameBytes vals) rfl rfl rfl rfl rfl rfl (by simp [zeros, ByteArray.size]) rfl (by decide)
    rfl ?_ ⟨by omega, by decide⟩ (by decide)
  rw [size_frameBytes]
  omega

def memoryStack (ts : List SlotType) : ValueStack :=
  { ValueStack.new gpPool vecPool with
    slots := (ts.mapIdx fun i t => ({ type := t, slot := i } : Location)).toArray }

theorem getElem?_memoryStack (ts : List SlotType) (i : Nat) :
    (memoryStack ts).slots[i]? = ts[i]?.map fun t => { type := t, slot := i } := by
  simp [memoryStack, List.getElem?_mapIdx]

theorem memoryStack_slot {ts : List SlotType} {i : Nat} {l : Location}
    (h : (memoryStack ts).slots[i]? = some l) : ts[i]? = some l.type ∧ l.flag = none := by
  rw [getElem?_memoryStack, Option.map_eq_some_iff] at h
  obtain ⟨t, ht, rfl⟩ := h
  exact ⟨ht, rfl⟩

theorem sp_memoryStack (ts : List SlotType) : (memoryStack ts).sp = ts.length := by
  simp [memoryStack, sp]

theorem fit_memoryStack {ts : List SlotType} (hts : ∀ t ∈ ts, t ≠ .v128lo ∧ t ≠ .v128hi) :
    Fit ∅ (memoryStack ts) := by
  have hl : ∀ {k l}, (memoryStack ts).slots[k]? = some l →
      ∃ t ∈ ts, l = ({ type := t, slot := k } : Location) := by
    intro k l h
    rw [getElem?_memoryStack, Option.map_eq_some_iff] at h
    obtain ⟨t, ht, rfl⟩ := h
    exact ⟨t, List.mem_of_getElem? ht, rfl⟩
  have hfree : ∀ r, ¬ (memoryStack ts).Holds r := by
    intro r hr
    obtain ⟨k, l, hk, hreg⟩ := mem_regsOf.mp hr
    obtain ⟨t, -, rfl⟩ := hl hk
    cases hreg
  refine ⟨⟨⟨?_, ?_, ?_, ?_, ?_⟩, ?_, ?_⟩, rfl, rfl⟩
  · intro k l h
    obtain ⟨t, -, rfl⟩ := hl h
    simp
  · intro k l h hf
    obtain ⟨t, -, rfl⟩ := hl h
    cases hf
  · intro k l h hlo
    obtain ⟨t, ht, rfl⟩ := hl h
    exact absurd hlo (hts t ht).1
  · intro k l h hhi
    obtain ⟨t, ht, rfl⟩ := hl h
    exact absurd hhi (hts t ht).2
  · intro i j l l' r _ h _ hr
    obtain ⟨t, -, rfl⟩ := hl h
    cases hr
  · intro r
    simpa [memoryStack, ValueStack.new] using hfree r
  · intro r hr
    exact absurd hr (Finset.notMem_empty r)

theorem size_zeros_ctxSize : (zeros Abi.ctxSize).size = Abi.ctxSize := by
  simp [zeros, ByteArray.size]

theorem rep_of_frameBytes_append {M : Machine} {ts : List SlotType} {vals rest : List UInt64}
    {cap : Nat} (henv : Env M 0 cap) (hcap : vals.length ≤ cap)
    (hv : M.mem.regions[Area.valueStack.index]? = some (frameBytes (vals ++ rest)))
    (hlen : ts.length = vals.length)
    (hfit : ∀ (i : Nat) t (v : UInt64), ts[i]? = some t → vals[i]? = some v →
      v.toNat < 2 ^ (8 * slotBytes t)) :
    Rep M 0 cap (memoryStack ts) vals where
  env := henv
  length_eq := by rw [sp_memoryStack, hlen]
  sp_le := by rw [sp_memoryStack, hlen]; exact hcap
  resides := by
    intro i l v hl hv'
    rw [getElem?_memoryStack, Option.map_eq_some_iff] at hl
    obtain ⟨t, ht, rfl⟩ := hl
    have hi : i < vals.length := (List.getElem?_eq_some_iff.mp hv').1
    have hi' : i < (vals ++ rest).length := by rw [List.length_append]; omega
    have hloc := henv.locate_slot (by omega : i < cap) (slotBytes_le t)
    show M.mem.read (slotAddress 0 i) (slotBytes t) = some v
    rw [AddressSpace.read_of_locate hloc]
    congr 1
    apply UInt64.toNat_inj.mp
    have hvi : (vals ++ rest).get ⟨i, hi'⟩ = v := by
      rw [List.get_eq_getElem, List.getElem_append_left hi]
      exact (List.getElem?_eq_some_iff.mp hv').2
    rw [AddressSpace.region, Array.getD_eq_getD_getElem?, hv, Option.getD_some, Nat.zero_add,
      readLE_frameBytes hi' (slotBytes_le t), hvi, Nat.mod_eq_of_lt (hfit i t v ht hv')]

theorem rep_of_frameBytes {M : Machine} {ts : List SlotType} {vals : List UInt64}
    (henv : Env M 0 vals.length)
    (hv : M.mem.regions[Area.valueStack.index]? = some (frameBytes vals))
    (hlen : ts.length = vals.length)
    (hfit : ∀ (i : Nat) t (v : UInt64), ts[i]? = some t → vals[i]? = some v →
      v.toNat < 2 ^ (8 * slotBytes t)) :
    Rep M 0 vals.length (memoryStack ts) vals :=
  rep_of_frameBytes_append henv le_rfl
    (show M.mem.regions[Area.valueStack.index]? = some (frameBytes (vals ++ [])) by
      rwa [List.append_nil]) hlen hfit

/-- The entry machine holds the stack of its frame's values, each fitting its slot. -/
theorem rep_entryMachine {ts : List SlotType} {vals : List UInt64}
    (hlen : ts.length = vals.length) (h40 : 8 * vals.length < 2 ^ 40)
    (hfit : ∀ (i : Nat) t (v : UInt64), ts[i]? = some t → vals[i]? = some v →
      v.toNat < 2 ^ (8 * slotBytes t)) :
    Rep (entryMachine vals) 0 vals.length (memoryStack ts) vals :=
  rep_of_frameBytes (env_entryMachine h40) rfl hlen hfit

/-! Code placed one instruction per address. -/

namespace Code

def spacedTarget (a : Assembler) (l : Nat) : UInt64 := ((a.labelAt l).getD 0).toUInt64

/-- The instructions of `a`, one per address from 0, each branch aimed at the instruction
its label is bound to. -/
def spaced (a : Assembler) (h : a.instrs.size < 2 ^ 64) : Code where
  program := { base := 0, slots := a.instrs.map fun i => some (i.mapTarget (spacedTarget a), 1) }
  asm := a
  addr k := k.toUInt64
  target := spacedTarget a
  target_eq l j hl := by simp [spacedTarget, hl]
  fetch_eq k hk := by
    have hmod : k % 18446744073709551616 = k := Nat.mod_eq_of_lt (by omega)
    simp [Program.fetch, hmod, Array.getElem?_eq_getElem hk]

end Code

end OnePassJit.Amd64
