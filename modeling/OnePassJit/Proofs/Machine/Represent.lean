import OnePassJit.Engine.Call
import OnePassJit.Proofs.Residence
import OnePassJit.Proofs.Machine.Runs

/-!
How a machine holds the value stack of the function it runs.

Generated code finds its call context through `r13` and the base of its frame through
`r14`: slot `i` of the frame is the eight bytes at `r14 + 8 · i` of the value stack region.
A live value lives where its location says (`Resides`): in a general register (an `i32`
with the upper half clear), in the low or high lane of an xmm register, as a comparison
in the flags, or in the bytes of its slot. `Rep M fb cap s vs` says that the machine `M`
holds the values `vs` of the stack `s`, one per slot, in a frame at byte `fb` of the value
stack with room for `cap` slots.

The moves of an operation change the machine in few places: `Keeps M M' W n` says that
`M'` agrees with `M` outside the registers `W` and the slots below `n`. A popped operand,
held in a register outside `W` or in memory at its own slot, still resides in `M'`.
-/

namespace OnePassJit.Amd64

open Lower

/-! Addresses. -/

def slotAddress (fb i : Nat) : UInt64 := Area.valueStack.base + (fb + 8 * i).toUInt64

def slotBytes : SlotType → Nat
  | .i32 | .f32 => 4
  | _ => 8

theorem slotBytes_le (t : SlotType) : slotBytes t ≤ 8 := by
  cases t <;> decide

/-! Where a value resides. -/

def InReg (M : Machine) (t : SlotType) (r : Reg) (v : UInt64) : Prop :=
  match t with
  | .i32 => r ∈ gpPool ∧ M.gp r.gpr = v ∧ v.toNat < 2 ^ 32
  | .i64 => r ∈ gpPool ∧ M.gp r.gpr = v
  | .f32 => r ∈ vecPool ∧ (M.xr r.xmm).lo &&& low32 = v
  | .f64 | .v128lo => r ∈ vecPool ∧ (M.xr r.xmm).lo = v
  | .v128hi => r ∈ vecPool ∧ (M.xr r.xmm).hi = v
  | .none => False

/-- The value `v` resides where `l` says, in a frame at byte `fb`. -/
def Resides (M : Machine) (fb : Nat) (l : Location) (v : UInt64) : Prop :=
  match l.reg, l.flag with
  | some r, _ => InReg M l.type r v
  | none, some f => v = if (condOf f).holds M.cpu.flags then 1 else 0
  | none, none => M.mem.read (slotAddress fb l.slot) (slotBytes l.type) = some v

/-- What generated code relies on: sixteen registers of each kind, the call context in
`r13`, the frame base in `r14`, a context and `cap` slots it can address, and the host's
return address on top of the native stack. -/
structure Env (M : Machine) (fb cap : Nat) : Prop where
  gpr_size : M.cpu.gpr.size = 16
  xmm_size : M.cpu.xmm.size = 16
  context : M.gp contextReg.gpr = Area.context.base
  stackBase : M.gp stackBaseReg.gpr = Area.valueStack.base + fb.toUInt64
  locate_context : ∀ {off n : Nat}, off + n ≤ Abi.ctxSize →
    M.mem.locate (Area.context.base + off.toUInt64) n = some (Area.context.index, off)
  locate_slot : ∀ {i n : Nat}, i < cap → n ≤ 8 →
    M.mem.locate (slotAddress fb i) n = some (Area.valueStack.index, fb + 8 * i)
  locate_rsp : ∃ off, M.mem.locate (M.gp Machine.rsp) 8 = some (Area.nativeStack.index, off)
  hostReturn : M.mem.read (M.gp Machine.rsp) 8 = some hostReturnAddress

/-- The machine holds the values `vs` of the stack `s`, one per slot. -/
structure Rep (M : Machine) (fb cap : Nat) (s : ValueStack) (vs : List UInt64) : Prop where
  env : Env M fb cap
  length_eq : vs.length = s.sp
  sp_le : s.sp ≤ cap
  resides : ∀ ⦃i : Nat⦄ ⦃l : Location⦄ ⦃v : UInt64⦄, s.slots[i]? = some l → vs[i]? = some v →
    Resides M fb l v

def Exited (M : Machine) (st : Status) (sp : Nat) : Prop :=
  M.cpu.rip = hostReturnAddress ∧
    M.mem.read (Dispatch.ctxAddr Abi.ctxStatus) 4 = some st.code.toUInt64 ∧
    M.mem.read (Dispatch.ctxAddr Abi.ctxStackPointer) 8 = some sp.toUInt64

/-! Registers of the pools. -/

theorem isGp_of_mem_gpPool {r : Reg} (h : r ∈ gpPool) : r.IsGp := by
  simp only [gpPool, List.mem_cons, List.not_mem_nil, or_false] at h
  rcases h with rfl | rfl | rfl | rfl | rfl | rfl | rfl | rfl | rfl <;> decide

theorem isXmm_of_mem_vecPool {r : Reg} (h : r ∈ vecPool) : r.IsXmm := by
  simp only [vecPool, List.mem_map, List.mem_range] at h
  obtain ⟨i, hi, rfl⟩ := h
  refine ⟨rfl, ?_⟩
  show (i.toUInt8).toNat < 16
  rw [Nat.toUInt8_eq, UInt8.toNat_ofNat']
  omega

theorem gpr_ne_of_mem_gpPool {r : Reg} (h : r ∈ gpPool) :
    r.gpr ≠ Machine.rsp ∧ r.gpr ≠ contextReg.gpr ∧ r.gpr ≠ stackBaseReg.gpr ∧
      r.gpr ≠ memoryBaseReg.gpr ∧ r.gpr ≠ scratchGp.gpr := by
  simp only [gpPool, List.mem_cons, List.not_mem_nil, or_false] at h
  rcases h with rfl | rfl | rfl | rfl | rfl | rfl | rfl | rfl | rfl <;> decide

/-! Addresses of slots and context fields. -/

theorem ofInt_natCast_eq (n : Nat) : UInt64.ofInt (n : Int) = n.toUInt64 := by
  apply UInt64.toNat_inj.mp
  rw [Nat.toUInt64_eq, UInt64.toNat_ofNat', UInt64.ofInt, UInt64.toNat_ofNat']
  omega

theorem slotAddress_succ (fb i : Nat) : slotAddress fb i + 8 = slotAddress fb (i + 1) := by
  unfold slotAddress
  rw [UInt64.add_assoc]
  congr 1
  apply UInt64.toNat_inj.mp
  rw [UInt64.toNat_add, Nat.toUInt64_eq, Nat.toUInt64_eq, UInt64.toNat_ofNat', UInt64.toNat_ofNat']
  simp only [UInt64.reduceToNat]
  omega

namespace Env

variable {M : Machine} {fb cap : Nat}

theorem addr_slot (h : Env M fb cap) (i : Nat) :
    M.addr (MemRef.at stackBaseReg ((i * 8 : Nat) : Int)).toMem = slotAddress fb i := by
  simp only [Machine.addr, Cpu.address, MemRef.toMem, MemRef.at, ofInt_natCast_eq, Option.map_none]
  rw [show M.cpu.gp stackBaseReg.gpr = M.gp stackBaseReg.gpr from rfl, h.stackBase, slotAddress,
    UInt64.add_zero, UInt64.add_assoc]
  congr 1
  apply UInt64.toNat_inj.mp
  rw [UInt64.toNat_add, Nat.toUInt64_eq, Nat.toUInt64_eq, Nat.toUInt64_eq, UInt64.toNat_ofNat',
    UInt64.toNat_ofNat', UInt64.toNat_ofNat']
  omega

theorem addr_ctx (h : Env M fb cap) (field : Int) :
    M.addr (ctx field).toMem = Dispatch.ctxAddr field := by
  simp only [Machine.addr, Cpu.address, MemRef.toMem, ctx, MemRef.at, Option.map_none]
  rw [show M.cpu.gp contextReg.gpr = M.gp contextReg.gpr from rfl, h.context, UInt64.add_zero]
  rfl

theorem locate_ctxAddr (h : Env M fb cap) {field : Nat} {n : Nat} (hn : field + n ≤ Abi.ctxSize) :
    M.mem.locate (Dispatch.ctxAddr field) n = some (Area.context.index, field) := by
  rw [Dispatch.ctxAddr, ofInt_natCast_eq]
  exact h.locate_context hn

end Env

/-! What a step leaves alone. -/

/-- `M'` agrees with `M` on every register outside `W`, on the flags, and on every access
outside the slots below `n` of the frame at `fb`; it locates every access as `M` does. -/
structure Keeps (M M' : Machine) (fb : Nat) (W : Finset Reg) (n : Nat) : Prop where
  gpr_size : M'.cpu.gpr.size = M.cpu.gpr.size
  xmm_size : M'.cpu.xmm.size = M.cpu.xmm.size
  gp : ∀ g : Gpr, (∀ r ∈ W, r.IsGp → r.gpr ≠ g) → M'.gp g = M.gp g
  xr : ∀ x : Xmm, (∀ r ∈ W, r.IsXmm → r.xmm ≠ x) → M'.xr x = M.xr x
  flags : M'.cpu.flags = M.cpu.flags
  locate : ∀ a k, M'.mem.locate a k = M.mem.locate a k
  read : ∀ {a : UInt64} {k i off : Nat}, M.mem.locate a k = some (i, off) →
    i ≠ Area.valueStack.index ∨ fb + 8 * n ≤ off → M'.mem.read a k = M.mem.read a k

namespace Keeps

variable {M M' M'' : Machine} {fb n n' : Nat} {W W' : Finset Reg}

theorem refl (M : Machine) (fb : Nat) : Keeps M M fb ∅ 0 where
  gpr_size := rfl
  xmm_size := rfl
  gp _ _ := rfl
  xr _ _ := rfl
  flags := rfl
  locate _ _ := rfl
  read _ _ := rfl

theorem trans (h : Keeps M M' fb W n) (h' : Keeps M' M'' fb W' n') :
    Keeps M M'' fb (W ∪ W') (max n n') where
  gpr_size := h'.gpr_size.trans h.gpr_size
  xmm_size := h'.xmm_size.trans h.xmm_size
  gp g hg := by
    rw [h'.gp g fun r hr => hg r (Finset.mem_union_right W hr),
      h.gp g fun r hr => hg r (Finset.mem_union_left W' hr)]
  xr x hx := by
    rw [h'.xr x fun r hr => hx r (Finset.mem_union_right W hr),
      h.xr x fun r hr => hx r (Finset.mem_union_left W' hr)]
  flags := h'.flags.trans h.flags
  locate a k := (h'.locate a k).trans (h.locate a k)
  read {a k i off} hl hsep := by
    have hsep₁ : i ≠ Area.valueStack.index ∨ fb + 8 * n ≤ off := by omega
    have hsep₂ : i ≠ Area.valueStack.index ∨ fb + 8 * n' ≤ off := by omega
    rw [h'.read ((h.locate a k).trans hl) hsep₂, h.read hl hsep₁]

theorem mono (h : Keeps M M' fb W n) (hW : W ⊆ W') (hn : n ≤ n') : Keeps M M' fb W' n' where
  gpr_size := h.gpr_size
  xmm_size := h.xmm_size
  gp g hg := h.gp g fun r hr => hg r (hW hr)
  xr x hx := h.xr x fun r hr => hx r (hW hr)
  flags := h.flags
  locate := h.locate
  read hl hsep := h.read hl (by omega)

theorem goto (M : Machine) (fb : Nat) (t : UInt64) : Keeps M (M.goto t) fb ∅ 0 where
  gpr_size := rfl
  xmm_size := rfl
  gp _ _ := rfl
  xr _ _ := rfl
  flags := rfl
  locate _ _ := rfl
  read _ _ := rfl

theorem setGpW (hM : M.cpu.gpr.size = 16) {r : Reg} (hr : r.IsGp) (w : Width) (v : UInt64) :
    Keeps M (M.setGpW w r.gpr v) fb {r} 0 where
  gpr_size := by simp
  xmm_size := rfl
  gp g hg := by
    rw [Machine.gp_setGpW hM, if_neg (Ne.symm (hg r (Finset.mem_singleton_self r) hr))]
  xr _ _ := rfl
  flags := rfl
  locate _ _ := rfl
  read _ _ := rfl

theorem setXr (hM : M.cpu.xmm.size = 16) {r : Reg} (hr : r.IsXmm) (v : Vec128) :
    Keeps M (M.setXr r.xmm v) fb {r} 0 where
  gpr_size := rfl
  xmm_size := by simp
  gp _ _ := rfl
  xr x hx := by
    rw [Machine.xr_setXr hM, if_neg (Ne.symm (hx r (Finset.mem_singleton_self r) hr))]
  flags := rfl
  locate _ _ := rfl
  read _ _ := rfl

theorem write {a : UInt64} {k i off : Nat} {v : UInt64} {mem : AddressSpace}
    (hw : M.mem.write a k v = some mem) (hl : M.mem.locate a k = some (i, off))
    (hsep : ∀ {k' i' off'}, i' = i → i' ≠ Area.valueStack.index ∨ fb + 8 * n ≤ off' →
      off' + k' ≤ off ∨ off + k ≤ off') :
    Keeps M { M with mem } fb ∅ n where
  gpr_size := rfl
  xmm_size := rfl
  gp _ _ := rfl
  xr _ _ := rfl
  flags := rfl
  locate a' k' := AddressSpace.locate_write hw a' k'
  read {a' k' i' off'} hl' hs := by
    refine AddressSpace.read_write_of_separate hw hl hl' ?_
    by_cases hi : i = i'
    · exact .inr (hsep hi.symm hs)
    · exact .inl hi

end Keeps

/-! What stays where it resides. -/

def Writable (r : Reg) : Prop :=
  r.IsGp → r.gpr ≠ Machine.rsp ∧ r.gpr ≠ contextReg.gpr ∧ r.gpr ≠ stackBaseReg.gpr

theorem writable_of_mem_gpPool {r : Reg} (h : r ∈ gpPool) : Writable r := fun _ =>
  ⟨(gpr_ne_of_mem_gpPool h).1, (gpr_ne_of_mem_gpPool h).2.1, (gpr_ne_of_mem_gpPool h).2.2.1⟩

theorem writable_of_isXmm {r : Reg} (h : r.IsXmm) : Writable r := fun hg => by
  have := hg.1.symm.trans h.1
  cases this

theorem writable_scratchGp : Writable scratchGp := fun _ => by decide

theorem writable_memoryBaseReg : Writable memoryBaseReg := fun _ => by decide

variable {M M' : Machine} {fb cap n : Nat} {W : Finset Reg} {s : ValueStack} {vs : List UInt64}

theorem gpr_ne_of_not_mem {r : Reg} (hr : r.IsGp) (hW : r ∉ W) : ∀ w ∈ W, w.IsGp → w.gpr ≠ r.gpr :=
  fun _ hw hg he => hW ((Reg.gpr_inj hg hr).mp he ▸ hw)

theorem xmm_ne_of_not_mem {r : Reg} (hr : r.IsXmm) (hW : r ∉ W) :
    ∀ w ∈ W, w.IsXmm → w.xmm ≠ r.xmm :=
  fun _ hw hx he => hW ((Reg.xmm_inj hx hr).mp he ▸ hw)

theorem InReg.of_keeps {t : SlotType} {r : Reg} {v : UInt64} (hk : Keeps M M' fb W n) (hr : r ∉ W)
    (h : InReg M t r v) : InReg M' t r v := by
  cases t with
  | none => exact h.elim
  | i32 =>
    obtain ⟨hp, hv, hb⟩ := h
    exact ⟨hp, by rw [hk.gp _ (gpr_ne_of_not_mem (isGp_of_mem_gpPool hp) hr)]; exact hv, hb⟩
  | i64 =>
    obtain ⟨hp, hv⟩ := h
    exact ⟨hp, by rw [hk.gp _ (gpr_ne_of_not_mem (isGp_of_mem_gpPool hp) hr)]; exact hv⟩
  | f32 | f64 | v128lo | v128hi =>
    obtain ⟨hp, hv⟩ := h
    exact ⟨hp, by rw [hk.xr _ (xmm_ne_of_not_mem (isXmm_of_mem_vecPool hp) hr)]; exact hv⟩

theorem InReg.mem_pool {t : SlotType} {r : Reg} {v : UInt64} (h : InReg M t r v) :
    r ∈ gpPool ∨ r ∈ vecPool := by
  cases t with
  | none => exact h.elim
  | i32 => exact .inl h.1
  | i64 => exact .inl h.1
  | f32 | f64 | v128lo | v128hi => exact .inr h.1

theorem Resides.of_reads {l : Location} {v : UInt64} (hk : Keeps M M' fb W n)
    (hreg : ∀ q, l.reg = some q → q ∉ W)
    (hmem : l.reg = none → l.flag = none → M'.mem.read (slotAddress fb l.slot) (slotBytes l.type) =
      M.mem.read (slotAddress fb l.slot) (slotBytes l.type))
    (h : Resides M fb l v) : Resides M' fb l v := by
  obtain ⟨t, reg, flag, slot⟩ := l
  cases reg with
  | some r => exact InReg.of_keeps hk (hreg r rfl) h
  | none =>
    cases flag with
    | some f =>
      simp only [Resides] at h ⊢
      rw [hk.flags]
      exact h
    | none =>
      simp only [Resides] at h ⊢
      rw [hmem rfl rfl]
      exact h

theorem Resides.of_keeps {l : Location} {v : UInt64} (hk : Keeps M M' fb W n) (henv : Env M fb cap)
    (hreg : ∀ q, l.reg = some q → q ∉ W)
    (hslot : l.reg = none → l.flag = none → n ≤ l.slot ∧ l.slot < cap) (h : Resides M fb l v) :
    Resides M' fb l v := by
  refine h.of_reads hk hreg fun hr hf => ?_
  obtain ⟨hn, hcap⟩ := hslot hr hf
  exact hk.read (henv.locate_slot hcap (slotBytes_le l.type)) (.inr (by omega))

theorem Resides.setFlags {l : Location} {v : UInt64} (hf : l.flag = none) (f : Flags)
    (h : Resides M fb l v) : Resides (M.setFlags f) fb l v := by
  obtain ⟨t, reg, flag, slot⟩ := l
  subst hf
  cases reg with
  | some r => cases t <;> exact h
  | none => exact h

theorem Env.of_keeps (hk : Keeps M M' fb W n) (hW : ∀ w ∈ W, Writable w) (h : Env M fb cap) :
    Env M' fb cap where
  gpr_size := hk.gpr_size.trans h.gpr_size
  xmm_size := hk.xmm_size.trans h.xmm_size
  context := by
    rw [hk.gp _ fun w hw hg => (hW w hw hg).2.1]
    exact h.context
  stackBase := by
    rw [hk.gp _ fun w hw hg => (hW w hw hg).2.2]
    exact h.stackBase
  locate_context hn := (hk.locate _ _).trans (h.locate_context hn)
  locate_slot hi hn := (hk.locate _ _).trans (h.locate_slot hi hn)
  locate_rsp := by
    rw [hk.gp _ fun w hw hg => (hW w hw hg).1, hk.locate]
    exact h.locate_rsp
  hostReturn := by
    obtain ⟨off, hl⟩ := h.locate_rsp
    rw [hk.gp _ fun w hw hg => (hW w hw hg).1, hk.read hl (.inl (by decide))]
    exact h.hostReturn

theorem Env.setFlags (h : Env M fb cap) (f : Flags) : Env (M.setFlags f) fb cap :=
  ⟨h.gpr_size, h.xmm_size, h.context, h.stackBase, h.locate_context, h.locate_slot, h.locate_rsp,
    h.hostReturn⟩

namespace Rep

theorem lt_length (h : Rep M fb cap s vs) {i : Nat} {l : Location} (hl : s.slots[i]? = some l) :
    ∃ v, vs[i]? = some v := by
  have hi : i < vs.length := by
    rw [h.length_eq]
    exact (Array.getElem?_eq_some_iff.mp hl).1
  exact ⟨vs[i], List.getElem?_eq_getElem hi⟩

theorem mem_pool_of_holds (h : Rep M fb cap s vs) {r : Reg} (hr : s.Holds r) :
    r ∈ gpPool ∨ r ∈ vecPool := by
  obtain ⟨k, l, hl, hlr⟩ := ValueStack.mem_regsOf.mp hr
  obtain ⟨v, hv⟩ := h.lt_length hl
  have hres := h.resides hl hv
  unfold Resides at hres
  rw [hlr] at hres
  exact hres.mem_pool

theorem not_holds (h : Rep M fb cap s vs) {r : Reg} (hg : r ∉ gpPool) (hv : r ∉ vecPool) :
    ¬ s.Holds r := fun hr => (h.mem_pool_of_holds hr).elim hg hv

theorem of_keeps (hk : Keeps M M' fb W 0) (hW : ∀ w ∈ W, Writable w) (hfree : ∀ w ∈ W, ¬ s.Holds w)
    (hslot : ∀ ⦃i : Nat⦄ ⦃l : Location⦄, s.slots[i]? = some l → l.slot = i)
    (h : Rep M fb cap s vs) : Rep M' fb cap s vs where
  env := h.env.of_keeps hk hW
  length_eq := h.length_eq
  sp_le := h.sp_le
  resides i l v hl hv := by
    have hi : i < s.sp := (Array.getElem?_eq_some_iff.mp hl).1
    refine (h.resides hl hv).of_keeps hk h.env (fun q hq hqW => ?_) fun _ _ => ?_
    · exact hfree q hqW (ValueStack.mem_regsOf.mpr ⟨i, l, hl, hq⟩)
    · rw [hslot hl]
      exact ⟨Nat.zero_le _, lt_of_lt_of_le hi h.sp_le⟩

theorem congr_slots (h : Rep M fb cap s vs) {s' : ValueStack} (hs : s'.slots = s.slots) :
    Rep M fb cap s' vs where
  env := h.env
  length_eq := by rw [h.length_eq]; simp [ValueStack.sp, hs]
  sp_le := by simpa [ValueStack.sp, hs] using h.sp_le
  resides _ _ _ hl hv := h.resides (hs ▸ hl) hv

theorem setFlags (hnf : s.NoFlags) (f : Flags) (h : Rep M fb cap s vs) :
    Rep (M.setFlags f) fb cap s vs where
  env := h.env.setFlags f
  length_eq := h.length_eq
  sp_le := h.sp_le
  resides _ _ _ hl hv := (h.resides hl hv).setFlags (hnf hl) f

end Rep

end OnePassJit.Amd64
