import OnePassJit.Proofs.Machine.IndirectCall
import OnePassJit.Proofs.Machine.Truncation

/-!
Loads and stores of linear memory.

Linear memory is a region of the machine of its own: `r15` points at it and the call context
records its length (`Linear`). An access pops an `i32` address, adds the static offset and the
access's size to it in 64 bits, so nothing wraps, and compares that ceiling with the length:
above it the code leaves with `memoryOutOfBounds`, and otherwise it addresses the bytes at
`r15 + ceiling - size`, which are the bytes from `address + offset` on
(`runs_boundsCheckedCeil`). A load then reads exactly those bytes and a store writes exactly
those; nothing else of the memory is read or written, and a trap leaves the memory as it was
(`runs_memoryAccess`).
-/

namespace OnePassJit.Amd64

open Lower ValueStack

/-! Regions that read alike. -/

theorem readLE_one (b : ByteArray) (off : Nat) : readLE b off 1 = (byteAt b off).toUInt64 := by
  simp [readLE]

namespace AddressSpace

theorem regions_eq_of_reads {m m' : AddressSpace} {i : Nat} {r : ByteArray} (hi : i < 2 ^ 20)
    (hr : m.regions[i]? = some r) (hsize : r.size ≤ 2 ^ 40)
    (hloc : ∀ a k, m'.locate a k = m.locate a k)
    (hread : ∀ j < r.size,
      m'.read (regionBase i + j.toUInt64) 1 = m.read (regionBase i + j.toUInt64) 1) :
    m'.regions[i]? = some r := by
  have h0 : (0 : Nat) < 2 ^ 40 := Nat.two_pow_pos 40
  obtain ⟨r', hr', hle⟩ := locate_eq_some ((hloc _ r.size).trans
    (locate_regionBase_add hi h0 hr (Nat.zero_add _).le))
  have hge : r'.size ≤ r.size := by
    by_contra hlt
    obtain ⟨r'', hr'', hle''⟩ := locate_eq_some ((hloc _ (r.size + 1)).symm.trans
      (locate_regionBase_add hi h0 hr' (by omega)))
    rw [hr, Option.some.injEq] at hr''
    subst hr''
    omega
  have hbyte : ∀ j < r.size, byteAt r' j = byteAt r j := by
    intro j hj
    have hrj := hread j hj
    rw [read_of_locate (locate_regionBase_add hi (by omega) hr' (by omega)),
      read_of_locate (locate_regionBase_add hi (by omega) hr (by omega)), region, region,
      Array.getD_eq_getD_getElem?, Array.getD_eq_getD_getElem?, hr, hr', Option.getD_some,
      Option.getD_some, readLE_one, readLE_one, Option.some.injEq, UInt8.toUInt64_inj] at hrj
    exact hrj
  rw [hr']
  congr 1
  have hsz : r'.data.size = r.data.size := by
    show r'.size = r.size
    omega
  refine ByteArray.ext (Array.ext hsz fun j h₁ h₂ => ?_)
  have := hbyte j h₂
  unfold byteAt at this
  rwa [dif_pos (show j < r'.size from h₁), dif_pos (show j < r.size from h₂),
    ByteArray.getElem_eq_getElem_data, ByteArray.getElem_eq_getElem_data] at this

theorem regions_modifyRegion_self {m : AddressSpace} {i : Nat} {r : ByteArray}
    (hr : m.regions[i]? = some r) (f : ByteArray → ByteArray) :
    (m.modifyRegion i f).regions[i]? = some (f r) := by
  simp [modifyRegion, Array.getElem?_modify, hr]

end AddressSpace

/-! Where generated code finds linear memory. -/

/-- What generated code relies on to reach linear memory: `r15` points at the memory's
region, which holds the bytes `mem`, and the call context records how many there are. The
memory fits its region. -/
structure Linear (M : Machine) (mem : ByteArray) : Prop where
  base : M.gp memoryBaseReg.gpr = Area.memory.base
  region : M.mem.regions[Area.memory.index]? = some mem
  length : M.mem.read (Dispatch.ctxAddr Abi.ctxMemoryLen) 8 = some mem.size.toUInt64
  size_le : mem.size ≤ 2 ^ 40

namespace Linear

variable {M M' : Machine} {mem : ByteArray} {fb cap n : Nat} {W : Finset Reg}

theorem locate_length (henv : Env M fb cap) :
    M.mem.locate (Dispatch.ctxAddr Abi.ctxMemoryLen) 8 = some (Area.context.index, 32) :=
  henv.locate_ctxAddr (show 32 + 8 ≤ Abi.ctxSize by decide)

theorem locate (h : Linear M mem) {off k : Nat} (hk : 0 < k) (hfit : off + k ≤ mem.size) :
    M.mem.locate (Area.memory.base + off.toUInt64) k = some (Area.memory.index, off) :=
  locate_area (by decide) (by have := h.size_le; omega) h.region hfit

theorem read (h : Linear M mem) {off k : Nat} (hk : 0 < k) (hfit : off + k ≤ mem.size) :
    M.mem.read (Area.memory.base + off.toUInt64) k = some (readLE mem off k) := by
  rw [AddressSpace.read_of_locate (h.locate hk hfit), AddressSpace.region,
    Array.getD_eq_getD_getElem?, h.region, Option.getD_some]

theorem setFlags (h : Linear M mem) (f : Flags) : Linear (M.setFlags f) mem :=
  ⟨h.base, h.region, h.length, h.size_le⟩

theorem goto (h : Linear M mem) (t : UInt64) : Linear (M.goto t) mem :=
  ⟨h.base, h.region, h.length, h.size_le⟩

theorem of_keeps (h : Linear M mem) (henv : Env M fb cap) (hk : Keeps M M' fb W n)
    (hW : ∀ w ∈ W, w.IsGp → w.gpr ≠ memoryBaseReg.gpr) : Linear M' mem where
  base := by rw [hk.gp _ hW, h.base]
  region := AddressSpace.regions_eq_of_reads (by decide) h.region h.size_le hk.locate
    fun _ hj => hk.read_area (by decide) (by decide) (by have := h.size_le; omega) 1
  length := by
    rw [hk.read (locate_length henv) (.inl (by decide))]
    exact h.length
  size_le := h.size_le

theorem of_steady (h : Linear M mem) (henv : Env M fb cap) (hs : Steady M M' fb W)
    (hW : ∀ w ∈ W, w.IsGp → w.gpr ≠ memoryBaseReg.gpr) : Linear M' mem :=
  (h.setFlags M'.cpu.flags).of_keeps (henv.setFlags _) hs hW

theorem regions_of_ctxWrites (h : Linear M mem) {m' : AddressSpace} {fs : List (Nat × Nat)}
    (hw : CtxWrites M.mem m' fs) : m'.regions[Area.memory.index]? = some mem :=
  AddressSpace.regions_eq_of_reads (by decide) h.region h.size_le hw.locate_eq fun j hj =>
    hw.read_eq (h.locate Nat.one_pos (by omega)) fun _ _ => .inl (by decide)

theorem write (h : Linear M mem) (henv : Env M fb cap) {off k : Nat} (hk : 0 < k)
    (hfit : off + k ≤ mem.size) {v : UInt64} {m' : AddressSpace}
    (hw : M.mem.write (Area.memory.base + off.toUInt64) k v = some m') :
    Linear { M with mem := m' } (writeLE mem off k v) where
  base := h.base
  region := by
    rw [AddressSpace.write_of_locate (h.locate hk hfit), Option.some.injEq] at hw
    rw [← hw]
    exact AddressSpace.regions_modifyRegion_self h.region _
  length := by
    rw [size_writeLE]
    exact (AddressSpace.read_write_of_separate hw (h.locate hk hfit) (locate_length henv)
      (.inl (by decide))).trans h.length
  size_le := by rw [size_writeLE]; exact h.size_le

theorem addr_accessed (h : Linear M mem) {ceil : Reg} {off size : Nat}
    (hc : M.gp ceil.gpr = (off + size).toUInt64) :
    M.addr (accessed ceil size).toMem = Area.memory.base + off.toUInt64 := by
  show M.gp memoryBaseReg.gpr + (M.gp ceil.gpr <<< 0) + UInt64.ofInt (-(size : Int)) = _
  rw [h.base, hc, UInt64.shiftLeft_zero, UInt64.ofInt_neg, ofInt_natCast_eq,
    ← UInt64.sub_eq_add_neg, Nat.toUInt64_eq, Nat.toUInt64_eq, Nat.toUInt64_eq, UInt64.ofNat_add,
    ← UInt64.add_assoc, add_sub_cancel_right]

theorem read_accessed (h : Linear M mem) {ceil : Reg} {off size : Nat}
    (hc : M.gp ceil.gpr = (off + size).toUInt64) (hk : 0 < size) (hfit : off + size ≤ mem.size) :
    M.mem.read (M.addr (accessed ceil size).toMem) size = some (readLE mem off size) := by
  rw [h.addr_accessed hc]
  exact h.read hk hfit

end Linear

/-! Writes to linear memory. -/

section Writes

variable {M : Machine} {fb cap : Nat} {a v : UInt64} {k off : Nat} {m' : AddressSpace}

theorem Env.write_memory (h : Env M fb cap) (hl : M.mem.locate a k = some (Area.memory.index, off))
    (hw : M.mem.write a k v = some m') : Env { M with mem := m' } fb cap where
  gpr_size := h.gpr_size
  xmm_size := h.xmm_size
  context := h.context
  stackBase := h.stackBase
  locate_context hn := (AddressSpace.locate_write hw _ _).trans (h.locate_context hn)
  locate_slot hi hn := (AddressSpace.locate_write hw _ _).trans (h.locate_slot hi hn)
  locate_rsp := by
    obtain ⟨off', hl'⟩ := h.locate_rsp
    exact ⟨off', (AddressSpace.locate_write hw _ _).trans hl'⟩
  hostReturn := by
    obtain ⟨off', hl'⟩ := h.locate_rsp
    rw [show ({ M with mem := m' } : Machine).gp Machine.rsp = M.gp Machine.rsp from rfl,
      AddressSpace.read_write_of_separate hw hl hl' (.inl (by decide))]
    exact h.hostReturn

theorem Rep.write_memory {s : ValueStack} {vs : List UInt64} {T : Finset Reg}
    (h : Rep M fb cap s vs) (hlay : Layout s T)
    (hl : M.mem.locate a k = some (Area.memory.index, off)) (hw : M.mem.write a k v = some m') :
    Rep { M with mem := m' } fb cap s vs where
  env := h.env.write_memory hl hw
  length_eq := h.length_eq
  sp_le := h.sp_le
  resides i l w hli hw' := by
    have hi : i < s.sp := (Array.getElem?_eq_some_iff.mp hli).1
    have hres := h.resides hli hw'
    obtain ⟨t, reg, flag, slot⟩ := l
    cases reg with
    | some r => cases t <;> exact hres
    | none =>
      cases flag with
      | some f => exact hres
      | none =>
        have hsl : slot = i := by rw [← Nat.zero_add i]; exact hlay.slot_eq hli
        subst hsl
        have hls := h.env.locate_slot (lt_of_lt_of_le hi h.sp_le) (slotBytes_le t)
        rw [Resides.mem_iff rfl rfl] at hres ⊢
        rw [AddressSpace.read_write_of_separate hw hl hls (.inl (by decide))]
        exact hres

end Writes

/-! The ceiling of an access. -/

theorem alu_add_w64 (a b : UInt64) (f : Flags) : (alu .add .w64 a b f).1 = a + b := by
  simp only [alu, aluAdd, and_mask_w64]

theorem holds_be_aluSub (a b : UInt64) (f : Flags) :
    Cond.be.holds (aluSub .w64 a b f).2 = decide (a.toNat ≤ b.toNat) := by
  simp only [Cond.holds, aluSub, resultFlags, and_mask_w64]
  rw [Bool.eq_iff_iff]
  simp only [Bool.or_eq_true, decide_eq_true_eq, beq_iff_eq, sub_eq_zero, UInt64.lt_iff_toNat_lt,
    ← UInt64.toNat_inj]
  omega

theorem loadBytes_pos (kind : LoadKind) : 0 < Machine.loadBytes kind := by
  cases kind <;> decide

theorem loadBytes_le (kind : LoadKind) : Machine.loadBytes kind ≤ 8 := by
  cases kind <;> decide

theorem and_low32_of_lt {v : UInt64} (hv : v.toNat < 2 ^ 32) : v &&& low32 = v :=
  UInt64.toNat_inj.mp (by rw [toNat_and_low32, Nat.mod_eq_of_lt hv])

theorem toNat_extendLoad_lt {kind : LoadKind} (hw : Machine.loadWidth kind = .w32) {x : UInt64}
    (hx : x.toNat < 2 ^ (8 * Machine.loadBytes kind)) : (Machine.extendLoad kind x).toNat < 2 ^ 32 := by
  cases kind
  case u8To32 | u16To32 | u32 =>
    simp only [Machine.extendLoad, Machine.loadBytes] at hx ⊢
    omega
  case s8To32 | s16To32 =>
    simp only [Machine.extendLoad]
    rw [toNat_and_low32]
    exact Nat.mod_lt _ (by decide)
  all_goals cases hw

theorem widen_extendLoad (kind : LoadKind) {x : UInt64}
    (hx : x.toNat < 2 ^ (8 * Machine.loadBytes kind)) :
    Machine.widen (Machine.loadWidth kind) (Machine.extendLoad kind x) = Machine.extendLoad kind x := by
  unfold Machine.widen
  split
  · next hw => exact and_low32_of_lt (toNat_extendLoad_lt (by simpa using hw) hx)
  · rfl

theorem writeLE_and_low32 (b : ByteArray) (off : Nat) {n : Nat} (hn : n ≤ 4) (v : UInt64) :
    writeLE b off n (v &&& low32) = writeLE b off n v := by
  induction n with
  | zero => rfl
  | succ n ih =>
    rw [writeLE_succ, writeLE_succ, ih (by omega)]
    congr 1
    apply UInt8.toNat_inj.mp
    rw [toNat_byte _ (by omega : n < 8), toNat_byte _ (by omega : n < 8), toNat_and_low32]
    have : n < 4 := by omega
    interval_cases n <;> simp only [Nat.reduceMul, Nat.reducePow] <;> omega

theorem add_toUInt64_add_eight (b : UInt64) (off : Nat) :
    b + off.toUInt64 + 8 = b + (off + 8).toUInt64 := by
  rw [UInt64.add_assoc, Nat.toUInt64_eq, Nat.toUInt64_eq, UInt64.ofNat_add]
  rfl

def vectorLoaded (mem : ByteArray) (off size : Nat) : Vec128 :=
  if size = 16 then ⟨readLE mem off 8, readLE mem (off + 8) 8⟩ else .ofLow (readLE mem off size)

theorem add_toUInt64 (a : UInt64) (k : Nat) : a + k.toUInt64 = (a.toNat + k).toUInt64 := by
  apply UInt64.toNat_inj.mp
  rw [UInt64.toNat_add, Nat.toUInt64_eq, Nat.toUInt64_eq, UInt64.toNat_ofNat', UInt64.toNat_ofNat']
  omega

theorem grows_addConstant (r : Reg) (k : Nat) : Grows (addConstant r k) :=
  .ite' (.asm' (.aluRI _ _ _ _)) (.bind (grows_allocate _ _) fun _ =>
    .bind (.asm' (.movRI64 _ _)) fun _ => .bind (.asm' (.aluRR _ _ _ _)) fun _ =>
      (silent_releaseReg _).grows)

section Ceiling

variable {K : Code} {X : Machine → Prop} {c : Compiler} {M : Machine} {fb cap : Nat}
  {vs : List UInt64} {T : Finset Reg} {mem : ByteArray}

theorem ne_memoryBaseReg_of_mem {r : Reg} (hr : r ∈ gpPool) :
    ∀ w ∈ ({r} : Finset Reg), w.IsGp → w.gpr ≠ memoryBaseReg.gpr := by
  simp only [Finset.mem_singleton]
  rintro w rfl -
  exact (gpr_ne_of_mem_gpPool hr).2.2.2.1

theorem ne_memoryBaseReg_of_isXmm {r : Reg} (hr : r.IsXmm) :
    ∀ w ∈ ({r} : Finset Reg), w.IsGp → w.gpr ≠ memoryBaseReg.gpr := by
  simp only [Finset.mem_singleton]
  rintro w rfl hg
  exact absurd (hg.1.symm.trans hr.1) (by decide)

theorem writable_singleton {r : Reg} (hr : r ∈ gpPool) : ∀ w ∈ ({r} : Finset Reg), Writable w := by
  simp only [Finset.mem_singleton]
  rintro w rfl
  exact writable_of_mem_gpPool hr

theorem free_singleton {s : ValueStack} {r : Reg} (h : Layout s T) (hr : r ∈ T) :
    ∀ w ∈ ({r} : Finset Reg), ¬ s.Holds w := by
  simp only [Finset.mem_singleton]
  rintro w rfl
  exact h.temp_free w hr

theorem runs_releaseTemp {r : Reg} (hfit : Fit (insert r T) c.stack) (hr : r ∉ T)
    {Q : Unit → Compiler → Machine → Prop}
    (hQ : ∀ c', c'.stack.slots = c.stack.slots → Fit T c'.stack → Q () c' M) :
    Runs K X (releaseReg r) Q c M :=
  Runs.silent (silent_releaseReg r) fun _ c' h => by
    rw [releaseReg_eq] at h
    cases h
    have hlay := hfit.1.erase_used (Finset.mem_insert_self r T)
    rw [Finset.erase_insert hr] at hlay
    exact hQ _ rfl ⟨hlay, hfit.2⟩

theorem runs_addConstant {r : Reg} (h : Rep M fb cap c.stack vs) (hfit : Fit (insert r T) c.stack)
    (hr : r ∈ gpPool) (hrT : r ∉ T) (hcard : T.card < 8) (hnf : c.stack.NoFlags)
    (hlin : Linear M mem) (k : Nat) {Q : Unit → Compiler → Machine → Prop}
    (hQ : ∀ c' M', Fit (insert r T) c'.stack → c'.stack.NoFlags → Rep M' fb cap c'.stack vs →
      Linear M' mem → M'.gp r.gpr = M.gp r.gpr + k.toUInt64 →
      (∀ ⦃t q v⦄, q ∈ T → InReg M t q v → InReg M' t q v) → Q () c' M') :
    Runs K X (addConstant r k) Q c M := by
  have hrg := isGp_of_mem_gpPool hr
  have hT : ∀ q ∈ T, q ∉ ({r} : Finset Reg) := fun q hq he =>
    hrT (Finset.mem_singleton.mp he ▸ hq)
  unfold addConstant
  refine Runs.ite' (fun _ => ?_) (fun _ => ?_)
  · -- the constant as an immediate
    refine runs_aluRI h.env hrg .add (by decide) .w64 k fun M' hs hv => ?_
    refine hQ _ M' hfit hnf
      (h.of_steady hfit.1 hnf hs (writable_singleton hr) (free_singleton hfit.1 (by simp)))
      (hlin.of_steady h.env hs (ne_memoryBaseReg_of_mem hr)) ?_
      fun t q v hq hin => hin.of_steady hs (hT q hq)
    rw [hv, alu_add_w64, ofInt_natCast_eq]
    rfl
  · -- the constant in a second temporary
    have hcard₁ : (insert r T).card < 9 := by
      have := Finset.card_insert_le r T
      omega
    refine Runs.bind (runs_allocateFresh h hfit hcard₁ .gp
      fun tmp c₁ M₁ htmp htT hfit₁ hsp₁ hR₁ hk₁ => ?_) fun _ =>
        .bind (.asm' (.movRI64 _ _)) fun _ => .bind (.asm' (.aluRR _ _ _ _)) fun _ =>
          (silent_releaseReg _).grows
    have htmp' : tmp ∈ gpPool := htmp
    have htg := isGp_of_mem_gpPool htmp'
    have hne : r ≠ tmp := fun he => htT (he ▸ Finset.mem_insert_self r T)
    refine runs_movRI64 hR₁.env htg k.toUInt64 (fun _ => .bind (.asm' (.aluRR _ _ _ _)) fun _ =>
      (silent_releaseReg _).grows) fun c₂ M₂ hc₂ hk₂ hv₂ => ?_
    have hfit₂ : Fit (insert tmp (insert r T)) c₂.stack := by rw [hc₂]; exact hfit₁
    have hR₂ : Rep M₂ fb cap c₂.stack vs := by
      rw [hc₂]
      exact hR₁.of_steady hfit₁.1 (hsp₁.moves.noFlags hnf) (Steady.of_keeps hk₂)
        (writable_singleton htmp') (free_singleton hfit₁.1 (Finset.mem_insert_self tmp _))
    refine Runs.bind (runs_aluRR hR₂.env hrg htg .add (by decide) .w64 fun M₃ hs₃ hv₃ => ?_)
      fun _ => (silent_releaseReg _).grows
    have hnf₂ : c₂.stack.NoFlags := by rw [hc₂]; exact hsp₁.moves.noFlags hnf
    have hR₃ : Rep M₃ fb cap c₂.stack vs := hR₂.of_steady hfit₂.1 hnf₂ hs₃
      (writable_singleton hr) (free_singleton hfit₂.1 (by simp))
    refine runs_releaseTemp
      (c := { c₂ with asm := Asm.pushed c₂.asm (.aluRR .add .w64 r.gpr tmp.gpr) }) hfit₂ htT
      fun c₄ hs₄ hfit₄ => ?_
    have hk₁₂ := hk₁.trans hk₂
    have hsep : ∀ q ∈ insert r T, q ∉ (∅ ∪ {tmp} : Finset Reg) := fun q hq he => htT (by
      rw [Finset.empty_union, Finset.mem_singleton] at he
      exact he ▸ hq)
    have hlin₂ : Linear M₂ mem := hlin.of_keeps h.env hk₁₂ fun w hw =>
      ne_memoryBaseReg_of_mem htmp' w (by simpa using hw)
    refine hQ c₄ M₃ hfit₄ (fun i l hl => hnf₂ (by rw [← hs₄]; exact hl)) (hR₃.congr_slots hs₄)
      (hlin₂.of_steady hR₂.env hs₃ (ne_memoryBaseReg_of_mem hr)) ?_
      fun t q v hq hin => (hin.of_keeps hk₁₂ (hsep q (Finset.mem_insert_of_mem hq))).of_steady hs₃
        (hT q hq)
    rw [hv₃, Machine.widen, if_neg (by decide), alu_add_w64, hv₂,
      hk₁₂.gp _ (gpr_ne_of_not_mem hrg (hsep r (Finset.mem_insert_self r T)))]

theorem grows_checkCeil (r : Reg) :
    Grows (do
      let ok ← asm Asm.createLabel
      asm (Asm.cmpRM .w64 r (ctx Abi.ctxMemoryLen))
      asm (Asm.jcc .be ok)
      exit (.trap .memoryOutOfBounds)
      asm (Asm.bind ok)
      pure r) :=
  .bind Silent.createLabel.grows fun _ => .bind (.asm' (.cmpRM _ _ _)) fun _ =>
    .bind (.asm' (.add _)) fun _ => .bind (grows_exit _) fun _ =>
      .bind (.asm' (.bindLabel _)) fun _ => .pure' _

theorem grows_boundsCheckedCeil (arg : MemArg) (size : Nat) : Grows (boundsCheckedCeil arg size) :=
  .bind grows_popToRegister fun x => .bind (silent_regOf x).grows fun r =>
    .bind (grows_addConstant _ _) fun _ => grows_checkCeil r

/-- The bounds check of an access of `size` bytes at offset `arg.offset`: the `i32` address on
top of the stack is popped into a temporary, raised by the offset and the size in 64 bits and
compared with the memory's length. Past the end the code leaves with `memoryOutOfBounds` and the
memory as it was; otherwise it goes on with the ceiling in the temporary, the values below the
address held as before. -/
theorem runs_boundsCheckedCeil (arg : MemArg) {size : Nat} (hsize : size ≤ 16) {a : UInt64}
    (h : Rep M fb cap c.stack (vs ++ [a])) (hfit : Fit T c.stack) (hcard : T.card < 7)
    (hty : ∀ ⦃l⦄, c.stack.slots[vs.length]? = some l → l.type = .i32)
    (hnf : ∀ ⦃j l⦄, c.stack.slots[j]? = some l → j < vs.length → l.flag = none)
    (hlin : Linear M mem) {Q : Reg → Compiler → Machine → Prop}
    (hX : mem.size < a.toNat + arg.offset.toNat + size → ∀ M',
      Exited M' (.trap .memoryOutOfBounds) vs.length →
      M'.mem.regions[Area.memory.index]? = some mem → X M')
    (hQ : a.toNat + arg.offset.toNat + size ≤ mem.size → ∀ r c' M', r ∈ gpPool → r ∉ T →
      Fit (insert r T) c'.stack → c'.stack.NoFlags → Rep M' fb cap c'.stack vs →
      Linear M' mem → M'.gp r.gpr = (a.toNat + arg.offset.toNat + size).toUInt64 →
      (∀ ⦃t q v⦄, q ∈ T → InReg M t q v → InReg M' t q v) → Q r c' M') :
    Runs K X (boundsCheckedCeil arg size) Q c M := by
  have hty' : ∀ ⦃i l⦄, c.stack.slots[i]? = some l → vs.length ≤ i → l.type = .i32 := by
    intro i l hl hi
    obtain ⟨v, hv⟩ := h.lt_length hl
    have : i < vs.length + 1 := by simpa using (List.getElem?_eq_some_iff.mp hv).1
    obtain rfl : i = vs.length := by omega
    exact hty hl
  unfold boundsCheckedCeil
  refine Runs.bind (runs_popToRegister (by decide) h hfit (by omega) hty'
    fun x r c₁ M₁ hx _ hrT hfit₁ hR₁ ha₁ hk₁ hmv => ?_) fun x =>
      .bind (silent_regOf x).grows fun r => .bind (grows_addConstant _ _) fun _ => grows_checkCeil r
  rw [regOf_of_reg hx, pure_bind]
  obtain ⟨hr, ha, hlt⟩ := ha₁
  have hnf₁ : c₁.stack.NoFlags := hmv.noFlags_of_below hnf
  refine Runs.bind (runs_addConstant hR₁ hfit₁ hr hrT (by omega) hnf₁
    (hlin.of_keeps h.env hk₁ (ne_memoryBaseReg_of_mem hr)) _
    fun c₂ M₂ hfit₂ hnf₂ hR₂ hlin₂ hv₂ hT₂ => ?_) fun _ => grows_checkCeil r
  refine Runs.createLabel_bind fun ok c₃ hc₃ => ?_
  have hceil : M₂.gp r.gpr = (a.toNat + arg.offset.toNat + size).toUInt64 := by
    rw [hv₂, ha, add_toUInt64, Nat.add_assoc]
  have hceil' : (M₂.gp r.gpr).toNat = a.toNat + arg.offset.toNat + size := by
    have := arg.offset.toNat_lt
    rw [hceil, Nat.toUInt64_eq, UInt64.toNat_ofNat']
    omega
  have hlen : mem.size.toUInt64.toNat = mem.size := by
    have := hlin₂.size_le
    rw [Nat.toUInt64_eq, UInt64.toNat_ofNat']
    omega
  have henv₂ := hR₂.env
  have hread : M₂.mem.read (M₂.addr (ctx Abi.ctxMemoryLen).toMem) (if Width.w64 == .w32 then 4 else 8) =
      some mem.size.toUInt64 := by
    rw [henv₂.addr_ctx]
    exact hlin₂.length
  refine Runs.bind (Runs.step (Asm.cmpRM_eq (isGp_of_mem_gpPool hr) (MemRef.valid_at (by decide) _)
    .w64 _) (Machine.exec_cmpRM hread) rfl ?_) fun _ =>
      .bind (.asm' (.add _)) fun _ => .bind (grows_exit _) fun _ =>
        .bind (.asm' (.bindLabel _)) fun _ => .pure' _
  have hbe := holds_be_aluSub (M₂.gp r.gpr) mem.size.toUInt64 M₂.cpu.flags
  rw [hceil', hlen] at hbe
  have hs₃ : Steady M₂ ((M₂.goto (K.addr (c₃.asm.instrs.size + 1))).setFlags
      (aluSub .w64 (M₂.gp r.gpr) mem.size.toUInt64 M₂.cpu.flags).2) fb ∅ :=
    Steady.goto_setFlags _ _
  have hsp₂ : c₂.stack.sp = vs.length := hR₂.length_eq.symm
  refine runs_guard_writes ((henv₂.goto _).setFlags _) (k := fun _ => pure r) (fun _ => .pure' _)
    (fun hc M' hE hw => hX ?_ M' ?_ (hlin₂.regions_of_ctxWrites hw)) fun hc c' t hc' => ?_
  · rw [Machine.flags_setFlags, hbe] at hc
    simpa using hc
  · rw [← hsp₂, ← hc₃]
    exact hE
  have hs : Steady M₂ (((M₂.goto _).setFlags _).goto t) fb ∅ :=
    (hs₃.trans (Steady.goto t)).mono (by simp)
  have hstack : c'.stack = c₂.stack := by rw [hc', ← hc₃]
  have hT : ∀ ⦃t' q v⦄, q ∈ T → InReg M t' q v → InReg (((M₂.goto _).setFlags _).goto t) t' q v :=
    fun t' q v hq hin =>
      (hT₂ hq (hin.of_keeps hk₁ fun he => hrT (Finset.mem_singleton.mp he ▸ hq))).of_steady hs
        (by simp)
  refine Runs.pure' (hQ ?_ r c' _ hr hrT (by rw [hstack]; exact hfit₂) (by rw [hstack]; exact hnf₂)
    (by rw [hstack]; exact hR₂.of_steady hfit₂.1 hnf₂ hs (by simp) (by simp))
    (hlin₂.of_steady henv₂ hs (by simp)) (by rw [← hceil]; exact hs.gp _ (by simp)) hT)
  rw [Machine.flags_setFlags, hbe] at hc
  simpa using hc

/-! Single loads and stores. -/

theorem runs_load (henv : Env M fb cap) {r : Reg} (hr : r.IsGp) {m : MemRef} (hm : m.Valid)
    (kind : LoadKind) {v : UInt64} (hv : M.mem.read (M.addr m.toMem) (Machine.loadBytes kind) = some v)
    {Q : Unit → Compiler → Machine → Prop}
    (hQ : ∀ M', Steady M M' fb {r} →
      M'.gp r.gpr = Machine.widen (Machine.loadWidth kind) (Machine.extendLoad kind v) →
      Q () { c with asm := Asm.pushed c.asm (.load kind r.gpr m.toMem) } M') :
    Runs K X (asm (Asm.load kind r m)) Q c M :=
  Runs.step (Asm.load_eq hr hm kind _) (Machine.exec_load hv) rfl
    (hQ _ (Steady.goto_setGpW henv.gpr_size hr _ _ _)
      (Machine.gp_goto_setGpW_self henv.gpr_size _ _ _ _))

theorem runs_loadInt {kind : LoadKind} {t : SlotType}
    (ht : t = .i32 ∧ Machine.loadWidth kind = .w32 ∨ t = .i64) (arg : MemArg) {a : UInt64}
    (h : Rep M fb cap c.stack (vs ++ [a])) (hfit : Fit ∅ c.stack)
    (hty : ∀ ⦃l⦄, c.stack.slots[vs.length]? = some l → l.type = .i32)
    (hnf : ∀ ⦃j l⦄, c.stack.slots[j]? = some l → j < vs.length → l.flag = none)
    (hlin : Linear M mem) {Q : Unit → Compiler → Machine → Prop}
    (hX : mem.size < a.toNat + arg.offset.toNat + Machine.loadBytes kind → ∀ M',
      Exited M' (.trap .memoryOutOfBounds) vs.length →
      M'.mem.regions[Area.memory.index]? = some mem → X M')
    (hQ : a.toNat + arg.offset.toNat + Machine.loadBytes kind ≤ mem.size → ∀ c' M', Fit ∅ c'.stack →
      Rep M' fb cap c'.stack
        (vs ++ [Machine.extendLoad kind (readLE mem (a.toNat + arg.offset.toNat) (Machine.loadBytes kind))]) →
      Linear M' mem → Q () c' M') :
    Runs K X (loadInt kind (Machine.loadBytes kind) t arg) Q c M := by
  unfold loadInt
  refine Runs.bind (runs_boundsCheckedCeil arg (by have := loadBytes_le kind; omega) h hfit
    (by simp) hty hnf hlin hX fun hle r c₁ M₁ hr _ hfit₁ hnf₁ hR₁ hlin₁ hceil _ => ?_) fun r =>
      .bind (.asm' (.load _ _ _)) fun _ => (silent_pushRegister _ _).grows
  have hrg := isGp_of_mem_gpPool hr
  have hx := toNat_readLE_lt mem (a.toNat + arg.offset.toNat) (loadBytes_le kind)
  refine Runs.bind (runs_load hR₁.env hrg (MemRef.valid_indexed (by decide) hrg _ _) kind
    (hlin₁.read_accessed hceil (loadBytes_pos kind) hle) fun M₂ hs₂ hv₂ => ?_) fun _ =>
      (silent_pushRegister _ _).grows
  have hR₂ := hR₁.of_steady hfit₁.1 hnf₁ hs₂ (writable_singleton hr)
    (free_singleton hfit₁.1 (Finset.mem_insert_self r ∅))
  have hin : InReg M₂ t r
      (Machine.extendLoad kind (readLE mem (a.toNat + arg.offset.toNat) (Machine.loadBytes kind))) := by
    rcases ht with ⟨rfl, hw⟩ | rfl
    · exact ⟨hr, hv₂.trans (widen_extendLoad kind hx), toNat_extendLoad_lt hw hx⟩
    · exact ⟨hr, hv₂.trans (widen_extendLoad kind hx)⟩
  have ht' : t ≠ .v128lo := by rcases ht with ⟨rfl, -⟩ | rfl <;> decide
  have hsp : c₁.stack.sp + (if t = .v128lo then 2 else 1) ≤ cap := by
    have := h.sp_le
    rw [← h.length_eq, List.length_append, List.length_singleton] at this
    rw [if_neg ht', ← hR₁.length_eq]
    exact this
  refine runs_pushRegister
    (c := { c₁ with asm := Asm.pushed c₁.asm (.load kind r.gpr (accessed r _).toMem) })
    hR₂ hfit₁ (Finset.mem_insert_self r ∅) (by rcases ht with ⟨rfl, -⟩ | rfl <;> decide) hin
    (fun h' => absurd h' ht' : t = .v128lo → InReg M₂ .v128hi r 0) hsp
    fun c' hfit' hR' => hQ hle c' M₂ (by simpa using hfit') (by simpa [if_neg ht'] using hR')
      (hlin₁.of_steady hR₁.env hs₂ (ne_memoryBaseReg_of_mem hr))

theorem runs_storeGp {r : Reg} (hr : r.IsGp) {m : MemRef} (hm : m.Valid) (n : Nat)
    {m' : AddressSpace} (hw : M.mem.write (M.addr m.toMem) n (M.gp r.gpr) = some m')
    {Q : Unit → Compiler → Machine → Prop}
    (hQ : ∀ t, Q () { c with asm := Asm.pushed c.asm (.store n m.toMem r.gpr) }
      { M.goto t with mem := m' }) :
    Runs K X (asm (Asm.store n m r)) Q c M :=
  Runs.step (Asm.store_eq hr hm n _)
    ((Machine.exec_store _ _ _).trans (Machine.write_eq_ok (M := M.goto _) hw)) rfl (hQ _)

theorem runs_storeXmm {r : Reg} (hr : r.IsXmm) {m : MemRef} (hm : m.Valid) {n : Nat}
    (hn : n ≠ 16) {m' : AddressSpace} (hw : M.mem.write (M.addr m.toMem) n (M.xr r.xmm).lo = some m')
    {Q : Unit → Compiler → Machine → Prop}
    (hQ : ∀ t, Q () { c with asm := Asm.pushed c.asm (.storeXmm n m.toMem r.xmm) }
      { M.goto t with mem := m' }) :
    Runs K X (asm (Asm.storeXmm n m r)) Q c M := by
  refine Runs.step (Asm.storeXmm_eq hr hm n _) ?_ rfl (hQ _)
  show M.exec (.storeXmm _ _ _) _ = _
  rw [Machine.exec_storeXmm, if_neg (by simpa using hn)]
  exact Machine.write_eq_ok (M := M.goto _) hw

theorem runs_storeXmm16 {r : Reg} (hr : r.IsXmm) {m : MemRef} (hm : m.Valid)
    {m₁ m₂ : AddressSpace} (hw₁ : M.mem.write (M.addr m.toMem) 8 (M.xr r.xmm).lo = some m₁)
    (hw₂ : m₁.write (M.addr m.toMem + 8) 8 (M.xr r.xmm).hi = some m₂)
    {Q : Unit → Compiler → Machine → Prop}
    (hQ : ∀ t, Q () { c with asm := Asm.pushed c.asm (.storeXmm 16 m.toMem r.xmm) }
      { M.goto t with mem := m₂ }) :
    Runs K X (asm (Asm.storeXmm 16 m r)) Q c M := by
  refine Runs.step (Asm.storeXmm_eq hr hm 16 _) ?_ rfl (hQ _)
  show M.exec (.storeXmm _ _ _) _ = _
  have hw₁' := Machine.write_eq_ok (M := M.goto (K.addr (c.asm.instrs.size + 1))) hw₁
  rw [Machine.exec_storeXmm, if_pos (by decide), Machine.write128, hw₁']
  exact Machine.write_eq_ok (M := { M.goto _ with mem := m₁ }) hw₂

theorem grows_storeFrom (kind : RegKind) (n : Nat) (m : MemRef) (r : Reg) :
    Grows (storeFrom kind n m r) := by
  cases kind
  · exact .asm' (.store _ _ _)
  · exact .asm' (.storeXmm _ _ _)

theorem runs_storeFrom {n : Nat} (hn : n ≠ 16) {t : SlotType}
    (ht : t = .i32 ∨ t = .i64 ∨ t = .f64 ∨ t = .f32 ∧ n ≤ 4) {r : Reg} {v : UInt64}
    (hv : InReg M t r v) {m : MemRef} (hm : m.Valid) {i off : Nat}
    (hl : M.mem.locate (M.addr m.toMem) n = some (i, off)) {Q : Unit → Compiler → Machine → Prop}
    (hQ : ∀ c' t' w m', c'.stack = c.stack → M.mem.write (M.addr m.toMem) n w = some m' →
      (∀ b o, writeLE b o n w = writeLE b o n v) → Q () c' { M.goto t' with mem := m' }) :
    Runs K X (storeFrom t.regKind n m r) Q c M := by
  have hw := fun w => AddressSpace.write_of_locate hl w
  rcases ht with rfl | rfl | rfl | ⟨rfl, hn4⟩
  · obtain ⟨hr, hv, -⟩ := hv
    exact runs_storeGp (isGp_of_mem_gpPool hr) hm n (hw _) fun t' =>
      hQ _ t' _ _ rfl (hw _) fun b o => by rw [hv]
  · obtain ⟨hr, hv⟩ := hv
    exact runs_storeGp (isGp_of_mem_gpPool hr) hm n (hw _) fun t' =>
      hQ _ t' _ _ rfl (hw _) fun b o => by rw [hv]
  · obtain ⟨hr, hv⟩ := hv
    exact runs_storeXmm (isXmm_of_mem_vecPool hr) hm hn (hw _) fun t' =>
      hQ _ t' _ _ rfl (hw _) fun b o => by rw [hv]
  · obtain ⟨hr, hv⟩ := hv
    exact runs_storeXmm (isXmm_of_mem_vecPool hr) hm hn (hw _) fun t' =>
      hQ _ t' _ _ rfl (hw _) fun b o => by rw [← hv, writeLE_and_low32 b o hn4]

theorem address_of_moves {s s' : ValueStack} {n : Nat} (hmv : Moves (s.below (n + 1)) s')
    (hty : ∀ ⦃l⦄, s.slots[n]? = some l → l.type = .i32)
    (hnf : ∀ ⦃j l⦄, s.slots[j]? = some l → j < n → l.flag = none) :
    (∀ ⦃l⦄, s'.slots[n]? = some l → l.type = .i32) ∧
      ∀ ⦃j l⦄, s'.slots[j]? = some l → j < n → l.flag = none := by
  refine ⟨fun l hl => ?_, fun j l hl hj => ?_⟩
  · obtain ⟨l₀, hl₀, -, ht₀, -⟩ := hmv.of_below hl
    exact ht₀.trans (hty hl₀)
  · obtain ⟨l₀, hl₀, -, -, hf⟩ := hmv.of_below hl
    rw [hnf hl₀ hj, or_self] at hf
    exact hf

theorem grows_releaseBoth (x : Location) (q : Reg) : Grows (do release x; releaseReg q) :=
  .bind (silent_release x).grows fun _ => (silent_releaseReg _).grows

theorem runs_releaseBoth {x : Location} {r q : Reg} (hx : x.reg = some r)
    (h : Rep M fb cap c.stack vs) (hfit : Fit {q, r} c.stack) (hqr : q ∉ ({r} : Finset Reg))
    {Q : Unit → Compiler → Machine → Prop}
    (hQ : ∀ c', Fit ∅ c'.stack → Rep M fb cap c'.stack vs → Q () c' M) :
    Runs K X (do release x; releaseReg q) Q c M := by
  rw [Finset.pair_comm] at hfit
  refine Runs.bind (runs_release hx h hfit
    (Finset.notMem_singleton.mpr (Ne.symm (Finset.notMem_singleton.mp hqr)))
    fun c₁ hfit₁ hR₁ => ?_) fun _ => (silent_releaseReg _).grows
  exact runs_releaseReg hR₁ (by simpa using hfit₁) (Finset.notMem_empty q) hQ

theorem runs_storeScalar {n : Nat} (hn : 0 < n) (hn8 : n ≤ 8) {t : SlotType}
    (ht : t = .i32 ∨ t = .i64 ∨ t = .f64 ∨ t = .f32 ∧ n ≤ 4) (arg : MemArg) {a v : UInt64}
    (h : Rep M fb cap c.stack (vs ++ [a, v])) (hfit : Fit ∅ c.stack)
    (hty : ∀ ⦃l⦄, c.stack.slots[vs.length]? = some l → l.type = .i32)
    (htv : ∀ ⦃l⦄, c.stack.slots[vs.length + 1]? = some l → l.type = t)
    (hnf : ∀ ⦃j l⦄, c.stack.slots[j]? = some l → j < vs.length → l.flag = none)
    (hlin : Linear M mem) {Q : Unit → Compiler → Machine → Prop}
    (hX : mem.size < a.toNat + arg.offset.toNat + n → ∀ M',
      Exited M' (.trap .memoryOutOfBounds) vs.length →
      M'.mem.regions[Area.memory.index]? = some mem → X M')
    (hQ : a.toNat + arg.offset.toNat + n ≤ mem.size → ∀ c' M', Fit ∅ c'.stack →
      Rep M' fb cap c'.stack vs → Linear M' (writeLE mem (a.toNat + arg.offset.toNat) n v) →
      Q () c' M') :
    Runs K X (store n arg) Q c M := by
  unfold store
  have h' : Rep M fb cap c.stack ((vs ++ [a]) ++ [v]) := by rw [List.append_assoc]; exact h
  have hty2 : t ≠ .v128lo ∧ t ≠ .v128hi := by rcases ht with rfl | rfl | rfl | ⟨rfl, -⟩ <;> decide
  refine Runs.bind (runs_popToRegister hty2 h' hfit (by simp) (fun i l hl hi => ?_)
    fun x r c₁ M₁ hx htx _ hfit₁ hR₁ hv₁ hk₁ hmv₁ => ?_) fun x =>
      .bind (grows_boundsCheckedCeil _ _) fun q => .bind (silent_regOf x).grows fun _ =>
        .bind (grows_storeFrom _ _ _ _) fun _ => grows_releaseBoth x q
  · obtain ⟨w, hw⟩ := h'.lt_length hl
    have : i < vs.length + 2 := by simpa using (List.getElem?_eq_some_iff.mp hw).1
    obtain rfl : i = vs.length + 1 := by simp at hi; omega
    exact htv hl
  rw [Finset.insert_empty] at hfit₁
  have hWr : ∀ w ∈ ({r} : Finset Reg), w.IsGp → w.gpr ≠ memoryBaseReg.gpr := by
    rcases hv₁.mem_pool with hr | hr
    · exact ne_memoryBaseReg_of_mem hr
    · exact ne_memoryBaseReg_of_isXmm (isXmm_of_mem_vecPool hr)
  obtain ⟨hty₁, hnf₁⟩ := address_of_moves (by simpa using hmv₁) hty hnf
  refine Runs.bind (runs_boundsCheckedCeil arg (by omega) (by simpa using hR₁) hfit₁ (by simp) hty₁
    hnf₁ (hlin.of_keeps h.env hk₁ hWr) hX
    fun hle q c₂ M₂ hq hqr hfit₂ hnf₂ hR₂ hlin₂ hceil hT₂ => ?_) fun q =>
      .bind (silent_regOf x).grows fun _ => .bind (grows_storeFrom _ _ _ _) fun _ =>
        grows_releaseBoth x q
  rw [regOf_of_reg hx, pure_bind, show x.regKind = t.regKind by rw [Location.regKind, htx]]
  have hqg := isGp_of_mem_gpPool hq
  have hloc := hlin₂.locate hn hle
  have haddr := hlin₂.addr_accessed hceil
  have hloc' : M₂.mem.locate (M₂.addr (accessed q n).toMem) n =
      some (Area.memory.index, a.toNat + arg.offset.toNat) := by
    rw [haddr]
    exact hloc
  refine Runs.bind (runs_storeFrom (by omega) ht (hT₂ (Finset.mem_singleton_self r) hv₁)
    (MemRef.valid_indexed (by decide) hqg _ _) hloc'
    fun c₃ t' w m' hc₃ hw hwv => ?_) fun _ => grows_releaseBoth x q
  replace hw : M₂.mem.write (Area.memory.base + (a.toNat + arg.offset.toNat).toUInt64) n w =
      some m' := haddr ▸ hw
  have hR₃ : Rep { M₂.goto t' with mem := m' } fb cap c₃.stack vs := by
    rw [hc₃]
    exact (hR₂.of_steady hfit₂.1 hnf₂ (Steady.goto t') (by simp) (by simp)).write_memory
      hfit₂.1 hloc hw
  have hlin₃ := (hlin₂.goto t').write (hR₂.env.goto t') hn hle hw
  rw [hwv] at hlin₃
  exact runs_releaseBoth hx hR₃ (by rw [hc₃]; exact hfit₂) hqr
    fun c₄ hfit₄ hR₄ => hQ hle c₄ _ hfit₄ hR₄ hlin₃

theorem runs_loadXmmAccessed (hlin : Linear M mem) (henv : Env M fb cap) {r ceil : Reg}
    (hr : r.IsXmm) (hc : ceil.IsGp) {off size : Nat} (hpos : 0 < size)
    (hceil : M.gp ceil.gpr = (off + size).toUInt64) (hle : off + size ≤ mem.size)
    {Q : Unit → Compiler → Machine → Prop}
    (hQ : ∀ M', Steady M M' fb {r} → M'.xr r.xmm = vectorLoaded mem off size →
      Q () { c with asm := Asm.pushed c.asm (.loadXmm size r.xmm (accessed ceil size).toMem) } M') :
    Runs K X (asm (Asm.loadXmm size r (accessed ceil size))) Q c M := by
  have hm := MemRef.valid_indexed (by decide : memoryBaseReg.IsGp) hc .s1 (-(size : Int))
  have haddr := hlin.addr_accessed hceil
  by_cases h16 : size = 16
  · -- sixteen bytes are read as two halves
    subst h16
    have hlo : M.mem.read (M.addr (accessed ceil 16).toMem) 8 = some (readLE mem off 8) := by
      rw [haddr]
      exact hlin.read (by decide) (by omega)
    have hhi : M.mem.read (M.addr (accessed ceil 16).toMem + 8) 8 =
        some (readLE mem (off + 8) 8) := by
      rw [haddr, add_toUInt64_add_eight]
      exact hlin.read (by decide) (by omega)
    refine Runs.step (Asm.loadXmm_eq hr hm 16 _) (Machine.exec_loadXmm16 hlo hhi) rfl
      (hQ _ (Steady.of_keeps (Keeps.goto_setXr henv.xmm_size hr _ _)) ?_)
    rw [Machine.xr_goto_setXr_self henv.xmm_size, vectorLoaded, if_pos rfl]
  · refine Runs.step (Asm.loadXmm_eq hr hm size _)
      (Machine.exec_loadXmm h16 (hlin.read_accessed hceil hpos hle)) rfl
      (hQ _ (Steady.of_keeps (Keeps.goto_setXr henv.xmm_size hr _ _)) ?_)
    rw [Machine.xr_goto_setXr_self henv.xmm_size, vectorLoaded, if_neg h16]

theorem runs_loadVector {size : Nat} (hpos : 0 < size) (hsize : size ≤ 16) {t : SlotType}
    (ht : t ≠ .v128hi) (arg : MemArg) {a : UInt64} (h : Rep M fb cap c.stack (vs ++ [a]))
    (hfit : Fit ∅ c.stack) (hty : ∀ ⦃l⦄, c.stack.slots[vs.length]? = some l → l.type = .i32)
    (hnf : ∀ ⦃j l⦄, c.stack.slots[j]? = some l → j < vs.length → l.flag = none)
    (hlin : Linear M mem) (hroom : vs.length + (if t = .v128lo then 2 else 1) ≤ cap)
    {v vhi : UInt64}
    (hval : ∀ M' r, r ∈ vecPool →
      M'.xr r.xmm = vectorLoaded mem (a.toNat + arg.offset.toNat) size →
      InReg M' t r v ∧ (t = .v128lo → InReg M' .v128hi r vhi))
    {Q : Unit → Compiler → Machine → Prop}
    (hX : mem.size < a.toNat + arg.offset.toNat + size → ∀ M',
      Exited M' (.trap .memoryOutOfBounds) vs.length →
      M'.mem.regions[Area.memory.index]? = some mem → X M')
    (hQ : a.toNat + arg.offset.toNat + size ≤ mem.size → ∀ c' M', Fit ∅ c'.stack →
      Rep M' fb cap c'.stack (vs ++ if t = .v128lo then [v, vhi] else [v]) → Linear M' mem →
      Q () c' M') :
    Runs K X (loadVector size t arg) Q c M := by
  unfold loadVector
  refine Runs.bind (runs_boundsCheckedCeil arg hsize h hfit (by simp) hty hnf hlin hX
    fun hle q c₁ M₁ hq _ hfit₁ hnf₁ hR₁ hlin₁ hceil _ => ?_) fun _ =>
      .bind (grows_allocate _ _) fun _ => .bind (.asm' (.loadXmm _ _ _)) fun _ =>
        .bind (silent_releaseReg _).grows fun _ => (silent_pushRegister _ _).grows
  refine Runs.bind (runs_allocateFresh hR₁ hfit₁ (by simp) .vector
    fun r c₂ M₂ hr hrq hfit₂ hsp₂ hR₂ hk₂ => ?_) fun _ =>
      .bind (.asm' (.loadXmm _ _ _)) fun _ =>
        .bind (silent_releaseReg _).grows fun _ => (silent_pushRegister _ _).grows
  have hr' : r ∈ vecPool := hr
  have hrx := isXmm_of_mem_vecPool hr'
  have hceil₂ : M₂.gp q.gpr = (a.toNat + arg.offset.toNat + size).toUInt64 := by
    rw [hk₂.gp _ (by simp)]
    exact hceil
  have hlin₂ := hlin₁.of_keeps hR₁.env hk₂ (by simp)
  have hnf₂ := hsp₂.moves.noFlags hnf₁
  refine Runs.bind (runs_loadXmmAccessed hlin₂ hR₂.env hrx (isGp_of_mem_gpPool hq) hpos hceil₂ hle
    fun M₃ hs₃ hx₃ => ?_) fun _ =>
      .bind (silent_releaseReg _).grows fun _ => (silent_pushRegister _ _).grows
  obtain ⟨hin, hhi⟩ := hval M₃ r hr' hx₃
  have hR₃ := hR₂.of_steady hfit₂.1 hnf₂ hs₃
    (fun w hw => by rw [Finset.mem_singleton.mp hw]; exact writable_of_isXmm hrx)
    (free_singleton hfit₂.1 (Finset.mem_insert_self r _))
  have hlin₃ := hlin₂.of_steady hR₂.env hs₃ (ne_memoryBaseReg_of_isXmm hrx)
  have hpair : insert r (insert q (∅ : Finset Reg)) = insert q {r} := by
    rw [Finset.insert_empty, Finset.pair_comm]
  rw [hpair] at hfit₂
  have hqr : q ∉ ({r} : Finset Reg) := fun he => hrq (by rw [Finset.mem_singleton.mp he]; simp)
  refine Runs.bind (runs_releaseReg
    (c := { c₂ with asm := Asm.pushed c₂.asm (.loadXmm size r.xmm (accessed q size).toMem) })
    hR₃ hfit₂ hqr fun c₄ hfit₄ hR₄ => ?_) fun _ => (silent_pushRegister _ _).grows
  exact runs_pushRegister hR₄ hfit₄ (Finset.mem_singleton_self r) ht hin hhi
    (by rw [← hR₄.length_eq]; exact hroom) fun c₅ hfit₅ hR₅ =>
      hQ hle c₅ M₃ (by simpa using hfit₅) hR₅ hlin₃

/-! Vector operands. -/

theorem Rep.popVector {s : ValueStack} {x : Location} {k : Nat} {lo hi : UInt64}
    (h : Rep M fb cap s (vs ++ [lo, hi])) (hlay : Layout s T) (ht : TopAt s x k)
    (hty : ∀ ⦃l⦄, s.slots[vs.length]? = some l → l.type = .v128lo) :
    k = vs.length ∧ x.type = .v128lo ∧ Carries M fb x lo hi ∧ Rep M fb cap (s.below k) vs := by
  have hsp : s.slots.size = vs.length + 2 := by
    rw [← ValueStack.sp, ← h.length_eq, List.length_append]
    rfl
  have hlo : x.type = .v128lo := by
    by_contra hne
    have e := ht.sp_eq
    rw [if_neg hne, ValueStack.sp, hsp] at e
    have hl : s.slots[vs.length]? = some s.slots[vs.length] := Array.getElem?_eq_getElem (by omega)
    have hx := getElem?_hiOf hlay hl (hty hl)
    rw [show vs.length + 1 = k by omega, ht.get, Option.some.injEq] at hx
    exact ht.whole (by rw [hx]; rfl)
  have hk : k = vs.length := by
    have e := ht.sp_eq
    rw [if_pos hlo, ValueStack.sp, hsp] at e
    omega
  subst hk
  obtain ⟨v, vhi, hv, hvhi, hc, hR⟩ := h.below hlay ht
  have hv' : lo = v := by simpa using hv
  have hvhi' : hi = vhi := by simpa using hvhi hlo
  subst hv' hvhi'
  exact ⟨rfl, hlo, hc, by simpa using hR⟩

theorem runs_popVector {lo hi : UInt64} (h : Rep M fb cap c.stack (vs ++ [lo, hi]))
    (hfit : Fit T c.stack) (hcard : T.card < 8)
    (hty : ∀ ⦃l⦄, c.stack.slots[vs.length]? = some l → l.type = .v128lo)
    {Q : Location → Compiler → Machine → Prop}
    (hQ : ∀ x r c' M', x.reg = some r → x.type = .v128lo → r ∉ T → Fit (insert r T) c'.stack →
      Rep M' fb cap c'.stack vs → InReg M' .v128lo r lo → InReg M' .v128hi r hi →
      Keeps M M' fb {r} vs.length → Moves (c.stack.below vs.length) c'.stack → Q x c' M') :
    Runs K X popToRegister Q c M := by
  refine runs_popCarried lo hi hfit hcard (fun x n ht => ?_)
    fun x r c' M' ht hrT hfit' hR' hc' hk hmv =>
      hQ _ r c' M' rfl (hty ht.get : x.type = .v128lo) hrT hfit' hR'
        ((hty ht.get : x.type = .v128lo) ▸ hc'.1) (hc'.2 (hty ht.get : x.type = .v128lo)) hk hmv
  obtain ⟨rfl, htx, hcv, hR⟩ := h.popVector hfit.1 ht hty
  have := h.sp_le
  rw [← h.length_eq, List.length_append] at this
  rw [if_pos htx]
  exact ⟨rfl, hcv, hR, this⟩

theorem runs_storeVector (arg : MemArg) {a lo hi : UInt64}
    (h : Rep M fb cap c.stack (vs ++ [a, lo, hi])) (hfit : Fit ∅ c.stack)
    (hty : ∀ ⦃l⦄, c.stack.slots[vs.length]? = some l → l.type = .i32)
    (htv : ∀ ⦃l⦄, c.stack.slots[vs.length + 1]? = some l → l.type = .v128lo)
    (hnf : ∀ ⦃j l⦄, c.stack.slots[j]? = some l → j < vs.length → l.flag = none)
    (hlin : Linear M mem) {Q : Unit → Compiler → Machine → Prop}
    (hX : mem.size < a.toNat + arg.offset.toNat + 16 → ∀ M',
      Exited M' (.trap .memoryOutOfBounds) vs.length →
      M'.mem.regions[Area.memory.index]? = some mem → X M')
    (hQ : a.toNat + arg.offset.toNat + 16 ≤ mem.size → ∀ c' M', Fit ∅ c'.stack →
      Rep M' fb cap c'.stack vs →
      Linear M' (writeLE (writeLE mem (a.toNat + arg.offset.toNat) 8 lo)
        (a.toNat + arg.offset.toNat + 8) 8 hi) → Q () c' M') :
    Runs K X (store 16 arg) Q c M := by
  unfold store
  have h' : Rep M fb cap c.stack ((vs ++ [a]) ++ [lo, hi]) := by rw [List.append_assoc]; exact h
  refine Runs.bind (runs_popVector h' hfit (by simp) (by simpa using htv)
    fun x r c₁ M₁ hx htx _ hfit₁ hR₁ hlo₁ hhi₁ hk₁ hmv₁ => ?_) fun x =>
      .bind (grows_boundsCheckedCeil _ _) fun q => .bind (silent_regOf x).grows fun _ =>
        .bind (grows_storeFrom _ _ _ _) fun _ => grows_releaseBoth x q
  rw [Finset.insert_empty] at hfit₁
  have hrx := isXmm_of_mem_vecPool hlo₁.1
  obtain ⟨hty₁, hnf₁⟩ := address_of_moves (by simpa using hmv₁) hty hnf
  refine Runs.bind (runs_boundsCheckedCeil arg (by omega) (by simpa using hR₁) hfit₁ (by simp)
    hty₁ hnf₁ (hlin.of_keeps h.env hk₁ (ne_memoryBaseReg_of_isXmm hrx)) hX
    fun hle q c₂ M₂ hq hqr hfit₂ hnf₂ hR₂ hlin₂ hceil hT₂ => ?_) fun q =>
      .bind (silent_regOf x).grows fun _ => .bind (grows_storeFrom _ _ _ _) fun _ =>
        grows_releaseBoth x q
  rw [regOf_of_reg hx, pure_bind, show x.regKind = .vector by rw [Location.regKind, htx]; rfl]
  have haddr := hlin₂.addr_accessed hceil
  obtain ⟨-, hlo₂⟩ := hT₂ (Finset.mem_singleton_self r) hlo₁
  obtain ⟨-, hhi₂⟩ := hT₂ (Finset.mem_singleton_self r) hhi₁
  have hloc₁ : M₂.mem.locate (Area.memory.base + (a.toNat + arg.offset.toNat).toUInt64) 8 =
      some (Area.memory.index, a.toNat + arg.offset.toNat) :=
    hlin₂.locate (by decide) (by omega)
  obtain ⟨m₁, hw₁⟩ : ∃ m₁, M₂.mem.write (Area.memory.base + (a.toNat + arg.offset.toNat).toUInt64)
      8 lo = some m₁ := ⟨_, AddressSpace.write_of_locate hloc₁ lo⟩
  have hloc₂ : m₁.locate (Area.memory.base + (a.toNat + arg.offset.toNat + 8).toUInt64) 8 =
      some (Area.memory.index, a.toNat + arg.offset.toNat + 8) := by
    rw [AddressSpace.locate_write hw₁]
    exact hlin₂.locate (by decide) (by omega)
  obtain ⟨m₂, hw₂⟩ : ∃ m₂, m₁.write
      (Area.memory.base + (a.toNat + arg.offset.toNat + 8).toUInt64) 8 hi = some m₂ :=
    ⟨_, AddressSpace.write_of_locate hloc₂ hi⟩
  have hw₁' : M₂.mem.write (M₂.addr (accessed q 16).toMem) 8 (M₂.xr r.xmm).lo = some m₁ := by
    rw [haddr, hlo₂]
    exact hw₁
  have hw₂' : m₁.write (M₂.addr (accessed q 16).toMem + 8) 8 (M₂.xr r.xmm).hi = some m₂ := by
    rw [haddr, add_toUInt64_add_eight, hhi₂]
    exact hw₂
  refine Runs.bind (runs_storeXmm16 hrx
    (MemRef.valid_indexed (by decide : memoryBaseReg.IsGp) (isGp_of_mem_gpPool hq) _ _) hw₁' hw₂'
    fun t' => ?_) fun _ => grows_releaseBoth x q
  have henv₂ := hR₂.env.goto t'
  have hR₃ : Rep { M₂.goto t' with mem := m₂ } fb cap c₂.stack vs :=
    ((hR₂.of_steady hfit₂.1 hnf₂ (Steady.goto t') (by simp) (by simp)).write_memory hfit₂.1
      hloc₁ hw₁).write_memory hfit₂.1 hloc₂ hw₂
  have hlin₃ : Linear { M₂.goto t' with mem := m₂ }
      (writeLE (writeLE mem (a.toNat + arg.offset.toNat) 8 lo) (a.toNat + arg.offset.toNat + 8) 8
        hi) :=
    ((hlin₂.goto t').write henv₂ (by decide) (by omega) hw₁).write
      (henv₂.write_memory hloc₁ hw₁) (by decide) (by rw [size_writeLE]; omega) hw₂
  exact runs_releaseBoth
    (c := { c₂ with asm := Asm.pushed c₂.asm (.storeXmm 16 (accessed q 16).toMem r.xmm) })
    hx hR₃ hfit₂ hqr fun c₄ hfit₄ hR₄ => hQ hle c₄ _ hfit₄ hR₄ hlin₃

end Ceiling

/-! What each access does. -/

/-- The accesses to linear memory, by what they move between the stack and the memory. -/
inductive Access where
  /-- `loadBytes kind` bytes, extended by `kind` into a general register, pushed as `t`. -/
  | int (kind : LoadKind) (t : SlotType)
  /-- The bytes of a float of type `t`, into the low half of a vector register. -/
  | float (t : FloatType)
  /-- Sixteen bytes, pushed as the two halves of a vector. -/
  | vector
  /-- The low `n` bytes of the value on top of the stack. -/
  | store (n : Nat)
  /-- The sixteen bytes of the vector on top of the stack. -/
  | storeVector
  deriving DecidableEq

namespace Access

def size : Access → Nat
  | int kind _ => Machine.loadBytes kind
  | float t => slotBytes t.slotType
  | vector | storeVector => 16
  | store n => n

def pushes : Access → Nat
  | int .. | float _ => 1
  | vector => 2
  | store _ | storeVector => 0

def perform : Access → ByteArray → Nat → List UInt64 → List UInt64 × ByteArray
  | int kind _, mem, off, _ =>
    ([Machine.extendLoad kind (readLE mem off (Machine.loadBytes kind))], mem)
  | float t, mem, off, _ => ([readLE mem off (slotBytes t.slotType)], mem)
  | vector, mem, off, _ => ([readLE mem off 8, readLE mem (off + 8) 8], mem)
  | store n, mem, off, ws => ([], writeLE mem off n (ws.headD 0))
  | storeVector, mem, off, ws =>
    ([], writeLE (writeLE mem off 8 (ws.headD 0)) (off + 8) 8 (ws.getD 1 0))

def Operands : Access → ValueStack → Nat → List UInt64 → Prop
  | store n, s, j, ws => ∃ v t, ws = [v] ∧ (∀ ⦃l⦄, s.slots[j + 1]? = some l → l.type = t) ∧
    (t = .i32 ∨ t = .i64 ∨ t = .f64 ∨ t = .f32 ∧ n ≤ 4)
  | storeVector, s, j, ws => ∃ lo hi, ws = [lo, hi] ∧
    ∀ ⦃l⦄, s.slots[j + 1]? = some l → l.type = .v128lo
  | _, _, _, ws => ws = []

def Valid : Access → Prop
  | int kind t => t = .i32 ∧ Machine.loadWidth kind = .w32 ∨ t = .i64
  | store n => 0 < n ∧ n ≤ 8
  | _ => True

def lower : Access → MemArg → LowerM Unit
  | int kind t, arg => loadInt kind (Machine.loadBytes kind) t arg
  | float t, arg => loadVector (slotBytes t.slotType) t.slotType arg
  | vector, arg => loadVector 16 .v128lo arg
  | store n, arg => Lower.store n arg
  | storeVector, arg => Lower.store 16 arg

theorem perform_frame (acc : Access) (mem : ByteArray) (off : Nat) (ws : List UInt64) :
    (acc.perform mem off ws).2.size = mem.size ∧ ∀ j, j < off ∨ off + acc.size ≤ j →
      byteAt (acc.perform mem off ws).2 j = byteAt mem j := by
  cases acc with
  | int | float | vector => exact ⟨rfl, fun _ _ => rfl⟩
  | store n =>
    refine ⟨size_writeLE _ _ _ _, fun j hj => ?_⟩
    rw [perform, byteAt_writeLE, if_neg]
    simp only [size] at hj
    omega
  | storeVector =>
    refine ⟨by simp only [perform, size_writeLE], fun j hj => ?_⟩
    simp only [size] at hj
    rw [perform, byteAt_writeLE, if_neg (by omega), byteAt_writeLE, if_neg (by omega)]

end Access

def memoryAccess? : Operation → Option (MemArg × Access)
  | .load .i32 a => some (a, .int .u32 .i32)
  | .load .i64 a => some (a, .int .u64 .i64)
  | .load .f32 a => some (a, .float .f32)
  | .load .f64 a => some (a, .float .f64)
  | .load8 .s32 a => some (a, .int .s8To32 .i32)
  | .load8 .u32 a => some (a, .int .u8To32 .i32)
  | .load8 .s64 a => some (a, .int .s8To64 .i64)
  | .load8 .u64 a => some (a, .int .u8To32 .i64)
  | .load16 .s32 a => some (a, .int .s16To32 .i32)
  | .load16 .u32 a => some (a, .int .u16To32 .i32)
  | .load16 .s64 a => some (a, .int .s16To64 .i64)
  | .load16 .u64 a => some (a, .int .u16To32 .i64)
  | .load32 s a => some (a, .int (if s then .s32To64 else .u32) .i64)
  | .store .i32 a | .store .f32 a => some (a, .store 4)
  | .store .i64 a | .store .f64 a => some (a, .store 8)
  | .store8 a => some (a, .store 1)
  | .store16 a => some (a, .store 2)
  | .store32 a => some (a, .store 4)
  | .v128Load a => some (a, .vector)
  | .v128Store a => some (a, .storeVector)
  | _ => none

theorem lower_of_memoryAccess? {op : Operation} {arg : MemArg} {acc : Access}
    (h : memoryAccess? op = some (arg, acc)) : Lower.operation op = acc.lower arg := by
  unfold memoryAccess? at h
  split at h <;> cases h
  all_goals first | rfl | (cases ‹Bool› <;> rfl)

theorem valid_of_memoryAccess? {op : Operation} {arg : MemArg} {acc : Access}
    (h : memoryAccess? op = some (arg, acc)) : acc.Valid := by
  unfold memoryAccess? at h
  split at h <;> cases h
  all_goals first | trivial | exact .inl ⟨rfl, rfl⟩ | exact .inr rfl

theorem inReg_vectorLoaded_float (t : FloatType) {M : Machine} {r : Reg} (hr : r ∈ vecPool)
    {mem : ByteArray} {off : Nat}
    (hx : M.xr r.xmm = vectorLoaded mem off (slotBytes t.slotType)) :
    InReg M t.slotType r (readLE mem off (slotBytes t.slotType)) ∧
      (t.slotType = .v128lo → InReg M .v128hi r 0) := by
  refine ⟨?_, fun h => absurd h (FloatType.slotType_ne t).1⟩
  cases t with
  | f32 =>
    have hlt := toNat_readLE_lt mem off (show 4 ≤ 8 by decide)
    refine ⟨hr, ?_⟩
    rw [hx, vectorLoaded, if_neg (by decide)]
    exact and_low32_of_lt hlt
  | f64 =>
    refine ⟨hr, ?_⟩
    rw [hx, vectorLoaded, if_neg (by decide)]
    rfl

theorem inReg_vectorLoaded_vector {M : Machine} {r : Reg} (hr : r ∈ vecPool) {mem : ByteArray}
    {off : Nat} (hx : M.xr r.xmm = vectorLoaded mem off 16) :
    InReg M .v128lo r (readLE mem off 8) ∧
      (SlotType.v128lo = .v128lo → InReg M .v128hi r (readLE mem (off + 8) 8)) := by
  rw [vectorLoaded, if_pos rfl] at hx
  exact ⟨⟨hr, by rw [hx]⟩, fun _ => ⟨hr, by rw [hx]⟩⟩

section Accesses

variable {K : Code} {c : Compiler} {M : Machine} {fb cap : Nat} {vs : List UInt64}
  {mem : ByteArray}

/-- A memory access with the `i32` address `a` on the stack and the values `ws` above it. When
`a + offset + size`, computed without wrapping, passes the memory's length, the code leaves
with `memoryOutOfBounds` and the memory as it was. Otherwise it goes on with the values the
access loads pushed, or with the memory rewritten, as long as it was and with every byte
outside those from `a + offset` on as it was. -/
theorem runs_memoryAccess {op : Operation} {arg : MemArg} {acc : Access}
    (hop : memoryAccess? op = some (arg, acc)) {a : UInt64} {ws : List UInt64}
    (h : Rep M fb cap c.stack (vs ++ a :: ws)) (hfit : Fit ∅ c.stack)
    (hty : ∀ ⦃l⦄, c.stack.slots[vs.length]? = some l → l.type = .i32)
    (hws : acc.Operands c.stack vs.length ws)
    (hnf : ∀ ⦃j l⦄, c.stack.slots[j]? = some l → j < vs.length → l.flag = none)
    (hroom : vs.length + acc.pushes ≤ cap) (hlin : Linear M mem) :
    Runs K (fun M' => mem.size < a.toNat + arg.offset.toNat + acc.size ∧
        Exited M' (.trap .memoryOutOfBounds) vs.length ∧
        M'.mem.regions[Area.memory.index]? = some mem)
      (Lower.operation op)
      (fun _ c' M' => a.toNat + arg.offset.toNat + acc.size ≤ mem.size ∧ Fit ∅ c'.stack ∧
        Rep M' fb cap c'.stack (vs ++ (acc.perform mem (a.toNat + arg.offset.toNat) ws).1) ∧
        Linear M' (acc.perform mem (a.toNat + arg.offset.toNat) ws).2 ∧
        (acc.perform mem (a.toNat + arg.offset.toNat) ws).2.size = mem.size ∧
        ∀ j, j < a.toNat + arg.offset.toNat ∨ a.toNat + arg.offset.toNat + acc.size ≤ j →
          byteAt (acc.perform mem (a.toNat + arg.offset.toNat) ws).2 j = byteAt mem j) c M := by
  have hv := valid_of_memoryAccess? hop
  have hframe := acc.perform_frame mem (a.toNat + arg.offset.toNat) ws
  rw [lower_of_memoryAccess? hop]
  cases acc with
  | int kind t =>
    obtain rfl : ws = [] := hws
    exact runs_loadInt hv arg h hfit hty hnf hlin (fun hgt M' hE hr => ⟨hgt, hE, hr⟩)
      fun hle c' M' hfit' hR' hlin' => ⟨hle, hfit', hR', hlin', hframe⟩
  | float t =>
    obtain rfl : ws = [] := hws
    have hne := FloatType.slotType_ne t
    exact runs_loadVector (by cases t <;> decide) (by cases t <;> decide) hne.2 arg h hfit hty hnf
      hlin (by rw [if_neg hne.1]; exact hroom) (fun M' r hr hx => inReg_vectorLoaded_float t hr hx)
      (fun hgt M' hE hr => ⟨hgt, hE, hr⟩)
      fun hle c' M' hfit' hR' hlin' => ⟨hle, hfit', by rwa [if_neg hne.1] at hR', hlin', hframe⟩
  | vector =>
    obtain rfl : ws = [] := hws
    exact runs_loadVector (by decide) le_rfl (by decide) arg h hfit hty hnf hlin
      (by rw [if_pos rfl]; exact hroom) (fun M' r hr hx => inReg_vectorLoaded_vector hr hx)
      (fun hgt M' hE hr => ⟨hgt, hE, hr⟩)
      fun hle c' M' hfit' hR' hlin' => ⟨hle, hfit', by rwa [if_pos rfl] at hR', hlin', hframe⟩
  | store n =>
    obtain ⟨v, t, rfl, htv, ht⟩ := hws
    exact runs_storeScalar hv.1 hv.2 ht arg h hfit hty htv hnf hlin
      (fun hgt M' hE hr => ⟨hgt, hE, hr⟩)
      fun hle c' M' hfit' hR' hlin' => ⟨hle, hfit', by simpa [Access.perform] using hR', hlin', hframe⟩
  | storeVector =>
    obtain ⟨lo, hi, rfl, htv⟩ := hws
    exact runs_storeVector arg h hfit hty htv hnf hlin (fun hgt M' hE hr => ⟨hgt, hE, hr⟩)
      fun hle c' M' hfit' hR' hlin' => ⟨hle, hfit', by simpa [Access.perform] using hR', hlin', hframe⟩

end Accesses

/-! A machine entered with a linear memory. -/

def memoryMachine (vals : List UInt64) (mem : ByteArray) : Machine where
  cpu := { gpr := ((((Array.replicate 16 0).set! 13 Area.context.base).set! 14
      Area.valueStack.base).set! 4 Area.nativeStack.base).set! 15 Area.memory.base }
  mem := { regions := #[.empty, .empty, writeLE (zeros Abi.ctxSize) 32 8 mem.size.toUInt64,
    returnBytes, frameBytes vals, .empty, .empty, .empty, .empty, .empty, mem] }

theorem env_memoryMachine {vals : List UInt64} (h : 8 * vals.length < 2 ^ 40) (mem : ByteArray) :
    Env (memoryMachine vals mem) 0 vals.length := by
  refine @Env.of_regions (memoryMachine vals mem) 0 vals.length 0
    (writeLE (zeros Abi.ctxSize) 32 8 mem.size.toUInt64) returnBytes (frameBytes vals) rfl rfl rfl
    rfl rfl rfl (by rw [size_writeLE, size_zeros_ctxSize]) rfl (by decide) rfl ?_ ⟨by omega, by decide⟩
    (by decide)
  rw [size_frameBytes]
  omega

theorem linear_memoryMachine {vals : List UInt64} (h : 8 * vals.length < 2 ^ 40)
    {mem : ByteArray} (hmem : mem.size ≤ 2 ^ 40) : Linear (memoryMachine vals mem) mem where
  base := rfl
  region := rfl
  length := by
    rw [AddressSpace.read_of_locate (Linear.locate_length (env_memoryMachine h mem)),
      show (memoryMachine vals mem).mem.region Area.context.index =
        writeLE (zeros Abi.ctxSize) 32 8 mem.size.toUInt64 from rfl]
    exact congrArg some (readLE_writeLE_eight _ _
      (by rw [size_zeros_ctxSize]; decide))
  size_le := hmem

/-- An `i32` load at address 0 of a memory of eight bytes, entered from the host: the load is in
bounds and pushes the first four bytes. -/
theorem runs_memoryAccess_entry :
    Runs (Code.spaced {} (by decide))
      (fun M' => (frameBytes [7]).size < (0 : UInt64).toNat + ({} : MemArg).offset.toNat +
          (Access.int .u32 .i32).size ∧
        Exited M' (.trap .memoryOutOfBounds) ([] : List UInt64).length ∧
        M'.mem.regions[Area.memory.index]? = some (frameBytes [7]))
      (Lower.operation (.load .i32 {}))
      (fun _ c' M' => (0 : UInt64).toNat + ({} : MemArg).offset.toNat +
          (Access.int .u32 .i32).size ≤ (frameBytes [7]).size ∧ Fit ∅ c'.stack ∧
        Rep M' 0 1 c'.stack ([] ++ ((Access.int .u32 .i32).perform (frameBytes [7])
          ((0 : UInt64).toNat + ({} : MemArg).offset.toNat) []).1) ∧
        Linear M' ((Access.int .u32 .i32).perform (frameBytes [7])
          ((0 : UInt64).toNat + ({} : MemArg).offset.toNat) []).2 ∧
        ((Access.int .u32 .i32).perform (frameBytes [7])
          ((0 : UInt64).toNat + ({} : MemArg).offset.toNat) []).2.size = (frameBytes [7]).size ∧
        ∀ j, j < (0 : UInt64).toNat + ({} : MemArg).offset.toNat ∨
            (0 : UInt64).toNat + ({} : MemArg).offset.toNat + (Access.int .u32 .i32).size ≤ j →
          byteAt ((Access.int .u32 .i32).perform (frameBytes [7])
            ((0 : UInt64).toNat + ({} : MemArg).offset.toNat) []).2 j = byteAt (frameBytes [7]) j)
      { stack := memoryStack [.i32], listener := false, features := {}
        fn := FunctionIr.ofBody { params := [.i32], results := [.i32] } {} [.load .i32 {}] }
      (memoryMachine [0] (frameBytes [7])) := by
  have hrep : Rep (memoryMachine [0] (frameBytes [7])) 0 1 (memoryStack [.i32]) ([] ++ [0]) :=
    rep_of_frameBytes (env_memoryMachine (by decide) _) rfl rfl fun i t v _ hv => by
      have : v = 0 := by simpa using (List.mem_of_getElem? hv)
      subst this
      exact Nat.two_pow_pos _
  have hty : ∀ ⦃l : Location⦄, (memoryStack [.i32]).slots[([] : List UInt64).length]? = some l →
      l.type = .i32 := fun l hl =>
    (by simpa using (memoryStack_slot hl).1 : SlotType.i32 = l.type).symm
  have hnf : ∀ ⦃j : Nat⦄ ⦃l : Location⦄, (memoryStack [.i32]).slots[j]? = some l →
      j < ([] : List UInt64).length → l.flag = none :=
    fun j _ _ hj => absurd hj (Nat.not_lt_zero j)
  exact runs_memoryAccess rfl hrep (fit_memoryStack (by decide)) hty rfl hnf le_rfl
    (linear_memoryMachine (by decide) (by rw [size_frameBytes]; decide))

end OnePassJit.Amd64
