import OnePassJit.Proofs.Amd64.Primitives
import OnePassJit.Proofs.Machine.Represent

/-!
Spilling on the machine.

A spill stores the value held in a register to its own slot: four or eight bytes of a
general or xmm register, or both lanes of a vector over its two slots. `Stored` says what
such a store does to the machine, and `Rep.spill` that the stack with the value marked as
memory resident is then represented: every other value is where it was, and the spilled
one is in its slot. Allocation and eviction spill at most one value; what they leave
alone (`Keeps … ∅ sp`) includes every operand an operation has popped.
-/

namespace OnePassJit.Amd64

open Lower ValueStack

variable {M M' : Machine} {fb cap : Nat}

def hiOf (l : Location) : Location := { l with type := .v128hi, slot := l.slot + 1 }

/-- `M'` is `M` with the value `v` of type `t` stored in slot `i` (and, for a vector, its
high half `v'` in slot `i + 1`), nothing else changed. -/
structure Stored (M M' : Machine) (fb cap i : Nat) (t : SlotType) (v v' : UInt64) : Prop where
  keeps : Keeps M M' fb ∅ (i + if t = .v128lo then 2 else 1)
  self : M'.mem.read (slotAddress fb i) (slotBytes t) = some v
  high : t = .v128lo → M'.mem.read (slotAddress fb (i + 1)) 8 = some v'
  other : ∀ {j k : Nat}, j < cap → j ≠ i → (t = .v128lo → j ≠ i + 1) → k ≤ 8 →
    M'.mem.read (slotAddress fb j) k = M.mem.read (slotAddress fb j) k

/-! Writing a slot. -/

namespace Env

variable {i n : Nat} {x : UInt64} {mem : AddressSpace}

theorem write_slot (h : Env M fb cap) (hi : i < cap) (hn : n ≤ 8) (x : UInt64) :
    ∃ mem, M.mem.write (slotAddress fb i) n x = some mem :=
  ⟨_, AddressSpace.write_of_locate (h.locate_slot hi hn) x⟩

theorem keeps_write_slot (h : Env M fb cap) (hi : i < cap) (hn : n ≤ 8)
    (hw : M.mem.write (slotAddress fb i) n x = some mem) :
    Keeps M { M with mem } fb ∅ (i + 1) :=
  Keeps.write hw (h.locate_slot hi hn) fun _ hs => .inr (by omega)

theorem read_write_slot_other (h : Env M fb cap) (hi : i < cap) (hn : n ≤ 8)
    (hw : M.mem.write (slotAddress fb i) n x = some mem) {j k : Nat} (hj : j < cap) (hji : j ≠ i)
    (hk : k ≤ 8) : mem.read (slotAddress fb j) k = M.mem.read (slotAddress fb j) k :=
  AddressSpace.read_write_of_separate hw (h.locate_slot hi hn) (h.locate_slot hj hk)
    (.inr (by omega))

end Env

theorem toNat_and_low32 (x : UInt64) : (x &&& low32).toNat = x.toNat % 2 ^ 32 := by
  rw [UInt64.toNat_and, show low32.toNat = 2 ^ 32 - 1 from rfl, Nat.and_two_pow_sub_one_eq_mod]

theorem Stored.of_write {i : Nat} {t : SlotType} {v v' x : UInt64} {mem : AddressSpace}
    {next : UInt64} (h : Env M fb cap) (hi : i < cap) (ht : t ≠ .v128lo)
    (hw : M.mem.write (slotAddress fb i) (slotBytes t) x = some mem)
    (hx : x.toNat % 2 ^ (8 * slotBytes t) = v.toNat) :
    Stored M { M.goto next with mem } fb cap i t v v' where
  keeps := ((Keeps.goto M fb next).trans (Env.keeps_write_slot
    ((h.of_keeps (Keeps.goto M fb next) (by simp))) hi (slotBytes_le t) hw)).mono
      (by simp) (by simp [ht])
  self := by
    obtain ⟨w, hr, hwv⟩ := AddressSpace.read_write_self hw (slotBytes_le t)
    rw [hr, ← UInt64.toNat_inj.mp (hwv.trans hx)]
  high := fun hlo => absurd hlo ht
  other hj hji _ hk := h.read_write_slot_other hi (slotBytes_le t) hw hj hji hk

theorem Stored.of_write128 {i : Nat} {lo hi : UInt64} {mem mem' : AddressSpace}
    {next : UInt64} (h : Env M fb cap) (hi₁ : i + 1 < cap)
    (hw : M.mem.write (slotAddress fb i) 8 lo = some mem)
    (hw' : mem.write (slotAddress fb (i + 1)) 8 hi = some mem') :
    Stored M { M.goto next with mem := mem' } fb cap i .v128lo lo hi := by
  have hi₀ : i < cap := by omega
  have h₁ : Env { M.goto next with mem } fb cap :=
    (h.of_keeps (Keeps.goto M fb next) (by simp)).of_keeps
      (Env.keeps_write_slot (h.of_keeps (Keeps.goto M fb next) (by simp)) hi₀ le_rfl hw)
      (by simp)
  have hk₁ := (Keeps.goto M fb next).trans
    (Env.keeps_write_slot (h.of_keeps (Keeps.goto M fb next) (by simp)) hi₀ le_rfl hw)
  have hk₂ := Env.keeps_write_slot (M := { M.goto next with mem }) h₁ hi₁ le_rfl hw'
  refine ⟨(hk₁.trans hk₂).mono (by simp) (by simp), ?_, fun _ => ?_, ?_⟩
  · have hsep := h₁.read_write_slot_other hi₁ le_rfl hw' hi₀ (by omega) le_rfl
    obtain ⟨w, hr, hwv⟩ := AddressSpace.read_write_self hw le_rfl
    show mem'.read (slotAddress fb i) 8 = some lo
    rw [hsep, hr, ← UInt64.toNat_inj.mp (hwv.trans (Nat.mod_eq_of_lt lo.toNat_lt))]
  · obtain ⟨w, hr, hwv⟩ := AddressSpace.read_write_self hw' le_rfl
    show mem'.read (slotAddress fb (i + 1)) 8 = some hi
    rw [hr, ← UInt64.toNat_inj.mp (hwv.trans (Nat.mod_eq_of_lt hi.toNat_lt))]
  · intro j k hj hji hji' hk
    show mem'.read (slotAddress fb j) k = M.mem.read (slotAddress fb j) k
    rw [h₁.read_write_slot_other hi₁ le_rfl hw' hj (hji' rfl) hk]
    exact h.read_write_slot_other hi₀ le_rfl hw hj hji hk

/-- Spilling the value at `i`: every value of the stack still resides, the spilled one (both
halves of a vector) in memory. -/
theorem Rep.spill {s : ValueStack} {vs : List UInt64} {T : Finset Reg} {i : Nat} {l : Location}
    {v v' : UInt64} (u : RegSet) (h : Rep M fb cap s vs) (hlay : Layout s T)
    (hl : s.slots[i]? = some l) (hv : vs[i]? = some v) (hv' : l.type = .v128lo → vs[i + 1]? = some v')
    (hst : Stored M M' fb cap i l.type v v') :
    Rep M' fb cap
      { s with slots := modifyValue s.slots i (l.type == .v128lo) Location.setOnStack, used := u }
      vs where
  env := h.env.of_keeps hst.keeps (by simp)
  length_eq := by
    rw [h.length_eq]
    exact size_modifyValue.symm
  sp_le := by
    show (modifyValue s.slots i _ _).size ≤ cap
    rw [size_modifyValue]
    exact h.sp_le
  resides k l' w hk hw := by
    rw [getElem?_modifyValue] at hk
    split at hk
    · rename_i hki
      obtain ⟨l₀, hl₀, rfl⟩ := Option.map_eq_some_iff.mp hk
      rcases hki with rfl | ⟨hpair, rfl⟩
      · rw [hl] at hl₀
        obtain rfl := Option.some.inj hl₀
        rw [hv] at hw
        cases hw
        show M'.mem.read (slotAddress fb l.slot) (slotBytes l.type) = some v
        rw [hlay.slot_eq hl, Nat.zero_add]
        exact hst.self
      · -- the high half of a spilled vector
        have hlo : l.type = .v128lo := by simpa using hpair
        obtain ⟨l₁, hl₁, hty, -⟩ := hlay.lo_hi hl hlo
        rw [hl₁] at hl₀
        obtain rfl := Option.some.inj hl₀
        rw [hv' hlo] at hw
        cases hw
        show M'.mem.read (slotAddress fb l₁.slot) (slotBytes l₁.type) = some v'
        rw [hlay.slot_eq hl₁, hty, Nat.zero_add]
        exact hst.high hlo
    · rename_i hki
      have hkc : k < cap := lt_of_lt_of_le (Block.lt_size hk) h.sp_le
      refine (h.resides hk hw).of_reads hst.keeps (by simp) fun _ _ => ?_
      rw [hlay.slot_eq hk, Nat.zero_add]
      exact hst.other hkc (fun e => hki (.inl e)) (fun hlo e => hki (.inr ⟨by simpa using hlo, e⟩))
        (slotBytes_le _)

/-! Slot operands. -/

theorem silent_disp (i k : Nat) (space : IndexSpace) : Silent (disp i k space) := by
  unfold disp
  exact .ite' (.pure' _) (.throw' _)

theorem silent_slot (i : Nat) : Silent (slot i) :=
  .bind (silent_disp i 8 .stackSlot) fun _ => .pure' _

theorem slot_ok {i : Nat} {m : MemRef} {c c' : Compiler} (h : slot i c = .ok (m, c')) :
    m = .at stackBaseReg ((i * 8 : Nat) : Int) ∧ c' = c := by
  unfold slot disp at h
  by_cases hi : i * 8 < Nat.pow 2 31
  · rw [if_pos hi] at h
    cases h
    exact ⟨rfl, rfl⟩
  · rw [if_neg hi] at h
    cases h

/-! Storing a register to its slot. -/

section Store

variable {K : Code} {X : Machine → Prop} {c : Compiler} {r : Reg} {i : Nat} {t : SlotType}
  {v v' : UInt64}

theorem grows_storeSlot (r : Reg) (i : Nat) (t : SlotType) : Grows (storeSlot r i t) := by
  unfold storeSlot
  refine .bind (silent_slot i).grows fun m => ?_
  cases t <;> first
    | exact .asm' (.store _ _ _)
    | exact .asm' (.storeXmm _ _ _)
    | exact .throw' _

theorem runs_storeSlot (henv : Env M fb cap) (hi : i < cap) (hpair : t = .v128lo → i + 1 < cap)
    (hr : InReg M t r v) (hhi : t = .v128lo → (M.xr r.xmm).hi = v')
    {Q : Unit → Compiler → Machine → Prop}
    (hQ : ∀ c' M', c' = { c with asm := c'.asm } → Stored M M' fb cap i t v v' → Q () c' M') :
    Runs K X (storeSlot r i t) Q c M := by
  unfold storeSlot
  refine Runs.bind (Runs.silent (silent_slot i) fun m c₁ h₁ => ?_) fun m => ?_
  · obtain ⟨rfl, rfl⟩ := slot_ok h₁
    have hm : (MemRef.at stackBaseReg ((i * 8 : Nat) : Int)).Valid := MemRef.valid_at (by decide) _
    have haddr := henv.addr_slot i
    cases t with
    | i32 =>
      obtain ⟨hp, hv, hb⟩ := hr
      obtain ⟨mem, hw⟩ := henv.write_slot hi (show 4 ≤ 8 by decide) (M.gp r.gpr)
      refine Runs.step (Asm.store_eq (isGp_of_mem_gpPool hp) hm 4 _) ?_ rfl
        (hQ _ _ rfl (Stored.of_write henv hi (by decide) hw ?_))
      · rw [show Instr.mapTarget K.target (.store 4 _ r.gpr) = .store 4 _ r.gpr from rfl,
          Machine.exec_store, haddr]
        exact Machine.write_eq_ok hw
      · rw [hv]
        exact Nat.mod_eq_of_lt hb
    | i64 =>
      obtain ⟨hp, hv⟩ := hr
      obtain ⟨mem, hw⟩ := henv.write_slot hi (show 8 ≤ 8 by decide) (M.gp r.gpr)
      refine Runs.step (Asm.store_eq (isGp_of_mem_gpPool hp) hm 8 _) ?_ rfl
        (hQ _ _ rfl (Stored.of_write henv hi (by decide) hw ?_))
      · rw [show Instr.mapTarget K.target (.store 8 _ r.gpr) = .store 8 _ r.gpr from rfl,
          Machine.exec_store, haddr]
        exact Machine.write_eq_ok hw
      · rw [hv]
        exact Nat.mod_eq_of_lt v.toNat_lt
    | f32 =>
      obtain ⟨hp, hv⟩ := hr
      obtain ⟨mem, hw⟩ := henv.write_slot hi (show 4 ≤ 8 by decide) (M.xr r.xmm).lo
      refine Runs.step (Asm.storeXmm_eq (isXmm_of_mem_vecPool hp) hm 4 _) ?_ rfl
        (hQ _ _ rfl (Stored.of_write henv hi (by decide) hw ?_))
      · rw [show Instr.mapTarget K.target (.storeXmm 4 _ r.xmm) = .storeXmm 4 _ r.xmm from rfl,
          Machine.exec_storeXmm, if_neg (by decide), haddr]
        exact Machine.write_eq_ok hw
      · rw [← hv, toNat_and_low32]
        rfl
    | f64 =>
      obtain ⟨hp, hv⟩ := hr
      obtain ⟨mem, hw⟩ := henv.write_slot hi (show 8 ≤ 8 by decide) (M.xr r.xmm).lo
      refine Runs.step (Asm.storeXmm_eq (isXmm_of_mem_vecPool hp) hm 8 _) ?_ rfl
        (hQ _ _ rfl (Stored.of_write henv hi (by decide) hw ?_))
      · rw [show Instr.mapTarget K.target (.storeXmm 8 _ r.xmm) = .storeXmm 8 _ r.xmm from rfl,
          Machine.exec_storeXmm, if_neg (by decide), haddr]
        exact Machine.write_eq_ok hw
      · rw [← hv]
        exact Nat.mod_eq_of_lt (M.xr r.xmm).lo.toNat_lt
    | v128lo =>
      obtain ⟨hp, hv⟩ := hr
      have hi₁ := hpair rfl
      obtain ⟨mem, hw⟩ := henv.write_slot hi (show 8 ≤ 8 by decide) (M.xr r.xmm).lo
      have henv₁ : Env { M with mem } fb cap := henv.of_keeps (henv.keeps_write_slot hi le_rfl hw)
        (by simp)
      obtain ⟨mem', hw'⟩ := henv₁.write_slot hi₁ (show 8 ≤ 8 by decide) (M.xr r.xmm).hi
      have hex : M.exec (Instr.mapTarget K.target
            (.storeXmm 16 (MemRef.at stackBaseReg ((i * 8 : Nat) : Int)).toMem r.xmm))
          (K.addr (c₁.asm.instrs.size + 1)) =
          .ok { M.goto (K.addr (c₁.asm.instrs.size + 1)) with mem := mem' } := by
        rw [show Instr.mapTarget K.target (.storeXmm 16 _ r.xmm) = .storeXmm 16 _ r.xmm from rfl,
          Machine.exec_storeXmm, if_pos (by decide), haddr]
        simp only [Machine.write128, slotAddress_succ]
        rw [Machine.write_eq_ok
          (show (M.goto (K.addr (c₁.asm.instrs.size + 1))).mem.write _ 8 _ = some mem from hw)]
        exact Machine.write_eq_ok
          (show ({ M.goto (K.addr (c₁.asm.instrs.size + 1)) with mem } : Machine).mem.write _ 8 _ =
            some mem' from hw')
      refine Runs.step (Asm.storeXmm_eq (isXmm_of_mem_vecPool hp) hm 16 _) hex rfl (hQ _ _ rfl ?_)
      · rw [← hv, ← hhi rfl]
        exact Stored.of_write128 henv hi₁ hw hw'
    | none | v128hi => exact Runs.silent (.throw' _) fun _ _ h => by cases h
  · cases t <;> first
      | exact .asm' (.store _ _ _)
      | exact .asm' (.storeXmm _ _ _)
      | exact .throw' _

end Store

section Spill

variable {K : Code} {X : Machine → Prop} {c : Compiler} {vs : List UInt64} {T : Finset Reg}

theorem grows_spill (i : Nat) : Grows (spill i) := by
  unfold spill
  refine .bind (.stk' _) fun l => ?_
  split
  · exact .bind (grows_storeSlot _ _ _) fun _ => .stk' _
  · exact .pure' _

theorem runs_spill (h : Rep M fb cap c.stack vs) (hlay : Layout c.stack T) (i : Nat)
    {Q : Unit → Compiler → Machine → Prop}
    (hQ : ∀ c' M', spill i c = .ok ((), c') → Rep M' fb cap c'.stack vs →
      Keeps M M' fb ∅ c.stack.sp → Q () c' M') :
    Runs K X (spill i) Q c M := by
  refine Runs.withEq ?_
  unfold spill
  refine Runs.bind (Runs.stk' fun l s hget => ?_) fun l => ?_
  · obtain ⟨hl, rfl⟩ := StackM.get_ok hget
    cases hr : l.reg with
    | none =>
      exact Runs.pure' fun he => hQ _ _ he h ((Keeps.refl M fb).mono le_rfl (Nat.zero_le _))
    | some r =>
      have hi : i < c.stack.sp := Block.lt_size hl
      obtain ⟨v, hv⟩ := h.lt_length hl
      have hpair : l.type = .v128lo → i + 1 < c.stack.sp := hlay.pair_lt hl
      have hres := h.resides hl hv
      rw [Resides, hr] at hres
      obtain ⟨v', hv', hhi⟩ : ∃ v', (l.type = .v128lo → vs[i + 1]? = some v') ∧
          (l.type = .v128lo → (M.xr r.xmm).hi = v') := by
        by_cases hlo : l.type = .v128lo
        · obtain ⟨l₁, hl₁, hty, hreg⟩ := hlay.lo_hi hl hlo
          obtain ⟨v', hv'⟩ := h.lt_length hl₁
          have hres₁ := h.resides hl₁ hv'
          rw [Resides, hreg, hr, hty] at hres₁
          exact ⟨v', fun _ => hv', fun _ => hres₁.2⟩
        · exact ⟨0, fun e => absurd e hlo, fun e => absurd e hlo⟩
      refine Runs.bind (runs_storeSlot h.env (lt_of_lt_of_le hi h.sp_le)
        (fun e => lt_of_lt_of_le (hpair e) h.sp_le) hres hhi fun c₁ M₁ hc₁ hst => ?_)
        fun _ => .stk' _
      refine Runs.stk' fun u s hm he => ?_
      rw [hc₁, StackM.markOnStack_eq hl hpair] at hm
      cases hm
      refine hQ _ _ he (Rep.spill _ h hlay hl hv hv' hst) (hst.keeps.mono (by simp) ?_)
      by_cases hlo : l.type = .v128lo
      · simp only [hlo, if_true]
        exact hpair hlo
      · simp only [hlo, if_false]
        exact hi
  · split
    · exact .bind (grows_storeSlot _ _ _) fun _ => .stk' _
    · exact .pure' _

theorem silent_regOf (l : Location) : Silent (regOf l) := by
  unfold regOf
  split
  · exact .pure' _
  · exact .throw' _

theorem regOf_ok {l : Location} {r : Reg} {c' : Compiler} (h : regOf l c = .ok (r, c')) :
    l.reg = some r ∧ c' = c := by
  unfold regOf at h
  cases hr : l.reg with
  | none =>
    rw [hr] at h
    cases h
  | some r' =>
    rw [hr] at h
    cases h
    exact ⟨rfl, rfl⟩

theorem silent_countSpill : Silent countSpill := by
  unfold countSpill
  exact .modify' fun _ => rfl

theorem grows_allocate (kind : RegKind) (excl : RegSet) : Grows (allocate kind excl) := by
  unfold allocate
  refine .bind .get' fun c => ?_
  split
  · exact .bind (.stk' _) fun _ => .pure' _
  · split
    · exact .throw' _
    · exact .bind (.stk' _) fun l => .bind (silent_regOf l).grows fun _ =>
        .bind (grows_spill _) fun _ => .bind silent_countSpill.grows fun _ =>
          .bind (.stk' _) fun _ => .pure' _

theorem mem_pool_of_kind {s : ValueStack} (hg : s.gpPool = gpPool) (hv : s.vecPool = vecPool)
    {r : Reg} {kind : RegKind} (hr : r ∈ gpPool ∨ r ∈ vecPool) (hk : r.kind = kind) :
    r ∈ s.pool kind := by
  cases kind with
  | gp =>
    rcases hr with hr | hr
    · simpa [pool, hg] using hr
    · have := Lower.pool_kind s hg hv .vector r (by simpa [pool, hv] using hr)
      rw [this] at hk
      cases hk
  | vector =>
    rcases hr with hr | hr
    · have := Lower.pool_kind s hg hv .gp r (by simpa [pool, hg] using hr)
      rw [this] at hk
      cases hk
    · simpa [pool, hv] using hr

theorem runs_allocate (h : Rep M fb cap c.stack vs) (hfit : Fit T c.stack) (kind : RegKind)
    (excl : RegSet) {Q : Reg → Compiler → Machine → Prop}
    (hQ : ∀ r c' M', allocate kind excl c = .ok (r, c') → r ∈ c.stack.pool kind →
      Rep M' fb cap c'.stack vs → Keeps M M' fb ∅ c.stack.sp → Q r c' M') :
    Runs K X (allocate kind excl) Q c M := by
  refine Runs.withEq ?_
  unfold allocate
  refine Runs.bind (Runs.get' ?_) fun c₀ => ?_
  · split
    · rename_i r hfree
      refine Runs.bind (Runs.stk' fun _ s hm => ?_) fun _ => .pure' _
      cases hm
      exact Runs.pure' fun he => hQ r _ M he (takeFree_some hfree).1 (h.congr_slots rfl)
        ((Keeps.refl M fb).mono le_rfl (Nat.zero_le _))
    · split
      · exact Runs.silent (.throw' _) fun _ _ he => by cases he
      · rename_i victim hsteal
        refine Runs.bind (Runs.stk' fun l s hget => ?_) fun l => ?_
        · obtain ⟨hl, rfl⟩ := StackM.get_ok hget
          refine Runs.bind (Runs.silent (silent_regOf l) fun r c₁ h₁ => ?_) fun r => ?_
          · obtain ⟨hr, rfl⟩ := regOf_ok h₁
            have hpool : r ∈ c.stack.pool kind := by
              obtain ⟨l', r', hl', -, hr', hk, -⟩ := stealTarget_some hsteal
              rw [hl] at hl'
              cases hl'
              rw [hr] at hr'
              cases hr'
              exact mem_pool_of_kind hfit.2.1 hfit.2.2
                (h.mem_pool_of_holds (mem_regsOf.mpr ⟨victim, l, hl, hr⟩)) hk
            refine Runs.bind (runs_spill h hfit.1 victim fun c₂ M₂ _ hR₂ hk₂ => ?_) fun _ =>
              .bind silent_countSpill.grows fun _ => .bind (.stk' _) fun _ => .pure' _
            refine Runs.bind (Runs.silent silent_countSpill fun _ c₃ h₃ => ?_) fun _ =>
              .bind (.stk' _) fun _ => .pure' _
            cases h₃
            refine Runs.bind (Runs.stk' fun _ s hm => ?_) fun _ => .pure' _
            cases hm
            exact Runs.pure' fun he => hQ r _ M₂ he hpool (hR₂.congr_slots rfl) hk₂
          · exact .bind (grows_spill _) fun _ => .bind silent_countSpill.grows fun _ =>
              .bind (.stk' _) fun _ => .pure' _
        · exact .bind (silent_regOf l).grows fun _ =>
            .bind (grows_spill _) fun _ => .bind silent_countSpill.grows fun _ =>
              .bind (.stk' _) fun _ => .pure' _
  · split
    · exact .bind (.stk' _) fun _ => .pure' _
    · split
      · exact .throw' _
      · exact .bind (.stk' _) fun l => .bind (silent_regOf l).grows fun _ =>
          .bind (grows_spill _) fun _ => .bind silent_countSpill.grows fun _ =>
            .bind (.stk' _) fun _ => .pure' _

theorem grows_evict (r : Reg) : Grows (evict r) := by
  unfold evict
  refine .bind .get' fun c => ?_
  split
  · exact .bind (grows_spill _) fun _ => silent_countSpill.grows
  · exact .pure' _

theorem runs_evict (h : Rep M fb cap c.stack vs) (hlay : Layout c.stack T) (r : Reg)
    {Q : Unit → Compiler → Machine → Prop}
    (hQ : ∀ c' M', evict r c = .ok ((), c') → Rep M' fb cap c'.stack vs →
      Keeps M M' fb ∅ c.stack.sp → Q () c' M') :
    Runs K X (evict r) Q c M := by
  refine Runs.withEq ?_
  unfold evict
  refine Runs.bind (Runs.get' ?_) fun c₀ => ?_
  · split
    · rename_i owner _
      refine Runs.bind (runs_spill h hlay owner fun c₁ M₁ _ hR₁ hk₁ => ?_) fun _ =>
        silent_countSpill.grows
      refine Runs.silent silent_countSpill fun _ c₂ h₂ he => ?_
      cases h₂
      exact hQ _ M₁ he hR₁ hk₁
    · exact Runs.pure' fun he => hQ _ M he h ((Keeps.refl M fb).mono le_rfl (Nat.zero_le _))
  · split
    · exact .bind (grows_spill _) fun _ => silent_countSpill.grows
    · exact .pure' _

end Spill

end OnePassJit.Amd64
