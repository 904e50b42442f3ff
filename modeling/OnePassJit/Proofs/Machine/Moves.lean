import OnePassJit.Proofs.Machine.Spill

/-!
Moving popped operands on the machine.

An operation pops its operands and brings each into a register: its own, a fresh one
(`loadDetached`) or the one an instruction fixes (`moveToFixed`). `Carries M fb l v vhi`
says that a popped operand still holds its value `v` where its location says, and a vector
its high half `vhi` next to it. A move writes one register and at most spills one value to
its slot, so what the machine keeps (`Keeps … {r} sp`) includes every other operand and
every value left on the stack.

An exit leaves generated code for good: it records a status and the stack pointer in the
call context and returns to the host (`runs_exit`).
-/

namespace OnePassJit.Amd64

open Lower ValueStack

variable {M M' : Machine} {fb cap : Nat} {T : Finset Reg} {vs : List UInt64}

/-! Writing one register. -/

namespace Machine

@[simp] theorem gp_goto (t : UInt64) (g : Gpr) : (M.goto t).gp g = M.gp g := rfl

@[simp] theorem xr_goto (t : UInt64) (x : Xmm) : (M.goto t).xr x = M.xr x := rfl

theorem gp_goto_setGpW_self (hM : M.cpu.gpr.size = 16) (t : UInt64) (w : Width) (g : Gpr)
    (v : UInt64) : ((M.goto t).setGpW w g v).gp g = widen w v := by
  rw [gp_setGpW (M := M.goto t) hM, if_pos rfl]

theorem xr_goto_setXr_self (hM : M.cpu.xmm.size = 16) (t : UInt64) (x : Xmm) (v : Vec128) :
    ((M.goto t).setXr x v).xr x = v := by
  rw [xr_setXr (M := M.goto t) hM, if_pos rfl]

end Machine

theorem Keeps.goto_setGpW (hM : M.cpu.gpr.size = 16) {r : Reg} (hr : r.IsGp) (t : UInt64)
    (w : Width) (v : UInt64) : Keeps M ((M.goto t).setGpW w r.gpr v) fb {r} 0 :=
  ((Keeps.goto M fb t).trans (Keeps.setGpW (M := M.goto t) hM hr w v)).mono (by simp) le_rfl

theorem Keeps.goto_setXr (hM : M.cpu.xmm.size = 16) {r : Reg} (hr : r.IsXmm) (t : UInt64)
    (v : Vec128) : Keeps M ((M.goto t).setXr r.xmm v) fb {r} 0 :=
  ((Keeps.goto M fb t).trans (Keeps.setXr (M := M.goto t) hM hr v)).mono (by simp) le_rfl

/-! Where a popped operand resides. -/

def Carries (M : Machine) (fb : Nat) (l : Location) (v vhi : UInt64) : Prop :=
  Resides M fb l v ∧ (l.type = .v128lo → Resides M fb (hiOf l) vhi)

def poolOf : RegKind → List Reg
  | .gp => gpPool
  | .vector => vecPool

theorem pool_eq_poolOf {s : ValueStack} (h : Fit T s) (kind : RegKind) : s.pool kind = poolOf kind := by
  cases kind
  · exact h.2.1
  · exact h.2.2

theorem writable_of_mem_poolOf {r : Reg} {kind : RegKind} (hr : r ∈ poolOf kind) : Writable r := by
  cases kind
  · exact writable_of_mem_gpPool hr
  · exact writable_of_isXmm (isXmm_of_mem_vecPool hr)

section Resides

variable {l : Location} {v : UInt64}

theorem Resides.reg_iff {q : Reg} (hq : l.reg = some q) : Resides M fb l v ↔ InReg M l.type q v := by
  unfold Resides
  rw [hq]

theorem Resides.flag_iff {f : Flag} (hr : l.reg = none) (hf : l.flag = some f) :
    Resides M fb l v ↔ v = if (condOf f).holds M.cpu.flags then 1 else 0 := by
  unfold Resides
  rw [hr, hf]

theorem Resides.mem_iff (hr : l.reg = none) (hf : l.flag = none) :
    Resides M fb l v ↔ M.mem.read (slotAddress fb l.slot) (slotBytes l.type) = some v := by
  unfold Resides
  rw [hr, hf]

@[simp] theorem resides_setRegister (r : Reg) :
    Resides M fb (l.setRegister r) v ↔ InReg M l.type r v := Iff.rfl

@[simp] theorem resides_hiOf_setRegister (r : Reg) :
    Resides M fb (hiOf (l.setRegister r)) v ↔ InReg M .v128hi r v := Iff.rfl

end Resides

theorem Carries.of_keeps {W : Finset Reg} {n : Nat} {l : Location} {v vhi : UInt64}
    (hk : Keeps M M' fb W n) (henv : Env M fb cap) (hreg : ∀ q, l.reg = some q → q ∉ W)
    (hslot : l.reg = none → l.flag = none →
      n ≤ l.slot ∧ l.slot + (if l.type = .v128lo then 2 else 1) ≤ cap)
    (h : Carries M fb l v vhi) : Carries M' fb l v vhi := by
  refine ⟨h.1.of_keeps hk henv hreg fun hr hf => ?_, fun hlo => ?_⟩
  · have := hslot hr hf
    split at this <;> omega
  · refine (h.2 hlo).of_keeps hk henv hreg fun hr hf => ?_
    have := hslot hr hf
    rw [if_pos hlo] at this
    exact ⟨by show n ≤ l.slot + 1; omega, by show l.slot + 1 < cap; omega⟩

theorem getElem?_hiOf {s : ValueStack} (h : Layout s T) {k : Nat} {l : Location}
    (hl : s.slots[k]? = some l) (hlo : l.type = .v128lo) : s.slots[k + 1]? = some (hiOf l) := by
  obtain ⟨l₁, hl₁, hty, hreg⟩ := h.lo_hi hl hlo
  have hnf : ∀ {j : Nat} {x : Location}, s.slots[j]? = some x → x.type ≠ .i32 → x.flag = none :=
    fun hx ht => Option.not_isSome_iff_eq_none.mp fun hf => ht (h.flagged hx hf).2
  have hf := hnf hl (by rw [hlo]; decide)
  have hf₁ := hnf hl₁ (by rw [hty]; decide)
  have hs := h.slot_eq hl
  have hs₁ := h.slot_eq hl₁
  rw [hl₁]
  obtain ⟨t₁, r₁, f₁, s₁⟩ := l₁
  simp only at hty hreg hf₁ hs₁
  simp only [hiOf, hty, hreg, hf₁, hs₁, hf, hs, Nat.zero_add]

theorem Rep.below {s : ValueStack} {x : Location} {n : Nat} (h : Rep M fb cap s vs)
    (hlay : Layout s T) (ht : TopAt s x n) :
    ∃ v vhi, vs[n]? = some v ∧ (x.type = .v128lo → vs[n + 1]? = some vhi) ∧
      Carries M fb x v vhi ∧ Rep M fb cap (s.below n) (vs.take n) := by
  obtain ⟨v, hv⟩ := h.lt_length ht.get
  obtain ⟨vhi, hvhi, hhi⟩ : ∃ vhi, (x.type = .v128lo → vs[n + 1]? = some vhi) ∧
      (x.type = .v128lo → Resides M fb (hiOf x) vhi) := by
    by_cases hlo : x.type = .v128lo
    · have hget := getElem?_hiOf hlay ht.get hlo
      obtain ⟨vhi, hvhi⟩ := h.lt_length hget
      exact ⟨vhi, fun _ => hvhi, fun _ => h.resides hget hvhi⟩
    · exact ⟨0, fun e => absurd e hlo, fun e => absurd e hlo⟩
  have hn : n ≤ s.sp := ht.lt.le
  refine ⟨v, vhi, hv, hvhi, ⟨h.resides ht.get hv, hhi⟩, ⟨h.env, ?_, ?_, ?_⟩⟩
  · rw [List.length_take, h.length_eq, sp_below s hn]
    omega
  · rw [sp_below s hn]
    exact hn.trans h.sp_le
  · intro i l w hl hw
    have hi : i < n := by
      have := Block.lt_size hl
      rwa [show (s.below n).slots.size = (s.below n).sp from rfl, sp_below s hn] at this
    rw [getElem?_below hi] at hl
    rw [List.getElem?_take, if_pos hi] at hw
    exact h.resides hl hw

/-! Popping. -/

section Pop

variable {K : Code} {X : Machine → Prop} {c : Compiler}

theorem silent_popLocation : Silent popLocation := by
  unfold popLocation
  exact .bind (.stk' _) fun _ => .ite' (.stk' _) (.stk' _)

theorem runs_popLocation (hfit : Fit T c.stack) {Q : Location → Compiler → Machine → Prop}
    (hQ : ∀ x n c', popLocation c = .ok (x, c') → TopAt c.stack x n →
      c'.stack = c.stack.below n → Fit (T ∪ x.reg.toFinset) c'.stack → Q x c' M) :
    Runs K X popLocation Q c M := by
  refine Runs.silent silent_popLocation fun x c' he => ?_
  have hw : wp popLocation (fun x c' => ∃ n, TopAt c.stack x n ∧ c'.stack = c.stack.below n ∧
      Fit (T ∪ x.reg.toFinset) c'.stack) c :=
    wp_popLocation (a := c.asm) hfit fun x n _ ht hc h' _ => ⟨n, ht, hc, h'⟩
  obtain ⟨n, ht, hc, h'⟩ := (wp_ok he).mp hw
  exact hQ x n c' he ht hc h'

end Pop

/-! Filling a register. -/

section Fill

variable {K : Code} {X : Machine → Prop} {c : Compiler}

theorem runs_movValue (henv : Env M fb cap) {d s : Reg} {t : SlotType}
    (hd : d ∈ poolOf t.regKind) (hs : s ∈ poolOf t.regKind) {Q : Unit → Compiler → Machine → Prop}
    (hQ : ∀ c' M', c' = { c with asm := c'.asm } → Keeps M M' fb {d} 0 →
      (∀ t' v', t'.regKind = t.regKind → InReg M t' s v' → InReg M' t' d v') → Q () c' M') :
    Runs K X (movValue d s t) Q c M := by
  unfold movValue
  by_cases hds : d = s
  · subst hds
    rw [if_pos (beq_self_eq_true d)]
    exact Runs.pure' (hQ c M rfl ((Keeps.refl M fb).mono (by simp) le_rfl) fun _ _ _ h => h)
  rw [if_neg (by simpa using hds)]
  cases hk : t.regKind with
  | vector =>
    rw [hk] at hd hs
    have hdx := isXmm_of_mem_vecPool hd
    have hsx := isXmm_of_mem_vecPool hs
    have hex : M.exec (Instr.mapTarget K.target (.vec .movdqa d.xmm s.xmm))
        (K.addr (c.asm.instrs.size + 1)) =
        .ok ((M.goto (K.addr (c.asm.instrs.size + 1))).setXr d.xmm (M.xr s.xmm)) := by
      rw [show Instr.mapTarget K.target (.vec .movdqa d.xmm s.xmm) = .vec .movdqa d.xmm s.xmm
        from rfl, Machine.exec_vec]
      rfl
    refine Runs.step (Asm.vec_eq hdx hsx .movdqa _) hex rfl
      (hQ _ _ rfl (Keeps.goto_setXr henv.xmm_size hdx _ _) ?_)
    have hxr := Machine.xr_goto_setXr_self henv.xmm_size (K.addr (c.asm.instrs.size + 1)) d.xmm
      (M.xr s.xmm)
    intro t' v' ht' hin
    rw [hk] at ht'
    cases t' with
    | f32 | f64 | v128lo | v128hi => exact ⟨hd, by rw [hxr]; exact hin.2⟩
    | none | i32 | i64 => cases ht'
  | gp =>
    rw [hk] at hd hs
    have hdg := isGp_of_mem_gpPool hd
    have hsg := isGp_of_mem_gpPool hs
    refine Runs.step (Asm.movRR_eq hdg hsg .w64 _) (Machine.exec_movRR _ _ _) rfl
      (hQ _ _ rfl (Keeps.goto_setGpW henv.gpr_size hdg _ _ _) ?_)
    have hgp := Machine.gp_goto_setGpW_self henv.gpr_size (K.addr (c.asm.instrs.size + 1)) .w64
      d.gpr (M.gp s.gpr)
    intro t' v' ht' hin
    rw [hk] at ht'
    cases t' with
    | i32 => exact ⟨hd, by rw [hgp]; exact hin.2.1, hin.2.2⟩
    | i64 => exact ⟨hd, by rw [hgp]; exact hin.2⟩
    | none => exact hin.elim
    | f32 | f64 | v128lo | v128hi => cases ht'

theorem toNat_read_lt {mem : AddressSpace} {a : UInt64} {n : Nat} {v : UInt64}
    (h : mem.read a n = some v) (hn : n ≤ 8) : v.toNat < 2 ^ (8 * n) := by
  cases hl : mem.locate a n with
  | none => simp [AddressSpace.read, hl] at h
  | some p =>
    rw [AddressSpace.read_of_locate hl, Option.some.injEq] at h
    rw [← h]
    exact toNat_readLE_lt _ _ hn

theorem runs_loadSlot (henv : Env M fb cap) {l : Location} {r : Reg} {v vhi : UInt64}
    (hreg : l.reg = none) (hfl : l.flag = none) (hl : Carries M fb l v vhi)
    (hr : r ∈ poolOf l.regKind) {Q : Unit → Compiler → Machine → Prop}
    (hQ : ∀ c' M', c' = { c with asm := c'.asm } → Keeps M M' fb {r} 0 →
      Carries M' fb (l.setRegister r) v vhi → Q () c' M') :
    Runs K X (loadSlot r l.slot l.type) Q c M := by
  have hread := (Resides.mem_iff hreg hfl).mp hl.1
  have hlt := toNat_read_lt hread (slotBytes_le l.type)
  unfold loadSlot
  refine Runs.bind (Runs.silent (silent_slot l.slot) fun m c₁ h₁ => ?_) fun m => ?_
  · obtain ⟨rfl, rfl⟩ := slot_ok h₁
    have hm : (MemRef.at stackBaseReg ((l.slot * 8 : Nat) : Int)).Valid :=
      MemRef.valid_at (by decide) _
    have haddr := henv.addr_slot l.slot
    obtain ⟨t, reg, flag, slot⟩ := l
    simp only at hreg hfl hread hlt hr haddr ⊢
    subst hreg hfl
    cases t with
    | i32 =>
      have hg := isGp_of_mem_gpPool hr
      refine Runs.step (Asm.load_eq hg hm .u32 _) (Machine.exec_load (by rw [haddr]; exact hread))
        rfl (hQ _ _ rfl (Keeps.goto_setGpW henv.gpr_size hg _ _ _) ⟨?_, fun h => by cases h⟩)
      refine ⟨hr, ?_, hlt⟩
      rw [Machine.gp_goto_setGpW_self henv.gpr_size]
      show v &&& low32 = v
      apply UInt64.toNat_inj.mp
      rw [toNat_and_low32]
      exact Nat.mod_eq_of_lt hlt
    | i64 =>
      have hg := isGp_of_mem_gpPool hr
      refine Runs.step (Asm.load_eq hg hm .u64 _) (Machine.exec_load (by rw [haddr]; exact hread))
        rfl (hQ _ _ rfl (Keeps.goto_setGpW henv.gpr_size hg _ _ _) ⟨?_, fun h => by cases h⟩)
      exact ⟨hr, Machine.gp_goto_setGpW_self henv.gpr_size _ _ _ _⟩
    | f32 =>
      have hx := isXmm_of_mem_vecPool hr
      refine Runs.step (Asm.loadXmm_eq hx hm 4 _)
        (Machine.exec_loadXmm (by decide) (by rw [haddr]; exact hread)) rfl
        (hQ _ _ rfl (Keeps.goto_setXr henv.xmm_size hx _ _) ⟨?_, fun h => by cases h⟩)
      refine ⟨hr, ?_⟩
      rw [Machine.xr_goto_setXr_self henv.xmm_size]
      apply UInt64.toNat_inj.mp
      rw [toNat_and_low32]
      exact Nat.mod_eq_of_lt hlt
    | f64 =>
      have hx := isXmm_of_mem_vecPool hr
      refine Runs.step (Asm.loadXmm_eq hx hm 8 _)
        (Machine.exec_loadXmm (by decide) (by rw [haddr]; exact hread)) rfl
        (hQ _ _ rfl (Keeps.goto_setXr henv.xmm_size hx _ _) ⟨?_, fun h => by cases h⟩)
      exact ⟨hr, by rw [Machine.xr_goto_setXr_self henv.xmm_size]; rfl⟩
    | v128lo =>
      have hx := isXmm_of_mem_vecPool hr
      have hhi : M.mem.read (slotAddress fb (slot + 1)) 8 = some vhi := hl.2 rfl
      refine Runs.step (Asm.loadXmm_eq hx hm 16 _)
        (Machine.exec_loadXmm16 (by rw [haddr]; exact hread)
          (by rw [haddr, slotAddress_succ]; exact hhi)) rfl
        (hQ _ _ rfl (Keeps.goto_setXr henv.xmm_size hx _ _) ⟨?_, fun _ => ?_⟩)
      · exact ⟨hr, by rw [Machine.xr_goto_setXr_self henv.xmm_size]⟩
      · exact ⟨hr, by rw [Machine.xr_goto_setXr_self henv.xmm_size]⟩
    | none | v128hi => exact Runs.silent (.throw' _) fun _ _ h => by cases h
  · cases l.type <;> first
      | exact .asm' (.load _ _ _)
      | exact .asm' (.loadXmm _ _ _)
      | exact .throw' _

theorem setcc_movzx (x : UInt64) (b : Bool) :
    ((x &&& ~~~0xFF) ||| (if b then 1 else 0)) &&& 0xFF = if b then 1 else 0 := by
  have hlow : (if b then 1 else 0 : UInt64) &&& 0xFF = if b then 1 else 0 := by
    cases b <;> decide
  have hclear : x &&& ~~~0xFF &&& 0xFF = 0 := by
    rw [UInt64.and_assoc, show (~~~0xFF &&& 0xFF : UInt64) = 0 by decide, UInt64.and_zero]
  apply UInt64.toBitVec_inj.mp
  rw [UInt64.toBitVec_and, UInt64.toBitVec_or, BitVec.and_or_distrib_right, ← UInt64.toBitVec_and,
    ← UInt64.toBitVec_and, hclear, hlow]
  simp

theorem runs_setFlag (henv : Env M fb cap) {r : Reg} (hr : r ∈ gpPool) (f : Flag) {β : Type}
    {k : Unit → LowerM β} (hg : ∀ x, Grows (k x)) {Q : β → Compiler → Machine → Prop}
    (hQ : ∀ c' M', c' = { c with asm := c'.asm } → Keeps M M' fb {r} 0 →
      InReg M' .i32 r (if (condOf f).holds M.cpu.flags then 1 else 0) → Runs K X (k ()) Q c' M') :
    Runs K X (do asm (Asm.setcc (condOf f) r); asm (Asm.movzx8RR r r); k ()) Q c M := by
  have hg' := isGp_of_mem_gpPool hr
  refine Runs.bind (Runs.step (Asm.setcc_eq hg' _ _) (Machine.exec_setcc _ _) rfl ?_) fun _ =>
    .bind (.asm' (.movzx8RR _ _)) hg
  have hsize : ((M.goto (K.addr (c.asm.instrs.size + 1))).setGpW .w64 r.gpr
      ((M.gp r.gpr &&& ~~~0xFF) ||| if (condOf f).holds M.cpu.flags then 1 else 0)).cpu.gpr.size =
      16 := by
    simp [henv.gpr_size]
  refine Runs.bind (Runs.step (Asm.movzx8RR_eq hg' hg' _) (Machine.exec_movzx8RR _ _) rfl
    (hQ _ _ rfl ?_ ⟨hr, ?_, ?_⟩)) hg
  · exact ((Keeps.goto_setGpW henv.gpr_size hg' _ _ _).trans
      (Keeps.goto_setGpW hsize hg' _ _ _)).mono (by simp) le_rfl
  · rw [Machine.gp_goto_setGpW_self hsize, Machine.gp_goto_setGpW_self henv.gpr_size]
    show ((((M.gp r.gpr &&& ~~~0xFF) ||| if (condOf f).holds M.cpu.flags then 1 else 0) &&& 0xFF)
      &&& low32) = _
    rw [setcc_movzx]
    split <;> decide
  · split <;> decide

theorem InReg.mem_poolOf {t : SlotType} {r : Reg} {v : UInt64} (h : InReg M t r v) :
    r ∈ poolOf t.regKind := by
  cases t with
  | none => exact h.elim
  | i32 | i64 => exact h.1
  | f32 | f64 | v128lo | v128hi => exact h.1

theorem grows_movValue (d s : Reg) (t : SlotType) : Grows (movValue d s t) := by
  unfold movValue
  refine .ite' (.pure' _) ?_
  split
  · exact .asm' (.vec _ _ _)
  · exact .asm' (.movRR _ _ _)

theorem grows_loadSlot (r : Reg) (i : Nat) (t : SlotType) : Grows (loadSlot r i t) := by
  unfold loadSlot
  refine .bind (silent_slot i).grows fun m => ?_
  cases t <;> first
    | exact .asm' (.load _ _ _)
    | exact .asm' (.loadXmm _ _ _)
    | exact .throw' _

theorem grows_fillRegister (l : Location) (r : Reg) : Grows (fillRegister l r) := by
  unfold fillRegister
  simp only [pure_bind]
  split
  · exact .bind (grows_movValue _ _ _) fun _ => .bind (.stk' _) fun _ => .bind (.stk' _) fun _ =>
      .pure' _
  · exact .bind (.asm' (.setcc _ _)) fun _ => .bind (.asm' (.movzx8RR _ _)) fun _ =>
      .bind (.stk' _) fun _ => .pure' _
  · exact .bind (grows_loadSlot _ _ _) fun _ => .bind (.stk' _) fun _ => .pure' _

theorem runs_fillRegister (h : Rep M fb cap c.stack vs) (hlay : Layout c.stack T) {l : Location}
    {r : Reg} {v vhi : UInt64} (hl : Carries M fb l v vhi) (hr : r ∈ poolOf l.regKind)
    (hfree : ¬ c.stack.Holds r) (hflag : l.flag.isSome → l.type = .i32)
    {Q : Location → Compiler → Machine → Prop}
    (hQ : ∀ c' M', fillRegister l r c = .ok (l.setRegister r, c') → Rep M' fb cap c'.stack vs →
      Carries M' fb (l.setRegister r) v vhi → Keeps M M' fb {r} 0 → Q (l.setRegister r) c' M') :
    Runs K X (fillRegister l r) Q c M := by
  have hrep : ∀ (s : ValueStack) M₁, s.slots = c.stack.slots → Keeps M M₁ fb {r} 0 →
      Rep M₁ fb cap s vs := fun s M₁ hs hk =>
    (h.of_keeps hk (by simpa using writable_of_mem_poolOf hr) (by simpa using hfree)
      fun _ _ hl => by simpa using hlay.slot_eq hl).congr_slots hs
  refine Runs.withEq ?_
  obtain ⟨t, reg, flag, slot⟩ := l
  unfold fillRegister
  simp only [pure_bind]
  cases reg with
  | some old =>
    have hres : InReg M t old v := hl.1
    refine Runs.bind (runs_movValue h.env hr hres.mem_poolOf fun c₁ M₁ hc₁ hk₁ htr => ?_)
      fun _ => .bind (.stk' _) fun _ => .bind (.stk' _) fun _ => .pure' _
    refine Runs.bind (Runs.stk' fun _ s₁ hm₁ => ?_) fun _ => .bind (.stk' _) fun _ => .pure' _
    rw [markUnused_eq] at hm₁
    cases hm₁
    refine Runs.bind (Runs.stk' fun _ s₂ hm₂ => Runs.pure' fun he => ?_) fun _ => .pure' _
    rw [markUsed_eq] at hm₂
    cases hm₂
    refine hQ _ _ he (hrep _ M₁ (by rw [hc₁]) hk₁) ⟨htr t v rfl hres, fun hlo => ?_⟩ hk₁
    have hlo' : t = .v128lo := hlo
    exact htr .v128hi vhi (by rw [hlo']; rfl) (hl.2 hlo)
  | none =>
    cases flag with
    | some f =>
      have hty : t = .i32 := hflag rfl
      subst hty
      have hv : v = if (condOf f).holds M.cpu.flags then 1 else 0 := hl.1
      refine runs_setFlag h.env hr f (fun _ => .bind (.stk' _) fun _ => .pure' _)
        fun c₁ M₁ hc₁ hk₁ hin => ?_
      refine Runs.bind (Runs.stk' fun _ s₂ hm₂ => Runs.pure' fun he => ?_) fun _ => .pure' _
      rw [markUsed_eq] at hm₂
      cases hm₂
      exact hQ _ _ he (hrep _ M₁ (by rw [hc₁]) hk₁) ⟨by rw [hv]; exact hin, fun hlo => by cases hlo⟩
        hk₁
    | none =>
      refine Runs.bind (runs_loadSlot h.env rfl rfl hl hr fun c₁ M₁ hc₁ hk₁ hc => ?_)
        fun _ => .bind (.stk' _) fun _ => .pure' _
      refine Runs.bind (Runs.stk' fun _ s₂ hm₂ => Runs.pure' fun he => ?_) fun _ => .pure' _
      rw [markUsed_eq] at hm₂
      cases hm₂
      exact hQ _ _ he (hrep _ M₁ (by rw [hc₁]) hk₁) hc hk₁

/-! Operands into registers. -/

theorem grows_loadDetached (l : Location) (excl : RegSet) : Grows (loadDetached l excl) := by
  unfold loadDetached
  split
  · exact .ite' (.bind (grows_allocate _ _) fun r => grows_fillRegister _ r) (.pure' _)
  · exact .bind (grows_allocate _ _) fun r => grows_fillRegister _ r

theorem runs_loadDetached (h : Rep M fb cap c.stack vs) (hfit : Fit T c.stack) {l : Location}
    {excl : RegSet} {E : Finset Reg} {v vhi : UInt64} (hl : Carries M fb l v vhi)
    (hE : ∀ r, excl.contains r = true → r ∈ E) (hcard : T.card + E.card < 9)
    (hT : ∀ q, l.reg = some q → q ∈ T) (hflag : l.flag.isSome → l.reg = none ∧ l.type = .i32)
    (hslot : l.reg = none → l.flag = none →
      c.stack.sp ≤ l.slot ∧ l.slot + (if l.type = .v128lo then 2 else 1) ≤ cap)
    {Q : Location → Compiler → Machine → Prop}
    (hQ : ∀ r c' M', Fit (insert r (T \ l.reg.toFinset)) c'.stack → r ∉ T \ l.reg.toFinset →
      excl.contains r = false → Rep M' fb cap c'.stack vs → Carries M' fb (l.setRegister r) v vhi →
      Keeps M M' fb {r} c.stack.sp → Q (l.setRegister r) c' M') :
    Runs K X (loadDetached l excl) Q c M := by
  have fresh : Runs K X (do let r ← allocate l.regKind excl; fillRegister l r) Q c M := by
    refine Runs.bind (runs_allocate h hfit l.regKind excl fun r c₁ M₁ ha hpool hR₁ hk₁ => ?_)
      fun r => grows_fillRegister l r
    obtain ⟨hfit₁, hrT, hex⟩ : Fit (insert r T) c₁.stack ∧ r ∉ T ∧ excl.contains r = false :=
      (wp_ok ha).mp (wp_allocate (a := c.asm)
        (Q := fun r c' => Fit (insert r T) c'.stack ∧ r ∉ T ∧ excl.contains r = false) hfit
        (hfit.room hE hcard)
        fun _ _ h' hr hex _ _ => ⟨h', hr, hex⟩)
    have hold : ∀ old, l.reg = some old → old ∈ insert r T ∧ old ≠ r := fun old e =>
      ⟨Finset.mem_insert_of_mem (hT old e), fun he => hrT (he ▸ hT old e)⟩
    refine runs_fillRegister hR₁ hfit₁.1 (hl.of_keeps hk₁ h.env (by simp) hslot)
      (by rw [← pool_eq_poolOf hfit]; exact hpool) (hfit₁.1.temp_free r (Finset.mem_insert_self r T))
      (fun hf => (hflag hf).2) fun c₂ M₂ hf hR₂ hc₂ hk₂ => ?_
    have hfit₂ : Fit (insert r T \ l.reg.toFinset) c₂.stack :=
      (wp_ok hf).mp (wp_fillRegister (a := c₁.asm)
        (Q := fun _ c' => Fit (insert r T \ l.reg.toFinset) c'.stack) hfit₁ (Finset.mem_insert_self r T) hold
        (fun hf => (hflag hf).2) fun _ h' _ _ => h')
    have hnot : r ∉ l.reg.toFinset := fun hm => (hold r (Option.mem_toFinset.mp hm)).2 rfl
    rw [Finset.insert_sdiff_of_notMem _ hnot] at hfit₂
    exact hQ r c₂ M₂ hfit₂ (fun hm => hrT (Finset.mem_sdiff.mp hm).1) hex hR₂ hc₂
      ((hk₁.trans hk₂).mono (by simp) (by simp))
  unfold loadDetached
  cases hreg : l.reg with
  | none => exact fresh
  | some q =>
    dsimp only
    split
    · exact fresh
    · -- the operand's own register will do
      rename_i hex
      have hnf : l.flag = none := by
        cases hf : l.flag with
        | none => rfl
        | some f =>
          have := (hflag (by rw [hf]; rfl)).1
          rw [hreg] at this
          cases this
      have hq := hT q hreg
      rw [hreg, Option.toFinset_some, Finset.sdiff_singleton_eq_erase] at hQ
      have hfin := hQ q c M (by rw [Finset.insert_erase hq]; exact hfit) (Finset.notMem_erase q T)
        (by simpa using hex) h (by rw [setRegister_self hreg hnf]; exact hl)
        ((Keeps.refl M fb).mono (by simp) (Nat.zero_le _))
      rw [setRegister_self hreg hnf] at hfin
      exact Runs.pure' hfin

theorem grows_moveToFixed (l : Location) (fixed : Reg) : Grows (moveToFixed l fixed) := by
  unfold moveToFixed
  refine .ite' (.pure' _) (.bind .get' fun c => ?_)
  split
  · exact .bind (grows_spill _) fun _ => .bind silent_countSpill.grows fun _ =>
      .bind (.stk' _) fun _ => grows_fillRegister _ _
  · exact .bind (.stk' _) fun _ => grows_fillRegister _ _

theorem runs_moveToFixed (h : Rep M fb cap c.stack vs) (hfit : Fit T c.stack) {l : Location}
    {fixed : Reg} {v vhi : UInt64} (hl : Carries M fb l v vhi)
    (hT : ∀ q, l.reg = some q → q ∈ T) (hflag : l.flag.isSome → l.reg = none ∧ l.type = .i32)
    (hslot : l.reg = none → l.flag = none →
      c.stack.sp ≤ l.slot ∧ l.slot + (if l.type = .v128lo then 2 else 1) ≤ cap)
    (hst : RegSet.storable fixed = true) (hpool : fixed ∈ poolOf l.regKind)
    {Q : Location → Compiler → Machine → Prop}
    (hQ : ∀ c' M', Fit (insert fixed (T \ l.reg.toFinset)) c'.stack → Rep M' fb cap c'.stack vs →
      Carries M' fb (l.setRegister fixed) v vhi → Keeps M M' fb {fixed} c.stack.sp →
      Q (l.setRegister fixed) c' M') :
    Runs K X (moveToFixed l fixed) Q c M := by
  unfold moveToFixed
  by_cases heq : l.reg = some fixed
  · -- already there
    rw [if_pos (by simpa using heq)]
    have hnf : l.flag = none := by
      cases hf : l.flag with
      | none => rfl
      | some f =>
        have := (hflag (by rw [hf]; rfl)).1
        rw [heq] at this
        cases this
    rw [heq, Option.toFinset_some, Finset.sdiff_singleton_eq_erase,
      Finset.insert_erase (hT fixed heq)] at hQ
    have hfin := hQ c M hfit h (by rw [setRegister_self heq hnf]; exact hl)
      ((Keeps.refl M fb).mono (by simp) (Nat.zero_le _))
    rw [setRegister_self heq hnf] at hfin
    exact Runs.pure' hfin
  rw [if_neg (by simpa using heq)]
  have hnot : fixed ∉ l.reg.toFinset := fun hm => heq (Option.mem_toFinset.mp hm)
  have tail : ∀ c₁ M₁, Fit T c₁.stack → ¬ c₁.stack.Holds fixed → Rep M₁ fb cap c₁.stack vs →
      Keeps M M₁ fb ∅ c.stack.sp →
      Runs K X (do stk (StackM.markUsed fixed); fillRegister l fixed) Q c₁ M₁ := by
    intro c₁ M₁ hfit₁ hfree hR₁ hk₁
    refine Runs.bind (Runs.stk' fun _ s hm => ?_) fun _ => grows_fillRegister l fixed
    rw [markUsed_eq] at hm
    cases hm
    have hfit₂ : Fit (insert fixed T) { c₁.stack with used := c₁.stack.used.insert fixed } :=
      ⟨hfit₁.1.insert_used hfree hst, hfit₁.2⟩
    have hR₂ : Rep M₁ fb cap { c₁.stack with used := c₁.stack.used.insert fixed } vs :=
      hR₁.congr_slots rfl
    have hold : ∀ old, l.reg = some old → old ∈ insert fixed T ∧ old ≠ fixed := fun old e =>
      ⟨Finset.mem_insert_of_mem (hT old e), fun he => heq (he ▸ e)⟩
    refine runs_fillRegister (c := { c₁ with stack := { c₁.stack with used := _ } }) hR₂ hfit₂.1 (hl.of_keeps hk₁ h.env (by simp) hslot)
      hpool hfree (fun hf => (hflag hf).2) fun c₂ M₂ hf hR₂ hc₂ hk₂ => ?_
    have hfit₃ : Fit (insert fixed T \ l.reg.toFinset) c₂.stack :=
      (wp_ok hf).mp (wp_fillRegister (c := { c₁ with stack := { c₁.stack with used := _ } }) (a := _)
        (Q := fun _ c' => Fit (insert fixed T \ l.reg.toFinset) c'.stack) hfit₂
        (Finset.mem_insert_self fixed T) hold (fun hf => (hflag hf).2) fun _ h' _ _ => h')
    rw [Finset.insert_sdiff_of_notMem _ hnot] at hfit₃
    exact hQ c₂ M₂ hfit₃ hR₂ hc₂ ((hk₁.trans hk₂).mono (by simp) (by simp))
  refine Runs.bind (Runs.get' ?_) fun c₀ => ?_
  · split
    · -- the value holding `fixed` is spilled first
      rename_i owner howner
      refine Runs.bind (runs_spill h hfit.1 owner fun c₁ M₁ hsp hR₁ hk₁ => ?_) fun _ =>
        .bind silent_countSpill.grows fun _ => .bind (.stk' _) fun _ => grows_fillRegister l fixed
      obtain ⟨lo, hlo, hro, -⟩ := registerOwner_some howner
      obtain ⟨hfit₁, hfree⟩ : Fit T c₁.stack ∧ ¬ c₁.stack.Holds fixed :=
        (wp_ok hsp).mp (wp_spill (a := c.asm)
          (Q := fun _ c' => Fit T c'.stack ∧ ¬ c'.stack.Holds fixed) hfit owner
          fun _ h' _ _ _ hgone => ⟨h', hgone lo fixed hlo hro⟩)
      refine Runs.bind (Runs.silent silent_countSpill fun _ c₂ h₂ => ?_) fun _ =>
        .bind (.stk' _) fun _ => grows_fillRegister l fixed
      cases h₂
      exact tail _ M₁ hfit₁ hfree hR₁ hk₁
    · rename_i hnone
      exact tail c M hfit
        (hfit.1.not_holds_of_registerOwner (Option.eq_none_iff_forall_ne_some.mpr hnone)) h
        ((Keeps.refl M fb).mono le_rfl (Nat.zero_le _))
  · split
    · exact .bind (grows_spill _) fun _ => .bind silent_countSpill.grows fun _ =>
        .bind (.stk' _) fun _ => grows_fillRegister l fixed
    · exact .bind (.stk' _) fun _ => grows_fillRegister l fixed

end Fill

/-! Pushing a result. -/

theorem Rep.push {s : ValueStack} (h : Rep M fb cap s vs) (hsp : s.sp < cap) {t : SlotType}
    {r : Option Reg} {f : Option Flag} {v : UInt64}
    (hv : Resides M fb { type := t, reg := r, flag := f, slot := s.sp } v) :
    Rep M fb cap (s.pushLoc t r f) (vs ++ [v]) where
  env := h.env
  length_eq := by rw [List.length_append, h.length_eq, pushLoc_sp, List.length_singleton]
  sp_le := by rw [pushLoc_sp]; omega
  resides i l w hl hw := by
    simp only [ValueStack.pushLoc, Array.getElem?_push] at hl
    have hlen : vs.length = s.slots.size := h.length_eq
    split at hl
    · -- the pushed slot
      rename_i hi
      cases hl
      rw [List.getElem?_append_right (by omega), hi, ← hlen, Nat.sub_self] at hw
      cases hw
      exact hv
    · have hi : i < s.slots.size := by
        have := Block.lt_size hl
        omega
      rw [List.getElem?_append_left (by omega)] at hw
      exact h.resides hl hw

theorem Rep.pushLoc {s : ValueStack} (h : Rep M fb cap s vs) (hsp : s.sp < cap) {t : SlotType}
    {r : Reg} {v : UInt64} (hr : InReg M t r v) :
    Rep M fb cap (s.pushLoc t (some r) none) (vs ++ [v]) :=
  h.push hsp hr

theorem Rep.pushReg {s : ValueStack} (h : Rep M fb cap s vs) {t : SlotType} {r : Reg}
    {v vhi : UInt64} (hsp : s.sp + (if t = .v128lo then 2 else 1) ≤ cap) (hr : InReg M t r v)
    (hhi : t = .v128lo → InReg M .v128hi r vhi) :
    Rep M fb cap (s.pushReg r t) (vs ++ if t = .v128lo then [v, vhi] else [v]) := by
  unfold ValueStack.pushReg
  by_cases hlo : t = .v128lo
  · rw [if_pos hlo] at hsp ⊢
    rw [if_pos hlo]
    have h₁ := h.pushLoc (by omega) (hlo ▸ hr)
    have h₂ := h₁.pushLoc (by rw [pushLoc_sp]; omega) (hhi hlo)
    rwa [List.append_assoc, List.singleton_append] at h₂
  · rw [if_neg hlo] at hsp ⊢
    rw [if_neg hlo]
    exact h.pushLoc (by omega) hr

theorem Silent.discard' {m : LowerM α} (h : Silent m) : Silent (discard m) := by
  intro c x c' hm
  simp only [discard, Functor.mapConst, Function.comp, StateT.map] at hm
  cases hmc : m c with
  | error e =>
    rw [hmc] at hm
    cases hm
  | ok p =>
    rw [hmc] at hm
    cases hm
    exact h c p.1 p.2 hmc

theorem silent_pushRegister (r : Reg) (t : SlotType) : Silent (pushRegister r t) := by
  unfold pushRegister
  exact .ite' (.discard' (.stk' _)) (.discard' (.stk' _))

section Push

variable {K : Code} {X : Machine → Prop} {c : Compiler}

theorem runs_pushRegister (h : Rep M fb cap c.stack vs) (hfit : Fit T c.stack) {r : Reg}
    (hrT : r ∈ T) {t : SlotType} (ht : t ≠ .v128hi) {v vhi : UInt64} (hr : InReg M t r v)
    (hhi : t = .v128lo → InReg M .v128hi r vhi)
    (hsp : c.stack.sp + (if t = .v128lo then 2 else 1) ≤ cap)
    {Q : Unit → Compiler → Machine → Prop}
    (hQ : ∀ c', Fit (T.erase r) c'.stack →
      Rep M fb cap c'.stack (vs ++ if t = .v128lo then [v, vhi] else [v]) → Q () c' M) :
    Runs K X (pushRegister r t) Q c M := by
  refine Runs.silent (silent_pushRegister r t) fun _ c' he => ?_
  obtain ⟨hfit', hst⟩ := (wp_ok he).mp (wp_pushRegister (a := c.asm)
    (Q := fun _ c' => Fit (T.erase r) c'.stack ∧ c'.stack = c.stack.pushReg r t) hfit hrT ht
    fun _ h' hs _ => ⟨h', hs⟩)
  exact hQ c' hfit' (by rw [hst]; exact h.pushReg hsp hr hhi)

end Push

/-! Exits. -/

theorem Env.goto (h : Env M fb cap) (t : UInt64) : Env (M.goto t) fb cap :=
  h.of_keeps (Keeps.goto M fb t) (by simp)

theorem Env.write_ctx (h : Env M fb cap) {field n : Nat} (hn : field + n ≤ Abi.ctxSize)
    {v : UInt64} {mem : AddressSpace} (hw : M.mem.write (Dispatch.ctxAddr field) n v = some mem) :
    Env { M with mem } fb cap where
  gpr_size := h.gpr_size
  xmm_size := h.xmm_size
  context := h.context
  stackBase := h.stackBase
  locate_context hn' := (AddressSpace.locate_write hw _ _).trans (h.locate_context hn')
  locate_slot hi hn' := (AddressSpace.locate_write hw _ _).trans (h.locate_slot hi hn')
  locate_rsp := by
    obtain ⟨off, hl⟩ := h.locate_rsp
    exact ⟨off, (AddressSpace.locate_write hw _ _).trans hl⟩
  hostReturn := by
    obtain ⟨off, hl⟩ := h.locate_rsp
    rw [show ({ M with mem } : Machine).gp Machine.rsp = M.gp Machine.rsp from rfl,
      AddressSpace.read_write_of_separate hw (h.locate_ctxAddr hn) hl (.inl (by decide))]
    exact h.hostReturn

theorem read_write_of_lt {m m' : AddressSpace} {a v : UInt64} {n : Nat}
    (hw : m.write a n v = some m') (hn : n ≤ 8) (hv : v.toNat < 2 ^ (8 * n)) :
    m'.read a n = some v := by
  obtain ⟨w, hr, hwv⟩ := AddressSpace.read_write_self hw hn
  rw [hr, Nat.mod_eq_of_lt hv] at *
  rw [UInt64.toNat_inj.mp hwv]

theorem disp_ok {i k : Nat} {space : IndexSpace} {x : Int} {c c' : Compiler}
    (h : disp i k space c = .ok (x, c')) : x = ((i * k : Nat) : Int) ∧ c' = c := by
  unfold disp at h
  by_cases hi : i * k < Nat.pow 2 31
  · rw [if_pos hi] at h
    cases h
    exact ⟨rfl, rfl⟩
  · rw [if_neg hi] at h
    cases h

theorem grows_writeExitStatus (st : Status) : Grows (writeExitStatus st) := by
  unfold writeExitStatus
  exact .bind .get' fun _ => .bind (silent_disp _ _ _).grows fun _ =>
    .bind (.asm' (.storeImm32 _ _)) fun _ => .asm' (.storeImm64 _ _)

theorem grows_exit (st : Status) : Grows (exit st) := by
  unfold exit
  exact .bind (grows_writeExitStatus st) fun _ => .bind (.asm' .bindNew) fun _ =>
    .bind (.asm' (.leaLabel _ _)) fun _ => .bind (.asm' (.store _ _ _)) fun _ => .asm' (.add _)

/-! Exits write a few fields of the context and nothing else. -/

def Misses (i off k f n : Nat) : Prop := Area.context.index ≠ i ∨ off + k ≤ f ∨ f + n ≤ off

/-- `mem'` is `mem` with at most the context fields `fs` (offset and length) written: every
access is located as before, and one that misses those fields reads as before. -/
structure CtxWrites (mem mem' : AddressSpace) (fs : List (Nat × Nat)) : Prop where
  locate_eq : ∀ a k, mem'.locate a k = mem.locate a k
  read_eq : ∀ {a : UInt64} {k i off : Nat}, mem.locate a k = some (i, off) →
    (∀ p ∈ fs, Misses i off k p.1 p.2) → mem'.read a k = mem.read a k

namespace CtxWrites

variable {mem mem₁ mem₂ : AddressSpace} {fs gs : List (Nat × Nat)}

theorem refl (mem : AddressSpace) : CtxWrites mem mem [] :=
  ⟨fun _ _ => rfl, fun _ _ => rfl⟩

theorem trans (h₁ : CtxWrites mem mem₁ fs) (h₂ : CtxWrites mem₁ mem₂ gs) :
    CtxWrites mem mem₂ (fs ++ gs) where
  locate_eq a k := (h₂.locate_eq a k).trans (h₁.locate_eq a k)
  read_eq hl hm := by
    have hl₁ := (h₁.locate_eq _ _).trans hl
    rw [h₂.read_eq hl₁ fun p hp => hm p (List.mem_append_right _ hp),
      h₁.read_eq hl fun p hp => hm p (List.mem_append_left _ hp)]

theorem mono (h : CtxWrites mem mem₁ fs)
    (hfs : ∀ p ∈ fs, ∃ q ∈ gs, q.1 ≤ p.1 ∧ p.1 + p.2 ≤ q.1 + q.2) : CtxWrites mem mem₁ gs :=
  ⟨h.locate_eq, fun hl hm => h.read_eq hl fun p hp => by
    obtain ⟨q, hq, h₁, h₂⟩ := hfs p hp
    rcases hm q hq with h | h | h
    · exact .inl h
    · exact .inr (.inl (by omega))
    · exact .inr (.inr (by omega))⟩

theorem of_write {f n : Nat} {v : UInt64}
    (hl : mem.locate (Dispatch.ctxAddr f) n = some (Area.context.index, f))
    (hw : mem.write (Dispatch.ctxAddr f) n v = some mem₁) : CtxWrites mem mem₁ [(f, n)] where
  locate_eq := AddressSpace.locate_write hw
  read_eq hl' hm := AddressSpace.read_write_of_separate hw hl hl' (hm _ (List.mem_singleton_self _))

theorem read_ctx (h : CtxWrites mem mem₁ fs) {g k : Nat}
    (hl : mem.locate (Dispatch.ctxAddr g) k = some (Area.context.index, g))
    (hm : ∀ p ∈ fs, g + k ≤ p.1 ∨ p.1 + p.2 ≤ g) :
    mem₁.read (Dispatch.ctxAddr g) k = mem.read (Dispatch.ctxAddr g) k :=
  h.read_eq hl fun p hp => .inr (hm p hp)

end CtxWrites

section Exit

variable {K : Code} {X : Machine → Prop} {c : Compiler}

theorem runs_storeCtx {m : AsmM Unit} {i : Instr Nat} (hm : m c.asm = .ok ((), Asm.pushed c.asm i))
    (henv : Env M fb cap) {field n : Nat} (hn : field + n ≤ Abi.ctxSize) {v : UInt64}
    (hi : ∀ t, M.exec (i.mapTarget K.target) t = (M.goto t).write (M.addr (ctx field).toMem) n v)
    {Q : Unit → Compiler → Machine → Prop}
    (hQ : ∀ mem, M.mem.write (Dispatch.ctxAddr field) n v = some mem →
      Q () { c with asm := Asm.pushed c.asm i }
        { M.goto (K.addr (c.asm.instrs.size + 1)) with mem }) :
    Runs K X (asm m) Q c M := by
  have hw := AddressSpace.write_of_locate (henv.locate_ctxAddr hn) v
  refine Runs.step hm ?_ rfl (hQ _ hw)
  rw [hi, henv.addr_ctx]
  exact Machine.write_eq_ok hw

theorem runs_writeExitStatus (henv : Env M fb cap) (st : Status)
    {Q : Unit → Compiler → Machine → Prop}
    (hQ : ∀ c' M', c' = { c with asm := c'.asm } → Env M' fb cap →
      M'.mem.read (Dispatch.ctxAddr Abi.ctxStatus) 4 = some st.code.toUInt64 →
      M'.mem.read (Dispatch.ctxAddr Abi.ctxStackPointer) 8 = some c.stack.sp.toUInt64 →
      CtxWrites M.mem M'.mem [(120, 4), (88, 8)] → Q () c' M') :
    Runs K X (writeExitStatus st) Q c M := by
  unfold writeExitStatus
  refine Runs.bind (Runs.get' ?_) fun _ => .bind (silent_disp _ _ _).grows fun _ =>
    .bind (.asm' (.storeImm32 _ _)) fun _ => .asm' (.storeImm64 _ _)
  refine Runs.bind (Runs.silent (silent_disp _ _ _) fun sp c₁ h₁ => ?_) fun _ =>
    .bind (.asm' (.storeImm32 _ _)) fun _ => .asm' (.storeImm64 _ _)
  obtain ⟨rfl, rfl⟩ := disp_ok h₁
  refine Runs.bind (runs_storeCtx (Asm.storeImm32_eq (MemRef.valid_at (by decide) _) _ _) henv
    (show 120 + 4 ≤ Abi.ctxSize by decide) (fun _ => Machine.exec_storeImm32 _ _)
    fun mem₁ hw₁ => ?_) fun _ => .asm' (.storeImm64 _ _)
  have henv₁ := (henv.goto (K.addr (c₁.asm.instrs.size + 1))).write_ctx (by decide) hw₁
  refine runs_storeCtx (Asm.storeImm64_eq (MemRef.valid_at (by decide) _) _ _) henv₁
    (show 88 + 8 ≤ Abi.ctxSize by decide) (fun _ => Machine.exec_storeImm64 _ _)
    fun mem₂ hw₂ => hQ _ _ rfl ((henv₁.goto _).write_ctx (by decide) hw₂) ?_ ?_ ?_
  · -- the stack pointer lies below the status
    exact (AddressSpace.read_write_of_separate hw₂ (henv₁.locate_ctxAddr (by decide))
      (henv₁.locate_ctxAddr (show 120 + 4 ≤ Abi.ctxSize by decide)) (.inr (.inr (by decide)))).trans
      (read_write_of_lt hw₁ (by decide) (by rw [UInt32.toNat_toUInt64]; exact st.code.toNat_lt))
  · rw [Nat.mul_one, ofInt_natCast_eq] at hw₂
    exact read_write_of_lt hw₂ le_rfl (UInt64.toNat_lt _)
  · exact (CtxWrites.of_write (henv.locate_ctxAddr (by decide)) hw₁).trans
      (CtxWrites.of_write (henv₁.locate_ctxAddr (by decide)) hw₂)

theorem runs_exit_writes (henv : Env M fb cap) (st : Status) {Q : Unit → Compiler → Machine → Prop}
    (hX : ∀ M', Exited M' st c.stack.sp → CtxWrites M.mem M'.mem [(120, 4), (88, 8), (128, 8)] →
      X M') : Runs K X (exit st) Q c M := by
  unfold exit
  refine Runs.bind (runs_writeExitStatus henv st fun c₁ M₁ hc₁ henv₁ hst hsp hw₁ => ?_) fun _ =>
    .bind (.asm' .bindNew) fun _ => .bind (.asm' (.leaLabel _ _)) fun _ =>
      .bind (.asm' (.store _ _ _)) fun _ => .asm' (.add _)
  refine Runs.bind (Runs.bindNew fun here a₂ _ => ?_) fun _ =>
    .bind (.asm' (.leaLabel _ _)) fun _ => .bind (.asm' (.store _ _ _)) fun _ => .asm' (.add _)
  refine Runs.bind (Runs.step (Asm.leaLabel_eq (by decide) _ _) (Machine.exec_leaRip _ _) rfl ?_)
    fun _ => .bind (.asm' (.store _ _ _)) fun _ => .asm' (.add _)
  have henv₂ := Env.of_keeps (Keeps.goto_setGpW (henv₁.goto (K.addr a₂.instrs.size)).gpr_size
    (r := memoryBaseReg) (by decide) (K.addr (a₂.instrs.size + 1)) .w64 (K.target here))
    (by simp [writable_memoryBaseReg]) (henv₁.goto _)
  refine Runs.bind (runs_storeCtx (Asm.store_eq (by decide) (MemRef.valid_at (by decide) _) _ _)
    henv₂ (show 128 + 8 ≤ Abi.ctxSize by decide) (fun _ => Machine.exec_store _ _ _)
    fun mem₃ hw₃ => ?_) fun _ => .asm' (.add _)
  have henv₃ := (henv₂.goto _).write_ctx (by decide) hw₃
  refine Runs.emit (Asm.add_eq _ _)
    ⟨_, Machine.exec_ret henv₃.hostReturn, .inl (hX _ ⟨rfl, ?_, ?_⟩ ?_)⟩
  · exact (AddressSpace.read_write_of_separate hw₃ (henv₂.locate_ctxAddr (by decide))
      (henv₂.locate_ctxAddr (show 120 + 4 ≤ Abi.ctxSize by decide)) (.inr (.inl (by decide)))).trans
      hst
  · exact (AddressSpace.read_write_of_separate hw₃ (henv₂.locate_ctxAddr (by decide))
      (henv₂.locate_ctxAddr (show 88 + 8 ≤ Abi.ctxSize by decide)) (.inr (.inl (by decide)))).trans
      hsp
  · exact hw₁.trans (CtxWrites.of_write (henv₂.locate_ctxAddr (by decide)) hw₃)

theorem runs_exit (henv : Env M fb cap) (st : Status) {Q : Unit → Compiler → Machine → Prop}
    (hX : ∀ M', Exited M' st c.stack.sp → X M') : Runs K X (exit st) Q c M :=
  runs_exit_writes henv st fun M' hE _ => hX M' hE

end Exit

end OnePassJit.Amd64
