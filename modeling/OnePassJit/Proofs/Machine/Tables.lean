import OnePassJit.Proofs.Engine.TableGrowth
import OnePassJit.Proofs.Machine.ExitCheck
import OnePassJit.Proofs.Machine.Entry

/-!
`table.grow` and `table.size` on the machine.

The code of `table.grow` gives the table index a slot of its own above the two operands,
writes every live value back to its slot, stores the index, and leaves to the host with the
`table.grow` builtin (`runs_tableGrow`): what it leaves is a `GrowRequest`. The host reads
the three slots below the stack pointer, grows the table and writes the answer over the
lowest operand (`GrowRequest.serviced`); the stack the lowering leaves has one `i32` in
memory at that slot above the values below the operands (`tableGrow_stack`), so the answer
stands in place of the operands. `table.size` reads the length from the table's record
through the context's list of tables (`runs_tableSize`), the field the host keeps up to date.
-/

namespace OnePassJit.Amd64

open Lower ValueStack StackM

/-! Words read in part. -/

theorem toNat_readLE_prefix (b : ByteArray) (off : Nat) {m n : Nat} (hmn : m ≤ n) (hn : n ≤ 8) :
    (readLE b off n).toNat % 2 ^ (8 * m) = (readLE b off m).toNat := by
  induction m generalizing off n with
  | zero => rw [Nat.mul_zero, Nat.pow_zero, Nat.mod_one, readLE_zero]; rfl
  | succ m ih =>
    cases n with
    | zero => omega
    | succ n =>
    rw [toNat_readLE_succ b off (by omega), toNat_readLE_succ b off (by omega),
      ← ih (off + 1) (show m ≤ n by omega) (show n ≤ 8 by omega), show 8 * (m + 1) = 8 + 8 * m by omega, Nat.pow_add,
      Nat.mod_mul]
    have hb := (byteAt b off).toNat_lt
    have hlow : ((byteAt b off).toNat + 256 * (readLE b (off + 1) n).toNat) % 2 ^ 8 =
        (byteAt b off).toNat := by omega
    have hhigh : ((byteAt b off).toNat + 256 * (readLE b (off + 1) n).toNat) / 2 ^ 8 =
        (readLE b (off + 1) n).toNat := by omega
    rw [hlow, hhigh]

theorem toUInt32_readLE_eight (b : ByteArray) (off : Nat) :
    (readLE b off 8).toUInt32 = (readLE b off 4).toUInt32 := by
  apply UInt32.toNat_inj.mp
  rw [UInt64.toNat_toUInt32, UInt64.toNat_toUInt32, ← toNat_readLE_prefix b off (show 4 ≤ 8 by omega) le_rfl,
    Nat.mod_mod_of_dvd _ (by decide)]

theorem toUInt32_ofInt_signed32 (v : UInt32) : (UInt64.ofInt (Lower.signed32 v)).toUInt32 = v := by
  apply UInt32.toNat_inj.mp
  have hv := v.toNat_lt
  unfold Lower.signed32
  rw [UInt64.toNat_toUInt32, UInt64.ofInt, UInt64.toNat_ofNat']
  split <;> simp only [Nat.pow_eq, Nat.reducePow] at * <;> omega

theorem AddressSpace.locate_of_le {m : AddressSpace} {a : UInt64} {n k i off : Nat}
    (h : m.locate a n = some (i, off)) (hk : k ≤ n) : m.locate a k = some (i, off) := by
  obtain ⟨r, hr, hfit⟩ := AddressSpace.locate_eq_some h
  obtain ⟨hi, ho⟩ := AddressSpace.locate_eq_split h
  exact AddressSpace.locate_eq_of_offset a hi.symm ho.symm hr (by omega)

theorem AddressSpace.read_four {m : AddressSpace} {a v : UInt64} (h : m.read a 8 = some v)
    (hv : v.toNat < 2 ^ 32) : m.read a 4 = some v := by
  cases hl : m.locate a 8 with
  | none => simp [AddressSpace.read, hl] at h
  | some p =>
    obtain ⟨i, off⟩ := p
    rw [AddressSpace.read_of_locate hl, Option.some.injEq] at h
    rw [AddressSpace.read_of_locate (AddressSpace.locate_of_le hl (by omega))]
    congr 1
    apply UInt64.toNat_inj.mp
    rw [← toNat_readLE_prefix _ off (show 4 ≤ 8 by omega) le_rfl, h, Nat.mod_eq_of_lt hv]

/-! Leaving `table.grow` to the host. -/

theorem silent_discardSlots : ∀ n, Silent (discardSlots n)
  | 0 => .pure' _
  | n + 1 => .bind (.stk' _) fun l => .bind (silent_release l) fun _ => silent_discardSlots n

/-- What generated code leaves for the host's `table.grow`, from a machine `M` that held the
values `vs` below the two operands of the stack `s`: it has exited with the builtin recorded
and the stack pointer past the operands and the table index, which lie in their slots (the
growth's initial reference, the growth, the index), and the values below them lie in theirs;
it locates every access and reads the frame base as `M` did. -/
structure GrowRequest (M M' : Machine) (fb : Nat) (s : ValueStack) (vs : List UInt64)
    (init delta : UInt64) (index : UInt32) : Prop where
  exited : Exited M' .callBuiltin (vs.length + 3)
  builtin : M'.mem.read (Dispatch.ctxAddr Abi.ctxBuiltin) 4 = some Builtin.tableGrow.code.toUInt64
  locate : ∀ a k, M'.mem.locate a k = M.mem.locate a k
  stackBase : M'.mem.read (Dispatch.ctxAddr Abi.ctxStackBase) 8 =
    M.mem.read (Dispatch.ctxAddr Abi.ctxStackBase) 8
  init : M'.mem.read (slotAddress fb vs.length) 8 = some init
  delta : M'.mem.read (slotAddress fb (vs.length + 1)) 4 = some delta
  index : M'.mem.read (slotAddress fb (vs.length + 2)) 8 = some (UInt64.ofInt (signed32 index))
  below : ∀ ⦃i : Nat⦄ ⦃l : Location⦄ ⦃v : UInt64⦄, s.slots[i]? = some l → vs[i]? = some v →
    M'.mem.read (slotAddress fb i) (slotBytes l.type) = some v

variable {K : Code} {c : Compiler} {M : Machine} {fb cap : Nat}

theorem Rep.read_slot_of_released {s s' : ValueStack} {vs : List UInt64}
    (hR : Rep M fb cap s' vs) (hmv : Moves s s') (hmem : InMemory s') (hfit : Fit ∅ s')
    {j : Nat} {l : Location} {v : UInt64} (hl : s.slots[j]? = some l) (hv : vs[j]? = some v) :
    M.mem.read (slotAddress fb j) (slotBytes l.type) = some v := by
  have hj : j < s'.slots.size := by
    rw [hmv.size_eq]
    exact (Array.getElem?_eq_some_iff.mp hl).1
  have hl' : s'.slots[j]? = some s'.slots[j] := Array.getElem?_eq_getElem hj
  obtain ⟨l₁, hl₁, hty, -⟩ := hmv.slot hl'
  rw [hl] at hl₁
  cases hl₁
  have hon := hmem hl'
  simp only [Location.onStack, Bool.and_eq_true, Option.isNone_iff_eq_none] at hon
  have := (Resides.mem_iff hon.1 hon.2).mp (hR.resides hl' hv)
  rwa [hfit.1.slot_eq hl', Nat.zero_add, hty] at this

/-- The code of `table.grow` leaves to the host with a request for it: no code after it runs
before the host has serviced it. -/
theorem runs_tableGrow {vs : List UInt64} {init delta : UInt64}
    (h : Rep M fb cap c.stack (vs ++ [init, delta])) (hfit : Fit ∅ c.stack) (hroom : c.stack.sp < cap)
    (hinit : c.stack.slots[vs.length]?.map Location.type = some .i64)
    (hdelta : c.stack.slots[vs.length + 1]?.map Location.type = some .i32) (index : UInt32) :
    Runs K (fun M' => GrowRequest M M' fb c.stack vs init delta index) (tableGrow index)
      (fun _ _ _ => False) c M := by
  have hsp : c.stack.sp = vs.length + 2 := by
    rw [← h.length_eq, List.length_append]
    rfl
  unfold tableGrow
  refine Runs.bind (Runs.silent (Silent.discard' (.stk' _)) fun _ c₁ he₁ => ?_) fun _ =>
    .bind .get' fun _ => .bind (silent_slot _).grows fun _ => .bind grows_releaseAllToStack fun _ =>
      .bind (.asm' (.storeImm64 _ _)) fun _ => .bind (grows_callBuiltin _) fun _ =>
        .bind (silent_discardSlots 3).grows fun _ => (Silent.discard' (.stk' _)).grows
  obtain ⟨hfit₁, hs₁⟩ := (wp_ok (Q := fun _ c' => Fit ∅ c'.stack ∧
      c'.stack = c.stack.pushLoc .i32 none none) he₁).mp ((wp_discard _).mpr (wp_stk.mpr
    fun _ s hs => by
      cases hs
      exact ⟨keeps_pushOnStack (by decide) (by decide) _ _ _ hfit rfl, rfl⟩))
  obtain ⟨junk, hjunk⟩ : ∃ v, M.mem.read (slotAddress fb c.stack.sp) (slotBytes .i32) = some v :=
    ⟨_, AddressSpace.read_of_locate (h.env.locate_slot hroom (by decide))⟩
  have h₁ : Rep M fb cap c₁.stack (vs ++ [init, delta] ++ [junk]) := by
    rw [hs₁]
    exact h.push hroom ((Resides.mem_iff rfl rfl).mpr hjunk)
  have hsp₁ : c₁.stack.sp = c.stack.sp + 1 := by rw [hs₁, sp_pushLoc]
  refine Runs.get_bind (Runs.bind (Runs.silent (silent_slot _) fun m c₂ h₂ => ?_) fun _ =>
    .bind grows_releaseAllToStack fun _ => .bind (.asm' (.storeImm64 _ _)) fun _ =>
      .bind (grows_callBuiltin _) fun _ =>
        .bind (silent_discardSlots 3).grows fun _ => (Silent.discard' (.stk' _)).grows)
  obtain ⟨rfl, rfl⟩ := slot_ok h₂
  have hidx : c₂.stack.sp - 1 = vs.length + 2 := by omega
  refine Runs.bind (runs_releaseAllToStack h₁ hfit₁ (by simp) fun c₃ M₃ he₃ hR₃ hk₃ => ?_) fun _ =>
    .bind (.asm' (.storeImm64 _ _)) fun _ => .bind (grows_callBuiltin _) fun _ =>
      .bind (silent_discardSlots 3).grows fun _ => (Silent.discard' (.stk' _)).grows
  obtain ⟨hmv₃, hmem₃, hfit₃⟩ := (wp_ok (Q := fun _ c' => Moves c₂.stack c'.stack ∧
      InMemory c'.stack ∧ Fit ∅ c'.stack) he₃).mp
    (wp_releaseAllToStack (a := c₂.asm) hfit₁ (by simp) fun _ h' hm' hin' _ => ⟨hm', hin', h'⟩)
  have hres₃ : ∀ ⦃j l v⦄, c.stack.slots[j]? = some l → (vs ++ [init, delta])[j]? = some v →
      M₃.mem.read (slotAddress fb j) (slotBytes l.type) = some v := by
    intro j l v hl hv
    have hj := (Array.getElem?_eq_some_iff.mp hl).1
    refine hR₃.read_slot_of_released hmv₃ hmem₃ hfit₃ ?_
      (List.getElem?_append_left (List.getElem?_eq_some_iff.mp hv).1 ▸ hv)
    rw [hs₁]
    simp only [ValueStack.pushLoc, Array.getElem?_push]
    rw [if_neg (by simp only [ValueStack.sp] at *; omega)]
    exact hl
  have hroom' : c₂.stack.sp - 1 < cap := by omega
  obtain ⟨mem₄, hw₄⟩ := (hR₃.env.goto (K.addr (c₃.asm.instrs.size + 1))).write_slot hroom'
    (show 8 ≤ 8 from le_rfl) (UInt64.ofInt (signed32 index))
  have hex₄ : M₃.exec (Instr.mapTarget K.target (.storeImm64
      (MemRef.at stackBaseReg (((c₂.stack.sp - 1) * 8 : Nat) : Int)).toMem (signed32 index)))
      (K.addr (c₃.asm.instrs.size + 1)) =
      .ok { M₃.goto (K.addr (c₃.asm.instrs.size + 1)) with mem := mem₄ } := by
    rw [show Instr.mapTarget K.target (.storeImm64 _ (signed32 index)) =
      .storeImm64 (MemRef.at stackBaseReg (((c₂.stack.sp - 1) * 8 : Nat) : Int)).toMem (signed32 index)
      from rfl, Machine.exec_storeImm64, hR₃.env.addr_slot]
    exact Machine.write_eq_ok hw₄
  have henv₄ : Env { M₃.goto (K.addr (c₃.asm.instrs.size + 1)) with mem := mem₄ } fb cap :=
    (hR₃.env.goto _).of_keeps ((hR₃.env.goto _).keeps_write_slot hroom' le_rfl hw₄) (by simp)
  refine Runs.bind (Runs.step (Asm.storeImm64_eq (MemRef.valid_at (by decide) _) _ _) hex₄ rfl
    (Runs.bind (runs_callBuiltin henv₄ .tableGrow fun M' hex hb hwr => ?_) fun _ =>
      .bind (silent_discardSlots 3).grows fun _ => (Silent.discard' (.stk' _)).grows)) fun _ =>
    .bind (grows_callBuiltin _) fun _ =>
      .bind (silent_discardSlots 3).grows fun _ => (Silent.discard' (.stk' _)).grows
  have hkeep : ∀ {j k : Nat}, j < cap → j ≠ c₂.stack.sp - 1 → k ≤ 8 →
      M'.mem.read (slotAddress fb j) k = M₃.mem.read (slotAddress fb j) k := by
    intro j k hj hji hk
    rw [hwr.read_eq (henv₄.locate_slot hj hk) fun _ _ => .inl (by decide)]
    exact (hR₃.env.goto _).read_write_slot_other hroom' le_rfl hw₄ hj hji hk
  have hsp₃ : c₃.stack.sp = vs.length + 3 := by
    rw [ValueStack.sp, hmv₃.size_eq, ← ValueStack.sp, hsp₁, hsp]
  obtain ⟨li, hli, hlit⟩ := Option.map_eq_some_iff.mp hinit
  obtain ⟨ld, hld, hldt⟩ := Option.map_eq_some_iff.mp hdelta
  refine ⟨?_, hb, fun a k => ?_, ?_, ?_, ?_, ?_, fun i l v hl hv => ?_⟩
  · obtain ⟨h₁, h₂, h₃⟩ := hex
    exact ⟨h₁, h₂, h₃.trans (by rw [← hsp₃])⟩
  · exact (hwr.locate_eq a k).trans ((AddressSpace.locate_write hw₄ a k).trans (hk₃.locate a k))
  · exact (hwr.read_ctx (henv₄.locate_ctxAddr (show 96 + 8 ≤ Abi.ctxSize by decide))
      (by decide)).trans ((AddressSpace.read_write_of_separate hw₄
        ((hR₃.env.goto _).locate_slot hroom' le_rfl)
        ((hR₃.env.goto _).locate_ctxAddr (show 96 + 8 ≤ Abi.ctxSize by decide))
        (.inl (by decide))).trans
      (hk₃.read (h.env.locate_ctxAddr (show 96 + 8 ≤ Abi.ctxSize by decide)) (.inl (by decide))))
  · have := hres₃ hli (v := init) (by simp)
    rw [hlit] at this
    exact (hkeep (by omega) (by omega) le_rfl).trans this
  · have := hres₃ hld (v := delta) (by simp)
    rw [hldt] at this
    exact (hkeep (by omega) (by omega) (by decide)).trans this
  · rw [← hidx, hwr.read_eq (henv₄.locate_slot hroom' le_rfl) fun _ _ => .inl (by decide)]
    exact read_write_of_lt hw₄ le_rfl (UInt64.toNat_lt _)
  · have hi := (List.getElem?_eq_some_iff.mp hv).1
    exact (hkeep (by omega) (by omega) (slotBytes_le _)).trans
      (hres₃ hl (by rw [List.getElem?_append_left hi]; exact hv))

/-- What `table.grow` leaves of the compiler's stack: one `i32` in memory at the slot of its
lowest operand, above the values that were below the operands, each in memory at its own
slot with its type. -/
theorem tableGrow_stack (hfit : Fit ∅ c.stack) (h2 : 2 ≤ c.stack.sp) (index : UInt32) {c' : Compiler}
    (he : tableGrow index c = .ok ((), c')) :
    c'.stack.sp = c.stack.sp - 1 ∧
      c'.stack.slots[c.stack.sp - 2]? = some { type := .i32, slot := c.stack.sp - 2 } ∧
      ∀ ⦃i : Nat⦄ ⦃l' : Location⦄, c'.stack.slots[i]? = some l' → i < c.stack.sp - 2 →
        l'.reg = none ∧ l'.flag = none ∧ l'.slot = i ∧
          ∃ l, c.stack.slots[i]? = some l ∧ l'.type = l.type := by
  refine (wp_ok (Q := fun _ c' => c'.stack.sp = c.stack.sp - 1 ∧
      c'.stack.slots[c.stack.sp - 2]? = some { type := .i32, slot := c.stack.sp - 2 } ∧
      ∀ ⦃i : Nat⦄ ⦃l' : Location⦄, c'.stack.slots[i]? = some l' → i < c.stack.sp - 2 →
        l'.reg = none ∧ l'.flag = none ∧ l'.slot = i ∧
          ∃ l, c.stack.slots[i]? = some l ∧ l'.type = l.type) he).mp ?_
  unfold tableGrow
  rw [wp_bind, wp_discard, wp_stk]
  intro _ s₁ hok
  have h₁ : Fit ∅ s₁ := keeps_pushOnStack (by decide) (by decide) _ _ _ hfit hok
  cases hok
  rw [wp_bind, wp_get, wp_bind, wp_slot]
  intro _
  rw [wp_bind]
  refine wp_releaseAllToStack (c := { c with stack := c.stack.pushLoc .i32 none none }) (a := c.asm) h₁
    (by simp) fun c₂ hfit₂ hm₂ hin₂ _ => ?_
  refine wp_asm_bind fun _ _ => ?_
  rw [wp_bind]
  refine quiet_callBuiltin _ _ _ fun _ a => ?_
  rw [wp_bind]
  refine wp_discardSlots (c := { c₂ with asm := a }) 3 fun c₃ heq _ _ => ?_
  rw [wp_discard, wp_stk]
  intro _ s₄ hok
  cases hok
  have hsz₂ : c₂.stack.slots.size = c.stack.sp + 1 := by
    rw [hm₂.size_eq]
    simp [ValueStack.pushLoc, ValueStack.sp]
  have hsz₃ : c₃.stack.slots.size = c.stack.sp - 2 := by
    rw [heq]
    simp only [Array.size_extract, ValueStack.sp] at hsz₂ ⊢
    omega
  have hsp₃ : c₃.stack.sp = c.stack.sp - 2 := hsz₃
  refine ⟨?_, ?_, fun i l' hl' hi => ?_⟩
  · show (c₃.stack.pushLoc .i32 none none).sp = _
    rw [sp_pushLoc, hsp₃]
    omega
  · show (c₃.stack.pushLoc .i32 none none).slots[c.stack.sp - 2]? = _
    simp only [ValueStack.pushLoc, Array.getElem?_push, hsz₃, hsp₃, if_true]
  · have hl₃ : c₃.stack.slots[i]? = some l' := by
      have := hl'
      simp only [ValueStack.pushLoc, Array.getElem?_push, hsz₃, if_neg (Nat.ne_of_lt hi)] at this
      exact this
    have hl₂ : c₂.stack.slots[i]? = some l' := by
      rw [heq] at hl₃
      simp only [Array.getElem?_extract, ValueStack.sp, hsz₂] at hl₃
      rwa [if_pos (by simp only [ValueStack.sp] at hi; omega), Nat.zero_add] at hl₃
    have hon := hin₂ hl₂
    simp only [Location.onStack, Bool.and_eq_true, Option.isNone_iff_eq_none] at hon
    obtain ⟨l₁, hl₁, hty, -⟩ := hm₂.slot hl₂
    simp only [ValueStack.pushLoc, Array.getElem?_push] at hl₁
    rw [if_neg (by simp only [ValueStack.sp] at hi; omega)] at hl₁
    exact ⟨hon.1, hon.2, by rw [hfit₂.1.slot_eq hl₂, Nat.zero_add], l₁, hl₁, hty⟩

/-! The host's answer, where the code left it. -/

theorem readLE_area_of_read {m : AddressSpace} {a : Area} {addr v : UInt64} {n off : Nat}
    (hl : m.locate addr n = some (a.index, off)) (hr : m.read addr n = some v) :
    readLE (m.area a) off n = v := by
  rw [AddressSpace.read_of_locate hl] at hr
  exact Option.some.inj hr

theorem AddressSpace.locate_snd_lt {m : AddressSpace} {addr : UInt64} {n j o : Nat}
    (h : m.locate addr n = some (j, o)) : o < 2 ^ 40 := by
  rw [(AddressSpace.locate_eq_split h).2, UInt64.toNat_mod]
  exact Nat.lt_of_lt_of_le (Nat.mod_lt _ (by decide)) (by decide)

namespace GrowRequest

variable {M M' : Machine} {base cap : Nat} {s : ValueStack} {vs : List UInt64} {init delta : UInt64}
  {index : UInt32}

/-- The host services what generated code leaves for `table.grow`: the table grown by the
growth, with the initial reference, the answer in the slot of the lowest operand, the new
length in the table's record, and the values below the operands in their slots. -/
theorem serviced (hr : GrowRequest M M' (8 * base) s vs init delta index)
    (henv : Env M (8 * base) cap) (hroom : vs.length + 3 ≤ cap)
    (hbase : M.mem.read (Dispatch.ctxAddr Abi.ctxStackBase) 8 = some (8 * base).toUInt64)
    {inst : Instance} (hinst : inst.space = M'.mem) {t : RefTable}
    (ht : inst.table? index.toNat = some t)
    (hrec : ∃ off, inst.space.locate (tableRecord index.toNat + UInt64.ofInt Abi.tableLen) 8 =
      some (Area.tableRecords.index, off)) :
    ∃ inst', Dispatch.callBuiltin.run inst = (.ok (), inst') ∧
      inst'.table? index.toNat = some (t.afterGrow delta.toUInt32 init) ∧
      inst'.space.read (slotAddress (8 * base) vs.length) 8 =
        some (t.growAnswer delta.toUInt32 init) ∧
      (∀ old t', t.grow delta.toUInt32 init = some (old, t') →
        inst'.space.read (tableRecord index.toNat + UInt64.ofInt Abi.tableLen) 8 =
          some t'.size.toUInt64) ∧
      (∀ ⦃i : Nat⦄ ⦃l : Location⦄ ⦃v : UInt64⦄, s.slots[i]? = some l → vs[i]? = some v →
        inst'.space.read (slotAddress (8 * base) i) (slotBytes l.type) = some v) ∧
      inst'.exitCode = inst.exitCode := by
  have hl : ∀ {k n : Nat}, k < cap → n ≤ 8 → inst.space.locate (slotAddress (8 * base) k) n =
      some (Area.valueStack.index, 8 * base + 8 * k) := fun hk hn => by
    rw [hinst]
    exact (hr.locate _ _).trans (henv.locate_slot hk hn)
  have hslot : Area.valueStack.base + (8 * (base + (vs.length + 3) - 3)).toUInt64 =
      slotAddress (8 * base) vs.length := by
    unfold slotAddress
    congr 2
    omega
  have htop := hl (k := vs.length + 2) (n := 8) (by omega) le_rfl
  have h40 := AddressSpace.locate_snd_lt htop
  have hlen : base + (vs.length + 3) ≤ (inst.space.area .valueStack).size / 8 := by
    obtain ⟨r, hr', hfit⟩ := AddressSpace.locate_eq_some htop
    have harea : inst.space.area .valueStack = r := by
      simp [AddressSpace.area, AddressSpace.region, Array.getD_eq_getD_getElem?, hr']
    rw [harea]
    omega
  have hread : ∀ {k n : Nat} {v : UInt64}, k < cap → n ≤ 8 →
      M'.mem.read (slotAddress (8 * base) k) n = some v →
      readLE (inst.space.area .valueStack) (8 * base + 8 * k) n = v := fun hk hn hv =>
    readLE_area_of_read (hl hk hn) (by rw [hinst]; exact hv)
  have hinit : readLE (inst.space.area .valueStack) (8 * (base + (vs.length + 3) - 3)) 8 = init := by
    rw [show 8 * (base + (vs.length + 3) - 3) = 8 * base + 8 * vs.length by omega]
    exact hread (by omega) le_rfl hr.init
  have hdelta : (readLE (inst.space.area .valueStack) (8 * (base + (vs.length + 3) - 2)) 8).toUInt32 =
      delta.toUInt32 := by
    rw [show 8 * (base + (vs.length + 3) - 2) = 8 * base + 8 * (vs.length + 1) by omega,
      toUInt32_readLE_eight, hread (by omega) (by decide) hr.delta]
  have hidx : (readLE (inst.space.area .valueStack) (8 * (base + (vs.length + 3) - 1)) 8).toUInt32 =
      index := by
    rw [show 8 * (base + (vs.length + 3) - 1) = 8 * base + 8 * (vs.length + 2) by omega,
      hread (by omega) le_rfl hr.index, toUInt32_ofInt_signed32]
  obtain ⟨inst', hrun, htab, hans, hlen', hframe, hexit⟩ := Dispatch.tableGrow_serviced
    (by rw [hinst]; exact hr.builtin) (by rw [hinst, hr.stackBase]; exact hbase)
    (by rw [hinst]; exact hr.exited.2.2) (by omega) (by omega) hlen hinit hdelta hidx ht hrec
  refine ⟨inst', hrun, htab, ?_, hlen', fun i l v hli hv => ?_, hexit⟩
  · rw [← hslot]
    exact hans
  · have hi := (List.getElem?_eq_some_iff.mp hv).1
    have hbytes := slotBytes_le l.type
    rw [hframe (hl (by omega) hbytes) (by simp only [Area.index]; omega)
      (fun h => absurd h (by decide)) (fun _ => .inl (by omega)), hinst]
    exact hr.below hli hv

end GrowRequest

/-! `table.size`. -/

theorem Machine.addr_at (M : Machine) (r : Reg) (x : Int) :
    M.addr (MemRef.at r x).toMem = M.gp r.gpr + UInt64.ofInt x := by
  simp only [Machine.addr, Cpu.address, MemRef.toMem, MemRef.at, Option.map_none]
  rw [show M.cpu.gp r.gpr = M.gp r.gpr from rfl, UInt64.add_zero]

theorem Keeps.read_area {M' : Machine} {W : Finset Reg} {n : Nat} (hk : Keeps M M' fb W n) {a : Area}
    (ha : a.index < 2 ^ 20) (hav : a.index ≠ Area.valueStack.index) {off : Nat} (hoff : off < 2 ^ 40)
    (k : Nat) : M'.mem.read (a.base + off.toUInt64) k = M.mem.read (a.base + off.toUInt64) k := by
  cases hl : M.mem.locate (a.base + off.toUInt64) k with
  | none => simp [AddressSpace.read, hl, hk.locate]
  | some p =>
    obtain ⟨j, o⟩ := p
    have hj := (AddressSpace.locate_regionBase_add_eq ha hoff hl).1
    exact hk.read hl (.inl (by rw [hj]; exact hav))

variable {T : Finset Reg} {vs : List UInt64} {X : Machine → Prop}

theorem runs_loadTemp {k : LoadKind} {r : Reg} {m : MemRef} (hm : m.Valid) (hr : r ∈ gpPool)
    (h : Rep M fb cap c.stack vs) (hfit : Fit T c.stack) (hrT : r ∈ T) {v : UInt64}
    (hv : M.mem.read (M.addr m.toMem) (Machine.loadBytes k) = some v)
    {Q : Unit → Compiler → Machine → Prop}
    (hQ : ∀ M', Rep M' fb cap c.stack vs → Keeps M M' fb {r} 0 →
      M'.gp r.gpr = Machine.widen (Machine.loadWidth k) (Machine.extendLoad k v) →
      Q () { c with asm := Asm.pushed c.asm (.load k r.gpr m.toMem) } M') :
    Runs K X (asm (Asm.load k r m)) Q c M := by
  have hk : Keeps M _ fb {r} 0 := Keeps.goto_setGpW h.env.gpr_size (isGp_of_mem_gpPool hr)
    (K.addr (c.asm.instrs.size + 1)) (Machine.loadWidth k) (Machine.extendLoad k v)
  have hR := h.of_keeps hk
    (fun w hw => by rw [Finset.mem_singleton.mp hw]; exact writable_of_mem_gpPool hr)
    (fun w hw => by rw [Finset.mem_singleton.mp hw]; exact hfit.1.temp_free r hrT)
    (fun i l hl => by rw [hfit.1.slot_eq hl, Nat.zero_add])
  exact Runs.step (Asm.load_eq (isGp_of_mem_gpPool hr) hm k _) (Machine.exec_load hv) rfl
    (hQ _ hR hk (Machine.gp_goto_setGpW_self h.env.gpr_size _ _ _ _))

theorem runs_tableAddress (h : Rep M fb cap c.stack vs) (hfit : Fit ∅ c.stack) (index : UInt32)
    (htables : M.mem.read (Dispatch.ctxAddr Abi.ctxTables) 8 = some Area.tablePointers.base)
    (hpointer : M.mem.read (Area.tablePointers.base + (index.toNat * 8).toUInt64) 8 =
      some (tableRecord index.toNat))
    {Q : Reg → Compiler → Machine → Prop}
    (hQ : ∀ r c' M', r ∈ gpPool → Fit {r} c'.stack → c'.stack.sp = c.stack.sp →
      Rep M' fb cap c'.stack vs → Keeps M M' fb {r} c.stack.sp →
      M'.gp r.gpr = tableRecord index.toNat → Q r c' M') :
    Runs K X (tableAddress index) Q c M := by
  unfold tableAddress
  refine Runs.bind (runs_allocateFresh h hfit (by simp) .gp fun r c₁ M₁ hr _ hfit₁ hsp₁ hR₁ hk₁ => ?_)
    fun _ => .bind (.asm' (.load _ _ _)) fun _ => .bind (silent_disp _ _ _).grows fun _ =>
      .bind (.asm' (.load _ _ _)) fun _ => .pure' _
  rw [Finset.insert_empty] at hfit₁
  have hr' : r ∈ gpPool := by simpa [poolOf] using hr
  have hrT : r ∈ ({r} : Finset Reg) := Finset.mem_singleton_self r
  refine Runs.bind (runs_loadTemp (k := .u64) (v := Area.tablePointers.base)
    (MemRef.valid_at (by decide) _) hr' hR₁ hfit₁ hrT
    (by rw [Machine.addr_at, hR₁.env.context]
        exact (hk₁.read (h.env.locate_ctxAddr (show 48 + 8 ≤ Abi.ctxSize by decide))
          (.inl (by decide))).trans htables)
    fun M₂ hR₂ hk₂ hgp₂ => ?_) fun _ => .bind (silent_disp _ _ _).grows fun _ =>
      .bind (.asm' (.load _ _ _)) fun _ => .pure' _
  refine Runs.bind (Runs.silent (silent_disp _ _ _) fun x c₃ h₃ => ?_) fun _ =>
    .bind (.asm' (.load _ _ _)) fun _ => .pure' _
  obtain ⟨rfl, rfl⟩ := disp_ok h₃
  have hidx : index.toNat * 8 < 2 ^ 40 := by have := index.toNat_lt; omega
  refine Runs.bind ?_ fun _ => .pure' _
  refine runs_loadTemp (k := .u64) (c := { c₁ with
    asm := Asm.pushed c₁.asm (.load .u64 r.gpr (MemRef.at contextReg Abi.ctxTables).toMem) })
     (MemRef.valid_at (isGp_of_mem_gpPool hr') _) hr' hR₂
    hfit₁ hrT (by
      rw [Machine.addr_at, hgp₂, ofInt_natCast_eq, ← hpointer]
      exact (hk₁.trans hk₂).read_area (by decide) (by decide) hidx 8)
    fun M₄ hR₄ hk₄ hgp₄ => ?_
  exact Runs.pure' (hQ r _ M₄ hr' hfit₁ hsp₁.size_eq hR₄
    (((hk₁.trans hk₂).trans hk₄).mono (by simp) (by simp)) hgp₄)

theorem grows_tableAddress (index : UInt32) : Grows (tableAddress index) := by
  unfold tableAddress
  exact .bind (grows_allocate .gp {}) fun _ => .bind (.asm' (.load _ _ _)) fun _ =>
    .bind (silent_disp _ _ _).grows fun _ => .bind (.asm' (.load _ _ _)) fun _ => .pure' _

/-- `table.size` pushes the length its record holds. -/
theorem runs_tableSize (h : Rep M fb cap c.stack vs) (hfit : Fit ∅ c.stack) (hroom : c.stack.sp < cap)
    {index : UInt32} {len : UInt64}
    (htables : M.mem.read (Dispatch.ctxAddr Abi.ctxTables) 8 = some Area.tablePointers.base)
    (hpointer : M.mem.read (Area.tablePointers.base + (index.toNat * 8).toUInt64) 8 =
      some (tableRecord index.toNat))
    (hlen : M.mem.read (tableRecord index.toNat + UInt64.ofInt Abi.tableLen) 4 = some len) :
    Runs K X (tableSize index) (fun _ c' M' => Fit ∅ c'.stack ∧ Rep M' fb cap c'.stack (vs ++ [len]))
      c M := by
  unfold tableSize
  refine Runs.bind (runs_materializeTopFlag h hfit (by simp) fun c₁ M₁ he₁ hR₁ hk₁ => ?_) fun _ =>
    .bind (grows_tableAddress index) fun _ => .bind (.asm' (.load _ _ _)) fun _ =>
      (silent_pushRegister _ _).grows
  obtain ⟨hfit₁, hmv₁⟩ := (wp_ok (Q := fun _ c' => Fit ∅ c'.stack ∧ Moves c.stack c'.stack) he₁).mp
    (wp_materializeTopFlag (a := c.asm) hfit (by simp) fun _ h' hm' _ _ => ⟨h', hm'⟩)
  have hidx : index.toNat * 8 < 2 ^ 40 := by have := index.toNat_lt; omega
  refine Runs.bind (runs_tableAddress hR₁ hfit₁ index
    ((hk₁.read (h.env.locate_ctxAddr (show 48 + 8 ≤ Abi.ctxSize by decide)) (.inl (by decide))).trans
      htables)
    ((hk₁.read_area (by decide) (by decide) hidx 8).trans hpointer)
    fun r c₂ M₂ hr hfit₂ hsp₂ hR₂ hk₂ hgp₂ => ?_) fun _ =>
      .bind (.asm' (.load _ _ _)) fun _ => (silent_pushRegister _ _).grows
  have hlt : len.toNat < 2 ^ 32 := toNat_read_lt hlen (by decide)
  have hlen₂ : M₂.mem.read (tableRecord index.toNat + UInt64.ofInt Abi.tableLen) 4 = some len := by
    rw [tableRecord_len] at hlen ⊢
    exact ((hk₁.trans hk₂).read_area (a := Area.tableRecords) (by decide) (by decide)
      (by have := index.toNat_lt; unfold tableRecordSize; omega) 4).trans hlen
  refine Runs.bind (runs_loadTemp (k := .u32) (MemRef.valid_at (isGp_of_mem_gpPool hr) _) hr hR₂ hfit₂
    (Finset.mem_singleton_self r) (by rw [Machine.addr_at, hgp₂]; exact hlen₂)
    fun M₃ hR₃ _ hgp₃ => ?_) fun _ => (silent_pushRegister _ _).grows
  have hin : InReg M₃ .i32 r len := by
    refine ⟨hr, ?_, hlt⟩
    rw [hgp₃]
    apply UInt64.toNat_inj.mp
    show (len &&& low32).toNat = len.toNat
    rw [toNat_and_low32, Nat.mod_eq_of_lt hlt]
  have hsp : c₂.stack.sp + (if SlotType.i32 = .v128lo then 2 else 1) ≤ cap := by
    rw [if_neg (by decide), hsp₂, ValueStack.sp, hmv₁.size_eq]
    exact hroom
  have hhi : SlotType.i32 = .v128lo → InReg M₃ .v128hi r 0 := fun h => by cases h
  refine runs_pushRegister
    (c := { c₂ with asm := Asm.pushed c₂.asm (.load .u32 r.gpr (MemRef.at r Abi.tableLen).toMem) })
    hR₃ hfit₂ (Finset.mem_singleton_self r) (by decide) hin hhi hsp fun c' hfit' hR' => ?_
  rw [Finset.erase_singleton] at hfit'
  exact ⟨hfit', by simpa using hR'⟩

/-! Growing a table, end to end. -/

theorem RefTable.toNat_growAnswer_lt (t : RefTable) (delta : UInt32) (init : UInt64) :
    (t.growAnswer delta init).toNat < 2 ^ 32 := by
  unfold RefTable.growAnswer
  split
  · rename_i old _ _
    rw [UInt32.toNat_toUInt64]
    exact old.toNat_lt
  · decide

/-- Growing a table. A table made by `new` and grown any number of times grows by `delta`
exactly when its new length fits 32 bits and its limit (its declared maximum, capped at
`2 ^ 27`); it then answers its old length and gains `delta` copies of `init`, and otherwise it
is left as it was. The code of `table.grow` leaves to the host, which grows the table, records
its new length, and leaves the answer in the slot of the lowest operand: the stack the
lowering leaves holds the values below the operands and then the answer. `table.size` pushes
the length the record holds. -/
theorem table_grow_answers_in_place :
    (∀ t : RefTable, t.Built → ∀ (delta : UInt32) (init : UInt64),
      ((∃ r, t.grow delta init = some r) ↔ t.size + delta.toNat < 2 ^ 32 ∧
        t.size + delta.toNat ≤ min ((t.max.map (·.toNat)).getD tableLengthLimit) tableLengthLimit) ∧
      (∀ old t', t.grow delta init = some (old, t') → old.toNat = t.size ∧
        t'.elements = t.elements ++ Array.replicate delta.toNat init ∧ t'.max = t.max ∧ t'.Built) ∧
      (t.grow delta init = none → t.afterGrow delta init = t)) ∧
    (∀ (K : Code) (c : Compiler) (M : Machine) (base cap : Nat) (vs : List UInt64)
      (init delta : UInt64) (index : UInt32),
      Rep M (8 * base) cap c.stack (vs ++ [init, delta]) → Fit ∅ c.stack → c.stack.sp < cap →
      c.stack.slots[vs.length]?.map Location.type = some .i64 →
      c.stack.slots[vs.length + 1]?.map Location.type = some .i32 →
      M.mem.read (Dispatch.ctxAddr Abi.ctxStackBase) 8 = some (8 * base).toUInt64 →
      Runs K (fun M' => Exited M' .callBuiltin (c.stack.sp + 1) ∧
        ∀ (inst : Instance) (t : RefTable), inst.space = M'.mem →
          inst.table? index.toNat = some t →
          (∃ off, inst.space.locate (tableRecord index.toNat + UInt64.ofInt Abi.tableLen) 8 =
            some (Area.tableRecords.index, off)) →
          ∃ inst', Dispatch.callBuiltin.run inst = (.ok (), inst') ∧
            inst'.table? index.toNat = some (t.afterGrow delta.toUInt32 init) ∧
            (∀ old t', t.grow delta.toUInt32 init = some (old, t') →
              inst'.space.read (tableRecord index.toNat + UInt64.ofInt Abi.tableLen) 4 =
                some t'.size.toUInt64) ∧
            (∀ c', tableGrow index c = .ok ((), c') →
              ∀ ⦃i : Nat⦄ ⦃l : Location⦄ ⦃v : UInt64⦄, c'.stack.slots[i]? = some l →
                (vs ++ [t.growAnswer delta.toUInt32 init])[i]? = some v →
                inst'.space.read (slotAddress (8 * base) l.slot) (slotBytes l.type) = some v) ∧
            inst'.exitCode = inst.exitCode)
        (tableGrow index) (fun _ _ _ => False) c M) ∧
    (∀ (K : Code) (X : Machine → Prop) (c : Compiler) (M : Machine) (fb cap : Nat)
      (vs : List UInt64) (index : UInt32) (len : UInt64),
      Rep M fb cap c.stack vs → Fit ∅ c.stack → c.stack.sp < cap →
      M.mem.read (Dispatch.ctxAddr Abi.ctxTables) 8 = some Area.tablePointers.base →
      M.mem.read (Area.tablePointers.base + (index.toNat * 8).toUInt64) 8 =
        some (tableRecord index.toNat) →
      M.mem.read (tableRecord index.toNat + UInt64.ofInt Abi.tableLen) 4 = some len →
      Runs K X (tableSize index) (fun _ c' M' => Rep M' fb cap c'.stack (vs ++ [len])) c M) := by
  refine ⟨fun t hb delta init => ⟨(RefTable.grow_spec hb delta init).1,
    (RefTable.grow_spec hb delta init).2, fun hg => by rw [RefTable.afterGrow, hg]⟩, ?_, ?_⟩
  · intro K c M base cap vs init delta index h hfit hroom hinit hdelta hbase
    have hsp : c.stack.sp = vs.length + 2 := by
      rw [← h.length_eq, List.length_append]
      rfl
    refine (runs_tableGrow h hfit hroom hinit hdelta index).mono
      (fun M' hr => ⟨by rw [hsp]; exact hr.exited, fun inst t hinst ht hrec => ?_⟩) fun _ _ _ h => h
    obtain ⟨inst', hrun, htab, hans, hlen, hbelow, hexit⟩ :=
      hr.serviced h.env (by omega) hbase hinst ht hrec
    refine ⟨inst', hrun, htab, fun old t' hg => AddressSpace.read_four (hlen old t' hg) ?_,
      fun c' he i l v hl hv => ?_, hexit⟩
    · -- the new length fits the field's low half
      have := RefTable.size_lt_of_grow hg
      rw [Nat.toUInt64_eq, UInt64.toNat_ofNat']
      omega
    obtain ⟨-, htop, hlow⟩ := tableGrow_stack hfit (by omega) index he
    rcases Nat.lt_trichotomy i vs.length with hi | rfl | hi
    · obtain ⟨-, -, hslot, l₀, hl₀, hty⟩ := hlow hl (by omega)
      rw [hslot, hty]
      exact hbelow hl₀ (by rwa [List.getElem?_append_left hi] at hv)
    · rw [show vs.length = c.stack.sp - 2 by omega, htop] at hl
      cases hl
      rw [List.getElem?_append_right le_rfl, Nat.sub_self] at hv
      cases hv
      rw [show c.stack.sp - 2 = vs.length by omega]
      exact AddressSpace.read_four hans (RefTable.toNat_growAnswer_lt _ _ _)
    · rw [List.getElem?_eq_none (by simp; omega)] at hv
      cases hv
  · intro K X c M fb cap vs index len h hfit hroom htables hpointer hlen
    exact (runs_tableSize h hfit hroom htables hpointer hlen).mono (fun _ h => h) fun _ _ _ h => h.2

/-- A machine entered from the host whose context points at one table, of length `len`. -/
def tableMachine (vals : List UInt64) (len : UInt64) : Machine where
  cpu := { gpr := (((Array.replicate 16 0).set! 13 Area.context.base).set! 14
      Area.valueStack.base).set! 4 Area.nativeStack.base }
  mem := { regions := #[.empty, .empty, writeLE (zeros Abi.ctxSize) 48 8 Area.tablePointers.base,
    returnBytes, frameBytes vals, .empty, .empty, .empty, .empty, .empty, .empty,
    wordsToBytes #[tableRecord 0], writeLE (zeros tableRecordSize) 8 8 len] }

theorem env_tableMachine {vals : List UInt64} (h : 8 * vals.length < 2 ^ 40) (len : UInt64) :
    Env (tableMachine vals len) 0 vals.length := by
  refine @Env.of_regions (tableMachine vals len) 0 vals.length 0
    (writeLE (zeros Abi.ctxSize) 48 8 Area.tablePointers.base) returnBytes (frameBytes vals) rfl
    rfl rfl rfl rfl rfl (by rw [size_writeLE, size_zeros_ctxSize]) rfl (by decide) rfl ?_
    ⟨by omega, by decide⟩ (by decide)
  rw [size_frameBytes]
  omega

/-- A table of one element with maximum three grows by two, and not by three; `table.size` of
a table of length three, entered from the host with room for one more value, pushes three. -/
theorem table_grow_within_maximum :
    (∃ r, (RefTable.new 1 (some 3)).grow 2 7 = some r) ∧
      (¬ ∃ r, (RefTable.new 1 (some 3)).grow 3 7 = some r) ∧
      Runs (Code.spaced {} (by decide)) (fun _ => False) (tableSize 0)
        (fun _ c' M' => Rep M' 0 2 c'.stack ([7] ++ [3]))
        { stack := memoryStack [.i32], listener := false, features := {}
          fn := FunctionIr.ofBody { params := [.i32], results := [.i32] } {} [] }
        (tableMachine [7, 0] 3) := by
  have h := table_grow_answers_in_place.1 _ (.new 1 (some 3))
  have hrep : Rep (tableMachine [7, 0] 3) 0 2 (memoryStack [.i32]) [7] :=
    rep_of_frameBytes_append (env_tableMachine (by decide) 3) (by decide)
      (show (tableMachine [7, 0] 3).mem.regions[Area.valueStack.index]? =
        some (frameBytes ([7] ++ [0])) from rfl) rfl fun i t v ht hv => by
        have : t = .i32 := by simpa using List.mem_of_getElem? ht
        subst this
        have : v = 7 := by simpa using List.mem_of_getElem? hv
        subst this
        decide
  refine ⟨(h 2 7).1.mpr ?_, fun hg => ?_, ?_⟩
  · rw [RefTable.size_new]
    decide
  · have := (h 3 7).1.mp hg
    rw [RefTable.size_new] at this
    exact absurd this (by decide)
  · exact table_grow_answers_in_place.2.2 _ _ _ _ 0 2 [7] 0 3 hrep (fit_memoryStack (by decide))
      (by decide) (by decide +kernel) (by decide) (by decide)

end OnePassJit.Amd64
