import OnePassJit.Proofs.Machine.Guards

/-!
Operands popped into registers, and results pushed.

An operation of two operands pops them into two registers of its own (`popTwo`): the
values below are held as before, each operand is in its register, and no value left on the
stack lives in the flags, so that a comparison the operation makes disturbs none of them
(`runs_popTwo`). The registers are given back (`runs_release`) before the result is pushed
from a register or, as a comparison, from the flags (`runs_pushFlag`).
-/

namespace OnePassJit

namespace ValueStack

theorem Moves.of_below {s s' : ValueStack} {m i : Nat} {l' : Location} (h : Moves (s.below m) s')
    (hl : s'.slots[i]? = some l') :
    ∃ l, s.slots[i]? = some l ∧ i < m ∧ l'.type = l.type ∧ (l'.flag = none ∨ l'.flag = l.flag) := by
  obtain ⟨l, hl₀, ht, hf⟩ := h.slot hl
  have hi : i < m := by
    have := Block.lt_size hl₀
    simp only [ValueStack.below, Array.size_extract] at this
    omega
  rw [getElem?_below hi] at hl₀
  exact ⟨l, hl₀, hi, ht, hf⟩

theorem Moves.noFlags_of_below {s s' : ValueStack} {m : Nat} (h : Moves (s.below m) s')
    (hnf : ∀ ⦃i l⦄, s.slots[i]? = some l → i < m → l.flag = none) : s'.NoFlags := by
  intro i l hl
  obtain ⟨l₀, hl₀, hi, -, hf⟩ := h.of_below hl
  rw [hnf hl₀ hi, or_self] at hf
  exact hf

end ValueStack

namespace Amd64

open Lower ValueStack

variable {M : Machine} {fb cap : Nat} {vs : List UInt64} {ty : SlotType}

theorem Rep.popTop (hhi : ty ≠ .v128hi) {s : ValueStack} {T : Finset Reg} {x : Location}
    {k : Nat} {v : UInt64} (h : Rep M fb cap s (vs ++ [v])) (hlay : Layout s T)
    (ht : TopAt s x k) (hty : ∀ ⦃i l⦄, s.slots[i]? = some l → vs.length ≤ i → l.type = ty) :
    k = vs.length ∧ x.type = ty ∧ (∃ vhi, Carries M fb x v vhi) ∧
      Rep M fb cap (s.below k) vs := by
  have hsp : s.sp = vs.length + 1 := by
    rw [← h.length_eq, List.length_append, List.length_singleton]
  have hk : k = vs.length := by
    have e := ht.sp_eq
    split at e
    · -- a vector's high half would take the last slot
      obtain ⟨l', hl', hhi', -⟩ := hlay.lo_hi ht.get ‹_›
      exact absurd (hhi'.symm.trans (hty hl' (by omega))) (Ne.symm hhi)
    · omega
  subst hk
  obtain ⟨v', vhi, hv, -, hc, hR⟩ := h.below hlay ht
  rw [List.getElem?_concat_length, Option.some.injEq] at hv
  subst hv
  exact ⟨rfl, hty ht.get le_rfl, ⟨vhi, hc⟩, by simpa using hR⟩

theorem Rep.pushFlag {s : ValueStack} (h : Rep M fb cap s vs) (hsp : s.sp < cap) (f : Flag) :
    Rep M fb cap (s.pushLoc .i32 none (some f))
      (vs ++ [if (condOf f).holds M.cpu.flags then 1 else 0]) :=
  h.push hsp rfl

section Operands

variable {K : Code} {X : Machine → Prop} {c : Compiler} {T : Finset Reg} {β : Type}

theorem grows_popToRegister : Grows popToRegister :=
  .bind silent_popLocation.grows fun x => grows_loadDetached x _

theorem runs_popCarried (v vhi : UInt64) (hfit : Fit T c.stack) (hcard : T.card < 8)
    (hpop : ∀ ⦃x n⦄, TopAt c.stack x n → n = vs.length ∧ Carries M fb x v vhi ∧
      Rep M fb cap (c.stack.below n) vs ∧ n + (if x.type = .v128lo then 2 else 1) ≤ cap)
    {Q : Location → Compiler → Machine → Prop}
    (hQ : ∀ x r c' M', TopAt c.stack x vs.length → r ∉ T → Fit (insert r T) c'.stack →
      Rep M' fb cap c'.stack vs → Carries M' fb (x.setRegister r) v vhi →
      Keeps M M' fb {r} vs.length → Moves (c.stack.below vs.length) c'.stack →
      Q (x.setRegister r) c' M') :
    Runs K X popToRegister Q c M := by
  unfold popToRegister
  refine Runs.bind (runs_popLocation hfit fun x n c₁ _ ht hc₁ hfit₁ => ?_) fun x =>
    grows_loadDetached x _
  obtain ⟨rfl, hcv, hR₁, hroom⟩ := hpop ht
  have hsp₁ : c₁.stack.sp = vs.length := by
    rw [hc₁, sp_below _ ht.lt.le]
  rw [← hc₁] at hR₁
  have hE : ∀ r, ({} : RegSet).contains r = true → r ∈ (∅ : Finset Reg) := fun r hr => by
    rw [RegSet.contains_default] at hr
    cases hr
  have hcard₁ : (T ∪ x.reg.toFinset).card + (∅ : Finset Reg).card < 9 := by
    have := card_union_reg T x
    rw [Finset.card_empty]
    omega
  have hT : ∀ q, x.reg = some q → q ∈ T ∪ x.reg.toFinset :=
    fun q hq => Finset.mem_union_right _ (Option.mem_toFinset.mpr hq)
  refine Runs.withEq (runs_loadDetached hR₁ hfit₁ hcv hE hcard₁ hT (hfit.1.top_flagged ht)
    (fun _ _ => ?_) fun r c₂ M₂ hfit₂ hrT _ hR₂ hc₂ hk₂ he₂ => ?_)
  · -- the operand's own slots are above the values below
    rw [hfit.1.slot_eq ht.get, hsp₁, Nat.zero_add]
    exact ⟨le_rfl, hroom⟩
  have hmv : Moves (c.stack.below vs.length) c₂.stack := by
    rw [← hc₁]
    exact ((wp_ok he₂).mp (wp_loadDetached (a := c₁.asm)
      (Q := fun _ c' => Spills c₁.stack c'.stack) hfit₁ hE hcard₁ hT (hfit.1.top_flagged ht)
      fun _ _ _ _ _ hs _ => hs)).moves
  have hdis : Disjoint T x.reg.toFinset := Finset.disjoint_left.mpr fun q hq hq' =>
    hfit.1.top_not_temp ht (Option.mem_toFinset.mp hq') hq
  rw [Finset.union_sdiff_cancel_right hdis] at hfit₂ hrT
  rw [hsp₁] at hk₂
  exact hQ x r c₂ M₂ ht hrT hfit₂ hR₂ hc₂ hk₂ hmv

theorem runs_popToRegister (hty2 : ty ≠ .v128lo ∧ ty ≠ .v128hi) {v : UInt64}
    (h : Rep M fb cap c.stack (vs ++ [v])) (hfit : Fit T c.stack) (hcard : T.card < 8)
    (hty : ∀ ⦃i l⦄, c.stack.slots[i]? = some l → vs.length ≤ i → l.type = ty)
    {Q : Location → Compiler → Machine → Prop}
    (hQ : ∀ x r c' M', x.reg = some r → x.type = ty → r ∉ T → Fit (insert r T) c'.stack →
      Rep M' fb cap c'.stack vs → InReg M' ty r v → Keeps M M' fb {r} vs.length →
      Moves (c.stack.below vs.length) c'.stack → Q x c' M') :
    Runs K X popToRegister Q c M := by
  refine runs_popCarried v 0 hfit hcard (fun x n ht => ?_)
    fun x r c' M' ht hrT hfit' hR' hc' hk hmv =>
      hQ _ r c' M' rfl (hty ht.get le_rfl : x.type = ty) hrT hfit' hR'
        ((hty ht.get le_rfl : x.type = ty) ▸ hc'.1) hk hmv
  obtain ⟨rfl, htx, ⟨vhi, hcv⟩, hR⟩ := h.popTop hty2.2 hfit.1 ht hty
  have := h.sp_le
  rw [← h.length_eq, List.length_append, List.length_singleton] at this
  rw [if_neg (htx ▸ hty2.1)]
  exact ⟨rfl, ⟨hcv.1, fun hlo => absurd (htx ▸ hlo) hty2.1⟩, hR, this⟩

/-- Two operands of type `ty` popped into two registers: the values below are held as
before, none of them in the flags. -/
theorem runs_popTwo (hty2 : ty ≠ .v128lo ∧ ty ≠ .v128hi) {a b : UInt64}
    (h : Rep M fb cap c.stack (vs ++ [a, b])) (hfit : Fit ∅ c.stack)
    (hty : ∀ ⦃i l⦄, c.stack.slots[i]? = some l → vs.length ≤ i → l.type = ty)
    (hnf : ∀ ⦃i l⦄, c.stack.slots[i]? = some l → i < vs.length → l.flag = none)
    {Q : Location × Location → Compiler → Machine → Prop}
    (hQ : ∀ x₁ x₂ r₁ r₂ c' M', x₁.reg = some r₁ → x₂.reg = some r₂ → x₁.type = ty →
      r₁ ≠ r₂ → Fit {r₁, r₂} c'.stack → c'.stack.NoFlags → Rep M' fb cap c'.stack vs →
      InReg M' ty r₁ a → InReg M' ty r₂ b → Q (x₁, x₂) c' M') :
    Runs K X popTwo Q c M := by
  unfold popTwo
  rw [show vs ++ [a, b] = (vs ++ [a]) ++ [b] by simp] at h
  have hlen : (vs ++ [a]).length = vs.length + 1 := by simp
  refine Runs.bind (runs_popToRegister hty2 h hfit (by simp)
    (fun i l hl hi => hty hl (by omega)) fun x₂ r₂ c₁ M₁ hx₂ _ _ hfit₁ hR₁ hb₁ _ hmv₁ => ?_)
    fun _ => .bind grows_popToRegister fun _ => .pure' _
  rw [Finset.insert_empty] at hfit₁
  have hty₁ : ∀ ⦃i l⦄, c₁.stack.slots[i]? = some l → vs.length ≤ i → l.type = ty := by
    intro i l hl hi
    obtain ⟨l₀, hl₀, -, ht, -⟩ := hmv₁.of_below hl
    exact ht.trans (hty hl₀ hi)
  refine Runs.bind (runs_popToRegister hty2 hR₁ hfit₁ (by simp) hty₁
    fun x₁ r₁ c₂ M₂ hx₁ htx₁ hr₁ hfit₂ hR₂ ha₂ hk₂ hmv₂ => ?_) fun _ => .pure' _
  have hnf₁ : ∀ ⦃i l⦄, c₁.stack.slots[i]? = some l → i < vs.length → l.flag = none := by
    intro i l hl hi
    obtain ⟨l₀, hl₀, -, -, hf⟩ := hmv₁.of_below hl
    rw [hnf hl₀ hi, or_self] at hf
    exact hf
  have hne : r₁ ≠ r₂ := fun he => hr₁ (Finset.mem_singleton.mpr he)
  exact Runs.pure' (hQ x₁ x₂ r₁ r₂ c₂ M₂ hx₁ hx₂ htx₁ hne hfit₂ (hmv₂.noFlags_of_below hnf₁) hR₂
    ha₂ (hb₁.of_keeps hk₂ (by simpa using hne.symm)))

end Operands

section Results

variable {K : Code} {X : Machine → Prop} {c : Compiler} {T : Finset Reg}

theorem regOf_of_reg {x : Location} {r : Reg} (hx : x.reg = some r) : regOf x = pure r := by
  unfold regOf
  rw [hx]

theorem runs_allocateFresh (h : Rep M fb cap c.stack vs) (hfit : Fit T c.stack) (hcard : T.card < 9)
    (kind : RegKind) {Q : Reg → Compiler → Machine → Prop}
    (hQ : ∀ r c' M', r ∈ poolOf kind → r ∉ T → Fit (insert r T) c'.stack →
      Spills c.stack c'.stack → Rep M' fb cap c'.stack vs → Keeps M M' fb ∅ c.stack.sp →
      Q r c' M') :
    Runs K X (allocate kind) Q c M := by
  refine runs_allocate h hfit kind {} fun r c' M' ha hpool hR hk => ?_
  obtain ⟨hfit', hrT, hsp⟩ := (wp_ok ha).mp (wp_allocate (a := c.asm)
    (Q := fun r c' => Fit (insert r T) c'.stack ∧ r ∉ T ∧ Spills c.stack c'.stack) hfit
    (hfit.room_free hcard) fun _ _ h' hr _ hs _ => ⟨h', hr, hs⟩)
  exact hQ r c' M' (by rw [← pool_eq_poolOf hfit]; exact hpool) hrT hfit' hsp hR hk

theorem runs_releaseReg {r : Reg} (h : Rep M fb cap c.stack vs) (hfit : Fit (insert r T) c.stack)
    (hr : r ∉ T) {Q : Unit → Compiler → Machine → Prop}
    (hQ : ∀ c', Fit T c'.stack → Rep M fb cap c'.stack vs → Q () c' M) :
    Runs K X (releaseReg r) Q c M := by
  refine Runs.stk' fun _ s hm => ?_
  rw [markUnused_eq] at hm
  cases hm
  have hlay := hfit.1.erase_used (Finset.mem_insert_self r T)
  rw [Finset.erase_insert hr] at hlay
  exact hQ _ ⟨hlay, hfit.2⟩ (h.congr_slots rfl)

/-- Giving back the register of a popped operand. -/
theorem runs_release {x : Location} {r : Reg} (hx : x.reg = some r) (h : Rep M fb cap c.stack vs)
    (hfit : Fit (insert r T) c.stack) (hr : r ∉ T) {Q : Unit → Compiler → Machine → Prop}
    (hQ : ∀ c', Fit T c'.stack → Rep M fb cap c'.stack vs → Q () c' M) :
    Runs K X (release x) Q c M := by
  unfold release
  rw [hx]
  exact runs_releaseReg h hfit hr hQ

theorem silent_releaseReg (r : Reg) : Silent (releaseReg r) :=
  .stk' _

theorem silent_release (x : Location) : Silent (release x) := by
  unfold release
  split
  · exact silent_releaseReg _
  · exact .pure' _

theorem silent_pushFlag (f : Flag) : Silent (pushFlag f) :=
  .discard' (.stk' _)

/-- Pushing a comparison emits nothing: the value it stands for is the condition's truth in
the flags. -/
theorem runs_pushFlag (h : Rep M fb cap c.stack vs) (hfit : Fit T c.stack) (hsp : c.stack.sp < cap)
    (f : Flag) {Q : Unit → Compiler → Machine → Prop}
    (hQ : ∀ c', Fit T c'.stack → c'.stack.sp = c.stack.sp + 1 →
      Rep M fb cap c'.stack (vs ++ [if (condOf f).holds M.cpu.flags then 1 else 0]) → Q () c' M) :
    Runs K X (pushFlag f) Q c M := by
  refine Runs.silent (silent_pushFlag f) fun _ c' he => ?_
  obtain ⟨hfit', hst⟩ := (wp_ok he).mp (wp_pushFlag (a := c.asm)
    (Q := fun _ c' => Fit T c'.stack ∧ c'.stack = c.stack.pushLoc .i32 none (some f)) hfit f
    fun _ h' hs _ => ⟨h', hs⟩)
  exact hQ _ hfit' (by rw [hst]; exact pushLoc_sp _ _ _ _) (by rw [hst]; exact h.pushFlag hsp f)

end Results

end Amd64

end OnePassJit
