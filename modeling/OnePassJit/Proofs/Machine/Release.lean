import OnePassJit.Proofs.Machine.Operands

/-!
Writing live values back to their slots, on the machine.

Before generated code hands the value stack to the host, every live value goes to the
bytes of its slot: a comparison held in the flags is first set into a register as 0 or 1,
and then every value held in a register is stored (`runs_releaseAllToStack`). The machine
holds the same values afterwards, and nothing has changed outside the pool registers and
the live slots. `runs_materializeTopFlag` sets a comparison on top of the stack into a
register in the same way.
-/

namespace OnePassJit.Amd64

open Lower ValueStack

variable {β γ : Type} {K : Code} {X : Machine → Prop} {M : Machine} {fb cap : Nat}
  {vs : List UInt64} {T : Finset Reg}

/-! Loops. -/

theorem Grows.forIn_list (xs : List γ) (b : β) {f : γ → β → LowerM (ForInStep β)}
    (hf : ∀ x b, Grows (f x b)) : Grows (forIn xs b f) := by
  induction xs generalizing b with
  | nil => exact .pure' b
  | cons x rest ih =>
    rw [List.forIn_cons]
    refine .bind (hf x b) fun r => ?_
    cases r with
    | done b' => exact .pure' b'
    | yield b' => exact ih b'

theorem Runs.forIn_list (xs : List γ) (b : β) {f : γ → β → LowerM (ForInStep β)}
    (hf : ∀ x b, Grows (f x b)) (I : List γ → β → Compiler → Machine → Prop)
    (hstep : ∀ x rest b c M, I (x :: rest) b c M → Runs K X (f x b)
      (fun r c' M' => match r with
        | .yield b' => I rest b' c' M'
        | .done b' => I [] b' c' M') c M)
    {c : Compiler} (hc : I xs b c M) :
    Runs K X (forIn xs b f) (fun b' c' M' => I [] b' c' M') c M := by
  induction xs generalizing b c M with
  | nil => exact Runs.pure' hc
  | cons x rest ih =>
    rw [List.forIn_cons]
    refine Runs.bind ((hstep x rest b c M hc).mono (fun _ h => h) fun r c' M' h => ?_) fun r => ?_
    · cases r with
      | done b' => exact Runs.pure' h
      | yield b' => exact ih b' h
    · cases r with
      | done b' => exact .pure' b'
      | yield b' => exact Grows.forIn_list rest b' hf

theorem Runs.get_bind {c : Compiler} {Q : β → Compiler → Machine → Prop}
    {f : Compiler → LowerM β} (h : Runs K X (f c) Q c M) : Runs K X (get >>= f) Q c M :=
  fun y c' hb hK hrip => h y c' hb hK hrip

theorem Runs.stk_bind {c : Compiler} {Q : β → Compiler → Machine → Prop} {sm : StackM γ}
    {f : γ → LowerM β} (h : ∀ x s, sm c.stack = .ok x s → Runs K X (f x) Q { c with stack := s } M) :
    Runs K X (stk sm >>= f) Q c M := by
  intro y c' hb hK hrip
  obtain ⟨x, c₁, h₁, h₂⟩ := LowerM.bind_eq_ok hb
  unfold stk at h₁
  cases hs : sm c.stack with
  | ok a s =>
    rw [hs] at h₁
    cases h₁
    exact h _ _ hs y c' h₂ hK hrip
  | error e s =>
    rw [hs] at h₁
    cases h₁

/-! Comparisons out of the flags. -/

theorem grows_flagToRegister (f : Flag) : Grows (flagToRegister f) :=
  .bind (grows_allocate .gp {}) fun r => .bind (.asm' (.setcc _ _)) fun _ =>
    .bind (.asm' (.movzx8RR _ _)) fun _ => .pure' r

section Release

variable {c : Compiler}

theorem runs_flagToRegister (h : Rep M fb cap c.stack vs) (hfit : Fit T c.stack)
    (hcard : T.card < 9) (f : Flag) {Q : Reg → Compiler → Machine → Prop}
    (hQ : ∀ r c' M', r ∈ gpPool → r ∉ T → Fit (insert r T) c'.stack →
      Spills c.stack c'.stack → Rep M' fb cap c'.stack vs → Keeps M M' fb {r} c.stack.sp →
      InReg M' .i32 r (if (condOf f).holds M.cpu.flags then 1 else 0) → Q r c' M') :
    Runs K X (flagToRegister f) Q c M := by
  unfold flagToRegister
  refine Runs.bind (runs_allocateFresh h hfit hcard .gp
    fun r c₁ M₁ hr hrT hfit₁ hs₁ hR₁ hk₁ => ?_) fun r => .bind (.asm' (.setcc _ _)) fun _ =>
      .bind (.asm' (.movzx8RR _ _)) fun _ => .pure' r
  refine runs_setFlag (k := fun _ => pure r) hR₁.env hr f (fun _ => .pure' r)
    fun c₂ M₂ hc₂ hk₂ hin => Runs.pure' ?_
  have hfree : ¬ c₁.stack.Holds r := hfit₁.1.temp_free r (Finset.mem_insert_self r T)
  have hR₂ : Rep M₂ fb cap c₁.stack vs :=
    hR₁.of_keeps hk₂ (by simpa using writable_of_mem_gpPool hr) (by simpa using hfree)
      fun _ _ hl => by simpa using hfit₁.1.slot_eq hl
  rw [hc₂]
  refine hQ r _ M₂ hr hrT hfit₁ hs₁ hR₂ ((hk₁.trans hk₂).mono (by simp) (by simp)) ?_
  rw [← hk₁.flags]
  exact hin

theorem Rep.setRegister {s : ValueStack} {i : Nat} {l : Location} {r : Reg} {v : UInt64}
    (h : Rep M fb cap s vs) (hl : s.slots[i]? = some l) (hlo : l.type ≠ .v128lo)
    (hv : vs[i]? = some v) (hr : InReg M l.type r v) (u : RegSet) :
    Rep M fb cap { s with
      slots := modifyValue s.slots i (l.type == .v128lo) (·.setRegister r), used := u } vs where
  env := h.env
  length_eq := by
    rw [h.length_eq]
    exact size_modifyValue.symm
  sp_le := by
    show (modifyValue s.slots i _ _).size ≤ cap
    rw [size_modifyValue]
    exact h.sp_le
  resides k l' w hk hw := by
    rw [getElem?_modifyValue] at hk
    split at hk
    · rename_i hki
      have hik : k = i := by
        rcases hki with e | ⟨hpair, -⟩
        · exact e
        · exact absurd (beq_iff_eq.mp hpair) hlo
      subst hik
      rw [hl] at hk
      cases hk
      rw [hv] at hw
      cases hw
      exact hr
    · exact h.resides hk hw

theorem grows_releaseAllToStack : Grows releaseAllToStack := by
  unfold releaseAllToStack
  refine .bind .get' fun _ => .bind (Grows.forIn_list _ _ fun i _ => ?_) fun _ => .pure' _
  refine .bind (.stk' _) fun l => ?_
  split
  · exact .bind (grows_flagToRegister _) fun _ => .bind (.stk' _) fun _ =>
      .bind (grows_spill i) fun _ => .pure' _
  · exact .bind (grows_spill i) fun _ => .pure' _

/-- Every live value written back to its slot: the machine holds the same values, and only
pool registers and the live slots have changed. -/
theorem runs_releaseAllToStack (h : Rep M fb cap c.stack vs) (hfit : Fit T c.stack)
    (hcard : T.card < 9) {Q : Unit → Compiler → Machine → Prop}
    (hQ : ∀ c' M', releaseAllToStack c = .ok ((), c') → Rep M' fb cap c'.stack vs →
      Keeps M M' fb gpPool.toFinset c.stack.sp → Q () c' M') :
    Runs K X releaseAllToStack Q c M := by
  refine Runs.withEq ?_
  unfold releaseAllToStack
  let I : List Nat → PUnit → Compiler → Machine → Prop := fun _ _ c₁ M₁ =>
    Rep M₁ fb cap c₁.stack vs ∧ Fit T c₁.stack ∧ c₁.stack.sp = c.stack.sp ∧
      Keeps M M₁ fb gpPool.toFinset c.stack.sp
  refine Runs.get_bind (Runs.bind ((Runs.forIn_list _ _ (fun i _ => ?_) I
    (fun i rest _ c₁ M₁ hI => ?_) ⟨h, hfit, rfl, (Keeps.refl M fb).mono (by simp) (by simp)⟩).mono
      (fun _ h => h) fun _ c₁ M₁ hI => Runs.pure' fun he => hQ c₁ M₁ he hI.1 hI.2.2.2)
    fun _ => .pure' _)
  · refine .bind (.stk' _) fun l => ?_
    split
    · exact .bind (grows_flagToRegister _) fun _ => .bind (.stk' _) fun _ =>
        .bind (grows_spill i) fun _ => .pure' _
    · exact .bind (grows_spill i) fun _ => .pure' _
  obtain ⟨h₁, hfit₁, hsp₁, hk₁⟩ := hI
  refine Runs.stk_bind fun l s hget => ?_
  obtain ⟨hl, rfl⟩ := StackM.get_ok hget
  change Runs K X _ _ c₁ M₁
  have tail : ∀ {P : ForInStep PUnit → Compiler → Machine → Prop} {c₂ M₂},
      Rep M₂ fb cap c₂.stack vs → Fit T c₂.stack → c₂.stack.sp = c.stack.sp →
      Keeps M M₂ fb gpPool.toFinset c.stack.sp →
      (∀ c' M', Rep M' fb cap c'.stack vs → Fit T c'.stack → c'.stack.sp = c.stack.sp →
        Keeps M M' fb gpPool.toFinset c.stack.sp → P (.yield PUnit.unit) c' M') →
      Runs K X (do spill i; pure (ForInStep.yield PUnit.unit)) P c₂ M₂ := by
    intro P c₂ M₂ h₂ hfit₂ hsp₂ hk₂ hP
    refine Runs.bind (runs_spill h₂ hfit₂.1 i fun c₃ M₃ he₃ h₃ hk₃ => Runs.pure' ?_)
      fun _ => .pure' _
    obtain ⟨hfit₃, hsp₃⟩ := (wp_ok he₃).mp (wp_spill (a := c₂.asm)
      (Q := fun _ c' => Fit T c'.stack ∧ c'.stack.sp = c₂.stack.sp) hfit₂ i
      fun c' h' hs _ _ _ => ⟨h', hs.size_eq⟩)
    exact hP _ _ h₃ hfit₃ (hsp₃.trans hsp₂) ((hk₂.trans hk₃).mono (by simp) (by rw [hsp₂]; simp))
  cases hfl : l.flag with
  | none => exact tail h₁ hfit₁ hsp₁ hk₁ fun c' M' h' hf' hs' hk' => ⟨h', hf', hs', hk'⟩
  | some f =>
    refine Runs.bind (runs_flagToRegister h₁ hfit₁ hcard f
      fun r c₂ M₂ hr hrT hfit₂ hs₂ hR₂ hk₂ hin => ?_) fun r => .bind (.stk' _) fun _ =>
        .bind (grows_spill i) fun _ => .pure' _
    refine Runs.stk_bind fun _ s hm => ?_
    obtain ⟨hreg, hty⟩ := hfit₁.1.flagged hl (by rw [hfl]; rfl)
    have hl₂ := hs₂.get_of_reg_none hl hreg
    rw [StackM.setRegister_eq hl₂ (fun hlo => by rw [hty] at hlo; cases hlo)] at hm
    cases hm
    have hlay := hfit₂.1.setRegister hl₂ hreg (by rw [hty]; decide) (Finset.mem_insert_self r T)
    rw [Finset.erase_insert hrT] at hlay
    obtain ⟨v, hv⟩ := h₁.lt_length hl
    have hval : v = if (condOf f).holds M₁.cpu.flags then 1 else 0 := by
      have := h₁.resides hl hv
      simpa [Resides, hreg, hfl] using this
    refine tail (hR₂.setRegister hl₂ (by rw [hty]; decide) hv (by rw [hty, hval]; exact hin) _)
      ⟨hlay, hfit₂.2⟩ ?_ ?_ fun c' M' h' hf' hs' hk' => ⟨h', hf', hs', hk'⟩
    · show (modifyValue _ _ _ _).size = _
      rw [size_modifyValue, hs₂.size_eq]
      exact hsp₁
    · refine (hk₁.trans hk₂).mono ?_ (by rw [hsp₁]; simp)
      rw [Finset.union_subset_iff]
      exact ⟨le_rfl, by simpa using hr⟩

/-- A comparison on top of the stack set into a register as 0 or 1: the machine holds the
same values. -/
theorem runs_materializeTopFlag (h : Rep M fb cap c.stack vs) (hfit : Fit T c.stack)
    (hcard : T.card < 9) {Q : Unit → Compiler → Machine → Prop}
    (hQ : ∀ c' M', materializeTopFlag c = .ok ((), c') → Rep M' fb cap c'.stack vs →
      Keeps M M' fb gpPool.toFinset c.stack.sp → Q () c' M') :
    Runs K X materializeTopFlag Q c M := by
  refine Runs.withEq ?_
  have hkeep : Keeps M M fb gpPool.toFinset c.stack.sp := (Keeps.refl M fb).mono (by simp) (by simp)
  unfold materializeTopFlag
  refine Runs.get_bind ?_
  dsimp only
  cases htop : c.stack.slots.back? with
  | none => exact Runs.pure' (Q := fun _ c' M' => _ → Q () c' M') fun he => hQ c M he h hkeep
  | some top =>
    dsimp only
    cases hf : top.flag with
    | none => exact Runs.pure' (Q := fun _ c' M' => _ → Q () c' M') fun he => hQ c M he h hkeep
    | some f =>
      dsimp only
      refine Runs.get_bind (Runs.bind (runs_flagToRegister h hfit hcard f
        fun r c₂ M₂ hr _ _ hs₂ hR₂ hk₂ hin => ?_) fun _ => .stk' _)
      refine Runs.stk' fun _ s hm he => hQ _ _ he ?_ ((hk₂.mono (by simpa using hr) le_rfl))
      have hidx : c.stack.slots[c.stack.sp - 1]? = some top := by
        show c.stack.slots[c.stack.slots.size - 1]? = some top
        rw [← Array.back?_eq_getElem?]
        exact htop
      obtain ⟨hreg, hty⟩ := hfit.1.flagged hidx (by rw [hf]; rfl)
      have htop₂ := hs₂.get_of_reg_none hidx hreg
      rw [StackM.setRegister_eq htop₂ (fun hlo => by rw [hty] at hlo; cases hlo)] at hm
      cases hm
      obtain ⟨v, hv⟩ := h.lt_length hidx
      have hval : v = if (condOf f).holds M.cpu.flags then 1 else 0 := by
        have := h.resides hidx hv
        simpa [Resides, hreg, hf] using this
      exact hR₂.setRegister htop₂ (by rw [hty]; decide) hv (by rw [hty, hval]; exact hin) _

end Release

end OnePassJit.Amd64
