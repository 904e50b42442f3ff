import OnePassJit.Arm64.Lower
import OnePassJit.Proofs.Residence
import OnePassJit.Proofs.Wp

/-!
What each move shared by the arm64 lowerings does to the value stack.

The moves are those of amd64 (`Proofs/Amd64/Primitives`) with arm64 code: the
statements are the same weakest preconditions in continuation form, so the lowerings of
both backends are proved alike. What differs is the code around the moves. Exits,
builtin calls and the module context go through the scratch registers x27 and x28,
which the allocator never hands out, so all of them only emit code (`Quiet`), and a
slot offset may take 63 bits.

Allocation needs fewer temporaries and excluded registers than nine; both arm64 pools
are larger (`nine_le_pool`), so the bound of amd64 serves here too.
-/

namespace OnePassJit.Arm64.Lower

open ValueStack StackM

variable {α : Type} {c : Compiler} {a : Encoder} {T : Finset Reg} {Q : α → Compiler → Prop}

abbrev Fit (T : Finset Reg) (s : ValueStack) : Prop := Laid T gpPool vecPool s

def Frame (c c' : Compiler) : Prop := c'.labels = c.labels ∧ c'.fn = c.fn

theorem Frame.rfl' : Frame c c := ⟨rfl, rfl⟩

theorem Frame.trans {c' c'' : Compiler} (h₁ : Frame c c') (h₂ : Frame c' c'') : Frame c c'' :=
  ⟨h₂.1.trans h₁.1, h₂.2.trans h₁.2⟩

/-! Pools. -/

theorem pool_storable (s : ValueStack) (hg : s.gpPool = gpPool) (hv : s.vecPool = vecPool)
    (kind : RegKind) : ∀ r ∈ s.pool kind, RegSet.storable r = true := by
  cases kind <;> simp only [pool, hg, hv] <;> decide

theorem pool_kind (s : ValueStack) (hg : s.gpPool = gpPool) (hv : s.vecPool = vecPool)
    (kind : RegKind) : ∀ r ∈ s.pool kind, r.kind = kind := by
  cases kind <;> simp only [pool, hg, hv] <;> decide

theorem pool_nodup (s : ValueStack) (hg : s.gpPool = gpPool) (hv : s.vecPool = vecPool)
    (kind : RegKind) : (s.pool kind).Nodup := by
  cases kind <;> simp only [pool, hg, hv] <;> decide

theorem nine_le_pool (s : ValueStack) (hg : s.gpPool = gpPool) (hv : s.vecPool = vecPool)
    (kind : RegKind) : 9 ≤ (s.pool kind).length := by
  cases kind <;> simp only [pool, hg, hv] <;> decide

theorem Fit.room {s : ValueStack} (h : Fit T s) {kind : RegKind} {excl : RegSet}
    {E : Finset Reg} (hE : ∀ r, excl.contains r = true → r ∈ E) (hcard : T.card + E.card < 9) :
    ∃ r ∈ s.pool kind, r.kind = kind ∧ r ∉ T ∧ excl.contains r = false :=
  room_of_card (pool_nodup s h.2.1 h.2.2 kind) (pool_kind s h.2.1 h.2.2 kind) hE
    (lt_of_lt_of_le hcard (nine_le_pool s h.2.1 h.2.2 kind))

theorem Fit.room_free {s : ValueStack} (h : Fit T s) {kind : RegKind} (hcard : T.card < 9) :
    ∃ r ∈ s.pool kind, r.kind = kind ∧ r ∉ T ∧ ({} : RegSet).contains r = false :=
  h.room (E := ∅) (by simp) (by simpa using hcard)

/-! Assembler and stack steps. -/

@[simp] theorem wp_asm {m : EncM α} :
    wp (asm m) Q c ↔ ∀ a s, m c.asm = .ok (a, s) → Q a { c with asm := s } := by
  unfold wp asm
  cases h : m c.asm with
  | ok p =>
    obtain ⟨a, s⟩ := p
    exact ⟨fun hq a' s' he => by cases he; exact hq, fun hq => hq a s rfl⟩
  | error e => simp

theorem wp_stk {m : StackM α} :
    wp (stk m) Q c ↔ ∀ a s, m c.stack = .ok a s → Q a { c with stack := s } := by
  unfold wp stk
  cases h : m c.stack with
  | ok a s => simp
  | error e s => simp

theorem wp_stk_keeps {m : StackM α} (hk : StackM.Keeps (Fit T) m) (h : Fit T c.stack)
    (hQ : ∀ x s, m c.stack = .ok x s → Fit T s → Q x { c with stack := s }) :
    wp (stk m) Q c :=
  wp_stk.mpr fun x s hm => hQ x s hm (hk _ _ _ h hm)

theorem wp_regOf {l : Location} {r : Reg} {Q : Reg → Compiler → Prop} (hr : l.reg = some r) :
    wp (regOf l) Q c ↔ Q r c := by
  simp only [regOf, hr]
  rfl

/-- `m` changes nothing but the code, and fails only routinely. -/
def Quiet (m : LowerM α) : Prop :=
  ∀ c (Q : α → Compiler → Prop), (∀ a s, Q a { c with asm := s }) → wp m Q c

namespace Quiet

theorem asm' (m : EncM α) : Quiet (asm m) := by
  intro c Q hQ
  rw [wp_asm]
  exact fun a s _ => hQ a s

theorem pure' (a : α) : Quiet (pure a : LowerM α) := fun c _ hQ => hQ a c.asm

theorem bind {β : Type} {m : LowerM α} {f : α → LowerM β} (hm : Quiet m)
    (hf : ∀ a, Quiet (f a)) : Quiet (m >>= f) := by
  intro c Q hQ
  rw [wp_bind]
  exact hm c _ fun a s => hf a _ Q fun b s' => hQ b s'

theorem throw' (e : CompileError) (he : e.Routine) : Quiet (throw e : LowerM α) :=
  fun _ _ _ => he

theorem forIn_list {β γ : Type} (xs : List γ) (b : β) {f : γ → β → LowerM (ForInStep β)}
    (hf : ∀ x b, Quiet (f x b)) : Quiet (forIn xs b f) := by
  induction xs generalizing b with
  | nil => exact pure' b
  | cons x xs ih =>
    rw [List.forIn_cons]
    refine bind (hf x b) fun r => ?_
    cases r with
    | done b' => exact pure' b'
    | yield b' => exact ih b'

end Quiet

@[simp] theorem wp_scaled {i k : Nat} {space : IndexSpace} {Q : Int → Compiler → Prop} :
    wp (scaled i k space) Q c ↔ (i * k < Nat.pow 2 63 → Q ((i : Int) * k) c) := by
  unfold scaled
  by_cases hi : i * k < Nat.pow 2 63 <;> simp [hi]

@[simp] theorem wp_slot {i : Nat} {Q : Int → Compiler → Prop} :
    wp (slot i) Q c ↔ (i * 8 < Nat.pow 2 63 → Q ((i : Int) * 8) c) := by
  simp only [slot, wp_scaled, Nat.cast_ofNat]

theorem wp_asm_bind {β : Type} {m : EncM β} {k : β → LowerM α}
    (hk : ∀ b s, wp (k b) Q { c with asm := s }) : wp (asm m >>= k) Q c := by
  rw [wp_bind, wp_asm]
  exact fun b s _ => hk b s

theorem Quiet.get' : Quiet (get : LowerM Compiler) := fun c _ hQ => hQ c c.asm

theorem Quiet.ite' {p : Prop} [Decidable p] {m₁ m₂ : LowerM α} (h₁ : Quiet m₁) (h₂ : Quiet m₂) :
    Quiet (if p then m₁ else m₂) := by
  split
  · exact h₁
  · exact h₂

theorem wp_ite_prefix {β : Type} {p : Prop} [Decidable p] {m : LowerM PUnit} {k : LowerM β}
    {Q : β → Compiler → Prop} (hm : Quiet m) (hk : ∀ s, wp k Q { c with asm := s }) :
    wp (if p then m >>= fun _ => k else k) Q c := by
  split
  · rw [wp_bind]
    exact hm c _ fun _ s => hk s
  · exact hk c.asm

theorem quiet_scaled (i k : Nat) (space : IndexSpace) : Quiet (scaled i k space) := by
  intro c Q hQ
  unfold scaled
  split
  · exact hQ _ c.asm
  · simp

theorem quiet_slot (i : Nat) : Quiet (slot i) := quiet_scaled i 8 .stackSlot

theorem quiet_loadCtx (r : Reg) (field : Int) : Quiet (loadCtx r field) := Quiet.asm' _

theorem quiet_storeCtx (r : Reg) (field : Int) : Quiet (storeCtx r field) := Quiet.asm' _

theorem quiet_movValue (d r : Reg) (t : SlotType) : Quiet (movValue d r t) := by
  unfold movValue
  split
  · exact Quiet.pure' ()
  · split
    · exact Quiet.asm' _
    · exact Quiet.asm' _

theorem wp_storeSlot {r : Reg} {i : Nat} {t : SlotType} {Q : Unit → Compiler → Prop}
    (hQ : ∀ s, t ≠ .v128hi → Q () { c with asm := s }) : wp (storeSlot r i t) Q c := by
  unfold storeSlot
  rw [wp_bind]
  refine quiet_slot i c _ fun m s => ?_
  cases t <;> simp only [wp_asm, wp_throw, CompileError.routine_iff, ne_eq,
    reduceCtorEq, not_false_eq_true, implies_true] <;>
    exact fun _ s' _ => hQ s' (by decide)

theorem quiet_loadSlot (r : Reg) (i : Nat) (t : SlotType) : Quiet (loadSlot r i t) := by
  intro c Q hQ
  unfold loadSlot
  rw [wp_bind]
  refine quiet_slot i c _ fun m s => ?_
  cases t <;> simp only [wp_asm, wp_throw, CompileError.routine_iff, ne_eq,
    reduceCtorEq, not_false_eq_true, implies_true] <;>
    exact fun _ s' _ => hQ _ s'

theorem quiet_writeExitStatus (st : Status) : Quiet (writeExitStatus st) := by
  unfold writeExitStatus
  refine fun c Q hQ => ?_
  rw [wp_bind]
  refine Quiet.asm' _ c _ fun _ _ => ?_
  rw [wp_bind]
  refine Quiet.asm' _ _ _ fun _ _ => ?_
  rw [wp_bind, wp_get]
  exact Quiet.bind (Quiet.asm' _) (fun _ => quiet_storeCtx _ _) _ Q fun a s => hQ a s

theorem quiet_jumpToHost : Quiet jumpToHost :=
  Quiet.bind (quiet_loadCtx _ _) fun _ => Quiet.asm' _

theorem quiet_exit (st : Status) : Quiet (exit st) := by
  unfold exit
  exact Quiet.bind (quiet_writeExitStatus st) fun _ => Quiet.bind (Quiet.asm' _) fun _ =>
    Quiet.bind (Quiet.asm' _) fun _ => Quiet.bind (quiet_storeCtx _ _) fun _ => quiet_jumpToHost

theorem quiet_exitResumable (st : Status) : Quiet (exitResumable st) := by
  unfold exitResumable
  exact Quiet.bind (quiet_writeExitStatus st) fun _ => Quiet.bind (Quiet.asm' _) fun _ =>
    Quiet.bind (Quiet.asm' _) fun _ => Quiet.bind (quiet_storeCtx _ _) fun _ =>
      Quiet.bind quiet_jumpToHost fun _ => Quiet.asm' _

theorem quiet_initStackBase : Quiet initStackBase :=
  Quiet.bind (quiet_loadCtx _ _) fun _ => Quiet.bind (quiet_loadCtx _ _) fun _ => Quiet.asm' _

theorem quiet_initMemory : Quiet initMemory := by
  intro c Q hQ
  unfold initMemory fn
  simp only [wp_bind, wp_get, wp_pure]
  split
  · exact quiet_loadCtx _ _ c Q hQ
  · exact hQ () c.asm

theorem quiet_callBuiltin (b : Builtin) : Quiet (callBuiltin b) := by
  unfold callBuiltin
  exact Quiet.bind (Quiet.asm' _) fun _ => Quiet.bind (Quiet.asm' _) fun _ =>
    Quiet.bind (quiet_exitResumable _) fun _ => Quiet.bind quiet_initStackBase fun _ =>
      quiet_initMemory

theorem quiet_copyModuleField (src dst : Int) : Quiet (copyModuleField src dst) :=
  Quiet.bind (Quiet.asm' _) fun _ => quiet_storeCtx _ _

theorem quiet_initModuleContext : Quiet initModuleContext := by
  unfold initModuleContext fn
  dsimp only
  repeat' with_reducible first
    | exact Quiet.asm' _
    | exact quiet_loadCtx _ _
    | exact quiet_storeCtx _ _
    | exact quiet_copyModuleField _ _
    | exact Quiet.get'
    | exact Quiet.pure' _
    | refine Quiet.bind ?_ fun _ => ?_
    | refine Quiet.ite' ?_ ?_

/-! Spilling and allocating. -/

theorem markUsed_eq (s : ValueStack) (r : Reg) :
    StackM.markUsed r s = .ok () { s with used := s.used.insert r } := rfl

theorem markUnused_eq (s : ValueStack) (r : Reg) :
    StackM.markUnused r s = .ok () { s with used := s.used.erase r } := rfl

theorem wp_spill (h : Fit T c.stack) (i : Nat) {Q : Unit → Compiler → Prop}
    (hQ : ∀ c', Fit T c'.stack → Spills c.stack c'.stack → Frame c c' →
      (∀ l, c'.stack.slots[i]? = some l → l.reg = none) →
      (∀ l r, c.stack.slots[i]? = some l → l.reg = some r → ¬ c'.stack.Holds r) → Q () c') :
    wp (spill i) Q { c with asm := a } := by
  unfold spill
  rw [wp_bind, wp_stk]
  intro l s hget
  obtain ⟨hl, rfl⟩ := StackM.get_ok hget
  cases hr : l.reg with
  | none =>
    refine hQ _ h (Spills.refl _) Frame.rfl' (fun l' hl' => ?_) (fun l' r hl' hr' => ?_)
    · rw [hl] at hl'
      cases hl'
      exact hr
    · rw [hl] at hl'
      cases hl'
      rw [hr] at hr'
      cases hr'
  | some r =>
    dsimp only
    rw [wp_bind]
    refine wp_storeSlot fun _ hhi => ?_
    rw [wp_stk]
    intro u s₁ hm
    rw [StackM.markOnStack_eq hl (h.1.pair_lt hl)] at hm
    cases hm
    have hlay := h.1.markOnStack hl hr hhi
    refine hQ _ ⟨hlay, h.2⟩ (h.1.spills_markOnStack hl hr _) ⟨rfl, rfl⟩ (fun l' hl' => ?_)
      (fun l' r' hl' hr' hh => ?_)
    · simp only [getElem?_modifyValue, true_or, if_true, hl, Option.map_some,
        Option.some.injEq] at hl'
      rw [← hl']
      rfl
    · rw [hl] at hl'
      cases hl'
      rw [hr] at hr'
      cases hr'
      have := (hlay.used_iff r).mpr (.inl hh)
      simp [hr, RegSet.contains_erase] at this

theorem wp_allocate (h : Fit T c.stack) {kind : RegKind} {excl : RegSet}
    (hroom : ∃ r ∈ c.stack.pool kind, r.kind = kind ∧ r ∉ T ∧ excl.contains r = false)
    {Q : Reg → Compiler → Prop}
    (hQ : ∀ r c', Fit (insert r T) c'.stack → r ∉ T → excl.contains r = false →
      Spills c.stack c'.stack → Frame c c' → Q r c') :
    wp (allocate kind excl) Q { c with asm := a } := by
  unfold allocate
  simp only [wp_bind, wp_get]
  cases hfree : c.stack.takeFree kind excl with
  | some r =>
    obtain ⟨hmem, hused, hex⟩ := takeFree_some hfree
    simp only [wp_bind, wp_stk, wp_pure]
    intro u s hm
    rw [markUsed_eq] at hm
    cases hm
    have hnh : ¬ c.stack.Holds r := fun hh => by
      rw [(h.1.used_iff r).mpr (.inl hh)] at hused
      cases hused
    have hnT : r ∉ T := fun hT => by
      rw [(h.1.used_iff r).mpr (.inr hT)] at hused
      cases hused
    exact hQ r _ ⟨h.1.insert_used hnh (pool_storable _ h.2.1 h.2.2 kind r hmem), h.2⟩ hnT hex
      (Spills.of_used _) ⟨rfl, rfl⟩
  | none =>
    have hsteal := h.1.stealTarget_ne_none hroom hfree
    cases hv : c.stack.stealTarget kind excl with
    | none => exact absurd hv hsteal
    | some victim =>
      obtain ⟨l, r, hl, -, hr, -, hex⟩ := stealTarget_some hv
      simp only [wp_bind, wp_stk]
      intro l' s hget
      obtain ⟨hl', rfl⟩ := StackM.get_ok hget
      rw [hl] at hl'
      cases hl'
      rw [wp_regOf hr]
      refine wp_spill h victim fun c₁ h₁ hs₁ hf₁ _ hgone => ?_
      simp only [wp_modify]
      intro u s hm
      rw [markUsed_eq] at hm
      cases hm
      have hheld : c.stack.Holds r := mem_regsOf.mpr ⟨victim, l, hl, hr⟩
      have hnT : r ∉ T := fun hT => h.1.temp_free r hT hheld
      exact hQ r _ ⟨h₁.1.insert_used (hgone l r hl hr) (h.1.storable_of_holds hheld), h₁.2⟩ hnT
        hex (hs₁.trans (Spills.of_used _)) hf₁

theorem wp_releaseReg (h : Fit T c.stack) {r : Reg} (hr : ¬ c.stack.Holds r)
    {Q : Unit → Compiler → Prop}
    (hQ : ∀ c', Fit (T.erase r) c'.stack →
      c'.stack = { c.stack with used := c.stack.used.erase r } → Frame c c' → Q () c') :
    wp (releaseReg r) Q { c with asm := a } := by
  unfold releaseReg
  rw [wp_stk]
  intro u s hm
  rw [markUnused_eq] at hm
  cases hm
  by_cases hT : r ∈ T
  · exact hQ _ ⟨h.1.erase_used hT, h.2⟩ rfl ⟨rfl, rfl⟩
  · rw [Finset.erase_eq_of_notMem hT] at hQ
    exact hQ _ ⟨h.1.erase_used_of_free hr hT, h.2⟩ rfl ⟨rfl, rfl⟩

theorem wp_release (h : Fit T c.stack) {l : Location} (hl : ∀ r, l.reg = some r → ¬ c.stack.Holds r)
    {Q : Unit → Compiler → Prop}
    (hQ : ∀ c', Fit (T \ l.reg.toFinset) c'.stack → Spills c.stack c'.stack → Frame c c' →
      Q () c') :
    wp (release l) Q { c with asm := a } := by
  unfold release
  cases hr : l.reg with
  | none =>
    simp only [hr, Option.toFinset_none, Finset.sdiff_empty] at hQ
    exact hQ _ h (Spills.refl _) Frame.rfl'
  | some r =>
    dsimp only
    refine wp_releaseReg h (hl r hr) fun c' h' hs hf => ?_
    rw [hr, Option.toFinset_some, Finset.sdiff_singleton_eq_erase] at hQ
    exact hQ c' h' (hs ▸ Spills.of_used _) hf

theorem wp_flagToRegister (h : Fit T c.stack) (hcard : T.card < 9) (f : Flag)
    {Q : Reg → Compiler → Prop}
    (hQ : ∀ r c', Fit (insert r T) c'.stack → r ∉ T → Spills c.stack c'.stack → Frame c c' →
      Q r c') :
    wp (flagToRegister f) Q { c with asm := a } := by
  unfold flagToRegister
  rw [wp_bind]
  refine wp_allocate h (h.room_free hcard) fun r c₁ h₁ hT _ hs hf => ?_
  simp only [wp_bind, wp_asm, wp_pure]
  exact fun _ _ _ => hQ r _ h₁ hT hs hf

theorem wp_materializeTopFlag (h : Fit T c.stack) (hcard : T.card < 9)
    {Q : Unit → Compiler → Prop}
    (hQ : ∀ c', Fit T c'.stack → Moves c.stack c'.stack → Frame c c' →
      (∀ l, c'.stack.slots.back? = some l → l.flag = none) → Q () c') :
    wp materializeTopFlag Q { c with asm := a } := by
  unfold materializeTopFlag
  simp only [wp_bind, wp_get]
  cases htop : c.stack.slots.back? with
  | none =>
    exact hQ _ h (Moves.refl _) Frame.rfl' fun l hl => by rw [htop] at hl; cases hl
  | some top =>
    dsimp only
    cases hf : top.flag with
    | none =>
      exact hQ _ h (Moves.refl _) Frame.rfl' fun l hl => by
        rw [htop] at hl
        cases hl
        exact hf
    | some f =>
      dsimp only
      simp only [wp_bind, wp_get]
      refine wp_flagToRegister h hcard f fun r c₁ h₁ hT hs hf₁ => ?_
      rw [wp_stk]
      intro u s hm
      have hidx : c.stack.slots[c.stack.sp - 1]? = some top := by
        show c.stack.slots[c.stack.slots.size - 1]? = some top
        rw [← Array.back?_eq_getElem?]
        exact htop
      obtain ⟨hreg, hty⟩ := h.1.flagged hidx (by rw [hf]; rfl)
      have htop₁ := hs.get_of_reg_none hidx hreg
      rw [StackM.setRegister_eq htop₁ (fun hlo => by rw [hty] at hlo; cases hlo)] at hm
      cases hm
      have hlay := h₁.1.setRegister htop₁ hreg (by rw [hty]; decide) (Finset.mem_insert_self r T)
      rw [Finset.erase_insert hT] at hlay
      refine hQ _ ⟨hlay, h₁.2⟩ (hs.moves.trans
        (Moves.of_modifyValue (f := fun x => x.setRegister r) (fun x => ⟨rfl, rfl⟩) _))
        hf₁ fun l hl => ?_
      have hsz : c₁.stack.slots.size = c.stack.slots.size := hs.size_eq
      rw [Array.back?_eq_getElem?, size_modifyValue, getElem?_modifyValue, hsz] at hl
      rw [if_pos (.inl rfl)] at hl
      rw [show c.stack.slots.size - 1 = c.stack.sp - 1 from rfl, htop₁] at hl
      cases hl
      rfl

theorem wp_releaseAllToStack (h : Fit T c.stack) (hcard : T.card < 9)
    {Q : Unit → Compiler → Prop}
    (hQ : ∀ c', Fit T c'.stack → Moves c.stack c'.stack → InMemory c'.stack → Frame c c' →
      Q () c') :
    wp releaseAllToStack Q { c with asm := a } := by
  unfold releaseAllToStack
  simp only [wp_bind, wp_get]
  let I : List Nat → PUnit → Compiler → Prop := fun rest _ c' =>
    Fit T c'.stack ∧ Moves c.stack c'.stack ∧ Frame c c' ∧
      ∀ ⦃j : Nat⦄ ⦃l : Location⦄, c'.stack.slots[j]? = some l → l.type ≠ .v128hi → j ∉ rest →
        l.onStack
  refine (wp_forIn_list (c := { c with asm := a }) _ _ _ I (fun i rest _ c₁ hI => ?_)
    ⟨h, Moves.refl _, Frame.rfl',
    fun j l hl hhi hj => onStack_of_not_mem_nonMemoryResident hj hl hhi⟩).mono
    fun _ c' hI' => by
      obtain ⟨h', hm', hf', hon'⟩ := hI'
      exact hQ c' h' hm' (h'.1.inMemory fun j l hl hhi => hon' hl hhi List.not_mem_nil) hf'
  obtain ⟨h₁, hm₁, hf₁, hon₁⟩ := hI
  have tail : ∀ c₂, Fit T c₂.stack → Moves c₁.stack c₂.stack → Frame c₁ c₂ →
      (∀ ⦃j : Nat⦄ ⦃l : Location⦄, j ≠ i → c₁.stack.slots[j]? = some l → l.onStack →
        c₂.stack.slots[j]? = some l) →
      (∀ l, c₂.stack.slots[i]? = some l → l.flag = none) →
      wp (spill i) (fun _ c' => I rest () c') c₂ := by
    intro c₂ h₂ hm₂ hf₂ hkeep hflag
    refine wp_spill h₂ i fun c₃ h₃ hs₃ hf₃ hreg₃ _ => ⟨h₃, hm₁.trans (hm₂.trans hs₃.moves),
      hf₁.trans (hf₂.trans hf₃), fun j l hl hhi hj => ?_⟩
    by_cases hji : j = i
    · subst hji
      obtain ⟨l₂, hl₂, -, hfl⟩ := hs₃.moves.slot hl
      have hf : l.flag = none := by
        rcases hfl with e | e
        · exact e
        · rw [e]
          exact hflag l₂ hl₂
      simp [Location.onStack, hreg₃ l hl, hf]
    · obtain ⟨l₁, hl₁, ht₁, -⟩ := (hm₂.trans hs₃.moves).slot hl
      have hon := hon₁ hl₁ (ht₁ ▸ hhi) (by simp [hji, hj])
      have hnone : l₁.reg = none := by
        simp only [Location.onStack, Bool.and_eq_true, Option.isNone_iff_eq_none] at hon
        exact hon.1
      have h₃j := hs₃.get_of_reg_none (hkeep hji hl₁ hon) hnone
      rw [hl] at h₃j
      cases h₃j
      exact hon
  simp only [wp_bind, wp_stk]
  intro l s hget
  obtain ⟨hl, rfl⟩ := StackM.get_ok hget
  cases hfl : l.flag with
  | none =>
    simp only [wp_bind]
    exact tail _ h₁ (Moves.refl _) Frame.rfl' (fun j l' _ hl' _ => hl') fun l' hl' => by
      rw [hl] at hl'
      cases hl'
      exact hfl
  | some f =>
    dsimp only
    simp only [wp_bind]
    refine wp_flagToRegister h₁ hcard f fun r c₂ h₂ hT hs₂ hf₂ => ?_
    rw [wp_stk]
    intro u s hm
    obtain ⟨hreg, hty⟩ := h₁.1.flagged hl (by rw [hfl]; rfl)
    have hl₂ := hs₂.get_of_reg_none hl hreg
    rw [StackM.setRegister_eq hl₂ (fun hlo => by rw [hty] at hlo; cases hlo)] at hm
    cases hm
    have hlay := h₂.1.setRegister hl₂ hreg (by rw [hty]; decide) (Finset.mem_insert_self r T)
    rw [Finset.erase_insert hT] at hlay
    refine tail _ ⟨hlay, h₂.2⟩ (hs₂.moves.trans
      (Moves.of_modifyValue (f := fun x => x.setRegister r) (fun x => ⟨rfl, rfl⟩) _)) hf₂
      (fun j l' hj hl' hon => ?_) (fun l' hl' => ?_)
    · have hnone : l'.reg = none := by
        simp only [Location.onStack, Bool.and_eq_true, Option.isNone_iff_eq_none] at hon
        exact hon.1
      show (ValueStack.modifyValue _ _ _ _)[j]? = _
      rw [getElem?_modifyValue, if_neg (by simp [hj, hty]), hs₂.get_of_reg_none hl' hnone]
    · change (ValueStack.modifyValue _ _ _ _)[i]? = _ at hl'
      rw [getElem?_modifyValue, if_pos (.inl rfl), hl₂] at hl'
      cases hl'
      rfl

/-! Filling registers and popping operands. -/

@[simp] theorem wp_fn {Q : FunctionIr → Compiler → Prop} : wp fn Q c ↔ Q c.fn c := Iff.rfl

theorem wp_markUsed_temp (h : Fit T c.stack) {r : Reg} (hr : r ∈ T) {Q : Unit → Compiler → Prop}
    (hQ : ∀ c', Fit T c'.stack → Spills c.stack c'.stack → Frame c c' → Q () c') :
    wp (stk (StackM.markUsed r)) Q { c with asm := a } := by
  rw [wp_stk]
  intro u s hm
  rw [markUsed_eq] at hm
  cases hm
  exact hQ _ ⟨h.1.insert_temp hr, h.2⟩ (Spills.of_used _) Frame.rfl'

theorem wp_markUsed_free (h : Fit T c.stack) {r : Reg} (hr : ¬ c.stack.Holds r)
    (hst : RegSet.storable r = true) {Q : Unit → Compiler → Prop}
    (hQ : ∀ c', Fit (insert r T) c'.stack → Spills c.stack c'.stack → Frame c c' → Q () c') :
    wp (stk (StackM.markUsed r)) Q { c with asm := a } := by
  rw [wp_stk]
  intro u s hm
  rw [markUsed_eq] at hm
  cases hm
  exact hQ _ ⟨h.1.insert_used hr hst, h.2⟩ (Spills.of_used _) Frame.rfl'

theorem setRegister_self {l : Location} {r : Reg} (hr : l.reg = some r) (hf : l.flag = none) :
    l.setRegister r = l := by
  cases l
  simp_all [Location.setRegister]

theorem wp_fillRegister (h : Fit T c.stack) {l : Location} {r : Reg} (hr : r ∈ T)
    (hold : ∀ old, l.reg = some old → old ∈ T ∧ old ≠ r)
    (hflag : l.flag.isSome → l.type = .i32) {Q : Location → Compiler → Prop}
    (hQ : ∀ c', Fit (T \ l.reg.toFinset) c'.stack → Spills c.stack c'.stack → Frame c c' →
      Q (l.setRegister r) c') :
    wp (fillRegister l r) Q { c with asm := a } := by
  unfold fillRegister
  cases hreg : l.reg with
  | some old =>
    obtain ⟨hold, hne⟩ := hold old hreg
    rw [hreg, Option.toFinset_some, Finset.sdiff_singleton_eq_erase] at hQ
    simp only [wp_bind]
    refine quiet_movValue r old l.type _ _ fun _ _ => ?_
    refine wp_releaseReg h (h.1.temp_free old hold) fun c₁ h₁ hc₁ hf₁ => ?_
    rw [wp_pure]
    refine wp_markUsed_temp h₁ (Finset.mem_erase.mpr ⟨Ne.symm hne, hr⟩) fun c₂ h₂ hs₂ hf₂ => ?_
    exact hQ c₂ h₂ ((hc₁ ▸ Spills.of_used _).trans hs₂) (hf₁.trans hf₂)
  | none =>
    rw [hreg, Option.toFinset_none, Finset.sdiff_empty] at hQ
    cases hfl : l.flag with
    | some f =>
      have hl : ({ type := .i32, flag := some f, slot := l.slot } : Location).setRegister r =
          l.setRegister r := by
        have hty := hflag (by rw [hfl]; rfl)
        cases l
        simp_all [Location.setRegister]
      simp only [wp_bind, wp_asm, wp_pure]
      intro _ _ _
      rw [hl]
      exact wp_markUsed_temp h hr fun c₂ h₂ hs₂ hf₂ => hQ c₂ h₂ hs₂ hf₂
    | none =>
      simp only [wp_bind, wp_pure]
      refine quiet_loadSlot r l.slot l.type _ _ fun _ _ => ?_
      exact wp_markUsed_temp h hr fun c₂ h₂ hs₂ hf₂ => hQ c₂ h₂ hs₂ hf₂

theorem wp_loadDetached (h : Fit T c.stack) {l : Location} {excl : RegSet} {E : Finset Reg}
    (hE : ∀ r, excl.contains r = true → r ∈ E) (hcard : T.card + E.card < 9)
    (hl : ∀ r, l.reg = some r → r ∈ T) (hflag : l.flag.isSome → l.reg = none ∧ l.type = .i32)
    {Q : Location → Compiler → Prop}
    (hQ : ∀ r c', Fit (insert r (T \ l.reg.toFinset)) c'.stack → r ∉ T \ l.reg.toFinset →
      excl.contains r = false → Spills c.stack c'.stack → Frame c c' → Q (l.setRegister r) c') :
    wp (loadDetached l excl) Q { c with asm := a } := by
  unfold loadDetached
  have hflag' : l.flag.isSome → l.type = .i32 := fun hf => (hflag hf).2
  cases hreg : l.reg with
  | some r₀ =>
    have hr₀ := hl r₀ hreg
    have hnf : l.flag = none := by
      cases hf : l.flag with
      | none => rfl
      | some f =>
        have := (hflag (by rw [hf]; rfl)).1
        rw [hreg] at this
        cases this
    rw [hreg, Option.toFinset_some, Finset.sdiff_singleton_eq_erase] at hQ
    dsimp only
    rw [wp_ite]
    refine ⟨fun hex => ?_, fun hex => ?_⟩
    · rw [wp_bind]
      refine wp_allocate h (h.room hE hcard) fun r c₁ h₁ hT hexr hs₁ hf₁ => ?_
      have hne : r₀ ≠ r := fun e => hT (e ▸ hr₀)
      refine wp_fillRegister h₁ (Finset.mem_insert_self r T)
        (fun old e => ?_) hflag' fun c₂ h₂ hs₂ hf₂ => ?_
      · rw [hreg] at e
        cases e
        exact ⟨Finset.mem_insert_of_mem hr₀, hne⟩
      · rw [hreg, Option.toFinset_some, Finset.sdiff_singleton_eq_erase,
          Finset.erase_insert_of_ne (Ne.symm hne)] at h₂
        exact hQ r c₂ h₂ (fun hm => hT (Finset.mem_of_mem_erase hm)) hexr (hs₁.trans hs₂)
          (hf₁.trans hf₂)
    · rw [← setRegister_self hreg hnf]
      exact hQ r₀ _ (by rw [Finset.insert_erase hr₀]; exact h) (Finset.notMem_erase r₀ T)
        (by simpa using hex) (Spills.refl _) Frame.rfl'
  | none =>
    rw [hreg, Option.toFinset_none, Finset.sdiff_empty] at hQ
    dsimp only
    rw [wp_bind]
    refine wp_allocate h (h.room hE hcard) fun r c₁ h₁ hT hexr hs₁ hf₁ => ?_
    refine wp_fillRegister h₁ (Finset.mem_insert_self r T)
      (fun old e => by rw [hreg] at e; cases e) hflag' fun c₂ h₂ hs₂ hf₂ => ?_
    rw [hreg, Option.toFinset_none, Finset.sdiff_empty] at h₂
    exact hQ r c₂ h₂ hT hexr (hs₁.trans hs₂) (hf₁.trans hf₂)

theorem wp_popLocation (h : Fit T c.stack) {Q : Location → Compiler → Prop}
    (hQ : ∀ x n c', TopAt c.stack x n → c'.stack = c.stack.below n →
      Fit (T ∪ x.reg.toFinset) c'.stack → Frame c c' → Q x c') :
    wp popLocation Q { c with asm := a } := by
  unfold popLocation
  simp only [wp_bind, wp_stk]
  intro top s hpeek
  obtain ⟨hback, rfl⟩ := StackM.peek_ok hpeek
  rw [wp_ite]
  refine ⟨fun hhi => ?_, fun hhi => ?_⟩
  · rw [wp_stk]
    intro x s hpop
    obtain ⟨hi, hh, hx, -, hlo, rfl⟩ := StackM.popV128_ok hpop
    obtain ⟨ht, heq⟩ := TopAt.of_pair hh hx hlo
    exact hQ x _ _ ht heq ⟨by rw [heq]; exact h.1.below ht, h.2⟩ ⟨rfl, rfl⟩
  · rw [wp_stk]
    intro x s hpop
    obtain ⟨hx, rfl⟩ := StackM.pop_ok hpop
    have hxt : x = top := by
      rw [hback] at hx
      cases hx
      rfl
    subst hxt
    obtain ⟨ht, heq⟩ := h.1.topAt_of_back hx (by simpa using hhi)
    exact hQ x _ _ ht heq ⟨by rw [heq]; exact h.1.below ht, h.2⟩ ⟨rfl, rfl⟩

theorem wp_popSlot (h : Fit T c.stack) (hn : NotHiAt c.stack.slots (c.stack.slots.size - 1))
    {Q : Location → Compiler → Prop}
    (hQ : ∀ x, c.stack.slots.back? = some x → (x.flag.isSome → x.reg = none ∧ x.type = .i32) →
      Disjoint T x.reg.toFinset →
      Fit (T ∪ x.reg.toFinset) { c.stack with slots := c.stack.slots.pop } →
      Q x { c with stack := { c.stack with slots := c.stack.slots.pop } }) :
    wp (stk StackM.pop) Q c := by
  rw [wp_stk]
  intro x s hpop
  obtain ⟨hx, rfl⟩ := StackM.pop_ok hpop
  have hx' : c.stack.slots[c.stack.slots.size - 1]? = some x := by
    rwa [← Array.back?_eq_getElem?]
  have hhi : x.type ≠ .v128hi := hn x hx'
  obtain ⟨ht, -⟩ := h.1.topAt_of_back hx hhi
  have hdis : Disjoint T x.reg.toFinset :=
    Finset.disjoint_left.mpr fun r hT hr => h.1.top_not_temp ht (Option.mem_toFinset.mp hr) hT
  exact hQ x hx (h.1.flagged hx') hdis ⟨h.1.popTop hx hhi, h.2⟩

theorem wp_stk_get {i : Nat} {Q : Location → Compiler → Prop}
    (hQ : ∀ l, c.stack.slots[i]? = some l → Q l c) : wp (stk (StackM.get i)) Q c := by
  rw [wp_stk]
  intro l s hget
  obtain ⟨hl, rfl⟩ := StackM.get_ok hget
  exact hQ l hl

theorem card_union_reg (T : Finset Reg) (x : Location) :
    (T ∪ x.reg.toFinset).card ≤ T.card + 1 :=
  (Finset.card_union_le _ _).trans (by cases x.reg <;> simp)

theorem wp_popToRegister (h : Fit T c.stack) (hcard : T.card + 1 < 9)
    {Q : Location → Compiler → Prop}
    (hQ : ∀ x n r c', TopAt c.stack x n → Spills (c.stack.below n) c'.stack → r ∉ T →
      Fit (insert r T) c'.stack → Frame c c' → Q (x.setRegister r) c') :
    wp popToRegister Q { c with asm := a } := by
  unfold popToRegister
  rw [wp_bind]
  refine wp_popLocation h fun x n c₁ ht hc₁ h₁ hf₁ => ?_
  have hdis : Disjoint T x.reg.toFinset :=
    Finset.disjoint_left.mpr fun r hT hr => h.1.top_not_temp ht (Option.mem_toFinset.mp hr) hT
  refine wp_loadDetached h₁ (E := ∅) (by simp)
    (by simpa using lt_of_le_of_lt (card_union_reg T x) hcard)
    (fun r hr => Finset.mem_union_right _ (Option.mem_toFinset.mpr hr))
    (h.1.top_flagged ht) fun r c₂ h₂ hr _ hs₂ hf₂ => ?_
  rw [Finset.union_sdiff_cancel_right hdis] at h₂ hr
  exact hQ x n r c₂ ht (hc₁ ▸ hs₂) hr h₂ (hf₁.trans hf₂)

theorem wp_release_temp (h : Fit T c.stack) {x : Location} {r : Reg} (hx : x.reg = some r)
    (hr : r ∈ T) {Q : Unit → Compiler → Prop}
    (hQ : ∀ c', Fit (T.erase r) c'.stack → Spills c.stack c'.stack → Frame c c' → Q () c') :
    wp (release x) Q { c with asm := a } := by
  refine wp_release h (fun r' e => ?_) fun c' h' hs hf => ?_
  · rw [hx, Option.some.injEq] at e
    exact e ▸ h.1.temp_free r hr
  · rw [hx, Option.toFinset_some, Finset.sdiff_singleton_eq_erase] at h'
    exact hQ c' h' hs hf

/-! Pushing results. -/

theorem wp_pushRegister (h : Fit T c.stack) {r : Reg} (hr : r ∈ T) {t : SlotType}
    (ht : t ≠ .v128hi) {Q : Unit → Compiler → Prop}
    (hQ : ∀ c', Fit (T.erase r) c'.stack → c'.stack = c.stack.pushReg r t → Frame c c' →
      Q () c') :
    wp (pushRegister r t) Q { c with asm := a } := by
  unfold pushRegister
  have hlay := h.1.pushReg hr ht
  rw [wp_ite]
  refine ⟨fun hlo => ?_, fun hlo => ?_⟩ <;> rw [wp_discard, wp_stk] <;> intro _ s hp <;>
    cases hp
  · have : c.stack.pushReg r t = (c.stack.pushLoc .v128lo (some r) none).pushLoc .v128hi
        (some r) none := by
      simp only [ValueStack.pushReg, if_pos (by simpa using hlo)]
    rw [this] at hlay
    exact hQ _ ⟨hlay, h.2⟩ this.symm ⟨rfl, rfl⟩
  · have : c.stack.pushReg r t = c.stack.pushLoc t (some r) none := by
      simp only [ValueStack.pushReg, if_neg (by simpa using hlo)]
    rw [this] at hlay
    exact hQ _ ⟨hlay, h.2⟩ this.symm ⟨rfl, rfl⟩

theorem wp_pushFlag (h : Fit T c.stack) (f : Flag) {Q : Unit → Compiler → Prop}
    (hQ : ∀ c', Fit T c'.stack → c'.stack = c.stack.pushLoc .i32 none (some f) → Frame c c' →
      Q () c') :
    wp (pushFlag f) Q { c with asm := a } := by
  unfold pushFlag
  rw [wp_discard, wp_stk]
  intro _ s hp
  cases hp
  have : Layout (c.stack.pushLoc .i32 none (some f)) (T \ (none : Option Reg).toFinset) :=
    h.1.pushLoc (by simp) (fun _ => ⟨rfl, rfl⟩) (by decide) (by decide)
  exact hQ _ ⟨by simpa using this, h.2⟩ rfl ⟨rfl, rfl⟩

theorem wp_discardSlots (n : Nat) {Q : Unit → Compiler → Prop}
    (hQ : ∀ c', c'.stack = { c.stack with
        slots := c.stack.slots.extract 0 (c.stack.sp - n), used := c'.stack.used } →
      (∀ x, c'.stack.used.contains x = true ↔ c.stack.used.contains x = true ∧
        x ∉ regsOf (c.stack.slots.extract (c.stack.sp - n) c.stack.sp)) →
      Frame c c' → Q () c') :
    wp (discardSlots n) Q { c with asm := a } := by
  induction n generalizing c a with
  | zero =>
    refine hQ _ ?_ (fun x => ?_) Frame.rfl'
    · simp [ValueStack.sp]
    · simp [ValueStack.sp, regsOf]
  | succ n ih =>
    simp only [discardSlots, wp_bind, wp_stk]
    intro l s hpop
    obtain ⟨hl, rfl⟩ := StackM.pop_ok hpop
    have hsz : 0 < c.stack.slots.size := by
      rw [Array.back?_eq_getElem?] at hl
      obtain ⟨hlt, -⟩ := Array.getElem?_eq_some_iff.mp hl
      omega
    have hrest : ∀ u : RegSet, (∀ x, u.contains x = true ↔ c.stack.used.contains x = true ∧
        l.reg ≠ some x) →
        wp (discardSlots n) Q
          { c with asm := a, stack := { c.stack with slots := c.stack.slots.pop, used := u } } := by
      intro u hu
      refine ih (c := { c with stack := { c.stack with slots := c.stack.slots.pop, used := u } })
        fun c' heq hused hf => hQ c' ?_ (fun x => ?_) hf
      · rw [heq]
        simp only [ValueStack.sp, Layout.pop_eq_take, Array.extract_extract, Nat.zero_add,
          Array.size_extract]
        congr 2
        omega
      · rw [hused x, hu x]
        have hm : c.stack.slots.size - (n + 1) < c.stack.slots.size := by omega
        simp only [ValueStack.sp]
        rw [regsOf_extract_pop hl hm]
        simp only [Array.size_pop, Finset.mem_union, Option.mem_toFinset, not_or]
        rw [show c.stack.slots.size - 1 - n = c.stack.slots.size - (n + 1) by omega]
        constructor
        · rintro ⟨⟨hc, hne⟩, hx⟩
          exact ⟨hc, hx, fun e => hne e⟩
        · rintro ⟨hc, hx, hne⟩
          exact ⟨⟨hc, hne⟩, hx⟩
    unfold release
    cases hr : l.reg with
    | none =>
      exact hrest _ fun x => by simp [hr]
    | some r =>
      dsimp only [releaseReg]
      rw [wp_stk]
      intro _ s hm
      rw [markUnused_eq] at hm
      cases hm
      refine hrest _ fun x => ?_
      rw [RegSet.contains_erase]
      simp only [Bool.and_eq_true, Bool.not_eq_true', beq_eq_false_iff_ne, ne_eq, hr,
        Option.some.injEq]
      exact and_congr_right fun _ => ⟨fun h e => h e.symm, fun h e => h e.symm⟩

theorem Fit.discard {s s' : ValueStack} (h : Fit T s) {m : Nat} (hn : NotHiAt s.slots m)
    (heq : s' = { s with slots := s.slots.extract 0 m, used := s'.used })
    (hu : ∀ x, s'.used.contains x = true ↔ s.used.contains x = true ∧
      x ∉ regsOf (s.slots.extract m s.slots.size)) : Fit T s' := by
  refine ⟨h.1.cut_release hn (by rw [heq]) hu, ?_, ?_⟩
  · rw [heq]; exact h.2.1
  · rw [heq]; exact h.2.2

theorem wp_floatConst (h : Fit T c.stack) (hcard : T.card < 9) (is32 : Bool) (bits : UInt64)
    {Q : Reg → Compiler → Prop}
    (hQ : ∀ r c', Fit (insert r T) c'.stack → r ∉ T → Spills c.stack c'.stack → Frame c c' →
      Q r c') :
    wp (floatConst is32 bits) Q { c with asm := a } := by
  unfold floatConst
  rw [wp_bind]
  refine wp_allocate h (h.room_free hcard) fun r c₁ h₁ hT _ hs hf => ?_
  simp only [wp_bind, wp_ite, wp_asm, wp_pure]
  exact ⟨fun _ _ _ _ => hQ r _ h₁ hT hs hf, fun _ _ _ _ _ _ _ => hQ r _ h₁ hT hs hf⟩

end OnePassJit.Arm64.Lower
