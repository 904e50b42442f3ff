import OnePassJit.Proofs.Allocation

/-!
Where the values of the stack live, and how a lowering step may move them.

Inside one operation the values below its operands only move: a spill sends a value
from its register to memory, materializing a flag gives it a register, and neither adds a
slot, changes a type or puts anything in the flags (`Moves`). The operands themselves
are popped whole, the two halves of a vector together (`TopAt`), and their registers
become temporaries of the step (`Layout.below`).

On arm64 a comparison result may stay in the flags only while it is the top value
(`FlagTop`); popping or materializing the top leaves no flag at all (`NoFlags`). A label
reached by several branches is entered with every value in memory (`InMemory`).
-/

namespace OnePassJit

namespace Location

@[simp] theorem setRegister_type (l : Location) (r : Reg) : (l.setRegister r).type = l.type := rfl

@[simp] theorem setRegister_reg (l : Location) (r : Reg) : (l.setRegister r).reg = some r := rfl

@[simp] theorem setRegister_flag (l : Location) (r : Reg) : (l.setRegister r).flag = none := rfl

end Location

-- The temporaries an operation holds are a handful of inserted registers.
attribute [grind .] Finset.card_insert_le Finset.card_erase_le
attribute [grind =] Finset.card_singleton

namespace ValueStack

variable {s s' s'' : ValueStack} {T : Finset Reg}

/-- No value is in the flags. -/
def NoFlags (s : ValueStack) : Prop :=
  ∀ ⦃i : Nat⦄ ⦃l : Location⦄, s.slots[i]? = some l → l.flag = none

/-- Only the top slot may hold a value in the flags. -/
def FlagTop (s : ValueStack) : Prop :=
  ∀ ⦃i : Nat⦄ ⦃l : Location⦄, s.slots[i]? = some l → l.flag.isSome → i + 1 = s.sp

/-- Every value is in its memory slot. -/
def InMemory (s : ValueStack) : Prop :=
  ∀ ⦃i : Nat⦄ ⦃l : Location⦄, s.slots[i]? = some l → l.onStack

theorem NoFlags.flagTop (h : NoFlags s) : FlagTop s := by
  intro i l hl hf
  rw [h hl] at hf
  cases hf

theorem InMemory.noFlags (h : InMemory s) : NoFlags s := by
  intro i l hl
  have := h hl
  simp only [Location.onStack, Bool.and_eq_true, Option.isNone_iff_eq_none] at this
  exact this.2

/-- `s'` holds the values of `s` in the same slots with the same types; they may have
moved between registers, memory and flags, but none entered the flags. -/
structure Moves (s s' : ValueStack) : Prop where
  size_eq : s'.slots.size = s.slots.size
  slot : ∀ {i : Nat} {l' : Location}, s'.slots[i]? = some l' →
    ∃ l, s.slots[i]? = some l ∧ l'.type = l.type ∧ (l'.flag = none ∨ l'.flag = l.flag)
  ceil_eq : s'.ceil = s.ceil
  gp_eq : s'.gpPool = s.gpPool
  vec_eq : s'.vecPool = s.vecPool

namespace Moves

theorem refl (s : ValueStack) : Moves s s where
  size_eq := rfl
  slot := fun {_ l} h => ⟨l, h, rfl, .inr rfl⟩
  ceil_eq := rfl
  gp_eq := rfl
  vec_eq := rfl

theorem trans (h₁ : Moves s s') (h₂ : Moves s' s'') : Moves s s'' where
  size_eq := h₂.size_eq.trans h₁.size_eq
  slot := by
    intro i l'' h''
    obtain ⟨l', h', ht', hf'⟩ := h₂.slot h''
    obtain ⟨l, h, ht, hf⟩ := h₁.slot h'
    refine ⟨l, h, ht'.trans ht, ?_⟩
    rcases hf' with hf' | hf'
    · exact .inl hf'
    · rw [hf']
      exact hf
  ceil_eq := h₂.ceil_eq.trans h₁.ceil_eq
  gp_eq := h₂.gp_eq.trans h₁.gp_eq
  vec_eq := h₂.vec_eq.trans h₁.vec_eq

theorem sp_eq (h : Moves s s') : s'.sp = s.sp := h.size_eq

theorem notHiAt (h : Moves s s') {n : Nat} (hn : NotHiAt s.slots n) : NotHiAt s'.slots n := by
  intro l' h'
  obtain ⟨l, hl, ht, -⟩ := h.slot h'
  rw [ht]
  exact hn l hl

theorem noFlags (h : Moves s s') (hn : NoFlags s) : NoFlags s' := by
  intro i l' h'
  obtain ⟨l, hl, -, hf⟩ := h.slot h'
  rcases hf with hf | hf
  · exact hf
  · rw [hf]
    exact hn hl

theorem flagTop (h : Moves s s') (hn : FlagTop s) : FlagTop s' := by
  intro i l' h' hf'
  obtain ⟨l, hl, -, hf⟩ := h.slot h'
  rcases hf with hf | hf
  · rw [hf] at hf'
    cases hf'
  · rw [h.sp_eq]
    exact hn hl (hf ▸ hf')

theorem of_used (u : RegSet) : Moves s { s with used := u } :=
  ⟨rfl, fun {_ l} h => ⟨l, h, rfl, .inr rfl⟩, rfl, rfl, rfl⟩

theorem of_modifyValue {i : Nat} {pair : Bool} {f : Location → Location}
    (hf : ∀ x, (f x).type = x.type ∧ (f x).flag = none) (u : RegSet) :
    Moves s { s with slots := ValueStack.modifyValue s.slots i pair f, used := u } where
  size_eq := size_modifyValue
  slot := by
    intro j l' h'
    simp only [getElem?_modifyValue] at h'
    split at h'
    · obtain ⟨l, hl, rfl⟩ := Option.map_eq_some_iff.mp h'
      exact ⟨l, hl, (hf l).1, .inl (hf l).2⟩
    · exact ⟨l', h', rfl, .inr rfl⟩
  ceil_eq := rfl
  gp_eq := rfl
  vec_eq := rfl

end Moves

/-- `s'` is `s` with some values sent from their registers to memory; a value in memory
or in the flags stays as it was. -/
structure Spills (s s' : ValueStack) : Prop where
  size_eq : s'.slots.size = s.slots.size
  slot : ∀ {i : Nat} {l : Location}, s.slots[i]? = some l →
    s'.slots[i]? = some l ∨ (l.reg.isSome ∧ s'.slots[i]? = some l.setOnStack)
  ceil_eq : s'.ceil = s.ceil
  gp_eq : s'.gpPool = s.gpPool
  vec_eq : s'.vecPool = s.vecPool

namespace Spills

theorem refl (s : ValueStack) : Spills s s :=
  ⟨rfl, fun h => .inl h, rfl, rfl, rfl⟩

theorem trans (h₁ : Spills s s') (h₂ : Spills s' s'') : Spills s s'' where
  size_eq := h₂.size_eq.trans h₁.size_eq
  slot := by
    intro i l hl
    rcases h₁.slot hl with h | ⟨hr, h⟩
    · exact h₂.slot h
    · rcases h₂.slot h with h' | ⟨-, h'⟩
      · exact .inr ⟨hr, h'⟩
      · exact .inr ⟨hr, h'⟩
  ceil_eq := h₂.ceil_eq.trans h₁.ceil_eq
  gp_eq := h₂.gp_eq.trans h₁.gp_eq
  vec_eq := h₂.vec_eq.trans h₁.vec_eq

theorem moves (h : Spills s s') : Moves s s' where
  size_eq := h.size_eq
  slot := by
    intro i l' h'
    have hi : i < s.slots.size := h.size_eq ▸ Block.lt_size h'
    obtain ⟨l, hl⟩ : ∃ l, s.slots[i]? = some l := ⟨s.slots[i], by simp⟩
    refine ⟨l, hl, ?_⟩
    rcases h.slot hl with e | ⟨-, e⟩
    · rw [h'] at e
      cases e
      exact ⟨rfl, .inr rfl⟩
    · rw [h'] at e
      cases e
      exact ⟨rfl, .inl rfl⟩
  ceil_eq := h.ceil_eq
  gp_eq := h.gp_eq
  vec_eq := h.vec_eq

theorem get_of_reg_none (h : Spills s s') {i : Nat} {l : Location} (hl : s.slots[i]? = some l)
    (hr : l.reg = none) : s'.slots[i]? = some l := by
  rcases h.slot hl with e | ⟨hs, -⟩
  · exact e
  · rw [hr] at hs
    cases hs

theorem of_used (u : RegSet) : Spills s { s with used := u } :=
  ⟨rfl, fun h => .inl h, rfl, rfl, rfl⟩

end Spills

theorem Layout.spills_markOnStack (h : Layout s T) {i : Nat} {l : Location} {r : Reg}
    (hl : s.slots[i]? = some l) (hr : l.reg = some r) (u : RegSet) :
    Spills s { s with
      slots := ValueStack.modifyValue s.slots i (l.type == .v128lo) Location.setOnStack,
      used := u } where
  size_eq := size_modifyValue
  slot := by
    intro j lj hj
    simp only [getElem?_modifyValue, beq_iff_eq]
    split
    · rename_i hV
      right
      rw [hj]
      have hreg : lj.reg = l.reg := by
        rcases hV with rfl | ⟨hlo, rfl⟩
        · rw [hl] at hj; cases hj; rfl
        · obtain ⟨l', h', -, hr'⟩ := h.lo_hi hl hlo
          rw [hj] at h'; cases h'; exact hr'
      exact ⟨by rw [hreg, hr]; rfl, rfl⟩
    · exact .inl hj
  ceil_eq := rfl
  gp_eq := rfl
  vec_eq := rfl

/-- The stack below index `n`. -/
def below (s : ValueStack) (n : Nat) : ValueStack := { s with slots := s.slots.extract 0 n }

@[simp] theorem sp_below (s : ValueStack) {n : Nat} (hn : n ≤ s.sp) : (s.below n).sp = n := by
  simp only [below, sp, Array.size_extract]
  simp only [sp] at hn
  omega

theorem getElem?_below {n i : Nat} (hi : i < n) : (s.below n).slots[i]? = s.slots[i]? := by
  simp only [below, Array.getElem?_extract, Nat.sub_zero, Nat.zero_add]
  by_cases h : i < s.slots.size
  · rw [if_pos (by omega)]
  · rw [if_neg (by omega), Array.getElem?_eq_none (by omega)]

/-- `x` is the top value of `s`, both halves of a vector, with its low half at `n`. -/
structure TopAt (s : ValueStack) (x : Location) (n : Nat) : Prop where
  get : s.slots[n]? = some x
  whole : x.type ≠ .v128hi
  sp_eq : s.sp = n + if x.type = .v128lo then 2 else 1

theorem TopAt.lt (h : TopAt s x n) : n < s.sp := by
  have := h.sp_eq
  split at this <;> omega

theorem TopAt.of_back {x : Location} (hl : s.slots.back? = some x) (hhi : x.type ≠ .v128hi)
    (hlo : x.type ≠ .v128lo) :
    TopAt s x (s.sp - 1) ∧ { s with slots := s.slots.pop } = s.below (s.sp - 1) := by
  rw [Array.back?_eq_getElem?] at hl
  have hs := Block.lt_size hl
  refine ⟨⟨hl, hhi, ?_⟩, ?_⟩
  · rw [if_neg hlo]
    simp only [sp]
    omega
  · simp only [below, sp, Layout.pop_eq_take]

theorem TopAt.of_pair {hi x : Location} (hh : s.slots.back? = some hi)
    (hx : s.slots.pop.back? = some x) (hlo : x.type = .v128lo) :
    TopAt s x (s.sp - 2) ∧ { s with slots := s.slots.pop.pop } = s.below (s.sp - 2) := by
  rw [Array.back?_eq_getElem?] at hh
  rw [Array.back?_eq_getElem?, Array.getElem?_pop, Array.size_pop] at hx
  have hs := Block.lt_size hh
  split at hx
  · have hx' : s.slots[s.slots.size - 2]? = some x := by
      rwa [show s.slots.size - 2 = s.slots.size - 1 - 1 by omega]
    refine ⟨⟨hx', by rw [hlo]; decide, ?_⟩, ?_⟩
    · rw [if_pos hlo]
      simp only [sp]
      omega
    · simp only [below, sp]
      congr 1
      apply Array.ext_getElem?
      intro i
      simp only [Array.getElem?_pop, Array.size_pop, Array.getElem?_extract, Nat.sub_zero,
        Nat.zero_add]
      by_cases hi : i < s.slots.size - 2
      · rw [if_pos (by omega), if_pos (by omega), if_pos (by omega)]
      · rw [if_neg (by omega), if_neg (by omega)]
  · cases hx

namespace Layout

theorem topAt_of_back (h : Layout s T) {x : Location} (hl : s.slots.back? = some x)
    (hhi : x.type ≠ .v128hi) :
    TopAt s x (s.sp - 1) ∧ { s with slots := s.slots.pop } = s.below (s.sp - 1) := by
  refine TopAt.of_back hl hhi ?_
  rw [Array.back?_eq_getElem?] at hl
  exact h.last_not_lo hl

theorem topAt_scalar (h : Layout s T) (ht : TopAt s x n) (hn : NotHiAt s.slots (s.sp - 1)) :
    n = s.sp - 1 ∧ s.below n = { s with slots := s.slots.pop } := by
  have hsp := ht.sp_eq
  have hn' : n = s.sp - 1 := by
    by_cases hlo : x.type = .v128lo
    · obtain ⟨hi, hget, hty, -⟩ := h.lo_hi ht.get hlo
      rw [if_pos hlo] at hsp
      exact absurd hty (hn hi (by rwa [show s.sp - 1 = n + 1 by omega]))
    · rw [if_neg hlo] at hsp
      omega
  refine ⟨hn', ?_⟩
  subst hn'
  simp only [below, sp, Layout.pop_eq_take]

/-- Popping the top value makes its register a temporary. -/
theorem below (h : Layout s T) (ht : TopAt s x n) : Layout (s.below n) (T ∪ x.reg.toFinset) := by
  have hsp := ht.sp_eq
  by_cases hlo : x.type = .v128lo
  · rw [if_pos hlo] at hsp
    obtain ⟨hi, hhi, hty, hreg⟩ := h.lo_hi ht.get hlo
    have hback : s.slots.back? = some hi := by
      rw [Array.back?_eq_getElem?]
      simp only [sp] at hsp
      rwa [show s.slots.size - 1 = n + 1 by omega]
    have hpop : s.slots.pop.back? = some x := by
      rw [Array.back?_eq_getElem?, Array.getElem?_pop, Array.size_pop]
      simp only [sp] at hsp
      rw [if_pos (by omega), show s.slots.size - 1 - 1 = n by omega]
      exact ht.get
    have := h.popPair hback hpop hlo
    rwa [(TopAt.of_pair hback hpop hlo).2, show s.sp - 2 = n by omega] at this
  · rw [if_neg hlo] at hsp
    have hback : s.slots.back? = some x := by
      rw [Array.back?_eq_getElem?]
      simp only [sp] at hsp
      rw [show s.slots.size - 1 = n by omega]
      exact ht.get
    have := h.popTop hback ht.whole
    rwa [(TopAt.of_back hback ht.whole hlo).2, show s.sp - 1 = n by omega] at this

theorem top_not_temp (h : Layout s T) (ht : TopAt s x n) {r : Reg} (hr : x.reg = some r) :
    r ∉ T := fun hT => h.temp_free r hT (mem_regsOf.mpr ⟨n, x, ht.get, hr⟩)

theorem top_flagged (h : Layout s T) (ht : TopAt s x n) (hf : x.flag.isSome) :
    x.reg = none ∧ x.type = .i32 :=
  h.flagged ht.get hf

end Layout

/-- Popping the top value leaves no value in the flags. -/
theorem FlagTop.below (h : FlagTop s) (ht : TopAt s x n) : NoFlags (s.below n) := by
  intro i l hl
  have hi : i < n := by
    have := Block.lt_size hl
    simp only [ValueStack.below, Array.size_extract] at this
    omega
  rw [getElem?_below hi] at hl
  cases hf : l.flag with
  | none => rfl
  | some f =>
    have := h hl (by rw [hf]; rfl)
    have := ht.lt
    omega

theorem onStack_of_not_mem_nonMemoryResident {j : Nat} {l : Location}
    (hj : j ∉ s.nonMemoryResident) (hl : s.slots[j]? = some l) (hhi : l.type ≠ .v128hi) :
    l.onStack := by
  have hlt : j < s.sp := Block.lt_size hl
  simp only [nonMemoryResident, List.mem_filter, List.mem_range, hlt, true_and, hl,
    Bool.and_eq_true, Bool.not_eq_true', bne_iff_ne, ne_eq, hhi, not_false_eq_true,
    and_true] at hj
  simpa using hj

theorem Layout.inMemory (h : Layout s T)
    (hm : ∀ ⦃j : Nat⦄ ⦃l : Location⦄, s.slots[j]? = some l → l.type ≠ .v128hi → l.onStack) :
    InMemory s := by
  intro j l hl
  by_cases hhi : l.type = .v128hi
  · obtain ⟨i, lo, rfl, hlo, hty⟩ := h.hi_lo hl hhi
    obtain ⟨l', hl', -, hreg⟩ := h.lo_hi hlo hty
    rw [hl] at hl'
    cases hl'
    have hon := hm hlo (by rw [hty]; decide)
    simp only [Location.onStack, Bool.and_eq_true, Option.isNone_iff_eq_none] at hon ⊢
    refine ⟨hreg.trans hon.1, ?_⟩
    cases hf : l.flag with
    | none => rfl
    | some f =>
      have := (h.flagged hl (by rw [hf]; rfl)).2
      rw [hhi] at this
      cases this
  · exact hm hl hhi

theorem Layout.insert_temp (h : Layout s T) {r : Reg} (hr : r ∈ T) :
    Layout { s with used := s.used.insert r } T where
  toBlock := h.toBlock
  used_iff := by
    intro x
    rw [RegSet.contains_insert]
    by_cases hx : x = r
    · subst hx
      simp [h.storable_of_mem hr, hr]
    · have hb : (x == r) = false := beq_eq_false_iff_ne.mpr hx
      simp only [hb, Bool.false_and, Bool.false_or]
      exact h.used_iff x
  temp_free := h.temp_free

def pushReg (s : ValueStack) (r : Reg) (t : SlotType) : ValueStack :=
  if t = .v128lo then (s.pushLoc .v128lo (some r) none).pushLoc .v128hi (some r) none
  else s.pushLoc t (some r) none

theorem Layout.pushReg (h : Layout s T) {r : Reg} (hr : r ∈ T) {t : SlotType}
    (ht : t ≠ .v128hi) : Layout (s.pushReg r t) (T.erase r) := by
  unfold ValueStack.pushReg
  have hreg : ∀ r', some r = some r' → r' ∈ T := fun r' e => by cases e; exact hr
  split
  · have := h.pushPair hreg
    simpa [Finset.sdiff_singleton_eq_erase] using this
  · rename_i hlo
    have : Layout (s.pushLoc t (some r) none) (T \ (some r).toFinset) :=
      h.pushLoc hreg (by simp) hlo ht
    simpa [Finset.sdiff_singleton_eq_erase] using this

theorem NoFlags.pushLoc (h : NoFlags s) {t : SlotType} {reg : Option Reg} :
    NoFlags (s.pushLoc t reg none) := by
  intro i l hl
  rw [slots_pushLoc, Array.getElem?_append] at hl
  split at hl
  · exact h hl
  · simp only [Array.getElem?_singleton] at hl
    split at hl
    · cases hl
      rfl
    · cases hl

theorem NoFlags.pushReg (h : NoFlags s) {r : Reg} {t : SlotType} : NoFlags (s.pushReg r t) := by
  unfold ValueStack.pushReg
  split
  · exact h.pushLoc.pushLoc
  · exact h.pushLoc

theorem NoFlags.pushFlag (h : NoFlags s) {f : Flag} : FlagTop (s.pushLoc .i32 none (some f)) := by
  intro i l hl hf
  rw [slots_pushLoc, Array.getElem?_append] at hl
  split at hl
  · rw [h hl] at hf
    cases hf
  · rename_i hi
    simp only [Array.getElem?_singleton] at hl
    split at hl
    · rw [sp_pushLoc]
      simp only [sp]
      omega
    · cases hl

theorem getElem?_extract_some {xs : Array Location} {a b i : Nat} {l : Location}
    (h : (xs.extract a b)[i]? = some l) : xs[a + i]? = some l := by
  rw [Array.getElem?_extract] at h
  split at h
  · exact h
  · cases h

theorem NoFlags.of_slots (h : NoFlags s)
    (hs : ∀ ⦃i : Nat⦄ ⦃l : Location⦄, s'.slots[i]? = some l →
      ∃ (j : Nat) (l' : Location), s.slots[j]? = some l' ∧ l.flag = l'.flag) : NoFlags s' := by
  intro i l hl
  obtain ⟨j, l', hl', hf⟩ := hs hl
  rw [hf]
  exact h hl'

theorem NoFlags.of_dropRange (h : NoFlags s) {r : DropRange} {m : List SlotMove}
    (hok : StackM.dropRange r s = .ok m s') : NoFlags s' := by
  obtain ⟨-, -, u, rfl, -⟩ := StackM.dropRange_ok hok
  refine h.of_slots fun i l hl => ?_
  rw [Array.getElem?_append] at hl
  split at hl
  · exact ⟨_, l, getElem?_extract_some (getElem?_extract_some hl), rfl⟩
  · rw [getElem?_renumber] at hl
    obtain ⟨l', hl', rfl⟩ := Option.map_eq_some_iff.mp hl
    exact ⟨_, l', getElem?_extract_some hl', rfl⟩

theorem NoFlags.below (h : NoFlags s) (n : Nat) : NoFlags (s.below n) :=
  h.of_slots fun _ l hl => ⟨_, l, getElem?_extract_some hl, rfl⟩

theorem NoFlags.truncate (h : NoFlags s) (n : Nat) : NoFlags (s.truncate n) :=
  h.of_slots fun _ l hl => ⟨_, l, getElem?_extract_some hl, rfl⟩

theorem NoFlags.extract (h : NoFlags s) (m : Nat) (u : RegSet) :
    NoFlags { s with slots := s.slots.extract 0 m, used := u } :=
  h.of_slots fun _ l hl => ⟨_, l, getElem?_extract_some hl, rfl⟩

theorem FlagTop.noFlags (h : FlagTop s) (hb : ∀ l, s.slots.back? = some l → l.flag = none) :
    NoFlags s := by
  intro i l hl
  cases hf : l.flag with
  | none => rfl
  | some f =>
    have hi := h hl (by rw [hf]; rfl)
    have hback : s.slots.back? = some l := by
      rw [Array.back?_eq_getElem?]
      simp only [sp] at hi
      rwa [show s.slots.size - 1 = i by omega]
    rw [hb l hback] at hf
    cases hf

theorem FlagTop.pop (h : FlagTop s) : NoFlags { s with slots := s.slots.pop } := by
  intro i l hl
  rw [Array.getElem?_pop] at hl
  split at hl
  · cases hf : l.flag with
    | none => rfl
    | some f =>
      have := h hl (by rw [hf]; rfl)
      simp only [sp] at this
      omega
  · cases hl

theorem FlagTop.extract (h : FlagTop s) (m : Nat) (u : RegSet) :
    FlagTop { s with slots := s.slots.extract 0 m, used := u } := by
  intro i l hl hf
  have hl' := getElem?_extract_some hl
  rw [Nat.zero_add] at hl'
  have hi := h hl' hf
  have hlt := Block.lt_size hl
  simp only [Array.size_extract] at hlt
  simp only [sp, Array.size_extract] at hi ⊢
  omega

theorem keeps_noFlags_pushOnStack (t : SlotType) : StackM.Keeps NoFlags (StackM.pushOnStack t) := by
  intro s a s' h hok
  cases hok
  exact h.pushLoc

theorem keeps_noFlags_pushValue (t : ValueType) : StackM.Keeps NoFlags (StackM.pushValue t) := by
  cases t with
  | v128 =>
    intro s a s' h hok
    cases hok
    exact h.pushLoc.pushLoc
  | i32 | i64 | f32 | f64 | funcref | externref => exact keeps_noFlags_pushOnStack _

theorem noFlags_init {sig : Signature} (hok : StackM.init sig s = .ok () s') : NoFlags s' :=
  StackM.Keeps.init hok (fun _ _ hl => by simp at hl) keeps_noFlags_pushValue
    (keeps_noFlags_pushOnStack _) (keeps_noFlags_pushOnStack _)

theorem regsOf_extract_pop {xs : Array Location} {m : Nat} {l : Location}
    (hl : xs.back? = some l) (hm : m < xs.size) :
    regsOf (xs.extract m xs.size) = regsOf (xs.pop.extract m xs.pop.size) ∪ l.reg.toFinset := by
  rw [Array.back?_eq_getElem?] at hl
  ext r
  simp only [Finset.mem_union, mem_regsOf, Option.mem_toFinset, Array.getElem?_extract,
    Array.size_pop, Nat.min_self, Array.getElem?_pop]
  constructor
  · rintro ⟨k, l', hk, hr⟩
    split at hk
    · by_cases hlast : m + k = xs.size - 1
      · rw [hlast, hl] at hk
        cases hk
        exact .inr hr
      · exact .inl ⟨k, l', by rw [if_pos (by omega), if_pos (by omega)]; exact hk, hr⟩
    · cases hk
  · rintro (⟨k, l', hk, hr⟩ | hr)
    · split at hk
      · rw [if_pos (by omega)] at hk
        exact ⟨k, l', by rw [if_pos (by omega)]; exact hk, hr⟩
      · cases hk
    · exact ⟨xs.size - 1 - m, l, by rw [if_pos (by omega), show m + (xs.size - 1 - m) = xs.size - 1 by omega]; exact hl, hr⟩

end ValueStack

end OnePassJit
