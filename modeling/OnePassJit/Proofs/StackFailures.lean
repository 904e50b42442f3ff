import OnePassJit.Proofs.StackOps

/-!
What a failed value stack operation leaves behind.

A stack operation that fails never rolls back: the failure ends the compilation of the
function, and the state it leaves is the state its steps reached. Most operations check
before they change anything, so their failures leave the stack as it was. Three do not:
popping a vector pops both halves before it checks their types, and moving a vector's low
half to memory or to a register changes it before it looks up the high half. None of the
failures touches the used registers or the ceiling.

Main statement: `failed_operation_changes_only_popped_or_marked_slots`, with the pop of
two scalars as a vector (`popV128_failure_removes_slots`) showing that a failure may
change the stack.
-/

namespace OnePassJit.StackM

open ValueStack

variable {α β : Type} {s s' : ValueStack} {e : StackFault}

theorem bind_eq_error {x : StackM α} {f : α → StackM β} (h : (x >>= f) s = .error e s') :
    x s = .error e s' ∨ ∃ a s₁, x s = .ok a s₁ ∧ f a s₁ = .error e s' := by
  simp only [bind, EStateM.bind] at h
  split at h
  · rename_i a s₁ hx
    exact .inr ⟨a, s₁, hx, h⟩
  · rename_i hx
    cases h
    exact .inl hx

/-! The operations that check before they change anything. -/

theorem pop_error (h : pop s = .error e s') : s' = s ∧ s.slots = #[] := by
  simp only [pop] at h
  split at h
  · cases h
  · rename_i hb
    cases h
    exact ⟨rfl, Array.back?_eq_none_iff.mp hb⟩

theorem peek_error (h : peek s = .error e s') : s' = s := by
  simp only [peek] at h
  split at h <;> cases h
  rfl

theorem get_error {i : Nat} (h : get i s = .error e s') : s' = s ∧ s.sp ≤ i := by
  simp only [get, locAt] at h
  cases hl : s.slots[i]? with
  | some l => simp [hl] at h
  | none =>
    simp only [hl] at h
    cases h
    exact ⟨rfl, Array.getElem?_eq_none_iff.mp hl⟩

theorem dropRange_error {r : DropRange} (h : dropRange r s = .error e s') : s' = s := by
  simp only [dropRange] at h
  split at h
  · cases h
    rfl
  · cases h

/-! The operations whose first steps stand when they fail. -/

theorem modify_of_le {xs : Array Location} {i : Nat} (f : Location → Location)
    (h : xs.size ≤ i) : xs.modify i f = xs := by
  apply Array.ext_getElem?
  intro j
  rw [Array.getElem?_modify]
  split
  · rename_i hj
    subst hj
    rw [Array.getElem?_eq_none (by omega)]
    rfl
  · rfl

theorem modifyAt_error {i : Nat} {f : Location → Location} (h : modifyAt i f s = .error e s') :
    s' = s ∧ s.sp ≤ i := by
  simp only [modifyAt] at h
  split at h
  · cases h
  · cases h
    exact ⟨rfl, by omega⟩

theorem popV128_error (h : popV128 s = .error e s') : s' = { s with slots := s.slots.pop.pop } := by
  rcases bind_eq_error h with h₁ | ⟨hi, s₁, h₁, h⟩
  · obtain ⟨rfl, hs⟩ := pop_error h₁
    obtain ⟨slots, used, ceil, gp, vec⟩ := s'
    simp only at hs
    subst hs
    rfl
  obtain ⟨-, rfl⟩ := pop_ok h₁
  rcases bind_eq_error h with h₂ | ⟨lo, s₂, h₂, h⟩
  · -- the second pop found nothing: popping again changes nothing
    obtain ⟨rfl, hs⟩ := pop_error h₂
    simp only at hs
    simp [hs]
  obtain ⟨-, rfl⟩ := pop_ok h₂
  split at h
  · cases h
    rfl
  · cases h

theorem modifyAt_ok {i : Nat} {f : Location → Location} {u : Unit}
    (h : modifyAt i f s = .ok u s') : s' = { s with slots := s.slots.modify i f } := by
  simp only [modifyAt] at h
  split at h
  · cases h
    rfl
  · cases h

theorem updateValue_error {i : Nat} {f : Location → Location} {k : Location → StackM Unit}
    (hk : ∀ l t e t', k l t ≠ .error e t')
    (h : (do
      let l ← get i
      modifyAt i f
      if l.type == SlotType.v128lo then modifyAt (i + 1) f
      k l) s = .error e s') :
    s' = { s with slots := s.slots.modify i f } := by
  rcases bind_eq_error h with h₁ | ⟨l, s₁, h₁, hmod⟩
  · -- no slot `i`: there was nothing to change
    obtain ⟨rfl, hi⟩ := get_error h₁
    rw [modify_of_le f hi]
  obtain ⟨hl, rfl⟩ := get_ok h₁
  rcases bind_eq_error hmod with h₂ | ⟨u, s₂, h₂, hhigh⟩
  · have hlt := (Array.getElem?_eq_some_iff.mp hl).1
    have := (modifyAt_error h₂).2
    simp only [ValueStack.sp] at this
    omega
  obtain rfl := modifyAt_ok h₂
  simp only at hhigh
  split at hhigh
  · rcases bind_eq_error hhigh with h₃ | ⟨u, s₃, -, hk₃⟩
    · -- the high half was missing
      exact (modifyAt_error h₃).1
    · exact absurd hk₃ (hk l s₃ e s')
  · exact absurd hhigh (hk l _ e s')

theorem markOnStack_error {i : Nat} (h : markOnStack i s = .error e s') :
    s' = { s with slots := s.slots.modify i Location.setOnStack } := by
  refine updateValue_error (fun l t e t' hk => ?_) h
  cases hr : l.reg <;> simp only [hr] at hk <;> cases hk

theorem setRegister_error {i : Nat} {r : Reg} (h : setRegister i r s = .error e s') :
    s' = { s with slots := s.slots.modify i (·.setRegister r) } :=
  updateValue_error (fun _ _ _ _ hk => by cases hk) h

/-- A failed operation leaves the used registers and the ceiling as they were, and the
slots too, except that popping a vector keeps the slots it popped, and moving the value
at `i` to memory or to a register keeps its change to slot `i` (a vector's low half whose
high half is missing). -/
theorem failed_operation_changes_only_popped_or_marked_slots (s s' : ValueStack)
    (e : StackFault) :
    (pop s = .error e s' → s' = s) ∧
    (peek s = .error e s' → s' = s) ∧
    (∀ i, get i s = .error e s' → s' = s) ∧
    (∀ r, dropRange r s = .error e s' → s' = s) ∧
    (popV128 s = .error e s' → s' = { s with slots := s.slots.pop.pop }) ∧
    (∀ i, markOnStack i s = .error e s' →
      s' = { s with slots := s.slots.modify i Location.setOnStack }) ∧
    (∀ i r, setRegister i r s = .error e s' →
      s' = { s with slots := s.slots.modify i (·.setRegister r) }) :=
  ⟨fun h => (pop_error h).1, peek_error, fun _ h => (get_error h).1, fun _ => dropRange_error,
    popV128_error, fun _ => markOnStack_error, fun _ _ => setRegister_error⟩

def loneLowHalf : ValueStack := (ValueStack.new [] []).pushLoc .v128lo none none

/-- Giving the lone low half a register fails, and the slot keeps the register while the
used registers do not record it. -/
theorem setRegister_lone_low_half_keeps_register :
    ∃ e s', setRegister 0 (Reg.vec 1) loneLowHalf = .error e s' ∧
      s' = { loneLowHalf with slots := loneLowHalf.slots.modify 0 (·.setRegister (Reg.vec 1)) } ∧
      s'.used.contains (Reg.vec 1) = false :=
  ⟨_, _, rfl, (failed_operation_changes_only_popped_or_marked_slots _ _ _).2.2.2.2.2.2 0 _ rfl,
    rfl⟩

def twoScalars : ValueStack :=
  ((ValueStack.new [] []).pushLoc .i32 none none).pushLoc .i32 none none

/-- Popping a vector off two scalars fails after both are popped: a failure does not
always leave the stack as it was. -/
theorem popV128_failure_removes_slots :
    ∃ e s', popV128 twoScalars = .error e s' ∧ s'.sp < twoScalars.sp :=
  ⟨_, _, rfl, by decide⟩

end OnePassJit.StackM
