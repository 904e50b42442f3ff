import OnePassJit.Proofs.Allocation

/-!
The value stack refines a list of values.

The list model forgets slot indices and register bookkeeping: a stack is a list of values,
bottom first, each a scalar taking one slot or a vector taking two, and each living in a
register, in memory or (a comparison) in the flags. `layout` places the values slot after
slot. `Refines s m` says that the slots of `s` are the layout of the values of `m`, that the
ceiling of `s` is the most slots the model has held, and that a register is used exactly
when a register set can record it at all and some value holds it.

The operations covered are those the allocator's callers make: pushing a value in a
register just found free, in memory or in the flags; popping a whole top value and giving
back its register; moving a value, named by its lowest slot, to memory or to a free
register; and truncating the stack between two values. `StackOp.admitted` says when an
operation follows that discipline.

Main statements: `Refines.step` (one admitted operation succeeds and keeps the refinement)
and `refines_list_model` (from a new stack, every admitted sequence of operations runs to
its end, and the stack it leaves refines the model run on the same operations: its stack
pointer, ceiling, slots, register owners, steal targets and used registers are read off the
list).
-/

namespace OnePassJit

def SlotType.isScalar (t : SlotType) : Bool := t != .v128lo && t != .v128hi

namespace ValueStack

/-! The list model. -/

/-- Where a value of the list model lives. -/
inductive Home where
  | register (r : Reg)
  | memory
  | flags (f : Flag)
  deriving DecidableEq, Repr

namespace Home

def reg : Home → Option Reg
  | register r => some r
  | _ => none

def flag : Home → Option Flag
  | flags f => some f
  | _ => none

end Home

/-- A value of the list model: a scalar taking one slot, or a vector taking two. -/
inductive Value where
  | scalar (t : SlotType) (home : Home)
  | vector (home : Home)
  deriving DecidableEq, Repr

namespace Value

def width : Value → Nat
  | scalar .. => 1
  | vector _ => 2

def home : Value → Home
  | scalar _ h | vector h => h

def moveTo (h : Home) : Value → Value
  | scalar t _ => scalar t h
  | vector _ => vector h

def holds (v : Value) (r : Reg) : Bool := v.home.reg == some r

def WellTyped : Value → Prop
  | scalar t _ => t.isScalar = true
  | vector _ => True

def slots (v : Value) (b : Nat) : List Location :=
  match v with
  | scalar t h => [{ type := t, reg := h.reg, flag := h.flag, slot := b }]
  | vector h =>
    [{ type := .v128lo, reg := h.reg, flag := h.flag, slot := b },
      { type := .v128hi, reg := h.reg, flag := h.flag, slot := b + 1 }]

end Value

/-- The slots of the values `vs`, placed one after another from index `b` on. -/
def layout : List Value → Nat → List Location
  | [], _ => []
  | v :: vs, b => v.slots b ++ layout vs (b + v.width)

def slotCount (vs : List Value) : Nat := (vs.map Value.width).sum

def occupant : List Value → Nat → Option Value
  | [], _ => none
  | v :: vs, k => if k < v.width then some v else occupant vs (k - v.width)

def lowestSlot (p : Reg → Bool) : List Value → Nat → Option Nat
  | [], _ => none
  | v :: vs, b => if v.home.reg.any p then some b else lowestSlot p vs (b + v.width)

def moveAt (i : Nat) (h : Home) : List Value → Nat → List Value
  | [], _ => []
  | v :: vs, b => if b = i then v.moveTo h :: vs else v :: moveAt i h vs (b + v.width)

def takeSlots : Nat → List Value → List Value
  | _, [] => []
  | n, v :: vs => if v.width ≤ n then v :: takeSlots (n - v.width) vs else []

def dropSlots : Nat → List Value → List Value
  | _, [] => []
  | n, v :: vs => if v.width ≤ n then dropSlots (n - v.width) vs else v :: vs

/-- The list model of a value stack: its values, bottom first, and the most slots they have
taken so far. -/
structure ListModel where
  values : List Value := []
  peak : Nat := 0
  deriving Repr

/-! The operations. -/

/-- Value stack operations as the allocator's callers make them. -/
inductive StackOp where
  | pushRegister (t : SlotType) (r : Reg)
  | pushVectorRegister (r : Reg)
  | pushMemory (t : SlotType)
  | pushVectorMemory
  | pushFlag (f : Flag)
  | pop
  | popVector
  | markOnStack (i : Nat)
  | setRegister (i : Nat) (r : Reg)
  | truncate (n : Nat)
  deriving Repr

def releasePopped (l : Location) : StackM Unit :=
  match l.reg with
  | some r => StackM.markUnused r
  | none => pure ()

namespace StackOp

def run : StackOp → StackM Unit
  | pushRegister t r => discard (StackM.pushOnRegister r t)
  | pushVectorRegister r => discard (StackM.pushV128OnRegister r)
  | pushMemory t => discard (StackM.pushOnStack t)
  | pushVectorMemory => discard StackM.pushV128OnStack
  | pushFlag f => discard (StackM.pushOnFlag f)
  | pop => StackM.pop >>= releasePopped
  | popVector => StackM.popV128 >>= releasePopped
  | markOnStack i => StackM.markOnStack i
  | setRegister i r => StackM.setRegister i r
  | truncate n => StackM.truncate n

def onValues : StackOp → List Value → List Value
  | pushRegister t r, vs => vs ++ [.scalar t (.register r)]
  | pushVectorRegister r, vs => vs ++ [.vector (.register r)]
  | pushMemory t, vs => vs ++ [.scalar t .memory]
  | pushVectorMemory, vs => vs ++ [.vector .memory]
  | pushFlag f, vs => vs ++ [.scalar .i32 (.flags f)]
  | pop, vs | popVector, vs => vs.dropLast
  | markOnStack i, vs => moveAt i .memory vs 0
  | setRegister i r, vs => moveAt i (.register r) vs 0
  | truncate n, vs => takeSlots n vs

/-- The discipline of the allocator's callers: a register pushed was just returned by
`takeFree` for its kind, a scalar has a one-slot type, a pop takes a whole top value, a value
is moved by its lowest slot and to a free register only from memory or the flags, and a
truncation splits no vector. -/
def admitted (s : ValueStack) : StackOp → Bool
  | pushRegister t r => t.isScalar && s.takeFree t.regKind == some r
  | pushVectorRegister r => s.takeFree .vector == some r
  | pushMemory t => t.isScalar
  | pushVectorMemory | pushFlag _ => true
  | pop => s.slots.back?.any (·.type.isScalar)
  | popVector => s.slots.back?.any (·.type == .v128hi)
  | markOnStack i => s.slots[i]?.any (·.type != .v128hi)
  | setRegister i r =>
    s.slots[i]?.any (fun l => l.type != .v128hi && l.reg.isNone) && !s.used.contains r
  | truncate n => decide (n ≤ s.sp) && s.slots[n]?.all (·.type != .v128hi)

end StackOp

def runAll : List StackOp → StackM Unit
  | [] => pure ()
  | op :: ops => op.run >>= fun _ => runAll ops

def admitsAll : ValueStack → List StackOp → Bool
  | _, [] => true
  | s, op :: ops => op.admitted s && match op.run s with
    | .ok _ s' => admitsAll s' ops
    | .error _ _ => false

namespace ListModel

/-- One operation on the model: the peak follows the number of slots. -/
def step (m : ListModel) (op : StackOp) : ListModel :=
  let values := op.onValues m.values
  { values, peak := max m.peak (slotCount values) }

def run (m : ListModel) : List StackOp → ListModel
  | [] => m
  | op :: ops => (m.step op).run ops

end ListModel

/-- The stack `s` holds the values of `m`, slot for slot, with the ceiling at the model's
peak and exactly the recordable registers of its values in use. -/
structure Refines (s : ValueStack) (m : ListModel) : Prop where
  slots_eq : s.slots.toList = layout m.values 0
  ceil_eq : s.ceil = m.peak
  count_le : slotCount m.values ≤ m.peak
  used_eq : ∀ r, s.used.contains r = (RegSet.storable r && m.values.any (·.holds r))
  typed : ∀ v ∈ m.values, v.WellTyped
  /-- No recordable register is held by two values. -/
  apart : ∀ r, RegSet.storable r = true → m.values.countP (·.holds r) ≤ 1

/-! The layout of a list of values. -/

section Layout

variable {vs ws : List Value} {v : Value} {b : Nat}

@[simp] theorem Value.length_slots (v : Value) (b : Nat) : (v.slots b).length = v.width := by
  cases v <;> rfl

theorem Value.width_pos (v : Value) : 0 < v.width := by
  cases v <;> simp [Value.width]

@[simp] theorem slotCount_nil : slotCount [] = 0 := rfl

@[simp] theorem slotCount_cons : slotCount (v :: vs) = v.width + slotCount vs := by
  simp [slotCount]

@[simp] theorem slotCount_append : slotCount (vs ++ ws) = slotCount vs + slotCount ws := by
  simp [slotCount]

@[simp] theorem length_layout (vs : List Value) (b : Nat) :
    (layout vs b).length = slotCount vs := by
  induction vs generalizing b with
  | nil => rfl
  | cons v vs ih => simp [layout, ih]

theorem layout_append (vs ws : List Value) (b : Nat) :
    layout (vs ++ ws) b = layout vs b ++ layout ws (b + slotCount vs) := by
  induction vs generalizing b with
  | nil => simp [layout]
  | cons v vs ih => simp [layout, ih, Nat.add_assoc]

theorem layout_concat (vs : List Value) (v : Value) (b : Nat) :
    layout (vs ++ [v]) b = layout vs b ++ v.slots (b + slotCount vs) := by
  rw [layout_append]
  simp [layout]

theorem getElem?_layout (vs : List Value) (b k : Nat) :
    (layout vs b)[k]?.map (fun l => (l.slot, l.reg)) =
      (occupant vs k).map fun v => (b + k, v.home.reg) := by
  induction vs generalizing b k with
  | nil => simp [layout, occupant]
  | cons v vs ih =>
    rw [layout, List.getElem?_append, Value.length_slots, occupant]
    by_cases hk : k < v.width
    · rw [if_pos hk, if_pos hk]
      cases v with
      | scalar t h =>
        obtain rfl : k = 0 := by simpa [Value.width] using hk
        rfl
      | vector h =>
        match k, hk with
        | 0, _ => rfl
        | 1, _ => rfl
    · rw [if_neg hk, if_neg hk, ih, show b + v.width + (k - v.width) = b + k by omega]

theorem Value.exists_slots_reg (v : Value) (b : Nat) (r : Reg) :
    (∃ l ∈ v.slots b, l.reg = some r) ↔ v.home.reg = some r := by
  cases v <;> simp [Value.slots, Value.home]

theorem exists_layout_reg (vs : List Value) (b : Nat) (r : Reg) :
    (∃ l ∈ layout vs b, l.reg = some r) ↔ vs.any (·.holds r) = true := by
  induction vs generalizing b with
  | nil => simp [layout]
  | cons v vs ih =>
    rw [layout, List.any_cons, Bool.or_eq_true, ← ih (b + v.width), Value.holds, beq_iff_eq,
      ← Value.exists_slots_reg v b]
    simp only [List.mem_append]
    constructor
    · rintro ⟨l, hl | hl, hr⟩
      · exact .inl ⟨l, hl, hr⟩
      · exact .inr ⟨l, hl, hr⟩
    · rintro (⟨l, hl, hr⟩ | ⟨l, hl, hr⟩)
      · exact ⟨l, .inl hl, hr⟩
      · exact ⟨l, .inr hl, hr⟩

theorem findIdx?_layout (p : Reg → Bool) (ht : ∀ v ∈ vs, v.WellTyped) (b : Nat) :
    ((layout vs b).findIdx? fun l => l.type != .v128hi && l.reg.any p).map (b + ·) =
      lowestSlot p vs b := by
  induction vs generalizing b with
  | nil => rfl
  | cons v vs ih =>
    have hv : ((v.slots b).findIdx? fun l => l.type != .v128hi && l.reg.any p) =
        if v.home.reg.any p then some 0 else none := by
      cases v with
      | scalar t h =>
        have hhi : t ≠ .v128hi := by
          have := ht _ List.mem_cons_self
          simp only [Value.WellTyped, SlotType.isScalar, Bool.and_eq_true, bne_iff_ne] at this
          exact this.2
        simp only [Value.slots, Value.home, List.findIdx?_cons, List.findIdx?_nil]
        split <;> simp_all
      | vector h =>
        simp only [Value.slots, Value.home, List.findIdx?_cons, List.findIdx?_nil]
        split <;> simp_all
    rw [layout, List.findIdx?_append, hv, lowestSlot, ← ih (fun w hw => ht w (.tail _ hw))]
    split
    · rfl
    · simp only [Option.none_or, Option.map_map, Value.length_slots]
      congr 1
      funext k
      simp only [Function.comp]
      omega

theorem exists_split {k : Nat} {l : Location} (hl : (layout vs b)[k]? = some l)
    (hhi : l.type ≠ .v128hi) :
    ∃ pre v post, vs = pre ++ v :: post ∧ slotCount pre = k ∧ (v.slots (b + k)).head? = some l := by
  induction vs generalizing b k with
  | nil => simp [layout] at hl
  | cons v vs ih =>
    rw [layout, List.getElem?_append, Value.length_slots] at hl
    split at hl
    · rename_i hk
      obtain rfl : k = 0 := by
        cases v with
        | scalar t h => simpa [Value.width] using hk
        | vector h =>
          match k, hk with
          | 0, _ => rfl
          | 1, _ =>
            simp only [Value.slots, List.getElem?_cons_succ, List.getElem?_cons_zero,
              Option.some.injEq] at hl
            subst hl
            exact absurd rfl hhi
      refine ⟨[], v, vs, rfl, rfl, ?_⟩
      rw [List.head?_eq_getElem?]
      simpa using hl
    · rename_i hk
      obtain ⟨pre, w, post, rfl, hc, hw⟩ := ih hl
      refine ⟨v :: pre, w, post, rfl, by simp [hc]; omega, ?_⟩
      rw [show b + k = b + v.width + (k - v.width) by omega]
      exact hw

theorem moveAt_split {pre post : List Value} {i : Nat} (h : Home) (hb : b + slotCount pre = i) :
    moveAt i h (pre ++ v :: post) b = pre ++ v.moveTo h :: post := by
  induction pre generalizing b with
  | nil =>
    simp only [slotCount_nil, Nat.add_zero] at hb
    simp [moveAt, hb]
  | cons p pre ih =>
    have hne : b ≠ i := by
      have := p.width_pos
      simp only [slotCount_cons] at hb
      omega
    simp only [List.cons_append, moveAt, if_neg hne]
    rw [ih (by simp only [slotCount_cons] at hb; omega)]

theorem takeSlots_append_dropSlots (n : Nat) (vs : List Value) :
    takeSlots n vs ++ dropSlots n vs = vs := by
  induction vs generalizing n with
  | nil => rfl
  | cons v vs ih =>
    simp only [takeSlots, dropSlots]
    split
    · simp [ih]
    · rfl

theorem slotCount_takeSlots {n : Nat} (hn : n ≤ slotCount vs)
    (hcut : ∀ l, (layout vs b)[n]? = some l → l.type ≠ .v128hi) :
    slotCount (takeSlots n vs) = n := by
  induction vs generalizing n b with
  | nil =>
    simp only [slotCount_nil, Nat.le_zero] at hn
    simp [hn, takeSlots]
  | cons v vs ih =>
    rw [takeSlots]
    split
    · rename_i hw
      have hcut' : ∀ l, (layout vs (b + v.width))[n - v.width]? = some l → l.type ≠ .v128hi := by
        intro l hl
        apply hcut l
        rw [layout, List.getElem?_append, Value.length_slots, if_neg (by omega)]
        exact hl
      rw [slotCount_cons, ih (by simp only [slotCount_cons] at hn; omega) hcut']
      omega
    · rename_i hw
      cases v with
      | scalar t h =>
        simp only [Value.width, Nat.not_le, Nat.lt_one_iff] at hw
        simp [hw]
      | vector h =>
        have hhi := hcut { type := .v128hi, reg := h.reg, flag := h.flag, slot := b + 1 }
        match n, hw with
        | 0, _ => rfl
        | 1, _ => exact absurd rfl (hhi (by simp [layout, Value.slots]))
        | k + 2, hw => simp [Value.width] at hw

end Layout

/-! Values and their slots. -/

section Values

variable {v : Value} {b : Nat} {l : Location}

@[simp] theorem Value.width_moveTo (h : Home) (v : Value) : (v.moveTo h).width = v.width := by
  cases v <;> rfl

@[simp] theorem Value.home_moveTo (h : Home) (v : Value) : (v.moveTo h).home = h := by
  cases v <;> rfl

theorem Value.wellTyped_moveTo (h : Home) (hv : v.WellTyped) : (v.moveTo h).WellTyped := by
  cases v <;> exact hv

theorem Value.map_slots (h : Home) {f : Location → Location}
    (hf : ∀ l, f l = { l with reg := h.reg, flag := h.flag }) :
    (v.slots b).map f = (v.moveTo h).slots b := by
  cases v <;> simp [Value.slots, Value.moveTo, hf]

theorem Value.head?_slots (hv : v.WellTyped) (hl : (v.slots b).head? = some l) :
    l.reg = v.home.reg ∧ (v.slots b).length = if l.type == .v128lo then 2 else 1 := by
  cases v with
  | scalar t h =>
    simp only [Value.slots, List.head?_cons, Option.some.injEq] at hl
    subst hl
    have hlo : t ≠ .v128lo := by
      simp only [Value.WellTyped, SlotType.isScalar, Bool.and_eq_true, bne_iff_ne] at hv
      exact hv.1
    simp [Value.home, Value.width, hlo]
  | vector h =>
    simp only [Value.slots, List.head?_cons, Option.some.injEq] at hl
    subst hl
    simp [Value.home, Value.width]

end Values

theorem contains_foldl_release (ls : List Location) (u : RegSet) (x : Reg) :
    (ls.foldl (fun u l => match l.reg with
      | some r => u.erase r
      | none => u) u).contains x = true ↔ u.contains x = true ∧ ∀ l ∈ ls, l.reg ≠ some x := by
  refine contains_foldl (fun u l y => ?_) ls u x
  cases hl : l.reg with
  | none => simp
  | some r =>
    simp only [RegSet.contains_erase, Bool.and_eq_true, Bool.not_eq_true',
      beq_eq_false_iff_ne, ne_eq, Option.some.injEq]
    exact and_congr_right fun _ => ⟨fun h e => h e.symm, fun h e => h e.symm⟩

theorem contains_elim_erase (o : Option Reg) (u : RegSet) (x : Reg) :
    (o.elim u u.erase).contains x = (u.contains x && !(o == some x)) := by
  cases o with
  | none => simp
  | some r => simp [RegSet.contains_erase, Bool.beq_comm]

theorem releasePopped_eq (l : Location) (s : ValueStack) :
    releasePopped l s = .ok () { s with used := l.reg.elim s.used s.used.erase } := by
  unfold releasePopped
  cases l.reg <;> rfl

theorem back?_eq_getLast? (xs : Array Location) : xs.back? = xs.toList.getLast? := by
  simp [Array.back?_eq_getElem?, List.getLast?_eq_getElem?]

/-! The refinement, operation by operation. -/

section Refines

variable {s s' : ValueStack} {m : ListModel}

theorem Refines.sp_eq (h : Refines s m) : s.sp = slotCount m.values := by
  rw [ValueStack.sp, ← Array.length_toList, h.slots_eq, length_layout]

theorem Refines.getElem?_eq (h : Refines s m) (i : Nat) :
    s.slots[i]? = (layout m.values 0)[i]? := by
  rw [← Array.getElem?_toList, h.slots_eq]

theorem Refines.countP_eq_zero (h : Refines s m) {r : Reg} (hr : RegSet.storable r = true)
    (hfree : s.used.contains r = false) : m.values.countP (·.holds r) = 0 := by
  rw [h.used_eq, hr, Bool.true_and, List.any_eq_false] at hfree
  exact List.countP_eq_zero.mpr hfree

theorem Refines.push (h : Refines s m) {v : Value} (ht : v.WellTyped)
    (hfree : ∀ r, v.home.reg = some r → s.used.contains r = false)
    (hs : s'.slots.toList = s.slots.toList ++ v.slots s.sp)
    (hceil : s'.ceil = max s.ceil (s.sp + v.width))
    (hused : ∀ x, s'.used.contains x = (s.used.contains x || (v.holds x && RegSet.storable x))) :
    Refines s' { values := m.values ++ [v], peak := max m.peak (slotCount (m.values ++ [v])) } where
  slots_eq := by rw [hs, h.slots_eq, h.sp_eq, layout_concat, Nat.zero_add]
  ceil_eq := by
    rw [hceil, h.ceil_eq, h.sp_eq]
    simp
  count_le := le_max_right _ _
  used_eq x := by
    rw [hused, h.used_eq, List.any_append, List.any_cons, List.any_nil]
    cases RegSet.storable x <;> simp
  typed w hw := by
    rcases List.mem_append.mp hw with hw | hw
    · exact h.typed w hw
    · rw [List.mem_singleton.mp hw]
      exact ht
  apart r hr := by
    rw [List.countP_append, List.countP_singleton]
    split
    · rename_i hv
      have hreg : v.home.reg = some r := by simpa [Value.holds] using hv
      rw [h.countP_eq_zero hr (hfree r hreg)]
    · exact h.apart r hr

theorem Refines.cut (h : Refines s m) {kept gone : List Value} (hv : m.values = kept ++ gone)
    (hs : s'.slots.toList = layout kept 0) (hceil : s'.ceil = s.ceil)
    (hused : ∀ x, s'.used.contains x = (s.used.contains x && !gone.any (·.holds x))) :
    Refines s' { values := kept, peak := max m.peak (slotCount kept) } where
  slots_eq := hs
  ceil_eq := by
    show s'.ceil = max m.peak (slotCount kept)
    have := h.count_le
    rw [hv, slotCount_append] at this
    rw [hceil, h.ceil_eq]
    omega
  count_le := le_max_right _ _
  used_eq x := by
    rw [hused, h.used_eq, hv, List.any_append]
    cases hx : RegSet.storable x
    · simp
    · cases hgx : gone.any (·.holds x)
      · simp
      · -- a register of a value cut off is held by no value kept
        have happ := h.apart x hx
        rw [hv, List.countP_append] at happ
        have hpos : 0 < gone.countP (·.holds x) :=
          List.countP_pos_iff.mpr (List.any_eq_true.mp hgx)
        have h0 : kept.any (·.holds x) = false :=
          List.any_eq_false.mpr (List.countP_eq_zero.mp (by omega))
        simp [h0]
  typed w hw := h.typed w (by rw [hv]; exact List.mem_append_left _ hw)
  apart r hr := by
    show kept.countP (·.holds r) ≤ 1
    have := h.apart r hr
    rw [hv, List.countP_append] at this
    omega

theorem Refines.move (h : Refines s m) {pre post : List Value} {v : Value}
    (hv : m.values = pre ++ v :: post) {home : Home}
    (hfree : ∀ r, home.reg = some r → s.used.contains r = false)
    (hs : s'.slots.toList = layout (pre ++ v.moveTo home :: post) 0) (hceil : s'.ceil = s.ceil)
    (hused : ∀ x, s'.used.contains x =
      ((s.used.contains x && !v.holds x) || ((v.moveTo home).holds x && RegSet.storable x))) :
    Refines s' ⟨pre ++ v.moveTo home :: post,
      max m.peak (slotCount (pre ++ v.moveTo home :: post))⟩ where
  slots_eq := hs
  ceil_eq := by
    have := h.count_le
    rw [hv] at this
    simp only [slotCount_append, slotCount_cons, Value.width_moveTo] at this ⊢
    rw [hceil, h.ceil_eq]
    omega
  count_le := le_max_right _ _
  used_eq x := by
    rw [hused, h.used_eq, hv]
    simp only [List.any_append, List.any_cons]
    cases hx : RegSet.storable x
    · simp
    · cases hvx : v.holds x
      · simp only [Bool.not_false, Bool.and_true, Bool.false_or, Bool.true_and]
        cases (v.moveTo home).holds x <;> cases pre.any (·.holds x) <;>
          cases post.any (·.holds x) <;> rfl
      · -- no other value holds the register of the value moved
        have happ := h.apart x hx
        rw [hv, List.countP_append, List.countP_cons, if_pos hvx] at happ
        have hpre : pre.any (·.holds x) = false :=
          List.any_eq_false.mpr (List.countP_eq_zero.mp (by omega))
        have hpost : post.any (·.holds x) = false :=
          List.any_eq_false.mpr (List.countP_eq_zero.mp (by omega))
        simp [hpre, hpost]
  typed w hw := by
    rcases List.mem_append.mp hw with hw | hw
    · exact h.typed w (by rw [hv]; exact List.mem_append_left _ hw)
    · rcases List.mem_cons.mp hw with rfl | hw
      · exact Value.wellTyped_moveTo home (h.typed v (by rw [hv]; simp))
      · exact h.typed w (by rw [hv]; simp [hw])
  apart r hr := by
    have happ := h.apart r hr
    rw [hv, List.countP_append, List.countP_cons] at happ
    rw [List.countP_append, List.countP_cons]
    split
    · -- a register the value moves to was free, so no other value holds it
      rename_i hmv
      have hreg : home.reg = some r := by simpa [Value.holds] using hmv
      have h0 := h.countP_eq_zero hr (hfree r hreg)
      rw [hv, List.countP_append, List.countP_cons] at h0
      omega
    · split at happ <;> omega

theorem refines_new (gp vec : List Reg) : Refines (ValueStack.new gp vec) {} where
  slots_eq := rfl
  ceil_eq := rfl
  count_le := le_rfl
  used_eq r := by simp [ValueStack.new]
  typed _ hv := absurd hv List.not_mem_nil
  apart _ _ := by simp

end Refines

/-! Each admitted operation. -/

section Step

variable {s : ValueStack} {m : ListModel}

theorem contains_insert_eq (u : RegSet) (r x : Reg) :
    (u.insert r).contains x = (u.contains x || (some r == some x && RegSet.storable x)) := by
  rw [RegSet.contains_insert]
  by_cases hx : x = r
  · subst hx
    simp [Bool.or_comm]
  · have h₁ : (x == r) = false := beq_false_of_ne hx
    have h₂ : (some r == some x) = false := by simpa using Ne.symm hx
    simp [h₁, h₂]

theorem used_pushLoc (s : ValueStack) (t : SlotType) (reg : Option Reg) (flag : Option Flag)
    (x : Reg) :
    (s.pushLoc t reg flag).used.contains x =
      (s.used.contains x || (reg == some x && RegSet.storable x)) := by
  cases reg with
  | none => simp [pushLoc]
  | some r => exact contains_insert_eq s.used r x

theorem Refines.pushScalar (h : Refines s m) {t : SlotType} (home : Home) (ht : t.isScalar = true)
    (hfree : ∀ r, home.reg = some r → s.used.contains r = false) :
    Refines (s.pushLoc t home.reg home.flag)
      ⟨m.values ++ [.scalar t home], max m.peak (slotCount (m.values ++ [.scalar t home]))⟩ :=
  h.push ht hfree (by simp [pushLoc, Value.slots]) (by simp [pushLoc, ValueStack.sp, Value.width])
    fun x => used_pushLoc s t home.reg home.flag x

theorem Refines.pushVector (h : Refines s m) (home : Home)
    (hfree : ∀ r, home.reg = some r → s.used.contains r = false) :
    Refines ((s.pushLoc .v128lo home.reg home.flag).pushLoc .v128hi home.reg home.flag)
      ⟨m.values ++ [.vector home], max m.peak (slotCount (m.values ++ [.vector home]))⟩ := by
  refine h.push trivial hfree ?_ ?_ fun x => ?_
  · simp [pushLoc, Value.slots, ValueStack.sp]
  · simp only [pushLoc, ValueStack.sp, Array.size_push, Value.width]
    omega
  · rw [used_pushLoc, used_pushLoc, Bool.or_assoc, Bool.or_self]
    rfl

theorem Refines.back? (h : Refines s m) {init : List Value} {v : Value}
    (hv : m.values = init ++ [v]) : s.slots.back? = (v.slots (slotCount init)).getLast? := by
  rw [back?_eq_getLast?, h.slots_eq, hv, layout_concat, Nat.zero_add, List.getLast?_append]
  cases v <;> simp [Value.slots]

theorem Refines.exists_concat (h : Refines s m) {l : Location} (hl : s.slots.back? = some l) :
    ∃ init v, m.values = init ++ [v] := by
  rcases List.eq_nil_or_concat m.values with hnil | ⟨init, v, hv⟩
  · rw [back?_eq_getLast?, h.slots_eq, hnil] at hl
    cases hl
  · exact ⟨init, v, by rw [hv, List.concat_eq_append]⟩

theorem Refines.pop (h : Refines s m) (ha : StackOp.pop.admitted s = true) :
    ∃ s', StackOp.pop.run s = .ok () s' ∧ Refines s' (m.step .pop) := by
  obtain ⟨l, hl, hsc⟩ := (Option.any_eq_true _ _).mp ha
  obtain ⟨init, v, hv⟩ := h.exists_concat hl
  have hstep : m.step .pop = ⟨init, max m.peak (slotCount init)⟩ := by
    simp [ListModel.step, StackOp.onValues, hv]
  rw [h.back? hv] at hl
  cases v with
  | vector home =>
    simp only [Value.slots, List.getLast?_cons_cons, List.getLast?_singleton,
      Option.some.injEq] at hl
    subst hl
    cases hsc
  | scalar t home =>
    simp only [Value.slots, List.getLast?_singleton, Option.some.injEq] at hl
    have hpop : StackM.pop s = .ok l { s with slots := s.slots.pop } := by
      simp [StackM.pop, h.back? hv, Value.slots, hl]
    have hused : ∀ x, (l.reg.elim s.used s.used.erase).contains x =
        (s.used.contains x && !([Value.scalar t home].any (·.holds x))) := by
      intro x
      rw [contains_elim_erase, ← hl, List.any_cons, List.any_nil, Bool.or_false]
      rfl
    rw [hstep]
    refine ⟨{ s with slots := s.slots.pop, used := l.reg.elim s.used s.used.erase }, ?_,
      h.cut hv ?_ rfl hused⟩
    · show (StackM.pop >>= releasePopped) s = _
      simp only [bind, EStateM.bind, hpop, releasePopped_eq]
    · rw [Array.toList_pop, h.slots_eq, hv, layout_concat]
      exact List.dropLast_concat

theorem Refines.popVector (h : Refines s m) (ha : StackOp.popVector.admitted s = true) :
    ∃ s', StackOp.popVector.run s = .ok () s' ∧ Refines s' (m.step .popVector) := by
  obtain ⟨l, hl, hhi⟩ := (Option.any_eq_true _ _).mp ha
  obtain ⟨init, v, hv⟩ := h.exists_concat hl
  have hstep : m.step .popVector = ⟨init, max m.peak (slotCount init)⟩ := by
    simp [ListModel.step, StackOp.onValues, hv]
  rw [h.back? hv] at hl
  cases v with
  | scalar t home =>
    simp only [Value.slots, List.getLast?_singleton, Option.some.injEq] at hl
    subst hl
    have := h.typed (.scalar t home) (by rw [hv]; simp)
    simp only [Value.WellTyped, SlotType.isScalar, Bool.and_eq_true, bne_iff_ne] at this
    simp only [beq_iff_eq] at hhi
    exact absurd hhi this.2
  | vector home =>
    have hhi : s.slots.back? =
        some { type := .v128hi, reg := home.reg, flag := home.flag, slot := slotCount init + 1 } := by
      rw [h.back? hv]
      rfl
    have hlo : s.slots.pop.back? =
        some { type := .v128lo, reg := home.reg, flag := home.flag, slot := slotCount init } := by
      rw [back?_eq_getLast?, Array.toList_pop, h.slots_eq, hv, layout_concat]
      simp [Value.slots, List.dropLast_append_of_ne_nil]
    have hpop : StackM.popV128 s =
        .ok { type := .v128lo, reg := home.reg, flag := home.flag, slot := slotCount init }
          { s with slots := s.slots.pop.pop } := by
      simp [StackM.popV128, StackM.pop, bind, EStateM.bind, hhi, hlo]
      rfl
    have hused : ∀ x, (home.reg.elim s.used s.used.erase).contains x =
        (s.used.contains x && !([Value.vector home].any (·.holds x))) := by
      intro x
      rw [contains_elim_erase, List.any_cons, List.any_nil, Bool.or_false]
      rfl
    rw [hstep]
    refine ⟨{ s with slots := s.slots.pop.pop, used := home.reg.elim s.used s.used.erase }, ?_,
      h.cut hv ?_ rfl hused⟩
    · show (StackM.popV128 >>= releasePopped) s = _
      simp only [bind, EStateM.bind, hpop, releasePopped_eq]
    · rw [Array.toList_pop, Array.toList_pop, h.slots_eq, hv, layout_concat]
      simp [Value.slots, List.dropLast_append_of_ne_nil]

theorem toList_modifyValue {xs : Array Location} {A B C : List Location}
    (hx : xs.toList = A ++ B ++ C) {pair : Bool} (hB : B.length = if pair then 2 else 1)
    (f : Location → Location) :
    (modifyValue xs A.length pair f).toList = A ++ B.map f ++ C := by
  apply List.ext_getElem?
  intro j
  rw [Array.getElem?_toList, getElem?_modifyValue, ← Array.getElem?_toList, hx]
  simp only [List.getElem?_append, List.length_append, List.length_map, List.getElem?_map]
  cases pair <;> simp only [if_true, if_false, Bool.false_eq_true] at hB <;>
    by_cases h₁ : j < A.length <;> by_cases h₂ : j < A.length + B.length <;> simp [h₁, h₂] <;>
    omega

theorem Refines.split (h : Refines s m) {i : Nat} {l : Location} (hl : s.slots[i]? = some l)
    (hhi : l.type ≠ .v128hi) :
    ∃ pre v post, m.values = pre ++ v :: post ∧ slotCount pre = i ∧ (v.slots i).head? = some l := by
  rw [h.getElem?_eq] at hl
  obtain ⟨pre, v, post, hv, hc, hh⟩ := exists_split hl hhi
  exact ⟨pre, v, post, hv, hc, by simpa using hh⟩

theorem Refines.toList_moveValue (h : Refines s m) {pre post : List Value} {v : Value} {i : Nat}
    {l : Location} (hv : m.values = pre ++ v :: post) (hc : slotCount pre = i)
    (hl : (v.slots i).head? = some l) (home : Home) {f : Location → Location}
    (hf : ∀ l, f l = { l with reg := home.reg, flag := home.flag }) :
    (modifyValue s.slots i (l.type == .v128lo) f).toList =
      layout (pre ++ v.moveTo home :: post) 0 := by
  have hty : v.WellTyped := h.typed v (by rw [hv]; simp)
  have hx : s.slots.toList = layout pre 0 ++ v.slots i ++ layout post (i + v.width) := by
    rw [h.slots_eq, hv, layout_append, layout, Nat.zero_add, hc, List.append_assoc]
  have hA : (layout pre 0).length = i := by rw [length_layout, hc]
  rw [← hA, toList_modifyValue hx (Value.head?_slots hty hl).2 f, Value.map_slots home hf,
    layout_append, layout, Nat.zero_add, hc, Value.width_moveTo, List.append_assoc]

theorem Refines.pair_lt (h : Refines s m) {pre post : List Value} {v : Value} {i : Nat}
    {l : Location} (hv : m.values = pre ++ v :: post) (hc : slotCount pre = i)
    (hl : (v.slots i).head? = some l) : l.type = .v128lo → i + 1 < s.sp := by
  intro hlo
  have hlen := (Value.head?_slots (h.typed v (by rw [hv]; simp)) hl).2
  rw [hlo, Value.length_slots] at hlen
  rw [h.sp_eq, hv, slotCount_append, slotCount_cons, hc, hlen]
  simp
  omega

theorem Refines.markOnStack (h : Refines s m) {i : Nat}
    (ha : (StackOp.markOnStack i).admitted s = true) :
    ∃ s', (StackOp.markOnStack i).run s = .ok () s' ∧ Refines s' (m.step (.markOnStack i)) := by
  obtain ⟨l, hl, hhi⟩ := (Option.any_eq_true _ _).mp ha
  obtain ⟨pre, v, post, hv, hc, hh⟩ := h.split hl (by simpa using hhi)
  have hreg := (Value.head?_slots (h.typed v (by rw [hv]; simp)) hh).1
  have hstep : m.step (.markOnStack i) =
      ⟨pre ++ v.moveTo .memory :: post, max m.peak (slotCount (pre ++ v.moveTo .memory :: post))⟩ := by
    simp only [ListModel.step, StackOp.onValues]
    rw [hv, moveAt_split .memory (show 0 + slotCount pre = i by omega)]
  rw [hstep]
  refine ⟨_, StackM.markOnStack_eq hl (h.pair_lt hv hc hh), h.move hv (by simp [Home.reg])
    (h.toList_moveValue hv hc hh .memory fun _ => rfl) rfl fun x => ?_⟩
  rw [contains_elim_erase, hreg]
  simp [Value.holds, Home.reg]

theorem Refines.setRegister (h : Refines s m) {i : Nat} {r : Reg}
    (ha : (StackOp.setRegister i r).admitted s = true) :
    ∃ s', (StackOp.setRegister i r).run s = .ok () s' ∧ Refines s' (m.step (.setRegister i r)) := by
  simp only [StackOp.admitted, Bool.and_eq_true, Bool.not_eq_true'] at ha
  obtain ⟨⟨l, hl, hl'⟩, hfree⟩ := And.imp_left (Option.any_eq_true _ _).mp ha
  simp only [Bool.and_eq_true, bne_iff_ne, ne_eq, Option.isNone_iff_eq_none] at hl'
  obtain ⟨pre, v, post, hv, hc, hh⟩ := h.split hl hl'.1
  have hreg := (Value.head?_slots (h.typed v (by rw [hv]; simp)) hh).1
  have hstep : m.step (.setRegister i r) = ⟨pre ++ v.moveTo (.register r) :: post,
      max m.peak (slotCount (pre ++ v.moveTo (.register r) :: post))⟩ := by
    simp only [ListModel.step, StackOp.onValues]
    rw [hv, moveAt_split (.register r) (show 0 + slotCount pre = i by omega)]
  rw [hstep]
  refine ⟨_, StackM.setRegister_eq hl (h.pair_lt hv hc hh), h.move hv ?_
    (h.toList_moveValue hv hc hh (.register r) fun _ => rfl) rfl fun x => ?_⟩
  · intro r' hr'
    cases hr'
    exact hfree
  · -- the value held no register
    have hnone : v.holds x = false := by simp [Value.holds, ← hreg, hl'.2]
    rw [contains_insert_eq, hnone, Bool.not_false, Bool.and_true]
    simp [Value.holds, Home.reg]

theorem Refines.truncate (h : Refines s m) {n : Nat}
    (ha : (StackOp.truncate n).admitted s = true) :
    ∃ s', (StackOp.truncate n).run s = .ok () s' ∧ Refines s' (m.step (.truncate n)) := by
  simp only [StackOp.admitted, Bool.and_eq_true, decide_eq_true_eq, Option.all_eq_true] at ha
  obtain ⟨hn, hcut⟩ := ha
  have hcut' : ∀ l, (layout m.values 0)[n]? = some l → l.type ≠ .v128hi := by
    intro l hl
    rw [← h.getElem?_eq] at hl
    simpa using hcut l hl
  obtain ⟨kept, gone, hv, hk⟩ : ∃ kept gone, m.values = kept ++ gone ∧ kept = takeSlots n m.values :=
    ⟨_, _, (takeSlots_append_dropSlots n m.values).symm, rfl⟩
  have hc : slotCount kept = n := hk ▸ slotCount_takeSlots (h.sp_eq ▸ hn) hcut'
  have hlay : s.slots.toList = layout kept 0 ++ layout gone n := by
    rw [h.slots_eq, hv, layout_append, Nat.zero_add, hc]
  have hstep : m.step (.truncate n) = ⟨kept, max m.peak (slotCount kept)⟩ := by
    simp only [ListModel.step, StackOp.onValues, hk]
  rw [hstep]
  refine ⟨_, StackM.truncate_of_le hn, h.cut hv ?_ rfl fun x => ?_⟩
  · simp only [ValueStack.truncate, Array.toList_extract, List.extract_eq_take_drop, List.drop_zero,
      Nat.sub_zero, hlay]
    exact List.take_left' (by rw [length_layout, hc])
  · -- the registers released are those of the values cut off
    have hgone : (s.slots.extract n s.slots.size).toList = layout gone n := by
      rw [Array.toList_extract, List.extract_eq_take_drop, ← Array.length_toList, hlay,
        List.drop_left' (by rw [length_layout, hc])]
      exact List.take_of_length_le (by simp; omega)
    have hrel : (s.truncate n).used.contains x = true ↔
        s.used.contains x = true ∧ ∀ l ∈ layout gone n, l.reg ≠ some x := by
      show ((s.slots.extract n s.slots.size).foldl _ s.used).contains x = true ↔ _
      rw [← Array.foldl_toList, hgone]
      exact contains_foldl_release _ _ _
    rw [Bool.eq_iff_iff, hrel, Bool.and_eq_true, Bool.not_eq_true', ← Bool.not_eq_true,
      ← exists_layout_reg gone n x]
    simp

end Step

/-! Runs of operations. -/

section Run

variable {s : ValueStack} {m : ListModel}

/-- One admitted operation succeeds and keeps the refinement. -/
theorem Refines.step (h : Refines s m) {op : StackOp} (ha : op.admitted s = true) :
    ∃ s', op.run s = .ok () s' ∧ Refines s' (m.step op) := by
  cases op with
  | pushRegister t r =>
    simp only [StackOp.admitted, Bool.and_eq_true, beq_iff_eq] at ha
    exact ⟨_, rfl, h.pushScalar (.register r) ha.1 fun _ hr => by
      cases hr
      exact (takeFree_some ha.2).2.1⟩
  | pushVectorRegister r =>
    simp only [StackOp.admitted, beq_iff_eq] at ha
    exact ⟨_, rfl, h.pushVector (.register r) fun _ hr => by
      cases hr
      exact (takeFree_some ha).2.1⟩
  | pushMemory t => exact ⟨_, rfl, h.pushScalar .memory ha fun _ hr => by cases hr⟩
  | pushVectorMemory => exact ⟨_, rfl, h.pushVector .memory fun _ hr => by cases hr⟩
  | pushFlag f => exact ⟨_, rfl, h.pushScalar (.flags f) rfl fun _ hr => by cases hr⟩
  | pop => exact h.pop ha
  | popVector => exact h.popVector ha
  | markOnStack i => exact h.markOnStack ha
  | setRegister i r => exact h.setRegister ha
  | truncate n => exact h.truncate ha

theorem Refines.run (h : Refines s m) {ops : List StackOp} (ha : admitsAll s ops = true) :
    ∃ s', runAll ops s = .ok () s' ∧ Refines s' (m.run ops) := by
  induction ops generalizing s m with
  | nil => exact ⟨s, rfl, h⟩
  | cons op ops ih =>
    rw [admitsAll, Bool.and_eq_true] at ha
    obtain ⟨s₁, h₁, hR₁⟩ := h.step ha.1
    rw [h₁] at ha
    obtain ⟨s', h', hR'⟩ := ih hR₁ ha.2
    refine ⟨s', ?_, hR'⟩
    show (op.run >>= fun _ => runAll ops) s = _
    simp only [bind, EStateM.bind, h₁, h']

/-! What the refinement tells of a stack. -/

theorem Refines.getElem?_slots (h : Refines s m) (i : Nat) :
    s.slots[i]?.map (fun l => (l.slot, l.reg)) = (occupant m.values i).map fun v => (i, v.home.reg) := by
  rw [h.getElem?_eq, getElem?_layout, Nat.zero_add]

theorem Refines.findIdx?_slots (h : Refines s m) (p : Reg → Bool) :
    (s.slots.findIdx? fun l => l.type != .v128hi && l.reg.any p) = lowestSlot p m.values 0 := by
  rw [← findIdx?_layout p h.typed 0, ← h.slots_eq]
  rcases hs : s.slots with ⟨xs⟩
  simp

theorem Refines.registerOwner_eq (h : Refines s m) (r : Reg) :
    s.registerOwner r = lowestSlot (· == r) m.values 0 := by
  rw [← h.findIdx?_slots, registerOwner]
  congr 1
  funext l
  rw [Bool.and_comm]
  cases l.reg <;> simp

theorem Refines.stealTarget_eq (h : Refines s m) (kind : RegKind) (exclude : RegSet) :
    s.stealTarget kind exclude =
      lowestSlot (fun r => r.kind == kind && !exclude.contains r) m.values 0 := by
  rw [← h.findIdx?_slots, stealTarget]
  congr 1
  funext l
  cases l.reg <;> rfl

end Run

/-- From a new stack, every sequence of operations made under the allocator's discipline runs
to its end, and the stack it leaves holds the values of the list model run on the same
operations: one slot per scalar and two per vector, each slot recording its own index and the
register of the value occupying it; the stack pointer is the number of slots, the ceiling the
most slots held so far, the owner of a register and the victim of a spill the lowest slot of
the first value they look for, and a register is in use exactly when a register set can record
it and some value holds it. -/
theorem refines_list_model {gp vec : List Reg} {ops : List StackOp}
    (h : admitsAll (ValueStack.new gp vec) ops = true) :
    ∃ s, runAll ops (ValueStack.new gp vec) = .ok () s ∧
      s.slots.toList = layout (ListModel.run {} ops).values 0 ∧
      s.sp = slotCount (ListModel.run {} ops).values ∧
      s.ceil = (ListModel.run {} ops).peak ∧
      (∀ i, s.slots[i]?.map (fun l => (l.slot, l.reg)) =
        (occupant (ListModel.run {} ops).values i).map fun v => (i, v.home.reg)) ∧
      (∀ r, s.registerOwner r = lowestSlot (· == r) (ListModel.run {} ops).values 0) ∧
      (∀ kind exclude, s.stealTarget kind exclude =
        lowestSlot (fun r => r.kind == kind && !exclude.contains r) (ListModel.run {} ops).values 0) ∧
      (∀ r, s.used.contains r =
        (RegSet.storable r && (ListModel.run {} ops).values.any (·.holds r))) := by
  obtain ⟨s, hs, hR⟩ := (refines_new gp vec).run h
  exact ⟨s, hs, hR.slots_eq, hR.sp_eq, hR.ceil_eq, hR.getElem?_slots, hR.registerOwner_eq,
    hR.stealTarget_eq, hR.used_eq⟩

def spillRefillOps : List StackOp :=
  [.pushRegister .i32 (Reg.gp 0), .pushVectorRegister (Reg.vec 0), .pushFlag .eq,
    .markOnStack 1, .pop, .setRegister 1 (Reg.vec 0), .pushMemory .i64, .truncate 1]

/-- After `spillRefillOps` the ceiling is the four slots held before the spill, one slot is
left, and it owns its register. -/
theorem spillRefill_refines_list_model :
    admitsAll (ValueStack.new [Reg.gp 0, Reg.gp 1] [Reg.vec 0]) spillRefillOps = true ∧
      ∃ s, runAll spillRefillOps (ValueStack.new [Reg.gp 0, Reg.gp 1] [Reg.vec 0]) = .ok () s ∧
        s.ceil = 4 ∧ s.sp = 1 ∧ s.registerOwner (Reg.gp 0) = some 0 := by
  have hadm : admitsAll (ValueStack.new [Reg.gp 0, Reg.gp 1] [Reg.vec 0]) spillRefillOps = true := by
    decide
  obtain ⟨s, hs, -, hsp, hceil, -, hown, -, -⟩ := refines_list_model hadm
  exact ⟨hadm, s, hs, hceil.trans (by decide), hsp.trans (by decide), (hown _).trans (by decide)⟩

end ValueStack

end OnePassJit
