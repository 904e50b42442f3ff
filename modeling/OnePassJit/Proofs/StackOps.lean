import Mathlib.Data.Finset.Option
import OnePassJit.Proofs.Layout

/-!
Each value stack operation keeps the layout.

A push appends a block (one slot, or the two halves of a vector) and makes its register
live; a pop cuts the top value off and makes its register a temporary; a truncation cuts
and releases; marking a value on the stack or in a register rewrites the register of its
one or two slots. The hypotheses are what the callers guarantee: the value popped or
rewritten is never the high half of a vector, and a truncation splits none.
-/

namespace OnePassJit.ValueStack

variable {s s' : ValueStack} {T : Finset Reg}

theorem regsOf_singleton (l : Location) : regsOf #[l] = l.reg.toFinset := by
  ext r
  rw [mem_regsOf, Option.mem_toFinset]
  constructor
  · rintro ⟨k, l', hk, hr⟩
    simp only [Array.getElem?_singleton] at hk
    split at hk
    · cases hk; exact hr
    · cases hk
  · intro hr
    exact ⟨0, l, rfl, hr⟩

theorem regsOf_pair (reg : Option Reg) (b : Nat) :
    regsOf #[{ type := .v128lo, reg, slot := b }, { type := .v128hi, reg, slot := b + 1 }] =
      reg.toFinset := by
  ext r
  rw [mem_regsOf, Option.mem_toFinset]
  constructor
  · rintro ⟨k, l', hk, hr⟩
    match k with
    | 0 | 1 => simp at hk; subst hk; exact hr
    | k + 2 => simp at hk
  · intro hr
    exact ⟨0, _, rfl, hr⟩

theorem slots_pushLoc (s : ValueStack) (t : SlotType) (reg : Option Reg) (flag : Option Flag) :
    (s.pushLoc t reg flag).slots = s.slots ++ #[{ type := t, reg, flag, slot := s.sp }] := by
  show s.slots.push _ = _
  exact Array.push_eq_append

@[simp] theorem sp_pushLoc (s : ValueStack) (t : SlotType) (reg : Option Reg) (flag : Option Flag) :
    (s.pushLoc t reg flag).sp = s.sp + 1 :=
  pushLoc_sp s t reg flag

theorem contains_pushLoc {reg : Option Reg} (hreg : ∀ r, reg = some r → s.used.contains r = true)
    (t : SlotType) (flag : Option Flag) (x : Reg) :
    (s.pushLoc t reg flag).used.contains x = s.used.contains x := by
  cases reg with
  | none => rfl
  | some r =>
    have hr := hreg r rfl
    show (s.used.insert r).contains x = s.used.contains x
    rw [RegSet.contains_insert]
    by_cases hx : x = r
    · subst hx; simp [hr]
    · simp [hx]

theorem Layout.contains_of_temp (h : Layout s T) {reg : Option Reg}
    (hreg : ∀ r, reg = some r → r ∈ T) (r : Reg) (hr : reg = some r) : s.used.contains r = true :=
  (h.used_iff r).mpr (.inr (hreg r hr))

namespace Layout

theorem pushLoc (h : Layout s T) {t : SlotType} {reg : Option Reg} {flag : Option Flag}
    (hreg : ∀ r, reg = some r → r ∈ T) (hf : flag.isSome → reg = none ∧ t = .i32)
    (hlo : t ≠ .v128lo) (hhi : t ≠ .v128hi) :
    Layout (s.pushLoc t reg flag) (T \ reg.toFinset) := by
  have hb : Block #[{ type := t, reg, flag, slot := s.sp }] s.slots.size :=
    Block.single rfl hf hlo hhi
  have := h.append hb (by rw [regsOf_singleton]; exact fun r hr => hreg r (Option.mem_toFinset.mp hr))
    (slots_pushLoc s t reg flag) (contains_pushLoc (h.contains_of_temp hreg) t flag)
  rwa [regsOf_singleton] at this

theorem pushPair (h : Layout s T) {reg : Option Reg} (hreg : ∀ r, reg = some r → r ∈ T) :
    Layout ((s.pushLoc .v128lo reg none).pushLoc .v128hi reg none) (T \ reg.toFinset) := by
  have hb := Block.pair reg s.slots.size
  have hs : ((s.pushLoc .v128lo reg none).pushLoc .v128hi reg none).slots =
      s.slots ++ #[{ type := .v128lo, reg, slot := s.slots.size },
        { type := .v128hi, reg, slot := s.slots.size + 1 }] := by
    rw [slots_pushLoc, slots_pushLoc, Array.append_assoc, sp_pushLoc]
    simp [sp]
  have hu : ∀ x, ((s.pushLoc .v128lo reg none).pushLoc .v128hi reg none).used.contains x =
      s.used.contains x := by
    intro x
    have h₁ := contains_pushLoc (h.contains_of_temp hreg) .v128lo none
    rw [contains_pushLoc (fun r hr => by rw [h₁]; exact h.contains_of_temp hreg r hr), h₁]
  have := h.append hb (by rw [regsOf_pair]; exact fun r hr => hreg r (Option.mem_toFinset.mp hr)) hs hu
  rwa [regsOf_pair] at this

theorem pop_eq_take {α : Type} (xs : Array α) : xs.pop = xs.extract 0 (xs.size - 1) := by
  apply Array.ext_getElem?
  intro i
  simp only [Array.getElem?_pop, Array.getElem?_extract, Nat.sub_zero, Nat.zero_add]
  by_cases hi : i < xs.size - 1
  · rw [if_pos hi, if_pos (by omega)]
  · rw [if_neg hi, if_neg (by omega)]

theorem regsOf_two (a b : Location) : regsOf #[a, b] = a.reg.toFinset ∪ b.reg.toFinset := by
  ext r
  rw [mem_regsOf, Finset.mem_union, Option.mem_toFinset, Option.mem_toFinset]
  constructor
  · rintro ⟨k, l', hk, hr⟩
    match k with
    | 0 => simp at hk; subst hk; exact .inl hr
    | 1 => simp at hk; subst hk; exact .inr hr
    | k + 2 => simp at hk
  · rintro (hr | hr)
    · exact ⟨0, a, rfl, hr⟩
    · exact ⟨1, b, rfl, hr⟩

theorem extract_last {xs : Array Location} {l : Location} (h : xs.back? = some l) :
    xs.extract (xs.size - 1) xs.size = #[l] := by
  rw [Array.back?_eq_getElem?] at h
  have hs := Block.lt_size h
  apply Array.ext_getElem?
  intro i
  simp only [Array.getElem?_extract, Nat.min_self, Array.getElem?_singleton]
  match i with
  | 0 => rw [if_pos (by omega), Nat.add_zero, h]; rfl
  | i + 1 => rw [if_neg (by omega)]; rfl

theorem extract_last_two {xs : Array Location} {a b : Location} (hb : xs.back? = some b)
    (ha : xs.pop.back? = some a) : xs.extract (xs.size - 2) xs.size = #[a, b] := by
  rw [Array.back?_eq_getElem?] at hb ha
  rw [Array.getElem?_pop, Array.size_pop] at ha
  have hs := Block.lt_size hb
  split at ha
  · apply Array.ext_getElem?
    intro i
    simp only [Array.getElem?_extract, Nat.min_self]
    match i with
    | 0 => rw [if_pos (by omega), Nat.add_zero, show xs.size - 2 = xs.size - 1 - 1 by omega, ha]; rfl
    | 1 => rw [if_pos (by omega), show xs.size - 2 + 1 = xs.size - 1 by omega, hb]; rfl
    | i + 2 => rw [if_neg (by omega)]; rfl
  · cases ha

theorem erase_regs (h : Layout s T) {R : Finset Reg} (hR : R ⊆ T) (hs : s'.slots = s.slots)
    (hu : ∀ x, s'.used.contains x = true ↔ s.used.contains x = true ∧ x ∉ R) :
    Layout s' (T \ R) where
  toBlock := hs ▸ h.toBlock
  used_iff := by
    intro x
    rw [hu, h.used_iff x, Holds, Holds, hs, Finset.mem_sdiff]
    by_cases hx : x ∈ R
    · have := h.temp_free x (hR hx)
      simp [hx, Holds] at this ⊢
      exact this
    · simp [hx]
  temp_free := by
    intro x hx
    rw [Holds, hs]
    exact h.temp_free x (Finset.mem_sdiff.mp hx).1

theorem popTop (h : Layout s T) {l : Location} (hl : s.slots.back? = some l)
    (hhi : l.type ≠ .v128hi) : Layout { s with slots := s.slots.pop } (T ∪ l.reg.toFinset) := by
  have hn : NotHiAt s.slots (s.slots.size - 1) := by
    intro l' h'
    rw [← Array.back?_eq_getElem?, hl] at h'
    cases h'
    exact hhi
  have : Layout { s with slots := s.slots.pop } _ := h.cut hn (pop_eq_take _) rfl
  rwa [extract_last hl, regsOf_singleton] at this

theorem popPair (h : Layout s T) {lo hi : Location} (hh : s.slots.back? = some hi)
    (hl : s.slots.pop.back? = some lo) (hlo : lo.type = .v128lo) :
    Layout { s with slots := s.slots.pop.pop } (T ∪ lo.reg.toFinset) := by
  have hlo' : s.slots[s.slots.size - 2]? = some lo := by
    rw [Array.back?_eq_getElem?, Array.getElem?_pop, Array.size_pop] at hl
    split at hl
    · rwa [show s.slots.size - 2 = s.slots.size - 1 - 1 by omega]
    · cases hl
  have hreg : hi.reg = lo.reg := by
    obtain ⟨l', h', -, hr⟩ := h.lo_hi hlo' hlo
    have hs : s.slots.size - 2 + 1 < s.slots.size := Block.lt_size h'
    have he : s.slots.size - 2 + 1 = s.slots.size - 1 := by omega
    rw [Array.back?_eq_getElem?] at hh
    rw [he, hh] at h'
    cases h'
    exact hr
  have hn : NotHiAt s.slots (s.slots.size - 2) := by
    intro l' h'
    rw [hlo'] at h'
    cases h'
    rw [hlo]
    decide
  have htake : s.slots.pop.pop = s.slots.extract 0 (s.slots.size - 2) := by
    apply Array.ext_getElem?
    intro i
    simp only [Array.getElem?_pop, Array.size_pop, Array.getElem?_extract, Nat.sub_zero,
      Nat.zero_add]
    by_cases hi : i < s.slots.size - 2
    · rw [if_pos (by omega), if_pos (by omega), if_pos (by omega)]
    · rw [if_neg (by omega), if_neg (by omega)]
  have : Layout { s with slots := s.slots.pop.pop } _ := h.cut hn htake rfl
  rwa [extract_last_two hh hl, regsOf_two, hreg, Finset.union_self] at this

end Layout

theorem contains_foldl {f : RegSet → Location → RegSet}
    (hf : ∀ u l x, (f u l).contains x = true ↔ u.contains x = true ∧ l.reg ≠ some x)
    (ls : List Location) (u : RegSet) (x : Reg) :
    (ls.foldl f u).contains x = true ↔ u.contains x = true ∧ ∀ l ∈ ls, l.reg ≠ some x := by
  induction ls generalizing u with
  | nil => simp
  | cons l ls ih =>
    rw [List.foldl_cons, ih, hf]
    simp only [List.mem_cons, forall_eq_or_imp]
    constructor
    · rintro ⟨⟨hu, hne⟩, hrest⟩
      exact ⟨hu, hne, hrest⟩
    · rintro ⟨hu, hne, hrest⟩
      exact ⟨⟨hu, hne⟩, hrest⟩

theorem Layout.disjoint_cut (h : Layout s T) (n : Nat) :
    Disjoint T (regsOf (s.slots.extract n s.slots.size)) :=
  Finset.disjoint_left.mpr fun x hx hR => h.temp_free x hx (by
    obtain ⟨k, l, hk, hr⟩ := mem_regsOf.mp hR
    simp only [Array.getElem?_extract, Nat.min_self] at hk
    split at hk
    · exact mem_regsOf.mpr ⟨n + k, l, hk, hr⟩
    · cases hk)

theorem Layout.cut_release (h : Layout s T) {n : Nat} (hn : NotHiAt s.slots n)
    (hs : s'.slots = s.slots.extract 0 n)
    (hu : ∀ x, s'.used.contains x = true ↔
      s.used.contains x = true ∧ x ∉ regsOf (s.slots.extract n s.slots.size)) :
    Layout s' T := by
  have hcut : Layout { s with slots := s.slots.extract 0 n } _ := h.cut hn rfl rfl
  have : Layout s' _ := hcut.erase_regs Finset.subset_union_right hs hu
  rwa [Finset.union_sdiff_cancel_right (h.disjoint_cut n)] at this

theorem Layout.truncate (h : Layout s T) {n : Nat} (hn : NotHiAt s.slots n) :
    Layout (s.truncate n) T := by
  refine h.cut_release hn rfl fun x => ?_
  simp only [ValueStack.truncate]
  rw [← Array.foldl_toList, contains_foldl]
  · simp only [Array.mem_toList_iff, Array.mem_iff_getElem?, mem_regsOf]
    constructor
    · rintro ⟨hu, hne⟩
      refine ⟨hu, ?_⟩
      rintro ⟨k, l, hk, hr⟩
      exact hne l ⟨k, hk⟩ hr
    · rintro ⟨hu, hne⟩
      refine ⟨hu, fun l hl hr => ?_⟩
      obtain ⟨k, hk⟩ := hl
      exact hne ⟨k, l, hk, hr⟩
  · intro u l y
    cases hl : l.reg with
    | none => simp
    | some r =>
      simp only [RegSet.contains_erase, Bool.and_eq_true, Bool.not_eq_true',
        beq_eq_false_iff_ne, ne_eq, Option.some.injEq]
      exact and_congr_right fun _ => ⟨fun h e => h e.symm, fun h e => h e.symm⟩

def modifyValue (xs : Array Location) (i : Nat) (pair : Bool) (f : Location → Location) :
    Array Location :=
  if pair then (xs.modify i f).modify (i + 1) f else xs.modify i f

theorem getElem?_modifyValue {xs : Array Location} {i j : Nat} {pair : Bool}
    {f : Location → Location} :
    (modifyValue xs i pair f)[j]? =
      if j = i ∨ (pair = true ∧ j = i + 1) then xs[j]?.map f else xs[j]? := by
  unfold modifyValue
  cases pair with
  | false =>
    simp only [Bool.false_eq_true, false_and, or_false, if_false, Array.getElem?_modify]
    by_cases hj : j = i
    · rw [if_pos hj.symm, if_pos hj]
    · rw [if_neg (Ne.symm hj), if_neg hj]
  | true =>
    simp only [if_true, true_and, Array.getElem?_modify]
    by_cases hj : j = i
    · subst hj; simp
    · by_cases hj' : j = i + 1
      · subst hj'; simp
      · rw [if_neg (by omega), if_neg (by omega), if_neg (by omega)]

theorem size_modifyValue {xs : Array Location} {i : Nat} {pair : Bool}
    {f : Location → Location} : (modifyValue xs i pair f).size = xs.size := by
  unfold modifyValue
  split <;> simp

theorem Layout.modifyValue (h : Layout s T) {i : Nat} {l : Location}
    (hl : s.slots[i]? = some l) (hhi : l.type ≠ .v128hi) {f : Location → Location}
    {new : Option Reg}
    (hf : ∀ x, (f x).type = x.type ∧ (f x).slot = x.slot ∧ (f x).flag = none ∧ (f x).reg = new)
    (hnew : ∀ r, new = some r → r ∈ T)
    (hs : s'.slots = ValueStack.modifyValue s.slots i (l.type == .v128lo) f)
    (hu : ∀ x, s'.used.contains x = true ↔
      (s.used.contains x = true ∧ l.reg ≠ some x) ∨ new = some x) :
    Layout s' (T \ new.toFinset) := by
  let V : Nat → Prop := fun j => j = i ∨ (l.type = .v128lo ∧ j = i + 1)
  have hget : ∀ j, s'.slots[j]? = if V j then s.slots[j]?.map f else s.slots[j]? := by
    intro j
    rw [hs, getElem?_modifyValue]
    simp only [beq_iff_eq, V]
  have hval : ∀ j, V j → ∃ lj, s.slots[j]? = some lj ∧ lj.reg = l.reg := by
    rintro j (rfl | ⟨hlo, rfl⟩)
    · exact ⟨l, hl, rfl⟩
    · obtain ⟨l', h', -, hr⟩ := h.lo_hi hl hlo
      exact ⟨l', h', hr⟩
  have hown : ∀ j lj r, s.slots[j]? = some lj → lj.reg = some r → l.reg = some r → V j := by
    intro j lj r hj hjr hlr
    rcases Nat.lt_trichotomy i j with hij | rfl | hji
    · obtain ⟨rfl, hlo⟩ := h.unique hij hl hj hlr hjr
      exact .inr ⟨hlo, rfl⟩
    · exact .inl rfl
    · obtain ⟨rfl, hlo⟩ := h.unique hji hj hl hjr hlr
      obtain ⟨l', h', hhi', -⟩ := h.lo_hi hj hlo
      rw [hl] at h'
      cases h'
      exact absurd hhi' hhi
  have hfresh : ∀ r, new = some r → ¬ s.Holds r := fun r hr => h.temp_free r (hnew r hr)
  have hholds : ∀ x, s'.Holds x ↔ (s.Holds x ∧ l.reg ≠ some x) ∨ new = some x := by
    intro x
    simp only [Holds, mem_regsOf]
    constructor
    · rintro ⟨j, lj, hj, hr⟩
      rw [hget j] at hj
      split at hj
      · obtain ⟨l₀, h₀, rfl⟩ := Option.map_eq_some_iff.mp hj
        exact .inr ((hf l₀).2.2.2 ▸ hr)
      · refine .inl ⟨⟨j, lj, hj, hr⟩, fun hlr => ?_⟩
        rename_i hV
        exact hV (hown j lj x hj hr hlr)
    · rintro (⟨⟨j, lj, hj, hr⟩, hne⟩ | hnew')
      · refine ⟨j, lj, ?_, hr⟩
        rw [hget j, if_neg]
        · exact hj
        · intro hV
          obtain ⟨lj', hj', hr'⟩ := hval j hV
          rw [hj] at hj'
          cases hj'
          exact hne (hr' ▸ hr)
      · refine ⟨i, f l, ?_, (hf l).2.2.2.trans hnew'⟩
        rw [hget i, if_pos (.inl rfl), hl]
        rfl
  refine
    { slot_eq := ?_, flagged := ?_, lo_hi := ?_, hi_lo := ?_, unique := ?_,
      used_iff := ?_, temp_free := ?_ }
  · intro k lk hk
    rw [hget k] at hk
    split at hk
    · obtain ⟨l₀, h₀, rfl⟩ := Option.map_eq_some_iff.mp hk
      rw [(hf l₀).2.1]
      exact h.slot_eq h₀
    · exact h.slot_eq hk
  · intro k lk hk hfl
    rw [hget k] at hk
    split at hk
    · obtain ⟨l₀, -, rfl⟩ := Option.map_eq_some_iff.mp hk
      rw [(hf l₀).2.2.1] at hfl
      cases hfl
    · exact h.flagged hk hfl
  · intro k lk hk hlo
    rw [hget k] at hk
    split at hk
    · rename_i hV
      obtain ⟨l₀, h₀, rfl⟩ := Option.map_eq_some_iff.mp hk
      rw [(hf l₀).1] at hlo
      have hk : k = i := by
        rcases hV with hk | ⟨hl0, rfl⟩
        · exact hk
        · obtain ⟨l', h', hhi', -⟩ := h.lo_hi hl hl0
          rw [h₀] at h'
          cases h'
          rw [hlo] at hhi'
          cases hhi'
      subst hk
      rw [hl] at h₀
      cases h₀
      obtain ⟨l', h', hhi', -⟩ := h.lo_hi hl hlo
      refine ⟨f l', ?_, (hf l').1.trans hhi', (hf l').2.2.2.trans (hf l).2.2.2.symm⟩
      rw [hget (k + 1), if_pos (.inr ⟨hlo, rfl⟩), h']
      rfl
    · rename_i hV
      obtain ⟨l', h', hhi', hr⟩ := h.lo_hi hk hlo
      refine ⟨l', ?_, hhi', hr⟩
      rw [hget (k + 1), if_neg]
      · exact h'
      rintro (e | ⟨-, e⟩)
      · rw [e, hl] at h'
        cases h'
        exact hhi hhi'
      · exact hV (.inl (by omega))
  · intro k lk hk hhi'
    rw [hget k] at hk
    split at hk
    · rename_i hV
      obtain ⟨l₀, h₀, rfl⟩ := Option.map_eq_some_iff.mp hk
      rw [(hf l₀).1] at hhi'
      rcases hV with rfl | ⟨hlo, rfl⟩
      · rw [hl] at h₀
        cases h₀
        exact absurd hhi' hhi
      · refine ⟨i, f l, rfl, ?_, (hf l).1.trans hlo⟩
        rw [hget i, if_pos (.inl rfl), hl]
        rfl
    · rename_i hV
      obtain ⟨m, lm, rfl, hm, hlo⟩ := h.hi_lo hk hhi'
      refine ⟨m, lm, rfl, ?_, hlo⟩
      rw [hget m, if_neg]
      · exact hm
      rintro (rfl | ⟨hl0, rfl⟩)
      · rw [hl] at hm
        cases hm
        exact hV (.inr ⟨hlo, rfl⟩)
      · obtain ⟨l', h', hhi'', -⟩ := h.lo_hi hl hl0
        rw [hm] at h'
        cases h'
        rw [hlo] at hhi''
        cases hhi''
  · intro j₁ j₂ a b x hj hj₁ hj₂ ha hb
    rw [hget j₁] at hj₁
    rw [hget j₂] at hj₂
    split at hj₁ <;> split at hj₂
    · rename_i hV₁ hV₂
      obtain ⟨a₀, ha₀, rfl⟩ := Option.map_eq_some_iff.mp hj₁
      have hj₁i : j₁ = i := by
        rcases hV₁ with e | ⟨-, e⟩
        · exact e
        · rcases hV₂ with e' | ⟨-, e'⟩ <;> omega
      have hlo : l.type = .v128lo := by
        rcases hV₂ with e' | ⟨hlo, -⟩
        · omega
        · exact hlo
      subst hj₁i
      rw [hl] at ha₀
      cases ha₀
      rcases hV₂ with e' | ⟨-, e'⟩
      · omega
      · exact ⟨e', (hf l).1.trans hlo⟩
    · obtain ⟨a₀, -, rfl⟩ := Option.map_eq_some_iff.mp hj₁
      exact absurd (mem_regsOf.mpr ⟨j₂, b, hj₂, hb⟩) (hfresh x ((hf a₀).2.2.2.symm.trans ha))
    · obtain ⟨b₀, -, rfl⟩ := Option.map_eq_some_iff.mp hj₂
      exact absurd (mem_regsOf.mpr ⟨j₁, a, hj₁, ha⟩) (hfresh x ((hf b₀).2.2.2.symm.trans hb))
    · exact h.unique hj hj₁ hj₂ ha hb
  · intro x
    have hTl : x ∈ T → l.reg ≠ some x := fun hx hlx =>
      h.temp_free x hx (mem_regsOf.mpr ⟨i, l, hl, hlx⟩)
    rw [hu, h.used_iff, hholds, Finset.mem_sdiff, Option.mem_toFinset, Option.mem_def]
    constructor
    · rintro (⟨hh | hx, hne⟩ | hn)
      · exact .inl (.inl ⟨hh, hne⟩)
      · by_cases hn : new = some x
        · exact .inl (.inr hn)
        · exact .inr ⟨hx, hn⟩
      · exact .inl (.inr hn)
    · rintro ((⟨hh, hne⟩ | hn) | ⟨hx, -⟩)
      · exact .inl ⟨.inl hh, hne⟩
      · exact .inr hn
      · exact .inl ⟨.inr hx, hTl hx⟩
  · intro x hx hh
    rw [Finset.mem_sdiff, Option.mem_toFinset, Option.mem_def] at hx
    rcases (hholds x).mp hh with ⟨hh, -⟩ | hn
    · exact h.temp_free x hx.1 hh
    · exact hx.2 hn

end OnePassJit.ValueStack

namespace OnePassJit.StackM

open ValueStack

variable {s s' : ValueStack} {T : Finset Reg}

theorem get_ok {i : Nat} {l : Location} (h : StackM.get i s = .ok l s') :
    s.slots[i]? = some l ∧ s' = s := by
  simp only [StackM.get, locAt] at h
  split at h <;> rename_i hl
  · split at hl
    · rename_i l' hl'
      cases hl
      cases h
      exact ⟨hl', rfl⟩
    · cases hl
  · cases h

theorem pop_ok {l : Location} (h : StackM.pop s = .ok l s') :
    s.slots.back? = some l ∧ s' = { s with slots := s.slots.pop } := by
  simp only [StackM.pop] at h
  split at h
  · rename_i l' hl
    cases h
    exact ⟨hl, rfl⟩
  · cases h

theorem peek_ok {l : Location} (h : StackM.peek s = .ok l s') : s.slots.back? = some l ∧ s' = s := by
  simp only [StackM.peek] at h
  split at h
  · rename_i l' hl
    cases h
    exact ⟨hl, rfl⟩
  · cases h

theorem popV128_ok {l : Location} (h : StackM.popV128 s = .ok l s') :
    ∃ hi, s.slots.back? = some hi ∧ s.slots.pop.back? = some l ∧ hi.type = .v128hi ∧
      l.type = .v128lo ∧ s' = { s with slots := s.slots.pop.pop } := by
  simp only [StackM.popV128, bind, EStateM.bind] at h
  split at h
  · rename_i hi s₁ h₁
    obtain ⟨hh, rfl⟩ := pop_ok h₁
    split at h
    · rename_i lo s₂ h₂
      obtain ⟨hl, rfl⟩ := pop_ok h₂
      split at h
      · cases h
      · rename_i hty
        simp only [Bool.or_eq_true, bne_iff_ne, ne_eq, not_or, Decidable.not_not] at hty
        cases h
        exact ⟨hi, hh, hl, hty.1, hty.2, rfl⟩
    · cases h
  · cases h

theorem markOnStack_eq {i : Nat} {l : Location} (hl : s.slots[i]? = some l)
    (hpair : l.type = .v128lo → i + 1 < s.sp) :
    StackM.markOnStack i s = .ok () { s with
      slots := modifyValue s.slots i (l.type == .v128lo) Location.setOnStack,
      used := l.reg.elim s.used s.used.erase } := by
  have hi : i < s.sp := Block.lt_size hl
  simp only [StackM.markOnStack, StackM.get, StackM.modifyAt, StackM.markUnused, bind,
    EStateM.bind, locAt, modify, modifyGet, MonadState.modifyGet, hl, hi, if_true]
  by_cases ht : l.type = .v128lo
  · have h1 : i + 1 < s.slots.size := hpair ht
    simp [ht, h1, ValueStack.sp, modifyValue, StackM.modifyAt, EStateM.bind]
    cases l.reg <;> rfl
  · simp [ht, modifyValue]
    cases l.reg <;> rfl

theorem setRegister_eq {i : Nat} {r : Reg} {l : Location} (hl : s.slots[i]? = some l)
    (hpair : l.type = .v128lo → i + 1 < s.sp) :
    StackM.setRegister i r s = .ok () { s with
      slots := modifyValue s.slots i (l.type == .v128lo) (·.setRegister r),
      used := s.used.insert r } := by
  have hi : i < s.sp := Block.lt_size hl
  simp only [StackM.setRegister, StackM.get, StackM.modifyAt, StackM.markUsed, bind,
    EStateM.bind, locAt, modify, modifyGet, MonadState.modifyGet, hl, hi, if_true]
  by_cases ht : l.type = .v128lo
  · have h1 : i + 1 < s.slots.size := hpair ht
    simp [ht, h1, ValueStack.sp, modifyValue, StackM.modifyAt, EStateM.bind]
    rfl
  · simp [ht, modifyValue]
    rfl

end OnePassJit.StackM

namespace OnePassJit.ValueStack.Layout

variable {s : ValueStack} {T : Finset Reg}

theorem pair_lt (h : Layout s T) {i : Nat} {l : Location} (hl : s.slots[i]? = some l) :
    l.type = .v128lo → i + 1 < s.sp := fun hlo => by
  obtain ⟨l', h', -⟩ := h.lo_hi hl hlo
  exact Block.lt_size h'

theorem markOnStack (h : Layout s T) {i : Nat} {l : Location} {r : Reg}
    (hl : s.slots[i]? = some l) (hr : l.reg = some r) (hhi : l.type ≠ .v128hi) :
    Layout { s with
      slots := ValueStack.modifyValue s.slots i (l.type == .v128lo) Location.setOnStack,
      used := l.reg.elim s.used s.used.erase } T := by
  have : Layout { s with
      slots := ValueStack.modifyValue s.slots i (l.type == .v128lo) Location.setOnStack,
      used := l.reg.elim s.used s.used.erase } (T \ (none : Option Reg).toFinset) :=
    h.modifyValue (f := Location.setOnStack) hl hhi (fun x => ⟨rfl, rfl, rfl, rfl⟩) (by simp) rfl (by
    intro x
    rw [hr]
    show (s.used.erase r).contains x = true ↔ _
    rw [RegSet.contains_erase]
    by_cases hx : x = r
    · subst hx; simp
    · simp [hx, Ne.symm hx])
  simpa using this

theorem setRegister (h : Layout s T) {i : Nat} {l : Location} {r : Reg}
    (hl : s.slots[i]? = some l) (hnone : l.reg = none) (hhi : l.type ≠ .v128hi) (hr : r ∈ T) :
    Layout { s with
      slots := ValueStack.modifyValue s.slots i (l.type == .v128lo) (·.setRegister r),
      used := s.used.insert r } (T.erase r) := by
  have hc : s.used.contains r = true := (h.used_iff r).mpr (.inr hr)
  have : Layout { s with
      slots := ValueStack.modifyValue s.slots i (l.type == .v128lo) (·.setRegister r),
      used := s.used.insert r } (T \ (some r).toFinset) :=
    h.modifyValue (f := (·.setRegister r)) hl hhi (fun x => ⟨rfl, rfl, rfl, rfl⟩)
    (fun r' e => by cases e; exact hr) rfl (by
      intro x
      rw [hnone, RegSet.contains_insert]
      by_cases hx : x = r
      · subst hx; simp [hc]
      · simp [hx, Ne.symm hx])
  simpa [Finset.sdiff_singleton_eq_erase] using this

theorem reassign (h : Layout s T) {i : Nat} {l : Location} {old r : Reg}
    (hl : s.slots[i]? = some l) (hold : l.reg = some old) (hhi : l.type ≠ .v128hi)
    (hr : r ∈ T) :
    Layout { s with
      slots := ValueStack.modifyValue s.slots i (l.type == .v128lo) (·.setRegister r),
      used := (s.used.erase old).insert r } (T.erase r) := by
  have hc : s.used.contains r = true := (h.used_iff r).mpr (.inr hr)
  have hne : r ≠ old := fun e => h.temp_free r hr (mem_regsOf.mpr ⟨i, l, hl, by rw [hold, e]⟩)
  have : Layout { s with
      slots := ValueStack.modifyValue s.slots i (l.type == .v128lo) (·.setRegister r),
      used := (s.used.erase old).insert r } (T \ (some r).toFinset) :=
    h.modifyValue (f := (·.setRegister r)) hl hhi (fun x => ⟨rfl, rfl, rfl, rfl⟩)
    (fun r' e => by cases e; exact hr) rfl (by
      intro x
      rw [hold, RegSet.contains_insert, RegSet.contains_erase]
      by_cases hx : x = r
      · subst hx; simp [hc, hne]
      · by_cases hxo : x = old
        · subst hxo; simp [hx, Ne.symm hx]
        · simp [hx, Ne.symm hx, hxo, Ne.symm hxo])
  simpa [Finset.sdiff_singleton_eq_erase] using this

end OnePassJit.ValueStack.Layout
