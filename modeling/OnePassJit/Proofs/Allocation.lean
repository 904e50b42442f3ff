import OnePassJit.Proofs.Frames

/-!
What the allocator finds, and why it always finds something.

`takeFree` answers the first register of the pool that is neither used nor excluded, and
`stealTarget` the bottom-most value holding a register of the wanted class outside the
exclusion. Under the layout a used register that is not a temporary is held by a live
value, and a low half holds what its high half does, so the two searches fail together
only when every pool register of the class is a temporary or excluded
(`Layout.stealTarget_ne_none`).
-/

namespace OnePassJit.ValueStack

variable {s : ValueStack} {T : Finset Reg} {kind : RegKind} {excl : RegSet}

theorem takeFree_some {r : Reg} (h : s.takeFree kind excl = some r) :
    r ∈ s.pool kind ∧ s.used.contains r = false ∧ excl.contains r = false := by
  unfold takeFree at h
  have hp := List.find?_some h
  simp only [Bool.and_eq_true, Bool.not_eq_true'] at hp
  exact ⟨List.mem_of_find?_eq_some h, hp.1, hp.2⟩

theorem takeFree_none (h : s.takeFree kind excl = none) :
    ∀ r ∈ s.pool kind, s.used.contains r = true ∨ excl.contains r = true := by
  unfold takeFree at h
  intro r hr
  have := List.find?_eq_none.mp h r hr
  cases hu : s.used.contains r <;> cases he : excl.contains r <;> simp_all

theorem stealTarget_some {v : Nat} (h : s.stealTarget kind excl = some v) :
    ∃ l r, s.slots[v]? = some l ∧ l.type ≠ .v128hi ∧ l.reg = some r ∧ r.kind = kind ∧
      excl.contains r = false := by
  unfold stealTarget at h
  obtain ⟨hv, hp, -⟩ := Array.findIdx?_eq_some_iff_getElem.mp h
  generalize hl : s.slots[v] = l at hp
  cases hr : l.reg with
  | none => simp [hr] at hp
  | some r =>
    simp only [hr, Bool.and_eq_true, bne_iff_ne, ne_eq, beq_iff_eq, Bool.not_eq_true'] at hp
    exact ⟨l, r, by rw [← hl]; simp, hp.1, hr, hp.2.1, hp.2.2⟩

theorem stealTarget_none (h : s.stealTarget kind excl = none) {v : Nat} {l : Location} {r : Reg}
    (hl : s.slots[v]? = some l) (hhi : l.type ≠ .v128hi) (hr : l.reg = some r)
    (hk : r.kind = kind) : excl.contains r = true := by
  unfold stealTarget at h
  have := Array.findIdx?_eq_none_iff.mp h l (Array.mem_iff_getElem?.mpr ⟨v, hl⟩)
  simp only [hr, Bool.and_eq_false_iff, bne_eq_false_iff_eq, hk, beq_self_eq_true,
    Bool.true_and, Bool.not_eq_false'] at this
  rcases this with h' | h'
  · exact absurd h' hhi
  · exact h'

theorem registerOwner_some {r : Reg} {i : Nat} (h : s.registerOwner r = some i) :
    ∃ l, s.slots[i]? = some l ∧ l.reg = some r ∧ l.type ≠ .v128hi := by
  unfold registerOwner at h
  obtain ⟨hi, hp, -⟩ := Array.findIdx?_eq_some_iff_getElem.mp h
  simp only [Bool.and_eq_true, beq_iff_eq, bne_iff_ne, ne_eq] at hp
  exact ⟨s.slots[i], by simp, hp.1, hp.2⟩

theorem Layout.holder_of_holds (h : Layout s T) {r : Reg} (hh : s.Holds r) :
    ∃ (k : Nat) (l : Location), s.slots[k]? = some l ∧ l.reg = some r ∧ l.type ≠ .v128hi := by
  obtain ⟨j, l, hj, hr⟩ := mem_regsOf.mp hh
  by_cases hhi : l.type = .v128hi
  · obtain ⟨k, l', rfl, hk, hlo⟩ := h.hi_lo hj hhi
    obtain ⟨l'', h'', -, hr''⟩ := h.lo_hi hk hlo
    rw [hj] at h''
    cases h''
    exact ⟨k, l', hk, hr''.symm.trans hr, by rw [hlo]; decide⟩
  · exact ⟨j, l, hj, hr, hhi⟩

theorem Layout.not_holds_of_registerOwner (h : Layout s T) {r : Reg}
    (hnone : s.registerOwner r = none) : ¬ s.Holds r := by
  intro hh
  obtain ⟨k, l, hk, hr, hhi⟩ := h.holder_of_holds hh
  unfold registerOwner at hnone
  have := Array.findIdx?_eq_none_iff.mp hnone l (Array.mem_iff_getElem?.mpr ⟨k, hk⟩)
  simp [hr, hhi] at this

/-- The allocator finds a register whenever the pool has one of the class that is neither a
temporary nor excluded: it is free, or some value holding one can be spilled. -/
theorem Layout.stealTarget_ne_none (h : Layout s T)
    (hroom : ∃ r ∈ s.pool kind, r.kind = kind ∧ r ∉ T ∧ excl.contains r = false)
    (hfree : s.takeFree kind excl = none) : s.stealTarget kind excl ≠ none := by
  obtain ⟨r, hr, hk, hT, he⟩ := hroom
  intro hnone
  rcases takeFree_none hfree r hr with hu | he'
  · have hh : s.Holds r := ((h.used_iff r).mp hu).resolve_right hT
    obtain ⟨k, l, hl, hlr, hhi⟩ := h.holder_of_holds hh
    rw [stealTarget_none hnone hl hhi hlr hk] at he
    cases he
  · rw [he'] at he
    cases he

theorem room_of_card {pool : List Reg} (hnd : pool.Nodup) (hk : ∀ r ∈ pool, r.kind = kind)
    {E : Finset Reg} (hE : ∀ r, excl.contains r = true → r ∈ E)
    (hcard : T.card + E.card < pool.length) :
    ∃ r ∈ pool, r.kind = kind ∧ r ∉ T ∧ excl.contains r = false := by
  have hlt : (T ∪ E).card < pool.toFinset.card := by
    rw [List.toFinset_card_of_nodup hnd]
    exact lt_of_le_of_lt (Finset.card_union_le T E) hcard
  obtain ⟨r, hr, hnot⟩ := Finset.exists_mem_notMem_of_card_lt_card hlt
  rw [List.mem_toFinset] at hr
  rw [Finset.mem_union, not_or] at hnot
  refine ⟨r, hr, hk r hr, hnot.1, ?_⟩
  cases he : excl.contains r
  · rfl
  · exact absurd (hE r he) hnot.2

theorem card_pair_lt (r₁ r₂ : Reg) {n : Nat} (hn : 2 + n < 9) :
    ({r₁, r₂} : Finset Reg).card + n < 9 := by
  have := Finset.card_le_two (a := r₁) (b := r₂)
  omega

end OnePassJit.ValueStack
