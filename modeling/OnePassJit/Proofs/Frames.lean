import OnePassJit.Proofs.StackOps

/-!
Compaction, function entry and call frames keep the layout.

A drop range cuts the stack twice: the live values above the range are cut off first and
become temporaries, the dropped slots are then truncated away, and the live values are
appended again at their new indices. Entry and call frames push values in memory only.
Each lemma asks what a well-stacked body guarantees: the bounds of a drop range split no
vector.
-/

namespace OnePassJit.ValueStack

variable {s s' : ValueStack} {T : Finset Reg}

def renumber (b : Nat) (xs : Array Location) : Array Location :=
  xs.mapIdx fun k l => { l with slot := b + k }

theorem getElem?_renumber {b k : Nat} {xs : Array Location} :
    (renumber b xs)[k]? = xs[k]?.map fun l => { l with slot := b + k } := by
  simp [renumber, Array.getElem?_mapIdx]

theorem regsOf_renumber (b : Nat) (xs : Array Location) : regsOf (renumber b xs) = regsOf xs := by
  ext r
  simp only [mem_regsOf, getElem?_renumber]
  constructor
  · rintro ⟨k, l, hk, hr⟩
    obtain ⟨l₀, h₀, rfl⟩ := Option.map_eq_some_iff.mp hk
    exact ⟨k, l₀, h₀, hr⟩
  · rintro ⟨k, l, hk, hr⟩
    exact ⟨k, { l with slot := b + k }, by rw [hk]; rfl, hr⟩

theorem renumber_cons (b : Nat) (l : Location) (ls : List Location) :
    renumber b (l :: ls).toArray = #[{ l with slot := b }] ++ renumber (b + 1) ls.toArray := by
  apply Array.ext_getElem?
  intro k
  rw [getElem?_renumber, Array.getElem?_append]
  match k with
  | 0 => simp
  | k + 1 =>
    simp only [List.getElem?_toArray, List.getElem?_cons_succ, List.size_toArray,
      List.length_singleton, Nat.add_lt_iff_lt_sub_right, Nat.sub_self, Nat.not_lt_zero,
      if_false, Nat.add_sub_cancel, getElem?_renumber]
    congr
    funext l'
    congr 1
    omega

theorem Block.renumber {xs : Array Location} {b : Nat} (hb : Block xs b) (b' : Nat) :
    Block (ValueStack.renumber b' xs) b' where
  slot_eq := by
    intro k l h
    rw [getElem?_renumber] at h
    obtain ⟨l₀, -, rfl⟩ := Option.map_eq_some_iff.mp h
    rfl
  flagged := by
    intro k l h
    rw [getElem?_renumber] at h
    obtain ⟨l₀, h₀, rfl⟩ := Option.map_eq_some_iff.mp h
    have := hb.flagged h₀
    exact this
  lo_hi := by
    intro k l h hlo
    rw [getElem?_renumber] at h
    obtain ⟨l₀, h₀, rfl⟩ := Option.map_eq_some_iff.mp h
    obtain ⟨l', h', hhi, hr⟩ := hb.lo_hi h₀ hlo
    exact ⟨{ l' with slot := b' + (k + 1) }, by rw [getElem?_renumber, h']; rfl, hhi, hr⟩
  hi_lo := by
    intro k l h hhi
    rw [getElem?_renumber] at h
    obtain ⟨l₀, h₀, rfl⟩ := Option.map_eq_some_iff.mp h
    obtain ⟨i, l', rfl, h', hlo⟩ := hb.hi_lo h₀ hhi
    exact ⟨i, { l' with slot := b' + i }, rfl, by rw [getElem?_renumber, h']; rfl, hlo⟩
  unique := by
    intro i j l₁ l₂ r hij h₁ h₂ hr₁ hr₂
    rw [getElem?_renumber] at h₁ h₂
    obtain ⟨a, ha, rfl⟩ := Option.map_eq_some_iff.mp h₁
    obtain ⟨c, hc, rfl⟩ := Option.map_eq_some_iff.mp h₂
    have := hb.unique hij ha hc hr₁ hr₂
    exact this

theorem foldl_push {β : Type}
    {F : β × ValueStack → Location → β × ValueStack}
    (hF : ∀ acc l, ∃ u, (F acc l).2 = { acc.2 with
        slots := acc.2.slots.push { l with slot := acc.2.sp }, used := u } ∧
      ∀ x, u.contains x = true ↔
        acc.2.used.contains x = true ∨ (l.reg = some x ∧ RegSet.storable x = true))
    (ls : List Location) (acc : β × ValueStack) :
    ∃ u, (ls.foldl F acc).2 = { acc.2 with
        slots := acc.2.slots ++ renumber acc.2.slots.size ls.toArray, used := u } ∧
      ∀ x, u.contains x = true ↔ acc.2.used.contains x = true ∨
        ∃ l ∈ ls, l.reg = some x ∧ RegSet.storable x = true := by
  induction ls generalizing acc with
  | nil => exact ⟨acc.2.used, by simp [renumber], fun x => by simp⟩
  | cons l ls ih =>
    obtain ⟨u₁, h₁, hu₁⟩ := hF acc l
    obtain ⟨u, h, hu⟩ := ih (F acc l)
    refine ⟨u, ?_, fun x => ?_⟩
    · rw [List.foldl_cons, h, h₁]
      simp [renumber_cons, ValueStack.sp]
    · rw [hu, show (F acc l).2.used = u₁ by rw [h₁], hu₁]
      simp only [List.mem_cons, exists_eq_or_imp]
      constructor
      · rintro ((hx | hx) | hx)
        · exact .inl hx
        · exact .inr (.inl hx)
        · exact .inr (.inr hx)
      · rintro (hx | hx | hx)
        · exact .inl (.inl hx)
        · exact .inl (.inr hx)
        · exact .inr hx

end OnePassJit.ValueStack

namespace OnePassJit.StackM

open ValueStack

variable {s s' : ValueStack} {T : Finset Reg}

theorem dropRange_ok {r : DropRange} {m : List SlotMove} (h : StackM.dropRange r s = .ok m s') :
    r.start ≤ r.stop ∧ r.stop.toNat < s.sp ∧
    ∃ u, s' = { (({ s with slots := s.slots.extract 0 (s.sp - r.start.toNat) } : ValueStack).truncate
          (s.sp - 1 - r.stop.toNat)) with
        slots := (s.slots.extract 0 (s.sp - r.start.toNat)).extract 0 (s.sp - 1 - r.stop.toNat) ++
          renumber (s.sp - 1 - r.stop.toNat) (s.slots.extract (s.sp - r.start.toNat) s.sp)
        used := u } ∧
      ∀ x, u.contains x = true ↔
        (({ s with slots := s.slots.extract 0 (s.sp - r.start.toNat) } : ValueStack).truncate
          (s.sp - 1 - r.stop.toNat)).used.contains x = true ∨
        ∃ l ∈ (s.slots.extract (s.sp - r.start.toNat) s.sp).toList,
          l.reg = some x ∧ RegSet.storable x = true := by
  simp only [StackM.dropRange] at h
  split at h
  · cases h
  · rename_i hr
    simp only [Bool.or_eq_true, decide_eq_true_eq, not_or, not_le] at hr
    have hle : r.start ≤ r.stop := UInt32.not_lt.mp hr.1
    have hle' : r.start.toNat ≤ r.stop.toNat := UInt32.le_iff_toNat_le.mp hle
    refine ⟨hle, hr.2, ?_⟩
    cases h
    refine (foldl_push (fun acc l => ?_) (s.slots.extract (s.sp - r.start.toNat) s.sp).toList
      ([], ({ s with slots := s.slots.extract 0 (s.sp - r.start.toNat) } : ValueStack).truncate
        (s.sp - 1 - r.stop.toNat))).imp fun u hu => ⟨hu.1.trans ?_, hu.2⟩
    · refine ⟨_, rfl, fun x => ?_⟩
      cases hl : l.reg with
      | none => simp
      | some r =>
        simp only [RegSet.contains_insert, Bool.or_eq_true, Bool.and_eq_true, beq_iff_eq,
          Option.some.injEq]
        constructor
        · rintro (⟨rfl, hst⟩ | hx)
          · exact .inr ⟨rfl, hst⟩
          · exact .inl hx
        · rintro (hx | ⟨rfl, hst⟩)
          · exact .inr hx
          · exact .inl ⟨rfl, hst⟩
    · simp only [ValueStack.truncate]
      congr 2
      simp only [Array.size_extract, ValueStack.sp] at hr ⊢
      congr 1
      omega

end OnePassJit.StackM

namespace OnePassJit.ValueStack.Layout

variable {s s' : ValueStack} {T : Finset Reg}

theorem dropRange (h : Layout s T) {r : DropRange} {m : List SlotMove}
    (hok : StackM.dropRange r s = .ok m s')
    (hlive : NotHiAt s.slots (s.sp - r.start.toNat))
    (hdrop : NotHiAt s.slots (s.sp - 1 - r.stop.toNat)) : Layout s' T := by
  obtain ⟨hle, hlt, u, rfl, hu⟩ := StackM.dropRange_ok hok
  have hle' : r.start.toNat ≤ r.stop.toNat := UInt32.le_iff_toNat_le.mp hle
  simp only [sp] at hlt hlive hdrop hu ⊢
  let n := s.slots.size - r.start.toNat
  let d := s.slots.size - 1 - r.stop.toNat
  let s₁ : ValueStack := { s with slots := s.slots.extract 0 n }
  have h₁ : Layout s₁ _ := h.cut hlive rfl rfl
  have hd₁ : NotHiAt s₁.slots d := by
    intro l hl
    simp only [s₁, Array.getElem?_extract, Nat.sub_zero, Nat.zero_add] at hl
    split at hl
    · exact hdrop l hl
    · cases hl
  have h₂ := h₁.truncate hd₁
  have hsz : (s₁.truncate d).slots.size = d := by
    simp only [s₁, ValueStack.truncate, Array.size_extract]
    omega
  let R := regsOf (s.slots.extract n s.slots.size)
  have hb : Block (renumber d (s.slots.extract n s.slots.size)) (s₁.truncate d).slots.size := by
    rw [hsz]
    exact (h.toBlock.drop hlive).renumber d
  have h₃ : Layout { s₁.truncate d with
      slots := (s.slots.extract 0 n).extract 0 d ++ renumber d (s.slots.extract n s.slots.size)
      used := u } _ := h₂.append hb
    (by rw [regsOf_renumber]; exact Finset.subset_union_right) rfl (by
      intro x
      rw [Bool.eq_iff_iff, hu]
      constructor
      · rintro (hx | ⟨l, hl, hr, -⟩)
        · exact hx
        · rw [Array.mem_toList_iff, Array.mem_iff_getElem?] at hl
          obtain ⟨k, hk⟩ := hl
          exact (h₂.used_iff x).mpr (.inr (Finset.mem_union_right _ (mem_regsOf.mpr ⟨k, l, hk, hr⟩)))
      · exact .inl)
  rwa [regsOf_renumber, Finset.union_sdiff_cancel_right (h.disjoint_cut n)] at h₃

end OnePassJit.ValueStack.Layout

namespace OnePassJit.StackM

open ValueStack

def Keeps {α : Type} (P : ValueStack → Prop) (m : StackM α) : Prop :=
  ∀ s a s', P s → m s = .ok a s' → P s'

namespace Keeps

variable {P : ValueStack → Prop} {α β : Type}

theorem pure_ (a : α) : Keeps P (pure a : StackM α) := by
  intro s b s' hs h
  cases h
  exact hs

theorem bind_ {m : StackM α} {f : α → StackM β} (hm : Keeps P m) (hf : ∀ a, Keeps P (f a)) :
    Keeps P (m >>= f) := by
  intro s b s' hs h
  simp only [bind, EStateM.bind] at h
  split at h
  · rename_i a s₁ h₁
    exact hf a s₁ b s' (hm s a s₁ hs h₁) h
  · cases h

theorem forIn_list {γ : Type} (xs : List γ) (b : β) {f : γ → β → StackM (ForInStep β)}
    (hf : ∀ x b, Keeps P (f x b)) : Keeps P (forIn xs b f) := by
  induction xs generalizing b with
  | nil => exact pure_ b
  | cons x xs ih =>
    rw [List.forIn_cons]
    refine bind_ (hf x b) fun r => ?_
    cases r with
    | done b' => exact pure_ b'
    | yield b' => exact ih b'

theorem forIn_range (r : Std.Legacy.Range) (b : β) {f : Nat → β → StackM (ForInStep β)}
    (hf : ∀ x b, Keeps P (f x b)) : Keeps P (forIn r b f) := by
  rw [Std.Legacy.Range.forIn_eq_forIn_range']
  exact forIn_list _ b hf

end Keeps

variable {T : Finset Reg} {g v : List Reg}

def Laid (T : Finset Reg) (g v : List Reg) (s : ValueStack) : Prop :=
  Layout s T ∧ s.gpPool = g ∧ s.vecPool = v

theorem keeps_pushOnStack {t : SlotType} (hlo : t ≠ .v128lo) (hhi : t ≠ .v128hi) :
    Keeps (Laid T g v) (pushOnStack t) := by
  rintro s a s' ⟨h, hg, hv⟩ hok
  cases hok
  have : Layout (s.pushLoc t none none) (T \ (none : Option Reg).toFinset) :=
    h.pushLoc (by simp) (by simp) hlo hhi
  exact ⟨by simpa using this, hg, hv⟩

theorem keeps_pushV128OnStack : Keeps (Laid T g v) pushV128OnStack := by
  rintro s a s' ⟨h, hg, hv⟩ hok
  cases hok
  have : Layout ((s.pushLoc .v128lo none none).pushLoc .v128hi none none)
      (T \ (none : Option Reg).toFinset) := h.pushPair (by simp)
  exact ⟨by simpa using this, hg, hv⟩

theorem keeps_pushValue (t : ValueType) : Keeps (Laid T g v) (pushValue t) := by
  cases t with
  | v128 => exact keeps_pushV128OnStack
  | i32 | i64 | f32 | f64 | funcref | externref =>
    exact keeps_pushOnStack (by decide) (by decide)

theorem Keeps.init {P : ValueStack → Prop} {sig : Signature} {s s' : ValueStack}
    (hok : StackM.init sig s = .ok () s') (hempty : P { s with slots := #[], used := {} })
    (hv : ∀ t, Keeps P (pushValue t)) (hn : Keeps P (pushOnStack .none))
    (hi : Keeps P (pushOnStack .i64)) : P s' := by
  have hloops : Keeps P (do
      for t in sig.params do
        let _ ← pushValue t
      for _ in [sig.paramSlots:sig.resultSlots] do
        let _ ← pushOnStack .none
      for _ in [0:frameSlotCount] do
        let _ ← pushOnStack .i64 : StackM Unit) :=
    Keeps.bind_ (Keeps.forIn_list _ _ fun t _ => Keeps.bind_ (hv t) fun _ => Keeps.pure_ _)
      fun _ => Keeps.bind_ (Keeps.forIn_range _ _ fun _ _ => Keeps.bind_ hn fun _ =>
        Keeps.pure_ _) fun _ => Keeps.bind_ (Keeps.forIn_range _ _ fun _ _ => Keeps.bind_ hi
          fun _ => Keeps.pure_ _) fun _ => Keeps.pure_ _
  exact hloops _ _ _ hempty hok

theorem Keeps.pushCallFrame {P : ValueStack → Prop} (callee : Signature)
    (hn : Keeps P (pushOnStack .none)) (hi : Keeps P (pushOnStack .i64)) :
    Keeps P (pushCallFrame callee) :=
  Keeps.bind_ (Keeps.forIn_range _ _ fun _ _ => Keeps.bind_ hn fun _ => Keeps.pure_ _) fun _ =>
    Keeps.bind_ (fun s a s' hs h => by cases h; exact hs) fun _ =>
      Keeps.bind_ (Keeps.forIn_range _ _ fun _ _ => Keeps.bind_ hi fun _ => Keeps.pure_ _)
        fun _ => Keeps.pure_ _

theorem init_laid {sig : Signature} {s s' : ValueStack} (hok : StackM.init sig s = .ok () s')
    (hg : s.gpPool = g) (hv : s.vecPool = v) : Laid ∅ g v s' := by
  have hempty : Laid ∅ g v { s with slots := #[], used := {} } := by
    refine ⟨⟨Block.empty 0, fun r => ?_, fun r hr => absurd hr (Finset.notMem_empty r)⟩, hg, hv⟩
    simp [Holds, mem_regsOf]
  exact Keeps.init hok hempty keeps_pushValue (keeps_pushOnStack (by decide) (by decide))
    (keeps_pushOnStack (by decide) (by decide))

theorem keeps_pushCallFrame (callee : Signature) : Keeps (Laid T g v) (pushCallFrame callee) :=
  Keeps.pushCallFrame callee (keeps_pushOnStack (by decide) (by decide))
    (keeps_pushOnStack (by decide) (by decide))

theorem keeps_cut_pushOnStack {n : Nat} {t : SlotType} (ht : t ≠ .v128hi) :
    Keeps (fun s => NotHiAt s.slots n ∧ n ≤ s.sp) (pushOnStack t) := by
  rintro s a s' ⟨hn, hle⟩ hok
  cases hok
  refine ⟨fun l hl => ?_, by rw [sp_pushLoc]; omega⟩
  rw [slots_pushLoc, Array.getElem?_append] at hl
  split at hl
  · exact hn l hl
  · rw [Array.getElem?_singleton] at hl
    split at hl
    · cases hl
      exact ht
    · cases hl

theorem keeps_cut_pushCallFrame (callee : Signature) (n : Nat) :
    Keeps (fun s => NotHiAt s.slots n ∧ n ≤ s.sp) (pushCallFrame callee) :=
  Keeps.pushCallFrame callee (keeps_cut_pushOnStack (by decide))
    (keeps_cut_pushOnStack (by decide))

theorem Keeps.and {α : Type} {P P' : ValueStack → Prop} {m : StackM α} (h : Keeps P m)
    (h' : Keeps P' m) : Keeps (fun s => P s ∧ P' s) m :=
  fun s a s' hs hm => ⟨h s a s' hs.1 hm, h' s a s' hs.2 hm⟩

end OnePassJit.StackM
