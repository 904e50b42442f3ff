import OnePassJit.Proofs.Engine.TableGrowth

/-!
Engine-wide type ids.

The engine numbers signatures as it first sees them (`typeId`): the ids of a sequence of
signatures are their places among its distinct signatures in order of first appearance
(`internTypes_nil`), so two ids are equal exactly when the signatures are
(`internedId_inj`). One registry serves every module of an engine: interning into the
registry some signatures left numbers the next ones as one sequence would
(`internTypes_eraseDups`). An instance keeps the ids of its module's types in the type id
region and the id of each function's declared type in the function's record
(`instantiate_typeIds`): after the fresh address space (`regions_initialSpace`), laying out
writes the tables, the memory and the segments' regions only.
-/

namespace OnePassJit

open Amd64

section Registry

variable {seen ss : List Signature} {s : Signature}

theorem idxOf?_eq_some_idxOf {α : Type} [BEq α] [LawfulBEq α] {l : List α} {a : α} (h : a ∈ l) :
    l.idxOf? a = some (l.idxOf a) := by
  induction l with
  | nil => cases h
  | cons b l ih =>
    rw [List.idxOf?_cons, List.idxOf_cons]
    by_cases hb : b = a
    · simp [hb]
    · have ha : a ∈ l := (List.mem_cons.mp h).resolve_left (Ne.symm hb)
      simp [beq_false_of_ne hb, ih ha]

theorem typeId_of_mem (h : s ∈ seen) : typeId seen s = ((seen.idxOf s).toUInt32, seen) := by
  rw [typeId, idxOf?_eq_some_idxOf h]

theorem typeId_of_not_mem (h : s ∉ seen) : typeId seen s = (seen.length.toUInt32, seen ++ [s]) := by
  rw [typeId, List.idxOf?_eq_none_iff.mpr h]

theorem eraseDups_append_singleton : (ss ++ [s]).eraseDups = ss.eraseDups ++ if s ∈ ss then [] else [s] := by
  rw [List.eraseDups_append]
  by_cases h : s ∈ ss
  · simp [List.removeAll, h]
  · simp [List.removeAll, h, List.eraseDups_cons]

theorem foldl_internStep (pre ss : List Signature) (ids : List UInt32) :
    ss.foldl internStep (pre.eraseDups, ids) =
      ((pre ++ ss).eraseDups, ids ++ ss.map fun s => ((pre ++ ss).eraseDups.idxOf s).toUInt32) := by
  induction ss using List.reverseRecOn with
  | nil => simp
  | append_singleton ss s ih =>
    rw [List.foldl_append, ih, List.foldl_cons, List.foldl_nil, ← List.append_assoc,
      eraseDups_append_singleton, List.map_append, List.map_singleton, ← List.append_assoc]
    by_cases h : s ∈ pre ++ ss
    · rw [internStep, typeId_of_mem (List.mem_eraseDups.mpr h), if_pos h, List.append_nil]
    · have hnew : s ∉ (pre ++ ss).eraseDups := fun h' => h (List.mem_eraseDups.mp h')
      rw [internStep, typeId_of_not_mem hnew, if_neg h]
      refine Prod.ext rfl (congrArg₂ (· ++ ·) (congrArg (ids ++ ·) ?_) ?_)
      · refine List.map_congr_left fun x hx => ?_
        rw [List.idxOf_append_of_mem (List.mem_eraseDups.mpr (List.mem_append_right pre hx))]
      · rw [List.idxOf_append_of_notMem hnew]
        simp

theorem length_eraseDups_le (ss : List Signature) : ss.eraseDups.length ≤ ss.length := by
  induction ss using List.reverseRecOn with
  | nil => exact le_rfl
  | append_singleton ss s ih =>
    rw [eraseDups_append_singleton, List.length_append, List.length_append]
    split <;> simp only [List.length_nil, List.length_singleton] <;> omega

def internedId (ss : List Signature) (s : Signature) : UInt32 := (ss.eraseDups.idxOf s).toUInt32

theorem internTypes_eraseDups (pre ss : List Signature) :
    internTypes pre.eraseDups ss = ((pre ++ ss).eraseDups, ss.map (internedId (pre ++ ss))) := by
  rw [internTypes, foldl_internStep, List.nil_append]
  rfl

/-- A fresh registry numbers signatures densely in order of first appearance. -/
theorem internTypes_nil (ss : List Signature) :
    internTypes [] ss = (ss.eraseDups, ss.map (internedId ss)) :=
  internTypes_eraseDups [] ss

/-- Two signatures of `ss` get the same id exactly when they are equal, as long as the ids
fit 32 bits. -/
theorem internedId_inj (hss : ss.length ≤ 2 ^ 32) {s₁ s₂ : Signature} (h₁ : s₁ ∈ ss) (h₂ : s₂ ∈ ss) :
    internedId ss s₁ = internedId ss s₂ ↔ s₁ = s₂ := by
  refine ⟨fun h => ?_, fun h => h ▸ rfl⟩
  have hE := length_eraseDups_le ss
  have hl₁ := List.idxOf_lt_length_of_mem (List.mem_eraseDups.mpr h₁)
  have hl₂ := List.idxOf_lt_length_of_mem (List.mem_eraseDups.mpr h₂)
  have hidx := congrArg UInt32.toNat h
  rw [internedId, internedId, Nat.toUInt32_eq, Nat.toUInt32_eq, UInt32.toNat_ofNat',
    UInt32.toNat_ofNat', Nat.mod_eq_of_lt (by omega), Nat.mod_eq_of_lt (by omega)] at hidx
  exact (List.idxOf_inj (List.mem_eraseDups.mpr h₁)).mp hidx

end Registry

/-! Regions a change leaves alone. -/

namespace Amd64.AddressSpace

variable {m : AddressSpace} {j : Nat} {r : ByteArray}

theorem regions_setArea_self (m : AddressSpace) (a : Area) (b : ByteArray) :
    (m.setArea a b).regions[a.index]? = some b :=
  regions_setRegion_self m a.index b

theorem regions_setArea_of_some (h : m.regions[j]? = some r) {a : Area} (hj : j ≠ a.index)
    (b : ByteArray) : (m.setArea a b).regions[j]? = some r := by
  have hlt : j < m.regions.size := by
    by_contra hn
    rw [Array.getElem?_eq_none (by omega)] at h
    cases h
  rw [setArea, regions_setRegion_of_ne b hj hlt, h]

theorem regions_poke_of_some (h : m.regions[j]? = some r) {b : UInt64} {n : Nat}
    (hb : ∀ off, m.locate b n ≠ some (j, off)) (v : UInt64) : (m.poke b n v).regions[j]? = some r := by
  unfold poke
  rcases hw : m.write b n v with _ | m'
  · exact h
  · obtain ⟨i, off, hl, -⟩ := write_eq_some hw
    have hij : j ≠ i := by
      rintro rfl
      exact hb off hl
    rw [Option.getD_some, regions_write_of_ne hw hl hij, h]

theorem regions_foldl {β : Type} {g : AddressSpace → β → AddressSpace}
    (hg : ∀ s x, s.regions[j]? = some r → (g s x).regions[j]? = some r) :
    ∀ (l : List β) (s : AddressSpace), s.regions[j]? = some r → (l.foldl g s).regions[j]? = some r
  | [], _, h => h
  | x :: l, s, h => regions_foldl hg l (g s x) (hg s x h)

end Amd64.AddressSpace

/-! Function records and type ids as a fresh instance lays them out. -/

section Layout

open Amd64.AddressSpace

theorem readLE_writeFunctionRecord_typeId (b : ByteArray) (i : Nat) (code : UInt64) (tid : UInt32)
    (hfit : (i + 1) * Abi.fnSize ≤ b.size) :
    readLE (writeFunctionRecord b i code tid) (i * Abi.fnSize + 8) 4 = tid.toUInt64 := by
  have hsucc : (i + 1) * Abi.fnSize = i * Abi.fnSize + 32 := Nat.succ_mul i Abi.fnSize
  unfold writeFunctionRecord
  dsimp only
  rw [readLE_writeLE_of_disjoint _ _ (.inl (by omega)),
    readLE_writeLE_of_disjoint _ _ (.inl (by omega))]
  apply UInt64.toNat_inj.mp
  rw [toNat_readLE_writeLE_self _ _ (by omega) (by rw [size_writeLE]; omega),
    UInt32.toNat_toUInt64, Nat.mod_eq_of_lt (by simpa using tid.toNat_lt)]

theorem readLE_writeFunctionRecord_of_disjoint (b : ByteArray) (i : Nat) (code : UInt64)
    (tid : UInt32) {o : Nat} (ho : o + 4 ≤ i * Abi.fnSize ∨ (i + 1) * Abi.fnSize ≤ o) :
    readLE (writeFunctionRecord b i code tid) o 4 = readLE b o 4 := by
  have hsucc : (i + 1) * Abi.fnSize = i * Abi.fnSize + 32 := Nat.succ_mul i Abi.fnSize
  unfold writeFunctionRecord
  dsimp only
  rw [readLE_writeLE_of_disjoint _ _ (by omega), readLE_writeLE_of_disjoint _ _ (by omega),
    readLE_writeLE_of_disjoint _ _ (by omega), readLE_writeLE_of_disjoint _ _ (by omega)]

@[simp] theorem size_writeFunctionRecord (b : ByteArray) (i : Nat) (code : UInt64) (tid : UInt32) :
    (writeFunctionRecord b i code tid).size = b.size := by
  simp [writeFunctionRecord]

theorem size_foldl {β : Type} {g : ByteArray → β → ByteArray} (hg : ∀ b x, (g b x).size = b.size) :
    ∀ (l : List β) (b : ByteArray), (l.foldl g b).size = b.size
  | [], _ => rfl
  | x :: l, b => (size_foldl hg l (g b x)).trans (hg b x)

theorem readLE_foldl_records {g : ByteArray → Nat → ByteArray} {v : Nat → UInt64}
    {size off n : Nat} (hsize : ∀ b i, (g b i).size = b.size)
    (hkeep : ∀ b i o, o + n ≤ i * size ∨ (i + 1) * size ≤ o → readLE (g b i) o n = readLE b o n)
    (hset : ∀ b i, (i + 1) * size ≤ b.size → readLE (g b i) (i * size + off) n = v i)
    (hoff : off + n ≤ size) :
    ∀ (k : Nat) (b : ByteArray), k * size ≤ b.size →
      ∀ i < k, readLE ((List.range k).foldl g b) (i * size + off) n = v i := by
  intro k b
  induction k with
  | zero => exact fun _ i hi => absurd hi (Nat.not_lt_zero i)
  | succ k ih =>
    intro hb i hi
    have hk : k * size ≤ b.size := le_trans (Nat.mul_le_mul_right size (Nat.le_succ k)) hb
    rw [List.range_succ, List.foldl_append, List.foldl_cons, List.foldl_nil]
    rcases Nat.lt_succ_iff_lt_or_eq.mp hi with hi | rfl
    · -- an earlier record: the last writer leaves it alone
      have hle : (i + 1) * size ≤ k * size := Nat.mul_le_mul_right size hi
      have hsucc : (i + 1) * size = i * size + size := Nat.succ_mul i size
      rw [hkeep _ _ _ (.inl (by omega)), ih hk i hi]
    · exact hset _ _ (by rw [size_foldl hsize]; exact hb)

@[simp] theorem size_functionRecords (m : ModuleDef) (offsets : List Nat) (typeIds : List UInt32) :
    (functionRecords m offsets typeIds).size = m.functions.size * Abi.fnSize := by
  unfold functionRecords
  rw [size_foldl (fun b i => size_writeFunctionRecord b i _ _), size_zeros]

theorem readLE_functionRecords (m : ModuleDef) (offsets : List Nat) (typeIds : List UInt32)
    {i : Nat} (hi : i < m.functions.size) :
    readLE (functionRecords m offsets typeIds) (i * Abi.fnSize + 8) 4 =
      (typeIds.getD (m.functions.getD i default).typeIndex.toNat 0).toUInt64 := by
  unfold functionRecords
  exact (readLE_foldl_records
    (v := fun i => (typeIds.getD (m.functions.getD i default).typeIndex.toNat 0).toUInt64)
    (fun b i => size_writeFunctionRecord b i _ _)
    (fun b i _ ho => readLE_writeFunctionRecord_of_disjoint b i _ _ ho)
    (fun b i hb => readLE_writeFunctionRecord_typeId b i _ _ hb) (by decide) _ _
    (by rw [size_zeros])) i hi

theorem typeIdBytes_fields (typeIds : List UInt32) :
    (typeIdBytes typeIds).size = 4 * typeIds.length ∧
    ∀ (t : Nat) (ht : t < typeIds.length),
      readLE (typeIdBytes typeIds) (4 * t) 4 = typeIds[t].toUInt64 := by
  obtain ⟨hs, -, hr⟩ := readLE_foldl_fields (n := 4) (by decide) UInt32.toUInt64
    (fun x => by simpa using x.toNat_lt) typeIds .empty
  unfold typeIdBytes
  exact ⟨by simpa using hs, fun t ht => by simpa using hr t ht⟩

/-- The regions of function records and of type ids in a fresh address space. -/
theorem regions_initialSpace (m : ModuleDef) (segment : CodeSegment) (offsets : List Nat)
    (typeIds : List UInt32) :
    (initialSpace m segment offsets typeIds).regions[Area.functions.index]? =
        some (functionRecords m offsets typeIds) ∧
      (initialSpace m segment offsets typeIds).regions[Area.typeIds.index]? =
        some (typeIdBytes typeIds) := by
  have hfold : ∀ {j : Nat} {r : ByteArray}, j < 16 → ∀ s : AddressSpace, s.regions[j]? = some r →
      (m.tables.toList.zipIdx.foldl (fun space x =>
        space.setArea (.tableElements x.2) (zeros (8 * x.1.min.toNat))) s).regions[j]? = some r :=
    fun hj s h => regions_foldl (fun s x h =>
      regions_setArea_of_some h (by simp only [Area.index]; omega) _) _ s h
  unfold initialSpace
  dsimp only
  constructor
  · refine hfold (by decide) _ ?_
    iterate 7 refine regions_setArea_of_some ?_ (by decide) _
    exact regions_setArea_self _ _ _
  · exact hfold (by decide) _ (regions_setArea_self _ _ _)

theorem functionRecord_typeId (i : Nat) :
    functionRecord i + UInt64.ofInt Abi.fnTypeId =
      regionBase Area.functions.index + (i * Abi.fnSize + 8).toUInt64 := by
  rw [functionRecord, Area.base, Nat.toUInt64_eq, Nat.toUInt64_eq, UInt64.ofNat_add,
    UInt64.add_assoc]
  rfl

theorem read_typeIdBytes {sp : AddressSpace} {ids : List UInt32}
    (h : sp.regions[Area.typeIds.index]? = some (typeIdBytes ids)) {t : Nat} (ht : t < ids.length)
    (h32 : t < 2 ^ 32) : sp.read (Area.typeIds.base + (t * 4).toUInt64) 4 = some ids[t].toUInt64 := by
  obtain ⟨hsize, hread⟩ := typeIdBytes_fields ids
  have hl : sp.locate (regionBase Area.typeIds.index + (t * 4).toUInt64) 4 =
      some (Area.typeIds.index, t * 4) :=
    locate_regionBase_add (by decide) (by omega) h (by rw [hsize]; omega)
  rw [Area.base, read_of_locate hl, region, Array.getD_eq_getD_getElem?, h, Option.getD_some,
    Nat.mul_comm, hread t ht]

theorem read_functionRecords_typeId {sp : AddressSpace} {m : ModuleDef} {offsets : List Nat}
    {ids : List UInt32} (h : sp.regions[Area.functions.index]? = some (functionRecords m offsets ids))
    {i : Nat} (hi : i < m.functions.size) (h32 : i < 2 ^ 32) :
    sp.read (functionRecord i + UInt64.ofInt Abi.fnTypeId) 4 =
      some (ids.getD m.functions[i].typeIndex.toNat 0).toUInt64 := by
  have hsucc : (i + 1) * Abi.fnSize ≤ m.functions.size * Abi.fnSize := Nat.mul_le_mul_right _ hi
  have hl : sp.locate (regionBase Area.functions.index + (i * Abi.fnSize + 8).toUInt64) 4 =
      some (Area.functions.index, i * Abi.fnSize + 8) :=
    locate_regionBase_add (by decide) (by unfold Abi.fnSize; omega) h
      (by rw [size_functionRecords, Nat.succ_mul] at *; unfold Abi.fnSize at *; omega)
  rw [functionRecord_typeId, read_of_locate hl, region, Array.getD_eq_getD_getElem?, h,
    Option.getD_some, readLE_functionRecords _ _ _ hi, Array.getD_eq_getD_getElem?,
    Array.getElem?_eq_getElem hi, Option.getD_some]

end Layout

/-! Instantiation. -/

section Instantiate

open Amd64.AddressSpace

theorem foldlM_invariant {α β ε : Type} {f : α → β → Except ε α} (P : α → Prop)
    (hf : ∀ a b a', P a → f a b = .ok a' → P a') :
    ∀ (l : List β) (a a' : α), P a → l.foldlM f a = .ok a' → P a'
  | [], a, a', h, he => by
    cases he
    exact h
  | b :: l, a, a', h, he => by
    rw [List.foldlM_cons] at he
    cases hb : f a b with
    | error e =>
      rw [hb] at he
      cases he
    | ok a₁ =>
      rw [hb] at he
      exact foldlM_invariant P hf l a₁ a' (hf a b a₁ h hb) he

theorem exists_ok_of_mapM_ok {α β ε : Type} {f : α → Except ε β} {xs : List α} {ys : List β}
    (h : xs.mapM f = .ok ys) : ∀ x ∈ xs, ∃ y, f x = .ok y := by
  induction xs generalizing ys with
  | nil => exact fun x hx => absurd hx List.not_mem_nil
  | cons x xs ih =>
    rw [List.mapM_cons] at h
    cases hx : f x with
    | error e =>
      rw [hx] at h
      cases h
    | ok y =>
      cases hr : xs.mapM f with
      | error e =>
        simp [hx, hr] at h
        cases h
      | ok zs =>
        intro z hz
        rcases List.mem_cons.mp hz with rfl | hz
        · exact ⟨y, hx⟩
        · exact ih hr z hz

theorem ModuleDef.typeIndex_lt {m : ModuleDef} {irs : List FunctionIr} (h : m.functionIrs = .ok irs)
    {f : FunctionDef} (hf : f ∈ m.functions.toList) : f.typeIndex.toNat < m.types.size := by
  unfold ModuleDef.functionIrs at h
  obtain ⟨y, hy⟩ := exists_ok_of_mapM_ok h f hf
  cases ht : m.types[f.typeIndex.toNat]? with
  | none =>
    simp only [ht] at hy
    cases hy
  | some sig => exact (Array.getElem?_eq_some_iff.mp ht).1

variable {inst inst' : Instance} {j : Nat} {r : ByteArray}

theorem Instance.regions_setTable (h : inst.space.regions[j]? = some r) (hj : j < 16)
    (h12 : j ≠ Area.tableRecords.index) {i : Nat} (hi : i < 2 ^ 32) (t : RefTable) :
    (inst.setTable i t).space.regions[j]? = some r :=
  regions_poke_of_some (regions_setArea_of_some h (by simp only [Area.index]; omega) _)
    (fun _ hl => h12 (locate_tableLen hi hl).1) _

theorem memoryLen_addr :
    Area.memoryRecord.base + UInt64.ofInt Abi.memoryLen =
      regionBase Area.memoryRecord.index + (8 : Nat).toUInt64 := rfl

theorem Instance.regions_setMemory (h : inst.space.regions[j]? = some r)
    (h9 : j ≠ Area.memoryRecord.index) (h10 : j ≠ Area.memory.index) (lm : LinearMemory) :
    (inst.setMemory lm).space.regions[j]? = some r :=
  regions_poke_of_some (regions_setArea_of_some h h10 _) (fun _ hl => by
    rw [memoryLen_addr] at hl
    exact h9 (locate_regionBase_add_eq (by decide) (by decide) hl).1) _

theorem regions_initElements {segs : List ElementSegment} {refs : List (Array UInt64)}
    (h : initElements inst segs = .ok (inst', refs)) (hj : j < 16)
    (h12 : j ≠ Area.tableRecords.index) (hr : inst.space.regions[j]? = some r) :
    inst'.space.regions[j]? = some r := by
  unfold initElements at h
  refine foldlM_invariant (fun acc => acc.1.space.regions[j]? = some r) ?_ segs _ _ hr h
  rintro ⟨inst, kept⟩ seg a' hkeep he
  simp only [bind, Except.bind] at he
  split at he
  · cases he
  · split at he
    · split at he
      · split at he
        · cases he
          exact Instance.regions_setTable hkeep hj h12 seg.table.toNat_lt _
        · cases he
      · cases he
    · cases he
      exact hkeep

theorem regions_initData {segs : List DataSegment} {bytes : List ByteArray}
    (h : initData inst segs = .ok (inst', bytes)) (h9 : j ≠ Area.memoryRecord.index)
    (h10 : j ≠ Area.memory.index) (hr : inst.space.regions[j]? = some r) :
    inst'.space.regions[j]? = some r := by
  unfold initData at h
  refine foldlM_invariant (fun acc => acc.1.space.regions[j]? = some r) ?_ segs _ _ hr h
  rintro ⟨inst, kept⟩ seg a' hkeep he
  dsimp only at he
  split at he
  · split at he
    · split at he
      · cases he
        exact Instance.regions_setMemory hkeep h9 h10 _
      · cases he
    · cases he
  · cases he
    exact hkeep

theorem layOut_regions {cfg : EngineConfig} {m : ModuleDef} {irs : List FunctionIr}
    {compiled : List Compiled} {typeIds : List UInt32}
    (h : layOut cfg m irs compiled typeIds = .ok inst) :
    ∃ offsets, inst.space.regions[Area.functions.index]? =
        some (functionRecords m offsets typeIds) ∧
      inst.space.regions[Area.typeIds.index]? = some (typeIdBytes typeIds) := by
  unfold layOut at h
  simp only [bind, Except.bind, pure, Except.pure] at h
  split at h
  · cases h
  · rename_i p he
    split at h
    · cases h
    · rename_i q hd
      cases h
      have hinit := regions_initialSpace m (CodeSegment.ofFunctions (compiled.map (·.code)))
        (CodeSegment.offsets (compiled.map (·.code))) typeIds
      refine ⟨CodeSegment.offsets (compiled.map (·.code)), ?_, ?_⟩
      all_goals
        refine regions_foldl (fun s x h => ?_) _ _ (regions_foldl (fun s x h => ?_) _ _ ?_)
        · exact regions_setArea_of_some h (by simp only [Area.index]; omega) _
        · exact regions_setArea_of_some h (by simp only [Area.index]; omega) _
        refine regions_setArea_of_some (regions_setArea_of_some ?_ (by decide) _) (by decide) _
        exact regions_initData hd (by decide) (by decide)
          (regions_initElements he (by decide) (by decide) (by first | exact hinit.1 | exact hinit.2))

theorem functionIrs_of_compileFunctions {cfg : EngineConfig} {m : ModuleDef}
    {irs : List FunctionIr} {compiled : List Compiled}
    (h : compileFunctions cfg m = .ok (irs, compiled)) : m.functionIrs = .ok irs := by
  unfold compileFunctions at h
  simp only [bind, Except.bind, pure, Except.pure] at h
  split at h
  · rename_i irs' hirs
    split at h
    · cases h
      exact hirs
    · simp [throw, throwThe, MonadExceptOf.throw] at h
  · simp [throw, throwThe, MonadExceptOf.throw] at h

theorem instantiate_run (m : ModuleDef) (e : Engine) :
    (instantiate m).run e = match compileFunctions e.config m with
      | .error err => .error err e
      | .ok (irs, compiled) =>
        match layOut e.config m irs compiled (internTypes e.types m.types.toList).2 with
        | .ok inst => .ok inst { e with types := (internTypes e.types m.types.toList).1 }
        | .error err => .error err { e with types := (internTypes e.types m.types.toList).1 } := by
  cases hc : compileFunctions e.config m with
  | error err => simp [instantiate, hc, EStateM.run, bind, EStateM.bind, get, getThe,
      MonadStateOf.get, EStateM.get, MonadExcept.ofExcept, throw, throwThe, MonadExceptOf.throw,
      EStateM.throw]
  | ok r =>
    cases hl : layOut e.config m r.1 r.2 (internTypes e.types m.types.toList).2 <;>
      simp [instantiate, hc, hl, EStateM.run, bind, EStateM.bind, get, getThe, MonadStateOf.get,
        EStateM.get, set, MonadStateOf.set, EStateM.set, MonadExcept.ofExcept, throw, throwThe,
        MonadExceptOf.throw, EStateM.throw, pure, EStateM.pure]

theorem instantiate_registry (m : ModuleDef) {e : Engine} {pre : List Signature}
    (hpre : e.types = pre.eraseDups) :
    match (instantiate m).run e with
    | .ok _ e' => e'.types = (pre ++ m.types.toList).eraseDups
    | .error _ e' => e'.types = pre.eraseDups ∨ e'.types = (pre ++ m.types.toList).eraseDups := by
  have hint := internTypes_eraseDups pre m.types.toList
  rw [← hpre] at hint
  rw [instantiate_run]
  rcases compileFunctions e.config m with err | ⟨irs, compiled⟩
  · exact Or.inl hpre
  · dsimp only
    rcases layOut e.config m irs compiled (internTypes e.types m.types.toList).2 with err | inst
    · exact Or.inr (congrArg Prod.fst hint)
    · exact congrArg Prod.fst hint

theorem getD_map_internedId {pre ss : List Signature} {t : Nat} (ht : t < ss.length) :
    (ss.map (internedId (pre ++ ss))).getD t 0 = internedId (pre ++ ss) ss[t] := by
  rw [List.getD_eq_getElem?_getD, List.getElem?_map, List.getElem?_eq_getElem ht]
  rfl

/-- What an instance holds for the signature checks of indirect calls, laid out on an engine
whose registry the signatures `pre` left: in the type id region the id of each of the
module's types, and in each function's record the id of its declared type, each numbered as
in `pre` followed by the module's types. -/
theorem instantiate_typeIds {m : ModuleDef} {e e' : Engine} {pre : List Signature}
    (hpre : e.types = pre.eraseDups) (h : (instantiate m).run e = .ok inst e') :
    (∀ t, t < m.types.size → t < 2 ^ 32 → ∃ sig, m.types[t]? = some sig ∧
      inst.space.read (Area.typeIds.base + (t * 4).toUInt64) 4 =
        some (internedId (pre ++ m.types.toList) sig).toUInt64) ∧
    (∀ i, i < m.functions.size → i < 2 ^ 32 → ∃ sig, m.decls.functionSignature? i = some sig ∧
      inst.space.read (functionRecord i + UInt64.ofInt Abi.fnTypeId) 4 =
        some (internedId (pre ++ m.types.toList) sig).toUInt64) := by
  rw [instantiate_run] at h
  split at h
  · cases h
  · rename_i irs compiled hc
    have hint := internTypes_eraseDups pre m.types.toList
    rw [← hpre] at hint
    rw [hint] at h
    split at h
    · rename_i hl
      cases h
      obtain ⟨offsets, hfn, hty⟩ := layOut_regions hl
      have hirs := functionIrs_of_compileFunctions hc
      refine ⟨fun t ht h32 => ⟨m.types[t], Array.getElem?_eq_getElem ht, ?_⟩, fun i hi h32 => ?_⟩
      · -- type `t`'s id, in the type id region
        have htl : t < m.types.toList.length := by simpa using ht
        rw [read_typeIdBytes hty (by simpa using htl) h32, List.getElem_map]
        rfl
      · -- function `i`'s record: the id of its declared type
        have htl := ModuleDef.typeIndex_lt hirs (Array.getElem_mem_toList hi)
        refine ⟨m.types[m.functions[i].typeIndex.toNat], ?_, ?_⟩
        · simp [ModuleDef.decls, ModuleDecls.functionSignature?, hi, htl]
        · rw [read_functionRecords_typeId hfn hi h32, getD_map_internedId (by simpa using htl)]
          rfl
    · cases h

end Instantiate

end OnePassJit
