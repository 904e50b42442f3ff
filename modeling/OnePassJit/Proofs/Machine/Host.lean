import OnePassJit.Proofs.Machine.Release

/-!
The host between two entries of generated code.

Generated code that needs the host stores what it asks for in the call context and
returns; the host services the request on the instance, whose address space is the
machine's memory, and enters the code again where it left. The host reads and
writes whole regions or the words of one region, so every access to another region reads
as before (`read_congr`).

For `table.grow` the host reads its operands from the three slots below the stack pointer
the code recorded, grows the table (`RefTable.afterGrow`) and writes the answer over the
lowest operand (`RefTable.growAnswer`).
-/

namespace OnePassJit

namespace Amd64.AddressSpace

variable {m m' : AddressSpace} {a v : UInt64} {k i j off : Nat}

/-! Regions that a change leaves alone. -/

theorem locate_congr (h : m.locate a k = some (i, off)) (hr : m'.regions[i]? = m.regions[i]?) :
    m'.locate a k = some (i, off) := by
  unfold locate at h ⊢
  simp only at h ⊢
  split at h
  · rename_i r hr'
    split at h
    · rename_i hfit
      cases h
      rw [hr, hr']
      exact if_pos hfit
    · cases h
  · cases h

theorem read_congr (h : m.locate a k = some (i, off)) (hr : m'.regions[i]? = m.regions[i]?) :
    m'.read a k = m.read a k := by
  rw [read_of_locate (locate_congr h hr), read_of_locate h]
  simp only [region, Array.getD_eq_getD_getElem?, hr]

theorem regions_setRegion_of_ne (b : ByteArray) (hij : i ≠ j) (hi : i < m.regions.size) :
    (m.setRegion j b).regions[i]? = m.regions[i]? := by
  unfold setRegion
  simp only [Array.set!_eq_setIfInBounds, Array.getElem?_setIfInBounds, Ne.symm hij, if_false]
  split
  · rw [Array.getElem?_append_left hi]
  · rfl

theorem regions_modifyRegion_of_ne (f : ByteArray → ByteArray) (hij : i ≠ j) :
    (m.modifyRegion j f).regions[i]? = m.regions[i]? := by
  simp only [modifyRegion, Array.getElem?_modify, Ne.symm hij, if_false]

theorem regions_write_of_ne (hw : m.write a k v = some m') (hl : m.locate a k = some (j, off))
    (hij : i ≠ j) : m'.regions[i]? = m.regions[i]? := by
  obtain ⟨j', off', hl', rfl⟩ := write_eq_some hw
  rw [hl] at hl'
  obtain ⟨rfl, rfl⟩ := Prod.mk.inj (Option.some.inj hl')
  exact regions_modifyRegion_of_ne _ hij

theorem poke_eq (hw : m.write a k v = some m') : m.poke a k v = m' := by
  simp only [poke, hw, Option.getD_some]

theorem peek_eq {w : UInt64} (hr : m.read a k = some w) : m.peek a k = w := by
  simp only [peek, hr, Option.getD_some]

end Amd64.AddressSpace

/-! The bytes of a table: eight to a word. -/

section Words

open Amd64

@[simp] theorem size_zeros (n : Nat) : (zeros n).size = n :=
  Array.size_replicate

theorem readLE_foldl_fields {α : Type} {n : Nat} (hn : n ≤ 8) (f : α → UInt64)
    (hf : ∀ x, (f x).toNat < 2 ^ (8 * n)) (l : List α) (b : ByteArray) :
    (l.foldl (fun b x => writeLE (b ++ zeros n) b.size n (f x)) b).size = b.size + n * l.length ∧
    (∀ o, o + n ≤ b.size →
      readLE (l.foldl (fun b x => writeLE (b ++ zeros n) b.size n (f x)) b) o n = readLE b o n) ∧
    ∀ (j : Nat) (hj : j < l.length),
      readLE (l.foldl (fun b x => writeLE (b ++ zeros n) b.size n (f x)) b) (b.size + n * j) n =
        f l[j] := by
  induction l generalizing b with
  | nil => simp
  | cons x l ih =>
    have hz : (b ++ zeros n).size = b.size + n := by
      rw [ByteArray.size_append, size_zeros]
    have hsize : (writeLE (b ++ zeros n) b.size n (f x)).size = b.size + n := by
      rw [size_writeLE, hz]
    have hkeep : ∀ o, o + n ≤ b.size →
        readLE (writeLE (b ++ zeros n) b.size n (f x)) o n = readLE b o n := by
      intro o ho
      rw [readLE_writeLE_of_disjoint _ _ (.inl ho)]
      refine readLE_congr fun k hk => ?_
      unfold byteAt
      rw [dif_pos (by omega), dif_pos (by omega), ByteArray.getElem_append_left (by omega)]
    have hnew : readLE (writeLE (b ++ zeros n) b.size n (f x)) b.size n = f x := by
      apply UInt64.toNat_inj.mp
      rw [toNat_readLE_writeLE_self _ _ hn (by omega), Nat.mod_eq_of_lt (hf x)]
    obtain ⟨ihs, ihk, ihw⟩ := ih (writeLE (b ++ zeros n) b.size n (f x))
    rw [hsize] at ihs ihk ihw
    simp only [List.foldl_cons, List.length_cons]
    refine ⟨by rw [ihs, Nat.mul_succ]; omega, fun o ho => by rw [ihk o (by omega), hkeep o ho],
      fun j hj => ?_⟩
    cases j with
    | zero =>
      rw [Nat.mul_zero, Nat.add_zero, ihk _ (by omega), hnew]
      rfl
    | succ j =>
      rw [Nat.mul_succ, show b.size + (n * j + n) = b.size + n + n * j by omega,
        ihw j (by simpa using hj)]
      rfl

theorem readLE_foldl_words (l : List UInt64) (b : ByteArray) :
    (l.foldl (fun b w => writeLE (b ++ zeros 8) b.size 8 w) b).size = b.size + 8 * l.length ∧
    (∀ o, o + 8 ≤ b.size →
      readLE (l.foldl (fun b w => writeLE (b ++ zeros 8) b.size 8 w) b) o 8 = readLE b o 8) ∧
    ∀ (j : Nat) (hj : j < l.length),
      readLE (l.foldl (fun b w => writeLE (b ++ zeros 8) b.size 8 w) b) (b.size + 8 * j) 8 = l[j] :=
  readLE_foldl_fields le_rfl id (fun x => x.toNat_lt) l b

@[simp] theorem size_wordsToBytes (ws : Array UInt64) : (wordsToBytes ws).size = 8 * ws.size := by
  have := (readLE_foldl_words ws.toList .empty).1
  rw [Array.foldl_toList] at this
  simpa [wordsToBytes] using this

theorem bytesToWords_wordsToBytes (ws : Array UInt64) : bytesToWords (wordsToBytes ws) = ws := by
  have hw := (readLE_foldl_words ws.toList .empty).2.2
  rw [Array.foldl_toList] at hw
  apply Array.ext
  · simp [bytesToWords]
  · intro j h₁ h₂
    simp only [bytesToWords, Array.getElem_map, Array.getElem_range]
    have := hw j (by simpa using h₂)
    simpa [wordsToBytes] using this

end Words

/-! What `table.grow` leaves. -/

namespace RefTable

/-- What `table.grow` leaves on the stack: the old length, or `growFailed`. -/
def growAnswer (t : RefTable) (delta : UInt32) (init : UInt64) : UInt64 :=
  match t.grow delta init with
  | some (old, _) => old.toUInt64
  | none => growFailed

/-- The table after `table.grow`: grown, or as it was when growing fails. -/
def afterGrow (t : RefTable) (delta : UInt32) (init : UInt64) : RefTable :=
  match t.grow delta init with
  | some (_, t') => t'
  | none => t

end RefTable

/-! The host's steps. -/

namespace Dispatch

open Amd64

variable {β : Type} (inst : Instance)

theorem run_get_bind (f : Instance → EngineM β) : (get >>= f).run inst = (f inst).run inst := rfl

theorem run_modify_bind (g : Instance → Instance) (f : PUnit → EngineM β) :
    (modify g >>= f).run inst = (f ⟨⟩).run (g inst) := rfl

theorem run_writeSlot (i : Nat) (v : UInt64) :
    (writeSlot i v).run inst =
      (.ok (), { inst with space := inst.space.poke (Area.valueStack.base + (8 * i).toUInt64) 8 v }) :=
  rfl

theorem toNat_shiftRight_three {base : Nat} (h : 8 * base < 2 ^ 64) :
    ((8 * base).toUInt64 >>> 3).toNat = base := by
  rw [UInt64.toNat_shiftRight, Nat.toUInt64_eq, UInt64.toNat_ofNat', Nat.mod_eq_of_lt h]
  simp only [UInt64.reduceToNat, Nat.reduceMod, Nat.shiftRight_eq_div_pow]
  omega

end Dispatch

end OnePassJit
