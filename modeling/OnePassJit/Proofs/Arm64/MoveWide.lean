import Mathlib.Tactic.IntervalCases
import OnePassJit.Arm64.Encoder

/-!
Constants loaded by move wide instructions.

The A64 move wide immediate class writes one 16-bit halfword of a general register: `movz`
clears the rest of the register, `movn` writes the inverse of what `movz` would, and `movk`
keeps the rest. `MoveWide` is a decoded instruction and `MoveWide.exec` its effect on the
registers x0 to x30, number 31 being the zero register; `decodeMoveWide` reads the words the
encoder emits and `runMoveWide` runs them in order.

A register value is read by its four halfwords (`half`), and two values with the same
halfwords are equal (`eq_of_half`). Loading a constant (`Enc.movImm`) writes the first
halfword that differs from a filler, zero or all ones, with `movz` or `movn` and each later
halfword that differs from it with `movk`; the filler is all ones when more halfwords are all
ones than zero, so the count of words is four less the halfwords equal to the filler, and one
at least. The patchable pair (`Enc.movImm32Patchable`), once patched with a 32-bit value, is a
`movz` and a `movk` that load that value (`move_wide_loads` states both).
-/

namespace OnePassJit.Arm64

/-! ### The instructions -/

/-- The operations of the move wide immediate class. -/
inductive MoveWideOp where
  | movn
  | movz
  | movk
  deriving DecidableEq, Repr

def MoveWideOp.ofOpc : Nat → Option MoveWideOp
  | 0 => some .movn
  | 2 => some .movz
  | 3 => some .movk
  | _ => none

/-- A decoded move wide instruction: operation, 64-bit form, halfword index, immediate and
destination register number. -/
structure MoveWide where
  op : MoveWideOp
  is64 : Bool
  hw : Nat
  imm : Nat
  rd : Nat
  deriving DecidableEq, Repr

/-- Decode a word of the move wide immediate class: `sf` in bit 31, `opc` in bits 29 and 30,
the class bits `100101` in bits 23 to 28, `hw` in bits 21 and 22, `imm16` in bits 5 to 20 and
`Rd` in bits 0 to 4. A 32-bit form with `hw` above 1 is unallocated. -/
def decodeMoveWide (w : UInt32) : Option MoveWide :=
  let n := w.toNat
  if n / 2 ^ 23 % 2 ^ 6 = 0b100101 then
    (MoveWideOp.ofOpc (n / 2 ^ 29 % 4)).bind fun op =>
      let is64 := decide (n / 2 ^ 31 = 1)
      let hw := n / 2 ^ 21 % 4
      if !is64 && 2 ≤ hw then none
      else some { op, is64, hw, imm := n / 2 ^ 5 % 2 ^ 16, rd := n % 32 }
  else none

def MoveWide.result (i : MoveWide) (old : UInt64) : UInt64 :=
  let pos := 16 * i.hw
  let field := i.imm * 2 ^ pos
  let r := match i.op with
    | .movz => field
    | .movn => 2 ^ 64 - 1 - field
    | .movk => old.toNat - old.toNat / 2 ^ pos % 2 ^ 16 * 2 ^ pos + field
  UInt64.ofNat (if i.is64 then r else r % 2 ^ 32)

abbrev GpFile := Nat → UInt64

def GpFile.read (x : GpFile) (r : Nat) : UInt64 := if r < 31 then x r else 0

def GpFile.write (x : GpFile) (r : Nat) (v : UInt64) : GpFile :=
  if r < 31 then Function.update x r v else x

def MoveWide.exec (i : MoveWide) (x : GpFile) : GpFile :=
  x.write i.rd (i.result (x.read i.rd))

/-- Run words of the move wide class in order; `none` at a word of another class. -/
def runMoveWide : List UInt32 → GpFile → Option GpFile
  | [], x => some x
  | w :: ws, x => (decodeMoveWide w).bind fun i => runMoveWide ws (i.exec x)

/-! ### Halfwords -/

/-- Halfword `j` of a register value. -/
def half (x : UInt64) (j : Nat) : Nat := x.toNat / 2 ^ (16 * j) % 2 ^ 16

theorem half_lt (x : UInt64) (j : Nat) : half x j < 2 ^ 16 := Nat.mod_lt _ (by decide)

/-- A register value is its four halfwords. -/
theorem eq_of_half {x y : UInt64} (h : ∀ j < 4, half x j = half y j) : x = y := by
  have h0 := h 0 (by decide)
  have h1 := h 1 (by decide)
  have h2 := h 2 (by decide)
  have h3 := h 3 (by decide)
  simp only [half] at h0 h1 h2 h3
  have hx := x.toNat_lt
  have hy := y.toNat_lt
  apply UInt64.toNat_inj.mp
  omega

theorem half_movz {imm hw j : Nat} (himm : imm < 2 ^ 16) (hhw : hw < 4) (hj : j < 4) :
    half (MoveWide.result ⟨.movz, true, hw, imm, rd⟩ old) j = if j = hw then imm else 0 := by
  simp only [half, MoveWide.result, if_true, UInt64.toNat_ofNat']
  interval_cases hw <;> interval_cases j <;> simp <;> omega

theorem half_movn {imm hw j : Nat} (himm : imm < 2 ^ 16) (hhw : hw < 4) (hj : j < 4) :
    half (MoveWide.result ⟨.movn, true, hw, imm, rd⟩ old) j =
      if j = hw then 2 ^ 16 - 1 - imm else 2 ^ 16 - 1 := by
  simp only [half, MoveWide.result, if_true, UInt64.toNat_ofNat']
  interval_cases hw <;> interval_cases j <;> simp <;> omega

theorem half_movk {imm hw j : Nat} (himm : imm < 2 ^ 16) (hhw : hw < 4) (hj : j < 4) :
    half (MoveWide.result ⟨.movk, true, hw, imm, rd⟩ old) j =
      if j = hw then imm else half old j := by
  have hold := old.toNat_lt
  simp only [half, MoveWide.result, if_true, UInt64.toNat_ofNat']
  interval_cases hw <;> interval_cases j <;> simp <;> omega

/-! ### The words the encoder emits -/

theorem lor_eq_add {a b k : Nat} (ha : a % 2 ^ k = 0) (hb : b < 2 ^ k) : a ||| b = a + b := by
  have hd : 2 ^ k * (a / 2 ^ k) = a := Nat.mul_div_cancel' (Nat.dvd_of_mod_eq_zero ha)
  calc a ||| b = 2 ^ k * (a / 2 ^ k) ||| b := by rw [hd]
    _ = 2 ^ k * (a / 2 ^ k) + b := (Nat.two_pow_add_eq_or_of_lt hb _).symm
    _ = a + b := by rw [hd]

theorem toNat_moveWord {base rd : UInt32} (imm : UInt32) {hw : Nat}
    (hbase : (base ||| Width.w64.sf).toNat % 2 ^ 23 = 0) (hrd : rd.toNat < 32) (hhw : hw < 4) :
    (base ||| Width.w64.sf ||| (hw.toUInt32 <<< 21) ||| ((imm &&& 0xFFFF) <<< 5) ||| rd).toNat =
      (base ||| Width.w64.sf).toNat + hw * 2 ^ 21 + imm.toNat % 2 ^ 16 * 2 ^ 5 + rd.toNat := by
  have hsh : (hw.toUInt32 <<< 21).toNat = hw * 2 ^ 21 := by
    rw [UInt32.toNat_shiftLeft, Nat.toUInt32_eq, UInt32.toNat_ofNat', Nat.shiftLeft_eq,
      show (21 : UInt32).toNat % 32 = 21 from rfl, Nat.mod_eq_of_lt (show hw < 2 ^ 32 by omega),
      Nat.mod_eq_of_lt (show hw * 2 ^ 21 < 2 ^ 32 by omega)]
  have him : ((imm &&& 0xFFFF) <<< 5).toNat = imm.toNat % 2 ^ 16 * 2 ^ 5 := by
    rw [UInt32.toNat_shiftLeft, UInt32.toNat_and, Nat.shiftLeft_eq,
      show (0xFFFF : UInt32).toNat = 2 ^ 16 - 1 from rfl, Nat.and_two_pow_sub_one_eq_mod]
    simp only [UInt32.reduceToNat, Nat.reduceMod]
    have := Nat.mod_lt imm.toNat (show 0 < 2 ^ 16 by decide)
    omega
  have hi := Nat.mod_lt imm.toNat (show 0 < 2 ^ 16 by decide)
  rw [UInt32.toNat_or, UInt32.toNat_or, UInt32.toNat_or, hsh, him,
    lor_eq_add (k := 23) hbase (show hw * 2 ^ 21 < 2 ^ 23 by omega),
    lor_eq_add (k := 21) (show ((base ||| Width.w64.sf).toNat + hw * 2 ^ 21) % 2 ^ 21 = 0 by omega)
      (show imm.toNat % 2 ^ 16 * 2 ^ 5 < 2 ^ 21 by omega),
    lor_eq_add (k := 5) (by omega) hrd]

theorem decode_moveWord {base rd : UInt32} (imm : UInt32) {hw : Nat} {op : MoveWideOp}
    (hbase : (base ||| Width.w64.sf).toNat % 2 ^ 23 = 0)
    (hclass : (base ||| Width.w64.sf).toNat / 2 ^ 23 % 2 ^ 6 = 0b100101)
    (hopc : MoveWideOp.ofOpc ((base ||| Width.w64.sf).toNat / 2 ^ 29 % 4) = some op)
    (hsf : (base ||| Width.w64.sf).toNat / 2 ^ 31 = 1) (hrd : rd.toNat < 32) (hhw : hw < 4) :
    decodeMoveWide (base ||| Width.w64.sf ||| (hw.toUInt32 <<< 21) ||| ((imm &&& 0xFFFF) <<< 5) |||
      rd) = some ⟨op, true, hw, imm.toNat % 2 ^ 16, rd.toNat⟩ := by
  have hi := Nat.mod_lt imm.toNat (show 0 < 2 ^ 16 by decide)
  unfold decodeMoveWide
  rw [toNat_moveWord imm hbase hrd hhw]
  generalize (base ||| Width.w64.sf).toNat = K at hbase hclass hopc hsf
  rw [if_pos (by omega), show (K + hw * 2 ^ 21 + imm.toNat % 2 ^ 16 * 2 ^ 5 + rd.toNat) / 2 ^ 29 % 4 =
    K / 2 ^ 29 % 4 by omega, hopc, Option.bind_some]
  rw [show decide ((K + hw * 2 ^ 21 + imm.toNat % 2 ^ 16 * 2 ^ 5 + rd.toNat) / 2 ^ 31 = 1) = true by
    simp only [decide_eq_true_eq]; omega]
  simp only [Bool.not_true, Bool.false_and, Bool.false_eq_true, if_false, Option.some.injEq,
    MoveWide.mk.injEq, true_and]
  omega

theorem decode_movzWord {rd : UInt32} (imm : UInt32) {hw : Nat} (hrd : rd.toNat < 32)
    (hhw : hw < 4) :
    decodeMoveWide (movzWord .w64 rd imm hw) = some ⟨.movz, true, hw, imm.toNat % 2 ^ 16, rd.toNat⟩ :=
  decode_moveWord imm (by decide) (by decide) (by decide) (by decide) hrd hhw

theorem decode_movkWord {rd : UInt32} (imm : UInt32) {hw : Nat} (hrd : rd.toNat < 32)
    (hhw : hw < 4) :
    decodeMoveWide (movkWord .w64 rd imm hw) = some ⟨.movk, true, hw, imm.toNat % 2 ^ 16, rd.toNat⟩ :=
  decode_moveWord imm (by decide) (by decide) (by decide) (by decide) hrd hhw

theorem decode_movnWord {rd : UInt32} (imm : UInt32) {hw : Nat} (hrd : rd.toNat < 32)
    (hhw : hw < 4) :
    decodeMoveWide (movnWord .w64 rd imm hw) = some ⟨.movn, true, hw, imm.toNat % 2 ^ 16, rd.toNat⟩ :=
  decode_moveWord imm (by decide) (by decide) (by decide) (by decide) hrd hhw

/-! ### Patching the immediate field -/

theorem getElem_toBitVec_eq_false {d : UInt32} (hd : d.toNat < 32) {i : Nat} (hi : i < 32)
    (h5 : 5 ≤ i) : d.toBitVec[i] = false := by
  rw [BitVec.getElem_eq_testBit_toNat]
  exact Nat.testBit_lt_two_pow (lt_of_lt_of_le hd (Nat.pow_le_pow_right (show 0 < 2 by decide) h5))

theorem withImm16_and_not (word imm : UInt32) :
    withImm16 word imm &&& ~~~((0xFFFF : UInt32) <<< 5) = word &&& ~~~((0xFFFF : UInt32) <<< 5) := by
  apply UInt32.toBitVec_inj.mp
  ext i hi
  simp only [withImm16, UInt32.toBitVec_and, UInt32.toBitVec_or, UInt32.toBitVec_not,
    UInt32.toBitVec_shiftLeft, BitVec.getElem_and, BitVec.getElem_or, BitVec.getElem_not]
  interval_cases i <;> simp

theorem withImm16_movzWord {d : UInt32} (hd : d.toNat < 32) (hw : Nat) (imm : UInt32) :
    withImm16 (movzWord .w64 d 0 hw) imm = movzWord .w64 d imm hw := by
  apply UInt32.toBitVec_inj.mp
  ext i hi
  simp [withImm16, movzWord, Width.sf]
  interval_cases i <;> simp [getElem_toBitVec_eq_false hd]

theorem withImm16_movkWord {d : UInt32} (hd : d.toNat < 32) (hw : Nat) (imm : UInt32) :
    withImm16 (movkWord .w64 d 0 hw) imm = movkWord .w64 d imm hw := by
  apply UInt32.toBitVec_inj.mp
  ext i hi
  simp [withImm16, movkWord, Width.sf]
  interval_cases i <;> simp [getElem_toBitVec_eq_false hd]

/-! ### Running words -/

theorem runMoveWide_cons {w : UInt32} {i : MoveWide} (h : decodeMoveWide w = some i)
    (ws : List UInt32) (x : GpFile) : runMoveWide (w :: ws) x = runMoveWide ws (i.exec x) := by
  rw [runMoveWide, h, Option.bind_some]

theorem exec_of_lt {i : MoveWide} (hrd : i.rd < 31) (x : GpFile) :
    i.exec x = Function.update x i.rd (i.result (x i.rd)) := by
  rw [MoveWide.exec, GpFile.read, GpFile.write, if_pos hrd, if_pos hrd]

theorem run_movks {rd : UInt32} (hrd : rd.toNat < 31) (L : List (UInt32 × Nat))
    (hnd : (L.map (·.2)).Nodup) (hL : ∀ p ∈ L, p.1.toNat < 2 ^ 16 ∧ p.2 < 4) (x : GpFile) :
    ∃ y, runMoveWide (L.map fun p => movkWord .w64 rd p.1 p.2) x = some y ∧
      (∀ r, r ≠ rd.toNat → y r = x r) ∧
      (∀ j h, (h, j) ∈ L → half (y rd.toNat) j = h.toNat) ∧
      (∀ j < 4, (∀ h, (h, j) ∉ L) → half (y rd.toNat) j = half (x rd.toNat) j) := by
  induction L generalizing x with
  | nil => exact ⟨x, rfl, fun _ _ => rfl, fun _ _ h => absurd h List.not_mem_nil,
      fun _ _ _ => rfl⟩
  | cons p L ih =>
    obtain ⟨hp, hp4⟩ := hL p List.mem_cons_self
    rw [List.map_cons, List.nodup_cons] at hnd
    set x₁ := Function.update x rd.toNat
      (MoveWide.result ⟨.movk, true, p.2, p.1.toNat % 2 ^ 16, rd.toNat⟩ (x rd.toNat)) with hx₁
    have hrun : runMoveWide ((p :: L).map fun p => movkWord .w64 rd p.1 p.2) x =
        runMoveWide (L.map fun p => movkWord .w64 rd p.1 p.2) x₁ := by
      rw [List.map_cons, runMoveWide_cons (decode_movkWord p.1 (by omega) hp4), exec_of_lt hrd]
    have hhalf : ∀ j < 4, half (x₁ rd.toNat) j = if j = p.2 then p.1.toNat else half (x rd.toNat) j := by
      intro j hj
      rw [hx₁, Function.update_self, half_movk (Nat.mod_lt _ (by decide)) hp4 hj,
        Nat.mod_eq_of_lt hp]
    obtain ⟨y, hy, hframe, hset, hkeep⟩ := ih hnd.2 (fun q hq => hL q (List.mem_cons_of_mem _ hq)) x₁
    refine ⟨y, hrun.trans hy, fun r hr => ?_, fun j h hm => ?_, fun j hj hn => ?_⟩
    · rw [hframe r hr, hx₁, Function.update_of_ne hr]
    · rcases List.mem_cons.mp hm with rfl | hm
      · -- the halfword of the first word is set by no later word
        have hnot : ∀ h', (h', j) ∉ L := fun h' hm' => hnd.1 (List.mem_map.mpr ⟨_, hm', rfl⟩)
        rw [hkeep j (hL _ List.mem_cons_self).2 hnot, hhalf j (hL _ List.mem_cons_self).2, if_pos rfl]
      · exact hset j h hm
    · have hne : j ≠ p.2 := fun he => hn p.1 (by rw [he]; exact List.mem_cons_self)
      rw [hkeep j hj fun h hm => hn h (List.mem_cons_of_mem _ hm), hhalf j hj, if_neg hne]

/-! ### The halfwords the encoder reads -/

def countHalves (v : UInt64) (c : Nat) : Nat := (List.range 4).countP fun j => half v j = c

theorem length_halves (v : UInt64) : (halves v).length = 4 := by
  simp [halves]

theorem toNat_getElem_halves (v : UInt64) {j : Nat} (hj : j < (halves v).length) :
    (halves v)[j].toNat = half v j := by
  have hj4 : j < 4 := by rwa [length_halves] at hj
  simp only [halves, List.getElem_map, List.getElem_range, UInt64.toNat_toUInt32,
    UInt64.toNat_and, UInt64.toNat_shiftRight]
  rw [Nat.toUInt64_eq, UInt64.toNat_ofNat', Nat.mod_eq_of_lt (show 16 * j < 2 ^ 64 by omega),
    Nat.mod_eq_of_lt (show 16 * j < 64 by omega), Nat.shiftRight_eq_div_pow,
    show (0xFFFF : UInt64).toNat = 2 ^ 16 - 1 from rfl, Nat.and_two_pow_sub_one_eq_mod, half]
  exact Nat.mod_eq_of_lt (lt_trans (Nat.mod_lt _ (by decide)) (by decide))

theorem countP_halves (v : UInt64) (c : UInt32) :
    (halves v).countP (· == c) = countHalves v c.toNat := by
  rw [countHalves, halves, List.countP_map]
  refine List.countP_congr fun j hj => ?_
  have hj4 : j < (halves v).length := by rw [length_halves]; exact List.mem_range.mp hj
  have := toNat_getElem_halves v hj4
  simp only [halves, List.getElem_map, List.getElem_range] at this
  simp only [Function.comp, beq_iff_eq, decide_eq_true_eq, ← this]
  exact ⟨fun h => by rw [h], fun h => UInt32.toNat_inj.mp h⟩

section Lists

variable {α : Type}

theorem mem_drop_zipIdx {l : List α} {k : Nat} {x : α × Nat} :
    x ∈ l.zipIdx.drop k ↔ k ≤ x.2 ∧ l[x.2]? = some x.1 := by
  rw [List.mem_iff_getElem]
  constructor
  · rintro ⟨i, hi, rfl⟩
    simp only [List.length_drop, List.length_zipIdx] at hi
    rw [List.getElem_drop, List.getElem_zipIdx]
    exact ⟨by omega, by simp⟩
  · rintro ⟨hk, hx⟩
    obtain ⟨hlt, heq⟩ := List.getElem?_eq_some_iff.mp hx
    refine ⟨x.2 - k, by simp only [List.length_drop, List.length_zipIdx]; omega, ?_⟩
    rw [List.getElem_drop, List.getElem_zipIdx]
    have hk' : k + (x.2 - k) = x.2 := by omega
    simp only [hk', Nat.zero_add, heq]

theorem length_filter_drop_zipIdx (l : List α) (k : Nat) (p : α → Bool) :
    ((l.zipIdx.drop k).filter fun q => p q.1).length = (l.drop k).countP p := by
  have hfst : (l.zipIdx.drop k).map Prod.fst = l.drop k := by
    rw [List.map_drop, List.zipIdx_map_fst]
  rw [← List.countP_eq_length_filter, ← hfst, List.countP_map]
  rfl

end Lists

theorem firstIndex_lt {xs : List UInt32} (hne : xs ≠ []) (p : UInt32 → Bool) :
    firstIndex xs p < xs.length := by
  unfold firstIndex
  cases h : xs.findIdx? p with
  | none => exact List.length_pos_iff.mpr hne
  | some f => exact (List.findIdx?_eq_some_iff_getElem.mp h).1

theorem not_of_lt_firstIndex {xs : List UInt32} {p : UInt32 → Bool} {j : Nat}
    (hj : j < firstIndex xs p) (hjl : j < xs.length) : p xs[j] = false := by
  unfold firstIndex at hj
  cases h : xs.findIdx? p with
  | none => rw [h] at hj; exact absurd hj (Nat.not_lt_zero j)
  | some f =>
    rw [h] at hj
    obtain ⟨hf, -, hbefore⟩ := List.findIdx?_eq_some_iff_getElem.mp h
    simpa using hbefore j hj

theorem countP_after_firstIndex {xs : List UInt32} (p : UInt32 → Bool) :
    1 + (xs.drop (firstIndex xs p + 1)).countP p = max 1 (xs.countP p) := by
  cases h : xs.findIdx? p with
  | none =>
    have hall := List.findIdx?_eq_none_iff.mp h
    have h0 : xs.countP p = 0 := List.countP_eq_zero.mpr fun a ha => by simp [hall a ha]
    have h0' : (xs.drop (firstIndex xs p + 1)).countP p = 0 :=
      List.countP_eq_zero.mpr fun a ha => by simp [hall a (List.mem_of_mem_drop ha)]
    rw [h0, h0']
    rfl
  | some f =>
    obtain ⟨hf, hpf, hbefore⟩ := List.findIdx?_eq_some_iff_getElem.mp h
    have hfirst : firstIndex xs p = f := by simp [firstIndex, h]
    have htake : (xs.take f).countP p = 0 := by
      refine List.countP_eq_zero.mpr fun a ha => ?_
      obtain ⟨j, hj, rfl⟩ := List.mem_take_iff_getElem.mp ha
      exact hbefore j (by omega)
    have hsplit : xs.countP p = (xs.take f).countP p + 1 + (xs.drop (f + 1)).countP p := by
      conv_lhs => rw [← List.take_append_drop (f + 1) xs]
      rw [List.countP_append, List.take_add_one, List.countP_append, List.getElem?_eq_getElem hf]
      simp [hpf]
    rw [hfirst]
    omega

theorem run_after_first {rd : UInt32} (hrd : rd.toNat < 31) (v : UInt64) (c : UInt32) {f : Nat}
    (hbelow : ∀ j < f, half v j = c.toNat) (x₁ : GpFile)
    (hx₁ : ∀ j < 4, half (x₁ rd.toNat) j = if j = f then half v f else c.toNat) :
    runMoveWide ((((halves v).zipIdx.drop (f + 1)).filter (·.1 != c)).map
      fun p => movkWord .w64 rd p.1 p.2) x₁ = some (Function.update x₁ rd.toNat v) := by
  set L := ((halves v).zipIdx.drop (f + 1)).filter (·.1 != c) with hLdef
  have hmem : ∀ h j, (h, j) ∈ L ↔ f + 1 ≤ j ∧ (halves v)[j]? = some h ∧ h ≠ c := by
    intro h j
    simp only [hLdef, List.mem_filter, mem_drop_zipIdx, bne_iff_ne, ne_eq]
    tauto
  have hnd : (L.map (·.2)).Nodup := by
    refine List.Nodup.sublist ((List.filter_sublist.trans (List.drop_sublist _ _)).map _) ?_
    rw [List.zipIdx_map_snd]
    exact List.nodup_range'
  have hL : ∀ p ∈ L, p.1.toNat < 2 ^ 16 ∧ p.2 < 4 := by
    rintro ⟨h, j⟩ hp
    obtain ⟨-, hj, -⟩ := (hmem h j).mp hp
    obtain ⟨hlt, rfl⟩ := List.getElem?_eq_some_iff.mp hj
    refine ⟨toNat_getElem_halves v hlt ▸ half_lt v j, ?_⟩
    rwa [length_halves] at hlt
  obtain ⟨y, hy, hframe, hset, hkeep⟩ := run_movks hrd L hnd hL x₁
  rw [hy]
  congr 1
  funext r
  by_cases hr : r = rd.toNat
  · subst hr
    rw [Function.update_self]
    refine eq_of_half fun j hj => ?_
    have hjl : j < (halves v).length := by rw [length_halves]; exact hj
    by_cases hjL : ∃ h, (h, j) ∈ L
    · -- a halfword a `movk` word sets
      obtain ⟨h, hm⟩ := hjL
      obtain ⟨-, hget, -⟩ := (hmem h j).mp hm
      rw [hset j h hm, ← toNat_getElem_halves v hjl, List.getElem?_eq_getElem hjl] at *
      exact congrArg UInt32.toNat (Option.some.inj hget).symm
    · -- a halfword no `movk` word sets: the first word's, or the filler
      simp only [not_exists] at hjL
      rw [hkeep j hj hjL, hx₁ j hj]
      split
      · rename_i he
        rw [he]
      · rename_i hne
        rcases Nat.lt_or_gt_of_ne hne with hlt | hgt
        · exact (hbelow j hlt).symm
        · by_contra hc
          refine hjL (halves v)[j] ((hmem _ j).mpr ⟨hgt, List.getElem?_eq_getElem hjl, fun he => ?_⟩)
          exact hc (by rw [← toNat_getElem_halves v hjl, he])
  · rw [hframe r hr, Function.update_of_ne hr]

/-! ### Loading a constant -/

theorem run_movImmWords {rd : UInt32} (hrd : rd.toNat < 31) (v : UInt64) (x : GpFile) :
    runMoveWide (movImmWords rd v) x = some (Function.update x rd.toNat v) := by
  have hne : halves v ≠ [] := by simp [halves]
  unfold movImmWords
  simp only
  split
  · -- more halfwords are all ones: `movn` writes the inverse of the first other halfword
    have hfl := firstIndex_lt hne (· != 0xFFFF)
    have hf : firstIndex (halves v) (· != 0xFFFF) < 4 := by rwa [length_halves] at hfl
    have hh := toNat_getElem_halves v hfl
    rw [runMoveWide_cons (decode_movnWord _ (by omega) hf), exec_of_lt hrd]
    refine (run_after_first hrd v 0xFFFF (fun j hj => ?_) _ fun j hj => ?_).trans ?_
    · have hjl : j < (halves v).length := by omega
      have hj' : (halves v)[j] = 0xFFFF := by simpa using not_of_lt_firstIndex hj hjl
      rw [← toNat_getElem_halves v hjl, hj']
    · rw [Function.update_self, half_movn (Nat.mod_lt _ (by decide)) hf hj]
      split
      · -- the inverse of the inverted halfword
        rename_i he
        subst he
        have hlt := hh ▸ half_lt v _
        rw [List.getD_eq_getElem?_getD, List.getElem?_eq_getElem hfl, Option.getD_some, ← hh, UInt32.toNat_and, UInt32.toNat_not,
          show (0xFFFF : UInt32).toNat = 2 ^ 16 - 1 from rfl, Nat.and_two_pow_sub_one_eq_mod]
        simp only [UInt32.size]
        omega
      · rfl
    · rw [Function.update_idem]
  · -- `movz` writes the first halfword that is not zero
    have hfl := firstIndex_lt hne (· != 0)
    have hf : firstIndex (halves v) (· != 0) < 4 := by rwa [length_halves] at hfl
    have hh := toNat_getElem_halves v hfl
    rw [runMoveWide_cons (decode_movzWord _ (by omega) hf), exec_of_lt hrd]
    refine (run_after_first hrd v 0 (fun j hj => ?_) _ fun j hj => ?_).trans ?_
    · have hjl : j < (halves v).length := by omega
      have hj' : (halves v)[j] = 0 := by simpa using not_of_lt_firstIndex hj hjl
      rw [← toNat_getElem_halves v hjl, hj']
    · rw [Function.update_self, half_movz (Nat.mod_lt _ (by decide)) hf hj]
      split
      · rename_i he
        subst he
        rw [List.getD_eq_getElem?_getD, List.getElem?_eq_getElem hfl, Option.getD_some, ← hh]
        exact Nat.mod_eq_of_lt (hh ▸ half_lt v _)
      · rfl
    · rw [Function.update_idem]

theorem length_movImmWords (rd : UInt32) (v : UInt64) :
    (movImmWords rd v).length = max 1 (4 - max (countHalves v 0) (countHalves v 0xFFFF)) := by
  have hsplit : ∀ c : UInt32, (halves v).countP (· != c) = 4 - countHalves v c.toNat := by
    intro c
    have hl := List.length_eq_countP_add_countP (· == c) (l := halves v)
    have hc : (halves v).countP (· != c) =
        (halves v).countP (fun a => decide ¬(a == c) = true) := List.countP_congr (by simp)
    rw [length_halves, countP_halves] at hl
    omega
  have hz := countP_halves v 0
  have ho := countP_halves v 0xFFFF
  unfold movImmWords
  simp only [← List.countP_eq_length_filter, hz, ho]
  split
  · rename_i hgt
    rw [List.length_cons, List.length_map, length_filter_drop_zipIdx (p := fun h => h != 0xFFFF),
      Nat.add_comm, countP_after_firstIndex, hsplit]
    simp only [UInt32.reduceToNat] at hgt ⊢
    congr 2
    omega
  · rename_i hle
    rw [List.length_cons, List.length_map, length_filter_drop_zipIdx (p := fun h => h != 0),
      Nat.add_comm, countP_after_firstIndex, hsplit]
    simp only [UInt32.reduceToNat] at hle ⊢
    congr 2
    omega

/-! ### What the encoder emits -/

theorem run_bind_of_ok {β γ : Type} {m : EncM β} {f : β → EncM γ} {e e' : Encoder} {y : β}
    (h : m.run e = .ok (y, e')) : (m >>= f).run e = (f y).run e' := by
  show (m e >>= fun p => f p.1 p.2) = _
  rw [show m e = .ok (y, e') from h]
  rfl

theorem run_gp {n : UInt8} (hn : n.toNat < 32) (op : String) (e : Encoder) :
    (Enc.gp op (.gp n)).run e = .ok (n.toUInt32, e) := by
  have hle : ¬ n > 31 := by
    rw [gt_iff_lt, UInt8.lt_iff_toNat_lt]
    simp only [UInt8.reduceToNat]
    omega
  simp [Enc.gp, Reg.gp, hle]
  rfl

theorem run_emit (w : UInt32) (e : Encoder) :
    (Enc.emit w).run e = .ok ((), { e with words := e.words.push w }) := rfl

theorem run_emitAll (ws : List UInt32) (e : Encoder) :
    (Enc.emitAll ws).run e = .ok ((), { e with words := e.words ++ ws.toArray }) := by
  induction ws generalizing e with
  | nil => simp [Enc.emitAll]; rfl
  | cons w ws ih =>
    have hcons : Enc.emitAll (w :: ws) = Enc.emit w >>= fun _ => Enc.emitAll ws := rfl
    rw [hcons, run_bind_of_ok (run_emit w e), ih]
    simp

theorem run_movImm {n : UInt8} (hn : n.toNat < 32) (v : UInt64) (e : Encoder) :
    (Enc.movImm (.gp n) v).run e =
      .ok ((), { e with words := e.words ++ (movImmWords n.toUInt32 v).toArray }) := by
  rw [Enc.movImm, run_bind_of_ok (run_gp hn _ e)]
  exact run_emitAll _ e

theorem run_movImm32Patchable {n : UInt8} (hn : n.toNat < 32) (e : Encoder) :
    (Enc.movImm32Patchable (.gp n)).run e = .ok (e.words.size, { e with
      words := e.words ++ #[movzWord .w64 n.toUInt32 0 0, movkWord .w64 n.toUInt32 0 1] }) := by
  rw [Enc.movImm32Patchable, run_bind_of_ok (run_gp hn _ e),
    run_bind_of_ok (show Enc.position.run e = .ok (e.words.size, e) from rfl),
    run_bind_of_ok (run_emit _ e), run_bind_of_ok (run_emit _ _)]
  show Except.ok (e.words.size, { e with words := (e.words.push _).push _ }) = _
  rw [Array.push_eq_append, Array.push_eq_append, Array.append_assoc]
  rfl

theorem run_patchImm32 (pre more : Array UInt32) (a b v : UInt32) (e : Encoder)
    (he : e.words = pre ++ #[a, b] ++ more) :
    (Enc.patchImm32 pre.size v).run e = .ok ((), { e with
      words := pre ++ #[withImm16 a (v &&& 0xFFFF), withImm16 b (v >>> 16)] ++ more }) := by
  have hsize : 1 < 2 + more.size := by omega
  show Except.ok ((), _) = _
  simp only [he, Except.ok.injEq, Prod.mk.injEq, true_and]
  congr 1
  apply Array.ext'
  simp [Array.set!_eq_setIfInBounds, Array.getD, hsize]

/-! ### The patched pair -/

theorem toNat_and_lowMask (w : UInt32) : (w &&& 0xFFFF).toNat % 2 ^ 16 = w.toNat % 2 ^ 16 := by
  rw [UInt32.toNat_and, show (0xFFFF : UInt32).toNat = 2 ^ 16 - 1 from rfl,
    Nat.and_two_pow_sub_one_eq_mod, Nat.mod_mod]

theorem toNat_shiftRight_sixteen (w : UInt32) : (w >>> 16).toNat % 2 ^ 16 = w.toNat / 2 ^ 16 := by
  have hw := w.toNat_lt
  rw [UInt32.toNat_shiftRight, show (16 : UInt32).toNat % 32 = 16 from rfl, Nat.shiftRight_eq_div_pow]
  omega

theorem run_movzMovk {rd : UInt32} (hrd : rd.toNat < 31) (w : UInt32) (x : GpFile) :
    runMoveWide [movzWord .w64 rd (w &&& 0xFFFF) 0, movkWord .w64 rd (w >>> 16) 1] x =
      some (Function.update x rd.toNat w.toUInt64) := by
  rw [runMoveWide_cons (decode_movzWord _ (by omega) (by decide)),
    runMoveWide_cons (decode_movkWord _ (by omega) (by decide)), runMoveWide,
    exec_of_lt hrd, exec_of_lt hrd]
  simp only [Function.update_self, Function.update_idem, toNat_and_lowMask, toNat_shiftRight_sixteen]
  congr 2
  have hw := w.toNat_lt
  apply eq_of_half
  intro j hj
  rw [half_movk (by omega) (by decide) hj, half_movz (by omega) (by decide) hj]
  have hv : w.toUInt64.toNat = w.toNat := UInt32.toNat_toUInt64 w
  interval_cases j <;> simp [half, hv] <;> omega

/-! ### Loading through the encoder -/

/-- Loading a constant into x0 to x30 emits words that leave it in the register, each other
register as it was, and count four less the halfwords equal to the filler, one at least; the
patchable pair, patched with a 32-bit value wherever the buffer has grown since, is a `movz` and
a `movk` of its halves that load the value, and differs from the pair first emitted in the
immediate fields only. -/
theorem move_wide_loads {n : UInt8} (hn : n.toNat < 31) (e : Encoder) (x : GpFile) :
    (∀ v : UInt64, ∃ ws : List UInt32,
      (Enc.movImm (.gp n) v).run e = .ok ((), { e with words := e.words ++ ws.toArray }) ∧
      runMoveWide ws x = some (Function.update x n.toNat v) ∧
      ws.length = max 1 (4 - max (countHalves v 0) (countHalves v 0xFFFF))) ∧
    ∃ a b : UInt32, (Enc.movImm32Patchable (.gp n)).run e =
        .ok (e.words.size, { e with words := e.words ++ #[a, b] }) ∧
      ∀ (w : UInt32) (e' : Encoder) (more : Array UInt32), e'.words = e.words ++ #[a, b] ++ more →
        ∃ a' b' : UInt32, (Enc.patchImm32 e.words.size w).run e' =
            .ok ((), { e' with words := e.words ++ #[a', b'] ++ more }) ∧
          decodeMoveWide a' = some ⟨.movz, true, 0, w.toNat % 2 ^ 16, n.toNat⟩ ∧
          decodeMoveWide b' = some ⟨.movk, true, 1, w.toNat / 2 ^ 16, n.toNat⟩ ∧
          runMoveWide [a', b'] x = some (Function.update x n.toNat w.toUInt64) ∧
          a' &&& ~~~((0xFFFF : UInt32) <<< 5) = a &&& ~~~((0xFFFF : UInt32) <<< 5) ∧
          b' &&& ~~~((0xFFFF : UInt32) <<< 5) = b &&& ~~~((0xFFFF : UInt32) <<< 5) := by
  have hd : n.toUInt32.toNat = n.toNat := UInt8.toNat_toUInt32 n
  have hd31 : n.toUInt32.toNat < 31 := hd ▸ hn
  refine ⟨fun v => ⟨movImmWords n.toUInt32 v, run_movImm (by omega) v e, ?_, ?_⟩,
    movzWord .w64 n.toUInt32 0 0, movkWord .w64 n.toUInt32 0 1, run_movImm32Patchable (by omega) e,
    fun w e' more he => ?_⟩
  · rw [run_movImmWords hd31, hd]
  · exact length_movImmWords _ v
  · -- the patch rewrites the zero immediates of the pair into the halves of `w`
    refine ⟨movzWord .w64 n.toUInt32 (w &&& 0xFFFF) 0, movkWord .w64 n.toUInt32 (w >>> 16) 1,
      ?_, ?_, ?_, ?_, ?_, ?_⟩
    · rw [run_patchImm32 e.words more _ _ w e' he, withImm16_movzWord (by omega),
        withImm16_movkWord (by omega)]
    · rw [decode_movzWord _ (by omega) (by decide), toNat_and_lowMask, hd]
    · rw [decode_movkWord _ (by omega) (by decide), toNat_shiftRight_sixteen, hd]
    · rw [run_movzMovk hd31, hd]
    · rw [← withImm16_movzWord (by omega), withImm16_and_not]
    · rw [← withImm16_movkWord (by omega), withImm16_and_not]

/-- Three halfwords all ones: one `movn` loads the constant into x7. -/
theorem move_wide_loads_single_movn :
    (7 : UInt8).toNat < 31 ∧ ∃ ws : List UInt32,
      (Enc.movImm (.gp 7) 0xFFFFFFFF1234FFFF).run {} = .ok ((), { words := ws.toArray }) ∧
      runMoveWide ws (fun _ => 0) = some (Function.update (fun _ => 0) 7 0xFFFFFFFF1234FFFF) ∧
      ws.length = 1 := by
  obtain ⟨ws, hrun, hexec, hlen⟩ :=
    (move_wide_loads (n := 7) (by decide) {} (fun _ => 0)).1 0xFFFFFFFF1234FFFF
  refine ⟨by decide, ws, ?_, hexec, ?_⟩
  · rw [hrun, show ({} : Encoder).words = #[] from rfl, Array.empty_append]
  · rw [hlen]
    decide

end OnePassJit.Arm64
