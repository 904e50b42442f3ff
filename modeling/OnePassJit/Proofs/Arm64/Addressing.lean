import OnePassJit.Proofs.Arm64.MoveWide

/-!
Loads and stores at an offset, and additions of an immediate.

A load or store of one register adds an offset to its base register in one of three forms: an
unsigned 12-bit immediate in units of the access size, a signed 9-bit immediate in bytes, or an
index register. `decodeMemAccess` reads the three forms and `MemAccess.address` is the address
the access uses. `Enc.memory` picks the first form that holds the offset (`memoryMode`) and
otherwise loads the offset into x16 with move wide words and indexes by it; the address is the
base plus the offset modulo 2^64 in every form (`memory_addresses`). A base of x16 cannot be
indexed by x16 holding the offset, and that is the one error.

An add or subtract of an immediate is likewise one word with a 12-bit immediate, one shifted by
12, or x16 loaded with the immediate and added as a register (`decodeAddSub`, `AddSub.exec`).
The value it reads as the first source is that of its register after the move wide words, so a
first source of x16 in the last form reads the immediate itself (`addSubImm_adds`), and x16
belongs to the encoder.
-/

namespace OnePassJit.Arm64

/-! ### Words as sums of their fields -/

section Fields

variable {a f s : UInt32}

theorem toNat_or_shiftLeft {k w : Nat} (hs : s.toNat = k) (hk : k < 32) (hw : k + w ≤ 32)
    (ha : a.toNat % 2 ^ (k + w) = 0) (hf : f.toNat < 2 ^ w) :
    (a ||| f <<< s).toNat = a.toNat + f.toNat * 2 ^ k := by
  have hlt : f.toNat * 2 ^ k < 2 ^ (k + w) := by
    rw [Nat.pow_add, Nat.mul_comm (2 ^ k)]
    exact Nat.mul_lt_mul_of_pos_right hf (Nat.two_pow_pos _)
  have hfit : f.toNat * 2 ^ k < 2 ^ 32 := lt_of_lt_of_le hlt (Nat.pow_le_pow_right (by decide) hw)
  rw [UInt32.toNat_or, UInt32.toNat_shiftLeft, Nat.shiftLeft_eq, hs, Nat.mod_eq_of_lt hk,
    Nat.mod_eq_of_lt hfit]
  exact lor_eq_add ha hlt

theorem toNat_or_low (ha : a.toNat % 2 ^ 5 = 0) (hf : f.toNat < 2 ^ 5) :
    (a ||| f).toNat = a.toNat + f.toNat := by
  rw [UInt32.toNat_or]
  exact lor_eq_add ha hf

theorem toNat_regsWord {n r : UInt32} (ha : a.toNat % 2 ^ 10 = 0) (hn : n.toNat < 32)
    (hr : r.toNat < 32) : (a ||| n <<< 5 ||| r).toNat = a.toNat + n.toNat * 2 ^ 5 + r.toNat := by
  have h : (a ||| n <<< 5).toNat = a.toNat + n.toNat * 2 ^ 5 :=
    toNat_or_shiftLeft (k := 5) (w := 5) rfl (by decide) (by decide) ha hn
  rw [toNat_or_low (by rw [h]; omega) hr, h]

theorem toNat_imm12Word {n r : UInt32} (ha : a.toNat % 2 ^ 22 = 0) (hf : f.toNat < 2 ^ 12)
    (hn : n.toNat < 32) (hr : r.toNat < 32) :
    (a ||| f <<< 10 ||| n <<< 5 ||| r).toNat =
      a.toNat + f.toNat * 2 ^ 10 + n.toNat * 2 ^ 5 + r.toNat := by
  have h : (a ||| f <<< 10).toNat = a.toNat + f.toNat * 2 ^ 10 :=
    toNat_or_shiftLeft (k := 10) (w := 12) rfl (by decide) (by decide) ha hf
  rw [toNat_regsWord (by rw [h]; omega) hn hr, h]

theorem toNat_and_not_add (x m : UInt32) : (x &&& ~~~m).toNat + (x &&& m).toNat = x.toNat := by
  have hdisj : (x &&& ~~~m).toBitVec &&& (x &&& m).toBitVec = 0#32 := by
    ext i hi
    simp only [UInt32.toBitVec_and, UInt32.toBitVec_not, BitVec.getElem_and, BitVec.getElem_not,
      BitVec.getElem_zero]
    cases x.toBitVec[i] <;> cases m.toBitVec[i] <;> rfl
  have hsum : (x &&& ~~~m).toBitVec + (x &&& m).toBitVec = x.toBitVec := by
    rw [BitVec.add_eq_or_of_and_eq_zero _ _ hdisj]
    ext i hi
    simp only [UInt32.toBitVec_and, UInt32.toBitVec_not, BitVec.getElem_or, BitVec.getElem_and,
      BitVec.getElem_not]
    cases x.toBitVec[i] <;> cases m.toBitVec[i] <;> rfl
  have h := BitVec.toNat_add_of_and_eq_zero hdisj
  rw [hsum] at h
  exact h.symm

theorem toNat_and_not_bit {x b : UInt32} (hb : b.toNat < 32) (h : x.toNat / 2 ^ b.toNat % 2 = 1) :
    (x &&& ~~~((1 : UInt32) <<< b)).toNat = x.toNat - 2 ^ b.toNat := by
  have hbit : (x &&& (1 : UInt32) <<< b).toNat = 2 ^ b.toNat := by
    have hone : ((1 : UInt32) <<< b).toNat = 2 ^ b.toNat := by
      rw [UInt32.toNat_shiftLeft, Nat.mod_eq_of_lt hb, UInt32.toNat_one, Nat.one_shiftLeft,
        Nat.mod_eq_of_lt (Nat.pow_lt_pow_right (by decide) hb)]
    rw [UInt32.toNat_and, hone]
    apply Nat.eq_of_testBit_eq
    intro j
    rw [Nat.testBit_and, Nat.testBit_two_pow]
    by_cases hj : b.toNat = j
    · subst hj
      simpa [Nat.testBit, Nat.shiftRight_eq_div_pow] using h
    · simp [hj]
  have := toNat_and_not_add x ((1 : UInt32) <<< b)
  omega

end Fields

/-! ### Loads and stores -/

/-- How a load or store adds an offset to its base register. -/
inductive AddrMode where
  /-- An unsigned 12-bit immediate, in units of the access size. -/
  | scaled (imm : Nat)
  /-- A signed 9-bit immediate, in bytes. -/
  | unscaled (imm : Int)
  /-- An index register, shifted left by `shift` bits. -/
  | indexed (rm shift : Nat)
  deriving DecidableEq, Repr

/-- A decoded load or store of one register: the access (`op`, the bits `size:V:opc` that
select load or store, the bytes moved, the extension and the register bank), its addressing,
and its base and transfer register numbers. -/
structure MemAccess where
  op : Nat
  mode : AddrMode
  rn : Nat
  rt : Nat
  deriving DecidableEq, Repr

def accessOp (n : Nat) : Nat := n / 2 ^ 30 * 8 + n / 2 ^ 26 % 2 * 4 + n / 2 ^ 22 % 4

def accessScale (op : Nat) : Nat := op / 8 + if op / 4 % 2 = 1 then op / 2 % 2 * 4 else 0

def signedOf (bits v : Nat) : Int := if v < 2 ^ (bits - 1) then v else (v : Int) - 2 ^ bits

/-- Decode a load or store of one register (bits 27 to 29 are `111`). Bits 24 and 25 are `01`
in the unsigned offset form, with `imm12` in bits 10 to 21. They are `00` in the other two:
with bit 21 clear and bits 10 and 11 clear it is the unscaled form, `imm9` in bits 12 to 20;
with bit 21 set, bits 10 and 11 `10` and `option` `011` in bits 13 to 15 it is the register
offset form, `Rm` in bits 16 to 20 and `S` in bit 12 shifting the index by the access size.
`Rn` is in bits 5 to 9 and `Rt` in bits 0 to 4. -/
def decodeMemAccess (w : UInt32) : Option MemAccess :=
  let n := w.toNat
  let op := accessOp n
  if n / 2 ^ 27 % 8 = 0b111 ∧ n / 2 ^ 24 % 4 = 1 then
    some ⟨op, .scaled (n / 2 ^ 10 % 2 ^ 12), n / 2 ^ 5 % 32, n % 32⟩
  else if n / 2 ^ 27 % 8 = 0b111 ∧ n / 2 ^ 24 % 4 = 0 ∧ n / 2 ^ 21 % 2 = 0 ∧
      n / 2 ^ 10 % 4 = 0 then
    some ⟨op, .unscaled (signedOf 9 (n / 2 ^ 12 % 2 ^ 9)), n / 2 ^ 5 % 32, n % 32⟩
  else if n / 2 ^ 27 % 8 = 0b111 ∧ n / 2 ^ 24 % 4 = 0 ∧ n / 2 ^ 21 % 2 = 1 ∧
      n / 2 ^ 10 % 4 = 2 ∧ n / 2 ^ 13 % 8 = 0b011 then
    some ⟨op, .indexed (n / 2 ^ 16 % 32) (if n / 2 ^ 12 % 2 = 1 then accessScale op else 0),
      n / 2 ^ 5 % 32, n % 32⟩
  else none

/-- The address an access reads or writes: its base register plus the offset, modulo 2^64. A
base of number 31 is the stack pointer, which `x 31` stands for here; an index of number 31 is
the zero register. -/
def MemAccess.address (a : MemAccess) (x : GpFile) : UInt64 :=
  x a.rn + match a.mode with
    | .scaled imm => UInt64.ofNat (imm * 2 ^ accessScale a.op)
    | .unscaled imm => UInt64.ofInt imm
    | .indexed rm shift => x.read rm * UInt64.ofNat (2 ^ shift)

/-- An unsigned offset load or store opcode that moves `size` bytes, its operand fields
clear. -/
structure AccessOpcode (opcode : UInt32) (size : Nat) : Prop where
  loadStore : opcode.toNat / 2 ^ 27 % 8 = 0b111
  unsigned : opcode.toNat / 2 ^ 24 % 4 = 1
  clear : opcode.toNat % 2 ^ 22 = 0
  size_eq : size = 2 ^ accessScale (accessOp opcode.toNat)

theorem LoadKind.accessOpcode (k : LoadKind) : AccessOpcode k.opcode k.size := by
  cases k <;> exact ⟨by decide, by decide, by decide, by decide⟩

theorem accessOpcode_store {bytes : Nat} (h : bytes = 1 ∨ bytes = 2 ∨ bytes = 4 ∨ bytes = 8) :
    AccessOpcode (storeOpcode bytes) bytes := by
  rcases h with rfl | rfl | rfl | rfl <;> exact ⟨by decide, by decide, by decide, by decide⟩

theorem accessOpcode_vectorLoad {bytes : Nat} (h : bytes = 4 ∨ bytes = 8 ∨ bytes = 16) :
    AccessOpcode (vectorLoadOpcode bytes) bytes := by
  rcases h with rfl | rfl | rfl <;> exact ⟨by decide, by decide, by decide, by decide⟩

theorem accessOpcode_vectorStore {bytes : Nat} (h : bytes = 4 ∨ bytes = 8 ∨ bytes = 16) :
    AccessOpcode (vectorStoreOpcode bytes) bytes := by
  rcases h with rfl | rfl | rfl <;> exact ⟨by decide, by decide, by decide, by decide⟩

/-- The form `Enc.memory` puts an offset in, for an access of `size` bytes: the unsigned
offset when the offset is a multiple of the size below 4096 units, else the signed 9-bit
offset when it fits, else x16 as the index. -/
def memoryMode (size : Nat) (offset : Int) : AddrMode :=
  if 0 ≤ offset ∧ offset % size = 0 ∧ offset / size < 4096 then .scaled (offset / size).toNat
  else if -256 ≤ offset ∧ offset < 256 then .unscaled offset
  else .indexed 16 0

/-! ### The words of a load or store -/

section AccessWords

variable {opcode n rt : UInt32} {size : Nat}

theorem AccessOpcode.toNat_unscaledForm (hop : AccessOpcode opcode size) :
    (unscaledForm opcode).toNat = opcode.toNat - 2 ^ 24 :=
  toNat_and_not_bit (b := 24) (by decide) (by have := hop.unsigned; simp only [UInt32.reduceToNat]; omega)

theorem registerOffsetForm_x16 (opcode : UInt32) :
    registerOffsetForm opcode false ||| (16 : UInt32) <<< 16 =
      unscaledForm opcode ||| 0x306800 := by
  simp only [registerOffsetForm, unscaledForm, UInt32.or_assoc]
  rfl

theorem toNat_imm9 (offset : Int) : (UInt32.ofInt offset &&& 0x1FF).toNat = (offset % 512).toNat := by
  rw [UInt32.toNat_and, show (0x1FF : UInt32).toNat = 2 ^ 9 - 1 from rfl,
    Nat.and_two_pow_sub_one_eq_mod, UInt32.ofInt, UInt32.toNat_ofNat']
  omega

theorem toNat_unscaledWord (hop : AccessOpcode opcode size) (offset : Int) (hn : n.toNat < 32)
    (hrt : rt.toNat < 32) :
    (unscaledForm opcode ||| (UInt32.ofInt offset &&& 0x1FF) <<< 12 ||| n <<< 5 ||| rt).toNat =
      opcode.toNat - 2 ^ 24 + (offset % 512).toNat * 2 ^ 12 + n.toNat * 2 ^ 5 + rt.toNat := by
  have hu := hop.toNat_unscaledForm
  have hcl := hop.clear
  have hbit := hop.unsigned
  have h : (unscaledForm opcode ||| (UInt32.ofInt offset &&& 0x1FF) <<< 12).toNat =
      opcode.toNat - 2 ^ 24 + (offset % 512).toNat * 2 ^ 12 := by
    rw [toNat_or_shiftLeft (k := 12) (w := 9) rfl (by decide) (by decide) (by rw [hu]; omega)
      (by rw [toNat_imm9]; omega), hu, toNat_imm9]
  rw [toNat_regsWord (by rw [h]; omega) hn hrt, h]

theorem toNat_indexedWord (hop : AccessOpcode opcode size) (hn : n.toNat < 32)
    (hrt : rt.toNat < 32) :
    (registerOffsetForm opcode false ||| (16 : UInt32) <<< 16 ||| n <<< 5 ||| rt).toNat =
      opcode.toNat - 2 ^ 24 + 0x306800 + n.toNat * 2 ^ 5 + rt.toNat := by
  have hu := hop.toNat_unscaledForm
  have hcl := hop.clear
  have hbit := hop.unsigned
  have h : (unscaledForm opcode ||| (0x306800 : UInt32)).toNat = opcode.toNat - 2 ^ 24 + 0x306800 := by
    rw [UInt32.toNat_or, hu, lor_eq_add (k := 22) (by omega) (by decide)]
    rfl
  rw [registerOffsetForm_x16, toNat_regsWord (by rw [h]; omega) hn hrt, h]

theorem decode_scaledWord (hop : AccessOpcode opcode size) {k : Nat} (hk : k < 2 ^ 12)
    (hn : n.toNat < 32) (hrt : rt.toNat < 32) :
    decodeMemAccess (opcode ||| k.toUInt32 <<< 10 ||| n <<< 5 ||| rt) =
      some ⟨accessOp opcode.toNat, .scaled k, n.toNat, rt.toNat⟩ := by
  have hk' : k.toUInt32.toNat = k := by simp only [Nat.toUInt32_eq, UInt32.toNat_ofNat']; omega
  unfold decodeMemAccess
  rw [toNat_imm12Word hop.clear (by rw [hk']; exact hk) hn hrt, hk']
  obtain ⟨hls, hu, hcl, -⟩ := hop
  generalize opcode.toNat = K at hls hu hcl
  rw [if_pos (by omega)]
  simp only [Option.some.injEq, MemAccess.mk.injEq, AddrMode.scaled.injEq]
  refine ⟨by unfold accessOp; omega, by omega, by omega, by omega⟩

theorem signedOf_imm9 {offset : Int} (h : -256 ≤ offset ∧ offset < 256) :
    signedOf 9 (offset % 512).toNat = offset := by
  unfold signedOf
  split <;> omega

theorem decode_unscaledWord (hop : AccessOpcode opcode size) {offset : Int}
    (hoff : -256 ≤ offset ∧ offset < 256) (hn : n.toNat < 32) (hrt : rt.toNat < 32) :
    decodeMemAccess (unscaledForm opcode ||| (UInt32.ofInt offset &&& 0x1FF) <<< 12 ||| n <<< 5 |||
      rt) = some ⟨accessOp opcode.toNat, .unscaled offset, n.toNat, rt.toNat⟩ := by
  unfold decodeMemAccess
  rw [toNat_unscaledWord hop offset hn hrt]
  obtain ⟨hls, hu, hcl, -⟩ := hop
  have him : (offset % 512).toNat < 2 ^ 9 := by omega
  generalize opcode.toNat = K at hls hu hcl
  rw [if_neg (by omega), if_pos (by omega)]
  simp only [Option.some.injEq, MemAccess.mk.injEq, AddrMode.unscaled.injEq]
  refine ⟨by unfold accessOp; omega, ?_, by omega, by omega⟩
  have hfield : ∀ y, y = (offset % 512).toNat → signedOf 9 y = offset :=
    fun y hy => hy ▸ signedOf_imm9 hoff
  exact hfield _ (by omega)

theorem decode_indexedWord (hop : AccessOpcode opcode size) (hn : n.toNat < 32)
    (hrt : rt.toNat < 32) :
    decodeMemAccess (registerOffsetForm opcode false ||| (16 : UInt32) <<< 16 ||| n <<< 5 ||| rt) =
      some ⟨accessOp opcode.toNat, .indexed 16 0, n.toNat, rt.toNat⟩ := by
  unfold decodeMemAccess
  rw [toNat_indexedWord hop hn hrt]
  obtain ⟨hls, hu, hcl, -⟩ := hop
  generalize opcode.toNat = K at hls hu hcl
  rw [if_neg (by omega), if_neg (by omega), if_pos (by omega)]
  simp only [Option.some.injEq, MemAccess.mk.injEq, AddrMode.indexed.injEq]
  refine ⟨by unfold accessOp; omega, ⟨by omega, ?_⟩, by omega, by omega⟩
  rw [if_neg (by omega)]

end AccessWords

/-! ### What the encoder emits for a load or store -/

def EmitsAfterMoves {α : Type} (m : EncM Unit) (e : Encoder) (x : GpFile)
    (dec : UInt32 → Option α) (P : α → GpFile → Prop) : Prop :=
  ∃ pre word i x', m.run e = .ok ((), { e with words := e.words ++ (pre ++ [word]).toArray }) ∧
    runMoveWide pre x = some x' ∧ dec word = some i ∧ P i x'

theorem emitsAfterMoves_emit {α : Type} {m : EncM Unit} {e : Encoder} {x : GpFile}
    {dec : UInt32 → Option α} {P : α → GpFile → Prop} {word : UInt32} {i : α}
    (hrun : m.run e = .ok ((), { e with words := e.words.push word })) (hdec : dec word = some i)
    (hP : P i x) : EmitsAfterMoves m e x dec P :=
  ⟨[], word, i, x, by rw [hrun, Array.push_eq_append]; rfl, rfl, hdec, hP⟩

def Accesses (m : EncM Unit) (e : Encoder) (x x' : GpFile) (opcode : UInt32) (rt : Nat)
    (mode : AddrMode) (addr : UInt64) : Prop :=
  EmitsAfterMoves m e x decodeMemAccess fun a x'' =>
    x'' = x' ∧ a.op = accessOp opcode.toNat ∧ a.rt = rt ∧ a.mode = mode ∧ a.address x'' = addr

theorem EmitsAfterMoves.unique {α : Type} {m : EncM Unit} {e : Encoder} {x : GpFile}
    {dec : UInt32 → Option α} {P Q : α → GpFile → Prop} (hP : EmitsAfterMoves m e x dec P)
    (hQ : EmitsAfterMoves m e x dec Q) : ∃ i x', P i x' ∧ Q i x' := by
  obtain ⟨pre, word, i, x', hrun, hmove, hdec, hPi⟩ := hP
  obtain ⟨pre', word', i', x'', hrun', hmove', hdec', hQi⟩ := hQ
  have hwords : pre ++ [word] = pre' ++ [word'] := by
    have h := congrArg (fun r : Unit × Encoder => r.2.words.toList)
      (Except.ok.inj (hrun.symm.trans hrun'))
    simpa using h
  obtain ⟨rfl, hw⟩ := List.append_inj' hwords rfl
  cases List.singleton_inj.mp hw
  rw [hdec] at hdec'
  cases hdec'
  rw [hmove] at hmove'
  cases hmove'
  exact ⟨i, x', hPi, hQi⟩

section Memory

variable {opcode rt : UInt32} {size : Nat} {n : UInt8} {offset : Int} {e : Encoder}

theorem memoryMode_indexed_iff :
    memoryMode size offset = .indexed 16 0 ↔
      ¬ (0 ≤ offset ∧ offset % size = 0 ∧ offset / size < 4096) ∧ ¬ (-256 ≤ offset ∧ offset < 256) := by
  unfold memoryMode
  by_cases h₁ : 0 ≤ offset ∧ offset % size = 0 ∧ offset / size < 4096
  · rw [if_pos h₁]
    exact ⟨fun h => (by cases h), fun h => absurd h₁ h.1⟩
  · rw [if_neg h₁]
    by_cases h₂ : -256 ≤ offset ∧ offset < 256
    · rw [if_pos h₂]
      exact ⟨fun h => (by cases h), fun h => absurd h₂ h.2⟩
    · rw [if_neg h₂]
      exact ⟨fun _ => ⟨h₁, h₂⟩, fun _ => rfl⟩

theorem ofNat_scaled (hsize : 0 < size) (h : 0 ≤ offset ∧ offset % size = 0) :
    UInt64.ofNat ((offset / size).toNat * size) = UInt64.ofInt offset := by
  have hmul : offset / size * size = offset := Int.ediv_mul_cancel (Int.dvd_of_emod_eq_zero h.2)
  have hq : 0 ≤ offset / size := Int.ediv_nonneg h.1 (by omega)
  have hcast : (((offset / size).toNat * size : Nat) : Int) = offset := by
    rw [Nat.cast_mul, Int.toNat_of_nonneg hq, hmul]
  generalize (offset / size).toNat * size = m at hcast
  apply UInt64.toNat_inj.mp
  rw [UInt64.toNat_ofNat', UInt64.ofInt, UInt64.toNat_ofNat']
  omega

theorem run_memory_scaled (hn : n.toNat < 32)
    (h : 0 ≤ offset ∧ offset % size = 0 ∧ offset / size < 4096) :
    (Enc.memory opcode size rt (.gp n) offset).run e = .ok ((), { e with words := e.words.push (opcode |||
      (offset / size).toNat.toUInt32 <<< 10 ||| n.toUInt32 <<< 5 ||| rt) }) := by
  rw [Enc.memory, run_bind_of_ok (run_gp hn _ e), if_pos (by simpa using h)]
  rfl

theorem run_memory_unscaled (hn : n.toNat < 32)
    (h₁ : ¬ (0 ≤ offset ∧ offset % size = 0 ∧ offset / size < 4096))
    (h₂ : -256 ≤ offset ∧ offset < 256) :
    (Enc.memory opcode size rt (.gp n) offset).run e = .ok ((), { e with words := e.words.push (unscaledForm opcode |||
      (UInt32.ofInt offset &&& 0x1FF) <<< 12 ||| n.toUInt32 <<< 5 ||| rt) }) := by
  rw [Enc.memory, run_bind_of_ok (run_gp hn _ e), if_neg (by simpa using h₁), if_pos (by simpa using h₂)]
  rfl

theorem run_memory_indexed (hn : n.toNat < 32)
    (h₁ : ¬ (0 ≤ offset ∧ offset % size = 0 ∧ offset / size < 4096))
    (h₂ : ¬ (-256 ≤ offset ∧ offset < 256)) :
    (Enc.memory opcode size rt (.gp n) offset).run e =
      if n.toNat = 16 then .error (.immediateOutOfRange "ldr/str" offset)
      else .ok ((), { e with words := e.words ++ (movImmWords 16 (UInt64.ofInt offset) ++
        [registerOffsetForm opcode false ||| (16 : UInt32) <<< 16 ||| n.toUInt32 <<< 5 ||| rt]).toArray }) := by
  have hip : (Reg.gp n == ip0) = decide (n.toNat = 16) := by
    rw [Bool.eq_iff_iff, beq_iff_eq, decide_eq_true_iff, ip0, Reg.gp, Reg.gp, Reg.mk.injEq]
    exact ⟨fun h => by rw [h.2]; rfl, fun h => ⟨rfl, UInt8.toNat_inj.mp h⟩⟩
  rw [Enc.memory, run_bind_of_ok (run_gp hn _ e), if_neg (by simpa using h₁), if_neg (by simpa using h₂)]
  dsimp only
  rw [hip]
  by_cases h16 : n.toNat = 16
  · rw [if_pos (decide_eq_true h16), if_pos h16]
    rfl
  · rw [if_neg (by simpa using h16), if_neg h16, show ip0 = Reg.gp 16 from rfl,
      run_bind_of_ok (run_movImm (by decide) _ e), run_emit]
    simp

/-- A load or store at `offset` bytes past register `n`. When the offset fits neither immediate
form and the base is x16, it is an error. Otherwise the access, of the kind `opcode` selects and
in the form `memoryMode` names, transfers register `rt` and addresses the base plus the offset
modulo 2^64; in the x16 form the move wide words before it load the offset into x16 and leave
every other register as it was, and in the others there are none. -/
theorem memory_addresses (hop : AccessOpcode opcode size) (hrt : rt.toNat < 32) (hn : n.toNat < 31)
    (offset : Int) (e : Encoder) (x : GpFile) :
    if memoryMode size offset = .indexed 16 0 ∧ n.toNat = 16 then
      (Enc.memory opcode size rt (.gp n) offset).run e = .error (.immediateOutOfRange "ldr/str" offset)
    else Accesses (Enc.memory opcode size rt (.gp n) offset) e x
      (if memoryMode size offset = .indexed 16 0 then Function.update x 16 (UInt64.ofInt offset) else x)
      opcode rt.toNat (memoryMode size offset) (x n.toNat + UInt64.ofInt offset) := by
  have hn32 : n.toNat < 32 := by omega
  have hn' : n.toUInt32.toNat < 32 := by simpa using hn32
  have hsize : 0 < size := hop.size_eq ▸ Nat.two_pow_pos _
  by_cases h₁ : 0 ≤ offset ∧ offset % size = 0 ∧ offset / size < 4096
  · -- the unsigned offset form: the offset in units of the size
    have hmode : memoryMode size offset = .scaled (offset / size).toNat := if_pos h₁
    have hk : (offset / size).toNat < 2 ^ 12 := by omega
    rw [hmode, if_neg (fun h => by cases h.1), if_neg (fun h => by cases h)]
    refine emitsAfterMoves_emit (run_memory_scaled hn32 h₁) (decode_scaledWord hop hk hn' hrt)
      ⟨rfl, rfl, rfl, rfl, ?_⟩
    show x n.toUInt32.toNat + UInt64.ofNat ((offset / size).toNat * 2 ^ accessScale (accessOp opcode.toNat)) = _
    rw [← hop.size_eq, ofNat_scaled hsize ⟨h₁.1, h₁.2.1⟩]
    simp
  · by_cases h₂ : -256 ≤ offset ∧ offset < 256
    · -- the unscaled form: the offset in bytes
      have hmode : memoryMode size offset = .unscaled offset := by
        unfold memoryMode
        rw [if_neg h₁, if_pos h₂]
      rw [hmode, if_neg (fun h => by cases h.1), if_neg (fun h => by cases h)]
      exact emitsAfterMoves_emit (run_memory_unscaled hn32 h₁ h₂) (decode_unscaledWord hop h₂ hn' hrt)
        ⟨rfl, rfl, rfl, rfl, by simp [MemAccess.address]⟩
    · -- the offset moves into x16, which indexes the access
      have hmode : memoryMode size offset = .indexed 16 0 := memoryMode_indexed_iff.mpr ⟨h₁, h₂⟩
      rw [hmode]
      by_cases h16 : n.toNat = 16
      · rw [if_pos ⟨rfl, h16⟩, run_memory_indexed hn32 h₁ h₂, if_pos h16]
      · rw [if_neg (fun h => h16 h.2), if_pos rfl]
        refine ⟨_, _, _, _, (run_memory_indexed hn32 h₁ h₂).trans (if_neg h16),
          run_movImmWords (by decide) _ x, decode_indexedWord hop hn' hrt, rfl, rfl, rfl, rfl, ?_⟩
        simp [MemAccess.address, GpFile.read, Function.update_of_ne h16]

end Memory

/-! ### Additions and subtractions -/

/-- The second operand of an add or subtract. -/
inductive AddSubOperand where
  /-- An immediate, its shift applied. -/
  | imm (v : Nat)
  /-- A register. -/
  | reg (rm : Nat)
  deriving DecidableEq, Repr

/-- A decoded add or subtract: whether it subtracts, whether it sets the flags (the `S` forms),
the 64-bit form, the second operand, and the first source and destination register numbers. -/
structure AddSub where
  sub : Bool
  setFlags : Bool
  is64 : Bool
  operand : AddSubOperand
  rn : Nat
  rd : Nat
  deriving DecidableEq, Repr

/-- Decode an add or subtract: `sf` in bit 31, `op` in bit 30 and `S` in bit 29. Bits 23 to 28
`100010` make the immediate form, `imm12` in bits 10 to 21 shifted by 12 when bit 22 is set;
bits 24 to 28 `01011` with bits 21 to 23 clear and no shift in bits 10 to 15 make the register
form, `Rm` in bits 16 to 20. `Rn` is in bits 5 to 9 and `Rd` in bits 0 to 4. -/
def decodeAddSub (w : UInt32) : Option AddSub :=
  let n := w.toNat
  let sub := decide (n / 2 ^ 30 % 2 = 1)
  let setFlags := decide (n / 2 ^ 29 % 2 = 1)
  let is64 := decide (n / 2 ^ 31 = 1)
  if n / 2 ^ 23 % 2 ^ 6 = 0b100010 then
    some ⟨sub, setFlags, is64, .imm (n / 2 ^ 10 % 2 ^ 12 * 2 ^ (12 * (n / 2 ^ 22 % 2))),
      n / 2 ^ 5 % 32, n % 32⟩
  else if n / 2 ^ 24 % 2 ^ 5 = 0b01011 ∧ n / 2 ^ 21 % 8 = 0 ∧ n / 2 ^ 10 % 2 ^ 6 = 0 then
    some ⟨sub, setFlags, is64, .reg (n / 2 ^ 16 % 32), n / 2 ^ 5 % 32, n % 32⟩
  else none

/-- The condition flags: negative, zero, carry and overflow. -/
structure Flags where
  n : Bool
  z : Bool
  c : Bool
  v : Bool
  deriving DecidableEq, Repr

def addSubFlags (bits : Nat) (sub : Bool) (a b : Nat) : Flags :=
  let a := a % 2 ^ bits
  let b := if sub then 2 ^ bits - 1 - b % 2 ^ bits else b % 2 ^ bits
  let carry := if sub then 1 else 0
  let sum := a + b + carry
  let r := sum % 2 ^ bits
  ⟨decide (2 ^ (bits - 1) ≤ r), decide (r = 0), decide (2 ^ bits ≤ sum),
    decide (signedOf bits a + signedOf bits b + carry ≠ signedOf bits r)⟩

def AddSub.operands (i : AddSub) (x : GpFile) : UInt64 × UInt64 :=
  match i.operand with
  | .imm v => (x i.rn, UInt64.ofNat v)
  | .reg rm => (x.read i.rn, x.read rm)

/-- Run an add or subtract: the result modulo 2^bits goes to the destination, and the `S` forms
set the flags. A destination of number 31 is not written: it is the zero register, except in
the immediate forms without flags, where it would be the stack pointer. -/
def AddSub.exec (i : AddSub) (x : GpFile) : GpFile × Option Flags :=
  let bits := if i.is64 then 64 else 32
  let (a, b) := i.operands x
  (x.write i.rd (UInt64.ofNat ((if i.sub then a - b else a + b).toNat % 2 ^ bits)),
    if i.setFlags then some (addSubFlags bits i.sub a.toNat b.toNat) else none)

/-- The immediate form `base` and the register form `regBase` of one add or subtract: `sub` in
bit 30, `setFlags` in bit 29, and every other field clear. -/
structure AddSubOpcodes (base regBase : UInt32) (sub setFlags : Bool) : Prop where
  imm : base.toNat = 0x11000000 + (if sub then 2 ^ 30 else 0) + (if setFlags then 2 ^ 29 else 0)
  reg : regBase.toNat = 0x0B000000 + (if sub then 2 ^ 30 else 0) + (if setFlags then 2 ^ 29 else 0)

def AddSubImmFits (imm : UInt64) : Prop :=
  imm.toNat < 2 ^ 12 ∨ imm.toNat % 2 ^ 12 = 0 ∧ imm.toNat < 2 ^ 24

instance (imm : UInt64) : Decidable (AddSubImmFits imm) := by
  unfold AddSubImmFits
  infer_instance

theorem Width.toNat_sf (w : Width) : w.sf.toNat = if w = .w64 then 2 ^ 31 else 0 := by
  cases w <;> rfl

section AddSubDecode

variable {base regBase : UInt32} {sub setFlags : Bool}

theorem decodeAddSub_imm (hb : AddSubOpcodes base regBase sub setFlags) (w : Width) {word : UInt32}
    {s f n d : Nat} (hs : s < 2) (hf : f < 2 ^ 12) (hn : n < 32) (hd : d < 32)
    (hw : word.toNat = base.toNat + w.sf.toNat + s * 2 ^ 22 + f * 2 ^ 10 + n * 2 ^ 5 + d) :
    decodeAddSub word = some ⟨sub, setFlags, decide (w = .w64), .imm (f * 2 ^ (12 * s)), n, d⟩ := by
  unfold decodeAddSub
  rw [hw, hb.imm, Width.toNat_sf]
  cases sub <;> cases setFlags <;> cases w <;>
  · simp only [if_true, if_false, Bool.false_eq_true, reduceCtorEq, decide_true, decide_false]
    rw [if_pos (by omega)]
    simp only [Option.some.injEq, AddSub.mk.injEq, AddSubOperand.imm.injEq, decide_eq_true_eq,
      decide_eq_false_iff_not]
    refine ⟨by omega, by omega, by omega, ?_, by omega, by omega⟩
    rw [show (_ : Nat) / 2 ^ 22 % 2 = s by omega, show (_ : Nat) / 2 ^ 10 % 2 ^ 12 = f by omega]

theorem decodeAddSub_reg (hb : AddSubOpcodes base regBase sub setFlags) (w : Width) {word : UInt32}
    {m n d : Nat} (hm : m < 32) (hn : n < 32) (hd : d < 32)
    (hw : word.toNat = regBase.toNat + w.sf.toNat + m * 2 ^ 16 + n * 2 ^ 5 + d) :
    decodeAddSub word = some ⟨sub, setFlags, decide (w = .w64), .reg m, n, d⟩ := by
  unfold decodeAddSub
  rw [hw, hb.reg, Width.toNat_sf]
  cases sub <;> cases setFlags <;> cases w <;>
  · simp only [if_true, if_false, Bool.false_eq_true, reduceCtorEq, decide_true, decide_false]
    rw [if_neg (by omega), if_pos (by omega)]
    simp only [Option.some.injEq, AddSub.mk.injEq, AddSubOperand.reg.injEq, decide_eq_true_eq,
      decide_eq_false_iff_not]
    refine ⟨by omega, by omega, by omega, by omega, by omega, by omega⟩

theorem toNat_or_sf {b : UInt32} (hb : b.toNat < 2 ^ 31) (w : Width) :
    (b ||| w.sf).toNat = b.toNat + w.sf.toNat := by
  cases w
  · simp [Width.sf]
  · rw [UInt32.toNat_or, Nat.or_comm, lor_eq_add (k := 31) (by decide) hb, Nat.add_comm]

end AddSubDecode


/-! ### What the encoder emits for an add or subtract of an immediate -/

section AddSubImm

variable {base regBase : UInt32} {sub setFlags : Bool} {op : String} {w : Width} {d n : UInt8}
  {imm : UInt64} {e : Encoder}

theorem lt_shiftLeft_twelve_iff : imm < (1 : UInt64) <<< 12 ↔ imm.toNat < 2 ^ 12 := by
  rw [UInt64.lt_iff_toNat_lt]
  rfl

theorem shifted_imm_iff :
    (imm &&& 0xFFF == 0 && imm < (1 : UInt64) <<< 24) = true ↔
      imm.toNat % 2 ^ 12 = 0 ∧ imm.toNat < 2 ^ 24 := by
  rw [Bool.and_eq_true, beq_iff_eq, decide_eq_true_iff, UInt64.lt_iff_toNat_lt, ← UInt64.toNat_inj,
    UInt64.toNat_and, show (0xFFF : UInt64).toNat = 2 ^ 12 - 1 from rfl, Nat.and_two_pow_sub_one_eq_mod]
  rfl

theorem run_addSubImm_imm12 (hd : d.toNat < 32) (hn : n.toNat < 32) (h : imm.toNat < 2 ^ 12) :
    (Enc.addSubImm op base w (.gp d) (.gp n) imm regBase).run e =
      .ok ((), { e with words := e.words.push (base ||| w.sf ||| imm.toUInt32 <<< 10 |||
        n.toUInt32 <<< 5 ||| d.toUInt32) }) := by
  rw [Enc.addSubImm, run_bind_of_ok (run_gp hd _ e), run_bind_of_ok (run_gp hn _ e),
    if_pos (lt_shiftLeft_twelve_iff.mpr h)]
  rfl

theorem run_addSubImm_shifted (hd : d.toNat < 32) (hn : n.toNat < 32) (h₁ : ¬ imm.toNat < 2 ^ 12)
    (h₂ : imm.toNat % 2 ^ 12 = 0 ∧ imm.toNat < 2 ^ 24) :
    (Enc.addSubImm op base w (.gp d) (.gp n) imm regBase).run e =
      .ok ((), { e with words := e.words.push (base ||| w.sf ||| (1 : UInt32) <<< 22 |||
        (imm >>> 12).toUInt32 <<< 10 ||| n.toUInt32 <<< 5 ||| d.toUInt32) }) := by
  rw [Enc.addSubImm, run_bind_of_ok (run_gp hd _ e), run_bind_of_ok (run_gp hn _ e),
    if_neg (mt lt_shiftLeft_twelve_iff.mp h₁), if_pos (shifted_imm_iff.mpr h₂)]
  rfl

theorem run_addSubImm_reg (hd : d.toNat < 32) (hn : n.toNat < 32) (h : ¬ AddSubImmFits imm) :
    (Enc.addSubImm op base w (.gp d) (.gp n) imm regBase).run e =
      .ok ((), { e with words := e.words ++ (movImmWords 16 imm ++ [regBase ||| w.sf |||
        (16 : UInt32) <<< 16 ||| n.toUInt32 <<< 5 ||| d.toUInt32]).toArray }) := by
  have h₁ : ¬ imm.toNat < 2 ^ 12 := fun h' => h (.inl h')
  have h₂ : ¬ (imm.toNat % 2 ^ 12 = 0 ∧ imm.toNat < 2 ^ 24) := fun h' => h (.inr h')
  rw [Enc.addSubImm, run_bind_of_ok (run_gp hd _ e), run_bind_of_ok (run_gp hn _ e),
    if_neg (mt lt_shiftLeft_twelve_iff.mp h₁), if_neg (mt shifted_imm_iff.mp h₂),
    show ip0 = Reg.gp 16 from rfl, run_bind_of_ok (run_movImm (by decide) _ e), Enc.rrr,
    run_bind_of_ok (run_gp (by decide) _ _), run_bind_of_ok (run_gp hn _ _),
    run_bind_of_ok (run_gp hd _ _), run_emit]
  simp

theorem addSubImm_reads (hb : AddSubOpcodes base regBase sub setFlags) (op : String) (w : Width)
    (hd : d.toNat < 32) (hn : n.toNat < 31) (imm : UInt64) (e : Encoder) (x : GpFile) :
    EmitsAfterMoves (Enc.addSubImm op base w (.gp d) (.gp n) imm regBase) e x decodeAddSub
      fun i x' => x' = (if AddSubImmFits imm then x else Function.update x 16 imm) ∧
        i.sub = sub ∧ i.setFlags = setFlags ∧ i.is64 = decide (w = .w64) ∧ i.rd = d.toNat ∧
        i.operands x' = (x' n.toNat, imm) := by
  have hn32 : n.toNat < 32 := by omega
  have hn' : n.toUInt32.toNat < 32 := by simpa using hn32
  have hd' : d.toUInt32.toNat < 32 := by simpa using hd
  have hbase : base.toNat < 2 ^ 31 ∧ base.toNat % 2 ^ 23 = 0 := by
    rw [hb.imm]
    split <;> split <;> omega
  have hsf : w.sf.toNat % 2 ^ 23 = 0 := by cases w <;> decide
  have hA : (base ||| w.sf).toNat = base.toNat + w.sf.toNat := toNat_or_sf hbase.1 w
  by_cases h₁ : imm.toNat < 2 ^ 12
  · -- a 12-bit immediate
    have hf : imm.toUInt32.toNat = imm.toNat := by rw [UInt64.toNat_toUInt32]; omega
    have hw := toNat_imm12Word (a := base ||| w.sf) (f := imm.toUInt32) (by rw [hA]; omega)
      (by rw [hf]; exact h₁) hn' hd'
    refine emitsAfterMoves_emit (run_addSubImm_imm12 hd hn32 h₁)
      (decodeAddSub_imm hb w (s := 0) (by decide) h₁ hn32 hd (by rw [hw, hA, hf]; simp))
      ⟨(if_pos (show AddSubImmFits imm from .inl h₁)).symm, rfl, rfl, rfl, rfl, ?_⟩
    simp [AddSub.operands]
  · by_cases h₂ : imm.toNat % 2 ^ 12 = 0 ∧ imm.toNat < 2 ^ 24
    · -- a 12-bit immediate shifted by 12
      have hf : (imm >>> 12).toUInt32.toNat = imm.toNat / 2 ^ 12 := by
        rw [UInt64.toNat_toUInt32, UInt64.toNat_shiftRight, show (12 : UInt64).toNat % 64 = 12 from rfl,
          Nat.shiftRight_eq_div_pow]
        omega
      have hA' : (base ||| w.sf ||| (1 : UInt32) <<< 22).toNat = base.toNat + w.sf.toNat + 2 ^ 22 := by
        rw [toNat_or_shiftLeft (k := 22) (w := 1) rfl (by decide) (by decide) (by rw [hA]; omega)
          (by decide), hA]
        rfl
      have hw := toNat_imm12Word (a := base ||| w.sf ||| (1 : UInt32) <<< 22)
        (f := (imm >>> 12).toUInt32) (by rw [hA']; omega) (by rw [hf]; omega) hn' hd'
      refine emitsAfterMoves_emit (run_addSubImm_shifted hd hn32 h₁ h₂)
        (decodeAddSub_imm hb w (s := 1) (f := imm.toNat / 2 ^ 12) (by decide) (by omega) hn32 hd
          (by rw [hw, hA', hf]; simp))
        ⟨(if_pos (show AddSubImmFits imm from .inr h₂)).symm, rfl, rfl, rfl, rfl, ?_⟩
      simp only [AddSub.operands, Prod.mk.injEq, true_and]
      apply UInt64.toNat_inj.mp
      rw [UInt64.toNat_ofNat']
      omega
    · -- x16 loaded with the immediate, as the second register
      have hfits : ¬ AddSubImmFits imm := fun h => h.elim h₁ h₂
      have hbase' : regBase.toNat < 2 ^ 31 ∧ regBase.toNat % 2 ^ 24 = 0 := by
        rw [hb.reg]
        split <;> split <;> omega
      have hR : (regBase ||| w.sf).toNat = regBase.toNat + w.sf.toNat := toNat_or_sf hbase'.1 w
      have hR' : (regBase ||| w.sf ||| (16 : UInt32) <<< 16).toNat =
          regBase.toNat + w.sf.toNat + 16 * 2 ^ 16 := by
        rw [toNat_or_shiftLeft (k := 16) (w := 5) rfl (by decide) (by decide) (by rw [hR]; omega)
          (by decide), hR]
        rfl
      have hw := toNat_regsWord (a := regBase ||| w.sf ||| (16 : UInt32) <<< 16) (by rw [hR']; omega)
        hn' hd'
      refine ⟨_, _, _, _, run_addSubImm_reg hd hn32 hfits, run_movImmWords (by decide) imm x,
        decodeAddSub_reg hb w (m := 16) (by decide) hn32 hd (by rw [hw, hR']; simp),
        by rw [if_neg hfits]; rfl, rfl, rfl, rfl, rfl, ?_⟩
      simp [AddSub.operands, GpFile.read, hn]

def AddsImmediate (m : EncM Unit) (e : Encoder) (x : GpFile) (sub setFlags : Bool) (w : Width)
    (d : Nat) (first imm : UInt64) : Prop :=
  EmitsAfterMoves m e x decodeAddSub fun i x' => (∀ r, r ≠ 16 → x' r = x r) ∧
    i.exec x' = (x'.write d (UInt64.ofNat ((if sub then first - imm else first + imm).toNat %
      2 ^ w.bits)), if setFlags then some (addSubFlags w.bits sub first.toNat imm.toNat) else none)

theorem AddSub.exec_of_operands {i : AddSub} {x : GpFile} {a b : UInt64}
    (h : i.operands x = (a, b)) :
    i.exec x = (x.write i.rd (UInt64.ofNat ((if i.sub then a - b else a + b).toNat %
      2 ^ (if i.is64 then 64 else 32))),
      if i.setFlags then some (addSubFlags (if i.is64 then 64 else 32) i.sub a.toNat b.toNat)
      else none) := by
  unfold AddSub.exec
  rw [h]

/-- An add or subtract of an immediate computes with the value register `n` has before the
code, except that a first source of x16, when the immediate goes through x16, reads the
immediate. -/
theorem addSubImm_adds (hb : AddSubOpcodes base regBase sub setFlags) (op : String) (w : Width)
    (hd : d.toNat < 32) (hn : n.toNat < 31) (imm : UInt64) (e : Encoder) (x : GpFile) :
    AddsImmediate (Enc.addSubImm op base w (.gp d) (.gp n) imm regBase) e x sub setFlags w d.toNat
      (if AddSubImmFits imm ∨ n.toNat ≠ 16 then x n.toNat else imm) imm := by
  obtain ⟨pre, word, i, x', hrun, hmove, hdec, hx', hsub, hS, h64, hrd, hops⟩ :=
    addSubImm_reads hb op w hd hn imm e x
  refine ⟨pre, word, i, x', hrun, hmove, hdec, fun r hr => ?_, ?_⟩
  · rw [hx']
    split
    · rfl
    · exact Function.update_of_ne hr _ _
  · -- the first operand is register `n` as the moves leave it
    have hfirst : x' n.toNat = if AddSubImmFits imm ∨ n.toNat ≠ 16 then x n.toNat else imm := by
      rw [hx']
      by_cases hfits : AddSubImmFits imm
      · simp [hfits]
      · by_cases h16 : n.toNat = 16 <;> simp [hfits, h16]
    have hbits : (if decide (w = .w64) then 64 else 32) = w.bits := by cases w <;> rfl
    rw [AddSub.exec_of_operands hops, hsub, hS, h64, hrd, hbits, hfirst]

theorem addOpcodes : AddSubOpcodes 0x11000000 0x0B000000 false false := ⟨rfl, rfl⟩

theorem subOpcodes : AddSubOpcodes 0x51000000 0x4B000000 true false := ⟨rfl, rfl⟩

theorem cmpOpcodes : AddSubOpcodes 0x71000000 0x6B000000 true true := ⟨rfl, rfl⟩

theorem cmnOpcodes : AddSubOpcodes 0x31000000 0x2B000000 false true := ⟨rfl, rfl⟩

theorem addSubImm_adds_of_ne_x16 (hb : AddSubOpcodes base regBase sub setFlags) (op : String)
    (w : Width) (hd : d.toNat < 32) (hn : n.toNat < 31) (h16 : n.toNat ≠ 16) (imm : UInt64)
    (e : Encoder) (x : GpFile) :
    AddsImmediate (Enc.addSubImm op base w (.gp d) (.gp n) imm regBase) e x sub setFlags w d.toNat
      (x n.toNat) imm := by
  have h := addSubImm_adds hb op w hd hn imm e x
  rwa [if_pos (Or.inr h16)] at h

theorem addRI_x16_far_immediate_misses {x : GpFile} (hd : d.toNat < 31) (hfits : ¬ AddSubImmFits imm)
    (hx : x 16 ≠ imm) :
    ¬ AddsImmediate (Enc.addRI .w64 (.gp d) (.gp 16) imm) e x false false .w64 d.toNat (x 16) imm := by
  intro hclaim
  obtain ⟨i, x', ⟨-, hclaimed⟩, -, hactual⟩ :=
    hclaim.unique (addSubImm_adds addOpcodes "add" .w64 (d := d) (n := 16) (by omega) (by decide)
      imm e x)
  have hfirst : ¬ (AddSubImmFits imm ∨ (16 : UInt8).toNat ≠ 16) := not_or.mpr ⟨hfits, not_not.mpr rfl⟩
  rw [if_neg hfirst] at hactual
  have h := congrArg (fun r => r.1 d.toNat) (hclaimed.symm.trans hactual)
  simp only [GpFile.write, if_pos hd, Function.update_self, Bool.false_eq_true, if_false,
    Width.bits, Nat.mod_eq_of_lt (UInt64.toNat_lt _), UInt64.ofNat_toNat] at h
  exact hx ((UInt64.add_left_inj imm).mp h)

end AddSubImm

/-! ### Offsets and immediates, whatever their size -/

end OnePassJit.Arm64
