import OnePassJit.Proofs.Arm64.MoveWide

/-!
Words that refer to labels, filled in when the code is finished.

A word that refers to a label is emitted with an empty offset field and recorded as a fixup.
`FixupKind.mask` names the bits of the field, `FixupKind.offset` reads it back by sign
extension (words for the branches, bytes for `adr`, whose low two bits sit apart in bits 29
and 30) and `FixupKind.Fits` says which distances the field holds.

`Encoder.finalize` visits the fixups in the order they were recorded. The first whose label
is not bound, or whose distance does not fit, gives the error (`Unresolvable`,
`FirstUnresolvable`); otherwise every
recorded word gets the distance to its label in its field and keeps its other bits, a jump
table entry gets the byte distance from its table, and every other word is left as it was
(`Resolves`). That needs the recorded words to be distinct and emitted with clear fields,
which every sequence of encoder calls keeps (`Encoder.Reachable`, `Encoder.Wf`).
`finalize_resolves_labels` states the whole of it.
-/

namespace OnePassJit.Arm64

/-! ### Offset fields -/

namespace FixupKind

/-- The bits of a word that hold the offset. -/
def mask : FixupKind → UInt32
  | .branch26 => 0x03FFFFFF
  | .branch19 => 0x00FFFFE0
  | .branch14 => 0x0007FFE0
  | .adr => 0x60FFFFE0
  | .tableEntry _ => 0xFFFFFFFF

def unit : FixupKind → Int
  | .adr => 4
  | _ => 1

def bits : FixupKind → Nat
  | .branch26 => 26
  | .branch19 => 19
  | .branch14 => 14
  | .adr => 21
  | .tableEntry _ => 32

/-- A distance of `d` words fits the field; a jump table entry holds any distance. -/
def Fits (k : FixupKind) (d : Int) : Prop :=
  match k with
  | .tableEntry _ => True
  | k => -(2 ^ (k.bits - 1) : Int) ≤ k.unit * d ∧ k.unit * d < 2 ^ (k.bits - 1)

instance (k : FixupKind) (d : Int) : Decidable (k.Fits d) := by
  unfold Fits
  split <;> infer_instance

/-- The offset a word holds, read by sign extension; `adr` joins `immhi` (bits 5 to 23) and
`immlo` (bits 29 and 30). A jump table entry is read as an unsigned word. -/
def offset : FixupKind → UInt32 → Int
  | .branch26, w => (w.toBitVec.extractLsb' 0 26).toInt
  | .branch19, w => (w.toBitVec.extractLsb' 5 19).toInt
  | .branch14, w => (w.toBitVec.extractLsb' 5 14).toInt
  | .adr, w => (w.toBitVec.extractLsb' 5 19 ++ w.toBitVec.extractLsb' 29 2).toInt
  | .tableEntry _, w => w.toNat

end FixupKind

/-! ### Bits of a patched word -/

section Bits

variable {w y M : UInt32} {s : UInt32} {bits : Nat}

theorem getElem_eq_false_of_lt_two_pow (hy : y.toNat < 2 ^ bits) {j : Nat} (hj : bits ≤ j)
    (h : j < 32) : y.toBitVec[j] = false := by
  rw [BitVec.getElem_eq_testBit_toNat, UInt32.toNat_toBitVec]
  exact Nat.testBit_lt_two_pow (lt_of_lt_of_le hy (Nat.pow_le_pow_right (by decide) hj))

theorem getElem_shiftLeft_eq_false_of_lt (hs : s.toNat < 32) {i : Nat} (h : i < 32)
    (hi : i < s.toNat) : (y <<< s).toBitVec[i] = false := by
  rw [UInt32.toBitVec_shiftLeft]
  simp [Nat.mod_eq_of_lt hs, hi]

theorem getElem_shiftLeft_eq_false_of_le (hs : s.toNat < 32) (hy : y.toNat < 2 ^ bits)
    {i : Nat} (h : i < 32) (hi : s.toNat + bits ≤ i) : (y <<< s).toBitVec[i] = false := by
  rw [UInt32.toBitVec_shiftLeft]
  simp [Nat.mod_eq_of_lt hs, getElem_eq_false_of_lt_two_pow hy (show bits ≤ i - s.toNat by omega)]

theorem getElem_eq_false_of_and_eq_zero (h : w &&& M = 0) {i : Nat} (hi : i < 32)
    (hM : M.toBitVec[i] = true) : w.toBitVec[i] = false := by
  have := congrArg (fun x : UInt32 => x.toBitVec[i]) h
  simp only [UInt32.toBitVec_and, BitVec.getElem_and, hM, Bool.and_true, UInt32.toBitVec_zero,
    BitVec.getElem_zero] at this
  exact this

theorem extractLsb'_or_shiftLeft (hs : s.toNat < 32) (hfit : s.toNat + bits ≤ 32)
    (hclear : ∀ i (h : i < 32), s.toNat ≤ i → i < s.toNat + bits → w.toBitVec[i] = false) :
    (w ||| y <<< s).toBitVec.extractLsb' s.toNat bits = y.toBitVec.setWidth bits := by
  ext i hi
  have hw := hclear (s.toNat + i) (by omega) (by omega) (by omega)
  rw [BitVec.getElem_extractLsb', BitVec.getElem_setWidth, UInt32.toBitVec_or, BitVec.getLsbD_or,
    BitVec.getLsbD_eq_getElem (show s.toNat + i < 32 by omega), hw, Bool.false_or,
    UInt32.toBitVec_shiftLeft]
  simp [Nat.mod_eq_of_lt hs, show s.toNat + i < 32 by omega]
  exact (BitVec.getLsbD_eq_getElem _).symm

theorem and_not_or_shiftLeft (hs : s.toNat < 32) (hy : y.toNat < 2 ^ bits)
    (hM : ∀ i (h : i < 32), s.toNat ≤ i → i < s.toNat + bits → M.toBitVec[i] = true) :
    (w ||| y <<< s) &&& ~~~M = w &&& ~~~M := by
  apply UInt32.toBitVec_inj.mp
  ext i hi
  simp only [UInt32.toBitVec_and, UInt32.toBitVec_or, UInt32.toBitVec_not, UInt32.toBitVec_shiftLeft,
    BitVec.getElem_and, BitVec.getElem_or, BitVec.getElem_not]
  simp [Nat.mod_eq_of_lt hs]
  by_cases hbelow : i < s.toNat
  · simp [hbelow]
  · by_cases habove : i < s.toNat + bits
    · simp [hM i hi (by omega) habove]
    · simp [getElem_eq_false_of_lt_two_pow hy (show bits ≤ i - s.toNat by omega), hbelow]

end Bits

/-! ### Signed fields -/

theorem toNat_lowMask {bits : Nat} (hb : bits < 32) :
    (((1 : UInt32) <<< bits.toUInt32) - 1).toNat = 2 ^ bits - 1 := by
  have hpow : ((1 : UInt32) <<< bits.toUInt32).toNat = 2 ^ bits := by
    rw [UInt32.toNat_shiftLeft, Nat.toUInt32_eq, UInt32.toNat_ofNat',
      Nat.mod_eq_of_lt (show bits < 2 ^ 32 by omega), Nat.mod_eq_of_lt hb, UInt32.toNat_one,
      Nat.one_shiftLeft]
    exact Nat.mod_eq_of_lt (Nat.pow_lt_pow_right (by decide) hb)
  rw [UInt32.toNat_sub_of_le _ _ (by rw [UInt32.le_iff_toNat_le, hpow]; exact Nat.one_le_two_pow),
    hpow, UInt32.toNat_one]

theorem toNat_signedWord {bits : Nat} (hb : bits < 32) (v : Int) :
    (UInt32.ofInt v &&& (((1 : UInt32) <<< bits.toUInt32) - 1)).toNat = (v % 2 ^ bits).toNat := by
  rw [UInt32.toNat_and, toNat_lowMask hb, Nat.and_two_pow_sub_one_eq_mod, UInt32.ofInt,
    UInt32.toNat_ofNat']
  have h32 : (0 : Int) ≤ v % 2 ^ 32 := Int.emod_nonneg _ (by decide)
  have hdvd : (2 ^ bits : Int) ∣ 2 ^ 32 := pow_dvd_pow 2 hb.le
  apply Int.ofNat_inj.mp
  rw [Int.natCast_mod, Int.natCast_mod, Int.toNat_of_nonneg h32,
    Int.toNat_of_nonneg (Int.emod_nonneg _ (pow_ne_zero _ (by decide)))]
  simp only [Nat.cast_pow, Nat.cast_ofNat]
  rw [Int.emod_emod_of_dvd _ (dvd_refl _), Int.emod_emod_of_dvd _ hdvd]

theorem signedField_eq_ok {b : Nat} (hb : b + 1 < 32) {v : Int}
    (hv : -(2 ^ b : Int) ≤ v ∧ v < 2 ^ b) :
    ∃ y, signedField (b + 1) v = .ok y ∧ y.toNat < 2 ^ (b + 1) ∧
      (y.toBitVec.setWidth (b + 1)).toInt = v := by
  have hpow : ((Nat.pow 2 (b + 1 - 1) : Nat) : Int) = 2 ^ b := by
    rw [Nat.add_sub_cancel, Nat.pow_eq, Nat.cast_pow, Nat.cast_ofNat]
  have hy := toNat_signedWord hb v
  have hmod : (0 : Int) ≤ v % 2 ^ (b + 1) := Int.emod_nonneg _ (pow_ne_zero _ (by decide))
  have hlt : v % 2 ^ (b + 1) < 2 ^ (b + 1) := Int.emod_lt_of_pos _ (pow_pos (by decide) _)
  have hcast : ((2 ^ (b + 1) : Nat) : Int) = 2 ^ (b + 1) := by rw [Nat.cast_pow, Nat.cast_ofNat]
  have htwice : (2 : Int) ^ (b + 1) = 2 * 2 ^ b := by rw [pow_succ, Int.mul_comm]
  have hfit : (v % 2 ^ (b + 1)).toNat < 2 ^ (b + 1) := by omega
  refine ⟨UInt32.ofInt v &&& (((1 : UInt32) <<< (b + 1).toUInt32) - 1),
    by rw [signedField, hpow, if_pos hv], hy ▸ hfit, ?_⟩
  · -- the field is `v` modulo `2 ^ (b + 1)`, which sign extension reads back as `v`
    have hfield : (UInt32.ofInt v &&& (((1 : UInt32) <<< (b + 1).toUInt32) - 1)).toBitVec.setWidth
        (b + 1) = BitVec.ofInt (b + 1) v := by
      apply BitVec.eq_of_toNat_eq
      rw [BitVec.toNat_setWidth, UInt32.toNat_toBitVec, hy, BitVec.toNat_ofInt, hcast,
        Nat.mod_eq_of_lt hfit]
    rw [hfield, BitVec.toInt_ofInt]
    apply Int.bmod_eq_of_le <;> rw [hcast] <;> omega

theorem signedField_eq_error {b : Nat} {v : Int} (hv : ¬ (-(2 ^ b : Int) ≤ v ∧ v < 2 ^ b)) :
    signedField (b + 1) v = .error (.branchOutOfRange v) := by
  have hpow : ((Nat.pow 2 (b + 1 - 1) : Nat) : Int) = 2 ^ b := by
    rw [Nat.add_sub_cancel, Nat.pow_eq, Nat.cast_pow, Nat.cast_ofNat]
  rw [signedField, hpow, if_neg hv]

theorem patch_field {word M s : UInt32} {b : Nat} {d : Int} (hb : b + 1 < 32)
    (hs : s.toNat + (b + 1) ≤ 32)
    (hM : ∀ i (h : i < 32), s.toNat ≤ i → i < s.toNat + (b + 1) → M.toBitVec[i] = true)
    (hclear : word &&& M = 0) (hd : -(2 ^ b : Int) ≤ d ∧ d < 2 ^ b) :
    ∃ y, signedField (b + 1) d = .ok y ∧ (word ||| y <<< s) &&& ~~~M = word &&& ~~~M ∧
      ((word ||| y <<< s).toBitVec.extractLsb' s.toNat (b + 1)).toInt = d := by
  obtain ⟨y, hy, hlt, hint⟩ := signedField_eq_ok hb hd
  refine ⟨y, hy, and_not_or_shiftLeft (by omega) hlt hM, ?_⟩
  rw [extractLsb'_or_shiftLeft (by omega) hs fun i h h₁ h₂ =>
    getElem_eq_false_of_and_eq_zero hclear h (hM i h h₁ h₂), hint]

theorem patch_adr {word bytes : UInt32} (hclear : word &&& FixupKind.adr.mask = 0)
    (hbytes : bytes.toNat < 2 ^ 21) :
    (word ||| ((bytes &&& 3) <<< 29) ||| ((bytes >>> 2) <<< 5)) &&& ~~~FixupKind.adr.mask =
        word &&& ~~~FixupKind.adr.mask ∧
      FixupKind.adr.offset (word ||| ((bytes &&& 3) <<< 29) ||| ((bytes >>> 2) <<< 5)) =
        (bytes.toBitVec.setWidth 21).toInt := by
  have hlo : (bytes &&& 3).toNat < 2 ^ 2 := by
    rw [UInt32.toNat_and, show (3 : UInt32).toNat = 2 ^ 2 - 1 from rfl, Nat.and_two_pow_sub_one_eq_mod]
    exact Nat.mod_lt _ (by decide)
  have hhi : (bytes >>> 2).toNat < 2 ^ 19 := by
    rw [UInt32.toNat_shiftRight, show (2 : UInt32).toNat % 32 = 2 from rfl, Nat.shiftRight_eq_div_pow]
    omega
  have hclear' : ∀ i (h : i < 32), FixupKind.adr.mask.toBitVec[i] = true → word.toBitVec[i] = false :=
    fun i h hM => getElem_eq_false_of_and_eq_zero hclear h hM
  refine ⟨?_, ?_⟩
  · rw [and_not_or_shiftLeft (by decide) hhi (by decide), and_not_or_shiftLeft (by decide) hlo (by decide)]
  · -- each part of the offset is read from its own field, the other being clear there
    have hhigh : (word ||| ((bytes &&& 3) <<< 29) ||| ((bytes >>> 2) <<< 5)).toBitVec.extractLsb' 5 19 =
        (bytes >>> 2).toBitVec.setWidth 19 := by
      refine extractLsb'_or_shiftLeft (s := 5) (by decide) (by decide) fun i h h₁ h₂ => ?_
      have hM : ∀ i (h : i < 32), 5 ≤ i → i < 24 → FixupKind.adr.mask.toBitVec[i] = true := by
        decide
      simp only [UInt32.reduceToNat, Nat.reduceAdd] at h₁ h₂
      rw [UInt32.toBitVec_or, BitVec.getElem_or, hclear' i h (hM i h h₁ h₂), Bool.false_or,
        getElem_shiftLeft_eq_false_of_lt (by decide) h (by simp only [UInt32.reduceToNat]; omega)]
    have hlow : (word ||| ((bytes &&& 3) <<< 29) ||| ((bytes >>> 2) <<< 5)).toBitVec.extractLsb' 29 2 =
        (bytes &&& 3).toBitVec.setWidth 2 := by
      rw [UInt32.or_assoc, UInt32.or_comm ((bytes &&& 3) <<< 29), ← UInt32.or_assoc]
      refine extractLsb'_or_shiftLeft (s := 29) (by decide) (by decide) fun i h h₁ h₂ => ?_
      have hM : ∀ i (h : i < 32), 29 ≤ i → i < 31 → FixupKind.adr.mask.toBitVec[i] = true := by
        decide
      simp only [UInt32.reduceToNat, Nat.reduceAdd] at h₁ h₂
      rw [UInt32.toBitVec_or, BitVec.getElem_or, hclear' i h (hM i h h₁ h₂), Bool.false_or,
        getElem_shiftLeft_eq_false_of_le (s := 5) (by decide) hhi h (by simp only [UInt32.reduceToNat]; omega)]
    simp only [FixupKind.offset]
    rw [hhigh, hlow]
    congr 1
    ext i hi
    rw [BitVec.getElem_append, BitVec.getElem_setWidth]
    split
    · rename_i hlt
      rw [BitVec.getElem_setWidth, UInt32.toBitVec_and, BitVec.getLsbD_and]
      interval_cases i <;> simp
    · rename_i hge
      rw [BitVec.getElem_setWidth, UInt32.toBitVec_shiftRight, BitVec.ushiftRight_eq',
        BitVec.getLsbD_ushiftRight]
      simp only [BitVec.toNat_umod, UInt32.toNat_toBitVec, UInt32.reduceToNat]
      rw [show 2 % BitVec.toNat (32 : BitVec 32) + (i - 2) = i by
        rw [show BitVec.toNat (32 : BitVec 32) = 32 from rfl]; omega]

/-! ### One recorded word -/

def boundAt (labels : Array (Option Nat)) (l : Nat) : Option Nat := (labels[l]?).bind id

/-- Why the word recorded by `f` cannot be filled in, with the error `finalize` answers. -/
inductive Unresolvable (labels : Array (Option Nat)) (f : Fixup) : EncodeError → Prop
  /-- Its label is not bound. -/
  | unbound : boundAt labels f.label = none → Unresolvable labels f (.unboundLabel f.label)
  /-- It is an entry of a jump table whose own label is not bound. -/
  | tableUnbound {t table : Nat} : boundAt labels f.label = some t → f.kind = .tableEntry table →
      boundAt labels table = none → Unresolvable labels f (.unboundLabel table)
  /-- The distance to its label does not fit its field. -/
  | outOfRange {t : Nat} : boundAt labels f.label = some t → ¬ f.kind.Fits ((t : Int) - f.pos) →
      Unresolvable labels f (.branchOutOfRange (f.kind.unit * ((t : Int) - f.pos)))

/-- `new` is the word `old` recorded by `f` with its label's position filled in. A jump table
entry holds the bytes from its table to the label, as a 32-bit word; any other word keeps every
bit outside its field, which holds the distance to the label in the field's units. -/
def Resolves (labels : Array (Option Nat)) (f : Fixup) (old new : UInt32) : Prop :=
  ∃ t, boundAt labels f.label = some t ∧
    match f.kind with
    | .tableEntry table => ∃ s, boundAt labels table = some s ∧
        new = UInt32.ofInt (4 * ((t : Int) - s))
    | k => k.Fits ((t : Int) - f.pos) ∧ new &&& ~~~k.mask = old &&& ~~~k.mask ∧
        k.offset new = k.unit * ((t : Int) - f.pos)

def resolveAt (labels : Array (Option Nat)) (ws : Array UInt32) (f : Fixup) :
    Except EncodeError UInt32 := do
  let some target := boundAt labels f.label | throw (.unboundLabel f.label)
  resolveFixup labels (ws.getD f.pos 0) f target

theorem Unresolvable.unique {labels : Array (Option Nat)} {f : Fixup} {e₁ e₂ : EncodeError}
    (h₁ : Unresolvable labels f e₁) (h₂ : Unresolvable labels f e₂) : e₁ = e₂ := by
  cases h₁ with
  | unbound hn =>
    cases h₂ with
    | unbound => rfl
    | tableUnbound ht => rw [hn] at ht; cases ht
    | outOfRange ht => rw [hn] at ht; cases ht
  | tableUnbound ht hk hn =>
    cases h₂ with
    | unbound hn' => rw [hn'] at ht; cases ht
    | tableUnbound _ hk' => rw [hk] at hk'; cases hk'; rfl
    | outOfRange _ hfit => rw [hk] at hfit; exact absurd trivial hfit
  | outOfRange ht hfit =>
    cases h₂ with
    | unbound hn => rw [hn] at ht; cases ht
    | tableUnbound _ hk => rw [hk] at hfit; exact absurd trivial hfit
    | outOfRange ht' => rw [ht] at ht'; cases ht'; rfl

theorem resolveFixup_signed {labels : Array (Option Nat)} {word : UInt32} {pos l t : Nat}
    {k : FixupKind} {b : Nat} {v : Int} {P : UInt32 → UInt32} (hb : b + 1 < 32)
    (ht : boundAt labels l = some t) (hv : k.unit * ((t : Int) - pos) = v)
    (hres : resolveFixup labels word ⟨pos, l, k⟩ t = signedField (b + 1) v >>= fun y => pure (P y))
    (hfits : k.Fits ((t : Int) - pos) ↔ -(2 ^ b : Int) ≤ v ∧ v < 2 ^ b)
    (hok : ∀ y, signedField (b + 1) v = .ok y → -(2 ^ b : Int) ≤ v ∧ v < 2 ^ b →
      P y &&& ~~~k.mask = word &&& ~~~k.mask ∧ k.offset (P y) = v) :
    (∃ err, resolveFixup labels word ⟨pos, l, k⟩ t = .error err ∧
      Unresolvable labels ⟨pos, l, k⟩ err) ∨
    (∃ new, resolveFixup labels word ⟨pos, l, k⟩ t = .ok new ∧ k.Fits ((t : Int) - pos) ∧
      new &&& ~~~k.mask = word &&& ~~~k.mask ∧ k.offset new = k.unit * ((t : Int) - pos)) := by
  by_cases hd : -(2 ^ b : Int) ≤ v ∧ v < 2 ^ b
  · obtain ⟨y, hy, -⟩ := signedField_eq_ok hb hd
    obtain ⟨hkeep, hread⟩ := hok y hy hd
    refine .inr ⟨P y, by rw [hres, hy]; rfl, hfits.mpr hd, hkeep, hv ▸ hread⟩
  · refine .inl ⟨_, by rw [hres, signedField_eq_error hd]; rfl, ?_⟩
    have hout : Unresolvable labels ⟨pos, l, k⟩ (.branchOutOfRange (k.unit * ((t : Int) - pos))) :=
      .outOfRange ht (mt hfits.mp hd)
    rwa [hv] at hout

theorem resolveFixup_branch {labels : Array (Option Nat)} {word : UInt32} {pos l t : Nat}
    {k : FixupKind} {s : UInt32} {b : Nat} (hb : b + 1 < 32) (hs : s.toNat + (b + 1) ≤ 32)
    (ht : boundAt labels l = some t) (hclear : word &&& k.mask = 0) (hunit : k.unit = 1)
    (hres : resolveFixup labels word ⟨pos, l, k⟩ t =
      signedField (b + 1) ((t : Int) - pos) >>= fun y => pure (word ||| y <<< s))
    (hfits : k.Fits ((t : Int) - pos) ↔ -(2 ^ b : Int) ≤ (t : Int) - pos ∧ (t : Int) - pos < 2 ^ b)
    (hM : ∀ i (h : i < 32), s.toNat ≤ i → i < s.toNat + (b + 1) → k.mask.toBitVec[i] = true)
    (hoffset : ∀ w, k.offset w = (w.toBitVec.extractLsb' s.toNat (b + 1)).toInt) :
    (∃ err, resolveFixup labels word ⟨pos, l, k⟩ t = .error err ∧
      Unresolvable labels ⟨pos, l, k⟩ err) ∨
    (∃ new, resolveFixup labels word ⟨pos, l, k⟩ t = .ok new ∧ k.Fits ((t : Int) - pos) ∧
      new &&& ~~~k.mask = word &&& ~~~k.mask ∧ k.offset new = k.unit * ((t : Int) - pos)) := by
  refine resolveFixup_signed hb ht (by rw [hunit, Int.one_mul]) hres hfits fun y hy hd => ?_
  obtain ⟨y', hy', hkeep, hread⟩ := patch_field hb hs hM hclear hd
  rw [hy] at hy'
  cases hy'
  exact ⟨hkeep, (hoffset _).trans hread⟩

theorem resolveFixup_cases {labels : Array (Option Nat)} {word : UInt32} {f : Fixup} {t : Nat}
    (hclear : word &&& f.kind.mask = 0) (ht : boundAt labels f.label = some t) :
    (∃ err, resolveFixup labels word f t = .error err ∧ Unresolvable labels f err) ∨
    (∃ new, resolveFixup labels word f t = .ok new ∧ Resolves labels f word new) := by
  obtain ⟨pos, l, k⟩ := f
  cases k with
  | branch26 =>
    refine (resolveFixup_branch (k := .branch26) (s := 0) (b := 25) (by decide) (by decide) ht
      hclear rfl (by simp only [UInt32.shiftLeft_zero]; rfl) (by simp [FixupKind.Fits, FixupKind.unit, FixupKind.bits])
      (by decide) fun _ => rfl).imp id fun ⟨new, hres, hnew⟩ => ⟨new, hres, t, ht, hnew⟩
  | branch19 =>
    refine (resolveFixup_branch (k := .branch19) (s := 5) (b := 18) (by decide) (by decide) ht
      hclear rfl rfl
      (by simp [FixupKind.Fits, FixupKind.unit, FixupKind.bits]) (by decide) fun _ => rfl).imp id
      fun ⟨new, hres, hnew⟩ => ⟨new, hres, t, ht, hnew⟩
  | branch14 =>
    refine (resolveFixup_branch (k := .branch14) (s := 5) (b := 13) (by decide) (by decide) ht
      hclear rfl rfl
      (by simp [FixupKind.Fits, FixupKind.unit, FixupKind.bits]) (by decide) fun _ => rfl).imp id
      fun ⟨new, hres, hnew⟩ => ⟨new, hres, t, ht, hnew⟩
  | adr =>
    refine (resolveFixup_signed (b := 20) (v := ((t : Int) - pos) * 4) (by decide) ht
      (Int.mul_comm _ _) rfl (by simp [FixupKind.Fits, FixupKind.unit, FixupKind.bits, Int.mul_comm])
      fun y hy hd => ?_).imp id fun ⟨new, hres, hnew⟩ => ⟨new, hres, t, ht, hnew⟩
    obtain ⟨y', hy', hlt, hread⟩ := signedField_eq_ok (by decide) hd
    rw [hy] at hy'
    cases hy'
    obtain ⟨hkeep, hoffset⟩ := patch_adr hclear hlt
    exact ⟨hkeep, hoffset.trans hread⟩
  | tableEntry table =>
    cases hs : boundAt labels table with
    | none =>
      refine .inl ⟨_, ?_, .tableUnbound ht rfl hs⟩
      simp only [resolveFixup]
      rw [show (labels[table]?).bind id = none from hs]
      rfl
    | some st =>
      refine .inr ⟨_, ?_, t, ht, st, hs, rfl⟩
      simp only [resolveFixup]
      rw [show (labels[table]?).bind id = some st from hs, Int.mul_comm]
      rfl

theorem Resolves.not_unresolvable {labels : Array (Option Nat)} {f : Fixup} {old new : UInt32}
    {err : EncodeError} (h : Resolves labels f old new) : ¬ Unresolvable labels f err := by
  obtain ⟨t, ht, hk⟩ := h
  intro hu
  cases hu with
  | unbound hn => rw [hn] at ht; cases ht
  | tableUnbound _ hkind hn =>
    rw [hkind] at hk
    obtain ⟨st, hs, -⟩ := hk
    rw [hn] at hs
    cases hs
  | outOfRange ht' hfit =>
    rw [ht] at ht'
    cases ht'
    cases hkind : f.kind <;> rw [hkind] at hk hfit
    case tableEntry => exact hfit trivial
    all_goals exact hfit hk.1

theorem resolveAt_cases {labels : Array (Option Nat)} {ws : Array UInt32} {f : Fixup}
    (hclear : ws.getD f.pos 0 &&& f.kind.mask = 0) :
    (∃ err, resolveAt labels ws f = .error err ∧ Unresolvable labels f err) ∨
    (∃ new, resolveAt labels ws f = .ok new ∧ Resolves labels f (ws.getD f.pos 0) new) := by
  unfold resolveAt
  cases ht : boundAt labels f.label with
  | none => exact .inl ⟨_, rfl, .unbound ht⟩
  | some t => exact resolveFixup_cases hclear ht

/-! ### The loop of `finalize` -/

/-- The first recorded word of [fs], in the order of recording, that cannot be resolved fails
with [err]. -/
def FirstUnresolvable (labels : Array (Option Nat)) (fs : List Fixup) (err : EncodeError) : Prop :=
  ∃ pre f post, fs = pre ++ f :: post ∧ Unresolvable labels f err ∧
    ∀ g ∈ pre, ∀ err', ¬ Unresolvable labels g err'

namespace FirstUnresolvable

variable {labels : Array (Option Nat)} {f : Fixup} {fs : List Fixup} {err : EncodeError}

theorem not_nil : ¬ FirstUnresolvable labels [] err := by
  rintro ⟨pre, f, post, hfs, -⟩
  exact absurd hfs.symm (List.append_ne_nil_of_right_ne_nil _ (List.cons_ne_nil _ _))

theorem cons_iff_of_unresolvable {err₀ : EncodeError} (hu : Unresolvable labels f err₀) :
    FirstUnresolvable labels (f :: fs) err ↔ err₀ = err := by
  refine ⟨fun ⟨pre, g, post, hfs, hg, hpre⟩ => ?_,
    fun h => ⟨[], f, fs, rfl, h ▸ hu, fun _ h => absurd h List.not_mem_nil⟩⟩
  cases pre with
  | nil =>
    cases hfs
    exact hu.unique hg
  | cons g' pre =>
    cases hfs
    exact absurd hu (hpre _ List.mem_cons_self _)

theorem cons_iff_of_resolves {old new : UInt32} (hr : Resolves labels f old new) :
    FirstUnresolvable labels (f :: fs) err ↔ FirstUnresolvable labels fs err := by
  refine ⟨fun ⟨pre, g, post, hfs, hg, hpre⟩ => ?_, fun ⟨pre, g, post, hfs, hg, hpre⟩ => ?_⟩
  · cases pre with
    | nil =>
      cases hfs
      exact absurd hg hr.not_unresolvable
    | cons g' pre =>
      cases hfs
      exact ⟨pre, g, post, rfl, hg, fun g'' hg'' => hpre g'' (List.mem_cons_of_mem _ hg'')⟩
  · refine ⟨f :: pre, g, post, by rw [hfs]; rfl, hg, fun g' hg' err' => ?_⟩
    rcases List.mem_cons.mp hg' with rfl | hg'
    · exact hr.not_unresolvable
    · exact hpre g' hg' err'

end FirstUnresolvable

def patchAll (labels : Array (Option Nat)) : List Fixup → Array UInt32 →
    Except EncodeError (Array UInt32)
  | [], ws => .ok ws
  | f :: fs, ws => do patchAll labels fs (ws.set! f.pos (← resolveAt labels ws f))

def littleEndian (ws : Array UInt32) : ByteArray :=
  ⟨(ws.toList.flatMap fun (w : UInt32) =>
    [w.toUInt8, (w >>> 8).toUInt8, (w >>> 16).toUInt8, (w >>> 24).toUInt8]).toArray⟩

theorem finalize_eq (e : Encoder) :
    e.finalize = littleEndian <$> patchAll e.labels e.fixups.toList e.words := by
  unfold Encoder.finalize
  dsimp only
  rw [← Array.forIn_toList]
  generalize e.words = ws
  induction e.fixups.toList generalizing ws with
  | nil => rfl
  | cons f fs ih =>
    rw [List.forIn_cons, patchAll, resolveAt, boundAt]
    cases ht : e.labels[f.label]?.bind id with
    | none => rfl
    | some t =>
      dsimp only
      cases resolveFixup e.labels (ws.getD f.pos 0) f t with
      | error err => rfl
      | ok w => exact ih _

theorem getD_set! (ws : Array UInt32) (p i : Nat) (v : UInt32) :
    (ws.set! p v).getD i 0 = if p = i ∧ p < ws.size then v else ws.getD i 0 := by
  simp only [Array.set!_eq_setIfInBounds, Array.getD_eq_getD_getElem?, Array.getElem?_setIfInBounds]
  by_cases h : p = i
  · subst h
    by_cases hp : p < ws.size <;> simp [hp]
  · simp [h]

theorem patchAll_spec (labels : Array (Option Nat)) : ∀ (fs : List Fixup) (ws : Array UInt32),
    fs.Pairwise (fun f g => f.pos ≠ g.pos) → (∀ f ∈ fs, f.pos < ws.size) →
    (∀ f ∈ fs, ws.getD f.pos 0 &&& f.kind.mask = 0) →
    (∀ err, patchAll labels fs ws = .error err ↔ FirstUnresolvable labels fs err) ∧
    ∀ ws', patchAll labels fs ws = .ok ws' → ws'.size = ws.size ∧
      (∀ i, (∀ f ∈ fs, f.pos ≠ i) → ws'.getD i 0 = ws.getD i 0) ∧
      ∀ f ∈ fs, Resolves labels f (ws.getD f.pos 0) (ws'.getD f.pos 0)
  | [], ws, _, _, _ => by
    refine ⟨fun err => ⟨fun h => (by cases h), fun h => absurd h FirstUnresolvable.not_nil⟩,
      fun ws' h => ?_⟩
    cases h
    exact ⟨rfl, fun _ _ => rfl, fun _ h => absurd h List.not_mem_nil⟩
  | f :: fs, ws, hpair, hlt, hclear => by
    rw [List.pairwise_cons] at hpair
    rcases resolveAt_cases (hclear f List.mem_cons_self) with ⟨err₀, hres, hu⟩ | ⟨new, hres, hr⟩
    · -- the first word fails: that is the loop's error
      have hrun : patchAll labels (f :: fs) ws = .error err₀ := by rw [patchAll, hres]; rfl
      rw [hrun]
      refine ⟨fun err => ?_, fun ws' h => (by cases h)⟩
      rw [FirstUnresolvable.cons_iff_of_unresolvable hu]
      exact ⟨fun h => (by cases h; rfl), fun h => h ▸ rfl⟩
    · -- the first word is filled in; the rest run over the words with it in place
      set ws₁ := ws.set! f.pos new with hws₁
      have hsize : ws₁.size = ws.size := by rw [hws₁, Array.set!_eq_setIfInBounds, Array.size_setIfInBounds]
      have hkeep : ∀ g ∈ fs, ws₁.getD g.pos 0 = ws.getD g.pos 0 := fun g hg => by
        rw [hws₁, getD_set!, if_neg fun h => hpair.1 g hg h.1]
      have hrun : patchAll labels (f :: fs) ws = patchAll labels fs ws₁ := by
        rw [patchAll, hres]; rfl
      obtain ⟨herr, hok⟩ := patchAll_spec labels fs ws₁ hpair.2
        (fun g hg => hsize ▸ hlt g (List.mem_cons_of_mem _ hg))
        (fun g hg => (hkeep g hg).symm ▸ hclear g (List.mem_cons_of_mem _ hg))
      rw [hrun]
      refine ⟨fun err => (herr err).trans (FirstUnresolvable.cons_iff_of_resolves hr).symm,
        fun ws' h => ?_⟩
      obtain ⟨hsize', hsame, hres'⟩ := hok ws' h
      refine ⟨hsize'.trans hsize, fun i hi => ?_, fun g hg => ?_⟩
      · rw [hsame i fun g hg => hi g (List.mem_cons_of_mem _ hg), hws₁, getD_set!,
          if_neg fun h => hi f List.mem_cons_self h.1]
      · rcases List.mem_cons.mp hg with rfl | hg
        · -- no later word sits where the first one does
          have hnew : ws'.getD g.pos 0 = new := by
            rw [hsame g.pos fun g' hg' h => hpair.1 g' hg' h.symm, hws₁, getD_set!,
              if_pos ⟨rfl, hlt g List.mem_cons_self⟩]
          rw [hnew]
          exact hr
        · rw [← hkeep g hg]
          exact hres' g hg

theorem length_flatMap_four {α β : Type} (g : α → List β) (hg : ∀ x, (g x).length = 4) :
    ∀ l : List α, (l.flatMap g).length = 4 * l.length
  | [] => rfl
  | x :: l => by
    rw [List.flatMap_cons, List.length_append, hg, length_flatMap_four g hg l, List.length_cons]
    omega

theorem getElem?_flatMap_four {α β : Type} (g : α → List β) (hg : ∀ x, (g x).length = 4) :
    ∀ (l : List α) (i k : Nat), k < 4 → (l.flatMap g)[4 * i + k]? = (l[i]?).bind fun x => (g x)[k]?
  | [], i, k, _ => by simp
  | x :: l, 0, k, hk => by
    rw [List.flatMap_cons, List.getElem?_append_left (by rw [hg]; omega)]
    simp
  | x :: l, i + 1, k, hk => by
    rw [List.flatMap_cons, List.getElem?_append_right (by rw [hg]; omega), hg,
      show 4 * (i + 1) + k - 4 = 4 * i + k by omega, getElem?_flatMap_four g hg l i k hk]
    simp

theorem wordByte_spec (w : UInt32) {k : Nat} (hk : k < 4) : ∃ b : UInt8,
    [w.toUInt8, (w >>> 8).toUInt8, (w >>> 16).toUInt8, (w >>> 24).toUInt8][k]? = some b ∧
      b.toNat = w.toNat / 2 ^ (8 * k) % 256 := by
  interval_cases k <;> simp [UInt32.toNat_toUInt8, UInt32.toNat_shiftRight, Nat.shiftRight_eq_div_pow]

theorem littleEndian_bytes (ws : Array UInt32) : (littleEndian ws).size = 4 * ws.size ∧
    ∀ i (hi : i < ws.size) k, k < 4 →
      ((littleEndian ws)[4 * i + k]!).toNat = ws[i].toNat / 2 ^ (8 * k) % 256 := by
  constructor
  · show (List.toArray _).size = _
    rw [List.size_toArray, length_flatMap_four _ (fun _ => rfl), Array.length_toList]
  · intro i hi k hk
    obtain ⟨b, hb, hbv⟩ := wordByte_spec ws[i] hk
    have h := getElem?_flatMap_four (fun (w : UInt32) =>
      [w.toUInt8, (w >>> 8).toUInt8, (w >>> 16).toUInt8, (w >>> 24).toUInt8]) (fun _ => rfl)
      ws.toList i k hk
    have hw : ws.toList[i]? = some ws[i] := by simp [hi]
    rw [hw, Option.bind_some, hb] at h
    obtain ⟨hj, heq⟩ := List.getElem?_eq_some_iff.mp h
    rw [getElem!_pos (littleEndian ws) (4 * i + k) hj]
    show ((littleEndian ws).data[4 * i + k]).toNat = _
    simp only [littleEndian, List.getElem_toArray, heq]
    exact hbv

/-! ### States the encoder reaches -/

def Enc.Appends {α : Type} (m : EncM α) : Prop :=
  ∀ e a e', m.run e = .ok (a, e') →
    e'.labels = e.labels ∧ e'.fixups = e.fixups ∧ ∃ ws : Array UInt32, e'.words = e.words ++ ws

theorem Enc.Appends.emit (w : UInt32) : Enc.Appends (Enc.emit w) := by
  intro e a e' h
  cases h
  exact ⟨rfl, rfl, #[w], Array.push_eq_append⟩

namespace Encoder

/-- What finalizing relies on: the recorded words lie in the buffer, in the order they were
emitted, with their fields still clear. -/
structure Wf (e : Encoder) : Prop where
  sorted : e.fixups.toList.Pairwise fun f g => f.pos < g.pos
  inside : ∀ f ∈ e.fixups.toList, f.pos < e.words.size
  clear : ∀ f ∈ e.fixups.toList, e.words.getD f.pos 0 &&& f.kind.mask = 0

def Patchable (e : Encoder) (p : Nat) : Prop :=
  p + 1 < e.words.size ∧ ∀ f ∈ e.fixups.toList, f.pos ≠ p ∧ f.pos ≠ p + 1

/-- The states a sequence of calls of the encoder reaches from the empty one, with the
positions of the patchable pairs it has handed out. A call that only emits words (data
processing, loads and stores, moves, `br`, `brk`) is `appends`; the calls that make, bind or
refer to labels and the patchable pair are listed one by one. A call that fails leaves the
encoder as it was. -/
inductive Reachable : Encoder → List Nat → Prop
  | empty : Reachable {} []
  | appends {e e' : Encoder} {ps : List Nat} {α : Type} {m : EncM α} {a : α} :
      Reachable e ps → Enc.Appends m → m.run e = .ok (a, e') → Reachable e' ps
  | createLabel {e e' : Encoder} {ps : List Nat} {l : Nat} :
      Reachable e ps → Enc.createLabel.run e = .ok (l, e') → Reachable e' ps
  | bind {e e' : Encoder} {ps : List Nat} {l : Nat} :
      Reachable e ps → (Enc.bind l).run e = .ok ((), e') → Reachable e' ps
  | b {e e' : Encoder} {ps : List Nat} {l : Nat} :
      Reachable e ps → (Enc.b l).run e = .ok ((), e') → Reachable e' ps
  | bCond {e e' : Encoder} {ps : List Nat} {c : Cond} {l : Nat} :
      Reachable e ps → (Enc.bCond c l).run e = .ok ((), e') → Reachable e' ps
  | cbz {e e' : Encoder} {ps : List Nat} {w : Width} {r : Reg} {l : Nat} :
      Reachable e ps → (Enc.cbz w r l).run e = .ok ((), e') → Reachable e' ps
  | cbnz {e e' : Encoder} {ps : List Nat} {w : Width} {r : Reg} {l : Nat} :
      Reachable e ps → (Enc.cbnz w r l).run e = .ok ((), e') → Reachable e' ps
  | tbz {e e' : Encoder} {ps : List Nat} {isSet : Bool} {r : Reg} {n l : Nat} :
      Reachable e ps → (Enc.tbz isSet r n l).run e = .ok ((), e') → Reachable e' ps
  | adr {e e' : Encoder} {ps : List Nat} {r : Reg} {l : Nat} :
      Reachable e ps → (Enc.adr r l).run e = .ok ((), e') → Reachable e' ps
  | jumpTable {e e' : Encoder} {ps : List Nat} {l : Nat} {ls : List Nat} :
      Reachable e ps → (Enc.jumpTable l ls).run e = .ok ((), e') → Reachable e' ps
  | movImm32Patchable {e e' : Encoder} {ps : List Nat} {r : Reg} {p : Nat} :
      Reachable e ps → (Enc.movImm32Patchable r).run e = .ok (p, e') → Reachable e' (p :: ps)
  | patchImm32 {e e' : Encoder} {ps : List Nat} {p : Nat} {v : UInt32} :
      Reachable e ps → p ∈ ps → (Enc.patchImm32 p v).run e = .ok ((), e') → Reachable e' ps

def refer (e : Encoder) (l : Nat) (k : FixupKind) (w : UInt32) : Encoder :=
  { e with fixups := e.fixups.push ⟨e.words.size, l, k⟩, words := e.words.push w }

@[simp] theorem refer_words (e : Encoder) (l : Nat) (k : FixupKind) (w : UInt32) :
    (e.refer l k w).words = e.words.push w := rfl

@[simp] theorem refer_fixups (e : Encoder) (l : Nat) (k : FixupKind) (w : UInt32) :
    (e.refer l k w).fixups = e.fixups.push ⟨e.words.size, l, k⟩ := rfl

end Encoder

/-! ### What each call does -/

theorem run_bind_eq_ok {β γ : Type} {m : EncM β} {f : β → EncM γ} {e e' : Encoder} {c : γ}
    (h : (m >>= f).run e = .ok (c, e')) :
    ∃ b e₁, m.run e = .ok (b, e₁) ∧ (f b).run e₁ = .ok (c, e') := by
  cases hm : m.run e with
  | error err =>
    have hfail : (m >>= f).run e = .error err := by
      show (m e >>= fun p => f p.1 p.2) = _
      rw [show m e = .error err from hm]
      rfl
    rw [hfail] at h
    cases h
  | ok p =>
    obtain ⟨b, e₁⟩ := p
    exact ⟨b, e₁, rfl, (run_bind_of_ok hm).symm.trans h⟩

theorem run_fail_ne_ok {α : Type} {err : EncodeError} {e e' : Encoder} {a : α} :
    (Enc.fail err : EncM α).run e ≠ .ok (a, e') := fun h => by cases h

theorem run_gp_eq_ok {op : String} {r : Reg} {e e' : Encoder} {n : UInt32}
    (h : (Enc.gp op r).run e = .ok (n, e')) : e' = e ∧ n.toNat < 32 := by
  unfold Enc.gp at h
  split at h
  · exact absurd h run_fail_ne_ok
  · rename_i hr
    cases h
    simp only [Bool.or_eq_true, bne_iff_ne, ne_eq, gt_iff_lt, decide_eq_true_eq, not_or,
      not_not, UInt8.not_lt] at hr
    refine ⟨rfl, ?_⟩
    rw [UInt8.toNat_toUInt32]
    have := UInt8.le_iff_toNat_le.mp hr.2
    simp only [UInt8.reduceToNat] at this
    omega

theorem run_reference (l : Nat) (k : FixupKind) (w : UInt32) (e : Encoder) :
    (Enc.reference l k w).run e = .ok ((), e.refer l k w) := rfl

theorem run_bind_label {l : Nat} {e e' : Encoder} (h : (Enc.bind l).run e = .ok ((), e')) :
    e'.words = e.words ∧ e'.fixups = e.fixups := by
  obtain ⟨e₀, e₁, hget, hset⟩ := run_bind_eq_ok h
  cases hget
  split at hset
  · exact absurd hset run_fail_ne_ok
  · exact absurd hset run_fail_ne_ok
  · cases hset
    exact ⟨rfl, rfl⟩

theorem run_reference_of_gp {op : String} {r : Reg} {l : Nat} {k : FixupKind} {word : UInt32 → UInt32}
    {e e' : Encoder} (h : (Enc.gp op r >>= fun n => Enc.reference l k (word n)).run e = .ok ((), e')) :
    ∃ n : UInt32, n.toNat < 32 ∧ e' = e.refer l k (word n) := by
  obtain ⟨n, e₁, hg, hr⟩ := run_bind_eq_ok h
  obtain ⟨rfl, hn⟩ := run_gp_eq_ok hg
  rw [run_reference] at hr
  cases hr
  exact ⟨n, hn, rfl⟩

/-! ### The invariant of reached states -/

theorem getD_append_of_lt {xs ys : Array UInt32} {i : Nat} (hi : i < xs.size) :
    (xs ++ ys).getD i 0 = xs.getD i 0 := by
  rw [Array.getD_eq_getD_getElem?, Array.getD_eq_getD_getElem?, Array.getElem?_append_left hi]

namespace Encoder

def Inv (e : Encoder) (ps : List Nat) : Prop := e.Wf ∧ ∀ p ∈ ps, e.Patchable p

theorem Inv.empty : Inv {} [] :=
  ⟨⟨List.Pairwise.nil, fun _ h => absurd h List.not_mem_nil, fun _ h => absurd h List.not_mem_nil⟩,
    fun _ h => absurd h List.not_mem_nil⟩

theorem Inv.append {e e' : Encoder} {ps : List Nat} {ws : Array UInt32} (h : Inv e ps)
    (hf : e'.fixups = e.fixups) (hw : e'.words = e.words ++ ws) : Inv e' ps := by
  obtain ⟨⟨hsorted, hinside, hclear⟩, hps⟩ := h
  have hsize : e.words.size ≤ e'.words.size := by rw [hw, Array.size_append]; omega
  refine ⟨⟨hf ▸ hsorted, fun f hf' => ?_, fun f hf' => ?_⟩, fun p hp => ?_⟩
  · rw [hf] at hf'
    exact lt_of_lt_of_le (hinside f hf') hsize
  · rw [hf] at hf'
    rw [hw, getD_append_of_lt (hinside f hf')]
    exact hclear f hf'
  · obtain ⟨hlt, hne⟩ := hps p hp
    exact ⟨lt_of_lt_of_le hlt hsize, hf ▸ hne⟩

theorem Inv.refer {e : Encoder} {ps : List Nat} (h : Inv e ps) (l : Nat) {k : FixupKind}
    {w : UInt32} (hw : w &&& k.mask = 0) : Inv (e.refer l k w) ps := by
  obtain ⟨⟨hsorted, hinside, hclear⟩, hps⟩ := h
  have hmem : ∀ f ∈ (e.refer l k w).fixups.toList, f ∈ e.fixups.toList ∨ f = ⟨e.words.size, l, k⟩ := by
    intro f hf
    simpa using hf
  have hgetD : ∀ i < e.words.size, (e.words.push w).getD i 0 = e.words.getD i 0 := fun i hi => by
    rw [Array.push_eq_append, getD_append_of_lt hi]
  refine ⟨⟨?_, fun f hf => ?_, fun f hf => ?_⟩, fun p hp => ?_⟩
  · simp only [refer_fixups, Array.toList_push]
    refine List.pairwise_append.mpr ⟨hsorted, List.pairwise_singleton _ _, fun f hf g hg => ?_⟩
    rw [List.mem_singleton] at hg
    rw [hg]
    exact hinside f hf
  · rcases hmem f hf with hf | rfl
    · exact lt_of_lt_of_le (hinside f hf) (by simp)
    · simp
  · rcases hmem f hf with hf | rfl
    · show (e.words.push w).getD f.pos 0 &&& f.kind.mask = 0
      rw [hgetD f.pos (hinside f hf)]
      exact hclear f hf
    · show (e.words.push w).getD e.words.size 0 &&& k.mask = 0
      simpa [Array.getD_eq_getD_getElem?] using hw
  · obtain ⟨hlt, hne⟩ := hps p hp
    refine ⟨by simp; omega, fun f hf => ?_⟩
    rcases hmem f hf with hf | rfl
    · exact hne f hf
    · exact ⟨by dsimp only; omega, by dsimp only; omega⟩

theorem Inv.patch {e e' : Encoder} {ps : List Nat} {p : Nat} (h : Inv e ps) (hp : p ∈ ps)
    (hf : e'.fixups = e.fixups) (hsize : e'.words.size = e.words.size)
    (hkeep : ∀ i, i ≠ p → i ≠ p + 1 → e'.words.getD i 0 = e.words.getD i 0) : Inv e' ps := by
  obtain ⟨⟨hsorted, hinside, hclear⟩, hps⟩ := h
  obtain ⟨-, hne⟩ := hps p hp
  refine ⟨⟨hf ▸ hsorted, fun f hf' => ?_, fun f hf' => ?_⟩, fun q hq => ?_⟩
  · rw [hf] at hf'
    exact hsize ▸ hinside f hf'
  · rw [hf] at hf'
    rw [hkeep f.pos (hne f hf').1 (hne f hf').2]
    exact hclear f hf'
  · obtain ⟨hlt, hne'⟩ := hps q hq
    exact ⟨hsize ▸ hlt, hf ▸ hne'⟩

end Encoder

/-! ### The words the label calls emit have clear fields -/

section ClearFields

variable {a b n x M s : UInt32}

theorem or_and_eq_zero (ha : a &&& M = 0) (hb : b &&& M = 0) : (a ||| b) &&& M = 0 := by
  apply UInt32.toBitVec_inj.mp
  have ha' := congrArg UInt32.toBitVec ha
  have hb' := congrArg UInt32.toBitVec hb
  simp only [UInt32.toBitVec_and, UInt32.toBitVec_or, UInt32.toBitVec_zero] at ha' hb' ⊢
  rw [BitVec.and_or_distrib_right, ha', hb', BitVec.or_self]

theorem and_eq_zero_of_lt_32 (hn : n.toNat < 32) (hM : M &&& 31 = 0) : n &&& M = 0 := by
  apply UInt32.toBitVec_inj.mp
  ext i hi
  simp only [UInt32.toBitVec_and, BitVec.getElem_and, UInt32.toBitVec_zero, BitVec.getElem_zero]
  have hlowBits : ∀ i (h : i < 32), i < 5 → (31 : UInt32).toBitVec[i] = true := by decide
  by_cases hlow : i < 5
  · rw [getElem_eq_false_of_and_eq_zero hM hi (hlowBits i hi hlow), Bool.and_false]
  · rw [getElem_eq_false_of_lt_two_pow (show n.toNat < 2 ^ 5 from hn) (by omega) hi, Bool.false_and]

theorem shiftLeft_and_eq_zero (hs : s.toNat < 32) (hM : M.toNat < 2 ^ s.toNat) :
    (x <<< s) &&& M = 0 := by
  apply UInt32.toBitVec_inj.mp
  ext i hi
  simp only [UInt32.toBitVec_and, BitVec.getElem_and, UInt32.toBitVec_zero, BitVec.getElem_zero]
  by_cases hlow : i < s.toNat
  · rw [getElem_shiftLeft_eq_false_of_lt hs hi hlow, Bool.false_and]
  · rw [getElem_eq_false_of_lt_two_pow hM (by omega) hi, Bool.and_false]

end ClearFields

theorem clear_bCond (c : Cond) : ((0x54000000 : UInt32) ||| c.code) &&& FixupKind.branch19.mask = 0 := by
  cases c <;> decide

theorem clear_compare (base : UInt32) (hbase : ∀ w : Width, (base ||| w.sf) &&& FixupKind.branch19.mask = 0)
    (w : Width) {n : UInt32} (hn : n.toNat < 32) :
    (base ||| w.sf ||| n) &&& FixupKind.branch19.mask = 0 :=
  or_and_eq_zero (hbase w) (and_eq_zero_of_lt_32 hn (by decide))

theorem clear_tbz (isSet : Bool) (bit : Nat) {n : UInt32} (hn : n.toNat < 32) :
    ((if isSet then (0x37000000 : UInt32) else (0x36000000 : UInt32)) |||
      ((bit / 32).toUInt32 <<< 31) ||| ((bit % 32).toUInt32 <<< 19) ||| n) &&&
      FixupKind.branch14.mask = 0 := by
  refine or_and_eq_zero (or_and_eq_zero (or_and_eq_zero ?_ ?_) ?_) (and_eq_zero_of_lt_32 hn (by decide))
  · cases isSet <;> decide
  · exact shiftLeft_and_eq_zero (by decide) (by decide)
  · exact shiftLeft_and_eq_zero (by decide) (by decide)

theorem clear_adr {n : UInt32} (hn : n.toNat < 32) :
    ((0x10000000 : UInt32) ||| n) &&& FixupKind.adr.mask = 0 :=
  or_and_eq_zero (by decide) (and_eq_zero_of_lt_32 hn (by decide))

/-! ### Every reached state satisfies the invariant -/

theorem set!_of_lt_keeps (ws : Array UInt32) (i : Nat) (x : UInt32) :
    (if i < ws.size then ws.set! i x else ws).size = ws.size ∧
      ∀ j, j ≠ i → (if i < ws.size then ws.set! i x else ws).getD j 0 = ws.getD j 0 := by
  split
  · refine ⟨by rw [Array.set!_eq_setIfInBounds, Array.size_setIfInBounds], fun j hj => ?_⟩
    rw [getD_set!, if_neg fun h => hj h.1.symm]
  · exact ⟨rfl, fun _ _ => rfl⟩

theorem run_patchImm32_keeps {p : Nat} {v : UInt32} {e e' : Encoder}
    (h : (Enc.patchImm32 p v).run e = .ok ((), e')) :
    e'.fixups = e.fixups ∧ e'.words.size = e.words.size ∧
      ∀ i, i ≠ p → i ≠ p + 1 → e'.words.getD i 0 = e.words.getD i 0 := by
  cases h
  obtain ⟨hs₁, hk₁⟩ := set!_of_lt_keeps e.words p (withImm16 (e.words.getD p 0) (v &&& 0xFFFF))
  obtain ⟨hs₂, hk₂⟩ := set!_of_lt_keeps
    (if p < e.words.size then e.words.set! p (withImm16 (e.words.getD p 0) (v &&& 0xFFFF)) else e.words)
    (p + 1) (withImm16 ((if p < e.words.size then
      e.words.set! p (withImm16 (e.words.getD p 0) (v &&& 0xFFFF)) else e.words).getD (p + 1) 0)
        (v >>> 16))
  exact ⟨rfl, hs₂.trans hs₁, fun i hp hp₁ => (hk₂ i hp₁).trans (hk₁ i hp)⟩

namespace Encoder

theorem Inv.pair {e : Encoder} {ps : List Nat} (h : Inv e ps) (a b : UInt32) :
    Inv { e with words := (e.words.push a).push b } (e.words.size :: ps) := by
  have happ : Inv { e with words := (e.words.push a).push b } ps :=
    h.append rfl (by rw [Array.push_eq_append, Array.push_eq_append, Array.append_assoc])
  refine ⟨happ.1, fun p hp => ?_⟩
  rcases List.mem_cons.mp hp with rfl | hp
  · refine ⟨by simp, fun f hf => ?_⟩
    have := h.1.inside f hf
    exact ⟨by omega, by omega⟩
  · exact happ.2 p hp

theorem Inv.bindLabel {e e' : Encoder} {ps : List Nat} {l : Nat} (h : Inv e ps)
    (hrun : (Enc.bind l).run e = .ok ((), e')) : Inv e' ps := by
  obtain ⟨hw, hf⟩ := run_bind_label hrun
  exact h.append hf (by rw [hw, Array.append_empty])

theorem Inv.tableEntries {table : Nat} {ps : List Nat} :
    ∀ (ts : List Nat) {e e' : Encoder}, Inv e ps →
      (ts.forM fun t => Enc.reference t (.tableEntry table) 0 : EncM Unit).run e = .ok ((), e') →
      Inv e' ps
  | [], _, _, h, hrun => by cases hrun; exact h
  | t :: ts, e, e', h, hrun => by
    rw [List.forM_eq_forM, List.forM_cons] at hrun
    obtain ⟨u, e₁, hr, hrest⟩ := run_bind_eq_ok hrun
    rw [run_reference] at hr
    cases hr
    exact Inv.tableEntries ts (h.refer t (by simp)) hrest

theorem Reachable.inv {e : Encoder} {ps : List Nat} (h : e.Reachable ps) : e.Inv ps := by
  induction h with
  | empty => exact Inv.empty
  | appends _ hm hrun ih =>
    obtain ⟨-, hf, ws, hw⟩ := hm _ _ _ hrun
    exact ih.append hf hw
  | createLabel _ hrun ih =>
    cases hrun
    exact ih.append rfl Array.append_empty.symm
  | bind _ hrun ih => exact ih.bindLabel hrun
  | b _ hrun ih =>
    cases hrun
    exact ih.refer _ (by decide)
  | bCond _ hrun ih =>
    cases hrun
    exact ih.refer _ (clear_bCond _)
  | cbz _ hrun ih =>
    unfold Enc.cbz at hrun
    obtain ⟨n, hn, rfl⟩ := run_reference_of_gp hrun
    exact ih.refer _ (clear_compare _ (by intro w; cases w <;> decide) _ hn)
  | cbnz _ hrun ih =>
    unfold Enc.cbnz at hrun
    obtain ⟨n, hn, rfl⟩ := run_reference_of_gp hrun
    exact ih.refer _ (clear_compare _ (by intro w; cases w <;> decide) _ hn)
  | tbz _ hrun ih =>
    unfold Enc.tbz at hrun
    dsimp only at hrun
    split at hrun
    · obtain ⟨_, _, hfail, -⟩ := run_bind_eq_ok hrun
      exact absurd hfail run_fail_ne_ok
    · obtain ⟨n, hn, rfl⟩ := run_reference_of_gp hrun
      exact ih.refer _ (clear_tbz _ _ hn)
  | adr _ hrun ih =>
    unfold Enc.adr at hrun
    obtain ⟨n, hn, rfl⟩ := run_reference_of_gp hrun
    exact ih.refer _ (clear_adr hn)
  | jumpTable _ hrun ih =>
    obtain ⟨u, e₁, hbind, hrefs⟩ := run_bind_eq_ok hrun
    exact Inv.tableEntries _ (ih.bindLabel hbind) hrefs
  | movImm32Patchable _ hrun ih =>
    obtain ⟨d, e₁, hg, hrest⟩ := run_bind_eq_ok hrun
    obtain ⟨rfl, -⟩ := run_gp_eq_ok hg
    cases hrest
    exact ih.pair _ _
  | patchImm32 _ hp hrun ih =>
    obtain ⟨hf, hsize, hkeep⟩ := run_patchImm32_keeps hrun
    exact ih.patch hp hf hsize hkeep

end Encoder

/-! ### Finalizing a reached encoder -/

/-- Resolving labels at the end. For every encoder a sequence of calls reaches, `finalize`
fails exactly when some recorded word cannot be resolved, and then with the error of the first
such word in the order the words were recorded. Otherwise it returns the words of a buffer of
the same length, each as four bytes, low byte first: a word that refers to no label is the
word emitted, and a word that does is resolved against the label it names: its offset field,
sign-extended, is the distance in words to the label (four times that, in bytes, for
[adr]), the rest of the word is as emitted, and a jump-table entry is four times the
distance from the table to its target. -/
theorem finalize_resolves_labels {e : Encoder} {ps : List Nat} (h : e.Reachable ps) :
    (∀ err, e.finalize = .error err ↔ FirstUnresolvable e.labels e.fixups.toList err) ∧
    ∀ bytes, e.finalize = .ok bytes → ∃ ws : Array UInt32, ws.size = e.words.size ∧
      (∀ i, (∀ f ∈ e.fixups.toList, f.pos ≠ i) → ws.getD i 0 = e.words.getD i 0) ∧
      (∀ f ∈ e.fixups.toList, Resolves e.labels f (e.words.getD f.pos 0) (ws.getD f.pos 0)) ∧
      bytes.size = 4 * ws.size ∧
      ∀ i (hi : i < ws.size) k, k < 4 → (bytes[4 * i + k]!).toNat = ws[i].toNat / 2 ^ (8 * k) % 256 := by
  have hwf := h.inv.1
  obtain ⟨herr, hok⟩ := patchAll_spec e.labels e.fixups.toList e.words
    (hwf.sorted.imp Nat.ne_of_lt) hwf.inside hwf.clear
  rw [finalize_eq]
  refine ⟨fun err => ?_, fun bytes hb => ?_⟩
  · rw [← herr err]
    cases patchAll e.labels e.fixups.toList e.words <;> simp [Functor.map, Except.map]
  · cases hp : patchAll e.labels e.fixups.toList e.words with
    | error err => rw [hp] at hb; cases hb
    | ok ws =>
      rw [hp] at hb
      cases hb
      obtain ⟨hsize, hkeep, hres⟩ := hok ws hp
      exact ⟨ws, hsize, hkeep, hres, littleEndian_bytes ws⟩

/-- A loop of one [brk] closed by a branch back to its head: finalizing cannot fail, keeps
the [brk], and resolves the branch to one word back. -/
theorem finalize_resolves_back_edge :
    ∃ e : Encoder, e.Reachable [] ∧ e.fixups.toList = [⟨1, 0, .branch26⟩] ∧
      e.labels = #[some 0] ∧ (∀ err, e.finalize ≠ .error err) ∧
      ∀ bytes, e.finalize = .ok bytes → ∃ ws : Array UInt32, ws.size = 2 ∧
        ws.getD 0 0 = 0xD4200000 ∧ Resolves e.labels ⟨1, 0, .branch26⟩ 0x14000000 (ws.getD 1 0) := by
  have h₁ : Encoder.Reachable { labels := #[none] } [] := .createLabel .empty rfl
  have h₂ : Encoder.Reachable { labels := #[some 0] } [] := .bind (l := 0) h₁ rfl
  have h₃ : Encoder.Reachable { words := #[0xD4200000], labels := #[some 0] } [] :=
    .appends (m := Enc.brk) h₂ (Enc.Appends.emit _) rfl
  have h₄ : Encoder.Reachable
      { words := #[0xD4200000, 0x14000000], labels := #[some 0], fixups := #[⟨1, 0, .branch26⟩] } [] :=
    .b (l := 0) h₃ rfl
  obtain ⟨herr, hok⟩ := finalize_resolves_labels h₄
  refine ⟨_, h₄, rfl, rfl, fun err hfail => ?_, fun bytes hb => ?_⟩
  · -- the only recorded word names a bound label one word back, well inside 26 bits
    obtain ⟨pre, f, post, hsplit, hun, -⟩ := (herr err).mp hfail
    have hmem : f ∈ [(⟨1, 0, .branch26⟩ : Fixup)] := by
      rw [show [(⟨1, 0, .branch26⟩ : Fixup)] = pre ++ f :: post from hsplit]
      simp
    have hf : f = ⟨1, 0, .branch26⟩ := List.mem_singleton.mp hmem
    subst hf
    cases hun with
    | unbound hb => cases hb
    | tableUnbound _ hk _ => cases hk
    | outOfRange ht hfit => cases ht; exact hfit (by decide)
  · obtain ⟨ws, hsize, hkeep, hres, -⟩ := hok bytes hb
    exact ⟨ws, hsize, hkeep 0 (by simp), hres _ (by simp)⟩

end OnePassJit.Arm64
