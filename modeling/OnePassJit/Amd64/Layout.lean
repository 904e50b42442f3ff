import OnePassJit.Amd64.Encode

/-!
Laying out an amd64 function: choosing branch forms and placing every instruction.

Branches start in a form long enough for any distance (8 bytes for `jcc`, 6 for `jmp`)
and a rip-relative `lea` in an 8-byte form; up to five passes then shrink them. In a
pass every instruction gets its offset from the sizes so far; a branch whose target,
corrected by what earlier instructions gained in this pass, lies within a signed byte
of its short form becomes short for good, any other branch takes its near form and is
looked at again next pass, and a `lea` takes its 7-byte form. A forward target's offset
is the one of the previous pass; subtracting the bytes gained before the branch keeps
the estimate from falling below the true distance. A label bound to no instruction
counts as the absolute address given by its number.
-/

namespace OnePassJit.Amd64

/-- How far the layout of one instruction has got. -/
structure Slot where
  size : Nat
  short : Bool := false
  done : Bool

def Slot.initial {τ : Type} : Instr τ → Slot
  | .jcc .. => ⟨8, false, false⟩
  | .jmp _ => ⟨6, false, false⟩
  | .leaRip .. => ⟨8, false, false⟩
  | i => ⟨i.byteSize, false, true⟩

def offsetsOf (slots : Array Slot) : Array Nat :=
  (slots.foldl (fun (acc : Array Nat × Nat) s => (acc.1.push acc.2, acc.2 + s.size))
    (#[], 0)).1

/-- Where a label points: the offset of its instruction, or its number when unbound. -/
def targetAddress (labelAt : Nat → Option Nat) (ips : Array Nat) (l : Nat) : Nat × Bool :=
  match labelAt l with
  | some j => (ips.getD j 0, true)
  | none => (l, false)

/-- One pass over the instructions; answers the new slots and offsets, and whether a size
changed. -/
def layoutPass (instrs : Array (Instr Nat)) (labelAt : Nat → Option Nat)
    (slots : Array Slot) (ips : Array Nat) : Array Slot × Array Nat × Bool :=
  let step (acc : Array Slot × Array Nat × Nat × Nat × Bool) (k : Nat) :=
    let (slots, ips, ip, gained, changed) := acc
    let ips := ips.set! k ip
    let s := slots.getD k ⟨0, false, true⟩
    if s.done then (slots, ips, ip + s.size, gained, changed) else
    let s' : Slot := match instrs.getD k .nop with
      | .leaRip .. => ⟨leaRipSize, false, true⟩
      | i =>
        match i.target? with
        | some l =>
          let (addr, inBlock) := targetAddress labelAt ips l
          let diff : Int := (addr : Int) - (ip + shortBranchSize)
          let diff := if inBlock && diff ≥ 0 then diff - gained else diff
          if fitsI8 diff then ⟨shortBranchSize, true, true⟩
          else ⟨nearBranchSize i, false, false⟩
        | none => s
    let gained := gained + (s.size - s'.size)
    (slots.set! k s', ips, ip + s'.size, gained, changed || s'.size != s.size)
  let (slots, ips, _, _, changed) :=
    (List.range instrs.size).foldl step (slots, ips, 0, 0, false)
  (slots, ips, changed)

def layoutPasses (instrs : Array (Instr Nat)) (labelAt : Nat → Option Nat) :
    Nat → Array Slot → Array Nat → Array Slot × Array Nat
  | 0, slots, ips => (slots, ips)
  | n + 1, slots, ips =>
    let (slots', ips', changed) := layoutPass instrs labelAt slots ips
    if changed then layoutPasses instrs labelAt n slots' ips' else (slots', ips')

/-- A laid out instruction: its offset, the instruction with its branch target resolved
to an offset in the function, and its bytes. -/
structure Placed where
  offset : Nat
  instr : Instr Nat
  bytes : List UInt8
  deriving Inhabited

/-- Lay out a function: final offsets, branch forms and bytes of every instruction. -/
def layout (instrs : Array (Instr Nat)) (labelAt : Nat → Option Nat) : Array Placed :=
  let slots0 := instrs.map Slot.initial
  let (slots, ips) := layoutPasses instrs labelAt 5 slots0 (offsetsOf slots0)
  (List.range instrs.size).toArray.map fun k =>
    let i := instrs.getD k .nop
    let s := slots.getD k ⟨0, false, true⟩
    let ip := ips.getD k 0
    let bytes := match i.target? with
      | some l =>
        let (addr, _) := targetAddress labelAt ips l
        (encode i s.short ((addr : Int) - (ip + s.size)))
      | none => encode i
    { offset := ip, instr := i.mapTarget fun l => (targetAddress labelAt ips l).1, bytes }

end OnePassJit.Amd64
