/-!
The memory of the machine that runs generated code: numbered regions of bytes.

Region `i` occupies the addresses from `addressBase + i · 2^40` up to its size, so a
region can grow in place without moving what lies in the others. The base lies far
above small numbers, so a number a program makes up is hardly ever an address.
Accesses are little endian and must lie inside one region; anything else is a fault.
-/

namespace OnePassJit.Amd64

def regionBits : Nat := 40

def addressBase : UInt64 := 0x5A3C000000000000

def regionBase (i : Nat) : UInt64 := addressBase + (i * Nat.pow 2 regionBits).toUInt64

/-- The bytes of the machine. -/
structure AddressSpace where
  regions : Array ByteArray := #[]
  deriving Inhabited

def byteAt (b : ByteArray) (i : Nat) : UInt8 := if h : i < b.size then b[i] else 0

def readLE (b : ByteArray) (off n : Nat) : UInt64 :=
  (List.range n).foldr (fun k acc => (acc <<< 8) ||| (byteAt b (off + k)).toUInt64) 0

def writeLE (b : ByteArray) (off n : Nat) (v : UInt64) : ByteArray :=
  (List.range n).foldl (fun b k => b.set! (off + k) (v >>> (8 * k).toUInt64).toUInt8) b

namespace AddressSpace

/-- Region and offset of an access of `n` bytes at `addr`, if it lies in one region. -/
def locate (m : AddressSpace) (addr : UInt64) (n : Nat) : Option (Nat × Nat) :=
  let rel := addr - addressBase
  let i := (rel >>> regionBits.toUInt64).toNat
  let off := (rel % (Nat.pow 2 regionBits : Nat).toUInt64).toNat
  match m.regions[i]? with
  | some r => if off + n ≤ r.size then some (i, off) else none
  | none => none

def read (m : AddressSpace) (addr : UInt64) (n : Nat) : Option UInt64 := do
  let (i, off) ← m.locate addr n
  pure (readLE (m.regions.getD i .empty) off n)

def write (m : AddressSpace) (addr : UInt64) (n : Nat) (v : UInt64) : Option AddressSpace := do
  let (i, off) ← m.locate addr n
  pure { regions := m.regions.modify i (writeLE · off n v) }

def region (m : AddressSpace) (i : Nat) : ByteArray := m.regions.getD i .empty

def setRegion (m : AddressSpace) (i : Nat) (b : ByteArray) : AddressSpace :=
  let rs := if m.regions.size ≤ i then
      m.regions ++ Array.replicate (i + 1 - m.regions.size) .empty
    else m.regions
  { regions := rs.set! i b }

def modifyRegion (m : AddressSpace) (i : Nat) (f : ByteArray → ByteArray) : AddressSpace :=
  { regions := m.regions.modify i f }

end AddressSpace

def zeros (n : Nat) : ByteArray := ⟨Array.replicate n 0⟩

def resizeBytes (b : ByteArray) (n : Nat) : ByteArray :=
  if n ≤ b.size then b.extract 0 n else b ++ zeros (n - b.size)

end OnePassJit.Amd64
