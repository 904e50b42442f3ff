/-!
Linear memory of an instance.

Memory is a byte buffer whose length is normally a whole number of 64 KiB pages; a
memory may also be made of any exact length, and then its page count rounds down.
Growing adds zeroed pages up to the declared maximum and answers the previous page
count.
-/

namespace OnePassJit

def pageSize : Nat := 65536

/-- Linear memory: its length in bytes, the bytes written so far and its maximum page
count. `written` is a prefix of the memory; every byte past it is zero, so a large
memory costs nothing until it is written. -/
structure LinearMemory where
  size : Nat
  written : ByteArray
  maxPages : UInt32
  deriving Inhabited

namespace LinearMemory

def new (minPages maxPages : UInt32) : LinearMemory :=
  ⟨minPages.toNat * pageSize, .empty, maxPages⟩

/-- Exactly `len` zeroed bytes; the maximum is the whole pages they hold. -/
def ofLength (len : Nat) : LinearMemory :=
  ⟨len, .empty, (len / pageSize).toUInt32⟩

def ofBytes (b : ByteArray) (maxPages : UInt32) : LinearMemory := ⟨b.size, b, maxPages⟩

def fitBytes (b : ByteArray) (n : Nat) : ByteArray :=
  if n ≤ b.size then b.extract 0 n else b ++ ⟨Array.replicate (n - b.size) 0⟩

def bytes (m : LinearMemory) : ByteArray := fitBytes m.written m.size

def pages (m : LinearMemory) : UInt32 := (m.size / pageSize).toUInt32

/-- Grow by `delta` zeroed pages, answering the previous page count; nothing changes
when the new count passes 32 bits or the maximum. A memory whose length is not a whole
number of pages is cut to its whole pages first. -/
def grow (m : LinearMemory) (delta : UInt32) : Option (UInt32 × LinearMemory) :=
  let old := m.pages
  let new := old.toNat + delta.toNat
  if new < Nat.pow 2 32 ∧ new ≤ m.maxPages.toNat then
    let size := new * pageSize
    let written := if size < m.written.size then m.written.extract 0 size else m.written
    some (old, { m with size, written })
  else none

def read (m : LinearMemory) (addr : Nat) : UInt8 :=
  if addr < m.size then m.written[addr]?.getD 0 else 0

def write? (m : LinearMemory) (addr : Nat) (data : ByteArray) : Option LinearMemory :=
  let stop := addr + data.size
  if stop ≤ m.size then
    let base := if m.written.size < stop then fitBytes m.written stop else m.written
    some { m with written := data.copySlice 0 base addr data.size }
  else none

theorem size_new (lo hi : UInt32) : (new lo hi).size = lo.toNat * pageSize := rfl

end LinearMemory

end OnePassJit
