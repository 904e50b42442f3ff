/-!
String tables of an ELF file.

A table starts with the empty string, at offset 0. The other strings are written once
each, in descending order of their bytes read from the end. In that order a string
that ends another one comes right after a string it ends, so when the string written
last ends with the next one, the next one shares its tail and takes no bytes.
-/

namespace OnePassJit.Elf

/-- Lexicographic `≥` on byte lists; a list comes after every longer list it starts. -/
def lexGe : List UInt8 → List UInt8 → Bool
  | _, [] => true
  | [], _ :: _ => false
  | x :: xs, y :: ys => if x == y then lexGe xs ys else y < x

/-- The bytes of a string table and the offset of every string in it. -/
structure StringTable where
  bytes : ByteArray
  offsets : List (String × Nat)

namespace StringTable

/-- One string placed after those before it: shared with the tail of the string
written last when that one ends with it, else written with its terminator. -/
def place (acc : List UInt8 × List (String × Nat) × List UInt8)
    (entry : String × List UInt8) : List UInt8 × List (String × Nat) × List UInt8 :=
  let (out, offsets, last) := acc
  let (s, b) := entry
  if b.isSuffixOf last then (out, offsets ++ [(s, out.length - b.length - 1)], last)
  else (out ++ b ++ [0], offsets ++ [(s, out.length)], b)

def build (strings : List String) : StringTable :=
  let entries := (strings.eraseDups.map fun s => (s, s.toUTF8.toList)).mergeSort
    fun a b => lexGe a.2.reverse b.2.reverse
  let (out, offsets, _) := entries.foldl place ([0], [], [])
  { bytes := ⟨out.toArray⟩, offsets }

/-- Offset of `s` in the table; 0, the empty string, for one it does not hold. -/
def offset (t : StringTable) (s : String) : Nat :=
  ((t.offsets.find? (·.1 == s)).map (·.2)).getD 0

end StringTable

end OnePassJit.Elf
