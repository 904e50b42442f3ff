/-!
Code segments: the functions of a module laid out back to back.

Every function starts at the next multiple of 16 after the previous one's end; the gaps
hold zero bytes. `CodeSegment.offsets` gives each function's start.
-/

namespace OnePassJit

def functionAlignment : Nat := 16

def alignUp (n a : Nat) : Nat := (n + a - 1) / a * a

/-- The bytes of a segment. -/
structure CodeSegment where
  bytes : ByteArray
  deriving Inhabited

namespace CodeSegment

def layout (sizes : List Nat) : List Nat × Nat :=
  sizes.foldl (fun (acc : List Nat × Nat) n =>
    let start := alignUp acc.2 functionAlignment
    (acc.1 ++ [start], start + n)) ([], 0)

/-- Start offset of every function. -/
def offsets (functions : List ByteArray) : List Nat := (layout (functions.map (·.size))).1

def ofFunctions (functions : List ByteArray) : CodeSegment :=
  ⟨functions.foldl (fun acc f =>
    acc ++ ⟨Array.replicate (alignUp acc.size functionAlignment - acc.size) 0⟩ ++ f)
    ByteArray.empty⟩

def size (s : CodeSegment) : Nat := s.bytes.size

def isEmpty (s : CodeSegment) : Bool := s.size == 0

def containsOffset (s : CodeSegment) (off : Int) : Bool := 0 ≤ off && off < s.size

end CodeSegment

end OnePassJit
