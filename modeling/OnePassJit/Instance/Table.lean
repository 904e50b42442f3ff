/-!
Tables of function references.

A table holds raw references (a function record address, or zero for null). Without a
declared maximum it grows to at most 2^27 elements, and never beyond that bound even
when the declared maximum is larger.
-/

namespace OnePassJit

def tableLengthLimit : Nat := Nat.pow 2 27

/-- A table: its elements and its declared maximum. -/
structure RefTable where
  elements : Array UInt64
  max : Option UInt32
  deriving Inhabited

namespace RefTable

def new (min : UInt32) (max : Option UInt32) : RefTable :=
  ⟨Array.replicate min.toNat 0, max⟩

def size (t : RefTable) : Nat := t.elements.size

def limit (t : RefTable) : Nat :=
  match t.max with
  | some m => min m.toNat tableLengthLimit
  | none => tableLengthLimit

/-- Grow by `delta` elements set to `init`, answering the previous length (as 32 bits);
nothing changes when the new length passes the limit. -/
def grow (t : RefTable) (delta : UInt32) (init : UInt64) : Option (UInt32 × RefTable) :=
  let old := t.size.toUInt32
  let new := old.toNat + delta.toNat
  if new < Nat.pow 2 32 ∧ new ≤ t.limit then
    let elements := if new ≤ t.size then t.elements.extract 0 new
      else t.elements ++ Array.replicate (new - t.size) init
    some (old, { t with elements })
  else none

def get? (t : RefTable) (i : Nat) : Option UInt64 := t.elements[i]?

theorem size_new (min : UInt32) (max : Option UInt32) : (new min max).size = min.toNat := by
  simp [new, size]

end RefTable

end OnePassJit
