import Mathlib.Data.List.Induction
import OnePassJit.CodeSegment

/-!
Laying functions out in a code segment.

`CodeSegment.offsets` computes where each function starts from the sizes alone, and
`CodeSegment.ofFunctions` writes the bytes in a pass of its own. `LaidOut` states what the
two promise together: the first function starts at 0 and each next one at the first
multiple of 16 at or after the previous one's end, each function's bytes sit at its
offset, the gaps hold zero bytes, and the segment ends where the last function does.

Both passes place one function after another, so the main statement,
`ofFunctions_laidOut`, is an induction over the function placed last (`LaidOut.place`).
-/

namespace OnePassJit

/-! Rounding up to the function alignment. -/

theorem le_alignUp (n : Nat) : n ≤ alignUp n functionAlignment := by
  simp only [alignUp, functionAlignment]
  omega

theorem alignUp_mod (n : Nat) : alignUp n functionAlignment % functionAlignment = 0 := by
  simp [alignUp]

theorem alignUp_le {n m : Nat} (hm : m % functionAlignment = 0) (h : n ≤ m) :
    alignUp n functionAlignment ≤ m := by
  simp only [alignUp, functionAlignment] at *
  omega

namespace CodeSegment

/-- The segment with `f` placed at the first multiple of 16 at or after its end, the gap
filled with zero bytes. -/
def place (seg : CodeSegment) (f : ByteArray) : CodeSegment :=
  ⟨seg.bytes ++ ⟨Array.replicate (alignUp seg.size functionAlignment - seg.size) 0⟩ ++ f⟩

theorem size_gap (seg : CodeSegment) :
    (seg.bytes ++ ⟨Array.replicate (alignUp seg.size functionAlignment - seg.size) 0⟩).size =
      alignUp seg.size functionAlignment := by
  have := le_alignUp seg.size
  rw [ByteArray.size_append]
  change seg.size + (Array.replicate _ 0).size = _
  rw [Array.size_replicate]
  omega

theorem size_place (seg : CodeSegment) (f : ByteArray) :
    (seg.place f).size = alignUp seg.size functionAlignment + f.size := by
  change (_ ++ f).size = _
  rw [ByteArray.size_append, size_gap]

theorem ofFunctions_append (fs : List ByteArray) (f : ByteArray) :
    ofFunctions (fs ++ [f]) = (ofFunctions fs).place f := by
  simp [ofFunctions, place, List.foldl_append, size]

theorem layout_append (ns : List Nat) (n : Nat) :
    layout (ns ++ [n]) = ((layout ns).1 ++ [alignUp (layout ns).2 functionAlignment],
      alignUp (layout ns).2 functionAlignment + n) := by
  simp [layout, List.foldl_append]

theorem size_ofFunctions (fs : List ByteArray) :
    (ofFunctions fs).size = (layout (fs.map (·.size))).2 := by
  induction fs using List.reverseRecOn with
  | nil => rfl
  | append_singleton fs f ih =>
    rw [ofFunctions_append, size_place, List.map_append, List.map_singleton, layout_append, ih]

theorem offsets_append (fs : List ByteArray) (f : ByteArray) :
    offsets (fs ++ [f]) = offsets fs ++ [alignUp (ofFunctions fs).size functionAlignment] := by
  simp only [offsets, List.map_append, List.map_cons, List.map_nil, layout_append,
    size_ofFunctions]

/-- What laying out the functions `fs` at offsets `offs` in `seg` promises. -/
structure LaidOut (fs : List ByteArray) (offs : List Nat) (seg : CodeSegment) : Prop where
  length_eq : offs.length = fs.length
  /-- The first function starts at the segment's first byte. -/
  first : ∀ c, fs[0]? = some c → offs[0]? = some 0
  /-- Each next function starts at the first multiple of 16 at or after the previous end. -/
  next : ∀ (i : Nat) o c, offs[i]? = some o → fs[i]? = some c → i + 1 < fs.length →
    offs[i + 1]? = some (alignUp (o + c.size) functionAlignment)
  size_nil : fs = [] → seg.size = 0
  /-- The segment ends where the last function does. -/
  size_last : ∀ o c, offs.getLast? = some o → fs.getLast? = some c → seg.size = o + c.size
  aligned : ∀ o ∈ offs, o % functionAlignment = 0
  /-- Functions come in order and do not overlap. -/
  ordered : ∀ (i j : Nat) o c o', i < j → offs[i]? = some o → fs[i]? = some c →
    offs[j]? = some o' → o + c.size ≤ o'
  /-- No multiple of 16 lies between a function's end and the next start. -/
  tight : ∀ (i : Nat) o c o', offs[i]? = some o → fs[i]? = some c → offs[i + 1]? = some o' →
    ∀ m, m % functionAlignment = 0 → o + c.size ≤ m → o' ≤ m
  within : ∀ (i : Nat) o c, offs[i]? = some o → fs[i]? = some c → o + c.size ≤ seg.size
  /-- Each function's bytes sit at its offset. -/
  code : ∀ (i : Nat) o c, offs[i]? = some o → fs[i]? = some c →
    seg.bytes.extract o (o + c.size) = c
  /-- A byte of no function is zero. -/
  padding : ∀ j (hj : j < seg.bytes.size),
    (∀ (i : Nat) o c, offs[i]? = some o → fs[i]? = some c → j < o ∨ o + c.size ≤ j) →
      seg.bytes[j] = 0

theorem getElem?_concat_cases {α : Type} {l : List α} {x y : α} {i : Nat}
    (h : (l ++ [x])[i]? = some y) : l[i]? = some y ∨ i = l.length ∧ y = x := by
  by_cases hi : i < l.length
  · rw [List.getElem?_append_left hi] at h
    exact .inl h
  · have hlt : i < l.length + 1 := by simpa using (List.getElem?_eq_some_iff.mp h).1
    obtain rfl : i = l.length := by omega
    rw [List.getElem?_concat_length] at h
    exact .inr ⟨rfl, (Option.some.inj h).symm⟩

theorem getElem?_append_pair {offs : List Nat} {fs : List ByteArray}
    (hlen : offs.length = fs.length) {x i o : Nat} {f c : ByteArray}
    (ho : (offs ++ [x])[i]? = some o) (hc : (fs ++ [f])[i]? = some c) :
    offs[i]? = some o ∧ fs[i]? = some c ∨ i = fs.length ∧ o = x ∧ c = f := by
  rcases getElem?_concat_cases ho with ho | ⟨hi, rfl⟩ <;>
    rcases getElem?_concat_cases hc with hc | ⟨hi', rfl⟩
  · exact .inl ⟨ho, hc⟩
  · have := (List.getElem?_eq_some_iff.mp ho).1
    omega
  · have := (List.getElem?_eq_some_iff.mp hc).1
    omega
  · exact .inr ⟨hi', rfl, rfl⟩

theorem getElem?_append_of_some {α : Type} {l : List α} {i : Nat} {x : α} (l' : List α)
    (h : l[i]? = some x) : (l ++ l')[i]? = some x := by
  rw [List.getElem?_append_left (List.getElem?_eq_some_iff.mp h).1, h]

theorem extract_append_of_le {a b : ByteArray} {i j : Nat} (h : j ≤ a.size) :
    (a ++ b).extract i j = a.extract i j := by
  have hb : b.extract (i - a.size) 0 = .empty := ByteArray.extract_eq_empty_iff.mpr (by simp)
  rw [ByteArray.extract_append, show j - a.size = 0 by omega, hb, ByteArray.append_empty]

theorem laidOut_nil : LaidOut [] [] ⟨.empty⟩ where
  length_eq := rfl
  first := by simp
  next := by simp
  size_nil _ := rfl
  size_last := by simp
  aligned := by simp
  ordered := by simp
  tight := by simp
  within := by simp
  code := by simp
  padding j hj := absurd hj (by simp)

namespace LaidOut

variable {fs : List ByteArray} {offs : List Nat} {seg : CodeSegment}

theorem size_of_last (h : LaidOut fs offs seg) {i o : Nat} {c : ByteArray}
    (ho : offs[i]? = some o) (hc : fs[i]? = some c) (hi : i + 1 = fs.length) :
    seg.size = o + c.size := by
  refine h.size_last o c ?_ ?_
  · rw [List.getLast?_eq_getElem?, h.length_eq, ← hi]
    exact ho
  · rw [List.getLast?_eq_getElem?, ← hi]
    exact hc

/-- Placing one more function keeps the promise. -/
theorem place (h : LaidOut fs offs seg) (f : ByteArray) :
    LaidOut (fs ++ [f]) (offs ++ [alignUp seg.size functionAlignment]) (seg.place f) where
  length_eq := by simp [h.length_eq]
  first c hc := by
    by_cases hfs : fs = []
    · subst hfs
      obtain rfl : offs = [] := List.eq_nil_of_length_eq_zero h.length_eq
      simp [h.size_nil rfl, alignUp, functionAlignment]
    · rw [List.getElem?_append_left (List.length_pos_iff.mpr hfs)] at hc
      exact getElem?_append_of_some _ (h.first c hc)
  next i o c ho hc hi := by
    rcases getElem?_append_pair h.length_eq ho hc with ⟨ho, hc⟩ | ⟨rfl, -, -⟩
    · by_cases hi' : i + 1 < fs.length
      · exact getElem?_append_of_some _ (h.next i o c ho hc hi')
      · -- `i` is the last function: the new one starts after its end
        have hlast : i + 1 = fs.length := by simp at hi; omega
        rw [← h.size_of_last ho hc hlast, show i + 1 = offs.length by rw [h.length_eq, hlast],
          List.getElem?_concat_length]
    · simp at hi
  size_nil hnil := by simp at hnil
  size_last o c ho hc := by
    rw [List.getLast?_concat] at ho hc
    cases ho
    cases hc
    exact size_place seg f
  aligned o ho := by
    rcases List.mem_append.mp ho with ho | ho
    · exact h.aligned o ho
    · rw [List.mem_singleton.mp ho]
      exact alignUp_mod _
  ordered i j o c o' hij ho hc ho' := by
    rcases getElem?_append_pair h.length_eq ho hc with ⟨ho, hc⟩ | ⟨rfl, -, -⟩
    · rcases getElem?_concat_cases ho' with ho' | ⟨-, rfl⟩
      · exact h.ordered i j o c o' hij ho hc ho'
      · exact Nat.le_trans (h.within i o c ho hc) (le_alignUp _)
    · have := (List.getElem?_eq_some_iff.mp ho').1
      simp [h.length_eq] at this
      omega
  tight i o c o' ho hc ho' m hm hle := by
    rcases getElem?_append_pair h.length_eq ho hc with ⟨ho, hc⟩ | ⟨rfl, -, -⟩
    · rcases getElem?_concat_cases ho' with ho' | ⟨hi, rfl⟩
      · exact h.tight i o c o' ho hc ho' m hm hle
      · rw [h.size_of_last ho hc (by rw [← h.length_eq, ← hi])]
        exact alignUp_le hm hle
    · have := (List.getElem?_eq_some_iff.mp ho').1
      simp [h.length_eq] at this
  within i o c ho hc := by
    rw [size_place]
    rcases getElem?_append_pair h.length_eq ho hc with ⟨ho, hc⟩ | ⟨rfl, rfl, rfl⟩
    · have := h.within i o c ho hc
      have := le_alignUp seg.size
      omega
    · exact Nat.le_refl _
  code i o c ho hc := by
    change (_ ++ f).extract o (o + c.size) = c
    rcases getElem?_append_pair h.length_eq ho hc with ⟨ho, hc⟩ | ⟨rfl, rfl, rfl⟩
    · have hin : o + c.size ≤ seg.bytes.size := h.within i o c ho hc
      rw [extract_append_of_le (by rw [size_gap]; exact Nat.le_trans hin (le_alignUp _)),
        extract_append_of_le hin]
      exact h.code i o c ho hc
    · exact ByteArray.extract_append_eq_right (size_gap seg).symm (by rw [size_gap])
  padding j hj hout := by
    simp only [CodeSegment.place]
    by_cases hgap :
        j < (seg.bytes ++ ⟨Array.replicate (alignUp seg.size functionAlignment - seg.size) 0⟩).size
    · rw [ByteArray.getElem_append_left hgap]
      by_cases hold : j < seg.bytes.size
      · rw [ByteArray.getElem_append_left hold]
        exact h.padding j hold fun i o c ho hc =>
          hout i o c (getElem?_append_of_some _ ho) (getElem?_append_of_some _ hc)
      · rw [ByteArray.getElem_append_right (Nat.le_of_not_lt hold)]
        exact Array.getElem_replicate ..
    · -- past the gap, `j` is a byte of the new function
      exfalso
      have hnew := hout fs.length _ f (by rw [← h.length_eq]; exact List.getElem?_concat_length)
        List.getElem?_concat_length
      have hsize : j < alignUp seg.size functionAlignment + f.size := by
        rw [← size_place]
        exact hj
      rw [size_gap] at hgap
      omega

end LaidOut

/-- Every list of functions is laid out as promised, and an offset from the segment's start
lies in the segment exactly when it is below its length. -/
theorem ofFunctions_laidOut (fs : List ByteArray) :
    LaidOut fs (offsets fs) (ofFunctions fs) ∧
      (∀ off : Int, (ofFunctions fs).containsOffset off = true ↔
        0 ≤ off ∧ off < (ofFunctions fs).size) ∧
      ((ofFunctions fs).isEmpty = true ↔ (ofFunctions fs).size = 0) := by
  refine ⟨?_, fun off => by simp [containsOffset], by simp [isEmpty]⟩
  induction fs using List.reverseRecOn with
  | nil => exact laidOut_nil
  | append_singleton fs f ih =>
    rw [offsets_append, ofFunctions_append]
    exact ih.place f

example : offsets [⟨Array.replicate 5 0xC3⟩, ⟨Array.replicate 3 0x90⟩] = [0, 16] ∧
    (ofFunctions [⟨Array.replicate 5 0xC3⟩, ⟨Array.replicate 3 0x90⟩]).size = 19 := by
  decide

end CodeSegment

end OnePassJit
