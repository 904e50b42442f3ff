/-!
Unsigned integers written in a radix.

The text is an optional `+` and then digits, read from the left. The first character
that is not a digit of the radix makes the text invalid, and so does a `+` alone; the
first prefix whose value reaches the bound makes it too large; nothing at all is empty.
Whichever of these comes first, reading left to right, is the reason given.
-/

namespace OnePassJit.Text

/-- Why a text is not an unsigned integer below a bound. -/
inductive ReadError where
  | empty
  | invalidDigit
  | tooLarge
  deriving DecidableEq, Repr

def ReadError.message : ReadError → String
  | .empty => "cannot parse integer from empty string"
  | .invalidDigit => "invalid digit found in string"
  | .tooLarge => "number too large to fit in target type"

/-- Value of `c` as a digit of `radix` (at most 36), either letter case. -/
def digitValue? (radix : Nat) (c : Char) : Option Nat :=
  let n := c.toNat
  let v :=
    if 0x30 ≤ n ∧ n ≤ 0x39 then some (n - 0x30)
    else if 0x61 ≤ n ∧ n ≤ 0x7A then some (n - 0x61 + 10)
    else if 0x41 ≤ n ∧ n ≤ 0x5A then some (n - 0x41 + 10)
    else none
  v.filter (· < radix)

def readDigits (radix bound : Nat) : List Char → Nat → Except ReadError Nat
  | [], acc => .ok acc
  | c :: cs, acc =>
    match digitValue? radix c with
    | none => .error .invalidDigit
    | some d =>
      let v := acc * radix + d
      if v ≥ bound then .error .tooLarge else readDigits radix bound cs v

def readUnsigned (radix bound : Nat) (s : String) : Except ReadError Nat :=
  match s.toList with
  | [] => .error .empty
  | ['+'] => .error .invalidDigit
  | '+' :: cs => readDigits radix bound cs 0
  | cs => readDigits radix bound cs 0

theorem readDigits_lt (radix bound : Nat) (cs : List Char) (acc n : Nat) (hacc : acc < bound)
    (h : readDigits radix bound cs acc = .ok n) : n < bound := by
  induction cs generalizing acc with
  | nil => simp only [readDigits, Except.ok.injEq] at h; omega
  | cons c cs ih =>
    simp only [readDigits] at h
    split at h
    · cases h
    · split at h
      · cases h
      · exact ih _ (by omega) h

end OnePassJit.Text
