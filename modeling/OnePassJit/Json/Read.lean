import OnePassJit.Json.Node
import OnePassJit.Ieee.Arith
import OnePassJit.Ieee.Shortest

/-!
Reading JSON text.

A document is one value with blanks (space, tab, line feed, carriage return) around it.
The reader keeps an integer written without fraction or exponent as an integer when it
fits a 64-bit word (`0 ≤ n < 2^64`, or `-2^63 ≤ n < 0`); it computes every other number
as a binary64 datum, the way a reader with a 64-bit significand does: the decimal
digits are read into the significand while it does not overflow (later integer digits
scale it by ten, later fraction digits are dropped), the significand is rounded to
binary64 and then multiplied or divided once by the nearest binary64 to a power of ten.
A number whose value overflows is out of range. Strings take the JSON escapes; a
leading surrogate escape must be followed by a trailing one. Arrays and objects nest
at most 127 deep. An object keeps the last value of a key written twice.

A document that cannot be read is answered with the first fault met reading left to
right and its position: the line, and the column as a count of UTF-8 bytes. A fault
found by looking at the next character without taking it is placed one byte further.

The reader walks a list of characters. Every call either consumes a character or
descends into a value that does, so a budget of twice the length of the text, plus
two, is never exhausted on a document that reads.
-/

namespace OnePassJit

namespace JsonNode

/-- Why a document cannot be read. -/
inductive SyntaxError where
  | eofInList
  | eofInObject
  | eofInString
  | eofInValue
  | expectedColon
  | expectedListCommaOrEnd
  | expectedObjectCommaOrEnd
  | expectedIdent
  | expectedValue
  | invalidEscape
  | invalidNumber
  | numberOutOfRange
  | controlCharacter
  | keyMustBeString
  | loneLeadingSurrogate
  | trailingComma
  | trailingCharacters
  | unexpectedEndOfHexEscape
  | recursionLimit
  deriving DecidableEq, Repr

def SyntaxError.message : SyntaxError → String
  | .eofInList => "EOF while parsing a list"
  | .eofInObject => "EOF while parsing an object"
  | .eofInString => "EOF while parsing a string"
  | .eofInValue => "EOF while parsing a value"
  | .expectedColon => "expected `:`"
  | .expectedListCommaOrEnd => "expected `,` or `]`"
  | .expectedObjectCommaOrEnd => "expected `,` or `\x7d`"
  | .expectedIdent => "expected ident"
  | .expectedValue => "expected value"
  | .invalidEscape => "invalid escape"
  | .invalidNumber => "invalid number"
  | .numberOutOfRange => "number out of range"
  | .controlCharacter => "control character (\\u0000-\\u001F) found while parsing a string"
  | .keyMustBeString => "key must be a string"
  | .loneLeadingSurrogate => "lone leading surrogate in hex escape"
  | .trailingComma => "trailing comma"
  | .trailingCharacters => "trailing characters"
  | .unexpectedEndOfHexEscape => "unexpected end of hex escape"
  | .recursionLimit => "recursion limit exceeded"

/-- A place in the text: line from 1, and UTF-8 bytes since the line began. -/
structure Position where
  line : Nat := 1
  column : Nat := 0
  deriving DecidableEq, Repr

namespace Position

def next (p : Position) (c : Char) : Position :=
  if c == '\n' then ⟨p.line + 1, 0⟩ else ⟨p.line, p.column + c.utf8Size⟩

def nextByte (p : Position) (c : Char) : Position :=
  if c == '\n' then ⟨p.line + 1, 0⟩ else ⟨p.line, p.column + 1⟩

def advanceBytes (p : Position) : List Char → Nat → Position
  | _, 0 => p
  | [], _ => p
  | c :: cs, n + 1 =>
    if c == '\n' then advanceBytes ⟨p.line + 1, 0⟩ cs n
    else if c.utf8Size ≤ n + 1 then advanceBytes ⟨p.line, p.column + c.utf8Size⟩ cs (n + 1 - c.utf8Size)
    else ⟨p.line, p.column + n + 1⟩

def after (p : Position) (cs : List Char) : Position := cs.foldl next p

end Position

/-- A fault and where it was found. -/
structure ReadError where
  code : SyntaxError
  pos : Position
  deriving Repr

def ReadError.message (e : ReadError) : String :=
  e.code.message ++ " at line " ++ toString e.pos.line ++ " column " ++ toString e.pos.column

/-- The text not read yet and where it starts. -/
structure Cursor where
  rest : List Char
  pos : Position

namespace Cursor

def bump (c : Cursor) : Cursor :=
  match c.rest with
  | ch :: r => ⟨r, c.pos.next ch⟩
  | [] => c

def fail (c : Cursor) (code : SyntaxError) : ReadError := ⟨code, c.pos⟩

def failAhead (c : Cursor) (code : SyntaxError) : ReadError :=
  match c.rest with
  | ch :: _ => ⟨code, c.pos.nextByte ch⟩
  | [] => ⟨code, c.pos⟩

def isBlank (ch : Char) : Bool := ch == ' ' || ch == '\t' || ch == '\n' || ch == '\r'

def skipFrom : List Char → Position → Cursor
  | ch :: r, p => if isBlank ch then skipFrom r (p.next ch) else ⟨ch :: r, p⟩
  | [], p => ⟨[], p⟩

def skipBlanks (c : Cursor) : Cursor := skipFrom c.rest c.pos

def skipDigitsFrom : List Char → Position → Cursor
  | ch :: r, p => if ch.isDigit then skipDigitsFrom r (p.next ch) else ⟨ch :: r, p⟩
  | [], p => ⟨[], p⟩

def skipDigits (c : Cursor) : Cursor := skipDigitsFrom c.rest c.pos

def startsWith (c : Cursor) (ch : Char) : Bool := c.rest.head? == some ch

def atDigit (c : Cursor) : Bool := (c.rest.head?.map Char.isDigit).getD false

end Cursor

/-! ### Numbers -/

def wordMax : Nat := Nat.pow 2 64 - 1

def exponentMax : Nat := Nat.pow 2 31 - 1

def digitOf (ch : Char) : Nat := ch.toNat - '0'.toNat

/-- Digits of `cs` read into `acc` while the value stays at most `bound`: the value, how
many digits were read, and the cursor at the first character not read. -/
def readDigitsUpTo (bound acc count : Nat) : List Char → Position → Nat × Nat × Cursor
  | ch :: r, p =>
    if ch.isDigit && acc * 10 + digitOf ch ≤ bound then
      readDigitsUpTo bound (acc * 10 + digitOf ch) (count + 1) r (p.next ch)
    else (acc, count, ⟨ch :: r, p⟩)
  | [], p => (acc, count, ⟨[], p⟩)

def saturate (e : Int) : Int := max (-(Nat.pow 2 31 : Int)) (min e exponentMax)

def powerOfTen (k : Nat) : Nat := Ieee.Format.double.ofDecimal false 1 k

/-- `significand · 10^exponent` as the reader computes it: the significand rounded to
binary64, then multiplied or divided once by `powerOfTen`; below `10^-308` it is first
divided by `10^308` until the exponent is in the table or the value is zero. `none`
when the value overflows. Three rounds of division reach zero from any significand,
so four rounds of fuel suffice. -/
def scaleDecimal (negative : Bool) (significand : Nat) (exponent : Int) : Option Nat :=
  let f := Ieee.Format.double
  let rec go : Nat → Nat → Int → Option Nat
    | 0, x, _ => some x
    | fuel + 1, x, e =>
      if e.natAbs ≤ 308 then
        if e ≥ 0 then
          let y := f.mul x (powerOfTen e.natAbs)
          if f.isInfinite y then none else some y
        else some (f.div x (powerOfTen e.natAbs))
      else if f.isZero x then some x
      else if e ≥ 0 then none
      else go fuel (f.div x (powerOfTen 308)) (e + 308)
  (go 4 (f.ofInt significand) exponent).map fun x => if negative then f.negate x else x

/-- The datum of a significand and exponent, or out of range at the cursor. -/
def fromParts (negative : Bool) (significand : Nat) (exponent : Int) (c : Cursor) :
    Except ReadError (JsonNode × Cursor) :=
  match scaleDecimal negative significand exponent with
  | some x => .ok (.float x, c)
  | none => .error (c.fail .numberOutOfRange)

/-- An exponent part, at its `e` or `E`, after a significand and the exponent `start`
its digits call for. -/
def readExponent (negative : Bool) (significand : Nat) (start : Int) (c : Cursor) :
    Except ReadError (JsonNode × Cursor) :=
  let c := c.bump
  let (positive, c) :=
    if c.startsWith '+' then (true, c.bump)
    else if c.startsWith '-' then (false, c.bump)
    else (true, c)
  match c.rest with
  | [] => .error (c.fail .eofInValue)
  | d :: r =>
    if d.isDigit then
      let (e, _, c) := readDigitsUpTo exponentMax (digitOf d) 1 r (c.pos.next d)
      if c.atDigit then
        let c := c.bump
        if significand != 0 && positive then .error (c.fail .numberOutOfRange)
        else .ok (.float (Ieee.Format.double.zero negative), c.skipDigits)
      else
        fromParts negative significand (saturate (if positive then start + e else start - e)) c
    else .error ⟨.invalidNumber, c.pos.nextByte d⟩

/-- What follows the digits of a significand that overflowed: its exponent part, if
any. -/
def afterSignificand (negative : Bool) (significand : Nat) (exponent : Int) (c : Cursor) :
    Except ReadError (JsonNode × Cursor) :=
  if c.startsWith 'e' || c.startsWith 'E' then readExponent negative significand exponent c
  else fromParts negative significand exponent c

/-- A fraction, at its point, after the significand and exponent of the integer part. -/
def readFraction (negative : Bool) (significand : Nat) (before : Int) (c : Cursor) :
    Except ReadError (JsonNode × Cursor) :=
  let c := c.bump
  let (m, count, c) := readDigitsUpTo wordMax significand 0 c.rest c.pos
  if c.atDigit then afterSignificand negative m (before - count) c.skipDigits
  else if count == 0 then
    .error (c.failAhead (if c.rest.isEmpty then .eofInValue else .invalidNumber))
  else afterSignificand negative m (before - count) c

/-- What follows the integer part: a fraction, an exponent, or nothing. An integer that
fits a word stays one; a negative one below `-2^63`, and minus zero, are data. -/
def afterInteger (negative : Bool) (significand : Nat) (c : Cursor) :
    Except ReadError (JsonNode × Cursor) :=
  if c.startsWith '.' then readFraction negative significand 0 c
  else if c.startsWith 'e' || c.startsWith 'E' then readExponent negative significand 0 c
  else if !negative then .ok (.num significand, c)
  else if significand == 0 || significand > Nat.pow 2 63 then
    .ok (.float (Ieee.Format.double.negate (Ieee.Format.double.ofInt significand)), c)
  else .ok (.num (-(significand : Int)), c)

def readNumber (negative : Bool) (c : Cursor) : Except ReadError (JsonNode × Cursor) :=
  match c.rest with
  | [] => .error (c.fail .eofInValue)
  | d :: r =>
    if d == '0' then
      let c := c.bump
      if c.atDigit then .error (c.failAhead .invalidNumber) else afterInteger negative 0 c
    else if d.isDigit then
      let (m, _, c) := readDigitsUpTo wordMax (digitOf d) 1 r (c.pos.next d)
      if c.atDigit then
        -- the significand is full: further integer digits scale it by ten
        let c' := c.skipDigits
        let extra : Int := c'.pos.column - c.pos.column
        if c'.startsWith '.' then readFraction negative m extra c'
        else afterSignificand negative m extra c'
      else afterInteger negative m c
    else .error ⟨.invalidNumber, c.pos.nextByte d⟩

/-! ### Strings -/

def hexValue? (ds : List Char) : Option Nat :=
  ds.foldlM (fun acc x =>
    let n := x.toNat
    if 0x30 ≤ n ∧ n ≤ 0x39 then some (16 * acc + (n - 0x30))
    else if 0x61 ≤ n ∧ n ≤ 0x66 then some (16 * acc + (n - 0x61 + 10))
    else if 0x41 ≤ n ∧ n ≤ 0x46 then some (16 * acc + (n - 0x41 + 10))
    else none) 0

def byteLength (cs : List Char) : Nat := cs.foldl (fun n ch => n + ch.utf8Size) 0

/-- Four hexadecimal digits at the head of `cs`, which starts at `p`. Fewer than four
bytes left end the string early; four bytes that are not all digits are an invalid
escape, placed after them. -/
def hexQuad (cs : List Char) (p : Position) : Except ReadError Nat :=
  let invalid : Except ReadError Nat := .error ⟨.invalidEscape, p.advanceBytes cs 4⟩
  match cs with
  | a :: b :: c :: d :: _ =>
    match hexValue? [a, b, c, d] with
    | some n => .ok n
    | none => invalid
  | _ => if byteLength cs ≥ 4 then invalid else .error ⟨.eofInString, p.after cs⟩

/-- The character of a `\u` escape whose four digits start `cs` at `p`, and how many
characters after the `u` it takes: a character outside the surrogates, or a leading
surrogate with an escaped trailing one. -/
def unicodeEscape (cs : List Char) (p : Position) : Except ReadError (Char × Nat) := do
  let n ← hexQuad cs p
  let p := ⟨p.line, p.column + 4⟩
  if 0xDC00 ≤ n ∧ n ≤ 0xDFFF then throw ⟨.loneLeadingSurrogate, p⟩
  if n < 0xD800 ∨ n > 0xDBFF then return (Char.ofNat n, 4)
  match cs.drop 4 with
  | [] => throw ⟨.eofInString, p⟩
  | '\\' :: r =>
    let p := ⟨p.line, p.column + 1⟩
    match r with
    | [] => throw ⟨.eofInString, p⟩
    | 'u' :: r =>
      let p := ⟨p.line, p.column + 1⟩
      let lo ← hexQuad r p
      if 0xDC00 ≤ lo ∧ lo ≤ 0xDFFF then
        return (Char.ofNat (0x10000 + (n - 0xD800) * 0x400 + (lo - 0xDC00)), 10)
      else throw ⟨.loneLeadingSurrogate, ⟨p.line, p.column + 4⟩⟩
    | x :: _ => throw ⟨.unexpectedEndOfHexEscape, p.nextByte x⟩
  | x :: _ => throw ⟨.unexpectedEndOfHexEscape, p.nextByte x⟩

def escaped? : Char → Option Char
  | '"' => some '"'
  | '\\' => some '\\'
  | '/' => some '/'
  | 'b' => some '\x08'
  | 'f' => some '\x0c'
  | 'n' => some '\n'
  | 'r' => some '\r'
  | 't' => some '\t'
  | _ => none

/-- The body of a string after its opening quote, at `p`, up to and past its closing
quote; `acc` holds the characters read so far, last first. -/
def readStringBody (cs : List Char) (p : Position) (acc : List Char) :
    Except ReadError (String × Cursor) :=
  match cs with
  | [] => .error ⟨.eofInString, p⟩
  | '"' :: r => .ok (String.ofList acc.reverse, ⟨r, p.next '"'⟩)
  | '\\' :: r =>
    let p := p.next '\\'
    match r with
    | [] => .error ⟨.eofInString, p⟩
    | e :: r =>
      match escaped? e with
      | some ch => readStringBody r (p.next e) (ch :: acc)
      | none =>
        if e == 'u' then
          match unicodeEscape r (p.next e) with
          | .ok (ch, k) => readStringBody (r.drop k) ⟨p.line, p.column + 1 + k⟩ (ch :: acc)
          | .error err => .error err
        else .error ⟨.invalidEscape, p.nextByte e⟩
  | ch :: r =>
    if ch.toNat < 0x20 then .error ⟨.controlCharacter, p.nextByte ch⟩
    else readStringBody r (p.next ch) (ch :: acc)
termination_by cs.length
decreasing_by
  all_goals simp only [List.length_cons, List.length_drop]
  all_goals omega

/-! ### Values -/

def readWord (word : List Char) (v : JsonNode) : Cursor → Except ReadError (JsonNode × Cursor)
  | c =>
    match word, c.rest with
    | [], _ => .ok (v, c)
    | _ :: _, [] => .error (c.fail .eofInValue)
    | w :: ws, ch :: r =>
      if ch == w then readWord ws v ⟨r, c.pos.next ch⟩
      else .error ⟨.expectedIdent, c.pos.nextByte ch⟩

/-- Put a member into an object kept in ascending key order; a key already there takes
the new value. -/
def insertMember (k : String) (v : JsonNode) :
    List (String × JsonNode) → List (String × JsonNode)
  | [] => [(k, v)]
  | (k', v') :: rest =>
    if k == k' then (k, v) :: rest
    else if k < k' then (k, v) :: (k', v') :: rest
    else (k', v') :: insertMember k v rest

mutual

/-- A value at the cursor, after blanks; `budget` bounds the calls and `depth` is how
many more arrays and objects may open. -/
def readValue : Nat → Nat → Cursor → Except ReadError (JsonNode × Cursor)
  | 0, _, c => .error (c.fail .recursionLimit)
  | budget + 1, depth, c =>
    let c := c.skipBlanks
    match c.rest with
    | [] => .error (c.failAhead .eofInValue)
    | 'n' :: _ => readWord ['u', 'l', 'l'] .null c.bump
    | 't' :: _ => readWord ['r', 'u', 'e'] (.bool true) c.bump
    | 'f' :: _ => readWord ['a', 'l', 's', 'e'] (.bool false) c.bump
    | '-' :: _ => readNumber true c.bump
    | '"' :: r => (readStringBody r (c.pos.next '"') []).map fun (s, c) => (.str s, c)
    | '[' :: _ =>
      if depth ≤ 1 then .error (c.failAhead .recursionLimit)
      else readItems budget (depth - 1) true c.bump []
    | '{' :: _ =>
      if depth ≤ 1 then .error (c.failAhead .recursionLimit)
      else readMembers budget (depth - 1) true c.bump []
    | ch :: _ =>
      if ch.isDigit then readNumber false c else .error (c.failAhead .expectedValue)

/-- Elements of an array after `[` and the ones in `acc`, last first; `first` until an
element is read. -/
def readItems : Nat → Nat → Bool → Cursor → List JsonNode →
    Except ReadError (JsonNode × Cursor)
  | 0, _, _, c, _ => .error (c.fail .recursionLimit)
  | budget + 1, depth, first, c, acc =>
    let c := c.skipBlanks
    let element (c : Cursor) : Except ReadError (JsonNode × Cursor) :=
      match readValue budget depth c with
      | .ok (v, c) => readItems budget depth false c (v :: acc)
      | .error e => .error e
    match c.rest with
    | ']' :: _ => .ok (.arr acc.reverse, c.bump)
    | [] => .error (c.failAhead .eofInList)
    | ',' :: _ =>
      if first then element c
      else
        let c := c.bump.skipBlanks
        match c.rest with
        | ']' :: _ => .error (c.failAhead .trailingComma)
        | [] => .error (c.failAhead .eofInValue)
        | _ => element c
    | _ => if first then element c else .error (c.failAhead .expectedListCommaOrEnd)

/-- Members of an object after `{` and the ones in `acc`; `first` until a member is
read. -/
def readMembers : Nat → Nat → Bool → Cursor → List (String × JsonNode) →
    Except ReadError (JsonNode × Cursor)
  | 0, _, _, c, _ => .error (c.fail .recursionLimit)
  | budget + 1, depth, first, c, acc =>
    let c := c.skipBlanks
    let member (c : Cursor) : Except ReadError (JsonNode × Cursor) :=
      match c.rest with
      | '"' :: r =>
        match readStringBody r (c.pos.next '"') [] with
        | .error e => .error e
        | .ok (k, c) =>
          let c := c.skipBlanks
          match c.rest with
          | ':' :: _ =>
            match readValue budget depth c.bump with
            | .ok (v, c) => readMembers budget depth false c (insertMember k v acc)
            | .error e => .error e
          | [] => .error (c.failAhead .eofInObject)
          | _ => .error (c.failAhead .expectedColon)
      | '}' :: _ => .error (c.failAhead .trailingComma)
      | [] => .error (c.failAhead .eofInValue)
      | _ => .error (c.failAhead .keyMustBeString)
    match c.rest with
    | '}' :: _ => .ok (.obj acc, c.bump)
    | [] => .error (c.failAhead .eofInObject)
    | ',' :: _ => if first then member c else member c.bump.skipBlanks
    | _ => if first then member c else .error (c.failAhead .expectedObjectCommaOrEnd)

end

def read? (text : String) : Except ReadError JsonNode := do
  let cs := text.toList
  let (v, c) ← readValue (2 * cs.length + 2) 128 ⟨cs, {}⟩
  let c := c.skipBlanks
  if c.rest.isEmpty then return v else throw (c.failAhead .trailingCharacters)

end JsonNode

end OnePassJit
