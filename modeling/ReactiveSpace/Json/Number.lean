import ReactiveSpace.Decimal.Style

/-!
# Numbers of the data format

A number literal without fraction and exponent stays an integer when it fits 64 bits, with or
without a sign; every other literal, and `-0`, is a double. A literal whose double would be infinite
has no value. Digits beyond those that fit 64 bits only move the decimal point.
-/

namespace ReactiveSpace.Json

/-- A number: an integer in `[-2^63, 2^64)` or a finite double. -/
inductive Number where
  | integer (value : Int)
  | double (value : Double)
deriving DecidableEq, Inhabited

namespace Number

/-- Whether two numbers are equal: an integer and a double never are. -/
def same : Number → Number → Bool
  | .integer a, .integer b => a == b
  | .double a, .double b => a.same b
  | _, _ => false

/-- Doubles are positional from `10^-5` to below `10^16`, with `.0` on whole numbers, and carry a
signed exponent otherwise. -/
def style : Decimal.Style where
  least := -5
  greatest := 15
  point := true
  mark := "e"
  plus := true

/-- The number as text. -/
def text : Number → String
  | .integer n => Decimal.intText n
  | .double d => style.double d

/-! ### Literals -/

/-- The parts of a number literal. -/
structure Literal where
  negative : Bool
  /-- The digits before the point. -/
  whole : List Char
  /-- The digits after the point, if there is one. -/
  fraction : Option (List Char)
  /-- The sign and the digits of the exponent, if there is one. -/
  power : Option (Bool × List Char)

/-- A run of digits at the start, at least one. -/
def digits? (cs : List Char) : Option (List Char × List Char) :=
  match cs.takeWhile Char.isDigit with
  | [] => none
  | ds => some (ds, cs.dropWhile Char.isDigit)

/-- A fraction at the start, if there is one; `none` when a point stands without digits. -/
def fraction? : List Char → Option (Option (List Char) × List Char)
  | '.' :: cs => (digits? cs).map fun (ds, rest) => (some ds, rest)
  | cs => some (none, cs)

/-- An exponent at the start, if there is one; `none` when its mark stands without digits. -/
def power? : List Char → Option (Option (Bool × List Char) × List Char)
  | c :: cs =>
    if c = 'e' ∨ c = 'E' then
      let (negative, cs) := match cs with
        | '-' :: cs => (true, cs)
        | '+' :: cs => (false, cs)
        | cs => (false, cs)
      (digits? cs).map fun (ds, rest) => (some (negative, ds), rest)
    else some (none, c :: cs)
  | [] => some (none, [])

/-- The parts of a literal, `none` when the characters are no number literal. -/
def Literal.ofChars? (cs : List Char) : Option Literal := do
  let (negative, cs) := match cs with
    | '-' :: cs => (true, cs)
    | cs => (false, cs)
  let (whole, cs) ← digits? cs
  guard (whole.length = 1 ∨ whole.head? ≠ some '0')
  let (fraction, cs) ← fraction? cs
  let (power, cs) ← power? cs
  guard cs.isEmpty
  return ⟨negative, whole, fraction, power⟩

/-- The value of a digit. -/
def digitValue (c : Char) : Nat :=
  c.toNat - '0'.toNat

/-- Appends digits to a number as long as it stays below `2^64`: the number, and how many were
taken. -/
def keepDigits (start : Nat) : List Char → Nat × Nat
  | [] => (start, 0)
  | c :: cs =>
    let next := start * 10 + digitValue c
    if next < Nat.pow 2 64 then
      let (n, taken) := keepDigits next cs
      (n, taken + 1)
    else (start, 0)

/-- The number that digits stand for. -/
def ofDigits (cs : List Char) : Nat :=
  cs.foldl (fun n c => n * 10 + digitValue c) 0

/-- The exponent of a literal. -/
def Literal.shift (l : Literal) : Int :=
  match l.power with
  | some (true, ds) => -(ofDigits ds : Int)
  | some (false, ds) => ofDigits ds
  | none => 0

/-- The value of a literal, `none` when it is too large for a double. -/
def Literal.value? (l : Literal) : Option Number :=
  let (kept, taken) := keepDigits 0 l.whole
  let dropped := l.whole.length - taken
  match l.fraction, l.power with
  | none, none =>
    if dropped = 0 then
      if l.negative then
        if kept = 0 ∨ Nat.pow 2 63 < kept then
          some (.double ⟨true, Double.roundQuotient kept 1⟩)
        else some (.integer (-kept))
      else some (.integer kept)
    else (Double.ofDecimal l.negative kept dropped).map .double
  | fraction, _ =>
    let (kept, places) := keepDigits kept (fraction.getD [])
    (Double.ofDecimal l.negative kept (dropped - places + l.shift)).map .double

/-- The magnitude of the double that is nearest to a literal, all of its digits counted. -/
def Literal.nearest (l : Literal) : Nat :=
  let places := l.fraction.getD []
  Double.nearest (ofDigits (l.whole ++ places)) (l.shift - places.length)

end Number

end ReactiveSpace.Json
