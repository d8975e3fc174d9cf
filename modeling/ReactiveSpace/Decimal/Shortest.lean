import ReactiveSpace.Decimal.Double

/-!
# The shortest decimal of a double

`shortest m` is the decimal with the fewest digits among those that round to the double of
magnitude `m`, and of those the nearest to it. The reals that round to the double form an interval,
ends included exactly when the significand is even. For `1, 2, …, 17` digits the two neighbours of
the value on that decimal grid are tested in exact arithmetic, and the first grid with a hit wins.
-/

namespace ReactiveSpace

/-- A positive decimal `digits * 10 ^ exponent`. -/
structure Decimal where
  /-- The digits, read as one number. -/
  digits : Nat
  /-- The power of ten of the last digit. -/
  exponent : Int
deriving DecidableEq

namespace Decimal

/-- The number of digits of `n`, one for zero. -/
def length (n : Nat) : Nat :=
  (Nat.toDigits 10 n).length

/-- The same decimal without zeros at the end of its digits. -/
def strip (x : Decimal) : Decimal :=
  if x.digits ≠ 0 ∧ x.digits % 10 = 0 then strip ⟨x.digits / 10, x.exponent + 1⟩ else x
termination_by x.digits
decreasing_by omega

/-- The quotient of `a / b` and `10 ^ e`, as a pair of natural numbers. -/
def overPower (a b : Nat) (e : Int) : Nat × Nat :=
  if 0 ≤ e then (a, b * Nat.pow 10 e.toNat) else (a * Nat.pow 10 (-e).toNat, b)

/-- The largest `e` with `10 ^ e ≤ a / b`, for `a` and `b` not zero. -/
def leadingPower (a b : Nat) : Int :=
  let e : Int := (length a : Int) - length b
  let (n, d) := overPower a b e
  if d ≤ n then e else e - 1

/-- The reals that round to one double, as multiples of a quarter unit in its last place. -/
structure Interval where
  /-- Four times the significand. -/
  center : Nat
  low : Nat
  high : Nat
  /-- Whether the ends belong to the interval. -/
  closed : Bool
  /-- The quarter unit is `2 ^ quarter`. -/
  quarter : Int

/-- The interval of the double of magnitude `m`. The gap below a power of two is half as wide. -/
def Interval.of (m : Nat) : Interval :=
  let s := Double.significand m
  { center := 4 * s
    low := if m % Nat.pow 2 52 = 0 ∧ 2 * Nat.pow 2 52 ≤ m then 4 * s - 1 else 4 * s - 2
    high := 4 * s + 2
    closed := s % 2 = 0
    quarter := Double.exponent m - 2 }

/-- Whether `n / d`, in quarter units, lies in the interval. -/
def Interval.contains (i : Interval) (n d : Nat) : Bool :=
  if i.closed then i.low * d ≤ n && n ≤ i.high * d else i.low * d < n && n < i.high * d

/-- The decimal with `count` digits that lies in the interval, the nearer of two and the even one
of two equally near; `none` when neither neighbour of the value does. -/
def Interval.candidate (i : Interval) (count : Nat) : Option Decimal :=
  -- the value is `a / b`
  let (a, b) := if 0 ≤ i.quarter then (i.center * Nat.pow 2 i.quarter.toNat, 1)
    else (i.center, Nat.pow 2 (-i.quarter).toNat)
  let e := leadingPower a b + 1 - count
  let (n, d) := overPower a b e
  let c := n / d
  -- `k * 10 ^ e` in quarter units
  let inside (k : Nat) : Bool :=
    let (x, y) := if 0 ≤ e then (k * Nat.pow 10 e.toNat, 1) else (k, Nat.pow 10 (-e).toNat)
    let (x, y) := if 0 ≤ i.quarter then (x, y * Nat.pow 2 i.quarter.toNat)
      else (x * Nat.pow 2 (-i.quarter).toNat, y)
    i.contains x y
  match inside c, inside (c + 1) with
  | true, true =>
    let r := 2 * (n % d)
    if d < r || (r == d && c % 2 == 1) then some ⟨c + 1, e⟩ else some ⟨c, e⟩
  | true, false => some ⟨c, e⟩
  | false, true => some ⟨c + 1, e⟩
  | false, false => none

/-- The shortest decimal that reads back as the double of magnitude `m`, for `m` not zero. -/
def shortest (m : Nat) : Decimal :=
  let i := Interval.of m
  match (List.range' 1 17).findSome? i.candidate with
  | some x => strip x
  | none => ⟨0, 0⟩

end Decimal

end ReactiveSpace
