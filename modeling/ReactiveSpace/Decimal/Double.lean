/-!
# Doubles

A finite IEEE-754 double is kept as its sign and its *magnitude*, the low 63 bits of its encoding:
eleven bits of biased exponent over fifty-two bits of fraction. Magnitudes grow with the absolute
value they stand for, so rounding an exact quotient to a double is one function on natural numbers,
`roundQuotient`, from which products and quotients of doubles follow.
-/

namespace ReactiveSpace

/-- A finite double by its sign and the low 63 bits of its encoding. -/
structure Double where
  /-- Whether the sign bit is set. -/
  negative : Bool
  /-- Biased exponent times `2^52`, plus the fraction. -/
  magnitude : Nat
deriving DecidableEq, Inhabited

namespace Double

/-- The magnitude of infinity, one above the largest finite magnitude. -/
def infinite : Nat := 0x7FF * Nat.pow 2 52

/-- A double of magnitude `m` stands for `significand m * 2 ^ exponent m`. -/
def significand (m : Nat) : Nat :=
  if m < Nat.pow 2 52 then m else m % Nat.pow 2 52 + Nat.pow 2 52

/-- The power of two that scales the significand of magnitude `m`. -/
def exponent (m : Nat) : Int :=
  if m < Nat.pow 2 52 then -1074 else (m / Nat.pow 2 52 : Nat) - 1075

/-- The 64 bits of the encoding. -/
def bits (d : Double) : Nat :=
  (if d.negative then Nat.pow 2 63 else 0) + d.magnitude

/-! ### Rounding -/

/-- The quotient `n / d` rounded to a whole number, a half going to the even neighbour. -/
def roundDiv (n d : Nat) : Nat :=
  let q := n / d
  let r := n % d
  if d < 2 * r || (2 * r == d && q % 2 == 1) then q + 1 else q

/-- The quotient `n * 2 ^ (-q) / d` as a pair of natural numbers. -/
def scaleBy (n d : Nat) (q : Int) : Nat × Nat :=
  if 0 ≤ q then (n, d * Nat.pow 2 q.toNat) else (n * Nat.pow 2 (-q).toNat, d)

/-- The exponent at which `n / d` has 53 significant bits, or the least exponent there is. -/
def exponentOf (n d : Nat) : Int :=
  let q := max (-1074) ((n.log2 : Int) - d.log2 - 53)
  let (a, b) := scaleBy n d q
  if Nat.pow 2 53 ≤ a / b then q + 1 else q

/-- The magnitude of the double nearest to `n / d`, a half going to the even neighbour. It is at
least `infinite` when no finite double is that large. -/
def roundQuotient (n d : Nat) : Nat :=
  if n = 0 then 0
  else
    let q := exponentOf n d
    let (a, b) := scaleBy n d q
    let m := roundDiv a b
    if m < Nat.pow 2 52 then m else (q + 1075).toNat * Nat.pow 2 52 + (m - Nat.pow 2 52)

/-- The exact value of a magnitude as a quotient of natural numbers. -/
def quotient (m : Nat) : Nat × Nat :=
  let e := exponent m
  if 0 ≤ e then (significand m * Nat.pow 2 e.toNat, 1) else (significand m, Nat.pow 2 (-e).toNat)

/-- The magnitude of the rounded product. -/
def mul (x y : Nat) : Nat :=
  let (a, b) := quotient x
  let (c, d) := quotient y
  roundQuotient (a * c) (b * d)

/-- The magnitude of the rounded quotient, for `y` not zero. -/
def div (x y : Nat) : Nat :=
  let (a, b) := quotient x
  let (c, d) := quotient y
  roundQuotient (a * d) (b * c)

/-! ### Reading a decimal -/

/-- The magnitude nearest to `10 ^ n`. -/
def powerOfTen (n : Nat) : Nat :=
  roundQuotient (Nat.pow 10 n) 1

/-- The magnitude `x` times ten to the power `e`, by one rounded product or quotient
when `e` is within 308, and by repeated division by `10 ^ 308` below that. It is `none` when the
result is too large. -/
def scale (x : Nat) (e : Int) : Option Nat :=
  if x = 0 then some 0
  else if 308 < e then none
  else if 0 ≤ e then
    let y := mul x (powerOfTen e.toNat)
    if infinite ≤ y then none else some y
  else if -308 ≤ e then some (div x (powerOfTen (-e).toNat))
  else scale (div x (powerOfTen 308)) (e + 308)
termination_by (-e).toNat
decreasing_by omega

/-- The double read for `digits * 10 ^ exponent`, if it is finite. -/
def ofDecimal (negative : Bool) (digits : Nat) (exponent : Int) : Option Double :=
  (scale (roundQuotient digits 1) exponent).map fun m => ⟨negative, m⟩

/-- The magnitude of the double nearest to `digits * 10 ^ exponent`, a half going to the even
neighbour. It is at least `infinite` when no finite double is that large. The two cases without a
quotient lie so far outside the range of doubles that the power of ten is not worth computing. -/
def nearest (digits : Nat) (exponent : Int) : Nat :=
  if digits = 0 ∨ exponent + digits.log2 + 1 < -324 then 0
  else if exponent < 0 then roundQuotient digits (Nat.pow 10 (-exponent).toNat)
  else if exponent ≤ 310 then roundQuotient (digits * Nat.pow 10 exponent.toNat) 1
  else infinite

/-- The double nearest to a whole number. -/
def ofInt (n : Int) : Double :=
  ⟨n < 0, roundQuotient n.natAbs 1⟩

/-- Whether two doubles compare equal: both zeros do. -/
def same (x y : Double) : Bool :=
  x == y || (x.magnitude == 0 && y.magnitude == 0)

end Double

end ReactiveSpace
