import ReactiveSpace.Decimal.Shortest

/-!
# Writing decimals

A `Style` says where positional writing ends and how the rest is written. `Style.write` turns the
shortest decimal of a double into text by it.
-/

namespace ReactiveSpace.Decimal

/-- How decimals are written. -/
structure Style where
  /-- The least leading power of ten that is written positionally. -/
  least : Int
  /-- The greatest leading power of ten that is written positionally. -/
  greatest : Int
  /-- Whether a whole number written positionally keeps a point and one zero. -/
  point : Bool
  /-- The mark before an exponent. -/
  mark : String
  /-- Whether a positive exponent carries its sign. -/
  plus : Bool

/-- The digits of `n` in base ten. -/
def digitText (n : Nat) : String :=
  String.ofList (Nat.toDigits 10 n)

/-- An integer in base ten, with a sign when it is negative. -/
def intText (n : Int) : String :=
  if n < 0 then "-" ++ digitText n.natAbs else digitText n.natAbs

/-- A run of `n` zeros. -/
def zeros (n : Nat) : String :=
  String.ofList (List.replicate n '0')

/-- A decimal without an exponent. -/
def Style.positional (style : Style) (x : Decimal) : String :=
  let digits := Nat.toDigits 10 x.digits
  let whole (text : String) : String := if style.point then text ++ ".0" else text
  if 0 ≤ x.exponent then whole (String.ofList digits ++ zeros x.exponent.toNat)
  else
    let places := (-x.exponent).toNat
    if places < digits.length then
      let before := digits.length - places
      String.ofList (digits.take before) ++ "." ++ String.ofList (digits.drop before)
    else "0." ++ zeros (places - digits.length) ++ String.ofList digits

/-- A decimal with one digit before the point and an exponent. -/
def Style.scientific (style : Style) (x : Decimal) : String :=
  let digits := Nat.toDigits 10 x.digits
  let power := x.exponent + (digits.length - 1 : Nat)
  let body := match digits with
    | [] => ""
    | [d] => String.ofList [d]
    | d :: rest => String.ofList (d :: '.' :: rest)
  body ++ style.mark ++ (if style.plus && 0 ≤ power then "+" else "") ++ intText power

/-- A positive decimal as text. -/
def Style.write (style : Style) (x : Decimal) : String :=
  let power := x.exponent + (length x.digits - 1 : Nat)
  if style.least ≤ power && power ≤ style.greatest then style.positional x
  else style.scientific x

/-- A double as text: its sign, also on zero, and its shortest decimal. -/
def Style.double (style : Style) (d : Double) : String :=
  (if d.negative then "-" else "") ++
    if d.magnitude = 0 then style.write ⟨0, 0⟩ else style.write (shortest d.magnitude)

end ReactiveSpace.Decimal
