import ReactiveSpace.Proofs.Json.Scanning

/-!
# Number literals that are integers

A number literal is an integer if it has neither fraction nor exponent and its value fits 64 bits,
with or without a sign; only `-0` is none (`ofNumber?_eq_integer_iff`). One half is that such digits
are all kept (`Number.keepDigits_eq`), the other that digits which are all kept fit.
-/

namespace ReactiveSpace.Json

open Number

/-- Digits without a needless zero in front. -/
structure IsNumeral (ds : List Char) : Prop where
  nonempty : ds ≠ []
  isDigit : ∀ c ∈ ds, c.isDigit = true
  leading : ds.length = 1 ∨ ds.head? ≠ some '0'

/-- The characters write the integer `n`, of 64 bits with or without a sign, and are not `-0`. -/
def WritesInteger (cs : List Char) (n : Int) : Prop :=
  (-2 ^ 63 ≤ n ∧ n < 2 ^ 64) ∧ ∃ ds, IsNumeral ds ∧
    (cs = ds ∧ n = Nat.ofDigitChars 10 ds 0 ∨
      cs = '-' :: ds ∧ n = -(Nat.ofDigitChars 10 ds 0 : Int) ∧ n ≠ 0)

namespace Number

variable {cs ds rest : List Char}

/-! ### The parts of a literal -/

theorem eq_of_digits? (h : digits? cs = some (ds, rest)) :
    cs = ds ++ rest ∧ ds ≠ [] ∧ ∀ c ∈ ds, c.isDigit = true := by
  unfold digits? at h
  split at h
  · cases h
  · rename_i hne
    obtain ⟨rfl, rfl⟩ := Prod.mk.inj (Option.some.inj h)
    exact ⟨List.takeWhile_append_dropWhile.symm, hne, fun c hc => List.mem_takeWhile_imp hc⟩

theorem eq_of_fraction? (h : fraction? cs = some (none, rest)) : rest = cs := by
  unfold fraction? at h
  split at h
  · obtain ⟨found, -, hfound⟩ := Option.map_eq_some_iff.1 h
    cases hfound
  · cases h
    rfl

theorem eq_of_power? (h : power? cs = some (none, rest)) : rest = cs := by
  unfold power? at h
  split at h
  · split at h
    · obtain ⟨found, -, hfound⟩ := Option.map_eq_some_iff.1 h
      cases hfound
    · cases h
      rfl
  · cases h
    rfl

/-- A literal with neither fraction nor exponent is digits, behind a sign if it is negative. -/
theorem eq_of_ofChars? {negative : Bool}
    (h : Literal.ofChars? cs = some ⟨negative, ds, none, none⟩) :
    IsNumeral ds ∧ cs = if negative then '-' :: ds else ds := by
  unfold Literal.ofChars? at h
  simp only [Option.bind_eq_bind, Option.bind_eq_some_iff] at h
  obtain ⟨⟨whole, afterWhole⟩, hwhole, _, hleading, ⟨places, afterPlaces⟩, hplaces,
    ⟨power, afterPower⟩, hpower, _, hend, hliteral⟩ := h
  obtain ⟨hnegative, rfl, rfl, rfl⟩ := Literal.mk.inj (Option.some.inj hliteral)
  obtain ⟨hsplit, hne, hdigit⟩ := eq_of_digits? hwhole
  -- Without a fraction and a power, nothing but digits is left behind the sign.
  obtain rfl := eq_of_fraction? hplaces
  obtain rfl := eq_of_power? hpower
  have hleading' : whole.length = 1 ∨ whole.head? ≠ some '0' := (Option.guard_eq_some' _).1 hleading
  obtain rfl : afterPower = [] :=
    List.isEmpty_iff.1 ((Option.guard_eq_some' _).1 hend)
  refine ⟨⟨hne, hdigit, hleading'⟩, ?_⟩
  rw [List.append_nil] at hsplit
  subst hnegative
  split at hsplit
  · rw [if_pos rfl, ← hsplit]
  · rw [if_neg Bool.false_ne_true, ← hsplit]

/-! ### The value of a literal -/

/-- Digits that are all kept fit 64 bits. -/
theorem lt_of_keepDigits {start : Nat} (hstart : start < 2 ^ 64)
    (h : ds.length ≤ (keepDigits start ds).2) : Nat.ofDigitChars 10 ds start < 2 ^ 64 := by
  induction ds generalizing start with
  | nil => exact hstart
  | cons d ds ih =>
    have hnext : start * 10 + digitValue d = 10 * start + (d.toNat - '0'.toNat) := by
      rw [digitValue, Nat.mul_comm]
    rw [keepDigits, hnext] at h
    rw [Nat.ofDigitChars_cons]
    dsimp only at h
    split at h
    · rename_i hroom
      exact ih hroom (Nat.le_of_succ_le_succ h)
    · cases h

/-- A literal of digits alone is an integer if they fit 64 bits, with or without a sign. -/
theorem value?_eq_integer_iff {negative : Bool} {n : Int} :
    Literal.value? ⟨negative, ds, none, none⟩ = some (.integer n) ↔
      (-2 ^ 63 ≤ n ∧ n < 2 ^ 64) ∧
        if negative then n = -(Nat.ofDigitChars 10 ds 0 : Int) ∧ n ≠ 0
        else n = Nat.ofDigitChars 10 ds 0 := by
  by_cases hfits : Nat.ofDigitChars 10 ds 0 < 2 ^ 64
  · have hkept := keepDigits_eq 0 ds hfits
    cases negative with
    | false =>
      have hvalue : Literal.value? ⟨false, ds, none, none⟩ =
          some (.integer (Nat.ofDigitChars 10 ds 0)) := by
        simp [Literal.value?, hkept]
      rw [hvalue, Option.some.injEq, Number.integer.injEq, if_neg Bool.false_ne_true]
      omega
    | true =>
      have hvalue : Literal.value? ⟨true, ds, none, none⟩ =
          if Nat.ofDigitChars 10 ds 0 = 0 ∨ 2 ^ 63 < Nat.ofDigitChars 10 ds 0 then
            some (.double ⟨true, Double.roundQuotient (Nat.ofDigitChars 10 ds 0) 1⟩)
          else some (.integer (-(Nat.ofDigitChars 10 ds 0 : Int))) := by
        simp [Literal.value?, hkept]
      rw [hvalue, if_pos rfl]
      split
      · simp only [Option.some.injEq, reduceCtorEq, false_iff]
        omega
      · rw [Option.some.injEq, Number.integer.injEq]
        omega
  · -- Digits are dropped, so that the literal is a double, if anything.
    have hdropped : ds.length - (keepDigits 0 ds).2 ≠ 0 := fun h =>
      hfits (lt_of_keepDigits (Nat.two_pow_pos 64) (Nat.le_of_sub_eq_zero h))
    constructor
    · intro h
      rw [Literal.value?] at h
      dsimp only at h
      rw [if_neg hdropped] at h
      obtain ⟨d, -, hd⟩ := Option.map_eq_some_iff.1 h
      cases hd
    · rintro ⟨hrange, hn⟩
      exfalso
      split at hn <;> omega

/-- A literal whose value is an integer has neither fraction nor exponent. -/
theorem eq_of_value? {l : Literal} {n : Int} (h : l.value? = some (.integer n)) :
    l = ⟨l.negative, l.whole, none, none⟩ := by
  obtain ⟨negative, whole, places, power⟩ := l
  rw [Literal.value?] at h
  dsimp only at h
  split at h
  · rfl
  · obtain ⟨d, -, hd⟩ := Option.map_eq_some_iff.1 h
    cases hd

end Number

/-- **The literals that are integers** are those without fraction and exponent whose value fits 64
bits with or without a sign, and that are not `-0`. -/
theorem ofNumber?_eq_integer_iff {cs : List Char} {n : Int} :
    Token.ofNumber? cs = some (.number (.integer n)) ↔ WritesInteger cs n := by
  constructor
  · intro h
    obtain ⟨l, hliteral, htoken⟩ := Option.map_eq_some_iff.1 h
    -- The token is the value of the literal, so the literal has an integer as its value.
    have hvalue : l.value? = some (.integer n) := by
      split at htoken
      · rename_i m hm
        rw [hm, Token.number.inj htoken]
      · cases htoken
    rw [eq_of_value? hvalue] at hliteral hvalue
    obtain ⟨hds, hcs⟩ := eq_of_ofChars? hliteral
    obtain ⟨hrange, hn⟩ := value?_eq_integer_iff.1 hvalue
    refine ⟨hrange, l.whole, hds, ?_⟩
    split at hcs
    · rename_i hnegative
      rw [if_pos hnegative] at hn
      exact Or.inr ⟨hcs, hn⟩
    · rename_i hnegative
      rw [if_neg hnegative] at hn
      exact Or.inl ⟨hcs, hn⟩
  · rintro ⟨hrange, ds, hds, ⟨rfl, hn⟩ | ⟨rfl, hn⟩⟩
    · have hvalue : Literal.value? ⟨false, cs, none, none⟩ = some (.integer n) :=
        value?_eq_integer_iff.2 ⟨hrange, hn⟩
      rw [Token.ofNumber?, (ofChars?_of_isDigit hds.nonempty hds.isDigit hds.leading).1,
        Option.map_some, hvalue]
    · have hvalue : Literal.value? ⟨true, ds, none, none⟩ = some (.integer n) :=
        value?_eq_integer_iff.2 ⟨hrange, hn⟩
      rw [Token.ofNumber?, (ofChars?_of_isDigit hds.nonempty hds.isDigit hds.leading).2,
        Option.map_some, hvalue]

end ReactiveSpace.Json
