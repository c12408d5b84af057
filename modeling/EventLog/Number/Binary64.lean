/-!
# Binary floating point numbers of 64 bits

A finite number is a sign, a mantissa below `2 ^ 53` and a power of two not below `2 ^ -1074`. Every
operation computes the exact quotient of two natural numbers first and rounds once, to the nearest
number and from a tie to the even mantissa.
-/

namespace EventLog

/-- The magnitude of a finite binary64 number, `mantissa * 2 ^ exponent`. -/
structure Magnitude where
  mantissa : Nat
  exponent : Int
deriving DecidableEq, Repr, Inhabited

/-- A finite binary64 number. -/
structure Binary64 where
  negative : Bool
  magnitude : Magnitude
deriving DecidableEq, Repr, Inhabited

namespace Magnitude

/-- The magnitude of both zeros. -/
def zero : Magnitude := ⟨0, 0⟩

/-- The least exponent of a binary64 number. -/
def minExponent : Int := -1074

/-- The largest exponent of a mantissa of 53 bits. -/
def maxExponent : Int := 971

/-- No mantissa reaches `2 ^ 53`. -/
def mantissaBound : Nat := 0x20000000000000

/-- Half of the bound, the mantissa of the powers of two. -/
def halfMantissa : Nat := 0x10000000000000

/-- `2 ^ e` as a quotient of natural numbers. -/
def powTwo (e : Int) : Nat × Nat :=
  (Nat.pow 2 e.toNat, Nat.pow 2 (-e).toNat)

/-- `num / den` rounded to a natural number, a tie to the even neighbour. -/
def roundQuotient (num den : Nat) : Nat :=
  let q := num / den
  let r := num % den
  if 2 * r < den then q
  else if den < 2 * r then q + 1
  else if q % 2 == 0 then q else q + 1

/-- The exponent at which `num / den` has a mantissa of at most 53 bits. -/
def exponentOf (num den : Nat) : Int :=
  let e := max ((Nat.log2 num : Int) - (Nat.log2 den : Int) - 53) minExponent
  let (up, down) := powTwo e
  if mantissaBound ≤ num * down / (den * up) then e + 1 else e

/-- The magnitude nearest to `num / den`, or `none` beyond the largest finite number. -/
def ofQuotient? (num den : Nat) : Option Magnitude :=
  if num == 0 then some zero
  else
    let e := exponentOf num den
    let (up, down) := powTwo e
    let m := roundQuotient (num * down) (den * up)
    let (m, e) := if m == mantissaBound then (halfMantissa, e + 1) else (m, e)
    if maxExponent < e then none
    else if m == 0 then some zero
    else some ⟨m, e⟩

/-- The magnitude as an exact quotient. -/
def toQuotient (a : Magnitude) : Nat × Nat :=
  let (up, down) := powTwo a.exponent
  (a.mantissa * up, down)

/-- The product, rounded. -/
def mul? (a b : Magnitude) : Option Magnitude :=
  let (an, ad) := a.toQuotient
  let (bn, bd) := b.toQuotient
  ofQuotient? (an * bn) (ad * bd)

/-- The quotient, rounded; the divisor is not zero. -/
def div? (a b : Magnitude) : Option Magnitude :=
  let (an, ad) := a.toQuotient
  let (bn, bd) := b.toQuotient
  ofQuotient? (an * bd) (ad * bn)

/-- The largest power of ten used as a factor. -/
def topPower : Nat := 308

/-- The magnitude nearest to `10 ^ n`, for `n` at most `topPower`. -/
def powTen (n : Nat) : Magnitude :=
  (ofQuotient? (Nat.pow 10 n) 1).getD zero

/-- `a` divided `steps` times by `10 ^ topPower` and then by `10 ^ rest`, each quotient rounded. -/
def scaleDown (a : Magnitude) : Nat → Nat → Option Magnitude
  | 0, rest => a.div? (powTen rest)
  | steps + 1, rest =>
    match a.div? (powTen topPower) with
    | none => none
    | some b => if b.mantissa == 0 then some zero else b.scaleDown steps rest

/-- `significand * 10 ^ exponent`: the significand is rounded first and then scaled by one power of
ten, or by several when the exponent is below `-308`. `none` means out of range. -/
def ofDecimal? (significand : Nat) (exponent : Int) : Option Magnitude :=
  match ofQuotient? significand 1 with
  | none => none
  | some a =>
    if a.mantissa == 0 then some zero
    else if (topPower : Int) < exponent then none
    else if 0 ≤ exponent then a.mul? (powTen exponent.toNat)
    else
      let n := (-exponent).toNat
      let steps := (n - 1) / topPower
      a.scaleDown steps (n - topPower * steps)

end Magnitude

example : Magnitude.ofDecimal? 15 (-1) = some ⟨0x18000000000000, -52⟩ := by decide +kernel
example : Magnitude.ofDecimal? 5 (-324) = some ⟨1, -1074⟩ := by decide +kernel
example : Magnitude.ofDecimal? 1 400 = none := by decide +kernel

end EventLog
