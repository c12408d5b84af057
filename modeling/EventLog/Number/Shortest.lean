import EventLog.Number.Binary64

/-!
# Shortest decimal numerals

A binary64 number is written with the fewest decimal digits that single it out, that is, that lie in
the interval of reals which round to it. Of two such numerals the nearer one is taken, and from a tie
the one with the even last digit.
-/

namespace EventLog

/-- `digits * 10 ^ exponent`. -/
structure Decimal where
  digits : Nat
  exponent : Int
deriving DecidableEq, Repr, Inhabited

namespace Magnitude

/-- The interval of reals that round to a magnitude, in quarters of its last binary place. -/
structure Window where
  low : Nat
  centre : Nat
  high : Nat
  closed : Bool

/-- The ends lie halfway to the neighbours; below a power of two the lower neighbour is at half the
distance. They belong to the interval when the mantissa is even. -/
def window (a : Magnitude) : Window where
  low := if a.mantissa == halfMantissa && minExponent < a.exponent then 4 * a.mantissa - 1
    else 4 * a.mantissa - 2
  centre := 4 * a.mantissa
  high := 4 * a.mantissa + 2
  closed := a.mantissa % 2 == 0

/-- The numeral with last place `10 ^ e` in the window, if there is one; `num / den` is a quarter of
the last binary place in units of `10 ^ e`. -/
def Window.pick? (w : Window) (num den : Nat) : Option Nat :=
  let below := w.centre * num / den
  let above := below + 1
  let fits := fun d => if w.closed then w.low * num ≤ d * den && d * den ≤ w.high * num
    else w.low * num < d * den && d * den < w.high * num
  let toBelow := w.centre * num - below * den
  let toAbove := above * den - w.centre * num
  match fits below, fits above with
  | true, true =>
    if toBelow < toAbove then some below
    else if toAbove < toBelow then some above
    else some (if below % 2 == 0 then below else above)
  | true, false => some below
  | false, true => some above
  | false, false => none

/-- Searches the grids `10 ^ e`, `10 ^ (e - 1)`, … for the first that meets the window. -/
def Window.search (w : Window) (binary : Int) : Nat → Int → Decimal
  | 0, e => ⟨w.centre, e⟩
  | fuel + 1, e =>
    let num := Nat.pow 2 (binary - 2).toNat * Nat.pow 10 (-e).toNat
    let den := Nat.pow 2 (2 - binary).toNat * Nat.pow 10 e.toNat
    match w.pick? num den with
    | some d => ⟨d, e⟩
    | none => w.search binary fuel (e - 1)

/-- The shortest decimal of a magnitude other than zero. Seventeen digits always suffice, and the
first grid tried is coarser than the number itself. -/
def shortest (a : Magnitude) : Decimal :=
  let size : Int := (Nat.log2 a.mantissa : Int) + a.exponent
  a.window.search a.exponent 24 (Int.fdiv (size * 30103) 100000 + 2)

end Magnitude

namespace Binary64

/-- How a number is set: `positional` bounds the decimal exponents written without an exponent
part, and an exponent part has its sign always and no leading zero. -/
structure Layout where
  lowest : Int
  highest : Int

/-- Numbers from `0.00001` up to, and not including, `10 ^ 16` are written positionally. -/
def layout : Layout := ⟨-5, 15⟩

/-- The characters of a numeral with digits `ds` and last place `10 ^ e`. -/
def Layout.render (l : Layout) (ds : List Char) (e : Int) : List Char :=
  let top := e + ds.length - 1
  if l.lowest ≤ top && top ≤ l.highest then
    if 0 ≤ e then ds ++ List.replicate e.toNat '0' ++ ['.', '0']
    else if 0 ≤ top then ds.take (top.toNat + 1) ++ '.' :: ds.drop (top.toNat + 1)
    else ['0', '.'] ++ List.replicate (-top - 1).toNat '0' ++ ds
  else
    let fraction := match ds with
      | d :: r@(_ :: _) => d :: '.' :: r
      | _ => ds
    let sign := if 0 ≤ top then '+' else '-'
    fraction ++ 'e' :: sign :: (toString top.natAbs).toList

/-- The shortest numeral of a number; zero is `0.0`, and the sign of zero is kept. -/
def chars (x : Binary64) : List Char :=
  let body := if x.magnitude.mantissa == 0 then ['0', '.', '0']
    else
      let d := x.magnitude.shortest
      layout.render (toString d.digits).toList d.exponent
  if x.negative then '-' :: body else body

end Binary64

end EventLog
