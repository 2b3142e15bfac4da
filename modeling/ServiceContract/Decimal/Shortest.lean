import ServiceContract.Decimal.Binary64

/-!
# The fewest digits that read back

A finite number stands for an interval of reals: those that round to it. `shortest` gives the
decimal with the fewest digits inside that interval, and of those the one nearest to the number.
The grids of one, two, … digits are tried in turn; if a point of a grid lies in the interval, then
so does one of the two grid points around the number, so only those are looked at. Seventeen
digits always suffice.

`FloatStyle` says how digits become text: where positional notation ends and how an exponent is
signed.
-/

namespace ServiceContract

namespace Binary64

/-- A decimal `digits · 10^power`. -/
structure Decimal where
  digits : Nat
  power : Int
  deriving DecidableEq, Repr

/-- The reals that round to a positive number: the ends as multiples of `unit`, a fraction. The ends
belong to the interval when the mantissa is even. -/
structure Neighbourhood where
  low : Nat
  value : Nat
  high : Nat
  unit : Nat × Nat
  closed : Bool

/-- The half-way points to the two neighbours. Below a power of two the lower neighbour is nearer.
-/
def neighbourhood (x : Binary64) : Neighbourhood :=
  let atPower := x.mantissa == Nat.pow 2 (precision - 1) && minExponent < x.exponent
  let quarter := x.exponent - 2
  { low := 4 * x.mantissa - (if atPower then 1 else 2)
    value := 4 * x.mantissa
    high := 4 * x.mantissa + 2
    unit := if 0 ≤ quarter then (Nat.pow 2 quarter.toNat, 1) else (1, Nat.pow 2 (-quarter).toNat)
    closed := x.mantissa % 2 == 0 }

def powerOfTen (power : Int) : Nat × Nat :=
  if 0 ≤ power then (Nat.pow 10 power.toNat, 1) else (1, Nat.pow 10 (-power).toNat)

/-- Whether `count · 10^power` lies in the neighbourhood. -/
def Neighbourhood.contains (near : Neighbourhood) (count : Nat) (power : Int) : Bool :=
  let (pn, pd) := powerOfTen power
  let here := count * pn * near.unit.2
  let low := near.low * near.unit.1 * pd
  let high := near.high * near.unit.1 * pd
  if near.closed then decide (low ≤ here) && decide (here ≤ high)
  else decide (low < here) && decide (here < high)

/-- The power of ten of the leading digit of a positive fraction. -/
def leadingPower (numerator denominator : Nat) : Int :=
  if denominator ≤ numerator then (Nat.toDigits 10 (numerator / denominator)).length - 1
  else -(Nat.toDigits 10 ((denominator + numerator - 1) / numerator - 1)).length

/-- Writes the number one past the greatest of `width` digits as a one and a power. -/
def Decimal.carry (width : Nat) (value : Decimal) : Decimal :=
  if value.digits = Nat.pow 10 width then ⟨1, value.power + width⟩ else value

/-- The point of one grid that stands for the number, if the grid has one. -/
def onGrid? (near : Neighbourhood) (power : Int) : Option Decimal :=
  let (pn, pd) := powerOfTen power
  let n := near.value * near.unit.1 * pd
  let d := near.unit.2 * pn
  let below := n / d
  match near.contains below power, near.contains (below + 1) power with
  | true, true => some ⟨roundDiv n d, power⟩
  | true, false => some ⟨below, power⟩
  | false, true => some ⟨below + 1, power⟩
  | false, false => none

/-- Tries grids of `width`, `width + 1`, … digits, `tries` of them. -/
def searchGrids (near : Neighbourhood) (leading : Int) : (tries width : Nat) → Decimal
  | 0, _ => ⟨0, 0⟩
  | tries + 1, width =>
    match onGrid? near (leading - width + 1) with
    | some found => found.carry width
    | none => searchGrids near leading tries (width + 1)

/-- The shortest decimal that reads back as the magnitude of `x`. -/
def shortest (x : Binary64) : Decimal :=
  if x.mantissa = 0 then ⟨0, 0⟩
  else searchGrids x.neighbourhood (leadingPower x.ratio.1 x.ratio.2) 17 1

end Binary64

/-- How the digits of a number become text. -/
structure FloatStyle where
  /-- The least position of the point, counted from the first digit, still written positionally. -/
  leastPoint : Int
  /-- The greatest one. -/
  greatestPoint : Int
  /-- Whether a positive exponent carries a sign. -/
  plusSign : Bool

namespace FloatStyle

/-- Positional from `0.00001` up to sixteen digits before the point; `1e+21`. -/
def signedExponent : FloatStyle := ⟨-4, 16, true⟩

/-- Positional from `0.00001` up to sixteen digits before the point; `1e21`. -/
def plainExponent : FloatStyle := ⟨-4, 16, false⟩

def exponentChars (style : FloatStyle) (exponent : Int) : List Char :=
  if exponent < 0 then 'e' :: '-' :: Nat.toDigits 10 exponent.natAbs
  else if style.plusSign then 'e' :: '+' :: Nat.toDigits 10 exponent.natAbs
  else 'e' :: Nat.toDigits 10 exponent.natAbs

/-- A decimal in the style; a whole number keeps `.0`. -/
def magnitude (style : FloatStyle) (value : Binary64.Decimal) : List Char :=
  let digits := Nat.toDigits 10 value.digits
  let point : Int := digits.length + value.power
  if point < style.leastPoint ∨ style.greatestPoint < point then
    match digits with
    | [] => []
    | [d] => d :: style.exponentChars (point - 1)
    | d :: rest => d :: '.' :: rest ++ style.exponentChars (point - 1)
  else if 0 ≤ value.power then digits ++ List.replicate value.power.toNat '0' ++ ['.', '0']
  else if 0 < point then digits.take point.toNat ++ '.' :: digits.drop point.toNat
  else '0' :: '.' :: List.replicate (-point).toNat '0' ++ digits

def chars (style : FloatStyle) (x : Binary64) : List Char :=
  (if x.negative then ['-'] else []) ++ style.magnitude x.shortest

end FloatStyle

end ServiceContract
