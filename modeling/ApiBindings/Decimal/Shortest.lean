import ApiBindings.Decimal.Binary64
/-!
# Shortest decimals

The shortest decimal of a binary64 number is the one with the fewest digits
among those that round back to it, and of these the nearest.  The reals that
round to `m * 2 ^ q` form an interval around it whose ends belong to it exactly
when `m` is even; for a given number of digits only the two neighbours of the
number on that decimal grid can lie in it.
-/

namespace ApiBindings

/-- The decimal `digits * 10 ^ exponent`. -/
structure Decimal where
  digits : Nat
  exponent : Int
deriving DecidableEq, Repr

namespace Decimal

/-- The same decimal without trailing zeros; the fuel bounds their number. -/
def strip : Nat → Decimal → Decimal
  | 0, d => d
  | fuel + 1, d =>
    if d.digits ≠ 0 ∧ d.digits % 10 = 0 then strip fuel ⟨d.digits / 10, d.exponent + 1⟩ else d

/-- The interval of reals that round to a number, in units of a quarter of its
last place. -/
structure Rounding where
  low : Nat
  value : Nat
  high : Nat
  /-- The ends round to the number too. -/
  closed : Bool
  /-- The unit is this power of two. -/
  power : Int

/-- The rounding interval of a finite number other than zero.  Below a power
of two the neighbours are twice as close. -/
def Rounding.of (x : Binary64) : Rounding :=
  let m := x.significand
  { low := if x.fraction = 0 ∧ 1 < x.exponentField then 4 * m - 1 else 4 * m - 2
    value := 4 * m
    high := 4 * m + 2
    closed := m % 2 = 0
    power := x.power - 2 }

/-- The factors that bring grid points of `10 ^ exponent` and multiples of
`2 ^ power` to a common unit. -/
def commonUnit (exponent power : Int) : Nat × Nat :=
  (pow10 exponent.toNat * pow2 (-power).toNat, pow2 power.toNat * pow10 (-exponent).toNat)

/-- The point of the grid of `10 ^ exponent` that rounds to the number, if one
does: of two such points the nearer, and of two equally near the even one. -/
def Rounding.onGrid (r : Rounding) (exponent : Int) : Option Decimal :=
  let (grid, unit) := commonUnit exponent r.power
  let below := r.value * unit / grid
  let inside (point : Nat) : Bool :=
    let at10 := point * grid
    if r.closed then r.low * unit ≤ at10 && at10 ≤ r.high * unit
    else r.low * unit < at10 && at10 < r.high * unit
  let down := r.value * unit - below * grid
  let up := (below + 1) * grid - r.value * unit
  match inside below, inside (below + 1) with
  | true, true =>
    if down < up || (down = up && below % 2 = 0) then some ⟨below, exponent⟩ else some ⟨below + 1, exponent⟩
  | true, false => some ⟨below, exponent⟩
  | false, true => some ⟨below + 1, exponent⟩
  | false, false => none

/-- The least exponent among the candidates whose power of ten exceeds the
number. -/
def Rounding.magnitude (r : Rounding) : Int :=
  let estimate : Int := ((Nat.log2 r.value : Int) + r.power) * 30103 / 100000
  let exceeds (e : Int) : Bool :=
    let (grid, unit) := commonUnit e r.power
    r.value * unit < grid
  (([-1, 0, 1, 2].map (estimate + ·)).find? exceeds).getD (estimate + 3)

/-- The shortest decimal that rounds to a finite number other than zero. -/
def shortest (x : Binary64) : Decimal :=
  let r := Rounding.of x
  let top := r.magnitude
  let found := (List.range 17).findSome? fun n => r.onGrid (top - (n + 1 : Nat))
  (found.getD ⟨0, 0⟩).strip 20

end Decimal
end ApiBindings
