/-!
# Binary64 numbers as words

A binary64 number is kept as its 64-bit word.  Its exact value is
`significand * 2 ^ power`, and a decimal is read by exact division, rounding
to the nearest number and a tie to the even significand.
-/

namespace ApiBindings

/-- A power of two. -/
def pow2 (n : Nat) : Nat := Nat.pow 2 n

/-- A power of ten. -/
def pow10 (n : Nat) : Nat := Nat.pow 10 n

/-- A binary64 number, by its word. -/
structure Binary64 where
  word : UInt64
deriving DecidableEq, Repr

namespace Binary64

/-- Whether the sign bit is set. -/
def isNegative (x : Binary64) : Bool :=
  x.word.toNat / pow2 63 = 1

/-- The eleven exponent bits. -/
def exponentField (x : Binary64) : Nat :=
  x.word.toNat / pow2 52 % pow2 11

/-- The fifty-two fraction bits. -/
def fraction (x : Binary64) : Nat :=
  x.word.toNat % pow2 52

def isFinite (x : Binary64) : Bool :=
  x.exponentField ≠ 2047

def isNaN (x : Binary64) : Bool :=
  x.exponentField = 2047 ∧ x.fraction ≠ 0

/-- The significand of a finite number. -/
def significand (x : Binary64) : Nat :=
  if x.exponentField = 0 then x.fraction else pow2 52 + x.fraction

/-- The power of two that the significand of a finite number is scaled by. -/
def power (x : Binary64) : Int :=
  if x.exponentField = 0 then -1074 else (x.exponentField : Int) - 1075

/-- Whether the number is one of the two zeros. -/
def isZero (x : Binary64) : Bool :=
  x.exponentField = 0 ∧ x.fraction = 0

/-- Whether the number is exactly an integer. -/
def isInt (x : Binary64) (n : Int) : Bool :=
  x.isFinite &&
    (let signed : Int := if x.isNegative then -x.significand else x.significand
     if 0 ≤ x.power then signed * pow2 x.power.toNat = n
     else signed = n * pow2 (-x.power).toNat)

/-- Whether two numbers are the same: the two zeros are, and there is one NaN. -/
def sameNumber (x y : Binary64) : Bool :=
  x = y || (x.isZero && y.isZero)

/-- The word of the number with this sign and magnitude word. -/
def withSign (negative : Bool) (magnitude : Nat) : Binary64 :=
  ⟨UInt64.ofNat (magnitude + if negative then pow2 63 else 0)⟩

/-- The magnitude word of an infinity. -/
def infinityWord : Nat := 2047 * pow2 52

def infinity (negative : Bool) : Binary64 := withSign negative infinityWord

def nan : Binary64 := withSign false (infinityWord + pow2 51)

/-- A quotient rounded to the nearest integer, a tie to the even one. -/
def roundDiv (num den : Nat) : Nat :=
  let q := num / den
  let r := num % den
  if 2 * r < den then q
  else if den < 2 * r then q + 1
  else if q % 2 = 0 then q else q + 1

/-- The magnitude word of the number nearest to a positive quotient. -/
def wordOfRatio (num den : Nat) : Nat :=
  let scaled (p : Int) : Nat × Nat :=
    if 0 ≤ p then (num, den * pow2 p.toNat) else (num * pow2 (-p).toNat, den)
  let guess : Int := (Nat.log2 num : Int) - (Nat.log2 den : Int) - 52
  let low := (scaled guess).1 / (scaled guess).2 < pow2 52
  let p : Int := max (-1074) (if low then guess - 1 else guess)
  let rounded := roundDiv (scaled p).1 (scaled p).2
  min infinityWord ((p + 1074).toNat * pow2 52 + rounded)

/-- The number nearest to `digits * 10 ^ exponent`.  Exponents far outside the
range are settled without the power of ten. -/
def ofDecimal (negative : Bool) (digits : Nat) (exponent : Int) : Binary64 :=
  if digits = 0 then withSign negative 0
  else if 400 < exponent then infinity negative
  else if exponent < -400 - (Nat.log2 digits : Int) then withSign negative 0
  else if 0 ≤ exponent then withSign negative (wordOfRatio (digits * pow10 exponent.toNat) 1)
  else withSign negative (wordOfRatio digits (pow10 (-exponent).toNat))

end Binary64
end ApiBindings
