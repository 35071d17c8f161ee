namespace IamKeeper.Decimal

/-- The finite number of magnitude `mantissa * 2 ^ exponent`. Numbers made by `Binary64.round` have a
mantissa below `2 ^ 53`, and one below `2 ^ 52` only with the least exponent. -/
structure Binary64 where
  negative : Bool
  mantissa : Nat
  exponent : Int
deriving Repr, DecidableEq

/-- The quotient of `n` by `d`, rounded to nearest, a tie to the even neighbour. -/
def roundQuotient (n d : Nat) : Nat :=
  let q := n / d
  let r := n % d
  if 2 * r < d ∨ (2 * r = d ∧ q % 2 = 0) then q else q + 1

namespace Binary64

def leastExponent : Int := -1074

/-- The exponent of the numbers nearest to overflow. -/
def greatestExponent : Int := 971

def zero (negative : Bool) : Binary64 :=
  ⟨negative, 0, leastExponent⟩

def isZero (x : Binary64) : Bool :=
  x.mantissa == 0

def negate (x : Binary64) : Binary64 :=
  { x with negative := !x.negative }

/-- The fraction `n / d` in units of `2 ^ exponent`, as a numerator and a denominator. -/
def unitsOf (n d : Nat) (exponent : Int) : Nat × Nat :=
  if 0 ≤ exponent then (n, d * Nat.pow 2 exponent.toNat)
  else (n * Nat.pow 2 (-exponent).toNat, d)

/-- The positive number nearest to `n / d`, or none when that is beyond the greatest number. -/
def round (n d : Nat) : Option Binary64 :=
  if n = 0 then some (zero false)
  else
    let guess := max leastExponent ((n.log2 : Int) - d.log2 - 53)
    let units := unitsOf n d guess
    let exponent := if Nat.pow 2 53 ≤ units.1 / units.2 then guess + 1 else guess
    let units := unitsOf n d exponent
    let mantissa := roundQuotient units.1 units.2
    let rounded : Nat × Int :=
      if mantissa = Nat.pow 2 53 then (Nat.pow 2 52, exponent + 1) else (mantissa, exponent)
    if greatestExponent < rounded.2 then none else some ⟨false, rounded.1, rounded.2⟩

def fraction (x : Binary64) : Nat × Nat :=
  if 0 ≤ x.exponent then (x.mantissa * Nat.pow 2 x.exponent.toNat, 1)
  else (x.mantissa, Nat.pow 2 (-x.exponent).toNat)

def times (x y : Binary64) : Option Binary64 :=
  round (x.fraction.1 * y.fraction.1) (x.fraction.2 * y.fraction.2)

def dividedBy (x y : Binary64) : Option Binary64 :=
  round (x.fraction.1 * y.fraction.2) (x.fraction.2 * y.fraction.1)

def powerOfTen (n : Nat) : Option Binary64 :=
  round (Nat.pow 10 n) 1

/-- The powers of ten up to this one are numbers. -/
def greatestPower : Nat := 308

/-- Divides by `10 ^ 308` as long as the remaining division is by more than that; at most `steps`
times, and no further once nothing is left. -/
def divideByPowers : Nat → Binary64 → Nat → Option Binary64
  | 0, x, _ => some x
  | steps + 1, x, power =>
    if power ≤ greatestPower then (powerOfTen power).bind x.dividedBy
    else if x.isZero then some x
    else
      (powerOfTen greatestPower).bind fun divisor =>
        (x.dividedBy divisor).bind fun y => divideByPowers steps y (power - greatestPower)

/-- The magnitude times `10 ^ exponent`: one rounded product or quotient with a rounded power of
ten where there is such a power, several quotients where there is none. None on overflow. -/
def scale (x : Binary64) (exponent : Int) : Option Binary64 :=
  if 0 ≤ exponent then
    if exponent.toNat ≤ greatestPower then (powerOfTen exponent.toNat).bind x.times
    else if x.isZero then some x
    else none
  else
    let power := (-exponent).toNat
    divideByPowers (power / greatestPower + 1) x power

end Binary64

end IamKeeper.Decimal
