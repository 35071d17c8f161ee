import IamKeeper.Decimal.Binary64

namespace IamKeeper.Decimal

structure Numeral where
  digits : Nat
  exponent : Int
deriving Repr, DecidableEq

/-- Compares `c * 10 ^ k` with `x * 2 ^ p`. -/
def comparePowers (c : Nat) (k : Int) (x : Nat) (p : Int) : Ordering :=
  compare (c * Nat.pow 10 k.toNat * Nat.pow 2 (-p).toNat)
    (x * Nat.pow 2 p.toNat * Nat.pow 10 (-k).toNat)

/-- The decimals that round to a positive number, with magnitudes in units of `2 ^ exponent`; the
ends belong to it when `closed`. -/
structure Interval where
  least : Nat
  value : Nat
  greatest : Nat
  exponent : Int
  closed : Bool

namespace Interval

/-- The decimals that round to `x`: half-way to its two neighbours, of which the lower is nearer at a
power of two. -/
def of (x : Binary64) : Interval where
  least :=
    if x.mantissa = Nat.pow 2 52 ∧ Binary64.leastExponent < x.exponent then 4 * x.mantissa - 1
    else 4 * x.mantissa - 2
  value := 4 * x.mantissa
  greatest := 4 * x.mantissa + 2
  exponent := x.exponent - 2
  closed := x.mantissa % 2 == 0

def contains (i : Interval) (d : Numeral) : Bool :=
  let low := comparePowers d.digits d.exponent i.least i.exponent
  let high := comparePowers d.digits d.exponent i.greatest i.exponent
  if i.closed then low != .lt && high != .gt else low == .gt && high == .lt

/-- The two points next to the value on the grid of multiples of `10 ^ exponent`. -/
def neighbours (i : Interval) (exponent : Int) : Numeral × Numeral :=
  let n := i.value * Nat.pow 2 i.exponent.toNat * Nat.pow 10 (-exponent).toNat
  let d := Nat.pow 2 (-i.exponent).toNat * Nat.pow 10 exponent.toNat
  (⟨n / d, exponent⟩, ⟨n / d + 1, exponent⟩)

/-- Of the value's two neighbours on a grid the one that rounds to the number, the nearer if both
do, the even one if both are as near. -/
def onGrid (i : Interval) (exponent : Int) : Option Numeral :=
  let (below, above) := i.neighbours exponent
  match 0 < below.digits && i.contains below, i.contains above with
  | false, false => none
  | true, false => some below
  | false, true => some above
  | true, true =>
    match comparePowers (below.digits + above.digits) exponent (2 * i.value) i.exponent with
    | .gt => some below
    | .lt => some above
    | .eq => some (if below.digits % 2 = 0 then below else above)

/-- The first point found on the grids from `10 ^ exponent` downwards. -/
def search (i : Interval) : Nat → Int → Option Numeral
  | 0, _ => none
  | grids + 1, exponent =>
    match i.onGrid exponent with
    | some d => some d
    | none => i.search grids (exponent - 1)

end Interval

def digitCount (n : Nat) : Nat :=
  (Nat.toDigits 10 n).length

/-- Every positive number is at least `10 ^ -400`. -/
def deepest : Nat := 400

def leadingExponent (x : Binary64) : Int :=
  (digitCount (x.fraction.1 * Nat.pow 10 deepest / x.fraction.2) : Int) - deepest - 1

def greatestDigitCount : Nat := 17

/-- Of the decimals with the fewest digits that round to a positive number, the nearest. -/
def Binary64.shortest (x : Binary64) : Numeral :=
  ((Interval.of x).search greatestDigitCount (leadingExponent x)).getD ⟨0, 0⟩

/-- How a decimal is written: positionally while the point lies close enough to the digits. -/
structure Style where
  /-- Greatest place of the point, counted from the first digit, without an exponent. -/
  widest : Int
  /-- Least place of the point, exclusive, without an exponent. -/
  narrowest : Int

/-- Numbers in documents are positional from `1e-5` to below `1e16`. -/
def Style.document : Style := ⟨16, -5⟩

def stripZeros : Nat → Numeral → Numeral
  | 0, d => d
  | steps + 1, d =>
    if d.digits % 10 = 0 then stripZeros steps ⟨d.digits / 10, d.exponent + 1⟩ else d

def writeExponent (n : Int) : List Char :=
  'e' :: (if n < 0 then '-' else '+') :: Nat.toDigits 10 n.natAbs

/-- The text of a decimal; a positional one always has a point. -/
def Style.write (style : Style) (d : Numeral) : List Char :=
  let digits := Nat.toDigits 10 d.digits
  let point : Int := digits.length + d.exponent
  if 0 ≤ d.exponent ∧ point ≤ style.widest then
    digits ++ List.replicate d.exponent.toNat '0' ++ ['.', '0']
  else if 0 < point ∧ point ≤ style.widest then
    digits.take point.toNat ++ '.' :: digits.drop point.toNat
  else if style.narrowest < point ∧ point ≤ 0 then
    ['0', '.'] ++ List.replicate (-point).toNat '0' ++ digits
  else
    match digits with
    | [] => []
    | [first] => first :: writeExponent (point - 1)
    | first :: rest => first :: '.' :: rest ++ writeExponent (point - 1)

def Binary64.write (x : Binary64) : List Char :=
  (if x.negative then ['-'] else []) ++
    (if x.isZero then ['0', '.', '0']
    else Style.document.write (stripZeros greatestDigitCount x.shortest))

end IamKeeper.Decimal
