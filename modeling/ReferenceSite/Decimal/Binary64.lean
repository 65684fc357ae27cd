/-!
# Double precision numbers

A finite IEEE 754 double as an exact value: sign, significand and power of two. Every operation computes
the exact result as a fraction of natural numbers and rounds once, to the nearest double and on a tie to
the even significand, so nothing here depends on a floating point unit.
-/

namespace ReferenceSite

/-- A finite double, `± significand * 2 ^ exponent`.

The values built in this module are normalised: zero has exponent zero, and any other significand has 53
bits unless the exponent is the least one, `-1074`. -/
structure Binary64 where
  /-- The sign; zero has one as well. -/
  negative : Bool
  /-- The significand, below `2 ^ 53`. -/
  significand : Nat
  /-- The power of two that scales the significand. -/
  exponent : Int
deriving DecidableEq, Repr, Inhabited

namespace Binary64

/-- Zero with a sign. -/
def zero (negative : Bool) : Binary64 := ⟨negative, 0, 0⟩

/-- The numerator of the absolute value. -/
def numerator (x : Binary64) : Nat := x.significand * Nat.pow 2 x.exponent.toNat

/-- The denominator of the absolute value. -/
def denominator (x : Binary64) : Nat := Nat.pow 2 (-x.exponent).toNat

/-- The power of two of the last place of the doubles around `num / den`. -/
def placeOf (num den : Nat) : Int :=
  let k : Int := (Nat.log2 num : Int) - Nat.log2 den
  let reaches := den * Nat.pow 2 k.toNat ≤ num * Nat.pow 2 (-k).toNat
  max (if reaches then k - 52 else k - 53) (-1074)

/-- `num / den` rounded to a natural number, to the even one on a tie. -/
def roundQuotient (num den : Nat) : Nat :=
  let q := num / den
  let r := num % den
  if den < 2 * r || (2 * r == den && q % 2 == 1) then q + 1 else q

/-- The double nearest to `± num / den`, or nothing if it is out of range. -/
def ofRatio? (negative : Bool) (num den : Nat) : Option Binary64 :=
  if num == 0 then some (zero negative)
  else
    let place := placeOf num den
    let q := roundQuotient (num * Nat.pow 2 (-place).toNat) (den * Nat.pow 2 place.toNat)
    let (q, place) := if q == Nat.pow 2 53 then (Nat.pow 2 52, place + 1) else (q, place)
    if q == 0 then some (zero negative)
    else if 971 < place then none
    else some ⟨negative, q, place⟩

/-- The double nearest to a natural number, or nothing if it is out of range. -/
def ofNat? (n : Nat) : Option Binary64 := ofRatio? false n 1

/-- The rounded product. -/
def mul? (x y : Binary64) : Option Binary64 :=
  ofRatio? (x.negative != y.negative) (x.numerator * y.numerator) (x.denominator * y.denominator)

/-- The rounded quotient; the divisor is not zero. -/
def div? (x y : Binary64) : Option Binary64 :=
  ofRatio? (x.negative != y.negative) (x.numerator * y.denominator) (x.denominator * y.numerator)

/-- The number with the opposite sign. -/
def neg (x : Binary64) : Binary64 := { x with negative := !x.negative }

/-- The double nearest to a power of ten, or nothing if it is out of range. -/
def powerOfTen? (n : Nat) : Option Binary64 := ofNat? (Nat.pow 10 n)

/-- Divide by `10 ^ n` in steps of at most `10 ^ 308`, rounding after each; `steps` bounds their number. -/
def divPowerOfTen? : (steps : Nat) → Binary64 → Nat → Option Binary64
  | 0, x, _ => some x
  | steps + 1, x, n =>
    if x.significand == 0 then some x
    else if n ≤ 308 then do x.div? (← powerOfTen? n)
    else do divPowerOfTen? steps (← x.div? (← powerOfTen? 308)) (n - 308)

/-- The number written by a significand and a power of ten: the significand is rounded first, and the
scaling by the rounded power of ten is rounded again. Nothing if it is out of range. -/
def ofDecimal? (significand : Nat) (exponent : Int) : Option Binary64 := do
  let x ← ofNat? significand
  if x.significand == 0 then return x
  match exponent with
  | .ofNat n => if 308 < n then none else x.mul? (← powerOfTen? n)
  | .negSucc n => divPowerOfTen? (n / 308 + 2) x (n + 1)

/-! ## The shortest decimal text -/

/-- The greatest power of ten not above `num / den`, searched downwards from `10 ^ start`. -/
def decadeFrom (num den : Nat) : (fuel : Nat) → Int → Int
  | 0, k => k
  | fuel + 1, k =>
    if den * Nat.pow 10 k.toNat ≤ num * Nat.pow 10 (-k).toNat then k
    else decadeFrom num den fuel (k - 1)

/-- The decimals with `count` digits that read back as `x`: the two neighbours of `x` among the multiples of
`10 ^ place`, the nearer one first and on a tie the even one first. -/
def neighbours (x : Binary64) (place : Int) : List Nat :=
  let num := x.numerator * Nat.pow 10 (-place).toNat
  let den := x.denominator * Nat.pow 10 place.toNat
  let q := num / den
  let r := num % den
  let nearerUp := den < 2 * r || (2 * r == den && q % 2 == 1)
  let candidates := if r == 0 then [q] else if nearerUp then [q + 1, q] else [q, q + 1]
  candidates.filter fun d => readsBack d
where
  /-- The multiple `d` lies in the interval of numbers that round to `x`. -/
  readsBack (d : Nat) : Bool :=
    -- everything in quarters of the last binary place
    let unit : Int := x.exponent - 2
    let value := d * Nat.pow 10 place.toNat * Nat.pow 2 (-unit).toNat
    let scale := Nat.pow 10 (-place).toNat * Nat.pow 2 unit.toNat
    let atPower := x.significand == Nat.pow 2 52 && x.exponent != -1074
    let low := (4 * x.significand - if atPower then 1 else 2) * scale
    let high := (4 * x.significand + 2) * scale
    if x.significand % 2 == 0 then low ≤ value && value ≤ high else low < value && value < high

/-- The first of the neighbours with `count`, `count + 1`, … digits that reads back, with its place. -/
def shortestFrom (x : Binary64) (decade : Int) : (fuel count : Nat) → Nat × Int
  | 0, _ => (x.significand, 0)
  | fuel + 1, count =>
    match x.neighbours (decade - count) with
    | d :: _ => (d, decade - count)
    | [] => shortestFrom x decade fuel (count + 1)

/-- Drop the zeros at the end of a decimal significand; `fuel` bounds their number. -/
def dropZeros : (fuel : Nat) → Nat × Int → Nat × Int
  | 0, d => d
  | fuel + 1, (d, place) => if d != 0 && d % 10 == 0 then dropZeros fuel (d / 10, place + 1) else (d, place)

/-- The decimal with the fewest digits that reads back as a number other than zero, and of those the
nearest: its digits as a natural number, and the power of ten of the last one. -/
def shortest (x : Binary64) : Nat × Int :=
  dropZeros 20 (shortestFrom x (decadeFrom x.numerator x.denominator 640 309) 17 0)

/-- The text of a double in a JSON document: the shortest decimal, positional while the point stands at
most sixteen digits after the first digit and at most five zeros follow it otherwise, and with an
exponent that carries its sign beyond that. -/
def toText (x : Binary64) : String :=
  let sign := if x.negative then "-" else ""
  if x.significand == 0 then sign ++ "0.0"
  else
    let (d, place) := x.shortest
    let digits := Nat.toDigits 10 d
    let point : Int := digits.length + place
    let body : List Char :=
      if 0 ≤ place && point ≤ 16 then digits ++ List.replicate place.toNat '0' ++ ['.', '0']
      else if 0 < point && point ≤ 16 then digits.take point.toNat ++ '.' :: digits.drop point.toNat
      else if -5 < point && point ≤ 0 then
        ['0', '.'] ++ List.replicate (-point).toNat '0' ++ digits
      else
        let e := point - 1
        let mantissa := match digits with
          | [] => []
          | [c] => [c]
          | c :: cs => c :: '.' :: cs
        mantissa ++ ['e', if e < 0 then '-' else '+'] ++ Nat.toDigits 10 e.natAbs
    sign ++ .ofList body

/-- The text with one digit after the point of a number that is not negative, an exact half going to the
even digit. -/
def toTenths (x : Binary64) : String :=
  let tenths := roundQuotient (x.numerator * 10) x.denominator
  toString (tenths / 10) ++ "." ++ toString (tenths % 10)

end Binary64

end ReferenceSite
