/-!
Binary floating-point numbers of 64 bits, kept as exact integers: a significand and a power of two.
`nearest` reads a decimal, `shortest` writes one.
-/

namespace IgnoreRules

/-- A finite number is `significand * 2 ^ exponent`, with a significand of at most 53 bits. -/
inductive Binary64 where
  | finite (negative : Bool) (significand : Nat) (exponent : Int)
  | infinite (negative : Bool)
  | notANumber
deriving DecidableEq, Repr

namespace Binary64

def bitLength (number : Nat) : Nat :=
  if number = 0 then 0 else number.log2 + 1

def roundHalfEven (numerator denominator : Nat) : Nat :=
  let quotient := numerator / denominator
  let twice := 2 * (numerator % denominator)
  if twice < denominator then quotient
  else if denominator < twice then quotient + 1
  else quotient + quotient % 2

def powerOf (base : Nat) (exponent : Int) : Nat :=
  Nat.pow base exponent.toNat

def leastFull : Nat := 0x10000000000000

def leastExponent : Int := -1074

def greatestExponent : Int := 971

def nearestRatio (negative : Bool) (numerator denominator : Nat) : Binary64 :=
  let guess := max leastExponent ((bitLength numerator : Int) - bitLength denominator - 53)
  let scaled (exponent : Int) : Nat × Nat :=
    (numerator * powerOf 2 (-exponent), denominator * powerOf 2 exponent)
  let exponent := if 2 * leastFull * (scaled guess).2 ≤ (scaled guess).1 then guess + 1 else guess
  let rounded := roundHalfEven (scaled exponent).1 (scaled exponent).2
  let (significand, exponent) :=
    if rounded = 2 * leastFull then (leastFull, exponent + 1) else (rounded, exponent)
  if greatestExponent < exponent then infinite negative
  else finite negative significand exponent

def nearest (negative : Bool) (digits : Nat) (scale : Int) : Binary64 :=
  let magnitude := (Nat.toDigits 10 digits).length + scale
  if digits = 0 ∨ magnitude < -400 then finite negative 0 0
  else if 400 < magnitude then infinite negative
  else nearestRatio negative (digits * powerOf 10 scale) (powerOf 10 (-scale))

/-- The numbers that round to a positive finite number lie between two bounds, given as multiples
of a quarter of its last binary place; the bounds belong to it when the significand is even. -/
def roundingBounds (significand : Nat) (exponent : Int) : Nat × Nat :=
  let below := if significand = leastFull ∧ leastExponent < exponent then 1 else 2
  (4 * significand - below, 4 * significand + 2)

def onGrid? (significand : Nat) (exponent scale : Int) : Option Nat :=
  let quarter := exponent - 2
  let grid := powerOf 10 scale * powerOf 2 (-quarter)
  let place := powerOf 10 (-scale) * powerOf 2 quarter
  let (low, high) := roundingBounds significand exponent
  let closed := significand % 2 == 0
  let value := 4 * significand * place
  let below := value / grid
  let belowIn := low * place < below * grid || (closed && low * place == below * grid)
  let above := below + 1
  let aboveIn := above * grid < high * place || (closed && above * grid == high * place)
  match belowIn, aboveIn with
  | true, true =>
      let toBelow := value - below * grid
      let toAbove := above * grid - value
      some <|
        if toBelow < toAbove then below
        else if toAbove < toBelow then above
        else below + below % 2
  | true, false => some below
  | false, true => some above
  | false, false => none

/-- The first of `count` grids, each ten times finer than the one before, that has a multiple
rounding to the number; the multiple and the scale of the grid. -/
def coarsest (significand : Nat) (exponent : Int) : (count : Nat) → (scale : Int) → Nat × Int
  | 0, scale => (0, scale)
  | count + 1, scale =>
      match onGrid? significand exponent scale with
      | some digits => (digits, scale)
      | none => coarsest significand exponent count (scale - 1)

/-- The decimal with the fewest digits that reads back as a positive finite number: its digits as
a whole number, and the power of ten they count.  The largest number lies below `10 ^ 309`, and
`10 ^ -341` resolves the smallest to seventeen digits. -/
def shortest (significand : Nat) (exponent : Int) : Nat × Int :=
  coarsest significand exponent 651 309

def positional (digits : List Char) (point : Int) : List Char :=
  if point ≤ 0 then '0' :: '.' :: List.replicate (-point).toNat '0' ++ digits
  else if digits.length ≤ point.toNat then
    digits ++ List.replicate (point.toNat - digits.length) '0' ++ ['.', '0']
  else digits.take point.toNat ++ '.' :: digits.drop point.toNat

def scientific (digits : List Char) (point : Int) : List Char :=
  let power := point - 1
  let powerDigits := Nat.toDigits 10 power.natAbs
  let padded := List.replicate (2 - powerDigits.length) '0' ++ powerDigits
  let fraction := if digits.tail = [] then [] else '.' :: digits.tail
  digits.take 1 ++ fraction ++ 'e' :: (if power < 0 then '-' else '+') :: padded

/-- The shortest text of a number.  The point is written out when it falls at most three zeros
before the digits and at most sixteen places after the first. -/
def text (infinity nan : String) : Binary64 → String
  | notANumber => nan
  | infinite negative => (if negative then "-" else "") ++ infinity
  | finite negative significand exponent =>
      let unsigned :=
        if significand = 0 then ['0', '.', '0']
        else
          let (number, scale) := shortest significand exponent
          let digits := Nat.toDigits 10 number
          let point := digits.length + scale
          if -4 < point ∧ point ≤ 16 then positional digits point else scientific digits point
      (if negative then "-" else "") ++ String.ofList unsigned

end Binary64

end IgnoreRules
