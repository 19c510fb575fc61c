import AccessContext.Text.Decimal

/-!
# Double-precision numbers

A document may hold a number with a fraction, an exponent or too many digits where an integer is
wanted. The refusal names the number, so it is rounded to 53 bits and then written with the
fewest digits that still round to it. All of it is exact arithmetic on naturals.
-/

namespace AccessContext

/-- The number `mantissa * 2 ^ exponent`, with a mantissa below `2 ^ 53`. -/
structure Binary64 where
  mantissa : Nat
  exponent : Int
deriving DecidableEq

namespace Binary64

/-- Exponent of the smallest positive number. -/
def minExponent : Int := -1074

/-- Exponent beyond which a full mantissa is out of range. -/
def maxExponent : Int := 971

def zero : Binary64 :=
  ⟨0, minExponent⟩

/-- Two to the 52: the least full mantissa, half the bound of all. -/
def fullMantissa : Nat := 4503599627370496

/-- The value as a quotient of two naturals. -/
def ratio (v : Binary64) : Nat × Nat :=
  (v.mantissa * Nat.pow 2 v.exponent.toNat, Nat.pow 2 (-v.exponent).toNat)

/-- The quotient rounded to the nearest natural, a half to the even one. -/
def roundDiv (num den : Nat) : Nat :=
  let q := num / den
  let r := num % den
  if den < 2 * r ∨ (2 * r = den ∧ q % 2 = 1) then q + 1 else q

/-- `num / den` divided by `2 ^ e`, as a quotient again. -/
def scale (num den : Nat) (e : Int) : Nat × Nat :=
  (num * Nat.pow 2 (-e).toNat, den * Nat.pow 2 e.toNat)

/-- The nearest double to `num / den`; nothing if that is out of range. -/
def ofRatio (num den : Nat) : Option Binary64 :=
  if num = 0 then some zero
  else
    let guess : Int := num.log2 - den.log2 - 52
    let (n, d) := scale num den guess
    let e := max minExponent (if n / d < fullMantissa then guess - 1 else guess)
    let (n, d) := scale num den e
    let m := roundDiv n d
    let v : Binary64 := if m = 2 * fullMantissa then ⟨fullMantissa, e + 1⟩ else ⟨m, e⟩
    if maxExponent < v.exponent then none else some v

def ofNat (n : Nat) : Option Binary64 :=
  ofRatio n 1

def mul (v w : Binary64) : Option Binary64 :=
  ofRatio (v.ratio.1 * w.ratio.1) (v.ratio.2 * w.ratio.2)

def div (v w : Binary64) : Option Binary64 :=
  ofRatio (v.ratio.1 * w.ratio.2) (v.ratio.2 * w.ratio.1)

/-- Largest power of ten that is a double. -/
def maxPower : Nat := 308

/-- `v * 10 ^ e`, rounded once for the power and once for the product. Below the smallest power
the division is done in steps, of which `fuel` bounds the number. -/
def timesPower : Nat → Binary64 → Int → Option Binary64
  | fuel, v, e =>
    if e.natAbs ≤ maxPower then
      (ofNat (Nat.pow 10 e.natAbs)).bind fun p => if 0 ≤ e then v.mul p else v.div p
    else if v.mantissa = 0 then some v
    else if 0 ≤ e then none
    else
      match fuel with
      | 0 => some zero
      | fuel + 1 =>
        ((ofNat (Nat.pow 10 maxPower)).bind v.div).bind fun v => timesPower fuel v (e + maxPower)

/-- The double for `significand * 10 ^ e`. Three divisions by the largest power turn any
significand of 64 bits into zero. -/
def ofDecimal (significand : Nat) (e : Int) : Option Binary64 :=
  (ofNat significand).bind fun v => timesPower 4 v e

/-- Whether `num / den` rounds to `v`. The interval reaches half-way to both neighbours, of which
the lower one is nearer at a power of two, and includes its ends if the mantissa is even. -/
def rounds (v : Binary64) (num den : Nat) : Bool :=
  let half := v.mantissa * 4
  let below := if v.mantissa = fullMantissa ∧ minExponent < v.exponent then 1 else 2
  let (n, d) := scale num den (v.exponent - 2)
  let low := (half - below) * d
  let high := (half + 2) * d
  if v.mantissa % 2 = 0 then low ≤ n && n ≤ high else low < n && n < high

/-- The decimal exponent of the first digit of a positive number. -/
def firstPlace (v : Binary64) : Int :=
  let (n, d) := v.ratio
  (Decimal.digits (n * Nat.pow 10 400 / d)).length - 401

/-- The better of the two neighbours of `v` among the multiples of `10 ^ place`, if one of them
rounds to `v`. -/
def onGrid? (v : Binary64) (place : Int) : Option Nat :=
  let (n, d) := v.ratio
  let (n, d) := (n * Nat.pow 10 (-place).toNat, d * Nat.pow 10 place.toNat)
  let fits (k : Nat) : Bool := 
    v.rounds (k * Nat.pow 10 place.toNat) (Nat.pow 10 (-place).toNat)
  let near := roundDiv n d
  let other := if n / d = near then near + 1 else near - 1
  if fits near then some near else if fits other then some other else none

/-- Digits and place of the shortest decimal that rounds to a positive `v`; `count` digits are
tried first. -/
def shortest (v : Binary64) : Nat → Nat → Nat × Int
  | 0, _ => (0, 0)
  | fuel + 1, count =>
    let place := v.firstPlace - count + 1
    match v.onGrid? place with
    | some k => (k, place)
    | none => shortest v fuel (count + 1)

/-- Moves zeros at the end of the digits into the place. -/
def dropZeros (digits : List Char) (place : Int) : List Char × Int :=
  let kept := (digits.reverse.dropWhile (· == '0')).reverse
  (kept, place + (digits.length - kept.length))

/-- Digits with a point: positional when the point falls between five places before and sixteen
places after the first digit, with an exponent otherwise. -/
def layout (digits : List Char) (place : Int) : List Char :=
  let count := digits.length
  let point : Int := count + place
  if 0 ≤ place ∧ point ≤ 16 then digits ++ List.replicate place.toNat '0' ++ ['.', '0']
  else if 0 < point ∧ point ≤ 16 then
    digits.take point.toNat ++ '.' :: digits.drop point.toNat
  else if -5 < point ∧ point ≤ 0 then
    '0' :: '.' :: (List.replicate (-point).toNat '0' ++ digits)
  else
    let lead := if count = 1 then digits else digits.take 1 ++ '.' :: digits.drop 1
    let sign := if 0 < point then ['e', '+'] else ['e', '-']
    lead ++ sign ++ Decimal.digits (point - 1).natAbs

/-- The shortest text that reads back as the number. -/
def text (v : Binary64) : List Char :=
  if v.mantissa = 0 then ['0', '.', '0']
  else
    let (k, place) := v.shortest 17 1
    let (digits, place) := dropZeros (Decimal.digits k) place
    layout digits place

end Binary64

end AccessContext
