/-!
# Double-precision numbers as integers

A finite double is a sign and a value `mantissa · 2 ^ exponent` with a mantissa below `2 ^ 53` and
an exponent from `-1074` to `971`. `ofRatio?` finds the double nearest to a quotient of naturals,
ties to the even mantissa, and answers `none` above the largest double. Products and quotients of
doubles are rounded from the exact product or quotient, so no step loses anything unseen.
-/

namespace UmlSkeleton.Decimal

/-- The size of a finite double: `mantissa · 2 ^ exponent`. -/
structure Magnitude where
  mantissa : Nat
  exponent : Int
  deriving DecidableEq, Repr

/-- A finite double. Zero has a sign too. -/
structure Binary64 where
  negative : Bool
  magnitude : Magnitude
  deriving DecidableEq, Repr

namespace Magnitude

/-- The least exponent. -/
def minExponent : Int := -1074

/-- The greatest exponent. -/
def maxExponent : Int := 971

/-- The least mantissa of 53 bits, `2 ^ 52`. -/
def leadingBit : Nat := 1 <<< 52

def zero : Magnitude := ⟨0, minExponent⟩

def isZero (x : Magnitude) : Bool := x.mantissa == 0

/-! ### Rounding -/

/-- The quotient rounded to the nearest natural, ties to the even one. -/
def divHalfEven (num den : Nat) : Nat :=
  let quotient := num / den
  let twice := 2 * (num % den)
  if twice < den then quotient
  else if den < twice then quotient + 1
  else quotient + quotient % 2

/-- The fraction `num / den / 2 ^ e`, as numerator and denominator. -/
def scaleDown (num den : Nat) (e : Int) : Nat × Nat :=
  if 0 ≤ e then (num, den <<< e.toNat) else (num <<< (-e).toNat, den)

/-- The exponent at which the fraction has a mantissa of 53 bits, or the least exponent. -/
def fitExponent (num den : Nat) : Int :=
  let guess := max ((num.log2 : Int) - den.log2 - 53) minExponent
  let (n, d) := scaleDown num den guess
  if 2 * leadingBit ≤ n / d then guess + 1 else guess

/-- The double nearest to `num / den`, ties to the even mantissa; `none` if it is too large. -/
def ofRatio? (num den : Nat) : Option Magnitude :=
  if num = 0 then some zero
  else
    let e := fitExponent num den
    let (n, d) := scaleDown num den e
    let m := divHalfEven n d
    let rounded : Magnitude := if m = 2 * leadingBit then ⟨leadingBit, e + 1⟩ else ⟨m, e⟩
    if maxExponent < rounded.exponent then none else some rounded

/-- The double nearest to a natural. -/
def ofNat? (n : Nat) : Option Magnitude := ofRatio? n 1

/-! ### Arithmetic -/

/-- The double nearest to `num / den · 2 ^ e`. -/
def ofScaled? (num den : Nat) (e : Int) : Option Magnitude :=
  if 0 ≤ e then ofRatio? (num <<< e.toNat) den else ofRatio? num (den <<< (-e).toNat)

/-- The product, rounded. -/
def mul? (x y : Magnitude) : Option Magnitude :=
  ofScaled? (x.mantissa * y.mantissa) 1 (x.exponent + y.exponent)

/-- The quotient, rounded, for a divisor that is not zero. -/
def div? (x y : Magnitude) : Option Magnitude :=
  ofScaled? x.mantissa y.mantissa (x.exponent - y.exponent)

/-! ### Powers of ten

A decimal significand and a power of ten are rounded to doubles each for itself and then
multiplied or divided. Below `10 ^ -308`, where the power itself is no longer at hand, the
significand is divided by `10 ^ 308` first, once or several times, until nothing is left of it. -/

/-- The greatest power of ten that is looked up in one step. -/
def maxPower : Nat := 308

/-- `10 ^ n`, rounded. -/
def pow10? (n : Nat) : Option Magnitude := ofNat? (Nat.pow 10 n)

/-- The double `x / 10 ^ n`, dividing by at most `10 ^ 308` at a time. -/
def divPow10? (x : Magnitude) (n : Nat) : Option Magnitude :=
  if x.isZero then some x
  else if n ≤ maxPower then do div? x (← pow10? n)
  else do
    let y ← div? x (← pow10? maxPower)
    divPow10? y (n - maxPower)
termination_by n
decreasing_by simp only [maxPower] at *; omega

/-- The double read for `significand · 10 ^ e`; `none` if it is too large. -/
def ofDecimal? (significand : Nat) (e : Int) : Option Magnitude := do
  let x ← ofNat? significand
  if e < 0 then divPow10? x (-e).toNat
  else if x.isZero then some x
  else if e.toNat ≤ maxPower then mul? x (← pow10? e.toNat)
  else none

/-! ### Examples at the edges -/

example : ofRatio? 1 3 = some ⟨6004799503160661, -54⟩ := by decide +kernel
example : ofNat? (2 ^ 53 + 1) = some ⟨2 ^ 52, 1⟩ := by decide +kernel
example : ofDecimal? 1 400 = none := by decide +kernel
example : ofDecimal? 5 (-324) = some ⟨1, -1074⟩ := by decide +kernel
example : ofDecimal? 0 400 = some zero := by decide +kernel

end Magnitude

end UmlSkeleton.Decimal
