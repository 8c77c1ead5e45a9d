import UmlSkeleton.Decimal.Binary64

/-!
# The shortest decimal that reads back

Every double is the nearest one to all the reals of an interval around it. `shortest` finds the
coarsest power of ten with a multiple in that interval and, of the two multiples next to the
double, the nearer one. `Style` says how its digits become text.
-/

namespace UmlSkeleton.Decimal

/-- The number `digits · 10 ^ exponent`. -/
structure Digits where
  digits : Nat
  exponent : Int
  deriving DecidableEq, Repr

namespace Magnitude

/-! ### The interval that rounds to a double

Bounds are counted in quarters of the last place, `2 ^ (exponent - 2)`: the double itself is four
times its mantissa, and a neighbour's half way is two away, or one away below a power of two. -/

/-- The lower end, in quarters. -/
def lowerEnd (x : Magnitude) : Nat :=
  if x.mantissa = leadingBit ∧ minExponent < x.exponent then 4 * x.mantissa - 1
  else 4 * x.mantissa - 2

/-- The upper end, in quarters. -/
def upperEnd (x : Magnitude) : Nat := 4 * x.mantissa + 2

/-- A quarter of the last place as a multiple of `10 ^ e`: numerator and denominator. -/
def quarterOn (x : Magnitude) (e : Int) : Nat × Nat :=
  let (n, d) := if 2 ≤ x.exponent then (1 <<< (x.exponent - 2).toNat, 1)
    else (1, 1 <<< (2 - x.exponent).toNat)
  if 0 ≤ e then (n, d * Nat.pow 10 e.toNat) else (n * Nat.pow 10 (-e).toNat, d)

/-- Whether `k · 10 ^ e` rounds to the double. The ends do exactly when the mantissa is even. -/
def accepts (x : Magnitude) (e : Int) (k : Nat) : Bool :=
  let (n, d) := x.quarterOn e
  let point := k * d
  if x.mantissa % 2 = 0 then x.lowerEnd * n ≤ point && point ≤ x.upperEnd * n
  else x.lowerEnd * n < point && point < x.upperEnd * n

/-! ### The search -/

/-- The multiple of `10 ^ e` to show: of the two next to the double those that round to it, and of
both the nearer, or the even one when both are equally near. -/
def onGrid? (x : Magnitude) (e : Int) : Option Nat :=
  let (n, d) := x.quarterOn e
  let below := 4 * x.mantissa * n / d
  let twice := 2 * (4 * x.mantissa * n % d)
  match x.accepts e below, x.accepts e (below + 1) with
  | true, true =>
    if twice < d then some below
    else if d < twice then some (below + 1)
    else some (below + below % 2)
  | true, false => some below
  | false, true => some (below + 1)
  | false, false => none

/-- The first grid with a hit among `10 ^ e`, `10 ^ (e - 1)`, …, as many as `count`. -/
def search (x : Magnitude) (e : Int) : (count : Nat) → Option Digits
  | 0 => none
  | count + 1 =>
    match x.onGrid? e with
    | some k => some ⟨k, e⟩
    | none => search x (e - 1) count

/-- A power of ten above the double: `30103 / 100000` is close to the decimal logarithm of two. -/
def startExponent (x : Magnitude) : Int :=
  (x.exponent + x.mantissa.log2 + 1) * 30103 / 100000 + 2

/-- The fewest digits that read back, the nearest of those. Forty powers of ten are more than
enough: seventeen digits always do, and the start is at most a few powers too high. -/
def shortest (x : Magnitude) : Digits :=
  if x.isZero then ⟨0, 0⟩ else (x.search x.startExponent 40).getD ⟨0, 0⟩

end Magnitude

/-! ### Text -/

/-- How a number is written. Numbers whose first digit has a power of ten from `firstFixed` to
`lastFixed` are written with a point only, with `.0` when they are whole; all others have one
digit before the point and a power of ten with a sign. -/
structure Style where
  firstFixed : Int
  lastFixed : Int

namespace Style

/-- Digits with a point after the first `whole` of them, which may be none or more than there
are. -/
def fixed (ds : List Char) (whole : Int) : List Char :=
  if whole ≤ 0 then ['0', '.'] ++ List.replicate (-whole).toNat '0' ++ ds
  else if ds.length ≤ whole then
    ds ++ List.replicate (whole.toNat - ds.length) '0' ++ ['.', '0']
  else ds.take whole.toNat ++ '.' :: ds.drop whole.toNat

/-- One digit, the others after a point, and the power of ten. -/
def scientific (ds : List Char) (power : Int) : List Char :=
  let digits := match ds with
    | [] => []
    | [d] => [d]
    | d :: more => d :: '.' :: more
  let sign := if power < 0 then '-' else '+'
  digits ++ 'e' :: sign :: Nat.toDigits 10 power.natAbs

/-- The text of a number that is not negative. -/
def text (style : Style) (x : Digits) : List Char :=
  if x.digits = 0 then ['0', '.', '0']
  else
    let ds := Nat.toDigits 10 x.digits
    let power := x.exponent + ds.length - 1
    if style.firstFixed ≤ power ∧ power ≤ style.lastFixed then fixed ds (power + 1)
    else scientific ds power

end Style

/-- The text of a double: the fewest digits that read back, with a minus also before a negative
zero. -/
def Binary64.text (style : Style) (x : Binary64) : String :=
  String.ofList ((if x.negative then ['-'] else []) ++ style.text x.magnitude.shortest)

/-! ### Examples at the edges -/

example : Magnitude.shortest ⟨1, -1074⟩ = ⟨5, -324⟩ := by decide +kernel
example : Magnitude.shortest ⟨2 ^ 52, -1074⟩ = ⟨22250738585072014, -324⟩ := by decide +kernel
example : Magnitude.shortest ⟨2 ^ 53 - 1, 971⟩ = ⟨17976931348623157, 292⟩ := by decide +kernel
example : Magnitude.shortest ⟨2 ^ 52, 12⟩ = ⟨18446744073709552, 3⟩ := by decide +kernel

example : Style.text ⟨-5, 15⟩ ⟨25, -8⟩ = ['2', '.', '5', 'e', '-', '7'] := by decide
example : Style.text ⟨-5, 15⟩ ⟨1, -5⟩ = ['0', '.', '0', '0', '0', '0', '1'] := by decide
example : Style.text ⟨-5, 15⟩ ⟨1, 16⟩ = ['1', 'e', '+', '1', '6'] := by decide

end UmlSkeleton.Decimal
