import Mathlib.Algebra.Group.Nat.Defs
import MediaDownloader.Domain.Json
import MediaDownloader.Domain.Text

/-!
# Python numbers

`int` is exact, `float` is the nearest double, ties to even.  `none` is an
`OverflowError`: an `int` too large for a `float`.
-/

namespace MediaDownloader

def pow2 (e : Int) : Rat := if 0 ≤ e then 2 ^ e.toNat else 1 / 2 ^ (-e).toNat

/-- To the nearest integer, ties to even. -/
def roundHalfEven (q : Rat) : Int :=
  let r := q - q.floor
  if r < 1 / 2 then q.floor
  else if r = 1 / 2 then (if q.floor % 2 = 0 then q.floor else q.floor + 1)
  else q.floor + 1

/-- The exponent `e` with `2 ^ e ≤ a < 2 ^ (e + 1)`, for a positive `a`. -/
def binade (a : Rat) : Int :=
  let e : Int := (Nat.log2 a.num.toNat : Int) - Nat.log2 a.den
  if a < pow2 e then e - 1 else e

namespace PyFloat

/-- The double nearest to `q`. -/
def ofRat (q : Rat) : PyFloat :=
  if q = 0 then .finite 0
  else
    let e := max (binade q.abs - 52) (-1074)
    let r := (roundHalfEven (q / pow2 e) : Rat) * pow2 e
    if r.abs < pow2 1024 then .finite r else if 0 < q then .posInf else .negInf

def neg : PyFloat → PyFloat
  | .finite q => .finite (-q)
  | .posInf => .negInf
  | .negInf => .posInf
  | .nan => .nan

def add : PyFloat → PyFloat → PyFloat
  | .finite a, .finite b => ofRat (a + b)
  | .nan, _ => .nan
  | _, .nan => .nan
  | .posInf, .negInf => .nan
  | .negInf, .posInf => .nan
  | .finite _, y => y
  | x, _ => x

def sub (x y : PyFloat) : PyFloat := x.add y.neg

/-- `x < bound`. -/
def lt (x : PyFloat) (bound : Rat) : Bool :=
  match x with
  | .finite q => q < bound
  | .posInf => false
  | .negInf => true
  | .nan => false

/-- `x / n` for a positive `n`. -/
def scaleDown (x : PyFloat) (n : Nat) : PyFloat :=
  match x with
  | .finite q => ofRat (q / n)
  | x => x

/-- `divmod(x, n)` for a positive `n`. -/
def divmod (x : PyFloat) (n : Nat) : PyFloat × PyFloat :=
  match x with
  | .finite q => (ofRat (q / n).floor, ofRat (q - n * (q / n).floor))
  | _ => (.nan, .nan)

end PyFloat

/-- An `int` (a `bool` is one) or a `float`. -/
inductive PyNumber where
  | int (n : Int)
  | float (x : PyFloat)
  deriving DecidableEq

namespace PyNumber

/-- A finite float, as an `int` must become one. -/
def finite? : PyFloat → Option PyFloat
  | .finite q => some (.finite q)
  | _ => none

/-- `float(x)`. -/
def toFloat : PyNumber → Option PyFloat
  | .int n => finite? (PyFloat.ofRat n)
  | .float x => some x

/-- `x - y`. -/
def sub : PyNumber → PyNumber → Option PyNumber
  | .int m, .int n => some (.int (m - n))
  | x, y => do some (.float (PyFloat.sub (← x.toFloat) (← y.toFloat)))

/-- `abs(x) < bound`. -/
def absLt (x : PyNumber) (bound : Rat) : Bool :=
  match x with
  | .int n => (n.natAbs : Rat) < bound
  | .float (.finite q) => q.abs < bound
  | .float _ => false

/-- `x / n` for a positive `n`. -/
def scaleDown (x : PyNumber) (n : Nat) : Option PyFloat :=
  match x with
  | .int m => finite? (PyFloat.ofRat (m / n))
  | .float x => some (x.scaleDown n)

def isNegative : PyNumber → Bool
  | .int n => n < 0
  | .float x => x.lt 0

/-- `divmod(x, n)` for a positive `n`: of a float both are floats. -/
def divmod (x : PyNumber) (n : Nat) : PyNumber × PyNumber :=
  match x with
  | .int m => (.int (m / n), .int (m % n))
  | .float x => (.float (x.divmod n).1, .float (x.divmod n).2)

end PyNumber

/-- `sys.int_info.default_max_str_digits`. -/
def maxStrDigits : Nat := 4300

/-- `str(n)`, which refuses more digits than that. -/
def intText (n : Int) : Except Exc Str :=
  if 10 ^ maxStrDigits ≤ n.natAbs then .error Exc.valueError else .ok (intStr n)

/-- `f"{x:.1f}"`; the sign is passed, as a rounded zero keeps it. -/
def fixed1 (negative : Bool) : PyFloat → Str
  | .finite q =>
    let tenths := roundHalfEven (q.abs * 10)
    (if negative then str "-" else []) ++ intStr (tenths / 10) ++ str "." ++ intStr (tenths % 10)
  | .posInf => str "inf"
  | .negInf => str "-inf"
  | .nan => str "nan"

/-- `round(x, 1)`. -/
def round1 : PyFloat → PyFloat
  | .finite q => .ofRat (roundHalfEven (q * 10) / 10)
  | x => x

end MediaDownloader
