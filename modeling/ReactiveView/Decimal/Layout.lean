import ReactiveView.Decimal.Shortest

/-! # Written numbers

  Two texts of a float, both with its shortest digits. The text of a value keeps
  a fraction in positional form (`3.0`) and turns to an exponent for very large
  and very small numbers. The plain text is always positional and has no
  fraction for whole numbers.
-/

namespace ReactiveView.Decimal

/-! ## §1. Digits and point -/

/-- A run of zeros. -/
def zeros (n : Nat) : List Char := List.replicate n '0'

/-- Removes the zeros at the end. -/
def dropTrailingZeros (ds : List Char) : List Char := (ds.reverse.dropWhile (· == '0')).reverse

/-- The digits without trailing zeros, and the exponent `e` of `d.ddd · 10 ^ e`. -/
def digitsAndExponent (tie : TieRule) (m : Nat) (q : Int) : List Char × Int :=
  let (d, g) := shortest tie m q
  let ds := Nat.toDigits 10 d
  -- The first digit stands for `10 ^ (g + length - 1)`.
  (dropTrailingZeros ds, g + ds.length - 1)

/-- Positional form of `d.ddd · 10 ^ e`; `whole` follows the digits of a whole number. -/
def positional (whole : List Char) (ds : List Char) (e : Int) : List Char :=
  if e < 0 then ['0', '.'] ++ zeros ((-e).toNat - 1) ++ ds
  else
    let places := e.toNat + 1
    if ds.length ≤ places then ds ++ zeros (places - ds.length) ++ whole
    else ds.take places ++ '.' :: ds.drop places

/-- Scientific form of `d.ddd · 10 ^ e`, the exponent always with its sign. -/
def scientific (ds : List Char) (e : Int) : List Char :=
  let fraction := if ds.length ≤ 1 then [] else '.' :: ds.drop 1
  ds.take 1 ++ fraction ++ 'e' :: (if e < 0 then '-' else '+') :: Nat.toDigits 10 e.natAbs

/-! ## §2. The two texts -/

/-- A minus sign for a negative number. -/
def sign (negative : Bool) : List Char := if negative then ['-'] else []

/-- The text of a float as a value: positional with a fraction when the leading digit stands
    between `10 ^ (-5)` and `10 ^ 15`, otherwise with an exponent. Ties between digits go to
    even. -/
def valueText (f : Float) : List Char :=
  match Binary64.ofFloat f with
  | .nan => ['n', 'u', 'l', 'l']
  | .infinite _ => ['n', 'u', 'l', 'l']
  | .finite negative m q =>
    sign negative ++
      if m = 0 then ['0', '.', '0']
      else
        let (ds, e) := digitsAndExponent .toEven m q
        if -5 ≤ e ∧ e < 16 then positional ['.', '0'] ds e else scientific ds e

/-- The plain text of a float: positional, however long, and without a fraction when whole. Ties
    between digits go up. -/
def plainText (f : Float) : List Char :=
  match Binary64.ofFloat f with
  | .nan => ['N', 'a', 'N']
  | .infinite negative => sign negative ++ ['i', 'n', 'f']
  | .finite negative m q =>
    sign negative ++
      if m = 0 then ['0']
      else
        let (ds, e) := digitsAndExponent .up m q
        positional [] ds e

end ReactiveView.Decimal
