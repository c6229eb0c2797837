import ReactiveView.Decimal.Binary64

/-! # Reading numbers from texts

  The numerals that a text may hold when it is used as a number, and the plain
  numerals that name a position in a list.

      number   := sign? ( "inf" | "infinity" | "nan" | decimal exponent? )
      decimal  := digits "."? | digits "." digits | "." digits
      exponent := ("e" | "E") sign? digits

  The three words are read in any case. A decimal is rounded to the nearest
  float.
-/

namespace ReactiveView.Decimal

/-! ## §1. Digits -/

/-- The value of a digit. -/
def digitValue (c : Char) : Nat := c.toNat - '0'.toNat

/-- The number that a run of digits continues `n` to. -/
def appendDigits (n : Nat) (ds : List Char) : Nat :=
  ds.foldl (fun n c => 10 * n + digitValue c) n

/-- The number that a run of digits writes. -/
def ofDigits (ds : List Char) : Nat := appendDigits 0 ds

/-- Splits a sign off. -/
def splitSign : List Char → Bool × List Char
  | '-' :: s => (true, s)
  | '+' :: s => (false, s)
  | s => (false, s)

/-! ## §2. Floats -/

/-- The exponent after the mantissa: zero if nothing follows. -/
def exponent? : List Char → Option Int
  | [] => some 0
  | c :: s =>
    if c = 'e' || c = 'E' then
      let (negative, ds) := splitSign s
      if ds = [] || !ds.all Char.isDigit then none
      else some (if negative then -(ofDigits ds : Int) else ofDigits ds)
    else none

/-- A decimal without sign, rounded to the nearest float. -/
def unsigned? (s : List Char) : Option Float :=
  let whole := s.takeWhile Char.isDigit
  let afterWhole := s.dropWhile Char.isDigit
  let (fraction, rest) :=
    match afterWhole with
    | '.' :: r => (r.takeWhile Char.isDigit, r.dropWhile Char.isDigit)
    | r => ([], r)
  if whole = [] && fraction = [] then none
  else (exponent? rest).map fun e => nearest (ofDigits (whole ++ fraction)) (e - fraction.length)

/-- The float that a text writes. -/
def float? (text : List Char) : Option Float :=
  let (negative, s) := splitSign text
  let magnitude :=
    match String.ofList (s.map Char.toLower) with
    | "inf" | "infinity" => some (Binary64.toFloat (.infinite false))
    | "nan" => some (Binary64.toFloat .nan)
    | _ => unsigned? s
  magnitude.map fun f => if negative then -f else f

/-! ## §3. Positions -/

/-- The position that a text writes: digits, possibly after a plus sign, and below `2 ^ 64`. -/
def position? (text : List Char) : Option Nat :=
  let ds := match text with
    | '+' :: r => r
    | r => r
  if ds = [] || !ds.all Char.isDigit then none
  else
    let n := ofDigits ds
    if n < Nat.pow 2 64 then some n else none

end ReactiveView.Decimal
