import ReactiveView.Decimal.Binary64

/-! # The fewest digits that read back

  Every finite float is the nearest float to all reals of an interval around it.
  Its shortest decimal is a decimal of that interval with as few digits as
  possible, and among those the one nearest to the float. The digits are found
  by trying 1, 2, … 17 of them: on the grid of decimals with that many digits
  only the two neighbours of the float need to be looked at, since the interval
  contains the float.
-/

namespace ReactiveView.Decimal

/-! ## §1. Size of a decimal -/

/-- The number of decimal digits of a positive number. -/
def digitCount (n : Nat) : Nat := (Nat.toDigits 10 n).length

/-- The exponent `e` with `10 ^ e ≤ m · 2 ^ q < 10 ^ (e + 1)`, for a positive float. All positive
    floats exceed `10 ^ (-340)`, so scaling by `10 ^ 340` leaves a positive whole part. -/
def leadingExponent (m : Nat) (q : Int) : Int :=
  (digitCount (m * Nat.pow 2 q.toNat * Nat.pow 10 340 / Nat.pow 2 (-q).toNat) : Int) - 341

/-! ## §2. The grid of decimals with a given step -/

/-- Which of two equally near decimals of the same length is taken. -/
inductive TieRule where
  /-- The one with the even last digit. -/
  | toEven
  /-- The larger one. -/
  | up
deriving DecidableEq

/-- The digits of the decimal `d · 10 ^ g` nearest to `m · 2 ^ q` for a fixed `g`, if the decimal
    reads back as that float. -/
def onGrid? (tie : TieRule) (m : Nat) (q : Int) (g : Int) : Option Nat :=
  -- The float is `m * unit / den`, counted in steps of the grid.
  let unit := Nat.pow 2 q.toNat * Nat.pow 10 (-g).toNat
  let den := Nat.pow 2 (-q).toNat * Nat.pow 10 g.toNat
  let below := m * unit / den
  let above := below + 1
  -- The float below is only half as far away at a power of two.
  let reach := if m = Nat.pow 2 52 && decide (-1074 < q) then 1 else 2
  -- Both ends of the interval read back exactly if the significand is even.
  let readsBack (d : Nat) : Bool :=
    let x := 4 * d * den
    let lo := (4 * m - reach) * unit
    let hi := (4 * m + 2) * unit
    if m % 2 = 0 then decide (lo ≤ x) && decide (x ≤ hi) else decide (lo < x) && decide (x < hi)
  let toBelow := m * unit - below * den
  let toAbove := above * den - m * unit
  match readsBack below && decide (0 < below), readsBack above with
  | true, true =>
    if toBelow < toAbove then some below
    else if toAbove < toBelow then some above
    else match tie with
      | .toEven => if below % 2 = 0 then some below else some above
      | .up => some above
  | true, false => some below
  | false, true => some above
  | false, false => none

/-! ## §3. The shortest decimal -/

/-- Digits `d` and exponent `g` of the shortest decimal `d · 10 ^ g` of a positive float
    `m · 2 ^ q`. Seventeen digits always suffice. -/
def shortest (tie : TieRule) (m : Nat) (q : Int) : Nat × Int :=
  let e := leadingExponent m q
  let attempt (n : Nat) : Option (Nat × Int) :=
    -- With this step the float has `n` digits before the point.
    let g := e + 1 - n
    (onGrid? tie m q g).map fun d => (d, g)
  ((List.range 17).findSome? fun i => attempt (i + 1)).getD (m, 0)

end ReactiveView.Decimal
