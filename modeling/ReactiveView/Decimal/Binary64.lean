/-! # Floats as integers times powers of two

  A finite float is `m · 2 ^ q` with a sign. Over this form wholeness, truncation
  and the remainder are exact integer arithmetic.

  - `Binary64.ofFloat` reads a float in this form.
  - `Binary64.toFloat` is the nearest float, ties to even.
  - `nearest` is the float nearest to a decimal.
-/

namespace ReactiveView.Decimal

/-! ## §1. The form -/

/-- A float taken apart. -/
inductive Binary64 where
  /-- Not a number. -/
  | nan
  /-- An infinity. -/
  | infinite (negative : Bool)
  /-- The number `m · 2 ^ q`, negated if `negative`; zero keeps its sign. -/
  | finite (negative : Bool) (m : Nat) (q : Int)
deriving DecidableEq

namespace Binary64

open Float.Model

/-- Whether a sign of the float model is the minus sign. -/
def isMinus : UnpackedFloat.Sign → Bool
  | .negative => true
  | .positive => false

/-- A float taken apart. -/
def ofFloat (f : Float) : Binary64 :=
  match f.toModel.unpack with
  | .notANumber => .nan
  | .infinity s => .infinite (isMinus s)
  | .zero s => .finite (isMinus s) 0 0
  | .finite s m q _ => .finite (isMinus s) m q

/-- The sign as the float model has it. -/
def signOf (negative : Bool) : UnpackedFloat.Sign := if negative then .negative else .positive

/-- The float nearest to the number, ties to even. -/
def toFloat : Binary64 → Float
  | .nan => .ofModel (pack .notANumber)
  | .infinite n => .ofModel (pack (.infinity (signOf n)))
  | .finite n m q =>
    if m = 0 then .ofModel (pack (.zero (signOf n)))
    else .ofModel (pack (UnpackedFloat.round Format.binary64 (signOf n) m q))

/-! ## §2. Whole part and remainder -/

/-- Whether the number has no fractional part. -/
def isWhole : Binary64 → Bool
  | .finite _ m q => decide (0 ≤ q) || m % Nat.pow 2 q.natAbs == 0
  | _ => false

/-- The magnitude of the number, its fraction dropped; zero for what is not finite. -/
def wholeMagnitude : Binary64 → Nat
  | .finite _ m q => if 0 ≤ q then m * Nat.pow 2 q.natAbs else m / Nat.pow 2 q.natAbs
  | _ => 0

/-- The number with its fraction dropped; zero for what is not finite. -/
def truncate (b : Binary64) : Int :=
  match b with
  | .finite true _ _ => -b.wholeMagnitude
  | _ => b.wholeMagnitude

/-- The remainder of a division whose quotient is rounded toward zero. It has the sign of the
    dividend. -/
def remainder : Binary64 → Binary64 → Binary64
  | .finite n m q, .finite _ m' q' =>
    if m' = 0 then .nan
    else
      let e := min q q'
      .finite n (m * Nat.pow 2 (q - e).toNat % (m' * Nat.pow 2 (q' - e).toNat)) e
  | .finite n m q, .infinite _ => .finite n m q
  | _, _ => .nan

end Binary64

/-- The remainder of two floats, with the sign of the dividend. -/
def remainder (x y : Float) : Float :=
  ((Binary64.ofFloat x).remainder (Binary64.ofFloat y)).toFloat

/-- Whether the float is a whole number. -/
def isWhole (f : Float) : Bool := (Binary64.ofFloat f).isWhole

/-- The float as an integer of the range `lo … hi`: the fraction is dropped, what lies outside
    goes to the nearer end, and what is not a number goes to zero. -/
def clampToInt (lo hi : Int) (f : Float) : Int :=
  match Binary64.ofFloat f with
  | .nan => 0
  | .infinite negative => if negative then lo else hi
  | b@(.finite _ _ _) => max lo (min hi b.truncate)

/-! ## §3. The float nearest to a decimal -/

/-- The float nearest to `digits · 10 ^ exponent`, ties to even. What is certain to be beyond
    the largest float or to round to zero is settled without computing the power. -/
def nearest (digits : Nat) (exponent : Int) : Float :=
  if digits = 0 then 0.0
  else
    let order : Int := (Nat.toDigits 10 digits).length + exponent
    if 400 < order then Binary64.toFloat (.infinite false)
    else if order < -400 then 0.0
    else Float.ofScientific digits (decide (exponent < 0)) exponent.natAbs

end ReactiveView.Decimal
