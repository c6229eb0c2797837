import ReactiveView.Decimal.Reader
import ReactiveView.Text.Blank
import ReactiveView.Value.Text

/-! # How values behave in expressions

  Truth, numeric form, order and access to members. The rules are loose on
  purpose: every value is true or false, most have a numeric form, and a member
  that is missing reads as null.
-/

namespace ReactiveView.Value

/-! ## §1. Numbers -/

/-- The value of a computed float. A whole result of less than `2 ^ 53` in magnitude becomes an
    integer, and a result that is not finite becomes null. -/
def number (f : Float) : Value :=
  match Decimal.Binary64.ofFloat f with
  | .nan => null
  | .infinite _ => null
  | b@(.finite _ _ _) =>
    if b.isWhole ∧ b.wholeMagnitude < Nat.pow 2 53 then ofInt b.truncate else num (.float f)

/-- The numeric form of a value. Lists and objects have none, and a text has one if it is blank
    or a numeral. -/
def toNumber : Value → Option Float
  | null => some 0.0
  | bool b => some (if b then 1.0 else 0.0)
  | num n => some n.toFloat
  | str s =>
    match Text.trim s.toList with
    | [] => some 0.0
    | t => Decimal.float? t
  | arr _ => none
  | obj _ => none

/-! ## §2. Truth and order -/

/-- Whether a value counts as true: everything but null, false, zero and the empty text. -/
def truthy : Value → Bool
  | null => false
  | bool b => b
  | num n => n.toFloat != 0.0 && !n.toFloat.isNaN
  | str s => !s.isEmpty
  | arr _ => true
  | obj _ => true

/-- The order of two floats; none if one is not a number. -/
def compareFloats (x y : Float) : Option Ordering :=
  if x < y then some .lt
  else if x == y then some .eq
  else if y < x then some .gt
  else none

/-- The order of two values: texts by their characters, all else by numeric form. -/
def compare : Value → Value → Option Ordering
  | str s, str t => some (if s < t then .lt else if s = t then .eq else .gt)
  | v, w =>
    match v.toNumber, w.toNumber with
    | some x, some y => compareFloats x y
    | _, _ => none

/-! ## §3. Members -/

/-- The member of a value under a name. Lists and texts have a `length`, lists also their
    positions. -/
def member (v : Value) (key : String) : Value :=
  match v with
  | obj fs => (fs.lookup key).getD null
  | arr xs =>
    if key = "length" then ofNat xs.length
    else ((Decimal.position? key.toList).bind (xs[·]?)).getD null
  | str s => if key = "length" then ofNat s.length else null
  | _ => null

/-- The position that a number names in a list: it must be whole and not negative, in either
    form. -/
def listPosition? (n : Number) : Option Nat :=
  let f := n.toFloat
  if 0.0 ≤ f ∧ Decimal.isWhole f then some (Decimal.Binary64.ofFloat f).wholeMagnitude else none

/-- The value at an index. A list takes any whole number, a text an integer; every other index
    is a name, by its display text. -/
def index (v i : Value) : Value :=
  match v, i with
  | arr xs, num n => ((listPosition? n).bind (xs[·]?)).getD null
  | str s, num (.int n) =>
    if 0 ≤ n then (s.toList[n.toNat]?.map fun c => str (String.singleton c)).getD null else null
  | str _, num (.float _) => null
  | v, i => v.member i.display

end ReactiveView.Value
