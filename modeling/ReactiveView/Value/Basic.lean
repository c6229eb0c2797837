import ReactiveView.OrderedMap
import ReactiveView.Decimal.Binary64

/-! # Dynamic values

  The data of a view: JSON values, where a number is an integer or a float and
  an object keeps the order of its entries. Two equalities are at work:

  - `Value.same` is structural. It tells `1` from `1.0` and ignores the order of
    entries.
  - `Value.equals` is what `==` means in an expression: two numbers are equal when
    they have the same value, and all else is compared structurally.
-/

namespace ReactiveView

/-! ## §1. Numbers -/

/-- A number, as it was written: an integer of 64 bits (signed or not), or a finite float. -/
inductive Number where
  /-- An integer. -/
  | int (n : Int)
  /-- A float. -/
  | float (f : Float)

namespace Number

/-- The float nearest to the number. -/
def toFloat : Number → Float
  | int n => Float.ofInt n
  | float f => f

/-- Equality of numbers of one form; an integer never equals a float. -/
def same : Number → Number → Bool
  | int m, int n => m == n
  | float x, float y => x == y
  | _, _ => false

end Number

/-! ## §2. Values -/

/-- A JSON value. -/
inductive Value where
  /-- The absent value. -/
  | null
  /-- A truth value. -/
  | bool (b : Bool)
  /-- A number. -/
  | num (n : Number)
  /-- A text. -/
  | str (s : String)
  /-- A list of values. -/
  | arr (items : List Value)
  /-- Named values, in order. -/
  | obj (fields : List (String × Value))

namespace Value

instance : Inhabited Value := ⟨null⟩

/-- An integer as a value. -/
def ofInt (n : Int) : Value := num (.int n)

/-- A length as a value. -/
def ofNat (n : Nat) : Value := ofInt n

/-- Whether the value is a text. -/
def isText : Value → Bool
  | str _ => true
  | _ => false

/-- Whether the value is null. -/
def isNull : Value → Bool
  | null => true
  | _ => false

/-- The fields of an object. -/
def fields? : Value → Option (List (String × Value))
  | obj fields => some fields
  | _ => none

/-! ## §3. Equality -/

mutual

/-- Structural equality; the order of object fields does not matter. -/
def same : Value → Value → Bool
  | null, null => true
  | bool b, bool c => b == c
  | num m, num n => m.same n
  | str s, str t => s == t
  | arr xs, arr ys => sameItems xs ys
  | obj fs, obj gs => fs.length == gs.length && sameFields fs gs
  | _, _ => false

/-- Lists of the same length, equal position by position. -/
def sameItems : List Value → List Value → Bool
  | [], [] => true
  | x :: xs, y :: ys => same x y && sameItems xs ys
  | _, _ => false

/-- Each field of the first list has an equal value in the second. -/
def sameFields : List (String × Value) → List (String × Value) → Bool
  | [], _ => true
  | (k, v) :: fs, gs =>
    (match gs.lookup k with
      | some w => same v w
      | none => false) && sameFields fs gs

end

/-- Equality in an expression: numbers by value, all else structurally. -/
def equals : Value → Value → Bool
  | num m, num n => m.toFloat == n.toFloat
  | v, w => same v w

end Value

end ReactiveView
