import ReactiveView.Decimal.Layout
import ReactiveView.Value.Basic

/-! # The texts of a value

  - `Value.text` is the compact JSON text, without blanks and with the fields of
    objects in order.
  - `Value.display` is what the value shows as inside a text: strings bare, null
    empty, lists joined by commas.
-/

namespace ReactiveView

/-! ## §1. JSON text -/

/-- The text of a number. -/
def Number.text : Number → String
  | .int n => toString n
  | .float f => String.ofList (Decimal.valueText f)

/-- A hexadecimal digit in lower case. -/
def hexDigit (n : Nat) : Char :=
  if n < 10 then Char.ofNat ('0'.toNat + n) else Char.ofNat ('a'.toNat + (n - 10))

/-- A character inside a JSON string. -/
def jsonChar (c : Char) : List Char :=
  match c with
  | '"' => ['\\', '"']
  | '\\' => ['\\', '\\']
  | '\x08' => ['\\', 'b']
  | '\x0c' => ['\\', 'f']
  | '\n' => ['\\', 'n']
  | '\r' => ['\\', 'r']
  | '\t' => ['\\', 't']
  | c =>
    if c.toNat < 0x20 then
      ['\\', 'u', '0', '0', hexDigit (c.toNat / 16), hexDigit (c.toNat % 16)]
    else [c]

/-- A text as a JSON string. -/
def jsonString (s : String) : String :=
  String.ofList ('"' :: s.toList.flatMap jsonChar ++ ['"'])

namespace Value

mutual

/-- The compact JSON text of a value. -/
def text : Value → String
  | null => "null"
  | bool b => if b then "true" else "false"
  | num n => n.text
  | str s => jsonString s
  | arr xs => "[" ++ ",".intercalate (itemTexts xs) ++ "]"
  | obj fs => "\x7b" ++ ",".intercalate (fieldTexts fs) ++ "\x7d"

/-- The texts of the items of a list. -/
def itemTexts : List Value → List String
  | [] => []
  | x :: xs => text x :: itemTexts xs

/-- The texts of the fields of an object. -/
def fieldTexts : List (String × Value) → List String
  | [] => []
  | (k, v) :: fs => (jsonString k ++ ":" ++ text v) :: fieldTexts fs

end

/-! ## §2. Display -/

mutual

/-- What a value shows as inside a text. -/
def display : Value → String
  | null => ""
  | bool b => if b then "true" else "false"
  | num n => n.text
  | str s => s
  | arr xs => ",".intercalate (displays xs)
  | obj fs => text (obj fs)

/-- What the items of a list show as. -/
def displays : List Value → List String
  | [] => []
  | x :: xs => display x :: displays xs

end

end Value

end ReactiveView
