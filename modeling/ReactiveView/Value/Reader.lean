import ReactiveView.Decimal.Reader
import ReactiveView.Value.Basic

/-! # Reading JSON

  `Value.parse?` reads a complete JSON text. Objects keep the order of their
  fields; for a repeated name the last value stands at the first place. Lists
  and objects may be nested 127 deep.

  An integer stays an integer in the range of 64 bits, signed or unsigned. Any
  other number becomes a float: the first digits that fit in 64 bits, scaled by
  a power of ten.
-/

namespace ReactiveView.Json

/-! ## §1. Steps of the reader -/

/-- What a step reads from a text: a result and the rest, which is shorter. -/
structure Reading (α : Type) (s : List Char) where
  /-- The result. -/
  result : α
  /-- What is left. -/
  rest : List Char
  /-- Something was read. -/
  shorter : rest.length < s.length

/-- A step of the reader: it fails, or reads something off the front. -/
abbrev Step (α : Type) := (s : List Char) → Option (Reading α s)

/-- The blanks of JSON. -/
def isSpace (c : Char) : Bool := c = ' ' || c = '\t' || c = '\n' || c = '\r'

/-- The text without leading blanks. -/
def skipSpace (s : List Char) : List Char := s.dropWhile isSpace

theorem skipSpace_length_le (s : List Char) : (skipSpace s).length ≤ s.length :=
  (List.dropWhile_suffix _).length_le

/-! ## §2. Numbers -/

/-- Appends digits to `n` as long as the result fits in 64 bits; also the digits left over. -/
def absorb (n : Nat) : List Char → Nat × List Char
  | [] => (n, [])
  | c :: s =>
    let n' := 10 * n + Decimal.digitValue c
    if n' < Nat.pow 2 64 then absorb n' s else (n, c :: s)

/-- Divides by `10 ^ e` in steps of at most 308 places. -/
def scaleDown (f : Float) (e : Nat) : Float :=
  if e ≤ 308 then f / Decimal.nearest 1 e
  else if f == 0.0 then f
  else scaleDown (f / Decimal.nearest 1 308) (e - 308)
termination_by e

/-- The float `n · 10 ^ e`, each operation rounded; none if it is too large. -/
def scale? (n : Nat) (e : Int) : Option Float :=
  let f := Float.ofNat n
  if e < 0 then some (scaleDown f e.natAbs)
  else if 308 < e then if n = 0 then some f else none
  else
    -- Only a product can be too large; a quotient at worst becomes zero.
    let g := f * Decimal.nearest 1 e
    if g.isInf then none else some g

/-- An exponent past this bound counts as infinite. -/
def exponentBound : Nat := Nat.pow 2 31

/-- The float `n · 10 ^ e` with a written exponent added to `e`. -/
def withExponent? (n : Nat) (e : Int) (negative : Bool) (digits : List Char) : Option Float :=
  let x := Decimal.ofDigits digits
  if exponentBound ≤ x then if n ≠ 0 ∧ !negative then none else some 0.0
  else scale? n (if negative then e - x else e + x)

/-- A number without sign, from its parts: whole digits, digits of the fraction and written
    exponent, each if present. -/
def unsigned? (negative : Bool) (whole : List Char) (fraction : Option (List Char))
    (exponent : Option (Bool × List Char)) : Option Number :=
  let (n, excess) := absorb 0 whole
  let signed (f : Float) : Number := .float (if negative then -f else f)
  match fraction, exponent with
  | none, none =>
    -- Digits that no longer fit count as zeros.
    if excess ≠ [] then (scale? n excess.length).map signed
    else if !negative then some (.int n)
    -- Minus zero is a float, and so is all below the signed range.
    else if n = 0 ∨ Nat.pow 2 63 < n then some (signed (Float.ofNat n))
    else some (.int (-n))
  | _, _ =>
    let ds := fraction.getD []
    let (n', unused) := absorb n ds
    -- Each digit of the fraction that was used moves the point by one place.
    let e : Int := excess.length - (ds.length - unused.length : Nat)
    match exponent with
    | none => (scale? n' e).map signed
    | some (minus, xs) => (withExponent? n' e minus xs).map signed

/-- Splits off the fraction: a point must be followed by a digit. -/
def fraction? (s : List Char) : Option (Option (List Char) × List Char) :=
  match s with
  | '.' :: r =>
    let ds := r.takeWhile Char.isDigit
    if ds = [] then none else some (some ds, r.dropWhile Char.isDigit)
  | _ => some (none, s)

/-- Splits off the exponent: its mark must be followed by a digit, possibly after a sign. -/
def exponent? (s : List Char) : Option (Option (Bool × List Char) × List Char) :=
  match s with
  | [] => some (none, [])
  | c :: r =>
    if c = 'e' || c = 'E' then
      let (minus, t) := Decimal.splitSign r
      let ds := t.takeWhile Char.isDigit
      if ds = [] then none else some (some (minus, ds), t.dropWhile Char.isDigit)
    else some (none, s)

/-- Reads a number. No digit may follow a leading zero. -/
def number? (s : List Char) : Option (Number × List Char) := do
  let (negative, t) := match s with
    | '-' :: r => (true, r)
    | r => (false, r)
  let digits := t.takeWhile Char.isDigit
  if digits = [] || (digits.head? = some '0' && digits.length ≠ 1) then none
  else
    let (fraction, r) ← fraction? (t.dropWhile Char.isDigit)
    let (exponent, r) ← exponent? r
    let n ← unsigned? negative digits fraction exponent
    some (n, r)

/-! ## §3. Strings -/

/-- The value of a hexadecimal digit. -/
def hexValue? (c : Char) : Option Nat :=
  if c.isDigit then some (c.toNat - '0'.toNat)
  else if 'a' ≤ c ∧ c ≤ 'f' then some (c.toNat - 'a'.toNat + 10)
  else if 'A' ≤ c ∧ c ≤ 'F' then some (c.toNat - 'A'.toNat + 10)
  else none

/-- A number of four hexadecimal digits. -/
def hex4? (a b c d : Char) : Option Nat := do
  let a ← hexValue? a
  let b ← hexValue? b
  let c ← hexValue? c
  let d ← hexValue? d
  some (((a * 16 + b) * 16 + c) * 16 + d)

/-- The character of a short escape. -/
def escaped? (c : Char) : Option Char :=
  match c with
  | '"' => some '"'
  | '\\' => some '\\'
  | '/' => some '/'
  | 'b' => some '\x08'
  | 'f' => some '\x0c'
  | 'n' => some '\n'
  | 'r' => some '\r'
  | 't' => some '\t'
  | _ => none

/-- Reads the inside of a string up to its closing quote. A high surrogate must be followed by a
    low one, and neither may stand alone. -/
def stringBody? : List Char → Option (List Char × List Char)
  | [] => none
  | '"' :: s => some ([], s)
  | '\\' :: 'u' :: a :: b :: c :: d :: s => do
    let n ← hex4? a b c d
    if 0xDC00 ≤ n ∧ n < 0xE000 then none
    else if 0xD800 ≤ n ∧ n < 0xDC00 then
      match s with
      | '\\' :: 'u' :: a :: b :: c :: d :: s => do
        let m ← hex4? a b c d
        if 0xDC00 ≤ m ∧ m < 0xE000 then
          let (body, rest) ← stringBody? s
          some (Char.ofNat (0x10000 + (n - 0xD800) * 0x400 + (m - 0xDC00)) :: body, rest)
        else none
      | _ => none
    else
      let (body, rest) ← stringBody? s
      some (Char.ofNat n :: body, rest)
  | '\\' :: c :: s => do
    let c ← escaped? c
    let (body, rest) ← stringBody? s
    some (c :: body, rest)
  | c :: s =>
    -- A backslash gets here only at the end of a text that breaks off.
    if c.toNat < 0x20 || c = '\\' then none
    else (stringBody? s).map fun (body, rest) => (c :: body, rest)

/-! ## §4. Values -/

/-- Keeps a reading only if something was read. -/
def reading? {α : Type} (s : List Char) : Option (α × List Char) → Option (Reading α s)
  | none => none
  | some (a, rest) => if h : rest.length < s.length then some ⟨a, rest, h⟩ else none

/-- Reads the items of a list after its opening bracket. -/
def items? (item : Step Value) (s : List Char) : Option (List Value × List Char) :=
  match item (skipSpace s) with
  | none => none
  | some ⟨v, rest, h⟩ =>
    match hr : skipSpace rest with
    | ',' :: t =>
      have : t.length < s.length := by
        have := skipSpace_length_le s
        have := skipSpace_length_le rest
        simp [hr] at this
        omega
      (items? item t).map fun (vs, r) => (v :: vs, r)
    | ']' :: t => some ([v], t)
    | _ => none
termination_by s.length

/-- Reads the fields of an object after its opening brace. -/
def fields? (item : Step Value) (s : List Char) : Option (List (String × Value) × List Char) :=
  match hs : skipSpace s with
  | '"' :: t =>
    match hk : reading? t (stringBody? t) with
    | none => none
    | some ⟨key, t₁, h₁⟩ =>
      match h₂ : skipSpace t₁ with
      | ':' :: t₂ =>
        match item (skipSpace t₂) with
        | none => none
        | some ⟨v, t₃, h₃⟩ =>
          match h₄ : skipSpace t₃ with
          | ',' :: t₄ =>
            have : t₄.length < s.length := by
              have := congrArg List.length hs
              have := skipSpace_length_le s
              have := congrArg List.length h₂
              have := skipSpace_length_le t₁
              have := skipSpace_length_le t₂
              have := congrArg List.length h₄
              have := skipSpace_length_le t₃
              simp at *
              omega
            (fields? item t₄).map fun (fs, r) => ((String.ofList key, v) :: fs, r)
          | '\x7d' :: t₄ => some ([(String.ofList key, v)], t₄)
          | _ => none
      | _ => none
  | _ => none
termination_by s.length

/-- Splits a word off the front. -/
def word? (word : String) (v : Value) (s : List Char) : Option (Value × List Char) :=
  if s.take word.length = word.toList then some (v, s.drop word.length) else none

/-- Reads one value, whose first character is not blank, with `depth` levels of nesting left. -/
def value? : (depth : Nat) → Step Value
  | 0, _ => none
  | depth + 1, s => reading? s <|
    match s with
    | 'n' :: _ => word? "null" .null s
    | 't' :: _ => word? "true" (.bool true) s
    | 'f' :: _ => word? "false" (.bool false) s
    | '"' :: t => (stringBody? t).map fun (body, rest) => (.str (String.ofList body), rest)
    | '[' :: t =>
      if depth = 0 then none
      else match skipSpace t with
        | ']' :: rest => some (.arr [], rest)
        | t => (items? (value? depth) t).map fun (vs, rest) => (.arr vs, rest)
    | '\x7b' :: t =>
      if depth = 0 then none
      else match skipSpace t with
        | '\x7d' :: rest => some (.obj [], rest)
        | t => (fields? (value? depth) t).map fun (fs, rest) =>
          (.obj (Entries.insertAll [] fs), rest)
    | _ => (number? s).map fun (n, rest) => (.num n, rest)

end ReactiveView.Json

namespace ReactiveView

/-- Reads a complete JSON text. -/
def Value.parse? (text : String) : Option Value :=
  match Json.value? 128 (Json.skipSpace text.toList) with
  | some ⟨v, rest, _⟩ => if Json.skipSpace rest = [] then some v else none
  | none => none

end ReactiveView
