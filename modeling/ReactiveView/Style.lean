import ReactiveView.OrderedMap
import ReactiveView.Text.Blank

/-! # Style declarations

  A style is an ordered map from properties to values. As the text of a `style`
  attribute its declarations are separated by semicolons; a semicolon inside
  parentheses or quotes belongs to a value.

  - `Style.text?` writes a style.
  - `Style.parse` reads one.
-/

namespace ReactiveView

/-- Style properties in the order of their declaration. -/
abbrev Style := OrderedMap String

namespace Style

/-! ## §1. Writing -/

/-- The declarations of a style. -/
def declarations (style : Style) : List String :=
  style.entries.map fun e => e.1 ++ ": " ++ e.2

/-- The text of a style; an empty style has none. -/
def text? (style : Style) : Option String :=
  if style.isEmpty then none else some ("; ".intercalate style.declarations)

/-! ## §2. Reading -/

/-- Where a scan stands between the declarations: the depth of parentheses, and the quote it is
    in. -/
structure ScanState where
  /-- How many parentheses are open. -/
  depth : Nat
  /-- The quote that is open. -/
  quote : Option Char
deriving DecidableEq

/-- Outside of all parentheses and quotes. -/
def ScanState.outside : ScanState := ⟨0, none⟩

/-- The state after a character. Inside a quote only the same quote counts; a closing parenthesis
    too many is ignored. -/
def ScanState.next (st : ScanState) (c : Char) : ScanState :=
  match st.quote with
  | some q => if c = q then { st with quote := none } else st
  | none =>
    if c = '"' || c = '\'' then { st with quote := some c }
    else if c = '(' then { st with depth := st.depth + 1 }
    else if c = ')' then { st with depth := st.depth - 1 }
    else st

/-- Splits a text at the semicolons outside of parentheses and quotes. -/
def splitDeclarations (st : ScanState) : List Char → List (List Char)
  | [] => [[]]
  | c :: s =>
    if c = ';' && st = .outside then [] :: splitDeclarations st s
    else
      match splitDeclarations (st.next c) s with
      | [] => [[c]]
      | d :: ds => (c :: d) :: ds

/-- The property and value of a declaration, trimmed. The first colon separates them, and the
    property may not be empty. -/
def declaration? (d : List Char) : Option (String × String) :=
  match d.dropWhile (· != ':') with
  | [] => none
  | _ :: value =>
    let property := Text.trim (d.takeWhile (· != ':'))
    if property = [] then none
    else some (String.ofList property, String.ofList (Text.trim value))

/-- Reads the text of a style. What is no declaration is skipped; of two declarations of one
    property the later counts, in the place of the earlier. -/
def parse (text : String) : Style :=
  .ofEntries ((splitDeclarations .outside text.toList).filterMap declaration?)

@[simp] theorem text?_empty : text? ∅ = none := rfl

end Style

end ReactiveView
