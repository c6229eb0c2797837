import ReactiveView.Text.CaseMap
import ReactiveView.Trace
import ReactiveView.Value.Coercion

/-! # The ambient

  The names that every expression may use, whatever its scope: constants, and
  helpers, which are functions from values to a value. Nothing else can be
  reached from an expression. `Ambient.standard` holds the helpers that are
  always there unless the embedder starts from `Ambient.empty`.
-/

namespace ReactiveView

/-- A function that expressions can call. -/
abbrev Helper := List Value → Traced Value

/-- The constants and helpers of all expressions. -/
structure Ambient where
  /-- The constants. -/
  constants : OrderedMap Value
  /-- The helpers. -/
  helpers : OrderedMap Helper

namespace Ambient

/-! ## §1. Access -/

/-- The ambient without names. -/
def empty : Ambient := ⟨∅, ∅⟩

/-- Registers a constant. -/
def withConstant (a : Ambient) (name : String) (v : Value) : Ambient :=
  { a with constants := a.constants.insert name v }

/-- Registers a helper. -/
def withHelper (a : Ambient) (name : String) (h : Helper) : Ambient :=
  { a with helpers := a.helpers.insert name h }

/-- The constant of a name. -/
def constant? (a : Ambient) (name : String) : Option Value := a.constants.find? name

/-- The helper of a name. -/
def helper? (a : Ambient) (name : String) : Option Helper := a.helpers.find? name

/-- Whether a name is a constant or a helper. -/
def contains (a : Ambient) (name : String) : Bool :=
  a.constants.contains name || a.helpers.contains name

/-- The names of the constants and of the helpers. -/
def listing (a : Ambient) : String :=
  "Ambient \x7b values: " ++ Text.quotedList a.constants.keys ++
    ", helpers: " ++ Text.quotedList a.helpers.keys ++ " \x7d"

/-! ## §2. The standard helpers -/

/-- The display text of an argument, empty if it is missing. -/
def argText (args : List Value) (i : Nat) : String := (args[i]?.map Value.display).getD ""

/-- The length of a list, a text or an object; zero for all else. -/
def len (args : List Value) : Value :=
  match args.head? with
  | some (.arr items) => .ofNat items.length
  | some (.str s) => .ofNat s.length
  | some (.obj fields) => .ofNat fields.length
  | _ => .ofNat 0

/-- The display texts of a list, joined by the second argument or by a comma. -/
def join (args : List Value) : Value :=
  let separator := (args[1]?.map Value.display).getD ","
  match args.head? with
  | some (.arr items) => .str (separator.intercalate (items.map Value.display))
  | some v => .str v.display
  | none => .str ""

/-- The numeric form of the argument, null if it has none. -/
def toNumeric (args : List Value) : Value :=
  ((args.head?.bind Value.toNumber).map Value.number).getD .null

/-- An end of a range: the numeric form of an argument without its fraction, in 64 bits. -/
def rangeEnd? (args : List Value) (i : Nat) : Option Int :=
  (args[i]?.bind Value.toNumber).map (Decimal.clampToInt (-Nat.pow 2 63) (Nat.pow 2 63 - 1))

/-- The integers from the first argument up to the second, or from zero up to the only one. -/
def range (args : List Value) : Value :=
  let (start, stop) := match rangeEnd? args 0, rangeEnd? args 1 with
    | some start, some stop => (start, stop)
    | some stop, none => (0, stop)
    | none, _ => (0, 0)
  .arr ((List.range (stop - start).toNat).map fun i : Nat => .ofInt (start + i))

/-- The names of the fields of an object. -/
def keys (args : List Value) : Value :=
  match args.head? with
  | some (.obj fields) => .arr (fields.map fun f => .str f.1)
  | _ => .arr []

/-- Sends the display texts of all arguments to the log. -/
def log (args : List Value) : Traced Value := do
  Traced.notice (.logged (" ".intercalate (args.map Value.display)))
  return .null

/-- The ambient with the standard helpers. -/
def standard : Ambient :=
  empty
    |>.withHelper "len" (fun args => return len args)
    |>.withHelper "upper" (fun args => return .str (Text.upper (argText args 0)))
    |>.withHelper "lower" (fun args => return .str (Text.lower (argText args 0)))
    |>.withHelper "trim" (fun args => return .str (Text.trimText (argText args 0)))
    |>.withHelper "join" (fun args => return join args)
    |>.withHelper "string" (fun args => return .str (argText args 0))
    |>.withHelper "number" (fun args => return toNumeric args)
    |>.withHelper "range" (fun args => return range args)
    |>.withHelper "keys" (fun args => return keys args)
    |>.withHelper "log" log

end Ambient

end ReactiveView
