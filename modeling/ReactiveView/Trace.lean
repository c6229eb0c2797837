import ReactiveView.Expr.Token
import ReactiveView.Value.Text

/-! # What happens on the way to a result

  Evaluation, compilation and rendering yield a result and, in order, the events
  on the way to it: calls of helpers, and notices for the reader of a log.

  - `EvalError` lists why an expression has no value.
  - `Notice` lists what is worth a line in a log, with its level, message and
    fields.
  - `Traced` is a result with the events before it.
-/

namespace ReactiveView

/-! ## §1. Failures of evaluation -/

/-- Why an expression has no value. -/
inductive EvalError where
  /-- The name is bound nowhere. -/
  | unresolved (name : String)
  /-- What is called is no helper. -/
  | notCallable (name : String)
  /-- A function stands where a value is needed. -/
  | functionValue
deriving DecidableEq

/-- The message of a failed evaluation. -/
def EvalError.message : EvalError → String
  | unresolved name => "unresolved identifier \x60" ++ name ++ "\x60"
  | notCallable name => "\x60" ++ name ++ "\x60 is not a callable helper"
  | functionValue => "a function cannot be used as a value"

/-! ## §2. Notices -/

/-- How much a notice matters. -/
inductive Level where
  /-- Something to know. -/
  | info
  /-- Something was left undone. -/
  | warn
  /-- Something was refused. -/
  | error
deriving DecidableEq

/-- A line for the log. -/
inductive Notice where
  /-- A template asks for a line. -/
  | logged (text : String)
  /-- An expression of a template cannot be parsed. -/
  | unparsable (expression : String) (cause : SyntaxError)
  /-- A loop runs over something without items. -/
  | notIterable (expression : String) (value : Value)
  /-- An expression of a template has no value. -/
  | unresolvedExpression (expression : String) (cause : EvalError)
  /-- An event binding reads a name that is bound nowhere. -/
  | unresolvedBinding (expression : String) (cause : EvalError)
  /-- A handler was called and failed. -/
  | handlerFailed (expression : String) (cause : EvalError)
  /-- An attempt to replace the store as a whole. -/
  | replacementRejected (keys : Nat)
  /-- The initial data has no entries to take. -/
  | initialDataIgnored (value : Value)
  /-- The place to mount at does not exist. -/
  | targetMissing (selector : String)

namespace Notice

/-- The level of a notice. -/
def level : Notice → Level
  | logged _ => .info
  | replacementRejected _ => .error
  | _ => .warn

/-- The message of a notice. -/
def message : Notice → String
  | logged text => text
  | unparsable _ _ => "unparsable template expression"
  | notIterable _ _ => "loop collection is not iterable"
  | unresolvedExpression _ _ => "leaving template expression unresolved"
  | unresolvedBinding _ _ => "leaving event binding unresolved"
  | handlerFailed _ _ => "event handler failed"
  | replacementRejected _ => "rejected whole-store replacement; use set_state instead"
  | initialDataIgnored _ => "initial data is not an object; ignoring"
  | targetMissing _ => "mount target not found; rendering is disabled"

/-- The named fields of a notice. -/
def fields : Notice → List (String × String)
  | logged _ => []
  | unparsable expression cause => [("expression", expression), ("error", cause.message)]
  | notIterable expression value => [("expression", expression), ("value", value.text)]
  | unresolvedExpression expression cause =>
    [("expression", expression), ("error", cause.message)]
  | unresolvedBinding expression cause => [("expression", expression), ("error", cause.message)]
  | handlerFailed expression cause => [("expression", expression), ("error", cause.message)]
  | replacementRejected keys => [("keys", toString keys)]
  | initialDataIgnored value => [("value", value.text)]
  | targetMissing selector => [("target", selector)]

end Notice

/-! ## §3. Events and traced results -/

/-- Something that happens on the way to a result. -/
inductive Event where
  /-- A helper is called. -/
  | called (helper : String) (args : List Value)
  /-- A line goes to the log. -/
  | noticed (notice : Notice)

/-- The notices among the events. -/
def Event.notice? : Event → Option Notice
  | noticed n => some n
  | called _ _ => none

/-- The helper calls among the events. -/
def Event.call? : Event → Option (String × List Value)
  | called helper args => some (helper, args)
  | noticed _ => none

/-- A result and the events before it, in order. -/
structure Traced (α : Type) where
  /-- The result. -/
  result : α
  /-- The events. -/
  events : List Event

namespace Traced

variable {α β : Type}

/-- A result without events. -/
def pure (a : α) : Traced α := ⟨a, []⟩

/-- Goes on with a result; the events of both parts follow each other. -/
def bind (t : Traced α) (f : α → Traced β) : Traced β :=
  let u := f t.result
  ⟨u.result, t.events ++ u.events⟩

instance : Monad Traced where
  pure := pure
  bind := bind

/-- A computation for each element of a list, in order. -/
def forEach (f : α → Traced β) : List α → Traced (List β)
  | [] => pure []
  | a :: as => bind (f a) fun b => bind (forEach f as) fun bs => pure (b :: bs)

/-- One event. -/
def event (e : Event) : Traced Unit := ⟨(), [e]⟩

/-- One line for the log. -/
def notice (n : Notice) : Traced Unit := event (.noticed n)

@[simp] theorem result_pure (a : α) : (Pure.pure a : Traced α).result = a := rfl

@[simp] theorem events_pure (a : α) : (Pure.pure a : Traced α).events = [] := rfl

@[simp] theorem result_bind (t : Traced α) (f : α → Traced β) :
    (t >>= f).result = (f t.result).result := rfl

@[simp] theorem events_bind (t : Traced α) (f : α → Traced β) :
    (t >>= f).events = t.events ++ (f t.result).events := rfl

end Traced

end ReactiveView
