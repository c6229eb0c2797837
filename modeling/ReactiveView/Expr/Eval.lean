import ReactiveView.Ambient
import ReactiveView.Expr.Basic
import ReactiveView.Scope

/-! # Evaluation of expressions

  An expression is evaluated in a scope and an ambient. Names resolve through
  the scope first and then to the constants of the ambient; only helpers, and
  functions written in place, can be called. Each call of a helper is an event
  of the trace.

  `checkResolved` asks beforehand whether all free names are known.
-/

namespace ReactiveView

/-- The outcome of an evaluation: a result or a failure, with the events before it. -/
abbrev Eval (α : Type) := ExceptT EvalError Traced α

/-- A result or failure without events. -/
def Eval.ofExcept {α : Type} (r : Except EvalError α) : Eval α := ExceptT.mk (pure r)

/-! ## §1. Names -/

/-- The value of a name. -/
def resolve (ambient : Ambient) (scope : Scope) (name : String) : Except EvalError Value :=
  match (scope.lookup name).or (ambient.constant? name) with
  | some v => .ok v
  | none => .error (.unresolved name)

/-- The helper that a call of a name means. A name that stands for a value cannot be called. -/
def resolveHelper (ambient : Ambient) (scope : Scope) (name : String) :
    Except EvalError Helper :=
  match ambient.helper? name with
  | some helper => .ok helper
  | none =>
    if (scope.lookup name).isSome || (ambient.constant? name).isSome then
      .error (.notCallable name)
    else .error (.unresolved name)

/-- Calls a helper under a name. -/
def callHelper (name : String) (helper : Helper) (args : List Value) : Traced Value := do
  Traced.event (.called name args)
  helper args

/-- What a callee that is neither a name nor a function is called in a message. -/
def Expr.calleeText : Expr → String
  | member _ property => "." ++ property
  | ident name => name
  | _ => "expression"

/-- The bindings of parameters to arguments; missing arguments are null. -/
def bindParams : List String → List Value → Frame
  | [], _ => []
  | p :: ps, [] => (p, .null) :: bindParams ps []
  | p :: ps, v :: vs => (p, v) :: bindParams ps vs

/-! ## §2. Operators -/

/-- An arithmetic operation on the numeric forms, null if one is missing. -/
def arithmetic (f : Float → Float → Float) (v w : Value) : Value :=
  match v.toNumber, w.toNumber with
  | some x, some y => .number (f x y)
  | _, _ => .null

/-- A comparison, false if the values have no order. -/
def ordered (accept : Ordering → Bool) (v w : Value) : Value :=
  .bool (((v.compare w).map accept).getD false)

/-- The result of a unary operator. -/
def UnaryOp.apply : UnaryOp → Value → Value
  | not, v => .bool !v.truthy
  | neg, v => (v.toNumber.map fun f => .number (-f)).getD .null
  | plus, v => (v.toNumber.map .number).getD .null

/-- The result of a binary operator that evaluates both operands. Addition joins texts when one
    operand is a text. -/
def BinaryOp.apply : BinaryOp → Value → Value → Value
  | or, v, w => if v.truthy then v else w
  | and, v, w => if v.truthy then w else v
  | add, v, w =>
    if v.isText || w.isText then .str (v.display ++ w.display) else arithmetic (· + ·) v w
  | sub, v, w => arithmetic (· - ·) v w
  | mul, v, w => arithmetic (· * ·) v w
  | div, v, w => arithmetic (· / ·) v w
  | rem, v, w => arithmetic Decimal.remainder v w
  | eq, v, w => .bool (v.equals w)
  | notEq, v, w => .bool !v.equals w
  | lt, v, w => ordered (· == .lt) v w
  | le, v, w => ordered (· != .gt) v w
  | gt, v, w => ordered (· == .gt) v w
  | ge, v, w => ordered (· != .lt) v w

/-- Whether the left operand alone decides the result. -/
def BinaryOp.decides (op : BinaryOp) (left : Value) : Bool :=
  match op with
  | or => left.truthy
  | and => !left.truthy
  | _ => false

/-! ## §3. Evaluation -/

namespace Expr

mutual

/-- Evaluates an expression. -/
def eval (ambient : Ambient) (scope : Scope) : Expr → Eval Value
  | lit v => return v
  | ident name => Eval.ofExcept (resolve ambient scope name)
  | array items => return .arr (← evalAll ambient scope items)
  | object fields => return .obj (Entries.insertAll [] (← evalFields ambient scope fields))
  | member target property => return (← eval ambient scope target).member property
  | index target position => do
    let v ← eval ambient scope target
    let i ← eval ambient scope position
    return v.index i
  | call (ident name) args => do
    let helper ← Eval.ofExcept (resolveHelper ambient scope name)
    let values ← evalAll ambient scope args
    ExceptT.lift (callHelper name helper values)
  | call (lambda params body) args => do
    let values ← evalAll ambient scope args
    eval ambient (scope.child (bindParams params values)) body
  | call callee _ => throw (.notCallable callee.calleeText)
  | unary op operand => return op.apply (← eval ambient scope operand)
  | binary op left right => do
    let v ← eval ambient scope left
    if op.decides v then return v
    else return op.apply v (← eval ambient scope right)
  | cond test consequent alternate => do
    if (← eval ambient scope test).truthy then eval ambient scope consequent
    else eval ambient scope alternate
  | lambda _ _ => throw .functionValue
  | block statements => return ((← evalAll ambient scope statements).getLast?.getD .null)

/-- Evaluates expressions in order, up to the first failure. -/
def evalAll (ambient : Ambient) (scope : Scope) : List Expr → Eval (List Value)
  | [] => return []
  | e :: es => do
    let v ← eval ambient scope e
    let vs ← evalAll ambient scope es
    return v :: vs

/-- Evaluates the fields of an object in order, up to the first failure. -/
def evalFields (ambient : Ambient) (scope : Scope) :
    List (String × Expr) → Eval (List (String × Value))
  | [] => return []
  | (k, e) :: fs => do
    let v ← eval ambient scope e
    let vs ← evalFields ambient scope fs
    return (k, v) :: vs

end

/-- Evaluates the body of a function with its parameters bound to arguments. -/
def apply (ambient : Ambient) (scope : Scope) (params : List String) (body : Expr)
    (args : List Value) : Eval Value :=
  eval ambient (scope.child (bindParams params args)) body

/-- The first free name that neither the scope nor the ambient knows, as a failure. -/
def checkResolved (ambient : Ambient) (scope : Scope) (e : Expr) : Except EvalError Unit :=
  match e.freeNames.find? fun name =>
      (scope.lookup name).isNone && !ambient.contains name with
  | some name => .error (.unresolved name)
  | none => .ok ()

end Expr

end ReactiveView
