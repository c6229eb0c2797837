import ReactiveView.Value.Basic

/-! # Expressions

  The abstract syntax of the expressions in interpolations and directives, and
  the names that an expression reads from its surroundings.
-/

namespace ReactiveView

/-! ## §1. Syntax -/

/-- The operators with one operand. -/
inductive UnaryOp where
  /-- Negation of truth, `!`. -/
  | not
  /-- Change of sign, `-`. -/
  | neg
  /-- Conversion to a number, `+`. -/
  | plus
deriving DecidableEq

/-- The operators with two operands. -/
inductive BinaryOp where
  /-- `||` -/
  | or
  /-- `&&` -/
  | and
  /-- `==` and `===` -/
  | eq
  /-- `!=` and `!==` -/
  | notEq
  /-- `<` -/
  | lt
  /-- `<=` -/
  | le
  /-- `>` -/
  | gt
  /-- `>=` -/
  | ge
  /-- `+` -/
  | add
  /-- `-` -/
  | sub
  /-- `*` -/
  | mul
  /-- `/` -/
  | div
  /-- `%` -/
  | rem
deriving DecidableEq

/-- How tightly an operator binds; a larger number binds tighter. -/
def BinaryOp.precedence : BinaryOp → Nat
  | or => 1
  | and => 2
  | eq | notEq => 3
  | lt | le | gt | ge => 4
  | add | sub => 5
  | mul | div | rem => 6

/-- An expression. -/
inductive Expr where
  /-- A constant. -/
  | lit (v : Value)
  /-- A name. -/
  | ident (name : String)
  /-- A list of expressions. -/
  | array (items : List Expr)
  /-- An object with its fields in source order. -/
  | object (fields : List (String × Expr))
  /-- Access to a member by name. -/
  | member (target : Expr) (property : String)
  /-- Access by a computed index. -/
  | index (target position : Expr)
  /-- A call. -/
  | call (callee : Expr) (args : List Expr)
  /-- An operator with one operand. -/
  | unary (op : UnaryOp) (operand : Expr)
  /-- An operator with two operands. -/
  | binary (op : BinaryOp) (left right : Expr)
  /-- A choice. -/
  | cond (test consequent alternate : Expr)
  /-- A function. -/
  | lambda (params : List String) (body : Expr)
  /-- Statements in braces, the body of a function. -/
  | block (statements : List Expr)

instance : Inhabited Expr := ⟨.lit .null⟩

/-! ## §2. Free names -/

namespace Expr

mutual

/-- The names that occur free, with repetitions and in order of occurrence; `bound` are the
    parameters of the functions around. -/
def freeOccurrences (bound : List String) : Expr → List String
  | lit _ => []
  | ident name => if name ∈ bound then [] else [name]
  | array items => freeInAll bound items
  | object fields => freeInFields bound fields
  | member target _ => freeOccurrences bound target
  | index target i => freeOccurrences bound target ++ freeOccurrences bound i
  | call callee args => freeOccurrences bound callee ++ freeInAll bound args
  | unary _ operand => freeOccurrences bound operand
  | binary _ left right => freeOccurrences bound left ++ freeOccurrences bound right
  | cond test consequent alternate =>
    freeOccurrences bound test ++ freeOccurrences bound consequent ++
      freeOccurrences bound alternate
  | lambda params body => freeOccurrences (params ++ bound) body
  | block statements => freeInAll bound statements

/-- The free occurrences in a list of expressions. -/
def freeInAll (bound : List String) : List Expr → List String
  | [] => []
  | e :: es => freeOccurrences bound e ++ freeInAll bound es

/-- The free occurrences in the fields of an object. -/
def freeInFields (bound : List String) : List (String × Expr) → List String
  | [] => []
  | (_, e) :: fs => freeOccurrences bound e ++ freeInFields bound fs

end

/-- The names that an expression reads and none of its own functions binds, each once, in order
    of first occurrence. -/
def freeNames (e : Expr) : List String := (freeOccurrences [] e).eraseDups

end Expr

end ReactiveView
