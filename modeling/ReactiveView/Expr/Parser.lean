import ReactiveView.Expr.Basic
import ReactiveView.Expr.Token
import ReactiveView.Value.Coercion

/-! # The grammar of expressions

  From the loosest form to the tightest:

      expression  := arrow | conditional
      arrow       := ( name | "(" names ")" ) "=>" ( block | expression )
      conditional := binary ( "?" expression ":" expression )?
      binary      := unary ( operator unary )*           by precedence
      unary       := ( "!" | "-" | "+" ) unary | postfix
      postfix     := primary ( "." name | "[" expression "]" | "(" list ")" )*
      primary     := number | string | name | "(" expression ")"
                   | "[" list "]" | "{" fields "}"

  Every step of the parser works on the tokens that are left and returns fewer
  of them. `Parsed` carries the proof, and with it the mutual recursion ends.
  `Expr.parse` is the parser for complete texts.
-/

namespace ReactiveView

/-! ## §1. Steps -/

/-- What a step of the parser yields when at most `bound` tokens, the bound excluded, may be
    left. -/
structure Parsed (α : Type) (bound : Nat) where
  /-- The result. -/
  result : α
  /-- The tokens that are left. -/
  rest : List Located
  /-- They are fewer than the bound. -/
  shorter : rest.length < bound

/-- The outcome of a step: an error, or a result and the tokens that are left. -/
abbrev Step (α : Type) (bound : Nat) := Except SyntaxError (Parsed α bound)

namespace Parsed

/-- The same step, seen from before more tokens. -/
def widen {α : Type} {m n : Nat} (p : Parsed α m) (h : m ≤ n) : Parsed α n :=
  ⟨p.result, p.rest, Nat.lt_of_lt_of_le p.shorter h⟩

/-- The step with its result changed. -/
def map {α β : Type} {n : Nat} (f : α → β) (p : Parsed α n) : Parsed β n :=
  ⟨f p.result, p.rest, p.shorter⟩

end Parsed

/-- The error for the first of the tokens, or for their absence. -/
def unexpectedFirst : List Located → SyntaxError
  | [] => .unexpectedEnd
  | t :: _ => .unexpectedToken t

/-- The tokens after a mark, if it comes first. -/
def eat? (m : Mark) : List Located → Option (List Located)
  | ⟨.mark m', _⟩ :: rest => if m' = m then some rest else none
  | _ => none

theorem eat?_length {m : Mark} {ts rest : List Located} (h : eat? m ts = some rest) :
    rest.length < ts.length := by
  unfold eat? at h
  split at h
  · split at h
    · simp only [Option.some.injEq] at h; simp [h]
    · simp at h
  · simp at h

/-- Demands a mark. -/
def expect (m : Mark) (ts : List Located) : Step Unit ts.length :=
  match h : eat? m ts with
  | some rest => .ok ⟨(), rest, eat?_length h⟩
  | none => .error (unexpectedFirst ts)

/-- The operator that a mark between two operands stands for. -/
def BinaryOp.ofMark? : Mark → Option BinaryOp
  | .orOr => some .or
  | .andAnd => some .and
  | .eqEq | .eqEqEq => some .eq
  | .notEq | .notEqEq => some .notEq
  | .less => some .lt
  | .lessEq => some .le
  | .greater => some .gt
  | .greaterEq => some .ge
  | .plus => some .add
  | .minus => some .sub
  | .star => some .mul
  | .slash => some .div
  | .percent => some .rem
  | _ => none

/-- The operator that a mark before an operand stands for. -/
def UnaryOp.ofMark? : Mark → Option UnaryOp
  | .bang => some .not
  | .minus => some .neg
  | .plus => some .plus
  | _ => none

/-- The binary operator at the front, if it binds at least as tightly as `least`. -/
def binaryOp? (least : Nat) : List Located → Option (BinaryOp × List Located)
  | ⟨.mark m, _⟩ :: rest =>
    match BinaryOp.ofMark? m with
    | some op => if least ≤ op.precedence then some (op, rest) else none
    | none => none
  | _ => none

theorem binaryOp?_length {least : Nat} {ts rest : List Located} {op : BinaryOp}
    (h : binaryOp? least ts = some (op, rest)) : rest.length < ts.length := by
  unfold binaryOp? at h
  split at h
  · split at h
    · split at h
      · simp only [Option.some.injEq, Prod.mk.injEq] at h; simp [h.2]
      · simp at h
    · simp at h
  · simp at h

/-- The unary operator at the front. -/
def unaryOp? : List Located → Option (UnaryOp × List Located)
  | ⟨.mark m, _⟩ :: rest => (UnaryOp.ofMark? m).map fun op => (op, rest)
  | _ => none

theorem unaryOp?_length {ts rest : List Located} {op : UnaryOp}
    (h : unaryOp? ts = some (op, rest)) : rest.length < ts.length := by
  unfold unaryOp? at h
  split at h
  · obtain ⟨_, _, heq⟩ := Option.map_eq_some_iff.1 h
    simp only [Prod.mk.injEq] at heq
    simp [heq.2]
  · simp at h

/-! ### Parameters -/

/-- The names of a parameter list after its opening parenthesis, up to the closing one. A comma
    may stand after the last name. -/
def paramNames? : List Located → Option (List String × List Located)
  | ⟨.mark .rightParen, _⟩ :: rest => some ([], rest)
  | ⟨.ident name, _⟩ :: ⟨.mark .rightParen, _⟩ :: rest => some ([name], rest)
  | ⟨.ident name, _⟩ :: ⟨.mark .comma, _⟩ :: rest =>
    (paramNames? rest).map fun (names, rest) => (name :: names, rest)
  | _ => none

/-- The parameters of a function and its arrow, if a function starts here. -/
def arrowParams? : List Located → Option (List String × List Located)
  | ⟨.ident name, _⟩ :: ⟨.mark .arrow, _⟩ :: rest => some ([name], rest)
  | ⟨.mark .leftParen, _⟩ :: rest =>
    match paramNames? rest with
    | some (names, rest) => (eat? .arrow rest).map fun rest => (names, rest)
    | none => none
  | _ => none

theorem paramNames?_length {ts rest : List Located} {names : List String}
    (h : paramNames? ts = some (names, rest)) : rest.length < ts.length := by
  fun_induction paramNames? ts generalizing names with
  | case1 => simp at h; simp [h.2]
  | case2 =>
    simp only [Option.some.injEq, Prod.mk.injEq] at h
    simp only [← h.2, List.length_cons]
    omega
  | case3 _ _ _ rest' ih =>
    obtain ⟨⟨_, _⟩, hn, heq⟩ := Option.map_eq_some_iff.1 h
    simp only [Prod.mk.injEq] at heq
    have := ih (heq.2 ▸ hn)
    simp; omega
  | case4 => simp at h

theorem arrowParams?_length {ts rest : List Located} {names : List String}
    (h : arrowParams? ts = some (names, rest)) : rest.length < ts.length := by
  unfold arrowParams? at h
  split at h
  · simp only [Option.some.injEq, Prod.mk.injEq] at h
    simp only [← h.2, List.length_cons]
    omega
  · split at h
    · next hp =>
      obtain ⟨r, hr, heq⟩ := Option.map_eq_some_iff.1 h
      simp only [Prod.mk.injEq] at heq
      have := eat?_length hr
      have := paramNames?_length hp
      simp only [← heq.2, List.length_cons]
      omega
    · simp at h
  · simp at h

/-! ### Constants and keys -/

/-- What a name stands for as an operand: four words are constants. -/
def Expr.ofName : String → Expr
  | "true" => .lit (.bool true)
  | "false" => .lit (.bool false)
  | "null" => .lit .null
  | "undefined" => .lit .null
  | name => .ident name

/-- The key of an object field, if the token can be one. -/
def fieldKey? : Token → Option String
  | .ident name => some name
  | .str s => some s
  | .number f => some (Value.number f).display
  | .mark _ => none

/-! ## §2. The parser -/

mutual

/-- Parses an expression. -/
def expression (ts : List Located) : Step Expr ts.length :=
  match ha : arrowParams? ts with
  | some (params, body) =>
    have hlt := arrowParams?_length ha
    match hb : eat? .leftBrace body with
    | some inside =>
      have := eat?_length hb
      match statements inside with
      | .error e => .error e
      | .ok p => .ok ((p.map fun es => .lambda params (.block es)).widen (by omega))
    | none =>
      match expression body with
      | .error e => .error e
      | .ok p => .ok ((p.map (.lambda params)).widen (by omega))
  | none => conditional ts
termination_by 7 * ts.length + 5

/-- Parses the statements of a block after its opening brace. Semicolons may stand between them,
    and need not. -/
def statements (ts : List Located) : Step (List Expr) ts.length :=
  match hs : eat? .semicolon ts with
  | some rest =>
    have := eat?_length hs
    match statements rest with
    | .error e => .error e
    | .ok p => .ok (p.widen (by omega))
  | none =>
    match hb : eat? .rightBrace ts with
    | some rest => .ok ⟨[], rest, eat?_length hb⟩
    | none =>
      match expression ts with
      | .error e => .error e
      | .ok ⟨e, rest, h⟩ =>
        match statements rest with
        | .error e => .error e
        | .ok p => .ok ((p.map (e :: ·)).widen (by omega))
termination_by 7 * ts.length + 6

/-- Parses a choice or what is tighter. -/
def conditional (ts : List Located) : Step Expr ts.length :=
  match binary 1 ts with
  | .error e => .error e
  | .ok ⟨test, rest, h⟩ =>
    match hq : eat? .question rest with
    | none => .ok ⟨test, rest, h⟩
    | some rest₁ =>
      have := eat?_length hq
      match expression rest₁ with
      | .error e => .error e
      | .ok ⟨consequent, rest₂, h₂⟩ =>
        match expect .colon rest₂ with
        | .error e => .error e
        | .ok ⟨_, rest₃, h₃⟩ =>
          match expression rest₃ with
          | .error e => .error e
          | .ok p => .ok ((p.map (.cond test consequent)).widen (by omega))
termination_by 7 * ts.length + 4

/-- Parses operands joined by operators that bind at least as tightly as `least`. -/
def binary (least : Nat) (ts : List Located) : Step Expr ts.length :=
  match unary ts with
  | .error e => .error e
  | .ok ⟨left, rest, h⟩ =>
    match binaryTail least left rest with
    | .error e => .error e
    | .ok p => .ok (p.widen (by omega))
termination_by 7 * ts.length + 3

/-- Goes on after a left operand. The right operand takes only operators that bind tighter, so
    operators of one precedence group to the left. -/
def binaryTail (least : Nat) (left : Expr) (ts : List Located) : Step Expr (ts.length + 1) :=
  match ho : binaryOp? least ts with
  | none => .ok ⟨left, ts, by omega⟩
  | some (op, rest) =>
    have := binaryOp?_length ho
    match binary (op.precedence + 1) rest with
    | .error e => .error e
    | .ok ⟨right, rest', h⟩ =>
      match binaryTail least (.binary op left right) rest' with
      | .error e => .error e
      | .ok p => .ok (p.widen (by omega))
termination_by 7 * ts.length + 3

/-- Parses an operand with its operators in front. -/
def unary (ts : List Located) : Step Expr ts.length :=
  match ho : unaryOp? ts with
  | some (op, rest) =>
    have := unaryOp?_length ho
    match unary rest with
    | .error e => .error e
    | .ok p => .ok ((p.map (.unary op)).widen (by omega))
  | none => postfixed ts
termination_by 7 * ts.length + 2

/-- Parses a primary expression and the accesses and calls behind it. -/
def postfixed (ts : List Located) : Step Expr ts.length :=
  match primary ts with
  | .error e => .error e
  | .ok ⟨e, rest, h⟩ =>
    match postfixTail e rest with
    | .error e => .error e
    | .ok p => .ok (p.widen (by omega))
termination_by 7 * ts.length + 1

/-- Goes on with the accesses and calls behind an expression. -/
def postfixTail (e : Expr) (ts : List Located) : Step Expr (ts.length + 1) :=
  match ts with
  | ⟨.mark .dot, _⟩ :: ⟨.ident name, _⟩ :: rest =>
    match postfixTail (.member e name) rest with
    | .error e => .error e
    | .ok p => .ok (p.widen (by simp))
  | ⟨.mark .dot, _⟩ :: rest => .error (unexpectedFirst rest)
  | ⟨.mark .leftBracket, _⟩ :: rest =>
    match expression rest with
    | .error e => .error e
    | .ok ⟨i, rest₁, h₁⟩ =>
      match expect .rightBracket rest₁ with
      | .error e => .error e
      | .ok ⟨_, rest₂, h₂⟩ =>
        match postfixTail (.index e i) rest₂ with
        | .error e => .error e
        | .ok p => .ok (p.widen (by simp; omega))
  | ⟨.mark .leftParen, _⟩ :: rest =>
    match listUpTo .rightParen rest with
    | .error e => .error e
    | .ok ⟨args, rest₁, h₁⟩ =>
      match postfixTail (.call e args) rest₁ with
      | .error e => .error e
      | .ok p => .ok (p.widen (by simp; omega))
  | ts => .ok ⟨e, ts, by omega⟩
termination_by 7 * ts.length + 0

/-- Parses expressions between commas up to a closing mark; a comma may stand before it. -/
def listUpTo (close : Mark) (ts : List Located) : Step (List Expr) ts.length :=
  match hc : eat? close ts with
  | some rest => .ok ⟨[], rest, eat?_length hc⟩
  | none =>
    match expression ts with
    | .error e => .error e
    | .ok ⟨e, rest, h⟩ =>
      match hm : eat? .comma rest with
      | some rest' =>
        have := eat?_length hm
        match listUpTo close rest' with
        | .error e => .error e
        | .ok p => .ok ((p.map (e :: ·)).widen (by omega))
      | none =>
        match expect close rest with
        | .error e => .error e
        | .ok p => .ok ((p.map fun _ => [e]).widen (by omega))
termination_by 7 * ts.length + 6

/-- Parses a constant, a name, or a form in brackets. -/
def primary (ts : List Located) : Step Expr ts.length :=
  match ts with
  | ⟨.number f, _⟩ :: rest => .ok ⟨.lit (Value.number f), rest, by simp⟩
  | ⟨.str s, _⟩ :: rest => .ok ⟨.lit (.str s), rest, by simp⟩
  | ⟨.ident name, _⟩ :: rest => .ok ⟨Expr.ofName name, rest, by simp⟩
  | ⟨.mark .leftParen, _⟩ :: rest =>
    match expression rest with
    | .error e => .error e
    | .ok ⟨e, rest₁, h₁⟩ =>
      match expect .rightParen rest₁ with
      | .error e => .error e
      | .ok p => .ok ((p.map fun _ => e).widen (by simp; omega))
  | ⟨.mark .leftBracket, _⟩ :: rest =>
    match listUpTo .rightBracket rest with
    | .error e => .error e
    | .ok p => .ok ((p.map .array).widen (by simp))
  | ⟨.mark .leftBrace, _⟩ :: rest =>
    match objectFields rest with
    | .error e => .error e
    | .ok p => .ok ((p.map .object).widen (by simp))
  | ts => .error (unexpectedFirst ts)
termination_by 7 * ts.length + 0

/-- Parses the fields of an object after its opening brace. A key without a value stands for the
    name it spells. -/
def objectFields (ts : List Located) : Step (List (String × Expr)) ts.length :=
  match hb : eat? .rightBrace ts with
  | some rest => .ok ⟨[], rest, eat?_length hb⟩
  | none =>
    match ts with
    | [] => .error .unexpectedEnd
    | t :: rest =>
      match fieldKey? t.token with
      | none => .error (.unexpectedToken t)
      | some key =>
        match fieldValue key rest with
        | .error e => .error e
        | .ok ⟨value, rest₁, h₁⟩ =>
          match hm : eat? .comma rest₁ with
          | some rest₂ =>
            have := eat?_length hm
            match objectFields rest₂ with
            | .error e => .error e
            | .ok p => .ok ((p.map ((key, value) :: ·)).widen (by simp; omega))
          | none =>
            match expect .rightBrace rest₁ with
            | .error e => .error e
            | .ok p => .ok ((p.map fun _ => [(key, value)]).widen (by simp; omega))
termination_by 7 * ts.length + 6

/-- Parses the value of a field after its key. -/
def fieldValue (key : String) (ts : List Located) : Step Expr (ts.length + 1) :=
  match hc : eat? .colon ts with
  | none => .ok ⟨.ident key, ts, by omega⟩
  | some rest =>
    have := eat?_length hc
    match expression rest with
    | .error e => .error e
    | .ok p => .ok (p.widen (by omega))
termination_by 7 * ts.length + 6

end

/-- Parses a complete expression: no token may be left. -/
def Expr.parse (source : String) : Except SyntaxError Expr :=
  match tokenize source with
  | .error e => .error e
  | .ok tokens =>
    match expression tokens with
    | .error e => .error e
    | .ok ⟨e, [], _⟩ => .ok e
    | .ok ⟨_, t :: _, _⟩ => .error (.unexpectedToken t)

end ReactiveView
