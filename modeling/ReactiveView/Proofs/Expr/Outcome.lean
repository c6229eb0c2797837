import ReactiveView.Expr.Parser

/-! # Steps without their bounds

  The steps of the parser carry a bound on the tokens that they leave. Without
  it a step comes to an error, or to a result and the tokens that are left. The
  equations below say what each step comes to in terms of what the steps that
  it calls come to.
-/

namespace ReactiveView

namespace Step

variable {α β : Type} {m n : Nat}

/-- A step without the bound on what it leaves. -/
def outcome (s : Step α n) : Except SyntaxError (α × List Located) :=
  s.map fun p => (p.result, p.rest)

@[simp] theorem outcome_error (e : SyntaxError) : outcome (.error e : Step α n) = .error e := rfl

@[simp] theorem outcome_ok (p : Parsed α n) : outcome (.ok p) = .ok (p.result, p.rest) := rfl

@[simp] theorem error_bind (e : SyntaxError) (f : α → Except SyntaxError β) :
    (Except.error e >>= f) = .error e := rfl

@[simp] theorem ok_bind (a : α) (f : α → Except SyntaxError β) : (Except.ok a >>= f) = f a := rfl

@[simp] theorem pure_eq (a : α) : (pure a : Except SyntaxError α) = .ok a := rfl

theorem outcome_expect (m : Mark) (ts : List Located) : outcome (expect m ts) =
    match eat? m ts with
    | some rest => .ok ((), rest)
    | none => .error (unexpectedFirst ts) := by
  unfold expect
  split <;> simp [*]

theorem outcome_expression (ts : List Located) : outcome (expression ts) =
    match arrowParams? ts with
    | some (params, body) =>
      match eat? .leftBrace body with
      | some inside => do
        let (es, rest) ← outcome (statements inside)
        return (.lambda params (.block es), rest)
      | none => do
        let (e, rest) ← outcome (expression body)
        return (.lambda params e, rest)
    | none => outcome (conditional ts) := by
  rw [expression]
  split
  · split
    · split <;> simp [*, Parsed.map, Parsed.widen]
    · split <;> simp [*, Parsed.map, Parsed.widen]
  · simp [*]

theorem outcome_statements (ts : List Located) : outcome (statements ts) =
    match eat? .semicolon ts with
    | some rest => outcome (statements rest)
    | none =>
      match eat? .rightBrace ts with
      | some rest => .ok ([], rest)
      | none => do
        let (e, rest) ← outcome (expression ts)
        let (es, rest) ← outcome (statements rest)
        return (e :: es, rest) := by
  rw [statements]
  split
  · split <;> simp [*, Parsed.widen]
  · split
    · simp [*]
    · split
      · simp [*]
      · split <;> simp [*, Parsed.map, Parsed.widen]

theorem outcome_conditional (ts : List Located) : outcome (conditional ts) = (do
    let (test, rest) ← outcome (binary 1 ts)
    match eat? .question rest with
    | none => return (test, rest)
    | some rest =>
      let (consequent, rest) ← outcome (expression rest)
      let (_, rest) ← outcome (expect .colon rest)
      let (alternate, rest) ← outcome (expression rest)
      return (.cond test consequent alternate, rest)) := by
  rw [conditional]
  split
  · simp [*]
  · split
    · simp [*]
    · split
      · simp [*]
      · split
        · simp [*]
        · split <;> simp [*, Parsed.map, Parsed.widen]

theorem outcome_binary (least : Nat) (ts : List Located) : outcome (binary least ts) = (do
    let (left, rest) ← outcome (unary ts)
    outcome (binaryTail least left rest)) := by
  rw [binary]
  split
  · simp [*]
  · split <;> simp [*, Parsed.widen]

theorem outcome_binaryTail (least : Nat) (left : Expr) (ts : List Located) :
    outcome (binaryTail least left ts) =
    match binaryOp? least ts with
    | none => .ok (left, ts)
    | some (op, rest) => (do
      let (right, rest) ← outcome (binary (op.precedence + 1) rest)
      outcome (binaryTail least (.binary op left right) rest)) := by
  rw [binaryTail]
  split
  · simp [*]
  · split
    · simp [*]
    · split <;> simp [*, Parsed.widen]

theorem outcome_unary (ts : List Located) :
    outcome (unary ts) =
    match unaryOp? ts with
    | some (op, rest) => do
      let (e, rest) ← outcome (unary rest)
      return (.unary op e, rest)
    | none => outcome (postfixed ts) := by
  rw [unary]
  split
  · split <;> simp [*, Parsed.map, Parsed.widen]
  · simp [*]

theorem outcome_postfixed (ts : List Located) : outcome (postfixed ts) = (do
    let (e, rest) ← outcome (primary ts)
    outcome (postfixTail e rest)) := by
  rw [postfixed]
  split
  · simp [*]
  · split <;> simp [*, Parsed.widen]

theorem outcome_postfixTail_dot (e : Expr) (ts : List Located) (offset : Nat) :
    outcome (postfixTail e (⟨.mark .dot, offset⟩ :: ts)) =
    match ts with
    | ⟨.ident name, _⟩ :: rest => outcome (postfixTail (.member e name) rest)
    | ts => .error (unexpectedFirst ts) := by
  split
  · rw [postfixTail]
    split <;> simp [*, Parsed.widen]
  · next h =>
    rw [postfixTail]
    · simp
    · exact h

theorem outcome_postfixTail_bracket (e : Expr) (ts : List Located) (offset : Nat) :
    outcome (postfixTail e (⟨.mark .leftBracket, offset⟩ :: ts)) = (do
      let (i, rest) ← outcome (expression ts)
      let (_, rest) ← outcome (expect .rightBracket rest)
      outcome (postfixTail (.index e i) rest)) := by
  rw [postfixTail]
  split
  · simp [*]
  · split
    · simp [*]
    · split <;> simp [*, Parsed.widen]

theorem outcome_postfixTail_paren (e : Expr) (ts : List Located) (offset : Nat) :
    outcome (postfixTail e (⟨.mark .leftParen, offset⟩ :: ts)) = (do
      let (args, rest) ← outcome (listUpTo .rightParen ts)
      outcome (postfixTail (.call e args) rest)) := by
  rw [postfixTail]
  split
  · simp [*]
  · split <;> simp [*, Parsed.widen]

theorem outcome_postfixTail (e : Expr) (ts : List Located) (hdot : eat? .dot ts = none)
    (hbracket : eat? .leftBracket ts = none) (hparen : eat? .leftParen ts = none) :
    outcome (postfixTail e ts) = .ok (e, ts) := by
  rw [postfixTail]
  · simp
  all_goals
    intros
    subst_vars
    simp [eat?] at *

theorem outcome_listUpTo (close : Mark) (ts : List Located) : outcome (listUpTo close ts) =
    match eat? close ts with
    | some rest => .ok ([], rest)
    | none => (do
      let (e, rest) ← outcome (expression ts)
      match eat? .comma rest with
      | some rest =>
        let (es, rest) ← outcome (listUpTo close rest)
        return (e :: es, rest)
      | none =>
        let (_, rest) ← outcome (expect close rest)
        return ([e], rest)) := by
  rw [listUpTo]
  split
  · simp [*]
  · split
    · simp [*]
    · split
      · split <;> simp [*, Parsed.map, Parsed.widen]
      · split <;> simp [*, Parsed.map, Parsed.widen]

theorem outcome_primary (ts : List Located) : outcome (primary ts) =
    match ts with
    | [] => .error .unexpectedEnd
    | t :: rest =>
      match t.token with
      | .number f => .ok (.lit (Value.number f), rest)
      | .str s => .ok (.lit (.str s), rest)
      | .ident name => .ok (Expr.ofName name, rest)
      | .mark .leftParen => (do
        let (e, rest) ← outcome (expression rest)
        let (_, rest) ← outcome (expect .rightParen rest)
        return (e, rest))
      | .mark .leftBracket => (do
        let (es, rest) ← outcome (listUpTo .rightBracket rest)
        return (.array es, rest))
      | .mark .leftBrace => (do
        let (fields, rest) ← outcome (objectFields rest)
        return (.object fields, rest))
      | _ => .error (.unexpectedToken t) := by
  rw [primary.eq_def]
  split
  · rfl
  · rfl
  · rfl
  · split
    · simp [*]
    · split <;> simp [*, Parsed.map, Parsed.widen]
  · split <;> simp [*, Parsed.map, Parsed.widen]
  · split <;> simp [*, Parsed.map, Parsed.widen]
  · next hnumber hstr hident hparen hbracket hbrace =>
    cases ts with
    | nil => rfl
    | cons t rest =>
      obtain ⟨token, offset⟩ := t
      simp only [outcome_error, unexpectedFirst]
      split <;> simp_all

theorem outcome_objectFields (ts : List Located) : outcome (objectFields ts) =
    match eat? .rightBrace ts with
    | some rest => .ok ([], rest)
    | none =>
      match ts with
      | [] => .error .unexpectedEnd
      | t :: rest =>
        match fieldKey? t.token with
        | none => .error (.unexpectedToken t)
        | some key => (do
          let (value, rest) ← outcome (fieldValue key rest)
          match eat? .comma rest with
          | some rest =>
            let (fields, rest) ← outcome (objectFields rest)
            return ((key, value) :: fields, rest)
          | none =>
            let (_, rest) ← outcome (expect .rightBrace rest)
            return ([(key, value)], rest)) := by
  rw [objectFields]
  split
  · simp [*]
  · split
    · simp [*]
    · split
      · simp [*]
      · split
        · simp [*]
        · split
          · split <;> simp [*, Parsed.map, Parsed.widen]
          · split <;> simp [*, Parsed.map, Parsed.widen]

theorem outcome_fieldValue (key : String) (ts : List Located) : outcome (fieldValue key ts) =
    match eat? .colon ts with
    | none => .ok (.ident key, ts)
    | some rest => outcome (expression rest) := by
  rw [fieldValue]
  split
  · simp [*]
  · split <;> simp [*, Parsed.widen]

end Step

end ReactiveView
