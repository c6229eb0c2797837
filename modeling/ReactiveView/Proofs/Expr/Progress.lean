import ReactiveView.Proofs.Cursor
import ReactiveView.Proofs.Expr.Outcome

/-! # The parser always advances

  The grammar calls itself in circles, and a rule that called itself where it
  started would never end. The parser here keeps its place as a position in a
  list of tokens, and nothing in its text says that it ends: a `Cursor` may
  go on for ever.

  * `advances`: from every position, every rule comes to an error or to a
    position further on and not past the end. It is what the step of the same
    name comes to on the tokens that are left. At one position the rules call
    each other in one order only, so the induction is on how many are left.
  * `every_rule_advances`: this, and that the lookahead for parameters ends and
    moves the position behind an arrow or not at all.
-/

namespace ReactiveView

/-! ## §1. Reading at a position -/

/-- A list of tokens that is read by positions. -/
abbrev TokenList := List Located

/-- A parser that keeps its place in a list of tokens as a position. -/
abbrev TokenCursor (α : Type) := Cursor SyntaxError α

namespace TokenList

variable (tokens : TokenList)

/-- The token at a position. -/
def tokenAt (i : Nat) : Option Token := (tokens[i]?).map (·.token)

/-- Whether a mark stands at a position. -/
def stands (m : Mark) (i : Nat) : Bool :=
  match tokens.tokenAt i with
  | some (.mark m') => m' = m
  | _ => false

/-- Takes a token. -/
def next : TokenCursor Located := do
  match tokens[← get]? with
  | some t =>
    modify (· + 1)
    return t
  | none => throw .unexpectedEnd

/-- Takes a mark, if it comes next. -/
def eat (m : Mark) : TokenCursor Bool := do
  if tokens.stands m (← get) then
    modify (· + 1)
    return true
  else return false

/-- Demands a mark. -/
def expect (m : Mark) : TokenCursor Unit := do
  let t ← tokens.next
  match t.token with
  | .mark m' => if m' = m then return () else throw (.unexpectedToken t)
  | _ => throw (.unexpectedToken t)

/-- Skips semicolons. -/
def semicolons (tokens : TokenList) : TokenCursor Unit := do
  if ← tokens.eat .semicolon then tokens |>.semicolons
partial_fixpoint

/-- The names of a parameter list and how far ahead its closing parenthesis stands, beginning so
    far ahead. -/
def paramNames (tokens : TokenList) (ahead : Nat) : TokenCursor (Option (List String × Nat)) := do
  let pos ← get
  match tokens.tokenAt (pos + ahead) with
  | some (.mark .rightParen) => return some ([], ahead)
  | some (.ident name) =>
    match tokens.tokenAt (pos + (ahead + 1)) with
    | some (.mark .rightParen) => return some ([name], ahead + 1)
    | some (.mark .comma) =>
      let more ← tokens |>.paramNames (ahead + 2)
      return more.map fun (names, close) => (name :: names, close)
    | _ => return none
  | _ => return none
partial_fixpoint

/-- Takes the parameters of a function and its arrow, if a function starts here. -/
def arrowParams : TokenCursor (Option (List String)) := do
  let pos ← get
  match tokens.tokenAt pos with
  | some (.ident name) =>
    if tokens.stands .arrow (pos + 1) then
      set (pos + 2)
      return some [name]
    else return none
  | some (.mark .leftParen) =>
    match ← tokens |>.paramNames 1 with
    | some (names, close) =>
      if tokens.stands .arrow (pos + close + 1) then
        set (pos + close + 2)
        return some names
      else return none
    | none => return none
  | _ => return none

mutual

/-- Parses an expression. -/
def expression (tokens : TokenList) : TokenCursor Expr := do
  match ← tokens.arrowParams with
  | some params =>
    if tokens.stands .leftBrace (← get) then return .lambda params (← tokens |>.block)
    else return .lambda params (← tokens |>.expression)
  | none => tokens |>.conditional
partial_fixpoint

/-- Parses a block. -/
def block (tokens : TokenList) : TokenCursor Expr := do
  tokens.expect .leftBrace
  return .block (← tokens |>.statements)
partial_fixpoint

/-- Parses the statements of a block after its opening brace. -/
def statements (tokens : TokenList) : TokenCursor (List Expr) := do
  tokens |>.semicolons
  if ← tokens.eat .rightBrace then return []
  else
    let e ← tokens |>.expression
    return e :: (← tokens |>.statements)
partial_fixpoint

/-- Parses a choice or what is tighter. -/
def conditional (tokens : TokenList) : TokenCursor Expr := do
  let test ← tokens |>.binary 1
  if ← tokens.eat .question then
    let consequent ← tokens |>.expression
    tokens.expect .colon
    return .cond test consequent (← tokens |>.expression)
  else return test
partial_fixpoint

/-- Parses operands joined by operators that bind at least as tightly as `least`. -/
def binary (tokens : TokenList) (least : Nat) : TokenCursor Expr := do
  tokens |>.operators least (← tokens |>.unary)
partial_fixpoint

/-- Goes on after a left operand. -/
def operators (tokens : TokenList) (least : Nat) (left : Expr) : TokenCursor Expr := do
  match tokens.tokenAt (← get) with
  | some (.mark m) =>
    match BinaryOp.ofMark? m with
    | some op =>
      if least ≤ op.precedence then
        modify (· + 1)
        let right ← tokens |>.binary (op.precedence + 1)
        tokens |>.operators least (.binary op left right)
      else return left
    | none => return left
  | _ => return left
partial_fixpoint

/-- Parses an operand with its operators in front. -/
def unary (tokens : TokenList) : TokenCursor Expr := do
  match tokens.tokenAt (← get) with
  | some (.mark m) =>
    match UnaryOp.ofMark? m with
    | some op =>
      modify (· + 1)
      return .unary op (← tokens |>.unary)
    | none => tokens |>.postfixed
  | _ => tokens |>.postfixed
partial_fixpoint

/-- Parses a primary expression and the accesses and calls behind it. -/
def postfixed (tokens : TokenList) : TokenCursor Expr := do
  tokens |>.accesses (← tokens |>.primary)
partial_fixpoint

/-- Goes on with the accesses and calls behind an expression. -/
def accesses (tokens : TokenList) (e : Expr) : TokenCursor Expr := do
  if ← tokens.eat .dot then
    let t ← tokens.next
    match t.token with
    | .ident name => tokens |>.accesses (.member e name)
    | _ => throw (.unexpectedToken t)
  else if ← tokens.eat .leftBracket then
    let i ← tokens |>.expression
    tokens.expect .rightBracket
    tokens |>.accesses (.index e i)
  else if ← tokens.eat .leftParen then
    tokens |>.accesses (.call e (← tokens |>.list .rightParen))
  else return e
partial_fixpoint

/-- Parses expressions between commas up to a closing mark. -/
def list (tokens : TokenList) (close : Mark) : TokenCursor (List Expr) := do
  if ← tokens.eat close then return []
  else
    let e ← tokens |>.expression
    if ← tokens.eat .comma then return e :: (← tokens |>.list close)
    else
      tokens.expect close
      return [e]
partial_fixpoint

/-- Parses a constant, a name, or a form in brackets. -/
def primary (tokens : TokenList) : TokenCursor Expr := do
  let t ← tokens.next
  match t.token with
  | .number f => return .lit (Value.number f)
  | .str s => return .lit (.str s)
  | .ident name => return Expr.ofName name
  | .mark .leftParen =>
    let e ← tokens |>.expression
    tokens.expect .rightParen
    return e
  | .mark .leftBracket => return .array (← tokens |>.list .rightBracket)
  | .mark .leftBrace => tokens |>.object
  | _ => throw (.unexpectedToken t)
partial_fixpoint

/-- Parses an object after its opening brace. -/
def object (tokens : TokenList) : TokenCursor Expr := do
  return .object (← tokens |>.fields)
partial_fixpoint

/-- Parses the fields of an object after its opening brace. -/
def fields (tokens : TokenList) : TokenCursor (List (String × Expr)) := do
  if ← tokens.eat .rightBrace then return []
  else
    let t ← tokens.next
    match fieldKey? t.token with
    | none => throw (.unexpectedToken t)
    | some key =>
      let value ← tokens |>.fieldValue key
      if ← tokens.eat .comma then return (key, value) :: (← tokens |>.fields)
      else
        tokens.expect .rightBrace
        return [(key, value)]
partial_fixpoint

/-- Parses the value of a field after its key. -/
def fieldValue (tokens : TokenList) (key : String) : TokenCursor Expr := do
  if ← tokens.eat .colon then tokens |>.expression else return .ident key
partial_fixpoint

end

end TokenList

/-! ## §2. Following the tokens that are left -/

variable {tokens : List Located} {α β : Type} {pos pos' least mid : Nat} {m : Mark}
  {t : Located} {rest : List Located}

theorem lt_length_of_drop (h : tokens.drop pos = t :: rest) : pos < tokens.length := by
  have hlen : (tokens.drop pos).length = rest.length + 1 := congrArg List.length h
  rw [List.length_drop] at hlen
  omega

theorem getElem?_of_drop (h : tokens.drop pos = t :: rest) : tokens[pos]? = some t := by
  rw [← List.head?_drop, h]
  rfl

theorem drop_succ_of_drop (h : tokens.drop pos = t :: rest) : tokens.drop (pos + 1) = rest := by
  rw [← List.drop_drop, h]
  rfl

namespace TokenList

open Cursor (comesTo_pure comesTo_bind_get comesTo_bind)

theorem tokenAt_of_drop (h : tokens.drop pos = t :: rest) :
    tokenAt tokens pos = some t.token := by
  rw [tokenAt, getElem?_of_drop h]
  rfl

theorem drop_of_tokenAt {token : Token} (h : tokenAt tokens pos = some token) :
    ∃ offset, tokens.drop pos = ⟨token, offset⟩ :: tokens.drop (pos + 1) := by
  obtain ⟨t, ht, rfl⟩ := Option.map_eq_some_iff.mp h
  obtain ⟨hlt, rfl⟩ := List.getElem?_eq_some_iff.mp ht
  exact ⟨_, List.drop_eq_getElem_cons hlt⟩

theorem lt_length_of_tokenAt {token : Token} (h : tokenAt tokens pos = some token) :
    pos < tokens.length := by
  obtain ⟨offset, hdrop⟩ := drop_of_tokenAt h
  exact lt_length_of_drop hdrop

theorem tokenAt_of_drop_nil (h : tokens.drop pos = []) : tokenAt tokens pos = none := by
  rw [tokenAt, List.getElem?_eq_none (List.drop_eq_nil_iff.mp h)]
  rfl

theorem eat?_drop (m : Mark) (pos : Nat) : eat? m (tokens.drop pos) =
    if stands tokens m pos then some (tokens.drop (pos + 1)) else none := by
  cases h : tokens.drop pos with
  | nil => simp [eat?, stands, tokenAt_of_drop_nil h]
  | cons t rest =>
    obtain ⟨token, offset⟩ := t
    rw [drop_succ_of_drop h, stands, tokenAt_of_drop h]
    cases token <;> simp [eat?]

theorem drop_of_stands (h : stands tokens m pos) :
    ∃ offset, tokens.drop pos = ⟨.mark m, offset⟩ :: tokens.drop (pos + 1) := by
  unfold stands at h
  split at h
  · next m' hm =>
    obtain rfl := of_decide_eq_true h
    exact drop_of_tokenAt hm
  · cases h

theorem unaryOp?_drop (tokens : List Located) (pos : Nat) : unaryOp? (tokens.drop pos) =
    match tokenAt tokens pos with
    | some (.mark m) => (UnaryOp.ofMark? m).map fun op => (op, tokens.drop (pos + 1))
    | _ => none := by
  cases h : tokens.drop pos with
  | nil => rw [tokenAt_of_drop_nil h]; rfl
  | cons t rest =>
    obtain ⟨token, offset⟩ := t
    rw [tokenAt_of_drop h, drop_succ_of_drop h]
    cases token <;> rfl

theorem binaryOp?_drop (least : Nat) (tokens : List Located) (pos : Nat) :
    binaryOp? least (tokens.drop pos) =
    match tokenAt tokens pos with
    | some (.mark m) =>
      match BinaryOp.ofMark? m with
      | some op => if least ≤ op.precedence then some (op, tokens.drop (pos + 1)) else none
      | none => none
    | _ => none := by
  cases h : tokens.drop pos with
  | nil => rw [tokenAt_of_drop_nil h]; rfl
  | cons t rest =>
    obtain ⟨token, offset⟩ := t
    rw [tokenAt_of_drop h, drop_succ_of_drop h]
    cases token <;> rfl

theorem comesTo_eat (m : Mark) (pos : Nat) : (eat tokens m).comesTo pos =
    if stands tokens m pos then some (.ok (true, pos + 1)) else some (.ok (false, pos)) := by
  show (if stands tokens m pos then _ else _ : TokenCursor Bool).comesTo pos = _
  split <;> rfl

theorem lt_length_of_stands (h : stands tokens m pos) : pos < tokens.length := by
  obtain ⟨offset, hdrop⟩ := drop_of_stands h
  exact lt_length_of_drop hdrop

/-- The tokens from a position on, which is not past the end of the list. -/
def Ahead (tokens : List Located) (pos : Nat) (rest : List Located) : Prop :=
  pos ≤ tokens.length ∧ rest = tokens.drop pos

/-- From a position, the parser comes to what a step comes to on the tokens from there on, and to a
    position that is `least` or later and not past the end of the list. -/
abbrev Follows (tokens : List Located) (pos least : Nat) (run : TokenCursor α)
    (outcome : Except SyntaxError (α × List Located)) : Prop :=
  Cursor.Follows (Ahead tokens) pos least run outcome

namespace Follows

open Cursor.Follows (of_eq failure bind_get)

variable {run : TokenCursor α} {k : α → TokenCursor β} {o : Except SyntaxError (α × List Located)}
  {o' : Except SyntaxError (β × List Located)}
  {f : α × List Located → Except SyntaxError (β × List Located)}

theorem result (a : α) (hle : least ≤ pos) (hpos : pos ≤ tokens.length) :
    Follows tokens pos least (pure a) (.ok (a, tokens.drop pos)) :=
  Cursor.Follows.result a hle ⟨hpos, rfl⟩

theorem bind (h : Follows tokens pos mid run o)
    (hk : ∀ a next, mid ≤ next → next ≤ tokens.length →
      Follows tokens next least (k a) (f (a, tokens.drop next))) :
    Follows tokens pos least (run >>= k) (o >>= f) :=
  Cursor.Follows.bind h fun a next _ hmid ⟨hlen, hrest⟩ => hrest ▸ hk a next hmid hlen

theorem bind_modify {k : Unit → TokenCursor β} {g : Nat → Nat}
    (h : Follows tokens (g pos) least (k ()) o') : Follows tokens pos least (modify g >>= k) o' :=
  of_eq rfl h

theorem bind_eat {k : Bool → TokenCursor β} (m : Mark)
    (htrue : stands tokens m pos → Follows tokens (pos + 1) least (k true) o')
    (hfalse : ¬ stands tokens m pos → Follows tokens pos least (k false) o') :
    Follows tokens pos least (eat tokens m >>= k) o' := by
  by_cases h : stands tokens m pos
  · refine of_eq ?_ (htrue h)
    rw [comesTo_bind, comesTo_eat, if_pos h]
    rfl
  · refine of_eq ?_ (hfalse h)
    rw [comesTo_bind, comesTo_eat, if_neg h]
    rfl

theorem bind_next {k : Located → TokenCursor β}
    (hnil : tokens.drop pos = [] → o' = .error .unexpectedEnd)
    (hcons : ∀ t, tokens.drop pos = t :: tokens.drop (pos + 1) → pos < tokens.length →
      Follows tokens (pos + 1) least (k t) o') :
    Follows tokens pos least (next tokens >>= k) o' := by
  cases h : tokens.drop pos with
  | nil =>
    rw [hnil h]
    show (next tokens >>= k).comesTo pos = _
    have hnone : tokens[pos]? = none := List.getElem?_eq_none (List.drop_eq_nil_iff.mp h)
    have hrun : (next tokens).comesTo pos = some (.error .unexpectedEnd) := by
      show (match tokens[pos]? with | some t => _ | none => _ : TokenCursor Located).comesTo pos = _
      rw [hnone]
      rfl
    rw [comesTo_bind, hrun]
    rfl
  | cons t rest =>
    obtain rfl := drop_succ_of_drop h
    refine of_eq ?_ (hcons t h (lt_length_of_drop h))
    have hrun : (next tokens).comesTo pos = some (.ok (t, pos + 1)) := by
      show (match tokens[pos]? with | some t => _ | none => _ : TokenCursor Located).comesTo pos = _
      rw [getElem?_of_drop h]
      rfl
    rw [comesTo_bind, hrun]
    rfl

theorem expect (m : Mark) (pos : Nat) : Follows tokens pos (pos + 1) (TokenList.expect tokens m)
    (Step.outcome (ReactiveView.expect m (tokens.drop pos))) := by
  rw [Step.outcome_expect]
  refine bind_next (fun h => by rw [h]; rfl) fun t h hlt => ?_
  obtain ⟨token, offset⟩ := t
  rw [h]
  cases token with
  | mark m' =>
    by_cases hm : m' = m
    · simp only [eat?, hm, if_true]
      exact result () (Nat.le_refl _) hlt
    · simp only [eat?, hm, if_false]
      exact failure _
  | _ => exact failure _

end Follows

/-! ## §3. The lookahead for parameters -/

theorem paramNames_comesTo (tokens : List Located) (pos ahead : Nat) : ∃ found,
    (paramNames tokens ahead).comesTo pos = some (.ok (found, pos)) ∧
    paramNames? (tokens.drop (pos + ahead)) =
      found.map (fun (names, close) => (names, tokens.drop (pos + close + 1))) ∧
    ∀ names close, found = some (names, close) → ahead ≤ close := by
  generalize hts : tokens.drop (pos + ahead) = ts
  fun_induction paramNames? ts generalizing ahead with
  | case1 offset rest =>
    refine ⟨some ([], ahead), ?_, ?_, ?_⟩
    · rw [paramNames, comesTo_bind_get, tokenAt_of_drop hts]
      rfl
    · simp [drop_succ_of_drop hts]
    · simp
  | case2 name offset offset' rest =>
    have hts' := drop_succ_of_drop hts
    refine ⟨some ([name], ahead + 1), ?_, ?_, ?_⟩
    · rw [paramNames, comesTo_bind_get]
      simp only [tokenAt_of_drop hts, ← Nat.add_assoc, tokenAt_of_drop hts', comesTo_pure]
    · simp [← Nat.add_assoc, drop_succ_of_drop hts']
    · simp
  | case3 name offset offset' rest ih =>
    have hts' := drop_succ_of_drop hts
    obtain ⟨found, hrun, hfound, hle⟩ := ih (ahead + 2) (drop_succ_of_drop hts')
    refine ⟨found.map fun (names, close) => (name :: names, close), ?_, ?_, ?_⟩
    · rw [paramNames, comesTo_bind_get]
      simp only [tokenAt_of_drop hts, ← Nat.add_assoc, tokenAt_of_drop hts']
      rw [comesTo_bind, hrun]
      rfl
    · rw [hfound, Option.map_map, Option.map_map]
      rfl
    · intro names close h
      obtain ⟨⟨names', close'⟩, rfl, heq⟩ := Option.map_eq_some_iff.mp h
      obtain ⟨-, rfl⟩ := Prod.mk.inj heq
      have := hle names' close' rfl
      omega
  | case4 ts hclose hname hnames =>
    -- The tokens that would make up a list are excluded one by one.
    refine ⟨none, ?_, rfl, by simp⟩
    rw [paramNames, comesTo_bind_get]
    split
    · next h =>
      obtain ⟨offset, hdrop⟩ := drop_of_tokenAt h
      exact absurd (hts.symm.trans hdrop) (hclose _ _)
    · next name h =>
      obtain ⟨offset, hdrop⟩ := drop_of_tokenAt h
      rw [← Nat.add_assoc]
      split
      · next h' =>
        obtain ⟨offset', hdrop'⟩ := drop_of_tokenAt h'
        rw [hdrop'] at hdrop
        exact absurd (hts.symm.trans hdrop) (hname _ _ _ _)
      · next h' =>
        obtain ⟨offset', hdrop'⟩ := drop_of_tokenAt h'
        rw [hdrop'] at hdrop
        exact absurd (hts.symm.trans hdrop) (hnames _ _ _ _)
      · rfl
    · rfl

theorem arrowParams?_ident (name : String) (offset : Nat) (ts : List Located) :
    arrowParams? (⟨.ident name, offset⟩ :: ts) =
      (eat? .arrow ts).map fun rest => ([name], rest) := by
  unfold eat?
  split
  · next m offset' rest =>
    by_cases hm : m = .arrow
    · rw [hm, arrowParams?]
      rfl
    · rw [if_neg hm, arrowParams?]
      · rfl
      · rintro _ _ _ _ ⟨⟩
        exact hm rfl
      · simp
  · next h =>
    rw [arrowParams?]
    · rfl
    · rintro _ _ _ _ ⟨⟩
      exact h _ _ _ rfl
    · simp

theorem arrowParams?_paren (offset : Nat) (ts : List Located) :
    arrowParams? (⟨.mark .leftParen, offset⟩ :: ts) =
      (paramNames? ts).bind fun (names, rest) =>
        (eat? .arrow rest).map fun rest => (names, rest) := by
  rw [arrowParams?]
  cases paramNames? ts <;> rfl

/-- The position stays where it is if no function starts here, and is just behind an arrow
    otherwise. -/
theorem arrowParams_comesTo (tokens : List Located) (pos : Nat) : ∃ params next,
    (arrowParams tokens).comesTo pos = some (.ok (params, next)) ∧
    arrowParams? (tokens.drop pos) = params.map (fun names => (names, tokens.drop next)) ∧
    (params = none ∧ next = pos ∨
      params ≠ none ∧ pos < next ∧ next ≤ tokens.length ∧ stands tokens .arrow (next - 1)) := by
  rw [arrowParams, comesTo_bind_get]
  split
  · next name h =>
    obtain ⟨offset, hdrop⟩ := drop_of_tokenAt h
    rw [hdrop, arrowParams?_ident, eat?_drop]
    split
    · next harrow =>
      have := lt_length_of_stands harrow
      exact ⟨some [name], pos + 2, rfl, rfl, .inr ⟨by simp, by omega, this, harrow⟩⟩
    · exact ⟨none, pos, rfl, rfl, .inl ⟨rfl, rfl⟩⟩
  · next h =>
    obtain ⟨offset, hdrop⟩ := drop_of_tokenAt h
    obtain ⟨found, hrun, hfound, hle⟩ := paramNames_comesTo tokens pos 1
    rw [comesTo_bind, hrun, hdrop, arrowParams?_paren, hfound]
    match found, hle with
    | none, _ => exact ⟨none, pos, rfl, rfl, .inl ⟨rfl, rfl⟩⟩
    | some (names, close), hle =>
      have := hle names close rfl
      simp only [Option.map_some, Option.bind_some, eat?_drop]
      split
      · next harrow =>
        have := lt_length_of_stands harrow
        exact ⟨some names, pos + close + 2, rfl, rfl, .inr ⟨by simp, by omega, this, harrow⟩⟩
      · exact ⟨none, pos, rfl, rfl, .inl ⟨rfl, rfl⟩⟩
  · next hident hparen =>
    refine ⟨none, pos, rfl, ?_, .inl ⟨rfl, rfl⟩⟩
    rw [arrowParams?.eq_def]
    split
    · next h => exact absurd (tokenAt_of_drop h) (hident _)
    · next h => exact absurd (tokenAt_of_drop h) hparen
    · rfl

end TokenList

/-! ## §4. Every rule follows its step -/

open TokenList (Follows)

/-- What a block comes to on the tokens from its opening brace on. -/
def Step.ofBlock (ts : List Located) : Except SyntaxError (Expr × List Located) := do
  let (_, rest) ← Step.outcome (expect .leftBrace ts)
  let (es, rest) ← Step.outcome (statements rest)
  return (.block es, rest)

/-- What an object comes to on the tokens behind its opening brace. -/
def Step.ofObject (ts : List Located) : Except SyntaxError (Expr × List Located) := do
  let (fields, rest) ← Step.outcome (objectFields ts)
  return (.object fields, rest)

/-- At a position, every rule of the parser follows its step and takes at least one token. The rules
    that go on behind something may take none. -/
structure Advances (tokens : List Located) (pos : Nat) : Prop where
  /-- An expression. -/
  expression : Follows tokens pos (pos + 1) (TokenList.expression tokens)
    (Step.outcome (expression (tokens.drop pos)))
  /-- A block. -/
  block : Follows tokens pos (pos + 1) (TokenList.block tokens) (Step.ofBlock (tokens.drop pos))
  /-- The statements of a block. -/
  statements : Follows tokens pos (pos + 1) (TokenList.statements tokens)
    (Step.outcome (statements (tokens.drop pos)))
  /-- A choice. -/
  conditional : Follows tokens pos (pos + 1) (TokenList.conditional tokens)
    (Step.outcome (conditional (tokens.drop pos)))
  /-- Operands joined by operators. -/
  binary : ∀ least, Follows tokens pos (pos + 1) (TokenList.binary tokens least)
    (Step.outcome (binary least (tokens.drop pos)))
  /-- The operators behind an operand. -/
  operators : pos ≤ tokens.length → ∀ least left,
    Follows tokens pos pos (TokenList.operators tokens least left)
      (Step.outcome (binaryTail least left (tokens.drop pos)))
  /-- An operand. -/
  unary : Follows tokens pos (pos + 1) (TokenList.unary tokens)
    (Step.outcome (unary (tokens.drop pos)))
  /-- A primary expression and what is behind it. -/
  postfixed : Follows tokens pos (pos + 1) (TokenList.postfixed tokens)
    (Step.outcome (postfixed (tokens.drop pos)))
  /-- The accesses and calls behind an expression. -/
  accesses : pos ≤ tokens.length → ∀ e, Follows tokens pos pos (TokenList.accesses tokens e)
    (Step.outcome (postfixTail e (tokens.drop pos)))
  /-- A list. -/
  list : ∀ close, Follows tokens pos (pos + 1) (TokenList.list tokens close)
    (Step.outcome (listUpTo close (tokens.drop pos)))
  /-- A primary expression. -/
  primary : Follows tokens pos (pos + 1) (TokenList.primary tokens)
    (Step.outcome (primary (tokens.drop pos)))
  /-- An object behind its opening brace. -/
  object : Follows tokens pos (pos + 1) (TokenList.object tokens) (Step.ofObject (tokens.drop pos))
  /-- The fields of an object. -/
  fields : Follows tokens pos (pos + 1) (TokenList.fields tokens)
    (Step.outcome (objectFields (tokens.drop pos)))
  /-- The value of a field. -/
  fieldValue : pos ≤ tokens.length → ∀ key,
    Follows tokens pos pos (TokenList.fieldValue tokens key)
      (Step.outcome (fieldValue key (tokens.drop pos)))

theorem lambda_ofBlock (h : TokenList.stands tokens .leftBrace pos) (names : List String) :
    (do
      let (b, rest) ← Step.ofBlock (tokens.drop pos)
      return (Expr.lambda names b, rest)) = (do
      let (es, rest) ← Step.outcome (statements (tokens.drop (pos + 1)))
      return (Expr.lambda names (.block es), rest)) := by
  rw [Step.ofBlock, Step.outcome_expect, TokenList.eat?_drop, if_pos h]
  simp only [Step.ok_bind]
  cases Step.outcome (statements (tokens.drop (pos + 1))) <;> rfl

section Rules

open TokenList TokenList.Follows
open Cursor (comesTo_bind)
open Cursor.Follows (of_eq failure bind_get)

variable (later : ∀ q, pos < q → q ≤ tokens.length → Advances tokens q)

include later

theorem follows_primary : Follows tokens pos (pos + 1) (TokenList.primary tokens)
    (Step.outcome (primary (tokens.drop pos))) := by
  rw [TokenList.primary, Step.outcome_primary]
  refine bind_next (fun h => by rw [h]) fun t h hlt => ?_
  have hnext := later (pos + 1) (Nat.lt_succ_self pos) hlt
  rw [h]
  simp only
  cases t.token with
  | number f => exact result _ (Nat.le_refl _) hlt
  | str s => exact result _ (Nat.le_refl _) hlt
  | ident name => exact result _ (Nat.le_refl _) hlt
  | mark m =>
    cases m with
    | leftParen =>
      refine hnext.expression.bind fun e p hp _ => ?_
      exact (Follows.expect _ p).bind fun _ q hq hlen => result e (by omega) hlen
    | leftBracket =>
      exact (hnext.list _).bind fun es p hp hlen => result (Expr.array es) (by omega) hlen
    | leftBrace => exact hnext.object.mono (by omega)
    | _ => exact failure _

theorem follows_accesses (hpos : pos ≤ tokens.length) (e : Expr) :
    Follows tokens pos pos (TokenList.accesses tokens e)
      (Step.outcome (postfixTail e (tokens.drop pos))) := by
  have onward {p : Nat} (e : Expr) (hp : pos < p) (hlen : p ≤ tokens.length) :=
    ((later p hp hlen).accesses hlen e).mono (Nat.le_of_lt hp)
  rw [TokenList.accesses]
  refine bind_eat .dot (fun hdot => ?_) fun hdot => ?_
  · obtain ⟨offset, hdrop⟩ := drop_of_stands hdot
    rw [if_pos rfl, hdrop, Step.outcome_postfixTail_dot]
    refine bind_next (fun h => by rw [h]; rfl) fun t h hlt => ?_
    obtain ⟨token, offset⟩ := t
    rw [h]
    cases token with
    | ident name => exact onward _ (by omega) hlt
    | _ => exact failure _
  refine bind_eat .leftBracket (fun hbracket => ?_) fun hbracket => ?_
  · obtain ⟨offset, hdrop⟩ := drop_of_stands hbracket
    rw [if_pos rfl, hdrop, Step.outcome_postfixTail_bracket]
    have hnext := later (pos + 1) (Nat.lt_succ_self pos) (lt_length_of_stands hbracket)
    refine hnext.expression.bind fun i p hp _ => ?_
    exact (Follows.expect _ p).bind fun _ q hq hlen => onward _ (by omega) hlen
  refine bind_eat .leftParen (fun hparen => ?_) fun hparen => ?_
  · obtain ⟨offset, hdrop⟩ := drop_of_stands hparen
    rw [if_pos rfl, hdrop, Step.outcome_postfixTail_paren]
    have hnext := later (pos + 1) (Nat.lt_succ_self pos) (lt_length_of_stands hparen)
    exact (hnext.list _).bind fun args p hp hlen => onward _ (by omega) hlen
  rw [if_neg Bool.false_ne_true, Step.outcome_postfixTail]
  · exact result e (Nat.le_refl _) hpos
  · rw [eat?_drop, if_neg hdot]
  · rw [eat?_drop, if_neg hbracket]
  · rw [eat?_drop, if_neg hparen]

theorem follows_postfixed : Follows tokens pos (pos + 1) (TokenList.postfixed tokens)
    (Step.outcome (postfixed (tokens.drop pos))) := by
  rw [TokenList.postfixed, Step.outcome_postfixed]
  exact (follows_primary later).bind fun e p hp hlen =>
    ((later p hp hlen).accesses hlen e).mono hp

theorem follows_unary : Follows tokens pos (pos + 1) (TokenList.unary tokens)
    (Step.outcome (unary (tokens.drop pos))) := by
  have hpostfixed := follows_postfixed later
  rw [TokenList.unary, Step.outcome_unary, unaryOp?_drop]
  refine bind_get ?_
  split
  · next m hm =>
    have hnext := later (pos + 1) (Nat.lt_succ_self pos) (lt_length_of_tokenAt hm)
    cases UnaryOp.ofMark? m with
    | none => exact hpostfixed
    | some op =>
      refine bind_modify ?_
      exact hnext.unary.bind fun e p hp hlen => result (Expr.unary op e) (by omega) hlen
  · exact hpostfixed

theorem follows_operators (hpos : pos ≤ tokens.length) (least : Nat) (left : Expr) :
    Follows tokens pos pos (TokenList.operators tokens least left)
      (Step.outcome (binaryTail least left (tokens.drop pos))) := by
  have hstop : Follows tokens pos pos (pure left) (.ok (left, tokens.drop pos)) :=
    result left (Nat.le_refl _) hpos
  rw [TokenList.operators, Step.outcome_binaryTail, binaryOp?_drop]
  refine bind_get ?_
  split
  · next m hm =>
    have hnext := later (pos + 1) (Nat.lt_succ_self pos) (lt_length_of_tokenAt hm)
    cases BinaryOp.ofMark? m with
    | none => exact hstop
    | some op =>
      simp only
      split
      · refine bind_modify ?_
        exact (hnext.binary _).bind fun right p hp hlen =>
          ((later p (by omega) hlen).operators hlen _ _).mono (by omega)
      · exact hstop
  · exact hstop

theorem follows_binary (least : Nat) : Follows tokens pos (pos + 1) (TokenList.binary tokens least)
    (Step.outcome (binary least (tokens.drop pos))) := by
  rw [TokenList.binary, Step.outcome_binary]
  exact (follows_unary later).bind fun left p hp hlen =>
    ((later p hp hlen).operators hlen least left).mono hp

theorem follows_conditional : Follows tokens pos (pos + 1) (TokenList.conditional tokens)
    (Step.outcome (conditional (tokens.drop pos))) := by
  rw [TokenList.conditional, Step.outcome_conditional]
  refine (follows_binary later 1).bind fun test p hp hlen => ?_
  simp only [eat?_drop]
  refine bind_eat .question (fun hq => ?_) fun hq => ?_
  · simp only [if_pos hq, if_true]
    have hnext := later (p + 1) (by omega) (lt_length_of_stands hq)
    refine hnext.expression.bind fun consequent q hq _ => ?_
    refine (Follows.expect _ q).bind fun _ r hr hlen => ?_
    exact (later r (by omega) hlen).expression.bind fun alternate s hs hlen =>
      result _ (by omega) hlen
  · simp only [if_neg hq, Bool.false_eq_true, if_false]
    exact result test hp hlen

theorem follows_expression : Follows tokens pos (pos + 1) (TokenList.expression tokens)
    (Step.outcome (expression (tokens.drop pos))) := by
  rw [TokenList.expression, Step.outcome_expression]
  obtain ⟨params, p, hrun, hparams, hp⟩ := arrowParams_comesTo tokens pos
  have hstep (k : Option (List String) → TokenCursor Expr) :
      (arrowParams tokens >>= k).comesTo pos = (k params).comesTo p := by
    rw [comesTo_bind, hrun]
    rfl
  rw [hparams]
  rcases hp with ⟨rfl, rfl⟩ | ⟨hsome, hp, hlen, -⟩
  · exact of_eq (hstep _) (follows_conditional later)
  obtain ⟨names, rfl⟩ := Option.ne_none_iff_exists'.mp hsome
  have hbody := later p hp hlen
  refine of_eq (hstep _) (bind_get ?_)
  simp only [Option.map_some, eat?_drop]
  by_cases hbrace : stands tokens .leftBrace p
  · simp only [if_pos hbrace]
    rw [← lambda_ofBlock hbrace]
    exact hbody.block.bind fun b q hq hlen => result (Expr.lambda names b) (by omega) hlen
  · simp only [if_neg hbrace]
    exact hbody.expression.bind fun e q hq hlen => result (Expr.lambda names e) (by omega) hlen

theorem follows_statements : Follows tokens pos (pos + 1) (TokenList.statements tokens)
    (Step.outcome (statements (tokens.drop pos))) := by
  rw [TokenList.statements, Step.outcome_statements, eat?_drop, eat?_drop]
  -- The step skips one semicolon at a time; behind it the statements begin again.
  rw [semicolons]
  simp only [bind_assoc]
  refine bind_eat .semicolon (fun hsemi => ?_) fun hsemi => ?_
  · simp only [if_pos hsemi, if_true]
    rw [← TokenList.statements]
    have hnext := later (pos + 1) (Nat.lt_succ_self pos) (lt_length_of_stands hsemi)
    exact hnext.statements.mono (by omega)
  simp only [if_neg hsemi, Bool.false_eq_true, if_false, pure_bind]
  refine bind_eat .rightBrace (fun hbrace => ?_) fun hbrace => ?_
  · simp only [if_pos hbrace, if_true]
    exact result [] (Nat.le_refl _) (lt_length_of_stands hbrace)
  · simp only [if_neg hbrace, Bool.false_eq_true, if_false]
    refine (follows_expression later).bind fun e p hp hlen => ?_
    exact (later p hp hlen).statements.bind fun es q hq hlen => result (e :: es) (by omega) hlen

theorem follows_block : Follows tokens pos (pos + 1) (TokenList.block tokens)
    (Step.ofBlock (tokens.drop pos)) := by
  rw [TokenList.block, Step.ofBlock]
  refine (Follows.expect _ pos).bind fun _ p hp hlen => ?_
  exact (later p hp hlen).statements.bind fun es q hq hlen =>
    result (Expr.block es) (by omega) hlen

theorem follows_list (close : Mark) : Follows tokens pos (pos + 1) (TokenList.list tokens close)
    (Step.outcome (listUpTo close (tokens.drop pos))) := by
  rw [TokenList.list, Step.outcome_listUpTo, eat?_drop]
  refine bind_eat close (fun hclose => ?_) fun hclose => ?_
  · simp only [if_pos hclose, if_true]
    exact result [] (Nat.le_refl _) (lt_length_of_stands hclose)
  simp only [if_neg hclose, Bool.false_eq_true, if_false]
  refine (follows_expression later).bind fun e p hp hlen => ?_
  simp only [eat?_drop]
  refine bind_eat .comma (fun hcomma => ?_) fun hcomma => ?_
  · simp only [if_pos hcomma, if_true]
    have hnext := later (p + 1) (by omega) (lt_length_of_stands hcomma)
    exact (hnext.list close).bind fun es q hq hlen => result (e :: es) (by omega) hlen
  · simp only [if_neg hcomma, Bool.false_eq_true, if_false]
    exact (Follows.expect close p).bind fun _ q hq hlen => result [e] (by omega) hlen

theorem follows_fieldValue (hpos : pos ≤ tokens.length) (key : String) :
    Follows tokens pos pos (TokenList.fieldValue tokens key)
      (Step.outcome (fieldValue key (tokens.drop pos))) := by
  rw [TokenList.fieldValue, Step.outcome_fieldValue, eat?_drop]
  refine bind_eat .colon (fun hcolon => ?_) fun hcolon => ?_
  · simp only [if_pos hcolon, if_true]
    have hnext := later (pos + 1) (Nat.lt_succ_self pos) (lt_length_of_stands hcolon)
    exact hnext.expression.mono (by omega)
  · simp only [if_neg hcolon, Bool.false_eq_true, if_false]
    exact result _ (Nat.le_refl _) hpos

theorem follows_fields : Follows tokens pos (pos + 1) (TokenList.fields tokens)
    (Step.outcome (objectFields (tokens.drop pos))) := by
  rw [TokenList.fields, Step.outcome_objectFields, eat?_drop]
  refine bind_eat .rightBrace (fun hbrace => ?_) fun hbrace => ?_
  · simp only [if_pos hbrace, if_true]
    exact result [] (Nat.le_refl _) (lt_length_of_stands hbrace)
  simp only [if_neg hbrace, Bool.false_eq_true, if_false]
  refine bind_next (fun h => by rw [h]) fun t h hlt => ?_
  rw [h]
  simp only
  cases fieldKey? t.token with
  | none => exact failure _
  | some key =>
    have hnext := later (pos + 1) (Nat.lt_succ_self pos) hlt
    refine (hnext.fieldValue hlt key).bind fun value p hp hlen => ?_
    simp only [eat?_drop]
    refine bind_eat .comma (fun hcomma => ?_) fun hcomma => ?_
    · simp only [if_pos hcomma, if_true]
      have hmore := later (p + 1) (by omega) (lt_length_of_stands hcomma)
      exact hmore.fields.bind fun fs q hq hlen => result ((key, value) :: fs) (by omega) hlen
    · simp only [if_neg hcomma, Bool.false_eq_true, if_false]
      exact (Follows.expect _ p).bind fun _ q hq hlen => result [(key, value)] (by omega) hlen

theorem follows_object : Follows tokens pos (pos + 1) (TokenList.object tokens)
    (Step.ofObject (tokens.drop pos)) := by
  rw [TokenList.object, Step.ofObject]
  exact (follows_fields later).bind fun fs p hp hlen => result (Expr.object fs) (by omega) hlen

end Rules

/-- Every rule follows its step, from every position. At one position a rule calls only rules that
    stand above it; all others it calls where fewer tokens are left. -/
theorem advances (tokens : List Located) (pos : Nat) : Advances tokens pos :=
  have later : ∀ q, pos < q → q ≤ tokens.length → Advances tokens q := fun q _ _ =>
    advances tokens q
  { expression := follows_expression later
    block := follows_block later
    statements := follows_statements later
    conditional := follows_conditional later
    binary := follows_binary later
    operators := follows_operators later
    unary := follows_unary later
    postfixed := follows_postfixed later
    accesses := follows_accesses later
    list := follows_list later
    primary := follows_primary later
    object := follows_object later
    fields := follows_fields later
    fieldValue := follows_fieldValue later }
termination_by tokens.length - pos

/-! ## §5. The parser always advances -/

/-- From every position of every list of tokens, every rule of the parser comes to an error or to a
    position further on that is not past the end, the same as its step on the tokens that are left.
    The lookahead for parameters always comes to a result: it stays where it is if no function
    starts there, and stops just behind an arrow otherwise. -/
theorem every_rule_advances (tokens : List Located) (pos : Nat) :
    Advances tokens pos ∧
    ∃ params next, (TokenList.arrowParams tokens).comesTo pos = some (.ok (params, next)) ∧
      arrowParams? (tokens.drop pos) = params.map (fun names => (names, tokens.drop next)) ∧
      (params = none ∧ next = pos ∨
        params ≠ none ∧ pos < next ∧ next ≤ tokens.length ∧
          TokenList.stands tokens .arrow (next - 1)) :=
  ⟨advances tokens pos, TokenList.arrowParams_comesTo tokens pos⟩

end ReactiveView
