import ReactiveView.Proofs.Expr.Rules

/-! # Printing expressions with few parentheses

  An expression is printed as tokens. `Prints` relates it to all its printings,
  for it is open how an operator is written that has two marks, whether a key
  stands in quotes, and whether a single parameter stands in parentheses. Where
  parentheses stand around an expression is not open:

  - around an operand that binds less tightly than its place demands
    (`guarded`, by `Expr.level`);
  - around the body of a function that would start with a brace and be taken for
    a block (`guardedBody`).

  Section 3 says how a printing starts: with a token that can start an expression,
  and never in a way that makes the parser expect a function where there is none.
-/

namespace ReactiveView

/-! ## §1. Parentheses -/

/-- How tightly the outermost form of an expression binds. Choices and functions bind least, then
    binary operators by their precedence, then unary operators; all else is as tight as can be. -/
def Expr.level : Expr → Nat
  | cond .. | lambda .. | block _ => 0
  | binary op _ _ => op.precedence
  | unary .. => 7
  | _ => 8

theorem BinaryOp.precedence_pos (op : BinaryOp) : 1 ≤ op.precedence := by
  cases op <;> decide

theorem BinaryOp.precedence_le (op : BinaryOp) : op.precedence ≤ 6 := by
  cases op <;> decide

/-- Tokens in parentheses. -/
def parens (ts : List Token) : List Token := .mark .leftParen :: ts ++ [.mark .rightParen]

/-- The printing of an expression where its level must be at least `demand`. -/
def guarded (demand : Nat) (e : Expr) (ts : List Token) : List Token :=
  if e.level < demand then parens ts else ts

/-- The printing of an expression as the body of a function. -/
def guardedBody : List Token → List Token
  | .mark .leftBrace :: ts => parens (.mark .leftBrace :: ts)
  | ts => ts

/-! ## §2. Printings -/

/-- The names that are read as constants. -/
def reservedNames : List String := ["true", "false", "null", "undefined"]

/-- The constants that can be written, with their tokens. A number has no sign. -/
inductive Literal : Value → Token → Prop where
  /-- The value of a numeral. -/
  | number {f : Float} (hfinite : f.isFinite) (hsign : 0 ≤ f) :
      Literal (Value.number f) (.number f)
  /-- A text. -/
  | str (s : String) : Literal (.str s) (.str s)
  /-- Truth. -/
  | true : Literal (.bool true) (.ident "true")
  /-- Falsity. -/
  | false : Literal (.bool false) (.ident "false")
  /-- The absent value. -/
  | null : Literal .null (.ident "null")

mutual

/-- The tokens print the expression. -/
inductive Prints : Expr → List Token → Prop where
  /-- A constant. -/
  | lit {v : Value} {t : Token} (h : Literal v t) : Prints (.lit v) [t]
  /-- A name. -/
  | ident {name : String} (h : name ∉ reservedNames) : Prints (.ident name) [.ident name]
  /-- A list. -/
  | array {items : List Expr} {tss : List (List Token)} (h : PrintsEach items tss) :
      Prints (.array items) (.mark .leftBracket :: separated .comma tss ++ [.mark .rightBracket])
  /-- An object. -/
  | object {fields : List (String × Expr)} {tss : List (List Token)} (h : PrintsFields fields tss) :
      Prints (.object fields) (.mark .leftBrace :: separated .comma tss ++ [.mark .rightBrace])
  /-- Access to a member. -/
  | member {target : Expr} {ts : List Token} (property : String) (h : Prints target ts) :
      Prints (.member target property) (guarded 8 target ts ++ [.mark .dot, .ident property])
  /-- Access by index. -/
  | index {target position : Expr} {ts us : List Token} (htarget : Prints target ts)
      (hposition : Prints position us) :
      Prints (.index target position)
        (guarded 8 target ts ++ .mark .leftBracket :: us ++ [.mark .rightBracket])
  /-- A call. -/
  | call {callee : Expr} {args : List Expr} {ts : List Token} {tss : List (List Token)}
      (hcallee : Prints callee ts) (hargs : PrintsEach args tss) :
      Prints (.call callee args)
        (guarded 8 callee ts ++ .mark .leftParen :: separated .comma tss ++ [.mark .rightParen])
  /-- An operator in front of its operand. -/
  | unary {op : UnaryOp} {operand : Expr} {m : Mark} {ts : List Token}
      (hm : UnaryOp.ofMark? m = some op) (h : Prints operand ts) :
      Prints (.unary op operand) (.mark m :: guarded 7 operand ts)
  /-- An operator between its operands. It groups to the left, so that the right operand must bind
      more tightly. -/
  | binary {op : BinaryOp} {left right : Expr} {m : Mark} {ts us : List Token}
      (hm : BinaryOp.ofMark? m = some op) (hleft : Prints left ts) (hright : Prints right us) :
      Prints (.binary op left right)
        (guarded op.precedence left ts ++ .mark m :: guarded (op.precedence + 1) right us)
  /-- A choice. -/
  | cond {test consequent alternate : Expr} {ts us vs : List Token} (htest : Prints test ts)
      (hconsequent : Prints consequent us) (halternate : Prints alternate vs) :
      Prints (.cond test consequent alternate)
        (guarded 1 test ts ++ .mark .question :: us ++ .mark .colon :: vs)
  /-- A function whose body is an expression. -/
  | lambda {params : List String} {body : Expr} {head ts : List Token} (hhead : Heads params head)
      (h : Prints body ts) : Prints (.lambda params body) (head ++ guardedBody ts)
  /-- A function whose body is a block. -/
  | block {params : List String} {statements : List Expr} {head : List Token}
      {tss : List (List Token)} (hhead : Heads params head) (h : PrintsEach statements tss) :
      Prints (.lambda params (.block statements))
        (head ++ .mark .leftBrace :: separated .semicolon tss ++ [.mark .rightBrace])

/-- Each run of tokens prints the expression at its position. -/
inductive PrintsEach : List Expr → List (List Token) → Prop where
  /-- No expressions. -/
  | nil : PrintsEach [] []
  /-- One more in front. -/
  | cons {e : Expr} {es : List Expr} {ts : List Token} {tss : List (List Token)}
      (h : Prints e ts) (hs : PrintsEach es tss) : PrintsEach (e :: es) (ts :: tss)

/-- Each run of tokens prints the field at its position, as its key, a colon and its value. -/
inductive PrintsFields : List (String × Expr) → List (List Token) → Prop where
  /-- No fields. -/
  | nil : PrintsFields [] []
  /-- One more in front. -/
  | cons {key : String} {t : Token} {e : Expr} {fields : List (String × Expr)} {ts : List Token}
      {tss : List (List Token)} (hkey : fieldKey? t = some key) (h : Prints e ts)
      (hs : PrintsFields fields tss) :
      PrintsFields ((key, e) :: fields) ((t :: .mark .colon :: ts) :: tss)

end

namespace Expr

mutual

/-- The expression has a printing: its constants can be written, its names are no constants, and
    blocks occur as bodies of functions only. -/
def Printable : Expr → Prop
  | lit v => ∃ t, Literal v t
  | ident name => name ∉ reservedNames
  | array items => PrintableAll items
  | object fields => PrintableFields fields
  | member target _ => Printable target
  | index target position => Printable target ∧ Printable position
  | call callee args => Printable callee ∧ PrintableAll args
  | unary _ operand => Printable operand
  | binary _ left right => Printable left ∧ Printable right
  | cond test consequent alternate =>
    Printable test ∧ Printable consequent ∧ Printable alternate
  | lambda _ (block statements) => PrintableAll statements
  | lambda _ body => Printable body
  | block _ => False

/-- Each of the expressions has a printing. -/
def PrintableAll : List Expr → Prop
  | [] => True
  | e :: es => Printable e ∧ PrintableAll es

/-- The value of each field has a printing. -/
def PrintableFields : List (String × Expr) → Prop
  | [] => True
  | (_, e) :: fields => Printable e ∧ PrintableFields fields

end

end Expr

theorem UnaryOp.exists_mark : ∀ op : UnaryOp, ∃ m, UnaryOp.ofMark? m = some op
  | not => ⟨.bang, rfl⟩
  | neg => ⟨.minus, rfl⟩
  | plus => ⟨.plus, rfl⟩

theorem BinaryOp.exists_mark : ∀ op : BinaryOp, ∃ m, BinaryOp.ofMark? m = some op
  | or => ⟨.orOr, rfl⟩
  | and => ⟨.andAnd, rfl⟩
  | eq => ⟨.eqEq, rfl⟩
  | notEq => ⟨.notEq, rfl⟩
  | lt => ⟨.less, rfl⟩
  | le => ⟨.lessEq, rfl⟩
  | gt => ⟨.greater, rfl⟩
  | ge => ⟨.greaterEq, rfl⟩
  | add => ⟨.plus, rfl⟩
  | sub => ⟨.minus, rfl⟩
  | mul => ⟨.star, rfl⟩
  | div => ⟨.slash, rfl⟩
  | rem => ⟨.percent, rfl⟩

namespace Expr

theorem Printable.body {params : List String} {body : Expr} (h : Printable (lambda params body))
    (hblock : ∀ statements, body ≠ block statements) : Printable body := by
  cases body with
  | block statements => exact absurd rfl (hblock statements)
  | _ => exact h

mutual

theorem exists_prints : ∀ e : Expr, Printable e → ∃ ts, Prints e ts
  | lit _, ⟨_, h⟩ => ⟨_, .lit h⟩
  | ident _, h => ⟨_, .ident h⟩
  | array items, h =>
    have ⟨_, hitems⟩ := exists_printsEach items h
    ⟨_, .array hitems⟩
  | object fields, h =>
    have ⟨_, hfields⟩ := exists_printsFields fields h
    ⟨_, .object hfields⟩
  | member target property, h =>
    have ⟨_, htarget⟩ := exists_prints target h
    ⟨_, .member property htarget⟩
  | index target position, ⟨h₁, h₂⟩ =>
    have ⟨_, htarget⟩ := exists_prints target h₁
    have ⟨_, hposition⟩ := exists_prints position h₂
    ⟨_, .index htarget hposition⟩
  | call callee args, ⟨h₁, h₂⟩ =>
    have ⟨_, hcallee⟩ := exists_prints callee h₁
    have ⟨_, hargs⟩ := exists_printsEach args h₂
    ⟨_, .call hcallee hargs⟩
  | unary op operand, h =>
    have ⟨_, hm⟩ := op.exists_mark
    have ⟨_, hoperand⟩ := exists_prints operand h
    ⟨_, .unary hm hoperand⟩
  | binary op left right, ⟨h₁, h₂⟩ =>
    have ⟨_, hm⟩ := op.exists_mark
    have ⟨_, hleft⟩ := exists_prints left h₁
    have ⟨_, hright⟩ := exists_prints right h₂
    ⟨_, .binary hm hleft hright⟩
  | cond test consequent alternate, ⟨h₁, h₂, h₃⟩ =>
    have ⟨_, htest⟩ := exists_prints test h₁
    have ⟨_, hconsequent⟩ := exists_prints consequent h₂
    have ⟨_, halternate⟩ := exists_prints alternate h₃
    ⟨_, .cond htest hconsequent halternate⟩
  | lambda params body, h => by
    by_cases hblock : ∃ statements, body = block statements
    · obtain ⟨statements, rfl⟩ := hblock
      obtain ⟨_, hstatements⟩ := exists_printsEach statements h
      exact ⟨_, .block (.parens params) hstatements⟩
    · obtain ⟨_, hbody⟩ := exists_prints body (Printable.body h (not_exists.mp hblock))
      exact ⟨_, .lambda (.parens params) hbody⟩

theorem exists_printsEach : ∀ es : List Expr, PrintableAll es → ∃ tss, PrintsEach es tss
  | [], _ => ⟨_, .nil⟩
  | e :: es, ⟨h, hs⟩ =>
    have ⟨_, hfirst⟩ := exists_prints e h
    have ⟨_, hrest⟩ := exists_printsEach es hs
    ⟨_, .cons hfirst hrest⟩

theorem exists_printsFields :
    ∀ fields : List (String × Expr), PrintableFields fields → ∃ tss, PrintsFields fields tss
  | [], _ => ⟨_, .nil⟩
  | (key, e) :: fields, ⟨h, hs⟩ =>
    have ⟨_, hfirst⟩ := exists_prints e h
    have ⟨_, hrest⟩ := exists_printsFields fields hs
    ⟨_, .cons (t := .str key) rfl hfirst hrest⟩

end

end Expr

/-! ## §3. How printings start -/

section starts

variable {e : Expr} {ts : List Token}

/-- Whether a token can start an expression. -/
def Token.opens : Token → Bool
  | .mark .leftParen | .mark .leftBracket | .mark .leftBrace => true
  | .mark m => (UnaryOp.ofMark? m).isSome
  | _ => true

theorem Token.opens_of_ofMark? {op : UnaryOp} {m : Mark} (hm : UnaryOp.ofMark? m = some op) :
    (Token.mark m).opens = true := by
  unfold Token.opens
  split <;> simp_all

theorem Expr.level_le (e : Expr) : e.level ≤ 8 := by
  cases e with
  | binary op => exact Nat.le_trans op.precedence_le (by decide)
  | _ => simp [level]

/-- Parentheses and the tokens of a tight expression start with no operator. -/
theorem exists_guarded_eq_cons (demand : Nat)
    (h : ∃ t us, ts = t :: us ∧ t.opens = true ∧ (e.level = 8 → t.isSign = false)) :
    ∃ t us, guarded demand e ts = t :: us ∧ t.opens = true ∧
      (demand = 8 → t.isSign = false) := by
  unfold guarded
  split
  · exact ⟨_, _, rfl, rfl, fun _ => rfl⟩
  · next hle =>
    -- Without parentheses the level meets the demand, and no level is above 8.
    obtain ⟨t, us, rfl, hopens, hsign⟩ := h
    have := e.level_le
    exact ⟨t, us, rfl, hopens, fun hdemand => hsign (by omega)⟩

theorem Prints.exists_eq_cons {e : Expr} {ts : List Token} (h : Prints e ts) :
    ∃ t us, ts = t :: us ∧ t.opens = true ∧ (e.level = 8 → t.isSign = false) := by
  cases h with
  | lit h => cases h <;> exact ⟨_, _, rfl, rfl, fun _ => rfl⟩
  | ident | array | object => exact ⟨_, _, rfl, rfl, fun _ => rfl⟩
  | member _ h =>
    obtain ⟨t, us, heq, hopens, hsign⟩ := exists_guarded_eq_cons 8 h.exists_eq_cons
    exact ⟨t, _, by rw [heq]; rfl, hopens, fun _ => hsign rfl⟩
  | index h | call h =>
    obtain ⟨t, us, heq, hopens, hsign⟩ := exists_guarded_eq_cons 8 h.exists_eq_cons
    exact ⟨t, _, by rw [heq]; rfl, hopens, fun _ => hsign rfl⟩
  | unary hm => exact ⟨_, _, rfl, Token.opens_of_ofMark? hm, nofun⟩
  | @binary op _ _ _ _ _ _ h =>
    obtain ⟨t, us, heq, hopens, -⟩ := exists_guarded_eq_cons op.precedence h.exists_eq_cons
    have := op.precedence_le
    refine ⟨t, _, by rw [heq]; rfl, hopens, fun hlevel => ?_⟩
    simp only [Expr.level] at hlevel
    omega
  | cond h =>
    obtain ⟨t, us, heq, hopens, -⟩ := exists_guarded_eq_cons 1 h.exists_eq_cons
    exact ⟨t, _, by rw [heq]; rfl, hopens, nofun⟩
  | lambda hhead | block hhead => cases hhead <;> exact ⟨_, _, rfl, rfl, nofun⟩

/-- Whatever follows, the tokens start no function, and no parameter list after a parenthesis. -/
def Settled (ts : List Token) : Prop := ∀ rest, Plain (ts ++ rest) ∧ Unlisted (ts ++ rest)

theorem Settled.append (h : Settled ts) (us : List Token) : Settled (ts ++ us) := by
  intro rest
  rw [List.append_assoc]
  exact h _

/-- How far the first tokens of an expression tell it from a function. -/
inductive Leads : Expr → List Token → Prop where
  /-- A name alone could still be a parameter, if an arrow or a comma followed. -/
  | name {e : Expr} (hlevel : e.level = 8) (name : String) : Leads e [.ident name]
  /-- A function is no parameter list. -/
  | function {params : List String} {body : Expr} {ts : List Token}
      (h : ∀ rest, Unlisted (ts ++ rest)) : Leads (.lambda params body) ts
  /-- All else is settled. -/
  | settled {e : Expr} {ts : List Token} (h : Settled ts) : Leads e ts

theorem Leads.unlisted (h : Leads e ts) (hlevel : e.level < 8) (rest : List Token) :
    Unlisted (ts ++ rest) := by
  cases h with
  | name h8 => omega
  | function h => exact h rest
  | settled h => exact (h rest).2

theorem Leads.plain {rest : List Token} (h : Leads e ts)
    (hfunction : ∀ params body, e ≠ .lambda params body)
    (hrest : rest.head? ≠ some (.mark .arrow)) : Plain (ts ++ rest) := by
  cases h with
  | name _ name =>
    -- Only an arrow behind the name would make it a parameter.
    match rest, hrest with
    | [], _ => trivial
    | .mark m :: _, hrest => exact fun hm => hrest (by rw [hm]; rfl)
    | .ident _ :: _, _ | .number _ :: _, _ | .str _ :: _, _ => trivial
  | function => exact absurd rfl (hfunction _ _)
  | settled h => exact (h rest).1

/-- A mark behind an operand settles what the operand is. -/
theorem Leads.settled_guarded (h : Leads e ts) {demand : Nat} {m : Mark} (hpos : 1 ≤ demand)
    (hle : demand ≤ 8) (hm : m ∉ [Mark.arrow, .rightParen, .comma]) (us : List Token) :
    Settled (guarded demand e ts ++ .mark m :: us) := by
  unfold guarded
  split
  · next hlt =>
    intro rest
    have hunlisted :=
      h.unlisted (Nat.lt_of_lt_of_le hlt hle) (.mark .rightParen :: .mark m :: us ++ rest)
    exact ⟨by simpa [parens, Plain] using hunlisted, by simp [parens, Unlisted]⟩
  · next hnot =>
    -- Bare, it is no function, for its level is positive.
    cases h with
    | name =>
      simp only [List.mem_cons, List.not_mem_nil, or_false, not_or] at hm
      exact fun rest => ⟨hm.1, hm.2⟩
    | function => exact absurd hpos hnot
    | settled h => exact h.append _

theorem settled_mark {m : Mark} (hleft : m ≠ .leftParen) (hright : m ≠ .rightParen)
    (ts : List Token) : Settled (.mark m :: ts) := by
  intro rest
  refine ⟨?_, hright⟩
  show Plain (.mark m :: (ts ++ rest))
  rw [Plain.eq_def]
  split <;> simp_all

theorem Heads.unlisted {params : List String} {head : List Token} (h : Heads params head)
    (rest : List Token) : Unlisted (head ++ rest) := by
  cases h with
  | bare => exact ⟨by decide, by decide⟩
  | parens => exact Mark.noConfusion

theorem Prints.leads {e : Expr} {ts : List Token} (h : Prints e ts) : Leads e ts := by
  -- The induction goes down the left edge: a form either starts with a token of its own, or with an
  -- operand and a mark behind it.
  cases h with
  | lit h =>
    cases h with
    | number | str => exact .settled fun _ => ⟨trivial, trivial⟩
    | true | false | null => exact .name rfl _
  | ident => exact .name rfl _
  | array | object => exact .settled (settled_mark (by decide) (by decide) _)
  | member _ h =>
    exact .settled (h.leads.settled_guarded (by decide) (by decide) (by decide) _)
  | index h =>
    rw [List.append_assoc]
    exact .settled (h.leads.settled_guarded (by decide) (by decide) (by decide) _)
  | call h =>
    rw [List.append_assoc]
    exact .settled (h.leads.settled_guarded (by decide) (by decide) (by decide) _)
  | unary hm =>
    refine .settled (settled_mark ?_ ?_ _) <;> rintro rfl <;> cases hm
  | @binary op _ _ _ _ _ hm h =>
    have hle : op.precedence ≤ 8 := Nat.le_trans op.precedence_le (by decide)
    refine .settled (h.leads.settled_guarded op.precedence_pos hle ?_ _)
    simp only [List.mem_cons, List.not_mem_nil, or_false, not_or]
    refine ⟨?_, ?_, ?_⟩ <;> rintro rfl <;> cases hm
  | cond h =>
    rw [List.append_assoc]
    exact .settled (h.leads.settled_guarded (by decide) (by decide) (by decide) _)
  | lambda hhead =>
    refine .function fun rest => ?_
    rw [List.append_assoc]
    exact hhead.unlisted _
  | block hhead =>
    refine .function fun rest => ?_
    rw [List.append_assoc, List.append_assoc]
    exact hhead.unlisted _

end starts

end ReactiveView
