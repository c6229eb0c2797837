import ReactiveView.Proofs.Expr.Printing
import Mathlib.Data.List.Forall2

/-! # Printing and parsing again

  The parser takes every printing of an expression and yields the expression.

  What a step of the parser takes depends on what follows, so the induction
  carries more: for each step that can take an expression of a level, in front
  of which tokens it does (`Reads`). An expression in its place is read by the
  step that its place calls, with parentheses where it has to have them
  (`Prints.reads_guarded`).
-/

namespace ReactiveView

variable {e : Expr} {ts rest : List Token} {least : Nat}

/-! ## §1. What follows -/

/-- No operator that binds at least as tightly as `least` follows. -/
def Unbound (least : Nat) (rest : List Token) : Prop := ∀ t ∈ rest.head?, t.binds least = false

/-- No access and no call follows. -/
def Unextended (rest : List Token) : Prop := ∀ t ∈ rest.head?, t.extends = false

/-- The marks behind which an expression ends, whatever it is. -/
def closingMarks : List Mark :=
  [.comma, .colon, .semicolon, .rightParen, .rightBracket, .rightBrace]

/-- An expression ends here: with the text, or at a mark that closes what is around it. -/
def Ends (rest : List Token) : Prop := ∀ t ∈ rest.head?, ∃ m ∈ closingMarks, t = .mark m

theorem Unbound.mono {least' : Nat} (h : Unbound least rest) (hle : least ≤ least') :
    Unbound least' rest := by
  intro t ht
  have hfalse := h t ht
  cases t with
  | mark m =>
    simp only [Token.binds, Option.any_eq_false, decide_eq_false_iff_not] at hfalse ⊢
    intro op hop
    have := hfalse op hop
    omega
  | _ => rfl

theorem unextended_of_binaryOp {op : BinaryOp} {m : Mark} (hm : BinaryOp.ofMark? m = some op) :
    Unextended (.mark m :: ts) := by
  rintro t ⟨⟩
  unfold Token.extends
  split <;> first | rfl | simp_all [BinaryOp.ofMark?]

theorem unbound_of_binaryOp {op : BinaryOp} {m : Mark} (hm : BinaryOp.ofMark? m = some op) :
    Unbound (op.precedence + 1) (.mark m :: ts) := by
  rintro t ⟨⟩
  simp [Token.binds, hm]

theorem ends_nil : Ends [] := nofun

theorem ends_mark {m : Mark} (hm : m ∈ closingMarks) : Ends (.mark m :: ts) := by
  rintro t ⟨⟩
  exact ⟨m, hm, rfl⟩

section ends

variable (h : Ends rest)
include h

theorem Ends.unextended : Unextended rest := by
  intro t ht
  obtain ⟨m, hm, rfl⟩ := h t ht
  clear ht
  revert m
  decide

theorem Ends.unbound : Unbound least rest := by
  intro t ht
  obtain ⟨m, hm, rfl⟩ := h t ht
  have hnone : BinaryOp.ofMark? m = none := by
    clear ht
    revert m
    decide
  simp [Token.binds, hnone]

theorem Ends.head?_ne {m : Mark} (hm : m ∉ closingMarks) : rest.head? ≠ some (.mark m) := by
  intro hhead
  obtain ⟨m', hm', heq⟩ := h _ hhead
  cases heq
  exact hm hm'

end ends

/-! ## §2. Reading an expression of a level -/

/-- Each step of the parser that can take an expression of this level takes the tokens as this
    expression, if what follows does not go on with it. -/
structure Reads (level : Nat) (e : Expr) (ts : List Token) : Prop where
  /-- A tight expression is read in front of accesses and calls, which go on from it. -/
  target : 8 ≤ level → ∀ {rest e' rest'}, Takes (postfixTail e) rest e' rest' →
    Takes postfixed (ts ++ rest) e' rest'
  /-- An operand is read where no access and no call follows. -/
  operand : 7 ≤ level → ∀ {rest}, Unextended rest → Takes unary (ts ++ rest) e rest
  /-- A chain of operands is read where no operator follows that belongs to its inside; operators
      that bind no more tightly go on from it. -/
  chain : 1 ≤ level → ∀ {least rest e' rest'}, least ≤ level → Unextended rest →
    Unbound (level + 1) rest → Takes (binaryTail least e) rest e' rest' →
    Takes (binary least) (ts ++ rest) e' rest'
  /-- Any expression is read where it ends. -/
  whole : ∀ {rest}, Ends rest → Takes expression (ts ++ rest) e rest

theorem Reads.closed {level : Nat} {m : Mark} (h : Reads level e ts) (hm : m ∈ closingMarks)
    (rest : List Token) : Takes expression (ts ++ .mark m :: rest) e (.mark m :: rest) :=
  h.whole (ends_mark hm)

theorem Reads.mono {level level' : Nat} (h : Reads level e ts) (hle : level' ≤ level) :
    Reads level' e ts where
  target h8 := h.target (Nat.le_trans h8 hle)
  operand h7 := h.operand (Nat.le_trans h7 hle)
  chain h1 _ _ _ _ hleast hext hbound :=
    h.chain (Nat.le_trans h1 hle) (Nat.le_trans hleast hle) hext (hbound.mono (by omega))
  whole := h.whole

/-- Choices and functions are read as whole expressions only. -/
theorem Reads.of_whole (hwhole : ∀ {rest}, Ends rest → Takes expression (ts ++ rest) e rest) :
    Reads 0 e ts where
  target h8 := by omega
  operand h7 := by omega
  chain h1 := by omega
  whole := hwhole

section build

variable (hplain : ∀ rest, rest.head? ≠ some (.mark .arrow) → Plain (ts ++ rest))
include hplain

theorem takes_expression_of_binary (hends : Ends rest) (h : Takes (binary 1) (ts ++ rest) e rest) :
    Takes expression (ts ++ rest) e rest := by
  refine takes_expression_of_conditional (hplain _ (hends.head?_ne (by decide))) ?_
  exact takes_conditional_of_binary (hends.head?_ne (by decide)) h

theorem Reads.of_chain {level : Nat} (hpos : 1 ≤ level) (hlt : level < 7)
    (hchain : ∀ {least rest e' rest'}, least ≤ level → Unextended rest → Unbound (level + 1) rest →
      Takes (binaryTail least e) rest e' rest' → Takes (binary least) (ts ++ rest) e' rest') :
    Reads level e ts where
  target h8 := by omega
  operand h7 := by omega
  chain _ _ _ _ _ := hchain
  whole hends := by
    -- Where the expression ends no operator follows, and the chain goes no further.
    have hstop : Takes (binaryTail 1 e) _ e _ := takes_binaryTail_stop hends.unbound
    exact takes_expression_of_binary hplain hends (hchain hpos hends.unextended hends.unbound hstop)

theorem Reads.of_operand
    (hoperand : ∀ {rest}, Unextended rest → Takes unary (ts ++ rest) e rest) : Reads 7 e ts where
  target h8 := by omega
  operand _ _ := hoperand
  chain _ _ _ _ _ _ hext _ htail := takes_binary (hoperand hext) htail
  whole hends := by
    have hstop : Takes (binaryTail 1 e) _ e _ := takes_binaryTail_stop hends.unbound
    exact takes_expression_of_binary hplain hends (takes_binary (hoperand hends.unextended) hstop)

/-- A tight expression starts with no operator, so that it is its own operand. -/
theorem Reads.of_target (hsign : ∃ t us, ts = t :: us ∧ t.isSign = false)
    (htarget : ∀ {rest e' rest'}, Takes (postfixTail e) rest e' rest' →
      Takes postfixed (ts ++ rest) e' rest') : Reads 8 e ts := by
  have hoperand {rest} (hext : Unextended rest) : Takes unary (ts ++ rest) e rest := by
    refine takes_unary_of_postfixed ?_ (htarget (takes_postfixTail_stop hext))
    obtain ⟨t, us, rfl, hfalse⟩ := hsign
    rintro t' ⟨⟩
    exact hfalse
  exact
    { target := fun _ => htarget
      operand := fun _ => hoperand
      chain := fun _ _ _ _ _ _ hext _ htail => takes_binary (hoperand hext) htail
      whole := (Reads.of_operand hplain hoperand).whole }

end build

/-- Parentheses make any expression tight. -/
theorem Reads.parenthesised {level : Nat} (h : Reads level e ts)
    (hunlisted : ∀ rest, Unlisted (ts ++ rest)) : Reads 8 e (parens ts) := by
  refine Reads.of_target (fun rest _ => ?_) ⟨_, _, rfl, rfl⟩ fun {rest e' rest'} htail => ?_
  · simpa [parens, Plain] using hunlisted (.mark .rightParen :: rest)
  · have hinside := h.closed (m := .rightParen) (by decide) rest
    have hprimary := takes_primary_parens hinside
    simpa [parens] using takes_postfixed hprimary htail

/-- A left operand, an operator and a right operand are read as the chain that they are. The right
    operand binds more tightly than the operator, so that it ends where another such operator
    follows; the left one need not, and the operator goes on from it. -/
theorem Reads.chain_binary {op : BinaryOp} {m : Mark} {left right e' : Expr}
    {us rest' : List Token} (hleft : Reads op.precedence left ts)
    (hm : BinaryOp.ofMark? m = some op) (hright : Reads (op.precedence + 1) right us)
    (hleast : least ≤ op.precedence) (hext : Unextended rest)
    (hbound : Unbound (op.precedence + 1) rest)
    (htail : Takes (binaryTail least (.binary op left right)) rest e' rest') :
    Takes (binary least) (ts ++ .mark m :: (us ++ rest)) e' rest' := by
  have hstop : Takes (binaryTail (op.precedence + 1) right) rest right rest :=
    takes_binaryTail_stop hbound
  have hoperand : Takes (binary (op.precedence + 1)) (us ++ rest) right rest :=
    hright.chain (by omega) (Nat.le_refl _) hext (hbound.mono (Nat.le_succ _)) hstop
  exact hleft.chain op.precedence_pos hleast (unextended_of_binaryOp hm) (unbound_of_binaryOp hm)
    (takes_binaryTail hm hleast hoperand htail)

/-- A test and its two branches are read as a choice. -/
theorem Reads.takes_cond {test e₁ e₂ : Expr} {us vs : List Token} {n₁ n₂ : Nat}
    (htest : Reads 1 test ts) (h₁ : Reads n₁ e₁ us) (h₂ : Reads n₂ e₂ vs) (hends : Ends rest) :
    Takes conditional (ts ++ .mark .question :: (us ++ .mark .colon :: (vs ++ rest)))
      (.cond test e₁ e₂) rest := by
  have hext {ws} : Unextended (.mark .question :: ws) := by
    rintro t ⟨⟩
    rfl
  have hbound {n ws} : Unbound n (.mark .question :: ws) := by
    rintro t ⟨⟩
    rfl
  have hstop {ws} : Takes (binaryTail 1 test) (.mark .question :: ws) test _ :=
    takes_binaryTail_stop hbound
  exact takes_conditional (htest.chain (Nat.le_refl 1) (Nat.le_refl 1) hext hbound hstop)
    (h₁.closed (by decide) _) (h₂.whole hends)

/-- The body of a function is read as the expression that it is, and not as a block. -/
theorem Prints.takes_guardedBody (h : Prints e ts) (hreads : Reads e.level e ts)
    (hends : Ends rest) :
    (guardedBody ts ++ rest).head? ≠ some (.mark .leftBrace) ∧
      Takes expression (guardedBody ts ++ rest) e rest := by
  unfold guardedBody
  split
  · -- A parameter list has no brace, so that the parentheses are not taken for one.
    have hunlisted (us us' : List Token) : Unlisted (.mark .leftBrace :: us ++ us') := by
      simp [Unlisted]
    exact ⟨by simp [parens], (hreads.parenthesised (hunlisted _)).whole hends⟩
  · next hnot =>
    refine ⟨?_, hreads.whole hends⟩
    obtain ⟨t, us, rfl, -, -⟩ := h.exists_eq_cons
    intro hhead
    cases hhead
    exact hnot us rfl

/-- In a place that demands at most the tightest level, an expression is read with the parentheses
    that it has there. -/
theorem Prints.reads_guarded (h : Prints e ts) (hreads : Reads e.level e ts) (demand : Nat)
    (hle : demand ≤ 8) : Reads demand e (guarded demand e ts) := by
  unfold guarded
  split
  · next hlt =>
    have hlevel : e.level < 8 := Nat.lt_of_lt_of_le hlt hle
    exact (hreads.parenthesised (h.leads.unlisted hlevel)).mono hle
  · next hnot => exact hreads.mono (Nat.le_of_not_lt hnot)

/-! ## §3. Lists -/

/-- The tokens print an expression and are read as it. -/
def Legible (e : Expr) (ts : List Token) : Prop := Prints e ts ∧ Reads e.level e ts

theorem Legible.head?_ne (h : Legible e ts) {m : Mark} (hm : (Token.mark m).opens = false) :
    (ts ++ rest).head? ≠ some (.mark m) := by
  obtain ⟨t, us, rfl, hopens, -⟩ := h.1.exists_eq_cons
  intro hhead
  cases hhead
  rw [hm] at hopens
  cases hopens

theorem closes_of_mem_closers : ∀ close ∈ [Mark.rightParen, .rightBracket],
    (Token.mark close).opens = false ∧ close ≠ .comma ∧ close ∈ closingMarks := by
  decide

theorem takes_listUpTo_separated {es : List Expr} {tss : List (List Token)}
    (h : List.Forall₂ Legible es tss) (close : Mark)
    (hclose : close ∈ [Mark.rightParen, .rightBracket]) (rest : List Token) :
    Takes (listUpTo close) (separated .comma tss ++ .mark close :: rest) es rest := by
  induction h with
  | nil => exact takes_listUpTo_nil close rest
  | @cons e ts es tss hfirst hs ih =>
    obtain ⟨hopens, hne, hcloses⟩ := closes_of_mem_closers close hclose
    -- A comma stands behind every expression but the last.
    cases hs with
    | nil =>
      exact takes_listUpTo_last (hfirst.head?_ne hopens) hne (hfirst.2.closed hcloses rest)
    | cons =>
      simp only [separated, List.append_assoc, List.cons_append]
      exact takes_listUpTo_cons (hfirst.head?_ne hopens) (hfirst.2.closed (by decide) _) ih

theorem takes_statements_separated {es : List Expr} {tss : List (List Token)}
    (h : List.Forall₂ Legible es tss) (rest : List Token) :
    Takes statements (separated .semicolon tss ++ .mark .rightBrace :: rest) es rest := by
  induction h with
  | nil => exact takes_statements_nil rest
  | @cons e ts es tss hfirst hs ih =>
    have hsemicolon {us} : (ts ++ us).head? ≠ some (.mark .semicolon) := hfirst.head?_ne rfl
    have hbrace {us} : (ts ++ us).head? ≠ some (.mark .rightBrace) := hfirst.head?_ne rfl
    cases hs with
    | nil =>
      exact takes_statements_cons hsemicolon hbrace (hfirst.2.closed (by decide) rest)
        (takes_statements_nil rest)
    | cons =>
      simp only [separated, List.append_assoc, List.cons_append]
      exact takes_statements_cons hsemicolon hbrace (hfirst.2.closed (by decide) _)
        (takes_statements_semicolon ih)

/-- The tokens are a key, a colon and a legible value. -/
def LegibleField (field : String × Expr) (ts : List Token) : Prop :=
  ∃ t us, fieldKey? t = some field.1 ∧ ts = t :: .mark .colon :: us ∧ Legible field.2 us

theorem takes_objectFields_separated {fields : List (String × Expr)} {tss : List (List Token)}
    (h : List.Forall₂ LegibleField fields tss) (rest : List Token) :
    Takes objectFields (separated .comma tss ++ .mark .rightBrace :: rest) fields rest := by
  induction h with
  | nil => exact takes_objectFields_nil rest
  | @cons field ts fields tss hfirst hs ih =>
    obtain ⟨t, us, hkey, rfl, hvalue⟩ := hfirst
    cases hs with
    | nil => exact takes_objectFields_last hkey (hvalue.2.closed (by decide) rest)
    | cons =>
      simp only [separated, List.append_assoc, List.cons_append]
      exact takes_objectFields_cons hkey (hvalue.2.closed (by decide) _) ih

/-! ## §4. Every form -/

theorem expr_ofName {name : String} (h : name ∉ reservedNames) :
    Expr.ofName name = .ident name := by
  simp only [reservedNames, List.mem_cons, List.not_mem_nil, or_false, not_or] at h
  obtain ⟨htrue, hfalse, hnull, hundefined⟩ := h
  unfold Expr.ofName
  split <;> first | contradiction | rfl

theorem takes_primary_literal {v : Value} {t : Token} (h : Literal v t) :
    Takes primary (t :: rest) (.lit v) rest := by
  cases h with
  | number => exact takes_primary_number _ rest
  | str => exact takes_primary_str _ rest
  | true => exact takes_primary_ident "true" rest
  | false => exact takes_primary_ident "false" rest
  | null => exact takes_primary_ident "null" rest

/-- A printing as tight as can be is read if the parser reads it as a target. -/
theorem Prints.reads_of_target (h : Prints e ts) (hlevel : e.level = 8)
    (htarget : ∀ {rest e' rest'}, Takes (postfixTail e) rest e' rest' →
      Takes postfixed (ts ++ rest) e' rest') : Reads e.level e ts := by
  obtain ⟨t, us, heq, -, hsign⟩ := h.exists_eq_cons
  have hfunction (params body) : e ≠ .lambda params body := by
    rintro rfl
    cases hlevel
  rw [hlevel]
  exact Reads.of_target (fun _ => h.leads.plain hfunction) ⟨t, us, heq, hsign hlevel⟩ htarget

/-- The same for a form that starts and ends with its own tokens. -/
theorem Prints.reads_of_primary (h : Prints e ts) (hlevel : e.level = 8)
    (hprimary : ∀ rest, Takes primary (ts ++ rest) e rest) : Reads e.level e ts :=
  h.reads_of_target hlevel fun htail => takes_postfixed (hprimary _) htail

mutual

/-- Every printing is read as its expression, by every step that can take an expression of its
    level. -/
theorem Prints.reads {e : Expr} {ts : List Token} (h : Prints e ts) : Reads e.level e ts := by
  -- The printing as a whole tells how its tokens start, and so which steps pass it on.
  have hprints := h
  cases h with
  | lit h => exact hprints.reads_of_primary rfl fun rest => takes_primary_literal h
  | @ident name h =>
    refine hprints.reads_of_primary rfl fun rest => ?_
    have hname := takes_primary_ident name rest
    rw [expr_ofName h] at hname
    exact hname
  | array h =>
    refine hprints.reads_of_primary rfl fun rest => ?_
    have hitems := takes_listUpTo_separated h.legible .rightBracket (by decide) rest
    simpa using takes_primary_array hitems
  | object h =>
    refine hprints.reads_of_primary rfl fun rest => ?_
    simpa using takes_primary_object (takes_objectFields_separated h.legible rest)
  | member _ h =>
    have htarget := h.reads_guarded h.reads 8 (by decide)
    refine hprints.reads_of_target rfl fun htail => ?_
    simpa using htarget.target (Nat.le_refl 8) (takes_postfixTail_member htail)
  | index h hposition =>
    have htarget := h.reads_guarded h.reads 8 (by decide)
    refine hprints.reads_of_target rfl fun htail => ?_
    have hinside := takes_postfixTail_index (hposition.reads.closed (by decide) _) htail
    simpa using htarget.target (Nat.le_refl 8) hinside
  | call h hargs =>
    have hcallee := h.reads_guarded h.reads 8 (by decide)
    refine hprints.reads_of_target rfl fun htail => ?_
    have hlist := takes_listUpTo_separated hargs.legible .rightParen (by decide)
    have hinside := takes_postfixTail_call (hlist _) htail
    simpa using hcallee.target (Nat.le_refl 8) hinside
  | unary hm h =>
    have hoperand := h.reads_guarded h.reads 7 (by decide)
    refine Reads.of_operand (fun _ => hprints.leads.plain nofun) fun hext => ?_
    -- An operand with an operator of its own in front stands bare, and `unary` takes it again.
    exact takes_unary hm (hoperand.operand (Nat.le_refl 7) hext)
  | @binary op left right m ts us hm hleft hright =>
    have hle := op.precedence_le
    have hleft := hleft.reads_guarded hleft.reads op.precedence (by omega)
    have hright := hright.reads_guarded hright.reads (op.precedence + 1) (by omega)
    refine Reads.of_chain (fun _ => hprints.leads.plain nofun) op.precedence_pos
      (by simp only [Expr.level]; omega) fun hleast hext hbound htail => ?_
    simpa using hleft.chain_binary hm hright hleast hext hbound htail
  | cond htest hconsequent halternate =>
    have htest := htest.reads_guarded htest.reads 1 (by decide)
    refine Reads.of_whole fun hends => ?_
    have hplain := hprints.leads.plain nofun (hends.head?_ne (by decide))
    refine takes_expression_of_conditional hplain ?_
    simpa using htest.takes_cond hconsequent.reads halternate.reads hends
  | lambda hhead h =>
    refine Reads.of_whole fun hends => ?_
    obtain ⟨hfirst, hbody⟩ := h.takes_guardedBody h.reads hends
    have := takes_expression_lambda hhead hfirst hbody
    simpa using this
  | block hhead h =>
    refine Reads.of_whole fun {rest} _ => ?_
    have := takes_expression_block hhead (takes_statements_separated h.legible rest)
    simpa using this

theorem PrintsEach.legible {es : List Expr} {tss : List (List Token)} (h : PrintsEach es tss) :
    List.Forall₂ Legible es tss := by
  cases h with
  | nil => exact .nil
  | cons h hs => exact .cons ⟨h, h.reads⟩ hs.legible

theorem PrintsFields.legible {fields : List (String × Expr)} {tss : List (List Token)}
    (h : PrintsFields fields tss) : List.Forall₂ LegibleField fields tss := by
  cases h with
  | nil => exact .nil
  | cons hkey h hs => exact .cons ⟨_, _, hkey, rfl, h, h.reads⟩ hs.legible

end

/-! ## §5. Printing and parsing again -/

/-- The parser takes all of a printing and yields its expression. -/
theorem Prints.expression_eq {tokens : List Located} (h : Prints e (tokens.map (·.token))) :
    ∃ hlt, expression tokens = .ok ⟨e, [], hlt⟩ := by
  have htakes : Takes expression (tokens.map (·.token)) e [] := by
    simpa using h.reads.whole ends_nil
  obtain ⟨⟨_, rest, hlt⟩, hparsed, rfl, hrest⟩ := htakes tokens rfl
  obtain rfl := List.map_eq_nil_iff.mp hrest
  exact ⟨hlt, hparsed⟩

/-- A text whose tokens print an expression is parsed as this expression. -/
theorem Prints.parse_eq {source : String} {tokens : List Located}
    (hsource : tokenize source = .ok tokens) (h : Prints e (tokens.map (·.token))) :
    Expr.parse source = .ok e := by
  obtain ⟨hlt, hparsed⟩ := h.expression_eq
  rw [Expr.parse, hsource]
  simp only
  rw [hparsed]

/-- No tokens print two expressions. -/
theorem Prints.unique {e₁ e₂ : Expr} (h₁ : Prints e₁ ts) (h₂ : Prints e₂ ts) : e₁ = e₂ := by
  have htokens : (ts.map fun t => (⟨t, 0⟩ : Located)).map (·.token) = ts := by
    rw [List.map_map]
    exact List.map_id ts
  rw [← htokens] at h₁ h₂
  obtain ⟨_, hparsed₁⟩ := h₁.expression_eq
  obtain ⟨_, hparsed₂⟩ := h₂.expression_eq
  have := hparsed₁.symm.trans hparsed₂
  simp only [Except.ok.injEq, Parsed.mk.injEq] at this
  exact this.1

/-- **Parsing inverts printing.** An expression of constants that can be written, of names that
    are no constants, and of blocks only as bodies of functions has a printing, with parentheses
    only where its places demand them. Given the tokens of any printing, the parser takes all of
    them and yields this expression. -/
theorem expression_inverts_printing (e : Expr) (h : e.Printable) :
    (∃ ts, Prints e ts) ∧
      ∀ tokens : List Located, Prints e (tokens.map (·.token)) →
        ∃ hlt, expression tokens = .ok ⟨e, [], hlt⟩ :=
  ⟨Expr.exists_prints e h, fun _ hprints => hprints.expression_eq⟩

/-- A call with a function whose body needs parentheses to be no block, and an operand that needs
    them for its operator. -/
def callback : Expr :=
  .call (.member (.ident "items") "map")
    [.lambda ["x"] (.object [("done", .binary .and
      (.unary .not (.binary .or (.ident "x") (.ident "y"))) (.ident "z"))])]

/-- `items.map(x => ({ done: !(x || y) && z }))` -/
def callbackTokens : List Token :=
  [.ident "items", .mark .dot, .ident "map", .mark .leftParen, .ident "x", .mark .arrow,
    .mark .leftParen, .mark .leftBrace, .ident "done", .mark .colon, .mark .bang, .mark .leftParen,
    .ident "x", .mark .orOr, .ident "y", .mark .rightParen, .mark .andAnd, .ident "z",
    .mark .rightBrace, .mark .rightParen, .mark .rightParen]

theorem expression_inverts_printing_callback :
    callback.Printable ∧ Prints callback callbackTokens ∧
      ∃ hlt, expression (callbackTokens.map (⟨·, 0⟩)) = .ok ⟨callback, [], hlt⟩ := by
  have hprintable : callback.Printable := by
    simp [callback, Expr.Printable, Expr.PrintableAll, Expr.PrintableFields, reservedNames]
  have hvalue : Prints (.binary .and (.unary .not (.binary .or (.ident "x") (.ident "y")))
      (.ident "z")) _ :=
    .binary (m := .andAnd) rfl
      (.unary (m := .bang) rfl
        (.binary (m := .orOr) rfl (.ident (by decide)) (.ident (by decide))))
      (.ident (by decide))
  have hprints : Prints callback callbackTokens :=
    .call (.member "map" (.ident (by decide)))
      (.cons (.lambda (.bare "x") (.object (.cons (t := .ident "done") rfl hvalue .nil))) .nil)
  exact ⟨hprintable, hprints,
    (expression_inverts_printing callback hprintable).2 (callbackTokens.map (⟨·, 0⟩)) hprints⟩

end ReactiveView
