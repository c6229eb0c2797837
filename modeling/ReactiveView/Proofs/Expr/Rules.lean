import ReactiveView.Expr.Parser

/-! # What each step of the parser takes

  The steps of the parser work on tokens with their offsets, and their results
  carry a bound on what is left. Offsets matter for errors alone, so what a step
  takes is told by the tokens: `Takes` relates a step, the tokens it is given,
  its result and the tokens it leaves.

  The rules below are the grammar read in the other direction. Each says of one
  alternative of one step which tokens it takes, given what the steps that it
  calls take. Where an alternative applies only because others do not, the rule
  asks for the first tokens not to fit these.
-/

namespace ReactiveView

/-! ## §1. Taking tokens -/

/-- The outcome is this result, and these tokens are left. -/
def Yields {α : Type} {n : Nat} (step : Step α n) (a : α) (rest : List Token) : Prop :=
  ∃ p, step = .ok p ∧ p.result = a ∧ p.rest.map (·.token) = rest

/-- The step takes its result off the front of the tokens, wherever they stand in the text, and
    leaves the others. -/
def Takes {α : Type} {bound : List Located → Nat} (step : (l : List Located) → Step α (bound l))
    (ts : List Token) (a : α) (rest : List Token) : Prop :=
  ∀ l : List Located, l.map (·.token) = ts → Yields (step l) a rest

variable {l : List Located} {ts ts₁ ts₂ rest : List Token} {t : Token} {m : Mark} {e e₁ e₂ : Expr}
  {es : List Expr} {least : Nat}

theorem exists_located_cons (h : l.map (·.token) = t :: ts) :
    ∃ offset l', l = ⟨t, offset⟩ :: l' ∧ l'.map (·.token) = ts := by
  obtain ⟨⟨t', offset⟩, l', rfl, rfl, hl'⟩ := List.map_eq_cons_iff.mp h
  exact ⟨offset, l', rfl, hl'⟩

theorem eat?_of_token (h : l.map (·.token) = .mark m :: ts) :
    ∃ l', eat? m l = some l' ∧ l'.map (·.token) = ts := by
  obtain ⟨offset, l', rfl, hl'⟩ := exists_located_cons h
  exact ⟨l', by simp [eat?], hl'⟩

theorem eat?_eq_none (h : l.map (·.token) = ts) (hne : ts.head? ≠ some (.mark m)) :
    eat? m l = none := by
  unfold eat?
  split
  · next m' offset l' =>
    subst h
    rw [if_neg]
    rintro rfl
    exact hne rfl
  · rfl

theorem takes_expect (m : Mark) (ts : List Token) : Takes (expect m) (.mark m :: ts) () ts := by
  intro l hl
  obtain ⟨l', heat, hl'⟩ := eat?_of_token hl
  unfold expect
  -- The match keeps its equation for the bound on the rest, so `heat` cannot be rewritten in it.
  split
  · next h =>
    obtain rfl := Option.some.inj (heat.symm.trans h)
    exact ⟨_, rfl, rfl, hl'⟩
  · next h =>
    rw [heat] at h
    cases h

/-! ## §2. Operators -/

/-- Whether a token is a binary operator that binds at least as tightly as `least`. -/
def Token.binds (least : Nat) : Token → Bool
  | .mark m => (BinaryOp.ofMark? m).any fun op => least ≤ op.precedence
  | _ => false

theorem binaryOp?_eq_none (h : l.map (·.token) = ts)
    (hstop : ∀ t ∈ ts.head?, t.binds least = false) : binaryOp? least l = none := by
  unfold binaryOp?
  split
  · next m offset l' =>
    subst h
    have hm : (Token.mark m).binds least = false := hstop _ rfl
    cases hop : BinaryOp.ofMark? m with
    | none => rfl
    | some op =>
      have hlt : ¬ least ≤ op.precedence := by simpa [Token.binds, hop] using hm
      exact if_neg hlt
  · rfl

/-- Operands end where no operator follows that binds tightly enough. -/
theorem takes_binaryTail_stop (hstop : ∀ t ∈ ts.head?, t.binds least = false) :
    Takes (binaryTail least e) ts e ts := by
  intro l hl
  rw [binaryTail]
  split
  · exact ⟨_, rfl, rfl, hl⟩
  · next h =>
    rw [binaryOp?_eq_none hl hstop] at h
    cases h

/-- The right operand takes what binds tighter, and the whole is the left operand of what
    follows. -/
theorem takes_binaryTail {op : BinaryOp} (hm : BinaryOp.ofMark? m = some op)
    (hle : least ≤ op.precedence) (hright : Takes (binary (op.precedence + 1)) ts e₂ ts₁)
    (htail : Takes (binaryTail least (.binary op e₁ e₂)) ts₁ e rest) :
    Takes (binaryTail least e₁) (.mark m :: ts) e rest := by
  intro l hl
  obtain ⟨offset, l', rfl, hl'⟩ := exists_located_cons hl
  have hop : binaryOp? least (⟨.mark m, offset⟩ :: l') = some (op, l') := by
    simp [binaryOp?, hm, hle]
  obtain ⟨⟨_, l₁, hlt₁⟩, hp, rfl, hl₁⟩ := hright l' hl'
  obtain ⟨p, hq, hresult, hrest⟩ := htail l₁ hl₁
  rw [binaryTail]
  split
  · next h =>
    rw [hop] at h
    cases h
  · next op' l'' h =>
    rw [hop] at h
    simp only [Option.some.injEq, Prod.mk.injEq] at h
    obtain ⟨rfl, rfl⟩ := h
    rw [hp]
    simp only
    rw [hq]
    exact ⟨_, rfl, hresult, hrest⟩

theorem takes_binary (hleft : Takes unary ts e₁ ts₁)
    (htail : Takes (binaryTail least e₁) ts₁ e rest) : Takes (binary least) ts e rest := by
  intro l hl
  obtain ⟨⟨_, l₁, hlt₁⟩, hp, rfl, hl₁⟩ := hleft l hl
  obtain ⟨p, hq, hresult, hrest⟩ := htail l₁ hl₁
  rw [binary, hp]
  simp only
  rw [hq]
  exact ⟨_, rfl, hresult, hrest⟩

/-- Whether a token is an operator in front of an operand. -/
def Token.isSign : Token → Bool
  | .mark m => (UnaryOp.ofMark? m).isSome
  | _ => false

theorem takes_unary {op : UnaryOp} (hm : UnaryOp.ofMark? m = some op)
    (h : Takes unary ts e rest) : Takes unary (.mark m :: ts) (.unary op e) rest := by
  intro l hl
  obtain ⟨offset, l', rfl, hl'⟩ := exists_located_cons hl
  have hop : unaryOp? (⟨.mark m, offset⟩ :: l') = some (op, l') := by simp [unaryOp?, hm]
  obtain ⟨p, hp, rfl, hrest⟩ := h l' hl'
  rw [unary]
  split
  · next op' l'' h =>
    rw [hop] at h
    simp only [Option.some.injEq, Prod.mk.injEq] at h
    obtain ⟨rfl, rfl⟩ := h
    rw [hp]
    exact ⟨_, rfl, rfl, hrest⟩
  · next h =>
    rw [hop] at h
    cases h

theorem takes_unary_of_postfixed (hfirst : ∀ t ∈ ts.head?, t.isSign = false)
    (h : Takes postfixed ts e rest) : Takes unary ts e rest := by
  intro l hl
  have hnone : unaryOp? l = none := by
    unfold unaryOp?
    split
    · next m offset l' =>
      subst hl
      have hm : (Token.mark m).isSign = false := hfirst _ rfl
      have hop : UnaryOp.ofMark? m = none := by simpa [Token.isSign] using hm
      rw [hop]
      rfl
    · rfl
  rw [unary]
  split
  · next hop =>
    rw [hnone] at hop
    cases hop
  · exact h l hl

/-! ## §3. Accesses and calls -/

/-- Whether a token behind an expression starts an access or a call. -/
def Token.extends : Token → Bool
  | .mark .dot | .mark .leftBracket | .mark .leftParen => true
  | _ => false

theorem takes_postfixed (hprimary : Takes primary ts e₁ ts₁)
    (htail : Takes (postfixTail e₁) ts₁ e rest) : Takes postfixed ts e rest := by
  intro l hl
  obtain ⟨⟨_, l₁, hlt₁⟩, hp, rfl, hl₁⟩ := hprimary l hl
  obtain ⟨p, hq, hresult, hrest⟩ := htail l₁ hl₁
  rw [postfixed, hp]
  simp only
  rw [hq]
  exact ⟨_, rfl, hresult, hrest⟩

theorem takes_postfixTail_stop (hstop : ∀ t ∈ ts.head?, t.extends = false) :
    Takes (postfixTail e) ts e ts := by
  intro l hl
  unfold postfixTail
  split
  · subst hl
    cases hstop _ rfl
  · subst hl
    cases hstop _ rfl
  · subst hl
    cases hstop _ rfl
  · subst hl
    cases hstop _ rfl
  · exact ⟨_, rfl, rfl, hl⟩

theorem takes_postfixTail_member {name : String}
    (h : Takes (postfixTail (.member e₁ name)) ts e rest) :
    Takes (postfixTail e₁) (.mark .dot :: .ident name :: ts) e rest := by
  intro l hl
  obtain ⟨offset, l', rfl, hl'⟩ := exists_located_cons hl
  obtain ⟨offset', l'', rfl, hl''⟩ := exists_located_cons hl'
  obtain ⟨p, hp, hresult, hrest⟩ := h l'' hl''
  rw [postfixTail, hp]
  exact ⟨_, rfl, hresult, hrest⟩

theorem takes_postfixTail_index (hposition : Takes expression ts e₂ (.mark .rightBracket :: ts₁))
    (h : Takes (postfixTail (.index e₁ e₂)) ts₁ e rest) :
    Takes (postfixTail e₁) (.mark .leftBracket :: ts) e rest := by
  intro l hl
  obtain ⟨offset, l', rfl, hl'⟩ := exists_located_cons hl
  obtain ⟨⟨_, l₁, hlt₁⟩, hp, rfl, hl₁⟩ := hposition l' hl'
  obtain ⟨⟨_, l₂, hlt₂⟩, hq, -, hl₂⟩ := takes_expect _ _ l₁ hl₁
  obtain ⟨p, hr, hresult, hrest⟩ := h l₂ hl₂
  rw [postfixTail, hp]
  simp only
  rw [hq]
  simp only
  rw [hr]
  exact ⟨_, rfl, hresult, hrest⟩

theorem takes_postfixTail_call (hargs : Takes (listUpTo .rightParen) ts es ts₁)
    (h : Takes (postfixTail (.call e₁ es)) ts₁ e rest) :
    Takes (postfixTail e₁) (.mark .leftParen :: ts) e rest := by
  intro l hl
  obtain ⟨offset, l', rfl, hl'⟩ := exists_located_cons hl
  obtain ⟨⟨_, l₁, hlt₁⟩, hp, rfl, hl₁⟩ := hargs l' hl'
  obtain ⟨p, hq, hresult, hrest⟩ := h l₁ hl₁
  rw [postfixTail, hp]
  simp only
  rw [hq]
  exact ⟨_, rfl, hresult, hrest⟩

/-! ## §4. Constants, names and brackets -/

theorem takes_primary_number (f : Float) (ts : List Token) :
    Takes primary (.number f :: ts) (.lit (Value.number f)) ts := by
  intro l hl
  obtain ⟨offset, l', rfl, hl'⟩ := exists_located_cons hl
  rw [primary]
  exact ⟨_, rfl, rfl, hl'⟩

theorem takes_primary_str (s : String) (ts : List Token) :
    Takes primary (.str s :: ts) (.lit (.str s)) ts := by
  intro l hl
  obtain ⟨offset, l', rfl, hl'⟩ := exists_located_cons hl
  rw [primary]
  exact ⟨_, rfl, rfl, hl'⟩

theorem takes_primary_ident (name : String) (ts : List Token) :
    Takes primary (.ident name :: ts) (Expr.ofName name) ts := by
  intro l hl
  obtain ⟨offset, l', rfl, hl'⟩ := exists_located_cons hl
  rw [primary]
  exact ⟨_, rfl, rfl, hl'⟩

theorem takes_primary_parens (h : Takes expression ts e (.mark .rightParen :: rest)) :
    Takes primary (.mark .leftParen :: ts) e rest := by
  intro l hl
  obtain ⟨offset, l', rfl, hl'⟩ := exists_located_cons hl
  obtain ⟨⟨_, l₁, hlt₁⟩, hp, rfl, hl₁⟩ := h l' hl'
  obtain ⟨p, hq, -, hrest⟩ := takes_expect _ _ l₁ hl₁
  rw [primary, hp]
  simp only
  rw [hq]
  exact ⟨_, rfl, rfl, hrest⟩

theorem takes_primary_array (h : Takes (listUpTo .rightBracket) ts es rest) :
    Takes primary (.mark .leftBracket :: ts) (.array es) rest := by
  intro l hl
  obtain ⟨offset, l', rfl, hl'⟩ := exists_located_cons hl
  obtain ⟨p, hp, rfl, hrest⟩ := h l' hl'
  rw [primary, hp]
  exact ⟨_, rfl, rfl, hrest⟩

theorem takes_primary_object {fields : List (String × Expr)}
    (h : Takes objectFields ts fields rest) :
    Takes primary (.mark .leftBrace :: ts) (.object fields) rest := by
  intro l hl
  obtain ⟨offset, l', rfl, hl'⟩ := exists_located_cons hl
  obtain ⟨p, hp, rfl, hrest⟩ := h l' hl'
  rw [primary, hp]
  exact ⟨_, rfl, rfl, hrest⟩

/-! ## §5. Lists, fields and statements -/

section lists

variable {close : Mark}

theorem takes_listUpTo_nil (close : Mark) (ts : List Token) :
    Takes (listUpTo close) (.mark close :: ts) [] ts := by
  intro l hl
  obtain ⟨l', heat, hl'⟩ := eat?_of_token hl
  rw [listUpTo]
  split
  · next h =>
    obtain rfl := Option.some.inj (heat.symm.trans h)
    exact ⟨_, rfl, rfl, hl'⟩
  · next h =>
    rw [heat] at h
    cases h

theorem takes_listUpTo_cons (hfirst : ts.head? ≠ some (.mark close))
    (h : Takes expression ts e (.mark .comma :: ts₁)) (htail : Takes (listUpTo close) ts₁ es rest) :
    Takes (listUpTo close) ts (e :: es) rest := by
  intro l hl
  obtain ⟨⟨_, l₁, hlt₁⟩, hp, rfl, hl₁⟩ := h l hl
  obtain ⟨l₂, heat, hl₂⟩ := eat?_of_token hl₁
  obtain ⟨p, hq, rfl, hrest⟩ := htail l₂ hl₂
  rw [listUpTo]
  split
  · next h =>
    rw [eat?_eq_none hl hfirst] at h
    cases h
  · rw [hp]
    simp only
    split
    · next h =>
      obtain rfl := Option.some.inj (heat.symm.trans h)
      rw [hq]
      exact ⟨_, rfl, rfl, hrest⟩
    · next h =>
      rw [heat] at h
      cases h

theorem takes_listUpTo_last (hfirst : ts.head? ≠ some (.mark close)) (hclose : close ≠ .comma)
    (h : Takes expression ts e (.mark close :: rest)) : Takes (listUpTo close) ts [e] rest := by
  intro l hl
  obtain ⟨⟨_, l₁, hlt₁⟩, hp, rfl, hl₁⟩ := h l hl
  obtain ⟨p, hq, -, hrest⟩ := takes_expect _ _ l₁ hl₁
  have hcomma : eat? .comma l₁ = none := eat?_eq_none hl₁ (by simp [hclose])
  rw [listUpTo]
  split
  · next h =>
    rw [eat?_eq_none hl hfirst] at h
    cases h
  · rw [hp]
    simp only
    split
    · next h =>
      rw [hcomma] at h
      cases h
    · rw [hq]
      exact ⟨_, rfl, rfl, hrest⟩

end lists

theorem takes_fieldValue (key : String) (h : Takes expression ts e rest) :
    Takes (fieldValue key) (.mark .colon :: ts) e rest := by
  intro l hl
  obtain ⟨l', heat, hl'⟩ := eat?_of_token hl
  obtain ⟨p, hp, hresult, hrest⟩ := h l' hl'
  rw [fieldValue]
  split
  · next h =>
    rw [heat] at h
    cases h
  · next h =>
    obtain rfl := Option.some.inj (heat.symm.trans h)
    rw [hp]
    exact ⟨_, rfl, hresult, hrest⟩

theorem takes_objectFields_nil (ts : List Token) :
    Takes objectFields (.mark .rightBrace :: ts) [] ts := by
  intro l hl
  obtain ⟨l', heat, hl'⟩ := eat?_of_token hl
  rw [objectFields]
  split
  · next h =>
    obtain rfl := Option.some.inj (heat.symm.trans h)
    exact ⟨_, rfl, rfl, hl'⟩
  · next h =>
    rw [heat] at h
    cases h

section fields

variable {key : String} {fields : List (String × Expr)}

/-- A token that can be a key is no mark. -/
theorem ne_mark_of_fieldKey? (h : fieldKey? t = some key) (m : Mark) : t ≠ .mark m := by
  rintro rfl
  cases h

theorem takes_objectFields_cons (hkey : fieldKey? t = some key)
    (h : Takes expression ts e (.mark .comma :: ts₁)) (htail : Takes objectFields ts₁ fields rest) :
    Takes objectFields (t :: .mark .colon :: ts) ((key, e) :: fields) rest := by
  intro l hl
  obtain ⟨offset, l', rfl, hl'⟩ := exists_located_cons hl
  obtain ⟨⟨_, l₁, hlt₁⟩, hp, rfl, hl₁⟩ := takes_fieldValue key h l' hl'
  obtain ⟨l₂, heat, hl₂⟩ := eat?_of_token hl₁
  obtain ⟨p, hq, rfl, hrest⟩ := htail l₂ hl₂
  have hbrace : eat? .rightBrace (⟨t, offset⟩ :: l') = none :=
    eat?_eq_none hl (by simpa using ne_mark_of_fieldKey? hkey _)
  rw [objectFields]
  split
  · next h =>
    rw [hbrace] at h
    cases h
  · simp only [hkey]
    rw [hp]
    simp only
    split
    · next h =>
      obtain rfl := Option.some.inj (heat.symm.trans h)
      rw [hq]
      exact ⟨_, rfl, rfl, hrest⟩
    · next h =>
      rw [heat] at h
      cases h

theorem takes_objectFields_last (hkey : fieldKey? t = some key)
    (h : Takes expression ts e (.mark .rightBrace :: rest)) :
    Takes objectFields (t :: .mark .colon :: ts) [(key, e)] rest := by
  intro l hl
  obtain ⟨offset, l', rfl, hl'⟩ := exists_located_cons hl
  obtain ⟨⟨_, l₁, hlt₁⟩, hp, rfl, hl₁⟩ := takes_fieldValue key h l' hl'
  obtain ⟨p, hq, -, hrest⟩ := takes_expect _ _ l₁ hl₁
  have hcomma : eat? .comma l₁ = none := eat?_eq_none hl₁ (by simp)
  have hbrace : eat? .rightBrace (⟨t, offset⟩ :: l') = none :=
    eat?_eq_none hl (by simpa using ne_mark_of_fieldKey? hkey _)
  rw [objectFields]
  split
  · next h =>
    rw [hbrace] at h
    cases h
  · simp only [hkey]
    rw [hp]
    simp only
    split
    · next h =>
      rw [hcomma] at h
      cases h
    · rw [hq]
      exact ⟨_, rfl, rfl, hrest⟩

end fields

theorem takes_statements_semicolon (h : Takes statements ts es rest) :
    Takes statements (.mark .semicolon :: ts) es rest := by
  intro l hl
  obtain ⟨l', heat, hl'⟩ := eat?_of_token hl
  obtain ⟨p, hp, hresult, hrest⟩ := h l' hl'
  rw [statements]
  split
  · next h =>
    obtain rfl := Option.some.inj (heat.symm.trans h)
    rw [hp]
    exact ⟨_, rfl, hresult, hrest⟩
  · next h =>
    rw [heat] at h
    cases h

theorem takes_statements_nil (ts : List Token) :
    Takes statements (.mark .rightBrace :: ts) [] ts := by
  intro l hl
  obtain ⟨l', heat, hl'⟩ := eat?_of_token hl
  have hsemicolon : eat? .semicolon l = none := eat?_eq_none hl (by simp)
  rw [statements]
  split
  · next h =>
    rw [hsemicolon] at h
    cases h
  · split
    · next h =>
      obtain rfl := Option.some.inj (heat.symm.trans h)
      exact ⟨_, rfl, rfl, hl'⟩
    · next h =>
      rw [heat] at h
      cases h

theorem takes_statements_cons (hsemicolon : ts.head? ≠ some (.mark .semicolon))
    (hbrace : ts.head? ≠ some (.mark .rightBrace)) (h : Takes expression ts e ts₁)
    (htail : Takes statements ts₁ es rest) : Takes statements ts (e :: es) rest := by
  intro l hl
  obtain ⟨⟨_, l₁, hlt₁⟩, hp, rfl, hl₁⟩ := h l hl
  obtain ⟨p, hq, rfl, hrest⟩ := htail l₁ hl₁
  rw [statements]
  split
  · next h =>
    rw [eat?_eq_none hl hsemicolon] at h
    cases h
  · split
    · next h =>
      rw [eat?_eq_none hl hbrace] at h
      cases h
    · rw [hp]
      simp only
      rw [hq]
      exact ⟨_, rfl, rfl, hrest⟩

/-! ## §6. Choices -/

theorem takes_conditional_of_binary (hfirst : rest.head? ≠ some (.mark .question))
    (h : Takes (binary 1) ts e rest) : Takes conditional ts e rest := by
  intro l hl
  obtain ⟨⟨_, l₁, hlt₁⟩, hp, rfl, hl₁⟩ := h l hl
  rw [conditional, hp]
  simp only
  split
  · exact ⟨_, rfl, rfl, hl₁⟩
  · next h =>
    rw [eat?_eq_none hl₁ hfirst] at h
    cases h

theorem takes_conditional {test : Expr} (htest : Takes (binary 1) ts test (.mark .question :: ts₁))
    (h₁ : Takes expression ts₁ e₁ (.mark .colon :: ts₂)) (h₂ : Takes expression ts₂ e₂ rest) :
    Takes conditional ts (.cond test e₁ e₂) rest := by
  intro l hl
  obtain ⟨⟨_, l₁, hlt₁⟩, hp, rfl, hl₁⟩ := htest l hl
  obtain ⟨l₁', heat, hl₁'⟩ := eat?_of_token hl₁
  obtain ⟨⟨_, l₂, hlt₂⟩, hp₁, rfl, hl₂⟩ := h₁ l₁' hl₁'
  obtain ⟨⟨_, l₃, hlt₃⟩, hq, -, hl₃⟩ := takes_expect _ _ l₂ hl₂
  obtain ⟨p, hr, rfl, hrest⟩ := h₂ l₃ hl₃
  rw [conditional, hp]
  simp only
  split
  · next h =>
    rw [heat] at h
    cases h
  · next h =>
    obtain rfl := Option.some.inj (heat.symm.trans h)
    rw [hp₁]
    simp only
    rw [hq]
    simp only
    rw [hr]
    exact ⟨_, rfl, rfl, hrest⟩

/-! ## §7. Functions -/

/-- Runs of tokens with a mark between them. -/
def separated (sep : Mark) : List (List Token) → List Token
  | [] => []
  | [ts] => ts
  | ts :: ts' :: tss => ts ++ .mark sep :: separated sep (ts' :: tss)

/-- The names of a parameter list, with commas between them. -/
def nameTokens (names : List String) : List Token :=
  separated .comma (names.map fun name => [.ident name])

/-- A parameter list and the arrow behind it; a single parameter may stand without parentheses. -/
inductive Heads : List String → List Token → Prop where
  /-- A name. -/
  | bare (name : String) : Heads [name] [.ident name, .mark .arrow]
  /-- Names in parentheses. -/
  | parens (names : List String) :
      Heads names (.mark .leftParen :: nameTokens names ++ [.mark .rightParen, .mark .arrow])

theorem paramNames?_of_tokens {names : List String}
    (h : l.map (·.token) = nameTokens names ++ .mark .rightParen :: ts) :
    ∃ l', paramNames? l = some (names, l') ∧ l'.map (·.token) = ts := by
  induction names generalizing l with
  | nil =>
    obtain ⟨offset, l', rfl, hl'⟩ := exists_located_cons h
    exact ⟨l', by rw [paramNames?], hl'⟩
  | cons name names ih =>
    cases names with
    | nil =>
      obtain ⟨offset, l', rfl, hl'⟩ := exists_located_cons h
      obtain ⟨offset', l'', rfl, hl''⟩ := exists_located_cons hl'
      exact ⟨l'', by rw [paramNames?], hl''⟩
    | cons name' names =>
      obtain ⟨offset, l', rfl, hl'⟩ := exists_located_cons h
      obtain ⟨offset', l'', rfl, hl''⟩ := exists_located_cons hl'
      obtain ⟨l₁, hl₁, hrest⟩ := ih hl''
      exact ⟨l₁, by rw [paramNames?, hl₁]; rfl, hrest⟩

theorem arrowParams?_of_heads {names : List String} {head : List Token} (hhead : Heads names head)
    (h : l.map (·.token) = head ++ ts) :
    ∃ l', arrowParams? l = some (names, l') ∧ l'.map (·.token) = ts := by
  cases hhead with
  | bare name =>
    obtain ⟨offset, l', rfl, hl'⟩ := exists_located_cons h
    obtain ⟨offset', l'', rfl, hl''⟩ := exists_located_cons hl'
    exact ⟨l'', rfl, hl''⟩
  | parens =>
    obtain ⟨offset, l', rfl, hl'⟩ := exists_located_cons h
    have hnames : l'.map (·.token)
        = nameTokens names ++ .mark .rightParen :: (.mark .arrow :: ts) := by simpa using hl'
    obtain ⟨l₁, hnames, hl₁⟩ := paramNames?_of_tokens hnames
    obtain ⟨l₂, heat, hl₂⟩ := eat?_of_token hl₁
    refine ⟨l₂, ?_, hl₂⟩
    simp [arrowParams?, hnames, heat]

/-- A function with a block. -/
theorem takes_expression_block {names : List String} {head : List Token} (hhead : Heads names head)
    (h : Takes statements ts es rest) :
    Takes expression (head ++ .mark .leftBrace :: ts) (.lambda names (.block es)) rest := by
  intro l hl
  obtain ⟨l₁, harrow, hl₁⟩ := arrowParams?_of_heads hhead hl
  obtain ⟨l₂, heat, hl₂⟩ := eat?_of_token hl₁
  obtain ⟨p, hp, rfl, hrest⟩ := h l₂ hl₂
  rw [expression]
  split
  · next h =>
    rw [harrow] at h
    simp only [Option.some.injEq, Prod.mk.injEq] at h
    obtain ⟨rfl, rfl⟩ := h
    simp only
    split
    · next h =>
      obtain rfl := Option.some.inj (heat.symm.trans h)
      rw [hp]
      exact ⟨_, rfl, rfl, hrest⟩
    · next h =>
      rw [heat] at h
      cases h
  · next h =>
    rw [harrow] at h
    cases h

/-- A function with an expression, which must not start like a block. -/
theorem takes_expression_lambda {names : List String} {head : List Token} (hhead : Heads names head)
    (hfirst : ts.head? ≠ some (.mark .leftBrace)) (h : Takes expression ts e rest) :
    Takes expression (head ++ ts) (.lambda names e) rest := by
  intro l hl
  obtain ⟨l₁, harrow, hl₁⟩ := arrowParams?_of_heads hhead hl
  obtain ⟨p, hp, rfl, hrest⟩ := h l₁ hl₁
  rw [expression]
  split
  · next h =>
    rw [harrow] at h
    simp only [Option.some.injEq, Prod.mk.injEq] at h
    obtain ⟨rfl, rfl⟩ := h
    simp only
    split
    · next h =>
      rw [eat?_eq_none hl₁ hfirst] at h
      cases h
    · rw [hp]
      exact ⟨_, rfl, rfl, hrest⟩
  · next h =>
    rw [harrow] at h
    cases h

/-! ### Where no function starts -/

/-- The tokens after an opening parenthesis are told by the first two to be no parameter list. -/
def Unlisted : List Token → Prop
  | .ident _ :: .mark m :: _ => m ≠ .rightParen ∧ m ≠ .comma
  | .ident _ :: _ :: _ => True
  | .mark m :: _ => m ≠ .rightParen
  | .number _ :: _ => True
  | .str _ :: _ => True
  | _ => False

/-- The first tokens tell that no function starts here. -/
def Plain : List Token → Prop
  | .ident _ :: .mark m :: _ => m ≠ .arrow
  | .ident _ :: _ => True
  | .mark .leftParen :: ts => Unlisted ts
  | .mark _ :: _ => True
  | .number _ :: _ => True
  | .str _ :: _ => True
  | [] => True

theorem paramNames?_eq_none (h : Unlisted (l.map (·.token))) : paramNames? l = none := by
  unfold paramNames?
  split
  · exact absurd rfl h
  · exact absurd rfl h.1
  · exact absurd rfl h.2
  · rfl

theorem arrowParams?_eq_none (h : Plain (l.map (·.token))) : arrowParams? l = none := by
  unfold arrowParams?
  split
  · exact absurd rfl h
  · rw [paramNames?_eq_none h]
  · rfl

theorem takes_expression_of_conditional (hplain : Plain ts) (h : Takes conditional ts e rest) :
    Takes expression ts e rest := by
  intro l hl
  have hnone : arrowParams? l = none := arrowParams?_eq_none (by rw [hl]; exact hplain)
  rw [expression]
  split
  · next harrow =>
    rw [hnone] at harrow
    cases harrow
  · exact h l hl

end ReactiveView
