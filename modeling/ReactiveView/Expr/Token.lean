import ReactiveView.Decimal.Layout
import ReactiveView.Decimal.Reader
import ReactiveView.Text.Ascii
import ReactiveView.Text.Blank
import ReactiveView.Text.Letter
import ReactiveView.Text.Quoted

/-! # Tokens of expressions

  An expression is a list of numbers, strings, names and marks, with blanks
  between them as the author likes. Each token keeps the byte offset at which it
  starts.

  - `Token.text` is a token as messages show it.
  - `SyntaxError` lists why a text is no expression, for the tokens as well as
    for the grammar above them.
  - `tokenize` splits a text into tokens.
-/

namespace ReactiveView

/-! ## §1. Marks and tokens -/

/-- Punctuation and operators. -/
inductive Mark where
  /-- `(` -/
  | leftParen
  /-- `)` -/
  | rightParen
  /-- `[` -/
  | leftBracket
  /-- `]` -/
  | rightBracket
  /-- The opening brace. -/
  | leftBrace
  /-- The closing brace. -/
  | rightBrace
  /-- `,` -/
  | comma
  /-- `.` -/
  | dot
  /-- `:` -/
  | colon
  /-- `;` -/
  | semicolon
  /-- `?` -/
  | question
  /-- `!` -/
  | bang
  /-- `+` -/
  | plus
  /-- `-` -/
  | minus
  /-- `*` -/
  | star
  /-- `/` -/
  | slash
  /-- `%` -/
  | percent
  /-- `<` -/
  | less
  /-- `<=` -/
  | lessEq
  /-- `>` -/
  | greater
  /-- `>=` -/
  | greaterEq
  /-- `==` -/
  | eqEq
  /-- `!=` -/
  | notEq
  /-- `===` -/
  | eqEqEq
  /-- `!==` -/
  | notEqEq
  /-- `&&` -/
  | andAnd
  /-- `||` -/
  | orOr
  /-- `=>` -/
  | arrow
deriving DecidableEq

/-- The spelling of a mark. -/
def Mark.text : Mark → String
  | leftParen => "("
  | rightParen => ")"
  | leftBracket => "["
  | rightBracket => "]"
  | leftBrace => "\x7b"
  | rightBrace => "\x7d"
  | comma => ","
  | dot => "."
  | colon => ":"
  | semicolon => ";"
  | question => "?"
  | bang => "!"
  | plus => "+"
  | minus => "-"
  | star => "*"
  | slash => "/"
  | percent => "%"
  | less => "<"
  | lessEq => "<="
  | greater => ">"
  | greaterEq => ">="
  | eqEq => "=="
  | notEq => "!="
  | eqEqEq => "==="
  | notEqEq => "!=="
  | andAnd => "&&"
  | orOr => "||"
  | arrow => "=>"

/-- A token. -/
inductive Token where
  /-- A number. -/
  | number (f : Float)
  /-- A string, its escapes resolved. -/
  | str (s : String)
  /-- A name. -/
  | ident (name : String)
  /-- A mark. -/
  | mark (m : Mark)
deriving DecidableEq

/-- A token as messages show it. -/
def Token.text : Token → String
  | number f => String.ofList (Decimal.plainText f)
  | str s => Text.quoted s
  | ident name => name
  | mark m => m.text

/-- A token and the byte offset where it starts. -/
structure Located where
  /-- The token. -/
  token : Token
  /-- The offset of its first byte. -/
  offset : Nat
deriving DecidableEq

/-! ## §2. Errors -/

/-- Why a text is no expression. -/
inductive SyntaxError where
  /-- No token starts with this character. -/
  | unexpectedChar (c : Char) (offset : Nat)
  /-- The string that starts here has no closing quote. -/
  | unterminatedString (offset : Nat)
  /-- The grammar does not allow the token here. -/
  | unexpectedToken (found : Located)
  /-- The text stops in the middle of an expression. -/
  | unexpectedEnd
deriving DecidableEq

/-- The message of a syntax error. -/
def SyntaxError.message : SyntaxError → String
  | unexpectedChar c offset =>
    "unexpected character \x60" ++ String.singleton c ++ "\x60 at offset " ++ toString offset
  | unterminatedString offset =>
    "unterminated string literal starting at offset " ++ toString offset
  | unexpectedToken found =>
    "unexpected \x60" ++ found.token.text ++ "\x60 at offset " ++ toString found.offset
  | unexpectedEnd => "unexpected end of expression"

/-! ## §3. Lexemes -/

/-- Whether a name can start with the character. -/
def isNameStart (c : Char) : Bool := Text.isLetter c || c = '_' || c = '$'

/-- Whether a name can go on with the character. -/
def isNameChar (c : Char) : Bool := Text.isLetterOrNumber c || c = '_' || c = '$'

/-- Whether a string can start with the character. -/
def isQuote (c : Char) : Bool := c = '\'' || c = '"' || c = '\x60'

/-- What a character after a backslash stands for. -/
def unescaped (c : Char) : Char :=
  match c with
  | 'n' => '\n'
  | 't' => '\t'
  | 'r' => '\r'
  | c => c

/-- The inside of a string up to its closing quote, and the rest. -/
def stringBody? (quote : Char) : List Char → Option (List Char × List Char)
  | [] => none
  | c :: s =>
    if c = quote then some ([], s)
    else if c = '\\' then
      match s with
      | [] => none
      | d :: s => (stringBody? quote s).map fun (body, rest) => (unescaped d :: body, rest)
    else (stringBody? quote s).map fun (body, rest) => (c :: body, rest)

/-- A number at the front: digits, and a fraction if a digit follows the point. -/
def numberLexeme (s : List Char) : Float × List Char :=
  let whole := s.takeWhile Char.isDigit
  match s.dropWhile Char.isDigit with
  | '.' :: r =>
    let fraction := r.takeWhile Char.isDigit
    if fraction = [] then (Decimal.nearest (Decimal.ofDigits whole) 0, '.' :: r)
    else
      (Decimal.nearest (Decimal.ofDigits (whole ++ fraction)) (-(fraction.length : Int)),
        r.dropWhile Char.isDigit)
  | r => (Decimal.nearest (Decimal.ofDigits whole) 0, r)

/-- The mark at the front: the longest one that fits. -/
def mark? : List Char → Option (Mark × List Char)
  | '=' :: '=' :: '=' :: s => some (.eqEqEq, s)
  | '!' :: '=' :: '=' :: s => some (.notEqEq, s)
  | '=' :: '=' :: s => some (.eqEq, s)
  | '!' :: '=' :: s => some (.notEq, s)
  | '=' :: '>' :: s => some (.arrow, s)
  | '<' :: '=' :: s => some (.lessEq, s)
  | '>' :: '=' :: s => some (.greaterEq, s)
  | '&' :: '&' :: s => some (.andAnd, s)
  | '|' :: '|' :: s => some (.orOr, s)
  | '(' :: s => some (.leftParen, s)
  | ')' :: s => some (.rightParen, s)
  | '[' :: s => some (.leftBracket, s)
  | ']' :: s => some (.rightBracket, s)
  | '\x7b' :: s => some (.leftBrace, s)
  | '\x7d' :: s => some (.rightBrace, s)
  | ',' :: s => some (.comma, s)
  | '.' :: s => some (.dot, s)
  | ':' :: s => some (.colon, s)
  | ';' :: s => some (.semicolon, s)
  | '?' :: s => some (.question, s)
  | '!' :: s => some (.bang, s)
  | '+' :: s => some (.plus, s)
  | '-' :: s => some (.minus, s)
  | '*' :: s => some (.star, s)
  | '/' :: s => some (.slash, s)
  | '%' :: s => some (.percent, s)
  | '<' :: s => some (.less, s)
  | '>' :: s => some (.greater, s)
  | _ => none

/-- The token that starts with `c`, at the given offset, and the rest of the text. -/
def lexeme (offset : Nat) (c : Char) (s : List Char) : Except SyntaxError (Token × List Char) :=
  if c.isDigit then
    let (f, rest) := numberLexeme (c :: s)
    .ok (.number f, rest)
  else if isNameStart c then
    .ok (.ident (String.ofList (c :: s.takeWhile isNameChar)), s.dropWhile isNameChar)
  else if isQuote c then
    match stringBody? c s with
    | some (body, rest) => .ok (.str (String.ofList body), rest)
    | none => .error (.unterminatedString offset)
  else
    match mark? (c :: s) with
    | some (m, rest) => .ok (.mark m, rest)
    | none => .error (.unexpectedChar c offset)

/-! ### A lexeme is not empty -/

theorem stringBody?_length {q : Char} {s body rest : List Char}
    (h : stringBody? q s = some (body, rest)) : rest.length < s.length := by
  fun_induction stringBody? q s generalizing body rest with
  | case1 => simp at h
  | case2 => simp at h; simp [← h.2]
  | case3 => simp at h
  | case4 _ d s ih =>
    obtain ⟨⟨b, r⟩, hb, heq⟩ := Option.map_eq_some_iff.1 h
    simp only [Prod.mk.injEq] at heq
    have := ih hb
    simp [← heq.2]; omega
  | case5 c s _ _ ih =>
    obtain ⟨⟨b, r⟩, hb, heq⟩ := Option.map_eq_some_iff.1 h
    simp only [Prod.mk.injEq] at heq
    have := ih hb
    simp [← heq.2]; omega

theorem numberLexeme_length {c : Char} {s : List Char} (h : c.isDigit = true) :
    (numberLexeme (c :: s)).2.length < (c :: s).length := by
  have hw : ((c :: s).dropWhile Char.isDigit).length ≤ s.length := by
    simp only [List.dropWhile_cons, h, ↓reduceIte]
    exact (List.dropWhile_suffix _).length_le
  simp only [numberLexeme]
  split
  · next r hr =>
    rw [hr] at hw
    simp only [List.length_cons] at hw
    have := (List.dropWhile_suffix Char.isDigit (l := r)).length_le
    split <;> simp <;> omega
  · simp only [List.length_cons]; omega

theorem mark?_length {s rest : List Char} {m : Mark} (h : mark? s = some (m, rest)) :
    rest.length < s.length := by
  unfold mark? at h
  split at h <;> simp at h <;> (obtain ⟨_, rfl⟩ := h; simp <;> omega)

theorem lexeme_length {offset : Nat} {c : Char} {s rest : List Char} {t : Token}
    (h : lexeme offset c s = .ok (t, rest)) : rest.length < (c :: s).length := by
  unfold lexeme at h
  split at h
  · next hd =>
    have := numberLexeme_length (s := s) hd
    simp only [Except.ok.injEq, Prod.mk.injEq] at h
    rw [← h.2]; exact this
  · split at h
    · simp only [Except.ok.injEq, Prod.mk.injEq] at h
      rw [← h.2]
      have := (List.dropWhile_suffix isNameChar (l := s)).length_le
      simp only [List.length_cons]; omega
    · split at h
      · split at h
        · next hb =>
          simp only [Except.ok.injEq, Prod.mk.injEq] at h
          rw [← h.2]
          have := stringBody?_length hb
          simp only [List.length_cons]; omega
        · simp at h
      · split at h
        · next hm =>
          simp only [Except.ok.injEq, Prod.mk.injEq] at h
          rw [← h.2]
          exact mark?_length hm
        · simp at h

/-! ## §4. Texts -/

/-- The tokens of a text whose first character has the given offset. -/
def tokensFrom (offset : Nat) (s : List Char) : Except SyntaxError (List Located) :=
  match hs : s.dropWhile Text.isBlank with
  | [] => .ok []
  | c :: t =>
    let start := offset + Text.byteLength (s.takeWhile Text.isBlank)
    match ht : lexeme start c t with
    | .error e => .error e
    | .ok (token, rest) =>
      have : rest.length < s.length := by
        have := lexeme_length ht
        have := congrArg List.length hs
        have := (List.dropWhile_suffix Text.isBlank (l := s)).length_le
        simp at *
        omega
      let stop := start + (Text.byteLength (c :: t) - Text.byteLength rest)
      match tokensFrom stop rest with
      | .error e => .error e
      | .ok tokens => .ok (⟨token, start⟩ :: tokens)
termination_by s.length

/-- The tokens of a text, with their byte offsets. -/
def tokenize (source : String) : Except SyntaxError (List Located) :=
  tokensFrom 0 source.toList

end ReactiveView
