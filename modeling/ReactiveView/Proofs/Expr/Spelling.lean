import ReactiveView.Proofs.Expr.RoundTrip
import ReactiveView.Template.Compile

/-! # Texts of names and marks

  `Spells` relates a text to the tokens that it is read as, wherever it stands,
  for texts of names and marks with blanks between them. A name is read as far as
  its characters go, so that none may follow; a mark is the longest that fits.

  * `Spells.readAs`: the tokens are read.
  * `Spells.parse_eq`: if they print an expression, the text is parsed as it.
-/

namespace ReactiveView

variable {c : Char} {s t rest : List Char} {ts : List Token}

/-! ## §1. Classes of characters -/

/-- The code points of the blanks. -/
def blankCodes : List Nat :=
  [0x20, 0x85, 0xa0, 0x1680, 0x2028, 0x2029, 0x202f, 0x205f, 0x3000] ++ List.range' 0x09 5 ++
    List.range' 0x2000 11

theorem toNat_mem_blankCodes (h : Text.isBlank c = true) : c.toNat ∈ blankCodes := by
  simp only [Text.isBlank, Bool.or_eq_true, Bool.and_eq_true, decide_eq_true_eq] at h
  simp only [blankCodes, List.mem_append, List.mem_cons, List.not_mem_nil, or_false,
    List.mem_range'_1]
  by_cases hspace : c = ' '
  · subst hspace
    decide
  · simp only [hspace, false_or] at h
    omega

theorem toNat_mem_of_isDigit (h : c.isDigit = true) : c.toNat ∈ List.range' 0x30 10 := by
  rw [List.mem_range'_1]
  simp only [Char.isDigit, Bool.and_eq_true, decide_eq_true_eq, UInt32.le_iff_toNat_le] at h
  exact ⟨h.1, Nat.lt_succ_of_le h.2⟩

/-- A blank stands in no name. -/
theorem isBlank_eq_false_of_isNameChar (h : isNameChar c = true) : Text.isBlank c = false := by
  rw [Bool.eq_false_iff]
  intro hblank
  have hnone : ∀ n ∈ blankCodes, Text.inBoundaries Text.alphabeticBoundaries n = false ∧
      Text.inBoundaries Text.numericBoundaries n = false := by decide +kernel
  -- What is left are the underscore and the dollar sign.
  obtain ⟨hletter, hnumber⟩ := hnone _ (toNat_mem_blankCodes hblank)
  simp only [isNameChar, Text.isLetterOrNumber, Text.isLetter, hletter, hnumber, Bool.false_or,
    Bool.or_eq_true, decide_eq_true_eq] at h
  rcases h with rfl | rfl
  · cases hblank
  · cases hblank

theorem isNameChar_eq_false_of_isBlank (h : Text.isBlank c = true) : isNameChar c = false := by
  rw [Bool.eq_false_iff]
  intro hname
  rw [isBlank_eq_false_of_isNameChar hname] at h
  cases h

theorem isNameChar_of_isNameStart (h : isNameStart c = true) : isNameChar c = true := by
  simp only [isNameStart, isNameChar, Bool.or_eq_true] at h ⊢
  exact h.imp_left (Or.imp_left Text.isLetterOrNumber_of_isLetter)

/-- A name does not start with a digit. -/
theorem isDigit_eq_false_of_isNameStart (h : isNameStart c = true) : c.isDigit = false := by
  rw [Bool.eq_false_iff]
  intro hdigit
  have hnone : ∀ n ∈ List.range' 0x30 10,
      Text.inBoundaries Text.alphabeticBoundaries n = false := by decide +kernel
  simp only [isNameStart, Text.isLetter, hnone _ (toNat_mem_of_isDigit hdigit), Bool.false_or,
    Bool.or_eq_true, decide_eq_true_eq] at h
  rcases h with rfl | rfl
  · cases hdigit
  · cases hdigit

/-- The characters that start marks. -/
def markStarts : List Char :=
  ['=', '!', '<', '>', '&', '|', '(', ')', '[', ']', '\x7b', '\x7d', ',', '.', ':', ';', '?', '+',
    '-', '*', '/', '%']

theorem mem_markStarts {m : Mark} (h : mark? (c :: s) = some (m, rest)) : c ∈ markStarts := by
  generalize hfront : c :: s = front at h
  unfold mark? at h
  split at h
  all_goals
    cases hfront
    first
    | decide
    | cases h

/-- What starts a mark starts nothing else. -/
theorem mark?_alone {m : Mark} (h : mark? (c :: s) = some (m, rest)) :
    Text.isBlank c = false ∧ c.isDigit = false ∧ isNameStart c = false ∧ isQuote c = false := by
  have halone : markStarts.all fun d =>
      !(Text.isBlank d || d.isDigit || isNameStart d || isQuote d) := by decide +kernel
  have hc := List.all_eq_true.mp halone c (mem_markStarts h)
  simpa [and_assoc] using hc

/-! ## §2. One token -/

/-- No name goes on with the text. -/
def EndsName (rest : List Char) : Prop := rest.head?.all (fun d => !isNameChar d) = true

theorem lexeme_name (offset : Nat) (hc : isNameStart c = true) (ht : ∀ d ∈ t, isNameChar d = true)
    (hrest : EndsName rest) :
    lexeme offset c (t ++ rest) = .ok (.ident (String.ofList (c :: t)), rest) := by
  have hstop : rest.takeWhile isNameChar = [] ∧ rest.dropWhile isNameChar = rest := by
    cases rest with
    | nil => exact ⟨rfl, rfl⟩
    | cons d rest =>
      have hd : ¬ isNameChar d = true := by simpa [EndsName] using hrest
      exact ⟨List.takeWhile_cons_of_neg hd, List.dropWhile_cons_of_neg hd⟩
  have htake : (t ++ rest).takeWhile isNameChar = t := by
    rw [List.takeWhile_append_of_pos ht, hstop.1, List.append_nil]
  have hdrop : (t ++ rest).dropWhile isNameChar = rest := by
    rw [List.dropWhile_append_of_pos ht, hstop.2]
  rw [lexeme, if_neg (by simp [isDigit_eq_false_of_isNameStart hc]), if_pos hc, htake, hdrop]

theorem lexeme_mark (offset : Nat) {m : Mark} (hm : mark? (c :: s) = some (m, rest)) :
    lexeme offset c s = .ok (.mark m, rest) := by
  obtain ⟨-, hdigit, hstart, hquote⟩ := mark?_alone hm
  simp [lexeme, hdigit, hstart, hquote, hm]

/-- The recursion of the reader without the proof that it ends. -/
theorem tokensFrom_eq (offset : Nat) (s : List Char) :
    tokensFrom offset s =
      match s.dropWhile Text.isBlank with
      | [] => .ok []
      | c :: t =>
        let start := offset + Text.byteLength (s.takeWhile Text.isBlank)
        (lexeme start c t).bind fun x =>
          (tokensFrom (start + (Text.byteLength (c :: t) - Text.byteLength x.2)) x.2).map
            (⟨x.1, start⟩ :: ·) := by
  rw [tokensFrom]
  split
  · next hs => rw [hs]
  · next c t hs =>
    simp only [hs]
    split
    · next e h =>
      rw [h]
      rfl
    · next token rest h =>
      rw [h]
      show _ = (tokensFrom _ rest).map _
      cases tokensFrom _ rest with
      | error e => rfl
      | ok tokens => rfl

theorem tokensFrom_blank (hc : Text.isBlank c = true) (offset : Nat) (s : List Char) :
    tokensFrom offset (c :: s) = tokensFrom (offset + c.utf8Size) s := by
  rw [tokensFrom_eq, tokensFrom_eq, List.dropWhile_cons_of_pos hc, List.takeWhile_cons_of_pos hc,
    Text.byteLength_cons, Nat.add_assoc]

/-- The tokens of a text are `ts`, whatever the offset of the text. -/
def ReadAs (s : List Char) (ts : List Token) : Prop :=
  ∀ offset, ∃ located, tokensFrom offset s = .ok located ∧ located.map (·.token) = ts

theorem readAs_nil : ReadAs [] [] := by
  intro offset
  refine ⟨[], ?_, rfl⟩
  rw [tokensFrom_eq]
  rfl

theorem ReadAs.blank (hc : Text.isBlank c = true) (h : ReadAs s ts) : ReadAs (c :: s) ts := by
  intro offset
  rw [tokensFrom_blank hc]
  exact h _

/-- One token is read in front of others. -/
theorem ReadAs.cons {token : Token} (hblank : Text.isBlank c = false)
    (hlexeme : ∀ offset, lexeme offset c s = .ok (token, rest)) (h : ReadAs rest ts) :
    ReadAs (c :: s) (token :: ts) := by
  intro offset
  have hdrop : (c :: s).dropWhile Text.isBlank = c :: s :=
    List.dropWhile_cons_of_neg (by simp [hblank])
  have htake : (c :: s).takeWhile Text.isBlank = [] :=
    List.takeWhile_cons_of_neg (by simp [hblank])
  -- The rest is read at an offset of its own, which is why that is left open.
  obtain ⟨located, hlocated, rfl⟩ := h (offset + (Text.byteLength (c :: s) - Text.byteLength rest))
  refine ⟨⟨token, offset⟩ :: located, ?_, rfl⟩
  rw [tokensFrom_eq, hdrop, htake]
  simp only [Text.byteLength_nil, Nat.add_zero, hlexeme]
  show (tokensFrom _ rest).map _ = _
  rw [hlocated]
  rfl

/-! ## §3. Spelling -/

/-- The text spells the tokens: names and marks, with blanks between them. -/
inductive Spells : List Char → List Token → Prop where
  /-- The empty text. -/
  | nil : Spells [] []
  /-- A blank in front. -/
  | blank {c : Char} {s : List Char} {ts : List Token} (hc : Text.isBlank c = true)
      (h : Spells s ts) : Spells (c :: s) ts
  /-- A name in front of something else. -/
  | name {c : Char} {t rest : List Char} {ts : List Token} (hc : isNameStart c = true)
      (ht : ∀ d ∈ t, isNameChar d = true) (hrest : EndsName rest) (h : Spells rest ts) :
      Spells (c :: t ++ rest) (.ident (String.ofList (c :: t)) :: ts)
  /-- A mark in front. -/
  | mark {c : Char} {s rest : List Char} {m : Mark} {ts : List Token}
      (hm : mark? (c :: s) = some (m, rest)) (h : Spells rest ts) : Spells (c :: s) (.mark m :: ts)

/-- What a text spells is read from it. -/
theorem Spells.readAs (h : Spells s ts) : ReadAs s ts := by
  induction h with
  | nil => exact readAs_nil
  | blank hc _ ih => exact ih.blank hc
  | name hc ht hrest _ ih =>
    exact .cons (isBlank_eq_false_of_isNameChar (isNameChar_of_isNameStart hc))
      (fun offset => lexeme_name offset hc ht hrest) ih
  | mark hm _ ih => exact .cons (mark?_alone hm).1 (fun offset => lexeme_mark offset hm) ih

/-- A text that spells the tokens of an expression is parsed as it. -/
theorem Spells.parse_eq {source : String} {e : Expr} (h : Spells source.toList ts)
    (hprints : Prints e ts) : Expr.parse source = .ok e := by
  obtain ⟨located, hlocated, rfl⟩ := h.readAs 0
  exact Prints.parse_eq hlocated hprints

/-! ## §4. Names -/

theorem isVariableName_iff :
    isVariableName s = true ↔
      ∃ c t, s = c :: t ∧ isNameStart c = true ∧ ∀ d ∈ t, isNameChar d = true := by
  cases s with
  | nil => simp [isVariableName]
  | cons c t => simp [isVariableName]

/-- No blank stands in a name. -/
theorem isBlank_eq_false_of_mem_name (h : isVariableName s = true) : ∀ d ∈ s,
    Text.isBlank d = false := by
  obtain ⟨c, t, rfl, hc, ht⟩ := isVariableName_iff.mp h
  intro d hd
  apply isBlank_eq_false_of_isNameChar
  rcases List.mem_cons.mp hd with rfl | hd
  · exact isNameChar_of_isNameStart hc
  · exact ht d hd

theorem Spells.named {name : String} (hname : isVariableName name.toList = true)
    (hrest : EndsName rest) (h : Spells rest ts) :
    Spells (name.toList ++ rest) (.ident name :: ts) := by
  obtain ⟨c, t, hs, hc, ht⟩ := isVariableName_iff.mp hname
  have hspelled := Spells.name hc ht hrest h
  rw [← hs, String.ofList_toList] at hspelled
  exact hspelled

/-- A name is the expression that reads it. -/
theorem parse_name {name : String} (hname : isVariableName name.toList = true)
    (hfree : name ∉ reservedNames) : Expr.parse name = .ok (.ident name) := by
  have hspells : Spells (name.toList ++ []) [.ident name] := .named hname rfl .nil
  rw [List.append_nil] at hspells
  exact hspells.parse_eq (.ident hfree)

end ReactiveView
