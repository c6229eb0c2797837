import Mathlib.Logic.ExistsUnique
import ReactiveView.Proofs.Expr.Spelling
import ReactiveView.Proofs.Text.Boundary
import ReactiveView.Proofs.Text.Trim

/-! # Tokens cut a text into slices

  The offsets of its tokens cut a text into slices, one per token, each of which
  reaches up to the next token or to the end of the text. Nothing but blanks
  stands before the first one. A slice holds all that its token depends on: read
  alone, it is this token.

  * `exists_append_of_lexeme`: what a lexeme takes is read as the same token in
    front of blanks, whatever followed it.
  * `Cut`: a text in slices, which is what `tokensFrom` leaves (`cut_of_tokensFrom`).
  * `tokenize_local`: the offsets of the tokens, and the slices between them.
-/

namespace ReactiveView

open Text

variable {c : Char} {s rest blanks : List Char} {token : Token} {tokens : List Located}
  {offset x : Nat}

/-! ## §1. Lexemes in front of blanks -/

/-- Characters of a class stop at a blank that is not of the class. -/
theorem span_append_blanks {p : Char → Bool} {w : List Char} (hw : ∀ d ∈ w, p d = true)
    (hp : ∀ d, isBlank d = true → p d = false) (hb : isBlankText blanks = true) :
    (w ++ blanks).takeWhile p = w ∧ (w ++ blanks).dropWhile p = blanks := by
  rw [List.takeWhile_append_of_pos hw, List.dropWhile_append_of_pos hw]
  cases blanks with
  | nil => exact ⟨List.append_nil w, rfl⟩
  | cons d blanks =>
    have hd : ¬ p d = true := by
      rw [hp d (List.all_eq_true.mp hb d List.mem_cons_self)]
      exact Bool.false_ne_true
    rw [List.takeWhile_cons_of_neg hd, List.dropWhile_cons_of_neg hd]
    exact ⟨List.append_nil w, rfl⟩

theorem isDigit_eq_false_of_isBlank (h : isBlank c = true) : c.isDigit = false := by
  have hnone : ∀ n ∈ List.range' 0x30 10, n ∉ blankCodes := by decide
  rw [Bool.eq_false_iff]
  intro hdigit
  exact hnone _ (toNat_mem_of_isDigit hdigit) (toNat_mem_blankCodes h)

/-- A number takes its digits, with the point between them. -/
theorem exists_append_of_numberLexeme (s : List Char) :
    ∃ body, s = body ++ (numberLexeme s).2 ∧ ∀ blanks, isBlankText blanks = true →
      numberLexeme (body ++ blanks) = ((numberLexeme s).1, blanks) := by
  have hwhole : ∀ d ∈ s.takeWhile Char.isDigit, d.isDigit = true :=
    List.all_eq_true.mp List.all_takeWhile
  have hstop := fun d hd => isDigit_eq_false_of_isBlank (c := d) hd
  have hs : s.takeWhile Char.isDigit ++ s.dropWhile Char.isDigit = s :=
    List.takeWhile_append_dropWhile
  -- Without a fraction the number ends with the digits in front.
  have hplain : ∀ blanks, isBlankText blanks = true →
      numberLexeme (s.takeWhile Char.isDigit ++ blanks) =
        (Decimal.nearest (Decimal.ofDigits (s.takeWhile Char.isDigit)) 0, blanks) := by
    intro blanks hb
    obtain ⟨htake, hdrop⟩ := span_append_blanks hwhole hstop hb
    unfold numberLexeme
    simp only [htake, hdrop]
    split
    · cases hb
    · rfl
  unfold numberLexeme
  simp only
  split
  · next r hr =>
    split
    · next hfraction =>
      exact ⟨_, by rw [← hr, hs], hplain⟩
    · next hfraction =>
      have hfrac : ∀ d ∈ r.takeWhile Char.isDigit, d.isDigit = true :=
        List.all_eq_true.mp List.all_takeWhile
      refine ⟨s.takeWhile Char.isDigit ++ '.' :: r.takeWhile Char.isDigit, ?_, ?_⟩
      · rw [List.append_assoc, List.cons_append, List.takeWhile_append_dropWhile, ← hr, hs]
      · intro blanks hb
        obtain ⟨htake, hdrop⟩ := span_append_blanks hfrac hstop hb
        have hpoint : ¬ Char.isDigit '.' = true := by decide
        rw [List.append_assoc, List.cons_append, List.takeWhile_append_of_pos hwhole,
          List.dropWhile_append_of_pos hwhole, List.takeWhile_cons_of_neg hpoint,
          List.dropWhile_cons_of_neg hpoint, List.append_nil]
        simp only [htake, hdrop, if_neg hfraction]
  · exact ⟨_, hs.symm, hplain⟩

/-- A string takes all up to its closing quote. -/
theorem exists_append_of_stringBody? {quote : Char} {body : List Char}
    (h : stringBody? quote s = some (body, rest)) :
    ∃ front, s = front ++ rest ∧ ∀ t, stringBody? quote (front ++ t) = some (body, t) := by
  fun_induction stringBody? quote s generalizing body with
  | case1 => cases h
  | case2 s =>
    cases h
    refine ⟨[quote], rfl, fun t => ?_⟩
    rw [List.singleton_append, stringBody?.eq_def]
    exact if_pos rfl
  | case3 hc => cases h
  | case4 d s hc ih =>
    obtain ⟨⟨inner, r⟩, hinner, heq⟩ := Option.map_eq_some_iff.mp h
    cases heq
    obtain ⟨front, rfl, hfront⟩ := ih hinner
    refine ⟨'\\' :: d :: front, rfl, fun t => ?_⟩
    rw [List.cons_append, List.cons_append, stringBody?.eq_def]
    simp only [if_neg hc, ↓reduceIte, hfront]
    rfl
  | case5 c s hc hslash ih =>
    obtain ⟨⟨inner, r⟩, hinner, heq⟩ := Option.map_eq_some_iff.mp h
    cases heq
    obtain ⟨front, rfl, hfront⟩ := ih hinner
    refine ⟨c :: front, rfl, fun t => ?_⟩
    rw [List.cons_append, stringBody?.eq_def]
    simp only [if_neg hc, if_neg hslash, hfront]
    rfl

/-- A mark takes its spelling. -/
theorem eq_text_append_of_mark? {m : Mark} (h : mark? s = some (m, rest)) :
    s = m.text.toList ++ rest := by
  unfold mark? at h
  split at h
  all_goals
    cases h
  all_goals rfl

/-- In front of blanks no mark is longer than its spelling. -/
theorem mark?_text_append (m : Mark) (hb : isBlankText blanks = true) :
    mark? (m.text.toList ++ blanks) = some (m, blanks) := by
  cases blanks with
  | nil => cases m <;> rfl
  | cons d blanks =>
    have hd : isBlank d = true := List.all_eq_true.mp hb d List.mem_cons_self
    have heq : d ≠ '=' := by rintro rfl; cases hd
    cases m <;> simp [Mark.text, mark?, heq]

/-- **A lexeme** is read as the same token in front of blanks, whatever followed it. -/
theorem exists_append_of_lexeme (h : lexeme offset c s = .ok (token, rest)) :
    ∃ body, s = body ++ rest ∧ ∀ offset blanks, isBlankText blanks = true →
      lexeme offset c (body ++ blanks) = .ok (token, blanks) := by
  rw [lexeme] at h
  by_cases hdigit : c.isDigit
  · -- A number: its first character is a digit of it.
    rw [if_pos hdigit] at h
    obtain ⟨body, hbody, hread⟩ := exists_append_of_numberLexeme (c :: s)
    have hpair := Prod.mk.inj (Except.ok.inj h)
    have hrest : (numberLexeme (c :: s)).2 = rest := hpair.2
    have htoken : .number (numberLexeme (c :: s)).1 = token := hpair.1
    rw [hrest] at hbody
    cases body with
    | nil =>
      have hlength := numberLexeme_length (s := s) hdigit
      rw [hrest, hbody] at hlength
      exact absurd hlength (Nat.lt_irrefl _)
    | cons d body =>
      obtain ⟨rfl, rfl⟩ := List.cons.inj hbody
      refine ⟨body, rfl, fun offset blanks hb => ?_⟩
      rw [lexeme, if_pos hdigit, ← List.cons_append, hread blanks hb, ← htoken]
  rw [if_neg hdigit] at h
  by_cases hname : isNameStart c
  · rw [if_pos hname] at h
    obtain ⟨rfl, rfl⟩ := Prod.mk.inj (Except.ok.inj h)
    refine ⟨s.takeWhile isNameChar, List.takeWhile_append_dropWhile.symm, ?_⟩
    intro offset blanks hb
    refine lexeme_name offset hname (List.all_eq_true.mp List.all_takeWhile) ?_
    cases blanks with
    | nil => rfl
    | cons d blanks =>
      simp [EndsName,
        isNameChar_eq_false_of_isBlank (List.all_eq_true.mp hb d List.mem_cons_self)]
  rw [if_neg hname] at h
  by_cases hquote : isQuote c
  · rw [if_pos hquote] at h
    split at h
    · next text r hbody =>
      obtain ⟨rfl, rfl⟩ := Prod.mk.inj (Except.ok.inj h)
      obtain ⟨front, rfl, hread⟩ := exists_append_of_stringBody? hbody
      refine ⟨front, rfl, fun offset blanks _ => ?_⟩
      rw [lexeme, if_neg hdigit, if_neg hname, if_pos hquote, hread]
    · cases h
  rw [if_neg hquote] at h
  split at h
  · next m r hmark =>
    obtain ⟨rfl, rfl⟩ := Prod.mk.inj (Except.ok.inj h)
    have hs := eq_text_append_of_mark? hmark
    -- A mark is not empty, and begins with the character that it was found at.
    cases htext : m.text.toList with
    | nil => cases m <;> cases htext
    | cons d body =>
      rw [htext] at hs
      obtain ⟨rfl, rfl⟩ := List.cons.inj hs
      refine ⟨body, rfl, fun offset blanks hb => lexeme_mark offset ?_⟩
      rw [← List.cons_append, ← htext]
      exact mark?_text_append m hb
  · cases h

/-! ## §2. A text in slices -/

/-- A text that begins at an offset, in slices. Each slice is read alone as one token, and stands
    where the token begins. -/
inductive Cut : Nat → List Char → List Located → Prop where
  /-- Nothing is left. -/
  | nil (offset : Nat) : Cut offset [] []
  /-- A slice in front of the others. -/
  | cons {offset : Nat} {slice s : List Char} {token : Token} {tokens : List Located}
      (hslice : tokenize (String.ofList slice) = .ok [⟨token, 0⟩])
      (h : Cut (offset + byteLength slice) s tokens) :
      Cut offset (slice ++ s) (⟨token, offset⟩ :: tokens)

/-- Blanks have no tokens. -/
theorem tokensFrom_of_blank (offset : Nat) (hb : isBlankText blanks = true) :
    tokensFrom offset blanks = .ok [] := by
  have hdrop : blanks.dropWhile isBlank = [] := trimStart_of_isBlankText hb
  rw [tokensFrom_eq, hdrop]

/-- A lexeme and the blanks behind it have one token. -/
theorem tokenize_lexeme {body : List Char} (hc : isBlank c = false)
    (hread : lexeme 0 c (body ++ blanks) = .ok (token, blanks)) (hb : isBlankText blanks = true) :
    tokenize (String.ofList (c :: (body ++ blanks))) = .ok [⟨token, 0⟩] := by
  have hdrop : (c :: (body ++ blanks)).dropWhile isBlank = c :: (body ++ blanks) :=
    List.dropWhile_cons_of_neg (by simp [hc])
  have htake : (c :: (body ++ blanks)).takeWhile isBlank = [] :=
    List.takeWhile_cons_of_neg (by simp [hc])
  rw [tokenize, String.toList_ofList, tokensFrom_eq, hdrop, htake]
  simp only [byteLength_nil, Nat.add_zero, hread]
  show (tokensFrom _ blanks).map _ = _
  rw [tokensFrom_of_blank _ hb]
  rfl

/-- **What is read as tokens** is cut into slices behind its first blanks. -/
theorem cut_of_tokensFrom (h : tokensFrom offset s = .ok tokens) :
    ∃ blanks rest, s = blanks ++ rest ∧ isBlankText blanks = true ∧
      Cut (offset + byteLength blanks) rest tokens := by
  fun_induction tokensFrom offset s generalizing tokens with
  | case1 offset s hs =>
    cases h
    have hblank : isBlankText s = true := by
      rw [isBlankText, ← List.takeWhile_append_dropWhile (p := isBlank) (l := s), hs,
        List.append_nil]
      exact isBlankText_takeWhile s
    exact ⟨s, [], (List.append_nil s).symm, hblank, .nil _⟩
  | case2 => cases h
  | case3 => cases h
  | case4 offset s c t hs start token rest hlexeme _ stop tokens' htokens =>
    rename_i ih
    cases h
    have hc : isBlank c = false := not_isBlank_of_mem_head?_trimStart (s := s) (by
      rw [trimStart, hs]
      rfl)
    -- The slice of the token is its lexeme with the blanks in front of the next one.
    obtain ⟨body, rfl, hread⟩ := exists_append_of_lexeme hlexeme
    obtain ⟨gap, rest', rfl, hgap, hcut⟩ := ih htokens
    have hstop : stop + byteLength gap = start + byteLength (c :: (body ++ gap)) := by
      simp only [stop, byteLength_cons, byteLength_append]
      omega
    rw [hstop] at hcut
    refine ⟨_, (c :: (body ++ gap)) ++ rest', ?_, isBlankText_takeWhile s,
      .cons (tokenize_lexeme hc (hread 0 gap hgap) hgap) hcut⟩
    rw [List.cons_append, List.append_assoc, ← hs, List.takeWhile_append_dropWhile]

/-! ## §3. Offsets -/

/-- The offsets at which tokens begin, and the one at which their text ends. -/
def bounds (tokens : List Located) (stop : Nat) : List Nat := tokens.map (·.offset) ++ [stop]

/-- The characters of a text between two byte offsets, each of which is the boundary of a
    character. -/
def IsSlice (s : List Char) (start stop : Nat) (slice : List Char) : Prop :=
  ∃ before after, s = before ++ slice ++ after ∧ byteLength before = start ∧
    byteLength (before ++ slice) = stop

/-- An offset lies between two successive bounds, or at the first of them. -/
def LiesIn (bounds : List Nat) (i x : Nat) : Prop :=
  ∃ start stop, bounds[i]? = some start ∧ bounds[i + 1]? = some stop ∧ start ≤ x ∧ x < stop

theorem bounds_cons (located : Located) (tokens : List Located) (stop : Nat) :
    bounds (located :: tokens) stop = located.offset :: bounds tokens stop := rfl

/-- A slice has a token, and so it is not empty. -/
theorem byteLength_pos_of_tokenize (h : tokenize (String.ofList s) = .ok [⟨token, 0⟩]) :
    0 < byteLength s := by
  apply byteLength_pos
  rintro rfl
  rw [tokenize, String.toList_ofList, tokensFrom_of_blank 0 rfl] at h
  cases h

namespace Cut

theorem le_of_mem_bounds (h : Cut offset s tokens) :
    ∀ b ∈ bounds tokens (offset + byteLength s), offset ≤ b := by
  induction h with
  | nil offset =>
    intro b hb
    rw [List.mem_singleton.mp hb]
    exact Nat.le_refl _
  | @cons offset slice s token tokens _ _ ih =>
    intro b hb
    rw [bounds_cons, byteLength_append, ← Nat.add_assoc] at hb
    rcases List.mem_cons.mp hb with rfl | hb
    · exact Nat.le_refl _
    · exact Nat.le_trans (Nat.le_add_right _ _) (ih b hb)

/-- Each token begins behind the one before it, and all of them before the end. -/
theorem pairwise_bounds (h : Cut offset s tokens) :
    (bounds tokens (offset + byteLength s)).Pairwise (· < ·) := by
  induction h with
  | nil offset => exact List.pairwise_singleton _ _
  | @cons offset slice s token tokens hslice hcut ih =>
    rw [bounds_cons, byteLength_append, ← Nat.add_assoc]
    refine List.pairwise_cons.mpr ⟨?_, ih⟩
    intro b hb
    have hle := hcut.le_of_mem_bounds b hb
    have hpos := byteLength_pos_of_tokenize hslice
    show offset < b
    omega

theorem head?_bounds (h : Cut offset s tokens) :
    (bounds tokens (offset + byteLength s)).head? = some offset := by
  cases h with
  | nil => rfl
  | cons => rfl

/-- The slices reach from token to token. -/
theorem exists_slice (h : Cut offset s tokens) {i stop : Nat} {located : Located}
    (hi : tokens[i]? = some located)
    (hstop : (bounds tokens (offset + byteLength s))[i + 1]? = some stop) :
    ∃ before slice after, s = before ++ slice ++ after ∧
      offset + byteLength before = located.offset ∧
      offset + byteLength (before ++ slice) = stop ∧
      tokenize (String.ofList slice) = .ok [⟨located.token, 0⟩] := by
  induction h generalizing i with
  | nil => cases hi
  | @cons offset slice s token tokens hslice hcut ih =>
    rw [bounds_cons, byteLength_append, ← Nat.add_assoc, List.getElem?_cons_succ] at hstop
    cases i with
    | zero =>
      obtain rfl := Option.some.inj hi
      have hfirst := hcut.head?_bounds
      rw [List.head?_eq_getElem?, hstop] at hfirst
      exact ⟨[], slice, s, rfl, rfl, (Option.some.inj hfirst).symm, hslice⟩
    | succ i =>
      obtain ⟨before, slice', after, rfl, hbefore, hstop', htoken⟩ := ih hi hstop
      refine ⟨slice ++ before, slice', after, by simp, ?_, ?_, htoken⟩
      · rw [← hbefore, byteLength_append, Nat.add_assoc]
      · rw [← hstop', List.append_assoc, byteLength_append, Nat.add_assoc]

/-- The slices leave nothing out. -/
theorem exists_liesIn (h : Cut offset s tokens) (hle : offset ≤ x)
    (hlt : x < offset + byteLength s) :
    ∃ i, LiesIn (bounds tokens (offset + byteLength s)) i x := by
  induction h with
  | nil => exact absurd hlt (Nat.not_lt.mpr hle)
  | @cons offset slice s token tokens hslice hcut ih =>
    rw [byteLength_append, ← Nat.add_assoc] at hlt ⊢
    rw [bounds_cons]
    by_cases hx : x < offset + byteLength slice
    · refine ⟨0, offset, offset + byteLength slice, rfl, ?_, hle, hx⟩
      rw [List.getElem?_cons_succ, ← List.head?_eq_getElem?, hcut.head?_bounds]
    · obtain ⟨i, start, stop, hstart, hstop, hbetween⟩ := ih (Nat.not_lt.mp hx) hlt
      exact ⟨i + 1, start, stop, hstart, hstop, hbetween⟩

end Cut

/-- Bounds that increase do not overlap. -/
theorem LiesIn.unique {bs : List Nat} (hbs : bs.Pairwise (· < ·)) {i j : Nat}
    (hi : LiesIn bs i x) (hj : LiesIn bs j x) : i = j := by
  -- If one came first, its end would not lie behind the start of the other.
  have hfirst : ∀ {i j : Nat}, LiesIn bs i x → LiesIn bs j x → ¬ i < j := by
    rintro i j ⟨-, stop, -, hstop, -, hlt⟩ ⟨start, -, hstart, -, hle, -⟩ hij
    obtain ⟨hi, rfl⟩ := List.getElem?_eq_some_iff.mp hstop
    obtain ⟨hj, rfl⟩ := List.getElem?_eq_some_iff.mp hstart
    have hordered : bs[i + 1] ≤ bs[j] := by
      rcases Nat.lt_or_ge (i + 1) j with hnext | hnext
      · exact Nat.le_of_lt (List.pairwise_iff_getElem.mp hbs _ _ _ _ hnext)
      · obtain rfl : j = i + 1 := by omega
        exact Nat.le_refl _
    omega
  rcases Nat.lt_trichotomy i j with hlt | heq | hgt
  · exact absurd hlt (hfirst hi hj)
  · exact heq
  · exact absurd hgt (hfirst hj hi)

/-! ## §4. Nothing is lost -/

/-- What is no blank stands behind the blanks in front. -/
theorem byteLength_le_of_not_blank {before after : List Char} (hb : isBlankText blanks = true)
    (hs : blanks ++ s = before ++ c :: after) (hc : isBlank c = false) :
    byteLength blanks ≤ byteLength before := by
  rcases List.append_eq_append_iff.mp hs with ⟨a, rfl, -⟩ | ⟨a, rfl, ha⟩
  · rw [byteLength_append]
    exact Nat.le_add_right _ _
  · cases a with
    | nil => exact Nat.le_of_eq (by rw [List.append_nil])
    | cons d a =>
      obtain ⟨rfl, -⟩ := List.cons.inj ha
      have hblank := List.all_eq_true.mp hb c (List.mem_append_right _ List.mem_cons_self)
      rw [hc] at hblank
      cases hblank

/-- **Tokenizing loses nothing and is local.** The offsets of the tokens increase, up to the length
    of the source in bytes. There are blanks before the first token. The slice from a token up to
    the next one, or up to the end, is read alone as this token and no other. So every character
    that is no blank belongs to exactly one token. -/
theorem tokenize_local {source : String} (h : tokenize source = .ok tokens) :
    let cuts := bounds tokens (byteLength source.toList)
    cuts.Pairwise (· < ·) ∧
      (∃ first blanks, cuts.head? = some first ∧ IsSlice source.toList 0 first blanks ∧
        isBlankText blanks = true) ∧
      (∀ i located stop, tokens[i]? = some located → cuts[i + 1]? = some stop →
        ∃ slice, IsSlice source.toList located.offset stop slice ∧
          tokenize (String.ofList slice) = .ok [⟨located.token, 0⟩]) ∧
      ∀ before c after, source.toList = before ++ c :: after → isBlank c = false →
        ∃! i, LiesIn cuts i (byteLength before) := by
  obtain ⟨blanks, s, hsource, hblanks, hcut⟩ := cut_of_tokensFrom h
  rw [Nat.zero_add] at hcut
  intro cuts
  have hcuts : cuts = bounds tokens (byteLength blanks + byteLength s) := by
    rw [← byteLength_append, ← hsource]
  rw [hcuts, hsource]
  refine ⟨hcut.pairwise_bounds, ?_, ?_, ?_⟩
  · exact ⟨_, blanks, hcut.head?_bounds, ⟨[], s, rfl, rfl, rfl⟩, hblanks⟩
  · intro i located stop hi hstop
    obtain ⟨before, slice, after, rfl, hstart, hend, htoken⟩ := hcut.exists_slice hi hstop
    refine ⟨slice, ⟨blanks ++ before, after, by simp, ?_, ?_⟩, htoken⟩
    · rw [← hstart, byteLength_append]
    · rw [← hend, List.append_assoc, byteLength_append]
  · intro before c after hchar hc
    have hle := byteLength_le_of_not_blank hblanks hchar hc
    have hlt : byteLength before < byteLength blanks + byteLength s := by
      rw [← byteLength_append, hchar, byteLength_append]
      exact Nat.lt_add_of_pos_right (byteLength_pos (List.cons_ne_nil c after))
    obtain ⟨i, hi⟩ := hcut.exists_liesIn hle hlt
    exact ⟨i, hi, fun j hj => hj.unique hcut.pairwise_bounds hi⟩

/-- Three tokens, with blanks in front of them, behind them, and inside the last one. The slice of
    the second has the offsets 4 and 6, since the letter in front of it takes two bytes. -/
theorem tokenize_local_adjacent :
    let source := "  é<='a b' "
    let tokens : List Located := [⟨.ident "é", 2⟩, ⟨.mark .lessEq, 4⟩, ⟨.str "a b", 6⟩]
    tokenize source = .ok tokens ∧
      (∃ slice, IsSlice source.toList 4 6 slice ∧
        tokenize (String.ofList slice) = .ok [⟨.mark .lessEq, 0⟩]) ∧
      ∃! i, LiesIn [2, 4, 6, 12] i 9 := by
  intro source tokens
  have h : tokenize source = .ok tokens := by decide +kernel
  have hbounds : bounds tokens (byteLength source.toList) = [2, 4, 6, 12] := by decide +kernel
  have hsource : source.toList = "  é<='a ".toList ++ 'b' :: "' ".toList := by decide +kernel
  have hwidth : byteLength "  é<='a ".toList = 9 := rfl
  obtain ⟨-, -, hslices, hchars⟩ := tokenize_local h
  rw [hbounds] at hslices hchars
  refine ⟨h, hslices 1 ⟨.mark .lessEq, 4⟩ 6 rfl rfl, ?_⟩
  rw [← hwidth]
  exact hchars _ _ _ hsource rfl

end ReactiveView
