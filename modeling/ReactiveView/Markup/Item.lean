import ReactiveView.Markup.Entity
import ReactiveView.Text.Ascii
import ReactiveView.Text.Blank

/-! # Items of markup

  Read from left to right, markup is a sequence of items: start tags, end tags,
  comments and runs of text. `items` splits a text into them; where an item is
  not well formed the sequence stops with `Item.malformed`.

  Inside an interpolation, from its opening delimiter to its closing one, no tag
  is recognised.
-/

namespace ReactiveView.Markup

/-! ## §1. Items -/

/-- A piece of markup. -/
inductive Item where
  /-- A start tag with its attributes, closed by `/>` or not. -/
  | start (tag : String) (attrs : List (String × String)) (selfClosing : Bool)
  /-- An end tag and the offset where it begins. -/
  | stop (tag : String) (offset : Nat)
  /-- A comment. -/
  | comment (text : String)
  /-- A run of text as written, its entities not yet decoded. -/
  | text (raw : String)
  /-- A tag or comment that is not well formed, with the offset to blame. Nothing follows it. -/
  | malformed (offset : Nat)

/-- The delimiters around an interpolation. -/
structure Delimiters where
  /-- What opens an interpolation; nothing does if it is empty. -/
  opening : List Char
  /-- What closes it. -/
  closing : List Char

/-! ## §2. Texts -/

/-- The opening delimiter taken off the front, if it is there and not empty. -/
def Delimiters.open? (d : Delimiters) (s : List Char) : Option (List Char) :=
  if d.opening = [] then none else Text.dropFront? d.opening s

theorem Delimiters.open?_length {d : Delimiters} {s rest : List Char}
    (h : d.open? s = some rest) : rest.length < s.length := by
  unfold Delimiters.open? at h
  split at h
  · simp at h
  · next hne =>
    have := congrArg List.length (Text.eq_append_of_dropFront? h)
    have : 0 < d.opening.length := List.length_pos_iff.2 hne
    simp at *; omega

/-- What is left after the text up to the next `<` that no interpolation protects. An
    interpolation without an end reaches to the end of the text. -/
def afterText (d : Delimiters) (s : List Char) : List Char :=
  match s with
  | [] => []
  | c :: r =>
    if c = '<' then c :: r
    else
      match ho : d.open? (c :: r) with
      | some inside =>
        match hc : Text.splitFirst? d.closing inside with
        | some (_, rest) =>
          have : rest.length < (c :: r).length :=
            Nat.lt_of_le_of_lt (Text.length_le_of_splitFirst? hc) (Delimiters.open?_length ho)
          afterText d rest
        | none => []
      | none =>
        have : r.length < (c :: r).length := Nat.lt_succ_self _
        afterText d r
termination_by s.length
decreasing_by all_goals assumption

theorem afterText_length_le (d : Delimiters) (s : List Char) :
    (afterText d s).length ≤ s.length := by
  fun_induction afterText d s with
  | case1 => simp
  | case2 => simp
  | case3 _ _ _ _ _ _ _ _ _ ih => omega
  | case4 => simp
  | case5 c r _ _ ih => simp at *; omega

/-! ## §3. Tags -/

/-- Whether a tag or attribute name ends before the character. -/
def endsName (c : Char) : Bool :=
  Text.isBlank c || c = '>' || c = '/' || c = '=' || c = '"' || c = '\''

/-- A name at the front; it may be empty. -/
def nameOf (s : List Char) : List Char := s.takeWhile (!endsName ·)

/-- What follows the name at the front. -/
def afterName (s : List Char) : List Char := s.dropWhile (!endsName ·)

/-- A name at the front and what follows it make up the text. -/
theorem nameOf_append_afterName (s : List Char) : nameOf s ++ afterName s = s :=
  List.takeWhile_append_dropWhile

theorem afterName_length_le (s : List Char) : (afterName s).length ≤ s.length :=
  (List.dropWhile_suffix _).length_le

/-- Why a start tag is not well formed. -/
inductive TagFault where
  /-- The tag does not end, or a quote in it does not; the tag itself is to blame. -/
  | endless
  /-- No attribute can begin where this text does. -/
  | badName (rest : List Char)

/-- Whether a value without quotes ends before the character. -/
def endsBareValue (c : Char) : Bool := Text.isBlank c || c = '>'

/-- A value without quotes: it reaches up to a blank or the end of the tag. A slash before the
    end of the tag belongs to the tag. -/
def bareValue (s : List Char) : List Char × List Char :=
  let raw := s.takeWhile (!endsBareValue ·)
  let rest := s.dropWhile (!endsBareValue ·)
  match rest with
  -- `<a href=x/>` closes itself; `<a href=x/ y>` keeps the slash.
  | '>' :: _ => if raw.getLast? = some '/' then (raw.dropLast, '/' :: rest) else (raw, rest)
  | _ => (raw, rest)

/-- The value after an equals sign and blanks. -/
def attrValue (s : List Char) : Except TagFault (List Char × List Char) :=
  match s with
  | [] => .error .endless
  | c :: r =>
    if c = '"' || c = '\'' then
      match Text.splitFirst? [c] r with
      | some (raw, rest) => .ok (decode raw, rest)
      | none => .error .endless
    else
      let (raw, rest) := bareValue (c :: r)
      .ok (decode raw, rest)

/-- The value after an attribute's name, empty if there is no equals sign. -/
def valueAfterName (s : List Char) : Except TagFault (List Char × List Char) :=
  match Text.trimStart s with
  | '=' :: r => attrValue (Text.trimStart r)
  | t => .ok ([], t)

theorem bareValue_length_le (s : List Char) : (bareValue s).2.length ≤ s.length := by
  have hlen : (s.takeWhile (!endsBareValue ·)).length + (s.dropWhile (!endsBareValue ·)).length =
      s.length := by
    rw [← List.length_append, List.takeWhile_append_dropWhile]
  simp only [bareValue]
  split
  · split
    · next h =>
      have : 0 < (s.takeWhile (!endsBareValue ·)).length := by
        apply List.length_pos_iff.2
        intro hnil
        simp [hnil] at h
      simp only [List.length_cons]; omega
    · simp only; omega
  · simp only; omega

theorem attrValue_length_le {s value rest : List Char}
    (h : attrValue s = .ok (value, rest)) : rest.length ≤ s.length := by
  unfold attrValue at h
  split at h
  · simp at h
  · split at h
    · split at h
      · next hs =>
        simp only [Except.ok.injEq, Prod.mk.injEq] at h
        have := Text.length_of_splitFirst? hs
        simp [← h.2]; omega
      · simp at h
    · simp only [Except.ok.injEq, Prod.mk.injEq] at h
      rw [← h.2]; exact bareValue_length_le _

theorem valueAfterName_length_le {s value rest : List Char}
    (h : valueAfterName s = .ok (value, rest)) : rest.length ≤ s.length := by
  have hs := Text.trimStart_length_le s
  unfold valueAfterName at h
  split at h
  · next r hr =>
    have := attrValue_length_le h
    have := Text.trimStart_length_le r
    rw [hr] at hs
    simp at hs; omega
  · simp only [Except.ok.injEq, Prod.mk.injEq] at h
    rw [← h.2]; exact hs

/-- The attributes of a start tag after its name, whether it closes itself, and what follows the
    tag. -/
def attributes (s : List Char) :
    Except TagFault (List (String × String) × Bool × List Char) :=
  match hs : Text.trimStart s with
  | [] => .error .endless
  | '>' :: rest => .ok ([], false, rest)
  | '/' :: '>' :: rest => .ok ([], true, rest)
  | c :: r =>
    if hn : nameOf (c :: r) = [] then .error (.badName (c :: r))
    else
      match hv : valueAfterName (afterName (c :: r)) with
      | .error e => .error e
      | .ok (value, rest) =>
        have : rest.length < s.length := by
          have h₁ := valueAfterName_length_le hv
          have h₂ := congrArg List.length (nameOf_append_afterName (c :: r))
          have h₃ := List.length_pos_iff.2 hn
          have h₄ := Text.trimStart_length_le s
          rw [hs] at h₄
          simp only [List.length_append] at h₂
          omega
        match attributes rest with
        | .error e => .error e
        | .ok (attrs, selfClosing, rest) =>
          .ok ((String.ofList (nameOf (c :: r)), String.ofList value) :: attrs, selfClosing, rest)
termination_by s.length

/-- The name of an end tag after its slash, and what follows the tag. -/
def endTag? (s : List Char) : Option (List Char × List Char) :=
  match Text.trimStart (afterName s) with
  | '>' :: rest => if nameOf s = [] then none else some (Text.lowerAscii (nameOf s), rest)
  | _ => none

/-! ## §4. The item at the front -/

/-- Whether a start tag begins with `<` and this character. -/
def startsTag (c : Char) : Bool := c.isAlpha

/-- What is left after the text at the front. A `<` at the very front starts no tag here and is
    text. -/
def afterLeadingText (d : Delimiters) (c : Char) (s : List Char) : List Char :=
  afterText d (if c = '<' then s else c :: s)

/-- The text at the front as an item, and what follows it. -/
def textItem (d : Delimiters) (c : Char) (s : List Char) : Item × List Char :=
  let rest := afterLeadingText d c s
  (.text (String.ofList ((c :: s).take ((c :: s).length - rest.length))), rest)

/-- The first item of a text that is not empty, and what follows it. The text begins at the given
    offset. -/
def firstItem (d : Delimiters) (offset : Nat) (c : Char) (s : List Char) : Item × List Char :=
  if c = '<' then
    match s with
    | '!' :: '-' :: '-' :: body =>
      match Text.splitFirst? ['-', '-', '>'] body with
      | some (text, rest) => (.comment (String.ofList text), rest)
      | none => (.malformed offset, [])
    | '/' :: r =>
      match endTag? r with
      | some (name, rest) => (.stop (String.ofList name) offset, rest)
      | none => (.malformed offset, [])
    | t :: _ =>
      if startsTag t then
        match attributes (afterName s) with
        | .ok (attrs, selfClosing, rest) =>
          (.start (String.ofList (Text.lowerAscii (nameOf s))) attrs selfClosing, rest)
        | .error .endless => (.malformed offset, [])
        | .error (.badName rest) =>
          (.malformed (offset + (Text.byteLength (c :: s) - Text.byteLength rest)), [])
      else textItem d c s
    | [] => textItem d c s
  else textItem d c s

theorem attributes_length_le {s rest : List Char} {attrs : List (String × String)} {b : Bool}
    (h : attributes s = .ok (attrs, b, rest)) : rest.length < s.length := by
  fun_induction attributes s generalizing attrs with
  | case1 => simp at h
  | case2 s r hs =>
    have := Text.trimStart_length_le s
    simp only [Except.ok.injEq, Prod.mk.injEq] at h
    rw [hs] at this; simp at this; rw [← h.2.2]; omega
  | case3 s r hs =>
    have := Text.trimStart_length_le s
    simp only [Except.ok.injEq, Prod.mk.injEq] at h
    rw [hs] at this; simp at this; rw [← h.2.2]; omega
  | case4 => simp at h
  | case5 => simp at h
  | case6 => simp at h
  | case7 s c r _ _ hs hn value rest₁ hv hlt attrs' b' rest₂ ha ih =>
    simp only [Except.ok.injEq, Prod.mk.injEq] at h
    obtain ⟨_, rfl, rfl⟩ := h
    have := ih ha
    omega

theorem endTag?_length {s name rest : List Char} (h : endTag? s = some (name, rest)) :
    rest.length < s.length := by
  unfold endTag? at h
  split at h
  · next r hr =>
    split at h
    · simp at h
    · simp only [Option.some.injEq, Prod.mk.injEq] at h
      have h₁ := congrArg List.length (nameOf_append_afterName s)
      have h₂ := Text.trimStart_length_le (afterName s)
      rw [hr] at h₂
      simp at h₁ h₂
      rw [← h.2]; omega
  · simp at h

theorem afterLeadingText_length (d : Delimiters) (c : Char) (s : List Char) :
    (afterLeadingText d c s).length < (c :: s).length := by
  unfold afterLeadingText
  split
  · have := afterText_length_le d s; simp; omega
  · next hc =>
    rw [afterText.eq_def]
    simp only [hc, ↓reduceIte]
    split
    · next inside ho =>
      have := Delimiters.open?_length ho
      split
      · next b rest hsp =>
        have := Text.length_of_splitFirst? hsp
        have := afterText_length_le d rest
        simp at *; omega
      · simp
    · have := afterText_length_le d s; simp; omega

theorem firstItem_length (d : Delimiters) (offset : Nat) (c : Char) (s : List Char) :
    (firstItem d offset c s).2.length < (c :: s).length := by
  have htext : (textItem d c s).2.length < (c :: s).length := afterLeadingText_length d c s
  unfold firstItem
  split
  · split
    · split
      · next h => have := Text.length_of_splitFirst? h; simp; omega
      · simp
    · split
      · next h => have := endTag?_length h; simp; omega
      · simp
    · split
      · split
        · next h =>
          exact Nat.lt_of_lt_of_le (attributes_length_le h)
            (Nat.le_trans (afterName_length_le _) (by simp))
        · simp
        · simp
      · exact htext
    · exact htext
  · exact htext

/-! ## §5. All items -/

/-- The items of a text that begins at the given offset. -/
def items (d : Delimiters) (offset : Nat) (s : List Char) : List Item :=
  match s with
  | [] => []
  | c :: r =>
    let step := firstItem d offset c r
    have : step.2.length < (c :: r).length := firstItem_length d offset c r
    step.1 :: items d (offset + (Text.byteLength (c :: r) - Text.byteLength step.2)) step.2
termination_by s.length
decreasing_by assumption

end ReactiveView.Markup
