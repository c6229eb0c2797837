import ReactiveView.Markup.Item
import ReactiveView.Proofs.Markup.Entity
import ReactiveView.Proofs.Text.Trim

/-! # How written HTML is split into items

  One lemma for each piece of HTML, written with the characters that may stand
  in it: a run of text, a comment, a start tag with its attributes, an end tag.
  What follows the piece is any text at all, except that a run of text must be
  followed by a tag or by nothing.

  No interpolation is recognised here: the delimiters are empty.
-/

namespace ReactiveView.Markup

open Text

/-- Delimiters that open no interpolation. -/
def Delimiters.none : Delimiters := ⟨[], []⟩

variable {c : Char} {s t name rest : List Char} {offset : Nat}

/-! ## §1. Names -/

/-- Whether a character may stand in a tag or in the name of an attribute. -/
def isNameChar (c : Char) : Bool :=
  !Text.isBlank c && !(['>', '/', '=', '"', '\''].contains c)

theorem endsName_eq_false (h : isNameChar c = true) : endsName c = false := by
  simp only [isNameChar, List.contains_eq_mem, List.mem_cons, List.not_mem_nil, or_false,
    Bool.and_eq_true, Bool.not_eq_true', decide_eq_false_iff_not, not_or] at h
  obtain ⟨hblank, hgreater, hslash, hequals, hquote, hapostrophe⟩ := h
  simp [endsName, hblank, hgreater, hslash, hequals, hquote, hapostrophe]

theorem isBlank_eq_false (h : isNameChar c = true) : Text.isBlank c = false := by
  simp only [isNameChar, Bool.and_eq_true, Bool.not_eq_true'] at h
  exact h.1

theorem nameOf_append (hname : ∀ c ∈ name, isNameChar c = true) (hc : endsName c = true)
    (s : List Char) : nameOf (name ++ c :: s) = name := by
  have hkeep : ∀ c ∈ name, (!endsName c) = true := by
    intro c hm
    rw [endsName_eq_false (hname c hm)]
    rfl
  rw [nameOf, List.takeWhile_append_of_pos hkeep, List.takeWhile_cons_of_neg (by simp [hc]),
    List.append_nil]

theorem afterName_append (hname : ∀ c ∈ name, isNameChar c = true) (hc : endsName c = true)
    (s : List Char) : afterName (name ++ c :: s) = c :: s := by
  have hsplit := nameOf_append_afterName (name ++ c :: s)
  rw [nameOf_append hname hc] at hsplit
  exact List.append_cancel_left hsplit

/-- A name begins with a character that is no blank. -/
theorem trimStart_name_append (hne : name ≠ []) (hname : ∀ c ∈ name, isNameChar c = true)
    (s : List Char) : trimStart (name ++ s) = name ++ s := by
  obtain ⟨c, name, rfl⟩ := List.exists_cons_of_ne_nil hne
  exact trimStart_cons (isBlank_eq_false (hname c (by simp))) _

/-- Blanks and the end of a tag begin with what ends a name. -/
theorem exists_endsName {b : List Char} (hb : isBlankText b = true) (hc : endsName c = true)
    (s : List Char) : ∃ d t, b ++ c :: s = d :: t ∧ endsName d = true := by
  cases b with
  | nil => exact ⟨c, s, rfl, hc⟩
  | cons d b =>
    have hd : isBlank d = true := List.all_eq_true.mp hb d List.mem_cons_self
    exact ⟨d, b ++ c :: s, rfl, by simp [endsName, hd]⟩

/-! ## §2. Attributes -/

/-- A character is found where it stands first. -/
theorem splitFirst?_singleton (h : c ∉ s) (rest : List Char) :
    splitFirst? [c] (s ++ c :: rest) = some (s, rest) := by
  induction s with
  | nil => simp [splitFirst?, dropFront?]
  | cons b s ih =>
    have hb : c ≠ b := fun he => h (by simp [he])
    have hs : c ∉ s := fun hm => h (List.mem_cons_of_mem b hm)
    simp [splitFirst?, dropFront?, hb, ih hs]

theorem quote_not_mem_escapeQuoted (v : String) : '"' ∉ Html.escapeQuoted v := by
  intro h
  obtain ⟨c, -, hc⟩ := List.mem_flatMap.mp h
  unfold Html.escapeQuotedChar at hc
  split at hc
  · simp at hc
  · next hquote =>
    unfold Html.escapeChar at hc
    split at hc
    · simp at hc
    · simp at hc
    · simp at hc
    · exact hquote (List.mem_singleton.mp hc).symm

/-- A value in quotes. -/
theorem valueAfterName_quoted (v : String) (rest : List Char) :
    valueAfterName ('=' :: '"' :: Html.escapeQuoted v ++ '"' :: rest) = .ok (v.toList, rest) := by
  have hsplit := splitFirst?_singleton (quote_not_mem_escapeQuoted v) rest
  unfold valueAfterName
  rw [List.cons_append, trimStart_cons (by decide)]
  show attrValue (trimStart ('"' :: (Html.escapeQuoted v ++ '"' :: rest))) = _
  rw [trimStart_cons (by decide)]
  simp [attrValue, hsplit, decode_escapeQuoted]

/-- A tag that is at its end. -/
theorem attributes_of_greater (hs : trimStart s = '>' :: rest) :
    attributes s = .ok ([], false, rest) := by
  rw [attributes]
  split
  · next h => simp [hs] at h
  · next h => simpa [hs] using h.symm
  · next h => simp [hs] at h
  · next hgreater _ h => exact (hgreater (List.cons.inj (hs.symm.trans h)).1.symm).elim

theorem attributes_end (rest : List Char) : attributes ('>' :: rest) = .ok ([], false, rest) :=
  attributes_of_greater (trimStart_cons (by decide) rest)

/-- An attribute before others. -/
theorem attributes_cons {v : List Char} {as : List (String × String)} {b : Bool}
    (hs : trimStart s = name ++ c :: t) (hne : name ≠ [])
    (hname : ∀ c ∈ name, isNameChar c = true) (hc : endsName c = true)
    (hv : valueAfterName (c :: t) = .ok (v, rest)) {rest' : List Char}
    (has : attributes rest = .ok (as, b, rest')) :
    attributes s = .ok ((String.ofList name, String.ofList v) :: as, b, rest') := by
  have hnameOf := nameOf_append hname hc t
  have hafter := afterName_append hname hc t
  obtain ⟨n, name', rfl⟩ := List.exists_cons_of_ne_nil hne
  have hends := endsName_eq_false (hname n (by simp))
  rw [attributes]
  split
  · next h => simp [hs] at h
  · next h =>
    -- A name does not begin with an angle bracket, nor with a slash.
    obtain ⟨rfl, -⟩ := List.cons.inj (hs.symm.trans h)
    simp [endsName] at hends
  · next h =>
    obtain ⟨rfl, -⟩ := List.cons.inj (hs.symm.trans h)
    simp [endsName] at hends
  · next n' r _ _ h =>
    have hs' : trimStart s = n :: (name' ++ c :: t) := hs
    obtain ⟨rfl, rfl⟩ := List.cons.inj (h.symm.trans hs')
    rw [List.cons_append] at hnameOf hafter
    rw [dif_neg (by rw [hnameOf]; simp)]
    split
    · next hv' => simp [hafter, hv] at hv'
    · next v' rest₂ hv' =>
      rw [hafter, hv] at hv'
      simp only [Except.ok.injEq, Prod.mk.injEq] at hv'
      obtain ⟨rfl, rfl⟩ := hv'
      simp [has, hnameOf]

/-- All attributes of a start tag. -/
theorem attributes_written {as : List (String × String)}
    (h : ∀ a ∈ as, a.1.toList ≠ [] ∧ ∀ c ∈ a.1.toList, isNameChar c = true) (rest : List Char) :
    attributes (as.flatMap Html.writtenAttr ++ '>' :: rest) = .ok (as, false, rest) := by
  induction as with
  | nil => exact attributes_end rest
  | cons a as ih =>
    obtain ⟨hne, hname⟩ := h a (by simp)
    have hrest := ih fun b hb => h b (List.mem_cons_of_mem a hb)
    have hwritten : (a :: as).flatMap Html.writtenAttr ++ '>' :: rest =
        ' ' :: (a.1.toList ++ '=' :: ('"' :: Html.escapeQuoted a.2 ++
          '"' :: (as.flatMap Html.writtenAttr ++ '>' :: rest))) := by
      simp [Html.writtenAttr]
    have htrim : trimStart ((a :: as).flatMap Html.writtenAttr ++ '>' :: rest) =
        a.1.toList ++ '=' :: ('"' :: Html.escapeQuoted a.2 ++
          '"' :: (as.flatMap Html.writtenAttr ++ '>' :: rest)) := by
      rw [hwritten, trimStart_blank, trimStart_name_append hne hname]
    have hall := attributes_cons htrim hne hname (by decide) (valueAfterName_quoted a.2 _) hrest
    simpa using hall

/-! ## §3. Items -/

/-- A start tag begins with a small or capital letter. -/
theorem firstItem_start {n : Char} {as : List (String × String)} {b : Bool}
    (hn : startsTag n = true) (has : attributes (afterName (n :: s)) = .ok (as, b, rest))
    (d : Delimiters) (offset : Nat) :
    firstItem d offset '<' (n :: s) =
      (.start (String.ofList (lowerAscii (nameOf (n :: s)))) as b, rest) := by
  unfold firstItem
  rw [if_pos rfl]
  split
  · next h => simp [startsTag, (List.cons.inj h).1] at hn
  · next h => simp [startsTag, (List.cons.inj h).1] at hn
  · next h =>
    obtain ⟨rfl, rfl⟩ := List.cons.inj h
    rw [if_pos hn, has]
  · next h => simp at h

/-- A start tag by its name and what follows the name. -/
theorem firstItem_start_append {n : Char} {as : List (String × String)} {b : Bool}
    (hhead : name.head? = some n) (hn : startsTag n = true)
    (hname : ∀ c ∈ name, isNameChar c = true) (hc : endsName c = true)
    (has : attributes (c :: t) = .ok (as, b, rest)) (d : Delimiters) (offset : Nat) :
    firstItem d offset '<' (name ++ c :: t) =
      (.start (String.ofList (lowerAscii name)) as b, rest) := by
  have hnameOf := nameOf_append hname hc t
  have hafter := afterName_append hname hc t
  obtain ⟨s, rfl⟩ := List.head?_eq_some_iff.mp hhead
  rw [List.cons_append] at hnameOf hafter ⊢
  rw [firstItem_start hn (by rw [hafter]; exact has), hnameOf]

/-- The end of an end tag is found behind blanks. -/
theorem endTag?_append {b : List Char} (hne : name ≠ []) (hname : ∀ c ∈ name, isNameChar c = true)
    (hb : isBlankText b = true) (rest : List Char) :
    endTag? (name ++ (b ++ '>' :: rest)) = some (lowerAscii name, rest) := by
  obtain ⟨c, t, hcons, hc⟩ := exists_endsName hb (c := '>') (by decide) rest
  unfold endTag?
  rw [hcons, afterName_append hname hc, nameOf_append hname hc, ← hcons, trimStart_append hb,
    trimStart_cons (by decide)]
  exact if_neg hne

theorem firstItem_stop (h : endTag? s = some (name, rest)) (d : Delimiters) (offset : Nat) :
    firstItem d offset '<' ('/' :: s) = (.stop (String.ofList name) offset, rest) := by
  simp [firstItem, h]

theorem firstItem_comment (h : splitFirst? ['-', '-', '>'] s = some (t, rest)) (d : Delimiters)
    (offset : Nat) :
    firstItem d offset '<' ('!' :: '-' :: '-' :: s) = (.comment (String.ofList t), rest) := by
  simp [firstItem, h]

/-- The end of a comment is found behind a text that does not hold it, even if the text ends with
    dashes. -/
theorem splitFirst?_comment (h : ¬ ['-', '-', '>'] <:+: s) (rest : List Char) :
    splitFirst? ['-', '-', '>'] (s ++ '-' :: '-' :: '>' :: rest) = some (s, rest) := by
  induction s with
  | nil => simp [splitFirst?, dropFront?]
  | cons c s ih =>
    have hs : ¬ ['-', '-', '>'] <:+: s := fun hi => h (hi.trans (List.suffix_cons c s).isInfix)
    have hfront : dropFront? ['-', '-', '>'] (c :: s ++ '-' :: '-' :: '>' :: rest) = none := by
      rw [dropFront?_eq_none_iff]
      intro hp
      -- The end would begin inside the text and reach beyond it, or lie within.
      rcases s with _ | ⟨b, _ | ⟨a, s⟩⟩
      · simp [List.cons_prefix_cons] at hp
      · simp [List.cons_prefix_cons] at hp
      · simp only [List.cons_append, List.cons_prefix_cons, List.nil_prefix, and_true] at hp
        obtain ⟨rfl, rfl, rfl⟩ := hp
        exact h ⟨[], s, rfl⟩
    rw [List.cons_append] at hfront ⊢
    simp [splitFirst?, hfront, ih hs]

/-- Without interpolations a text reaches up to the next tag. -/
theorem afterText_none (s : List Char) : afterText .none s = s.dropWhile (· ≠ '<') := by
  induction s with
  | nil => rw [afterText]; rfl
  | cons c s ih =>
    rw [afterText]
    by_cases hc : c = '<'
    · simp [hc]
    · rw [if_neg hc, List.dropWhile_cons_of_pos (by simpa using hc), ← ih]
      rfl

/-- A text item reaches up to where the text ends. -/
theorem textItem_append {d : Delimiters} (h : afterLeadingText d c (s ++ rest) = rest) :
    textItem d c (s ++ rest) = (.text (String.ofList (c :: s)), rest) := by
  have htake : (c :: (s ++ rest)).take ((c :: (s ++ rest)).length - rest.length) = c :: s := by
    have hlen : (c :: (s ++ rest)).length - rest.length = (c :: s).length := by
      simp only [List.length_cons, List.length_append]
      omega
    rw [hlen]
    exact List.take_left' rfl
  rw [textItem, h, htake]

theorem firstItem_text (hc : c ≠ '<') (hs : '<' ∉ s) (hrest : rest.head? = some '<' ∨ rest = [])
    (offset : Nat) :
    firstItem .none offset c (s ++ rest) = (.text (String.ofList (c :: s)), rest) := by
  have hafter : afterLeadingText .none c (s ++ rest) = rest := by
    have hkeep : ∀ b ∈ c :: s, (decide (b ≠ '<')) = true := by
      intro b hb
      rcases List.mem_cons.mp hb with rfl | hb
      · simpa using hc
      · simpa using fun he : b = '<' => hs (he ▸ hb)
    have hstop : rest.dropWhile (· ≠ '<') = rest := by
      rcases hrest with hrest | rfl
      · obtain ⟨r, rfl⟩ := List.head?_eq_some_iff.mp hrest
        exact List.dropWhile_cons_of_neg (by simp)
      · rfl
    rw [afterLeadingText, if_neg hc, afterText_none]
    show ((c :: s) ++ rest).dropWhile _ = rest
    rw [List.dropWhile_append_of_pos hkeep, hstop]
  unfold firstItem
  rw [if_neg hc, textItem_append hafter]

theorem items_cons (d : Delimiters) (offset : Nat) (c : Char) (s : List Char) :
    ∃ offset', items d offset (c :: s) =
      (firstItem d offset c s).1 :: items d offset' (firstItem d offset c s).2 :=
  ⟨_, by rw [items]⟩

end ReactiveView.Markup
