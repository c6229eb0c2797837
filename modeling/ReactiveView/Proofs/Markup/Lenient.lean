import Mathlib.Data.List.Chain
import Mathlib.Data.List.TakeWhile
import ReactiveView.Proofs.Markup.RoundTrip

/-! # What is read from any source

  Markup may be written in many ways: with capitals in tags, values without
  quotes, repeated attributes, angle brackets that start no tag. What is read
  from a source has forgotten most of this. Here is what remains to be said of a
  forest that was read from a source in which no interpolation opens.

  * `Unopened`: no two braces stand side by side. Nothing that reading does puts
    two braces together.
  * `items_eq_none`: in such a source the delimiters make no difference.
  * `Tidy`, `TidyAll`: the tags, names, comments and texts that a forest may
    have. A text that follows a text begins with an angle bracket.
  * `tidyAll_of_parse`: what is read is tidy.
-/

namespace ReactiveView.Markup

open Text

/-! ## §1. Small letters -/

theorem isNameChar_of_isAlpha {c : Char} (h : c.isAlpha = true) : isNameChar c = true := by
  have hrange : 65 ≤ c.toNat ∧ c.toNat ≤ 122 := by
    unfold Char.isAlpha Char.isUpper Char.isLower at h
    simp only [Bool.or_eq_true, Bool.and_eq_true, decide_eq_true_eq] at h
    rcases h with ⟨hge, hle⟩ | ⟨hge, hle⟩
    · exact ⟨hge, le_trans hle (by decide)⟩
    · exact ⟨le_trans (by decide) hge, hle⟩
  have hne : ∀ d : Char, d.toNat < 65 → c ≠ d := by
    rintro d hd rfl
    omega
  have hblank : isBlank c = false := by
    simp only [isBlank, hne ' ' (by decide), decide_false, Bool.false_or, Bool.or_eq_false_iff,
      Bool.and_eq_false_iff, decide_eq_false_iff_not]
    omega
  simp [isNameChar, hblank, hne '>' (by decide), hne '/' (by decide), hne '=' (by decide),
    hne '"' (by decide), hne '\'' (by decide)]

theorem isNameChar_of_isLower {c : Char} (h : c.isLower = true) : isNameChar c = true := by
  refine isNameChar_of_isAlpha ?_
  show (c.isUpper || c.isLower) = true
  rw [h, Bool.or_true]

/-- A name in small letters is a name without capitals. -/
theorem lowerAscii_name {s : List Char} (h : ∀ c ∈ s, isNameChar c = true) :
    ∀ c ∈ lowerAscii s, isNameChar c = true ∧ c.isUpper = false := by
  intro c hc
  obtain ⟨d, hd, rfl⟩ := List.mem_map.mp hc
  rcases toLower_cases d with ⟨hupper, hself⟩ | ⟨-, hlower⟩
  · rw [hself]
    exact ⟨h d hd, hupper⟩
  · exact ⟨isNameChar_of_isLower hlower, isUpper_eq_false_of_isLower hlower⟩

/-! ## §2. Texts in which no interpolation opens -/

/-- No two braces stand side by side. -/
def Unopened (s : List Char) : Prop := s.IsChain fun c d => c = '{' → d ≠ '{'

instance (s : List Char) : Decidable (Unopened s) :=
  inferInstanceAs (Decidable (s.IsChain fun c d => c = '{' → d ≠ '{'))

variable {c : Char} {s t : List Char}

theorem unopened_nil : Unopened [] := .nil

theorem Unopened.of_isInfix (h : Unopened s) (ht : t <:+: s) : Unopened t := List.IsChain.infix h ht

theorem Unopened.suffix (h : Unopened s) (ht : t <:+ s) : Unopened t := h.of_isInfix ht.isInfix

theorem unopened_iff : Unopened s ↔ ¬ ['{', '{'] <:+: s := by
  constructor
  · intro h hi
    have hpair := h.of_isInfix hi
    simp [Unopened] at hpair
  · intro h
    induction s with
    | nil => exact unopened_nil
    | cons c s ih =>
      refine List.isChain_cons.mpr ⟨?_, ih fun hi => h (hi.trans (List.suffix_cons c s).isInfix)⟩
      intro d hd hc hd'
      obtain ⟨r, rfl⟩ := List.head?_eq_some_iff.mp hd
      subst hc hd'
      exact h ⟨[], r, rfl⟩

/-- A character that is no brace keeps what is around it apart. -/
theorem unopened_append_cons_iff (hc : c ≠ '{') :
    Unopened (s ++ c :: t) ↔ Unopened s ∧ Unopened t := by
  unfold Unopened
  rw [List.isChain_append, List.isChain_cons]
  constructor
  · rintro ⟨hs, ⟨-, ht⟩, -⟩
    exact ⟨hs, ht⟩
  · rintro ⟨hs, ht⟩
    refine ⟨hs, ⟨fun d _ he => absurd he hc, ht⟩, ?_⟩
    intro b _ d hd _
    obtain rfl : c = d := by simpa using hd
    exact hc

theorem unopened_cons_iff (hc : c ≠ '{') : Unopened (c :: t) ↔ Unopened t := by
  have happend := unopened_append_cons_iff (s := []) (t := t) hc
  simpa [unopened_nil] using happend

/-- What holds no brace keeps what is around it apart. -/
theorem unopened_between_iff {p : List Char} (hne : p ≠ []) (hp : '{' ∉ p) :
    Unopened (s ++ (p ++ t)) ↔ Unopened s ∧ Unopened t := by
  obtain ⟨c, q, rfl⟩ := List.exists_cons_of_ne_nil hne
  have hc : c ≠ '{' := fun he => hp (by simp [he])
  have hq : Unopened (q ++ t) ↔ Unopened t := by
    have hq : '{' ∉ q := fun hm => hp (List.mem_cons_of_mem c hm)
    clear hp
    induction q with
    | nil => rfl
    | cons d q ih =>
      have hd : d ≠ '{' := fun he => hq (by simp [he])
      rw [List.cons_append, unopened_cons_iff hd]
      exact ih (by simp) fun hm => hq (List.mem_cons_of_mem d hm)
  rw [List.cons_append, unopened_append_cons_iff hc, hq]

/-- A separator without braces keeps what it separates apart. -/
theorem Unopened.intercalate {sep : List Char} (hne : sep ≠ []) (hsep : '{' ∉ sep)
    {ls : List (List Char)} (h : ∀ l ∈ ls, Unopened l) : Unopened (sep.intercalate ls) := by
  induction ls with
  | nil => exact unopened_nil
  | cons l ls ih =>
    have hl : Unopened l := h l List.mem_cons_self
    have hrest := ih fun m hm => h m (List.mem_cons_of_mem l hm)
    cases ls with
    | nil => simpa using hl
    | cons m ms =>
      rw [List.intercalate_cons_cons, List.append_assoc]
      exact (unopened_between_iff hne hsep).mpr ⟨hl, hrest⟩

theorem Unopened.lowerAscii (h : Unopened s) : Unopened (lowerAscii s) := by
  have hbrace : ∀ c : Char, c.toLower = '{' → c = '{' := by
    intro c hc
    rcases toLower_cases c with ⟨-, hself⟩ | ⟨-, hlower⟩
    · exact hself.symm.trans hc
    · rw [hc] at hlower
      cases hlower
  unfold Unopened Text.lowerAscii
  rw [List.isChain_map]
  exact List.IsChain.imp (fun a b hab ha hb => hab (hbrace a ha) (hbrace b hb)) h

theorem Unopened.decodeOnce {es : List (List Char × Char)} (hes : ∀ e ∈ es, e.2 ≠ '{')
    (h : Unopened s) : Unopened (decodeOnce es s) := by
  fun_induction Markup.decodeOnce es s with
  | case1 => exact unopened_nil
  | case2 c s e he ih =>
    rw [unopened_cons_iff (hes e (prefix_of_entityAt? he).1)]
    exact ih (h.suffix ((List.drop_suffix _ s).trans (List.suffix_cons c s)))
  | case3 c s he ih =>
    obtain ⟨hhead, htail⟩ := List.isChain_cons.mp h
    refine List.isChain_cons.mpr ⟨?_, ih htail⟩
    -- A brace behind `c` was there before.
    intro d hd hc hd'
    obtain ⟨r, hr⟩ := List.head?_eq_some_iff.mp hd
    have hfront : ['{'] <+: Markup.decodeOnce es s := ⟨r, by rw [hr, hd']; rfl⟩
    have hbefore : ['{'] <+: s := by
      refine prefix_of_prefix_decodeOnce ?_ hfront
      intro e he hm
      exact hes e he (List.mem_singleton.mp hm)
    obtain ⟨r', rfl⟩ := hbefore
    exact hhead '{' rfl hc rfl

theorem Unopened.decode (h : Unopened s) : Unopened (decode s) := by
  rw [decode_eq_decodeOnce]
  exact h.decodeOnce (by decide)

/-- Blanks have no names, and names hold no blanks only. -/
theorem isBlankText_decode (s : List Char) : isBlankText (decode s) = isBlankText s := by
  rw [decode_eq_decodeOnce]
  have hall : ∀ s, (decodeOnce entities s).all isBlank = s.all isBlank := by
    intro s
    fun_induction Markup.decodeOnce entities s with
    | case1 => rfl
    | case2 c s e he ih =>
      -- Neither the name nor what it stands for is blank.
      obtain ⟨hmem, hfront⟩ := prefix_of_entityAt? he
      have hblank : isBlank e.2 = false ∧ ['&'] <+: e.1 := by
        have hall : ∀ e ∈ entities, isBlank e.2 = false ∧ ['&'] <+: e.1 := by decide
        exact hall e hmem
      obtain ⟨r, hr⟩ := hblank.2.trans hfront
      obtain ⟨rfl, -⟩ := List.cons.inj hr
      rw [List.all_cons, List.all_cons, hblank.1]
      rfl
    | case3 c s he ih => rw [List.all_cons, List.all_cons, ih]
  exact hall s

/-! ## §3. Tags of any source -/

variable {rest value name : List Char}

theorem prefix_of_splitFirst? {p before : List Char} (h : splitFirst? p s = some (before, rest)) :
    before <+: s ∧ rest <:+ s := by
  rw [eq_append_of_splitFirst? h]
  exact ⟨⟨p ++ rest, by simp⟩, ⟨before ++ p, by simp⟩⟩

/-- What stands before the first occurrence holds no occurrence. -/
theorem not_infix_of_splitFirst? {p before : List Char} (hp : p ≠ [])
    (h : splitFirst? p s = some (before, rest)) : ¬ p <:+: before := by
  induction s generalizing before with
  | nil =>
    rw [splitFirst?, if_neg hp] at h
    cases h
  | cons c s ih =>
    have hwhole := eq_append_of_splitFirst? h
    rw [splitFirst?] at h
    split at h
    · obtain ⟨rfl, -⟩ := Prod.mk.inj (Option.some.inj h)
      exact fun hi => hp (List.infix_nil.mp hi)
    · next hnone =>
      obtain ⟨⟨b, r⟩, hb, heq⟩ := Option.map_eq_some_iff.mp h
      obtain ⟨rfl, rfl⟩ := Prod.mk.inj heq
      intro hi
      rcases List.infix_cons_iff.mp hi with hfront | hi
      · refine dropFront?_eq_none_iff.mp hnone (hfront.trans ?_)
        exact ⟨p ++ r, by rw [hwhole, List.append_assoc]⟩
      · exact ih hb hi

/-- What a value and what follows it are made of. -/
def ValueOf (s value rest : List Char) : Prop :=
  rest <:+ s ∧ ∃ raw, raw <:+: s ∧ value = decode raw

theorem ValueOf.of_suffix (h : ValueOf s value rest) (hs : s <:+ t) : ValueOf t value rest := by
  obtain ⟨hrest, raw, hraw, rfl⟩ := h
  exact ⟨hrest.trans hs, raw, hraw.trans hs.isInfix, rfl⟩

theorem valueOf_bareValue (s : List Char) : ValueOf s (decode (bareValue s).1) (bareValue s).2 := by
  have hsplit : s.takeWhile (!endsBareValue ·) ++ s.dropWhile (!endsBareValue ·) = s :=
    List.takeWhile_append_dropWhile
  unfold bareValue
  simp only
  split
  · next rest hrest =>
    split
    · next hlast =>
      -- The slash goes back to the tag.
      refine ⟨?_, _, ?_, rfl⟩
      · obtain ⟨init, hinit⟩ := List.getLast?_eq_some_iff.mp hlast
        have hwhole : s = init ++ '/' :: '>' :: rest :=
          hsplit.symm.trans (by rw [hinit, hrest, List.append_assoc]; rfl)
        refine ⟨init, ?_⟩
        show init ++ '/' :: s.dropWhile (!endsBareValue ·) = s
        rw [hrest]
        exact hwhole.symm
      · exact (List.dropLast_prefix _).isInfix.trans (List.takeWhile_prefix _).isInfix
    · exact ⟨hrest ▸ List.dropWhile_suffix _, _, (List.takeWhile_prefix _).isInfix, rfl⟩
  · exact ⟨List.dropWhile_suffix _, _, (List.takeWhile_prefix _).isInfix, rfl⟩

theorem valueOf_attrValue (h : attrValue s = .ok (value, rest)) : ValueOf s value rest := by
  unfold attrValue at h
  split at h
  · cases h
  · next c r =>
    split at h
    · split at h
      · next raw rest' hraw =>
        obtain ⟨rfl, rfl⟩ := Prod.mk.inj (Except.ok.inj h)
        obtain ⟨hfront, hsuffix⟩ := prefix_of_splitFirst? hraw
        exact ⟨hsuffix.trans (List.suffix_cons c r), raw,
          hfront.isInfix.trans (List.suffix_cons c r).isInfix, rfl⟩
      · cases h
    · obtain ⟨rfl, rfl⟩ := Prod.mk.inj (Except.ok.inj h)
      exact valueOf_bareValue (c :: r)

theorem valueOf_valueAfterName (h : valueAfterName s = .ok (value, rest)) :
    ValueOf s value rest := by
  have htrim : trimStart s <:+ s := List.dropWhile_suffix isBlank
  unfold valueAfterName at h
  split at h
  · next r hr =>
    have hr' : trimStart r <:+ s :=
      ((List.dropWhile_suffix isBlank).trans (List.suffix_cons '=' r)).trans (hr ▸ htrim)
    exact (valueOf_attrValue h).of_suffix hr'
  · obtain ⟨rfl, rfl⟩ := Prod.mk.inj (Except.ok.inj h)
    exact ⟨htrim, [], List.nil_infix, by simp [decode_eq_decodeOnce]⟩

theorem isNameChar_of_mem_nameOf (h : c ∈ nameOf s) : isNameChar c = true := by
  have hends := List.mem_takeWhile_imp h
  simp only [endsName, Bool.not_eq_true', Bool.or_eq_false_iff, decide_eq_false_iff_not] at hends
  obtain ⟨⟨⟨⟨⟨hblank, hgreater⟩, hslash⟩, hequals⟩, hquote⟩, hapostrophe⟩ := hends
  simp [isNameChar, hblank, hgreater, hslash, hequals, hquote, hapostrophe]

/-- An attribute that an element may be read with. -/
structure LegalAttr (a : String × String) : Prop where
  /-- The name is one. -/
  key : WritableKey a.1
  /-- No interpolation opens in it. -/
  unopened_key : Unopened a.1.toList
  /-- And none in the value. -/
  unopened_value : Unopened a.2.toList

theorem legalAttr_of_attributes {as : List (String × String)} {b : Bool} (hs : Unopened s)
    (h : attributes s = .ok (as, b, rest)) : rest <:+ s ∧ ∀ a ∈ as, LegalAttr a := by
  fun_induction attributes s generalizing as with
  | case1 => cases h
  | case2 s r hr =>
    cases h
    have htrim : '>' :: rest <:+ s := hr ▸ List.dropWhile_suffix isBlank
    exact ⟨(List.suffix_cons '>' rest).trans htrim, by simp⟩
  | case3 s r hr =>
    cases h
    have htrim : '/' :: '>' :: rest <:+ s := hr ▸ List.dropWhile_suffix isBlank
    exact ⟨(List.suffix_append ['/', '>'] rest).trans htrim, by simp⟩
  | case4 => cases h
  | case5 => cases h
  | case6 => cases h
  | case7 s c r _ _ hr hname value rest₁ hvalue _ as' b' rest₂ has ih =>
    cases h
    have htrim : c :: r <:+ s := by
      have htrim : trimStart s <:+ s := List.dropWhile_suffix isBlank
      rwa [hr] at htrim
    have hafter : afterName (c :: r) <:+ s := (List.dropWhile_suffix _).trans htrim
    obtain ⟨hrest, raw, hraw, rfl⟩ := (valueOf_valueAfterName hvalue).of_suffix hafter
    obtain ⟨hrest', hattrs⟩ := ih (hs.suffix hrest) has
    refine ⟨hrest'.trans hrest, ?_⟩
    intro a ha
    rcases List.mem_cons.mp ha with rfl | ha
    · refine ⟨⟨?_, ?_⟩, ?_, ?_⟩
      · rw [String.toList_ofList]
        exact hname
      · rw [String.toList_ofList]
        exact fun d hd => isNameChar_of_mem_nameOf hd
      · rw [String.toList_ofList]
        exact hs.of_isInfix ((List.takeWhile_prefix _).isInfix.trans htrim.isInfix)
      · rw [String.toList_ofList]
        exact (hs.of_isInfix hraw).decode
    · exact hattrs a ha

/-! ## §4. Items of any source -/

/-- A tag that an element may be read with. -/
structure LegalTag (tag : String) : Prop where
  /-- It starts with a small letter. -/
  head : ∃ c s, tag.toList = c :: s ∧ c.isLower = true
  /-- It has no ASCII capital. -/
  no_capital : ∀ c ∈ tag.toList, c.isUpper = false
  /-- It is a name. -/
  name : ∀ c ∈ tag.toList, isNameChar c = true
  /-- No interpolation opens in it. -/
  unopened : Unopened tag.toList

/-- A comment that may be read. -/
structure LegalComment (text : String) : Prop where
  /-- It does not hold its own end. -/
  no_end : ¬ "-->".toList <:+: text.toList
  /-- No interpolation opens in it. -/
  unopened : Unopened text.toList

theorem suffix_of_endTag? (h : endTag? s = some (name, rest)) : rest <:+ s := by
  unfold endTag? at h
  split at h
  · next rest' htrim =>
    split at h
    · cases h
    · obtain ⟨-, rfl⟩ := Prod.mk.inj (Option.some.inj h)
      have hafter : '>' :: rest' <:+ afterName s := htrim ▸ List.dropWhile_suffix isBlank
      exact (List.suffix_cons '>' rest').trans (hafter.trans (List.dropWhile_suffix _))
  · cases h

/-- What an item is made of. -/
def Item.Legal : Item → Prop
  | .start tag attrs _ => LegalTag tag ∧ ∀ a ∈ attrs, LegalAttr a
  | .comment t => LegalComment t
  | .text raw => Unopened raw.toList
  | .stop _ _ => True
  | .malformed _ => True

theorem legalTag_nameOf {n : Char} (hn : startsTag n = true) (hs : Unopened (n :: s)) :
    LegalTag (String.ofList (lowerAscii (nameOf (n :: s)))) := by
  have hchars := lowerAscii_name (s := nameOf (n :: s)) fun c hc => isNameChar_of_mem_nameOf hc
  have hlower : n.toLower.isLower = true := by
    rcases toLower_cases n with ⟨hupper, hself⟩ | ⟨-, hlower⟩
    · have halpha : (n.isUpper || n.isLower) = true := hn
      rw [hself]
      simpa [hupper] using halpha
    · exact hlower
  have hfirst : endsName n = false := endsName_eq_false (isNameChar_of_isAlpha hn)
  have hname : nameOf (n :: s) = n :: nameOf s :=
    List.takeWhile_cons_of_pos (by simp [hfirst])
  refine ⟨?_, ?_, ?_, ?_⟩
  · rw [String.toList_ofList, hname]
    exact ⟨_, _, rfl, hlower⟩
  · rw [String.toList_ofList]
    exact fun c hc => (hchars c hc).2
  · rw [String.toList_ofList]
    exact fun c hc => (hchars c hc).1
  · rw [String.toList_ofList]
    exact (hs.of_isInfix (List.takeWhile_prefix _).isInfix).lowerAscii

/-- A text reaches up to an angle bracket or to the end. -/
theorem textItem_none (c : Char) (s : List Char) :
    ∃ raw rest, textItem .none c s = (.text (String.ofList (c :: raw)), rest) ∧
      c :: raw ++ rest = c :: s ∧ (rest = [] ∨ rest.head? = some '<') := by
  -- Where the text starts with an angle bracket, that one is part of it.
  have hsplit : s.takeWhile (· ≠ '<') ++ s.dropWhile (· ≠ '<') = s :=
    List.takeWhile_append_dropWhile
  have hafter : afterLeadingText .none c s = s.dropWhile (· ≠ '<') := by
    unfold afterLeadingText
    split
    · exact afterText_none s
    · next hc => rw [afterText_none, List.dropWhile_cons_of_pos (by simpa using hc)]
  refine ⟨s.takeWhile (· ≠ '<'), s.dropWhile (· ≠ '<'), ?_, congrArg _ hsplit, ?_⟩
  · have hitem : textItem .none c (s.takeWhile (· ≠ '<') ++ s.dropWhile (· ≠ '<')) =
        (.text (String.ofList (c :: s.takeWhile (· ≠ '<'))), s.dropWhile (· ≠ '<')) :=
      textItem_append (by rwa [hsplit])
    rwa [hsplit] at hitem
  · cases hdrop : s.dropWhile (· ≠ '<') with
    | nil => exact .inl rfl
    | cons d r =>
      have hd : ¬ decide (d ≠ '<') = true := by
        have hhead := List.head?_dropWhile_not (· ≠ '<') s
        rw [hdrop] at hhead
        simpa using hhead
      right
      simpa using hd

/-- **The first item** of any text in which no interpolation opens, and what follows it. -/
theorem legal_firstItem (h : Unopened (c :: s)) (offset : Nat) :
    (firstItem .none offset c s).1.Legal ∧ (firstItem .none offset c s).2 <:+ c :: s := by
  have htext : (textItem .none c s).1.Legal ∧ (textItem .none c s).2 <:+ c :: s := by
    obtain ⟨raw, rest, hitem, hsplit, -⟩ := textItem_none c s
    rw [hitem]
    refine ⟨?_, ⟨_, hsplit⟩⟩
    show Unopened (String.ofList (c :: raw)).toList
    rw [String.toList_ofList]
    exact h.of_isInfix ⟨[], rest, hsplit⟩
  have hs : s <:+ c :: s := List.suffix_cons c s
  unfold firstItem
  split
  · split
    · next body =>
      have hbody : body <:+ c :: '!' :: '-' :: '-' :: body := ⟨[c, '!', '-', '-'], rfl⟩
      split
      · next t rest ht =>
        obtain ⟨hfront, hsuffix⟩ := prefix_of_splitFirst? ht
        have htext : (String.ofList t).toList = t := String.toList_ofList
        refine ⟨⟨?_, ?_⟩, hsuffix.trans hbody⟩
        · rw [htext]
          exact not_infix_of_splitFirst? (by simp) ht
        · rw [htext]
          exact h.of_isInfix (hfront.isInfix.trans hbody.isInfix)
      · exact ⟨trivial, List.nil_suffix⟩
    · next r =>
      split
      · next name rest hend =>
        exact ⟨trivial, (suffix_of_endTag? hend).trans ((List.suffix_cons '/' r).trans hs)⟩
      · exact ⟨trivial, List.nil_suffix⟩
    · next n t _ _ =>
      split
      · next hn =>
        split
        · next as selfClosing rest has =>
          have hafter : afterName (n :: t) <:+ c :: n :: t := (List.dropWhile_suffix _).trans hs
          obtain ⟨hrest, hattrs⟩ := legalAttr_of_attributes (h.suffix hafter) has
          exact ⟨⟨legalTag_nameOf hn (h.suffix hs), hattrs⟩, hrest.trans hafter⟩
        · exact ⟨trivial, List.nil_suffix⟩
        · exact ⟨trivial, List.nil_suffix⟩
      · exact htext
    · exact htext
  · exact htext

/-- A text that is an item begins where it was found, and goes on to an angle bracket or to the
    end. -/
theorem firstItem_text_or (c : Char) (s : List Char) (offset : Nat) :
    (∃ raw rest, firstItem .none offset c s = (.text (String.ofList (c :: raw)), rest) ∧
      (rest = [] ∨ rest.head? = some '<')) ∨
    ∀ raw, (firstItem .none offset c s).1 ≠ .text raw := by
  have htext : ∃ raw rest, textItem .none c s = (.text (String.ofList (c :: raw)), rest) ∧
      (rest = [] ∨ rest.head? = some '<') := by
    obtain ⟨raw, rest, hitem, -, hrest⟩ := textItem_none c s
    exact ⟨raw, rest, hitem, hrest⟩
  unfold firstItem
  split
  · split
    · right
      split <;> simp
    · right
      split <;> simp
    · split
      · right
        split <;> simp
      · exact .inl htext
    · exact .inl htext
  · exact .inl htext

/-! ## §5. Delimiters that do not occur -/

section delimiters

variable {d : Delimiters}

theorem afterText_of_unopened (hd : d.opening = ['{', '{']) (h : Unopened s) :
    afterText d s = s.dropWhile (· ≠ '<') := by
  have hclosed : ∀ {c r inside}, Unopened (c :: r) → d.open? (c :: r) ≠ some inside := by
    intro c r inside hu hopen
    rw [Delimiters.open?, hd, if_neg (by simp)] at hopen
    exact unopened_iff.mp hu ⟨[], inside, (eq_append_of_dropFront? hopen).symm⟩
  fun_induction afterText d s with
  | case1 => rfl
  | case2 r => exact (List.dropWhile_cons_of_neg (by simp)).symm
  | case3 c r _ inside hopen => exact absurd hopen (hclosed h)
  | case4 c r _ inside hopen => exact absurd hopen (hclosed h)
  | case5 c r hc _ _ ih =>
    rw [ih (h.suffix (List.suffix_cons c r)), List.dropWhile_cons_of_pos (by simpa using hc)]

theorem firstItem_of_unopened (hd : d.opening = ['{', '{']) (h : Unopened (c :: s))
    (offset : Nat) : firstItem d offset c s = firstItem .none offset c s := by
  have hafter : afterLeadingText d c s = afterLeadingText .none c s := by
    unfold afterLeadingText
    rw [afterText_none]
    split
    · exact afterText_of_unopened hd (h.suffix (List.suffix_cons c s))
    · exact afterText_of_unopened hd h
  have htext : textItem d c s = textItem .none c s := by rw [textItem, textItem, hafter]
  unfold firstItem
  rw [htext]

/-- **Where no interpolation opens** the delimiters make no difference. -/
theorem items_eq_none (hd : d.opening = ['{', '{']) (h : Unopened s) (offset : Nat) :
    items d offset s = items .none offset s := by
  -- By induction on the length: what follows an item is shorter.
  induction hn : s.length using Nat.strongRecOn generalizing s offset with
  | ind n ih =>
    subst hn
    cases s with
    | nil => rw [items, items]
    | cons c s =>
      rw [items, items, firstItem_of_unopened hd h]
      rw [ih _ (firstItem_length .none offset c s) (h.suffix (legal_firstItem h offset).2) _ rfl]

theorem parse_eq_none (hd : d.opening = ['{', '{']) {source : String}
    (h : Unopened source.toList) : parse d source = parse .none source := by
  rw [parse, parse, items_eq_none hd h]

end delimiters

/-! ## §6. Tidy forests -/

/-- Whether two nodes may stand side by side: a text after a text begins with an angle bracket. -/
def Beside : MarkupNode → MarkupNode → Prop
  | .text _, .text t => t.toList.head? = some '<'
  | _, _ => True

mutual

/-- A node that may be read. -/
def Tidy : MarkupNode → Prop
  | .text s => isBlankText s.toList = false ∧ Unopened s.toList
  | .comment s => LegalComment s
  | .element tag attrs children =>
    LegalTag tag ∧ (∀ a ∈ attrs, LegalAttr a) ∧ TidyAll children

/-- Nodes that may be read, one after the other. -/
def TidyAll : List MarkupNode → Prop
  | [] => True
  | n :: ns => Tidy n ∧ (∀ m ∈ ns.head?, Beside n m) ∧ TidyAll ns

end

theorem tidyAll_append_singleton {ns : List MarkupNode} {n : MarkupNode} (hns : TidyAll ns)
    (hn : Tidy n) (hbeside : ∀ m ∈ ns.getLast?, Beside m n) : TidyAll (ns ++ [n]) := by
  induction ns with
  | nil => exact ⟨hn, by simp, trivial⟩
  | cons m ns ih =>
    obtain ⟨hm, hnext, hns⟩ := hns
    cases ns with
    | nil => exact ⟨hm, by simpa using hbeside, hn, by simp, trivial⟩
    | cons k ns =>
      refine ⟨hm, by simpa using hnext, ih hns ?_⟩
      intro j hj
      exact hbeside j (by simpa using hj)

namespace Partway

/-- The nodes beside which the next one is put. -/
def siblings (p : Partway) : List MarkupNode :=
  match p.pending with
  | [] => p.roots
  | e :: _ => e.children

/-- What was read so far is tidy. -/
structure Tidy (p : Partway) : Prop where
  /-- The finished roots are. -/
  roots : TidyAll p.roots
  /-- The open elements are. -/
  pending : ∀ e ∈ p.pending, LegalTag e.tag ∧ (∀ a ∈ e.attrs, LegalAttr a) ∧ TidyAll e.children

/-- After a text comes an angle bracket or the end. -/
def Awaits (p : Partway) (s : List Char) : Prop :=
  ∀ t, p.siblings.getLast? = some (.text t) → s = [] ∨ s.head? = some '<'

variable {p q : Partway} {n : MarkupNode}

theorem Tidy.add (h : p.Tidy) (hn : Markup.Tidy n)
    (hbeside : ∀ m ∈ p.siblings.getLast?, Beside m n) : (p.add n).Tidy := by
  obtain ⟨hroots, hpending⟩ := h
  unfold Partway.add
  unfold siblings at hbeside
  split
  · next hnil =>
    rw [hnil] at hbeside
    exact ⟨tidyAll_append_singleton hroots hn hbeside, by simp [hnil]⟩
  · next e rest hcons =>
    rw [hcons] at hbeside hpending
    obtain ⟨htag, hattrs, hchildren⟩ := hpending e List.mem_cons_self
    refine ⟨hroots, ?_⟩
    intro e' he'
    rcases List.mem_cons.mp he' with rfl | he'
    · exact ⟨htag, hattrs, tidyAll_append_singleton hchildren hn hbeside⟩
    · exact hpending e' (List.mem_cons_of_mem e he')

theorem getLast?_siblings_add (p : Partway) (n : MarkupNode) :
    (p.add n).siblings.getLast? = some n := by
  unfold Partway.add
  split
  · next h => simp [siblings, h]
  · simp [siblings]

theorem awaits_add (h : ∀ t, n ≠ .text t) (s : List Char) : (p.add n).Awaits s := by
  intro t ht
  rw [getLast?_siblings_add] at ht
  exact absurd (Option.some.inj ht) (h t)

theorem beside_of_ne_text (h : ∀ t, n ≠ .text t) (m : MarkupNode) : Beside m n := by
  cases n with
  | text t => exact absurd rfl (h t)
  | element tag attrs children => cases m <;> trivial
  | comment t => cases m <;> trivial

/-- **One item** is taken in. -/
theorem Tidy.take (h : p.Tidy) (hawaits : p.Awaits (c :: s)) (hs : Unopened (c :: s))
    {offset : Nat} (htake : p.take (firstItem .none offset c s).1 = .ok q) :
    q.Tidy ∧ q.Awaits (firstItem .none offset c s).2 := by
  obtain ⟨hlegal, -⟩ := legal_firstItem hs offset
  rcases firstItem_text_or c s offset with ⟨raw, rest, hitem, hrest⟩ | hother
  · rw [hitem] at hlegal htake ⊢
    have hraw : (String.ofList (c :: raw)).toList = c :: raw := String.toList_ofList
    have hlegal : Unopened (c :: raw) := hraw ▸ hlegal
    rw [Partway.take, hraw] at htake
    split at htake
    · -- Blanks are dropped.
      obtain rfl := Except.ok.inj htake
      exact ⟨h, fun _ _ => hrest⟩
    · next hblank =>
      obtain rfl := Except.ok.inj htake
      have hdecode : (decodeEntities (String.ofList (c :: raw))).toList = decode (c :: raw) := by
        rw [decodeEntities, String.toList_ofList, hraw]
      refine ⟨h.add ⟨?_, ?_⟩ ?_, fun _ _ => hrest⟩
      · rw [hdecode, isBlankText_decode]
        simpa using hblank
      · rw [hdecode]
        exact hlegal.decode
      · intro m hm
        cases m with
        | element => trivial
        | comment => trivial
        | text t =>
          -- What follows a text begins with an angle bracket, also when decoded.
          obtain rfl : c = '<' := by simpa using hawaits t hm
          show (decodeEntities _).toList.head? = some '<'
          rw [hdecode, decode_eq_decodeOnce, decodeOnce_cons_of_ne (by decide)]
          rfl
  · cases hitem : (firstItem .none offset c s).1 with
    | text raw => exact absurd hitem (hother raw)
    | malformed offset =>
      rw [hitem] at htake
      cases htake
    | comment t =>
      rw [hitem] at htake hlegal
      obtain rfl := Except.ok.inj htake
      exact ⟨h.add hlegal fun m _ => beside_of_ne_text (by simp) m, awaits_add (by simp) _⟩
    | start tag attrs selfClosing =>
      rw [hitem] at htake hlegal
      obtain ⟨htag, hattrs⟩ := hlegal
      rw [Partway.take] at htake
      split at htake
      · obtain rfl := Except.ok.inj htake
        exact ⟨h.add ⟨htag, hattrs, trivial⟩ fun m _ => beside_of_ne_text (by simp) m,
          awaits_add (by simp) _⟩
      · obtain rfl := Except.ok.inj htake
        refine ⟨⟨h.roots, ?_⟩, by simp [Awaits, siblings]⟩
        intro e he
        rcases List.mem_cons.mp he with rfl | he
        · exact ⟨htag, hattrs, trivial⟩
        · exact h.pending e he
    | stop tag offset =>
      rw [hitem, Partway.take] at htake
      split at htake
      · cases htake
      · next e rest hpending =>
        split at htake
        · obtain rfl := Except.ok.inj htake
          have helement := h.pending e (by simp [hpending])
          have hrest : Partway.Tidy { p with pending := rest } :=
            ⟨h.roots, fun e' he' => h.pending e' (by simp [hpending, he'])⟩
          exact ⟨hrest.add helement fun m _ => beside_of_ne_text (by simp) m,
            awaits_add (by simp) _⟩
        · cases htake

/-- What is taken in from some items comes from the first one, and then from the others. -/
theorem exists_take_of_foldlM {is : List Item} (h : (i :: is).foldlM take p = .ok q) :
    ∃ p', p.take i = .ok p' ∧ is.foldlM take p' = .ok q := by
  rw [List.foldlM_cons] at h
  cases htake : p.take i with
  | error e =>
    rw [htake] at h
    cases h
  | ok p' =>
    rw [htake] at h
    exact ⟨p', rfl, h⟩

/-- **All items** are taken in. -/
theorem Tidy.foldlM (h : p.Tidy) (hawaits : p.Awaits s) (hs : Unopened s) {offset : Nat}
    (hfold : (items .none offset s).foldlM Partway.take p = .ok q) : q.Tidy := by
  -- By induction on the length: what follows an item is shorter.
  induction hn : s.length using Nat.strongRecOn generalizing s p offset with
  | ind n ih =>
    subst hn
    cases s with
    | nil =>
      rw [items] at hfold
      obtain rfl := Except.ok.inj hfold
      exact h
    | cons c s =>
      rw [items] at hfold
      obtain ⟨p', htake, hfold⟩ := exists_take_of_foldlM hfold
      obtain ⟨htidy, hnext⟩ := h.take hawaits hs htake
      exact ih _ (firstItem_length .none offset c s) htidy hnext
        (hs.suffix (legal_firstItem hs offset).2) hfold rfl

end Partway

/-- Items are nested to a forest if in the end its nodes are the roots and no element is open. -/
theorem nest_eq_ok_iff {is : List Item} {ns : List MarkupNode} :
    nest is = .ok ns ↔ is.foldlM Partway.take ⟨[], []⟩ = .ok ⟨[], ns⟩ := by
  rw [nest]
  cases is.foldlM Partway.take ⟨[], []⟩ with
  | error e => simp
  | ok p =>
    obtain ⟨pending, roots⟩ := p
    cases pending <;> simp [Partway.finish]

/-- **What is read is tidy**, however it was written. -/
theorem tidyAll_of_parse {source : String} {forest : List MarkupNode}
    (hs : Unopened source.toList) (h : parse .none source = .ok forest) : TidyAll forest := by
  have hstart : Partway.Tidy ⟨[], []⟩ := ⟨trivial, by simp⟩
  have hall := hstart.foldlM (by simp [Partway.Awaits, Partway.siblings]) hs (nest_eq_ok_iff.mp h)
  exact hall.roots

end ReactiveView.Markup
