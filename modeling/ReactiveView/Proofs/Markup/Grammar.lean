import ReactiveView.Proofs.Markup.Lenient

/-! # The parts of a source

  A source that is not in any way doubtful is put together from start tags, end
  tags, comments and runs of text. Here is how each of them may be written, and
  that the source is split into just these parts.

  * `ValueForm`, `TagEnd`: how the attributes and the end of a start tag may be
    written.
  * `attributes_eq_ok_iff`: this is what can be read, and nothing else.
  * `Spelt`: how a part may be written.
  * `Passage`: a part together with its text.
  * `items_source`: passages one after the other are read as their parts.
-/

namespace ReactiveView.Markup

open Text

/-! ## §1. The end of a start tag -/

/-- A value without quotes, as it may be written in front of the rest of a tag. -/
structure Bare (raw tail : List Char) : Prop where
  /-- It has no blank and no angle bracket. -/
  chars : ∀ c ∈ raw, endsBareValue c = false
  /-- It does not begin with a quote. -/
  unquoted : ∀ c ∈ raw.head?, c ≠ '"' ∧ c ≠ '\''
  /-- A blank ends it, unless it is empty, or the end of the tag does. A slash in front of the end
      belongs to the tag. -/
  ends : (raw ≠ [] ∧ ∃ c ∈ tail.head?, isBlank c = true) ∨
    (tail = ['>'] ∧ raw.getLast? ≠ some '/') ∨ tail = ['/', '>']

/-- How the value of an attribute may be written behind the name, in front of the rest of a tag. -/
inductive ValueForm (tail : List Char) : (written raw : List Char) → Prop where
  /-- Not at all, if the name ends there. -/
  | absent : (∀ c ∈ tail.head?, isNameChar c = false) → ValueForm tail [] []
  /-- Behind an equals sign, in quotes that do not occur in it. -/
  | quoted {b b' raw : List Char} {q : Char} :
    isBlankText b = true → isBlankText b' = true → q = '"' ∨ q = '\'' → q ∉ raw →
      ValueForm tail (b ++ '=' :: (b' ++ q :: (raw ++ [q]))) raw
  /-- Behind an equals sign, as it is. -/
  | bare {b b' raw : List Char} : isBlankText b = true → isBlankText b' = true → Bare raw tail →
      ValueForm tail (b ++ '=' :: (b' ++ raw)) raw

/-- How attributes may be written behind the name of a start tag, up to the end of the tag, which
    closes itself or not. -/
inductive TagEnd : List (String × String) → Bool → List Char → Prop where
  /-- No more attributes. -/
  | opened {b : List Char} : isBlankText b = true → TagEnd [] false (b ++ ['>'])
  /-- No more attributes, and a slash. -/
  | closed {b : List Char} : isBlankText b = true → TagEnd [] true (b ++ ['/', '>'])
  /-- An attribute; its value is decoded. -/
  | attr {b w raw tail : List Char} {key : String} {as : List (String × String)} {sc : Bool} :
    isBlankText b = true → WritableKey key → ValueForm tail w raw → TagEnd as sc tail →
      TagEnd ((key, String.ofList (decode raw)) :: as) sc (b ++ (key.toList ++ (w ++ tail)))

variable {c : Char} {s t w b raw tail rest : List Char} {as : List (String × String)} {sc : Bool}

theorem endsName_eq (c : Char) : endsName c = !isNameChar c := by
  simp [endsName, isNameChar, Bool.or_assoc]

/-- What a tag goes on with behind blanks is no equals sign. -/
theorem TagEnd.trimStart_ne (h : TagEnd as sc w) (rest : List Char) :
    ∃ c t, trimStart (w ++ rest) = c :: t ∧ c ≠ '=' := by
  cases h with
  | opened hb =>
    rw [List.append_assoc, trimStart_append hb]
    exact ⟨'>', rest, trimStart_cons (by decide) rest, by decide⟩
  | closed hb =>
    rw [List.append_assoc, trimStart_append hb]
    exact ⟨'/', '>' :: rest, trimStart_cons (by decide) _, by decide⟩
  | @attr b w raw tail key as sc hb hkey hw htail =>
    obtain ⟨k, ks, hcons⟩ := List.exists_cons_of_ne_nil hkey.ne_nil
    have hk : isNameChar k = true := hkey.name k (hcons ▸ List.mem_cons_self)
    rw [List.append_assoc, trimStart_append hb, hcons]
    refine ⟨k, _, trimStart_cons (isBlank_eq_false hk) _, ?_⟩
    rintro rfl
    cases hk

theorem bareValue_append (h : Bare raw tail) (rest : List Char) :
    bareValue (raw ++ (tail ++ rest)) = (raw, tail ++ rest) := by
  have hkeep : ∀ c ∈ raw, (!endsBareValue c) = true := by
    intro c hc
    rw [h.chars c hc]
    rfl
  have hsplit : ∀ {c t}, endsBareValue c = true →
      (raw ++ c :: t).takeWhile (!endsBareValue ·) = raw ∧
        (raw ++ c :: t).dropWhile (!endsBareValue ·) = c :: t := by
    intro c t hc
    rw [List.takeWhile_append_of_pos hkeep, List.dropWhile_append_of_pos hkeep]
    simp [hc]
  rcases h.ends with ⟨-, c, hc, hblank⟩ | ⟨rfl, hslash⟩ | rfl
  · obtain ⟨t, rfl⟩ := List.head?_eq_some_iff.mp hc
    obtain ⟨htake, hdrop⟩ := hsplit (c := c) (t := t ++ rest) (by simp [endsBareValue, hblank])
    unfold bareValue
    simp only [List.cons_append, htake, hdrop]
    split
    · next heq =>
      -- A blank is no angle bracket.
      rw [(List.cons.inj heq).1] at hblank
      cases hblank
    · rfl
  · obtain ⟨htake, hdrop⟩ := hsplit (c := '>') (t := rest) (by decide)
    unfold bareValue
    simp only [List.cons_append, List.nil_append, htake, hdrop, if_neg hslash]
  · have hkeep' : ∀ c ∈ raw ++ ['/'], (!endsBareValue c) = true := by
      intro c hc
      rcases List.mem_append.mp hc with hc | hc
      · exact hkeep c hc
      · rw [List.mem_singleton.mp hc]
        decide
    have hwhole : raw ++ (['/', '>'] ++ rest) = (raw ++ ['/']) ++ '>' :: rest := by simp
    unfold bareValue
    rw [hwhole]
    simp only [List.takeWhile_append_of_pos hkeep', List.dropWhile_append_of_pos hkeep']
    simp [endsBareValue]

/-- **A value** is read as it is written, and reading goes on with the rest of the tag. -/
theorem ValueForm.valueAfterName_eq (h : ValueForm tail w raw) (htail : TagEnd as sc tail)
    (rest : List Char) :
    ∃ rest', valueAfterName (w ++ (tail ++ rest)) = .ok (decode raw, rest') ∧
      trimStart rest' = trimStart (tail ++ rest) := by
  cases h with
  | absent =>
    obtain ⟨c, t, htrim, hc⟩ := htail.trimStart_ne rest
    refine ⟨trimStart (tail ++ rest), ?_, trimStart_trimStart _⟩
    rw [List.nil_append, valueAfterName, htrim]
    split
    · next heq => exact absurd (List.cons.inj heq).1 hc
    · simp [decode_eq_decodeOnce]
  | @quoted b b' raw q hb hb' hq hraw =>
    refine ⟨tail ++ rest, ?_, rfl⟩
    have hquote : isBlank q = false ∧ (q = '"' || q = '\'') = true := by
      rcases hq with rfl | rfl <;> decide
    have hwhole : b ++ '=' :: (b' ++ q :: (raw ++ [q])) ++ (tail ++ rest) =
        b ++ '=' :: (b' ++ q :: (raw ++ q :: (tail ++ rest))) := by simp
    rw [hwhole, valueAfterName, trimStart_append hb, trimStart_cons (by decide)]
    show attrValue (trimStart (b' ++ q :: (raw ++ q :: (tail ++ rest)))) = _
    rw [trimStart_append hb', trimStart_cons hquote.1, attrValue, if_pos hquote.2,
      splitFirst?_singleton hraw]
  | @bare b b' raw hb hb' hbare =>
    refine ⟨tail ++ rest, ?_, rfl⟩
    have hwhole : b ++ '=' :: (b' ++ raw) ++ (tail ++ rest) =
        b ++ '=' :: (b' ++ (raw ++ (tail ++ rest))) := by simp
    -- What stands behind the equals sign begins neither with a blank nor with a quote.
    obtain ⟨c, t, hcons, hblank, hquote⟩ : ∃ c t, raw ++ (tail ++ rest) = c :: t ∧
        isBlank c = false ∧ (c = '"' || c = '\'') = false := by
      cases raw with
      | nil =>
        rcases hbare.ends with ⟨hne, -⟩ | ⟨rfl, -⟩ | rfl
        · exact absurd rfl hne
        · exact ⟨'>', rest, rfl, by decide, by decide⟩
        · exact ⟨'/', '>' :: rest, rfl, by decide, by decide⟩
      | cons c raw =>
        have hc := hbare.chars c List.mem_cons_self
        obtain ⟨hdouble, hsingle⟩ := hbare.unquoted c rfl
        rw [endsBareValue, Bool.or_eq_false_iff] at hc
        exact ⟨c, raw ++ (tail ++ rest), rfl, hc.1, by simp [hdouble, hsingle]⟩
    rw [hwhole, valueAfterName, trimStart_append hb, trimStart_cons (by decide)]
    show attrValue (trimStart (b' ++ (raw ++ (tail ++ rest)))) = _
    rw [trimStart_append hb', hcons, trimStart_cons hblank, attrValue, hquote, ← hcons,
      bareValue_append hbare]
    rfl

theorem TagEnd.ne_nil (h : TagEnd as sc w) : w ≠ [] := by
  cases h with
  | opened | closed => simp
  | attr _ hkey => simp [hkey.ne_nil]

/-- A name ends where its value begins. -/
theorem ValueForm.exists_endsName (h : ValueForm tail w raw) (htail : TagEnd as sc tail)
    (rest : List Char) : ∃ c t, w ++ (tail ++ rest) = c :: t ∧ endsName c = true := by
  cases h with
  | absent hends =>
    obtain ⟨c, t, rfl⟩ := List.exists_cons_of_ne_nil htail.ne_nil
    refine ⟨c, t ++ rest, rfl, ?_⟩
    rw [endsName_eq, hends c rfl]
    rfl
  | quoted hb =>
    rw [List.append_assoc]
    exact Markup.exists_endsName hb (by decide) _
  | bare hb =>
    rw [List.append_assoc]
    exact Markup.exists_endsName hb (by decide) _

theorem attributes_of_slash (hs : trimStart s = '/' :: '>' :: rest) :
    attributes s = .ok ([], true, rest) := by
  rw [attributes]
  split
  · next h => simp [hs] at h
  · next h => simp [hs] at h
  · next h => simpa [hs] using h.symm
  · next hslash h =>
    obtain ⟨hc, hr⟩ := List.cons.inj (hs.symm.trans h)
    exact (hslash _ hc.symm hr.symm).elim

/-- **The end of a start tag** is read as it is written, whatever follows. -/
theorem TagEnd.attributes_eq (h : TagEnd as sc w) (hs : trimStart s = trimStart (w ++ rest)) :
    attributes s = .ok (as, sc, rest) := by
  -- By induction on the attributes; blanks in front make no difference.
  induction h generalizing s with
  | opened hb =>
    rw [List.append_assoc, trimStart_append hb] at hs
    exact attributes_of_greater (hs.trans (trimStart_cons (by decide) rest))
  | closed hb =>
    rw [List.append_assoc, trimStart_append hb] at hs
    exact attributes_of_slash (hs.trans (trimStart_cons (by decide) _))
  | attr hb hkey hw htail ih =>
    obtain ⟨c, t, hcons, hc⟩ := hw.exists_endsName htail rest
    obtain ⟨rest', hvalue, htrim⟩ := hw.valueAfterName_eq htail rest
    rw [List.append_assoc, trimStart_append hb, List.append_assoc, List.append_assoc, hcons,
      trimStart_name_append hkey.ne_nil hkey.name] at hs
    rw [hcons] at hvalue
    have hall := attributes_cons hs hkey.ne_nil hkey.name hc hvalue (ih htrim)
    rwa [String.ofList_toList] at hall

/-! ## §2. Nothing else is a start tag -/

/-- Blanks in front make no difference. -/
theorem TagEnd.blank (h : TagEnd as sc w) (hb : isBlankText b = true) : TagEnd as sc (b ++ w) := by
  have happend : ∀ {b'}, isBlankText b' = true → isBlankText (b ++ b') = true := by
    intro b' hb'
    unfold isBlankText at *
    rw [List.all_append, hb, hb', Bool.and_self]
  cases h with
  | opened hb' =>
    rw [← List.append_assoc]
    exact .opened (happend hb')
  | closed hb' =>
    rw [← List.append_assoc]
    exact .closed (happend hb')
  | attr hb' hkey hw htail =>
    rw [← List.append_assoc]
    exact .attr (happend hb') hkey hw htail

/-- A tag that does not go on with a blank, nor with a name, is at its end. -/
theorem TagEnd.eq_of_head (h : TagEnd as sc (c :: t)) (hc : isNameChar c = false)
    (hblank : isBlank c = false) : c = '>' ∧ t = [] ∨ c = '/' ∧ t = ['>'] := by
  -- Where there are blanks the first one is `c`.
  have hnil : ∀ {b s : List Char}, isBlankText b = true → c :: t = b ++ s → b = [] := by
    intro b s hb hs
    cases b with
    | nil => rfl
    | cons d b =>
      have hd : isBlank d = true := List.all_eq_true.mp hb d List.mem_cons_self
      rw [← (List.cons.inj hs).1, hblank] at hd
      cases hd
  generalize hw : c :: t = w at h
  cases h with
  | opened hb =>
    obtain rfl := hnil hb hw
    exact .inl (List.cons.inj hw)
  | closed hb =>
    obtain rfl := hnil hb hw
    exact .inr (List.cons.inj hw)
  | attr hb hkey =>
    obtain rfl := hnil hb hw
    obtain ⟨k, ks, hcons⟩ := List.exists_cons_of_ne_nil hkey.ne_nil
    have hk := hkey.name k (hcons ▸ List.mem_cons_self)
    rw [hcons] at hw
    rw [← (List.cons.inj hw).1, hc] at hk
    cases hk

/-- Where a value without quotes ends. -/
theorem bareValue_spec {rest' : List Char} (h : bareValue s = (raw, rest')) :
    s = raw ++ rest' ∧ (∀ c ∈ raw, endsBareValue c = false) ∧
      ((∃ r, rest' = '/' :: '>' :: r) ∨ (∃ r, rest' = '>' :: r ∧ raw.getLast? ≠ some '/') ∨
        ∀ c ∈ rest'.head?, isBlank c = true) := by
  have hsplit : s.takeWhile (!endsBareValue ·) ++ s.dropWhile (!endsBareValue ·) = s :=
    List.takeWhile_append_dropWhile
  have hchars : ∀ c ∈ s.takeWhile (!endsBareValue ·), endsBareValue c = false := by
    intro c hc
    simpa using List.mem_takeWhile_imp hc
  unfold bareValue at h
  simp only at h
  split at h
  · next r hr =>
    rw [hr] at hsplit h
    split at h
    · next hlast =>
      -- The slash goes back to the tag.
      obtain ⟨rfl, rfl⟩ := Prod.mk.inj h
      obtain ⟨init, hinit⟩ := List.getLast?_eq_some_iff.mp hlast
      refine ⟨?_, fun c hc => hchars c (List.dropLast_subset _ hc), .inl ⟨r, rfl⟩⟩
      rw [hinit, List.dropLast_concat, ← hsplit, hinit, List.append_assoc]
      rfl
    · next hlast =>
      obtain ⟨rfl, rfl⟩ := Prod.mk.inj h
      exact ⟨hsplit.symm, hchars, .inr (.inl ⟨r, rfl, hlast⟩)⟩
  · next hother =>
    obtain ⟨rfl, rfl⟩ := Prod.mk.inj h
    refine ⟨hsplit.symm, hchars, .inr (.inr ?_)⟩
    intro c hc
    -- What ends the value is no angle bracket, so it is a blank.
    have hends : endsBareValue c = true := by
      have hstop := List.head?_dropWhile_not (!endsBareValue ·) s
      rw [Option.mem_def.mp hc] at hstop
      simpa using hstop
    rw [endsBareValue, Bool.or_eq_true, decide_eq_true_eq] at hends
    rcases hends with hblank | rfl
    · exact hblank
    · obtain ⟨r, hr⟩ := List.head?_eq_some_iff.mp hc
      exact absurd hr (hother r)

/-- A value without quotes was written so. -/
theorem bare_of_bareValue (htail : TagEnd as sc w) (h : bareValue s = (raw, w ++ rest))
    (hhead : ∀ c ∈ s.head?, isBlank c = false ∧ c ≠ '"' ∧ c ≠ '\'') :
    s = raw ++ (w ++ rest) ∧ Bare raw w := by
  obtain ⟨rfl, hchars, hend⟩ := bareValue_spec h
  obtain ⟨c, t, rfl⟩ := List.exists_cons_of_ne_nil htail.ne_nil
  refine ⟨rfl, hchars, ?_, ?_⟩
  · intro c hc
    obtain ⟨r, rfl⟩ := List.head?_eq_some_iff.mp hc
    exact (hhead c rfl).2
  · rcases hend with ⟨r, hr⟩ | ⟨r, hr, hlast⟩ | hblank
    · obtain ⟨rfl, -⟩ := List.cons.inj hr
      rcases htail.eq_of_head (by decide) (by decide) with ⟨hc, -⟩ | ⟨-, rfl⟩
      · cases hc
      · exact .inr (.inr rfl)
    · obtain ⟨rfl, -⟩ := List.cons.inj hr
      rcases htail.eq_of_head (by decide) (by decide) with ⟨-, rfl⟩ | ⟨hc, -⟩
      · exact .inr (.inl ⟨rfl, hlast⟩)
      · cases hc
    · have hblank := hblank c rfl
      refine .inl ⟨?_, c, rfl, hblank⟩
      -- The text does not begin with a blank.
      rintro rfl
      rw [(hhead c rfl).1] at hblank
      cases hblank

/-- A value was written in one of the forms. -/
theorem exists_valueForm {v rest' : List Char} (h : valueAfterName s = .ok (v, rest'))
    (hends : ∀ c ∈ s.head?, isNameChar c = false) (htail : TagEnd as sc w)
    (hrest : rest' = w ++ rest) :
    ∃ w' raw tail, s = w' ++ (tail ++ rest) ∧ v = decode raw ∧ ValueForm tail w' raw ∧
      TagEnd as sc tail := by
  subst hrest
  have hs := takeWhile_append_trimStart s
  have hb := isBlankText_takeWhile s
  unfold valueAfterName at h
  split at h
  · next r hr =>
    have hs' := takeWhile_append_trimStart r
    have hb' := isBlankText_takeWhile r
    rw [hr, ← hs'] at hs
    unfold attrValue at h
    split at h
    · cases h
    · next c r' hr' =>
      rw [hr'] at hs
      split at h
      · next hquote =>
        split at h
        · next raw rest' hraw =>
          obtain ⟨rfl, rfl⟩ := Prod.mk.inj (Except.ok.inj h)
          have hwhole := eq_append_of_splitFirst? hraw
          have hmem : c ∉ raw := by
            intro hc
            obtain ⟨l, l', rfl⟩ := List.append_of_mem hc
            exact not_infix_of_splitFirst? (by simp) hraw ⟨l, l', by simp⟩
          refine ⟨_, raw, w, hs.symm.trans ?_, rfl,
            .quoted hb hb' (by simpa using hquote) hmem, htail⟩
          rw [hwhole]
          simp
        · cases h
      · next hquote =>
        have hhead : ∀ d ∈ (c :: r').head?, isBlank d = false ∧ d ≠ '"' ∧ d ≠ '\'' := by
          intro d hd
          obtain rfl : c = d := by simpa using hd
          refine ⟨not_isBlank_of_mem_head?_trimStart (s := r) (by rw [hr']; rfl), ?_⟩
          simpa using hquote
        cases hvalue : bareValue (c :: r') with
        | mk raw rest' =>
          rw [hvalue] at h
          obtain ⟨rfl, rfl⟩ := Prod.mk.inj (Except.ok.inj h)
          obtain ⟨hwhole, hbare⟩ := bare_of_bareValue htail hvalue hhead
          refine ⟨_, raw, w, hs.symm.trans ?_, rfl, .bare hb hb' hbare, htail⟩
          rw [hwhole]
          simp
  · obtain ⟨rfl, hrest⟩ := Prod.mk.inj (Except.ok.inj h)
    rw [hrest, ← List.append_assoc] at hs
    refine ⟨[], [], s.takeWhile isBlank ++ w, hs.symm, by simp [decode_eq_decodeOnce], .absent ?_,
      htail.blank hb⟩
    intro c hc
    refine hends c ?_
    obtain ⟨t, ht⟩ := List.head?_eq_some_iff.mp hc
    rw [← hs, ht]
    rfl

/-- **What is read as the end of a start tag** is what was written as one. -/
theorem attributes_eq_ok_iff :
    attributes s = .ok (as, sc, rest) ↔ ∃ w, TagEnd as sc w ∧ s = w ++ rest := by
  constructor
  · intro h
    have hs := takeWhile_append_trimStart s
    have hb := isBlankText_takeWhile s
    fun_induction attributes s generalizing as with
    | case1 => cases h
    | case2 s r hr =>
      cases h
      rw [hr] at hs
      exact ⟨_, .opened hb, by rw [List.append_assoc]; exact hs.symm⟩
    | case3 s r hr =>
      cases h
      rw [hr] at hs
      exact ⟨_, .closed hb, by rw [List.append_assoc]; exact hs.symm⟩
    | case4 => cases h
    | case5 => cases h
    | case6 => cases h
    | case7 s c r _ _ hr hname value rest₁ hvalue _ as' b' rest₂ has ih =>
      cases h
      obtain ⟨w, htail, hrest⟩ :=
        ih has (takeWhile_append_trimStart rest₁) (isBlankText_takeWhile rest₁)
      have hends : ∀ d ∈ (afterName (c :: r)).head?, isNameChar d = false := by
        intro d hd
        have hstop := List.head?_dropWhile_not (!endsName ·) (c :: r)
        rw [show (c :: r).dropWhile (!endsName ·) = afterName (c :: r) from rfl, hd] at hstop
        simpa [endsName_eq] using hstop
      obtain ⟨w', raw, tail, hafter, rfl, hform, htail'⟩ :=
        exists_valueForm hvalue hends htail hrest
      have hkey : WritableKey (String.ofList (nameOf (c :: r))) := by
        refine ⟨?_, ?_⟩
        · rwa [String.toList_ofList]
        · rw [String.toList_ofList]
          exact fun d hd => isNameChar_of_mem_nameOf hd
      refine ⟨_, .attr hb hkey hform htail', hs.symm.trans ?_⟩
      rw [hr, String.toList_ofList]
      have hname := nameOf_append_afterName (c :: r)
      rw [hafter] at hname
      simp only [List.append_assoc, List.append_cancel_left_eq]
      exact hname.symm
  · rintro ⟨w, h, rfl⟩
    exact h.attributes_eq rfl

/-! ## §3. Parts -/

/-- What a source is put together from. -/
inductive Part where
  /-- A start tag with its attributes, which closes itself or not. -/
  | start (tag : String) (attrs : List (String × String)) (selfClosing : Bool)
  /-- An end tag. -/
  | stop (tag : String)
  /-- A comment. -/
  | comment (text : String)
  /-- A run of text, its entities not yet decoded. -/
  | text (raw : String)

/-- Whether a part is a run of text. -/
def Part.isText : Part → Bool
  | .text _ => true
  | _ => false

/-- How a part may be written. Capitals in tags are made small. -/
inductive Spelt (d : Delimiters) : Part → List Char → Prop where
  /-- The name of a start tag begins with a letter and ends where the rest of the tag begins. -/
  | start {name : String} {w : List Char} {as : List (String × String)} {sc : Bool} :
    (∃ c ∈ name.toList.head?, c.isAlpha = true) → (∀ c ∈ name.toList, isNameChar c = true) →
      (∀ c ∈ w.head?, isNameChar c = false) → TagEnd as sc w →
      Spelt d (.start (lowerAsciiText name) as sc) ('<' :: (name.toList ++ w))
  /-- Blanks may stand behind the name of an end tag. -/
  | stop {name : String} {b : List Char} : WritableKey name → isBlankText b = true →
      Spelt d (.stop (lowerAsciiText name)) ('<' :: '/' :: (name.toList ++ (b ++ ['>'])))
  /-- A comment does not hold its own end. -/
  | comment {body : String} : ¬ "-->".toList <:+: body.toList →
      Spelt d (.comment body) ('<' :: '!' :: '-' :: '-' :: (body.toList ++ ['-', '-', '>']))
  /-- In a run of text there is no angle bracket, and nothing that opens an interpolation. -/
  | text {raw : String} : raw ≠ "" → '<' ∉ raw.toList →
      (d.opening = [] ∨ ¬ d.opening <:+: raw.toList) → Spelt d (.text raw) raw.toList

/-- A part together with its text. -/
structure Passage (d : Delimiters) where
  /-- The part. -/
  part : Part
  /-- Its text. -/
  text : List Char
  /-- The part may be written so. -/
  spelt : Spelt d part text

variable {d : Delimiters} {offset : Nat}

/-- The source that passages make up. -/
def source (ps : List (Passage d)) : List Char := ps.flatMap Passage.text

/-- The parts of passages. -/
def parts (ps : List (Passage d)) : List Part := ps.map Passage.part

/-- No two runs of text stand side by side. -/
def TextsApart (ps : List (Passage d)) : Prop :=
  ps.IsChain fun p q => ¬ (p.part.isText && q.part.isText) = true

instance (ps : List (Passage d)) : Decidable (TextsApart ps) :=
  inferInstanceAs (Decidable (ps.IsChain fun p q => ¬ (p.part.isText && q.part.isText) = true))

/-- What a part is read as at an offset. -/
def Part.item (offset : Nat) : Part → Item
  | .start tag attrs selfClosing => .start tag attrs selfClosing
  | .stop tag => .stop tag offset
  | .comment body => .comment body
  | .text raw => .text raw

/-- What passages that begin at an offset are read as. -/
def itemsOf (offset : Nat) : List (Passage d) → List Item
  | [] => []
  | p :: ps => p.part.item offset :: itemsOf (offset + byteLength p.text) ps

/-! ## §4. Reading the parts -/

/-- A text in which nothing opens is read up to the next angle bracket. -/
theorem afterText_append (hd : '<' ∉ d.opening) (hs : '<' ∉ s)
    (hopening : d.opening = [] ∨ ¬ d.opening <:+: s) (hrest : rest = [] ∨ rest.head? = some '<') :
    afterText d (s ++ rest) = rest := by
  induction s with
  | nil =>
    rcases hrest with rfl | hrest
    · rw [List.nil_append, afterText]
    · obtain ⟨r, rfl⟩ := List.head?_eq_some_iff.mp hrest
      rw [List.nil_append, afterText, if_pos rfl]
  | cons c s ih =>
    have hc : c ≠ '<' := fun he => hs (by simp [he])
    have hclosed : d.open? (c :: (s ++ rest)) = none := by
      unfold Delimiters.open?
      split
      · rfl
      · next hne =>
        rw [dropFront?_eq_none_iff]
        intro hfront
        refine (hopening.resolve_left hne) ?_
        -- What opens cannot reach beyond the text, where an angle bracket stands.
        rcases List.prefix_or_prefix_of_prefix hfront (List.prefix_append (c :: s) rest) with
          hwithin | ⟨q, hq⟩
        · exact hwithin.isInfix
        · rcases hrest with rfl | hrest
          · rw [List.append_nil] at hfront
            exact hfront.isInfix
          · obtain ⟨r, rfl⟩ := List.head?_eq_some_iff.mp hrest
            cases q with
            | nil =>
              rw [List.append_nil] at hq
              exact hq ▸ List.infix_rfl
            | cons a q =>
              rw [← hq, ← List.cons_append, List.prefix_append_right_inj,
                List.cons_prefix_cons] at hfront
              obtain ⟨rfl, -⟩ := hfront
              exact absurd (by rw [← hq]; simp) hd
    rw [List.cons_append, afterText, if_neg hc]
    split
    · next hopen =>
      rw [hclosed] at hopen
      cases hopen
    · refine ih (fun hm => hs (List.mem_cons_of_mem c hm)) (hopening.imp_right fun h hi => h ?_)
      exact hi.trans (List.suffix_cons c s).isInfix

/-- **A passage is read as its part**, whatever follows; behind a run of text there is an angle
    bracket or nothing. -/
theorem Spelt.firstItem_eq (hd : '<' ∉ d.opening) {part : Part} (h : Spelt d part w)
    (hrest : part.isText = true → rest = [] ∨ rest.head? = some '<') (offset : Nat) :
    ∃ c s, w = c :: s ∧ firstItem d offset c (s ++ rest) = (part.item offset, rest) := by
  cases h with
  | @start name w as sc halpha hname hends htail =>
    refine ⟨'<', _, rfl, ?_⟩
    obtain ⟨n, hn, hletter⟩ := halpha
    obtain ⟨c, t, rfl⟩ := List.exists_cons_of_ne_nil htail.ne_nil
    have hc : endsName c = true := by
      rw [endsName_eq, hends c rfl]
      rfl
    rw [List.append_assoc]
    exact firstItem_start_append hn hletter hname hc (htail.attributes_eq rfl) d offset
  | @stop name b hname hb =>
    refine ⟨'<', _, rfl, ?_⟩
    have hend := endTag?_append hname.ne_nil hname.name hb rest
    have hitem := firstItem_stop hend d offset
    simpa [Part.item, lowerAsciiText] using hitem
  | @comment body hbody =>
    refine ⟨'<', _, rfl, ?_⟩
    have hitem := firstItem_comment (splitFirst?_comment hbody rest) d offset
    simpa [String.ofList_toList, Part.item] using hitem
  | @text raw hne hless hopening =>
    cases hraw : raw.toList with
    | nil => exact absurd (String.toList_eq_nil_iff.mp hraw) hne
    | cons c s =>
      rw [hraw] at hless hopening
      have hc : c ≠ '<' := fun he => hless (by simp [he])
      have hafter := afterText_append hd hless hopening (hrest rfl)
      refine ⟨c, s, rfl, ?_⟩
      unfold firstItem
      rw [if_neg hc, textItem_append (by rwa [afterLeadingText, if_neg hc]), ← hraw,
        String.ofList_toList]
      rfl

/-- A passage that is no text begins with an angle bracket. -/
theorem Spelt.head?_eq {part : Part} (h : Spelt d part w) (hpart : part.isText = false) :
    w.head? = some '<' := by
  cases h with
  | start | stop | comment => rfl
  | text => cases hpart

/-- **Passages one after the other** are read as their parts. -/
theorem items_source (hd : '<' ∉ d.opening) {ps : List (Passage d)} (hps : TextsApart ps)
    (offset : Nat) : items d offset (source ps) = itemsOf offset ps := by
  induction ps generalizing offset with
  | nil => exact items.eq_def d offset []
  | cons p ps ih =>
    obtain ⟨hnext, hothers⟩ := List.isChain_cons.mp hps
    have hrest : p.part.isText = true → source ps = [] ∨ (source ps).head? = some '<' := by
      intro hp
      cases ps with
      | nil => exact .inl rfl
      | cons q ps =>
        have hq : q.part.isText = false := by simpa [hp] using hnext q rfl
        right
        obtain ⟨r, hr⟩ := List.head?_eq_some_iff.mp (q.spelt.head?_eq hq)
        show (q.text ++ source ps).head? = _
        rw [hr]
        rfl
    obtain ⟨c, s, hcons, hitem⟩ := p.spelt.firstItem_eq hd hrest offset
    have hsource : source (p :: ps) = c :: (s ++ source ps) := by
      show p.text ++ source ps = _
      rw [hcons]
      rfl
    have hwidth : byteLength (c :: (s ++ source ps)) - byteLength (source ps) =
        byteLength p.text := by
      rw [← List.cons_append, byteLength_append, hcons]
      omega
    rw [hsource, items, hitem]
    show _ :: items d (offset + (byteLength (c :: (s ++ source ps)) - byteLength (source ps))) _ = _
    rw [hwidth, ih hothers]
    rfl

end ReactiveView.Markup
