import Mathlib.Data.List.TakeWhile
import ReactiveView.Proofs.Markup.Lenient

/-! # Interpolations and tags

  From its opening delimiter to its closing one an interpolation is text: no tag
  and no comment is recognised inside. The protection begins at the opening
  delimiter, but that is looked for only where no angle bracket stands.

  * `parse_eq_none_of_angle`: delimiters that open with an angle bracket are never
    recognised, as if there were none.
  * `parse_none_eq_text_iff`: without delimiters, the sources behind an angle
    bracket that are read as one text.
  * `parse_interpolation_iff`: so an interpolation is read as one text exactly if
    it does not open with an angle bracket, or holds nothing to protect.
-/

namespace ReactiveView.Markup

open Text

variable {d : Delimiters} {c : Char} {s body : List Char}

/-! ## §1. Delimiters that open with an angle bracket -/

/-- The search for the end of a text stops in front of the delimiter. -/
theorem afterText_of_angle (hd : d.opening.head? = some '<') (s : List Char) :
    afterText d s = s.dropWhile (· ≠ '<') := by
  obtain ⟨r, hr⟩ := List.head?_eq_some_iff.mp hd
  have hclosed : ∀ {c s inside}, c ≠ '<' → d.open? (c :: s) ≠ some inside := by
    intro c s inside hc hopen
    rw [Delimiters.open?, hr, if_neg (by simp)] at hopen
    exact hc (List.cons.inj (eq_append_of_dropFront? hopen)).1
  fun_induction afterText d s with
  | case1 => rfl
  | case2 s => exact (List.dropWhile_cons_of_neg (by simp)).symm
  | case3 c s hc inside hopen => exact absurd hopen (hclosed hc)
  | case4 c s hc inside hopen => exact absurd hopen (hclosed hc)
  | case5 c s hc _ _ ih => rw [ih, List.dropWhile_cons_of_pos (by simpa using hc)]

theorem firstItem_of_angle (hd : d.opening.head? = some '<') (offset : Nat) (c : Char)
    (s : List Char) : firstItem d offset c s = firstItem .none offset c s := by
  have hafter : afterLeadingText d c s = afterLeadingText .none c s := by
    rw [afterLeadingText, afterLeadingText, afterText_of_angle hd, afterText_none]
  have htext : textItem d c s = textItem .none c s := by rw [textItem, textItem, hafter]
  unfold firstItem
  rw [htext]

theorem items_of_angle (hd : d.opening.head? = some '<') (offset : Nat) (s : List Char) :
    items d offset s = items .none offset s := by
  -- By induction on the length: what follows an item is shorter.
  induction hn : s.length using Nat.strongRecOn generalizing s offset with
  | ind n ih =>
    subst hn
    cases s with
    | nil => rw [items, items]
    | cons c s =>
      rw [items, items, firstItem_of_angle hd]
      rw [ih _ (firstItem_length .none offset c s) _ _ rfl]

/-- **Delimiters that open with an angle bracket** protect nothing. -/
theorem parse_eq_none_of_angle (hd : d.opening.head? = some '<') (source : String) :
    parse d source = parse .none source := by
  rw [parse, parse, items_of_angle hd]

/-! ## §2. Sources that are one text -/

/-- Whether a tag or a comment begins at the front of a source. -/
def BeginsTag (s : List Char) : Prop :=
  ['<', '!', '-', '-'] <+: s ∨ ['<', '/'] <+: s ∨ ∃ c r, s = '<' :: c :: r ∧ startsTag c = true

theorem firstItem_of_not_beginsTag (h : ¬ BeginsTag (c :: s)) (d : Delimiters) (offset : Nat) :
    firstItem d offset c s = textItem d c s := by
  unfold firstItem
  split
  · next hc =>
    subst hc
    split
    · next body => exact absurd (.inl ⟨body, rfl⟩) h
    · next r => exact absurd (.inr (.inl ⟨r, rfl⟩)) h
    · next n t _ _ =>
      split
      · next hn => exact absurd (.inr (.inr ⟨n, t, rfl, hn⟩)) h
      · rfl
    · rfl
  · rfl

/-- What begins with a tag begins with an item that is no text. -/
theorem firstItem_ne_text_of_beginsTag (h : BeginsTag (c :: s)) (d : Delimiters) (offset : Nat)
    (raw : String) : (firstItem d offset c s).1 ≠ .text raw := by
  unfold firstItem
  split
  · next hc =>
    subst hc
    split
    · split <;> simp
    · split <;> simp
    · next n t hcomment hstop =>
      have hn : startsTag n = true := by
        obtain ⟨body, hbody⟩ | ⟨r, hr⟩ | ⟨m, r, hm, hstarts⟩ := h
        · obtain ⟨rfl, rfl⟩ := List.cons.inj (List.cons.inj hbody).2
          exact absurd rfl (hcomment body rfl)
        · exact absurd (List.cons.inj (List.cons.inj hr).2).1.symm hstop
        · obtain ⟨rfl, -⟩ := List.cons.inj (List.cons.inj hm).2
          exact hstarts
      rw [if_pos hn]
      split <;> simp
    · obtain ⟨body, hbody⟩ | ⟨r, hr⟩ | ⟨m, r, hm, -⟩ := h
      · simp at hbody
      · simp at hr
      · simp at hm
  · next hc =>
    obtain ⟨body, hbody⟩ | ⟨r, hr⟩ | ⟨m, r, hm, -⟩ := h
    · exact absurd (List.cons.inj hbody).1.symm hc
    · exact absurd (List.cons.inj hr).1.symm hc
    · exact absurd (List.cons.inj hm).1 hc

/-- A text that reaches to the end of the source is all there is. -/
theorem parse_of_afterLeadingText (htag : ¬ BeginsTag (c :: s))
    (hblank : isBlankText (c :: s) = false) (hrest : afterLeadingText d c s = []) :
    parse d (String.ofList (c :: s)) = .ok [.text (decodeEntities (String.ofList (c :: s)))] := by
  have hitems : items d 0 (c :: s) = [.text (String.ofList (c :: s))] := by
    rw [items, firstItem_of_not_beginsTag htag, textItem, hrest]
    rw [items]
    simp
  rw [parse, String.toList_ofList, hitems, nest_eq_ok_iff]
  simp [Partway.take, hblank, Partway.add, pure, Except.pure, bind, Except.bind]

/-! ## §3. Roots to come -/

/-- Whether a node is a text. -/
def isText : MarkupNode → Bool
  | .text _ => true
  | _ => false

/-- Whether an item is a text. -/
def Item.isText : Item → Bool
  | .text _ => true
  | _ => false

/-- An item that is dropped: a text of blanks. -/
def Item.IsBlank : Item → Prop
  | .text raw => isBlankText raw.toList = true
  | _ => False

namespace Partway

variable {p q : Partway} {n : MarkupNode} {i : Item}

/-- Which of the roots are texts: of the finished ones, and of the one that is open. -/
def heads (p : Partway) : List Bool :=
  p.roots.map Markup.isText ++ if p.pending = [] then [] else [false]

theorem heads_add_of_closed (hp : p.pending = []) (n : MarkupNode) :
    (p.add n).heads = p.heads ++ [Markup.isText n] := by
  simp [add, heads, hp]

theorem heads_add_of_open (hp : p.pending ≠ []) (n : MarkupNode) : (p.add n).heads = p.heads := by
  obtain ⟨e, rest, he⟩ := List.exists_cons_of_ne_nil hp
  simp [add, heads, he]

theorem prefix_heads_add (p : Partway) (n : MarkupNode) : p.heads <+: (p.add n).heads := by
  by_cases hp : p.pending = []
  · rw [heads_add_of_closed hp]
    exact List.prefix_append _ _
  · have hsame := heads_add_of_open hp n
    exact hsame ▸ List.prefix_rfl

/-- **One item** adds a root at the end or none. -/
theorem prefix_heads_take (h : p.take i = .ok q) : p.heads <+: q.heads := by
  cases i with
  | start tag attrs selfClosing =>
    rw [take] at h
    split at h
    · obtain rfl := Except.ok.inj h
      exact prefix_heads_add p _
    · obtain rfl := Except.ok.inj h
      -- The element that opens is a root to come, unless another one is open around it.
      by_cases hp : p.pending = []
      · simp [heads, hp]
      · simp [heads, hp]
  | stop tag offset =>
    rw [take] at h
    split at h
    · cases h
    · next e rest hpending =>
      split at h
      · obtain rfl := Except.ok.inj h
        -- The element that was open is a root now, unless another one is open around it.
        by_cases hrest : rest = []
        · rw [heads_add_of_closed hrest]
          simp [heads, hpending, hrest, Markup.isText]
        · rw [heads_add_of_open hrest]
          simp [heads, hpending, hrest]
      · cases h
  | comment t =>
    obtain rfl := Except.ok.inj h
    exact prefix_heads_add p _
  | text raw =>
    rw [take] at h
    split at h
    · obtain rfl := Except.ok.inj h
      exact List.prefix_rfl
    · obtain rfl := Except.ok.inj h
      exact prefix_heads_add p _
  | malformed offset => cases h

/-- **All items**: roots that are there, or open, stay in front. -/
theorem prefix_heads_foldlM {is : List Item} (h : is.foldlM take p = .ok q) :
    p.heads <+: q.heads := by
  induction is generalizing p with
  | nil =>
    obtain rfl := Except.ok.inj h
    exact List.prefix_rfl
  | cons i is ih =>
    obtain ⟨p', htake, hfold⟩ := exists_take_of_foldlM h
    exact (prefix_heads_take htake).trans (ih hfold)

/-- Where no element is open, an item that is not dropped is a root, and a text if it is one. -/
theorem heads_take_of_closed (hp : p.pending = []) (hi : ¬ i.IsBlank) (h : p.take i = .ok q) :
    q.heads = p.heads ++ [i.isText] := by
  cases i with
  | start tag attrs selfClosing =>
    rw [take] at h
    split at h
    · obtain rfl := Except.ok.inj h
      exact heads_add_of_closed hp _
    · obtain rfl := Except.ok.inj h
      simp [heads, hp, Item.isText]
  | stop tag offset =>
    rw [take, hp] at h
    cases h
  | comment t =>
    obtain rfl := Except.ok.inj h
    exact heads_add_of_closed hp _
  | text raw =>
    have hblank : ¬ isBlankText raw.toList = true := hi
    rw [take, if_neg hblank] at h
    obtain rfl := Except.ok.inj h
    exact heads_add_of_closed hp _
  | malformed offset => cases h

end Partway

/-! ## §4. One text behind an angle bracket -/

/-- No item that begins with an angle bracket is dropped. -/
theorem not_isBlank_firstItem (offset : Nat) (s : List Char) :
    ¬ (firstItem .none offset '<' s).1.IsBlank := by
  rcases firstItem_text_or '<' s offset with ⟨raw, rest, hitem, -⟩ | hother
  · rw [hitem]
    show ¬ isBlankText (String.ofList ('<' :: raw)).toList = true
    rw [String.toList_ofList]
    simp [isBlankText, isBlank]
  · cases hitem : (firstItem .none offset '<' s).1 with
    | text raw => exact absurd hitem (hother raw)
    | start | stop | comment | malformed => exact id

theorem heads_of_nest {is : List Item} {ns : List MarkupNode} (h : nest is = .ok ns) :
    ∃ q, is.foldlM Partway.take ⟨[], []⟩ = .ok q ∧ q.heads = ns.map isText :=
  ⟨⟨[], ns⟩, nest_eq_ok_iff.mp h, by simp [Partway.heads]⟩

/-- A text that ends in front of an angle bracket is not all there is. -/
theorem nest_text_ne_singleton {raw : String} (hraw : isBlankText raw.toList = false)
    (offset : Nat) (s : List Char) (n : MarkupNode) :
    nest (.text raw :: items .none offset ('<' :: s)) ≠ .ok [n] := by
  intro h
  obtain ⟨q, hfold, hq⟩ := heads_of_nest h
  obtain ⟨p, htake, hfold⟩ := Partway.exists_take_of_foldlM hfold
  obtain rfl : Partway.add ⟨[], []⟩ (.text (decodeEntities raw)) = p := by
    rw [Partway.take, if_neg (by simp [hraw])] at htake
    exact Except.ok.inj htake
  -- The item behind the text begins with the bracket, so it is a root as well.
  rw [items] at hfold
  obtain ⟨p, htake, hfold⟩ := Partway.exists_take_of_foldlM hfold
  have hp := Partway.heads_take_of_closed rfl (not_isBlank_firstItem offset s) htake
  have hlength := (Partway.prefix_heads_foldlM hfold).length_le
  rw [hp, hq] at hlength
  simp [Partway.heads, Partway.add] at hlength

/-- **Without delimiters** a source behind an angle bracket is read as one text exactly if no tag
    and no comment begins with that bracket and no other bracket follows. -/
theorem parse_none_eq_text_iff (s : List Char) :
    parse .none (String.ofList ('<' :: s)) =
        .ok [.text (decodeEntities (String.ofList ('<' :: s)))] ↔
      ¬ BeginsTag ('<' :: s) ∧ '<' ∉ s := by
  constructor
  · intro h
    rw [parse, String.toList_ofList, items] at h
    have htag : ¬ BeginsTag ('<' :: s) := by
      intro hbegins
      obtain ⟨q, hfold, hq⟩ := heads_of_nest h
      obtain ⟨p, htake, hfold⟩ := Partway.exists_take_of_foldlM hfold
      have hp := Partway.heads_take_of_closed rfl (not_isBlank_firstItem 0 s) htake
      have hfront := Partway.prefix_heads_foldlM hfold
      rw [hp, hq] at hfront
      have htext : (firstItem .none 0 '<' s).1.isText = true := (List.cons_prefix_cons.mp hfront).1
      cases hitem : (firstItem .none 0 '<' s).1 with
      | text raw => exact firstItem_ne_text_of_beginsTag hbegins .none 0 raw hitem
      | start | stop | comment | malformed =>
        rw [hitem] at htext
        cases htext
    refine ⟨htag, ?_⟩
    intro hmem
    obtain ⟨raw, rest, hitem, -, hstop⟩ := textItem_none '<' s
    have hrest : afterLeadingText .none '<' s = rest := congrArg Prod.snd hitem
    rw [afterLeadingText, if_pos rfl, afterText_none] at hrest
    rw [firstItem_of_not_beginsTag htag, hitem] at h
    rcases hstop with rfl | hstop
    · simpa using List.dropWhile_eq_nil_iff.mp hrest '<' hmem
    · obtain ⟨r, rfl⟩ := List.head?_eq_some_iff.mp hstop
      refine nest_text_ne_singleton ?_ _ _ _ h
      simp [isBlankText, isBlank]
  · rintro ⟨htag, hmem⟩
    refine parse_of_afterLeadingText htag (by simp [isBlankText, isBlank]) ?_
    rw [afterLeadingText, if_pos rfl, afterText_none, List.dropWhile_eq_nil_iff]
    intro c hc
    simpa using fun he : c = '<' => hmem (he ▸ hc)

/-! ## §5. Interpolations -/

/-- Whether what closes an interpolation stands behind the text and nowhere before. -/
def Delimiters.ClosesAfter (d : Delimiters) (body : List Char) : Prop :=
  ∀ before rest, body ++ d.closing = before ++ d.closing ++ rest → body.length ≤ before.length

theorem closesAfter_iff :
    d.ClosesAfter body ↔ splitFirst? d.closing (body ++ d.closing) = some (body, []) := by
  unfold Delimiters.ClosesAfter
  generalize d.closing = p
  -- Both sides move along the text, and the pattern is not at the front before its end.
  induction body with
  | nil =>
    have hfront : dropFront? p p = some [] := by simpa using dropFront?_append p []
    cases p with
    | nil => simp [splitFirst?]
    | cons c p => simp [splitFirst?, hfront]
  | cons c body ih =>
    constructor
    · intro h
      have hnone : dropFront? p (c :: (body ++ p)) = none := by
        rw [dropFront?_eq_none_iff]
        rintro ⟨rest, hrest⟩
        simpa using h [] rest (by simpa using hrest.symm)
      have htail := ih.mp fun before rest hwhole => by
        simpa using h (c :: before) rest (by simpa using hwhole)
      simp [splitFirst?, hnone, htail]
    · intro h before rest hwhole
      rw [List.cons_append, splitFirst?] at h
      split at h
      · cases h
      · next hnone =>
        obtain ⟨⟨b, r⟩, hsplit, heq⟩ := Option.map_eq_some_iff.mp h
        obtain ⟨hb, rfl⟩ := Prod.mk.inj heq
        obtain rfl := (List.cons.inj hb).2
        cases before with
        | nil => exact absurd ⟨rest, by simpa using hwhole.symm⟩ (dropFront?_eq_none_iff.mp hnone)
        | cons a before =>
          obtain ⟨-, htail⟩ := List.cons.inj hwhole
          exact Nat.succ_le_succ (ih.mpr hsplit before rest (by simpa using htail))

instance (d : Delimiters) (body : List Char) : Decidable (d.ClosesAfter body) :=
  decidable_of_iff _ closesAfter_iff.symm

/-- An interpolation that does not open with an angle bracket is skipped as a whole. -/
theorem afterText_interpolation (hopening : d.opening ≠ []) (hangle : d.opening.head? ≠ some '<')
    (hbody : d.ClosesAfter body) :
    afterText d (d.opening ++ body ++ d.closing) = [] := by
  rw [closesAfter_iff] at hbody
  obtain ⟨c, r, hcons⟩ := List.exists_cons_of_ne_nil hopening
  have hc : c ≠ '<' := by simpa [hcons] using hangle
  have hopen : d.open? (d.opening ++ body ++ d.closing) = some (body ++ d.closing) := by
    rw [Delimiters.open?, if_neg hopening, List.append_assoc, dropFront?_append]
  rw [hcons] at hopen ⊢
  rw [List.cons_append, List.cons_append] at hopen ⊢
  rw [afterText, if_neg hc]
  split
  · next inside hinside =>
    obtain rfl : body ++ d.closing = inside := Option.some.inj (hopen.symm.trans hinside)
    split
    · next before rest hsplit =>
      obtain ⟨-, rfl⟩ := Prod.mk.inj (Option.some.inj (hbody.symm.trans hsplit))
      rw [afterText]
    · rfl
  · next hnone =>
    rw [hopen] at hnone
    cases hnone

/-- **An interpolation**, and nothing else, is read as one text exactly if what opens it does not
    begin with an angle bracket, or neither a tag nor a comment begins there and no other bracket
    follows. -/
theorem parse_interpolation_iff (hopening : d.opening ≠ []) (hbody : d.ClosesAfter body)
    (hblank : isBlankText (d.opening ++ body ++ d.closing) = false) :
    parse d (String.ofList (d.opening ++ body ++ d.closing)) =
        .ok [.text (decodeEntities (String.ofList (d.opening ++ body ++ d.closing)))] ↔
      d.opening.head? ≠ some '<' ∨
        ¬ BeginsTag (d.opening ++ body ++ d.closing) ∧
          '<' ∉ (d.opening ++ body ++ d.closing).tail := by
  obtain ⟨c, r, hcons⟩ := List.exists_cons_of_ne_nil hopening
  by_cases hangle : d.opening.head? = some '<'
  · -- The delimiters are not recognised, and the source stands as it is.
    obtain rfl : c = '<' := by simpa [hcons] using hangle
    rw [parse_eq_none_of_angle hangle, hcons, List.cons_append, List.cons_append,
      parse_none_eq_text_iff]
    simp
  · simp only [ne_eq, hangle, not_false_eq_true, true_or, iff_true]
    have hc : c ≠ '<' := by simpa [hcons] using hangle
    have hafter := afterText_interpolation hopening hangle hbody
    rw [hcons, List.cons_append, List.cons_append] at hafter hblank ⊢
    refine parse_of_afterLeadingText ?_ hblank (by rwa [afterLeadingText, if_neg hc])
    rintro (⟨t, ht⟩ | ⟨t, ht⟩ | ⟨n, t, ht, -⟩)
    · exact hc (List.cons.inj ht).1.symm
    · exact hc (List.cons.inj ht).1.symm
    · exact hc (List.cons.inj ht).1

/-- Between braces a tag and the beginning of a comment are protected. -/
theorem parse_interpolation_braces :
    parse ⟨"\x7b\x7b".toList, "\x7d\x7d".toList⟩ "\x7b\x7b a < <b> <!-- \x7d\x7d" =
      .ok [.text "\x7b\x7b a < <b> <!-- \x7d\x7d"] := by
  have hbody : (⟨"\x7b\x7b".toList, "\x7d\x7d".toList⟩ : Delimiters).ClosesAfter
      " a < <b> <!-- ".toList := by decide
  have hparse := (parse_interpolation_iff (by decide) hbody (by decide)).mpr (.inl (by decide))
  have hdecode : decodeEntities "\x7b\x7b a < <b> <!-- \x7d\x7d" =
      "\x7b\x7b a < <b> <!-- \x7d\x7d" := by with_unfolding_all rfl
  exact hparse.trans (congrArg (fun t => Except.ok [MarkupNode.text t]) hdecode)

/-- Behind an angle bracket and a percent sign a tag is not protected. -/
theorem interpolation_scanned_for_tags :
    (⟨"<%".toList, "%>".toList⟩ : Delimiters).ClosesAfter " a <b> ".toList ∧
      isBlankText "<% a <b> %>".toList = false ∧
      parse ⟨"<%".toList, "%>".toList⟩ "<% a <b> %>" = .error (.unclosed "b") :=
  ⟨by decide, by decide, by with_unfolding_all rfl⟩

end ReactiveView.Markup
