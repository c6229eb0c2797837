import ReactiveView.Markup.Parser
import ReactiveView.Proofs.Markup.Scan

/-! # What is written as HTML is read back

  Markup has no delimiters between adjacent texts, and text that holds blanks
  only is not kept. Apart from that, reading the HTML of a list of virtual nodes
  gives these nodes again, whatever their texts, attribute values, class names
  and styles hold.

  * `legible`: what is left of a forest when adjacent texts run together.
  * `ofNode`, `ofNodes`: the markup that virtual nodes stand for.
  * `Writable`: the conditions on tags, on names of attributes and on comments.
  * `parse_render`: reading inverts writing.

  The proof follows the forest from left to right. Texts are read only when a
  tag, a comment or the end of the list follows, so the induction carries the
  text that is pending.
-/

namespace ReactiveView.Markup

open Text

/-! ## §1. Runs of text -/

/-- A node before a forest; a text joins the text that follows. -/
def joinFront : MarkupNode → List MarkupNode → List MarkupNode
  | .text s, .text t :: ns => .text (s ++ t) :: ns
  | n, ns => n :: ns

/-- The forest with every maximal run of adjacent texts made one text. The children of its nodes
    are left as they are. -/
def joinTexts : List MarkupNode → List MarkupNode
  | [] => []
  | n :: ns => joinFront n (joinTexts ns)

/-- Whether a node is a text of blanks. -/
def isBlankRun : MarkupNode → Bool
  | .text s => isBlankText s.toList
  | _ => false

/-- The forest with runs of texts joined and blank runs left out. -/
def legible (ns : List MarkupNode) : List MarkupNode := (joinTexts ns).filter (!isBlankRun ·)

variable {s t : String} {ns : List MarkupNode} {n : MarkupNode}

theorem legible_text (s : String) :
    legible [.text s] = if isBlankText s.toList then [] else [.text s] := by
  show List.filter (!isBlankRun ·) [.text s] = _
  split
  · next h => exact List.filter_cons_of_neg (by simp [isBlankRun, h])
  · next h => exact List.filter_cons_of_pos (by simp [isBlankRun, h])

/-- An empty text makes no difference. -/
theorem legible_empty_text (ns : List MarkupNode) : legible (.text "" :: ns) = legible ns := by
  show (joinFront (.text "") (joinTexts ns)).filter _ = (joinTexts ns).filter _
  cases joinTexts ns with
  | nil => rfl
  | cons m ms =>
    cases m with
    | text t => rw [joinFront, String.empty_append]
    | element => rfl
    | comment => rfl

theorem legible_text_text (s t : String) (ns : List MarkupNode) :
    legible (.text s :: .text t :: ns) = legible (.text (s ++ t) :: ns) := by
  have hjoin : joinTexts (.text s :: .text t :: ns) = joinTexts (.text (s ++ t) :: ns) := by
    show joinFront (.text s) (joinFront (.text t) (joinTexts ns)) =
      joinFront (.text (s ++ t)) (joinTexts ns)
    cases joinTexts ns with
    | nil => rfl
    | cons m ms =>
      cases m with
      | text u =>
        show [MarkupNode.text (s ++ (t ++ u))] ++ ms = [MarkupNode.text (s ++ t ++ u)] ++ ms
        rw [String.append_assoc]
      | element => rfl
      | comment => rfl
  rw [legible, hjoin, legible]

/-- A run of text ends where another node stands. -/
theorem legible_text_cons (h : ∀ t, n ≠ .text t) (s : String) (ns : List MarkupNode) :
    legible (.text s :: n :: ns) = legible [.text s] ++ n :: legible ns := by
  have hjoin : joinTexts (.text s :: n :: ns) = [.text s] ++ n :: joinTexts ns := by
    cases n with
    | text t => exact absurd rfl (h t)
    | element => rfl
    | comment => rfl
  have hkeep : (n :: joinTexts ns).filter (!isBlankRun ·) = n :: legible ns := by
    cases n with
    | text t => exact absurd rfl (h t)
    | element => rfl
    | comment => rfl
  rw [legible, hjoin, List.filter_append, hkeep]
  rfl

/-! ## §2. The markup that nodes stand for -/

/-- The attributes that an element is read back with: the plain ones in order, then its class and
    the text of its style, each if there is one. -/
def attrsOf (e : Shell) : List (String × String) :=
  e.attrs.entries ++ (e.className.map fun c => ("class", c)).toList ++
    (e.style.text?.map fun t => ("style", t)).toList

mutual

/-- The markup of a node. Handlers have none. -/
def ofNode : VNode → MarkupNode
  | .text s => .text s
  | .comment s => .comment s
  | .element e children => .element e.tag (attrsOf e) (legible (ofNodes children))

/-- The markup of nodes, one by one. -/
def ofNodes : List VNode → List MarkupNode
  | [] => []
  | n :: ns => ofNode n :: ofNodes ns

end

/-! ## §3. Nodes that can be written -/

/-- A tag that can be read back: a name that starts with a small ASCII letter and has no capital,
    of an element that may have children. -/
structure WritableTag (tag : String) : Prop where
  /-- It starts with a small letter. -/
  head : ∃ c s, tag.toList = c :: s ∧ c.isLower = true
  /-- It has no ASCII capital. -/
  no_capital : ∀ c ∈ tag.toList, c.isUpper = false
  /-- It is a name. -/
  name : ∀ c ∈ tag.toList, isNameChar c = true
  /-- The element is not void. -/
  not_void : tag ∉ voidElements

/-- A name that an attribute can have: it is not empty. -/
structure WritableKey (key : String) : Prop where
  /-- It is not empty. -/
  ne_nil : key.toList ≠ []
  /-- It is a name. -/
  name : ∀ c ∈ key.toList, isNameChar c = true

mutual

/-- A node that can be read back. There is no condition on texts and on the values of attributes. -/
def Writable : VNode → Prop
  | .text _ => True
  | .comment s => ¬ "-->".toList <:+: s.toList
  | .element e children =>
    WritableTag e.tag ∧ (∀ a ∈ e.attrs.entries, WritableKey a.1) ∧ WritableAll children

/-- Nodes that can all be read back. -/
def WritableAll : List VNode → Prop
  | [] => True
  | n :: ns => Writable n ∧ WritableAll ns

end

theorem writableKey_class : WritableKey "class" := ⟨by decide, List.all_eq_true.mp (by decide)⟩

theorem writableKey_style : WritableKey "style" := ⟨by decide, List.all_eq_true.mp (by decide)⟩

/-- The names of all attributes that an element is written with. -/
theorem writableKey_of_mem_attrsOf {e : Shell} (h : ∀ a ∈ e.attrs.entries, WritableKey a.1) :
    ∀ a ∈ attrsOf e, WritableKey a.1 := by
  intro a ha
  rcases List.mem_append.mp ha with ha | hstyle
  · rcases List.mem_append.mp ha with hplain | hclass
    · exact h a hplain
    · obtain ⟨c, -, rfl⟩ := Option.map_eq_some_iff.mp (Option.mem_toList.mp hclass)
      exact writableKey_class
  · obtain ⟨t, -, rfl⟩ := Option.map_eq_some_iff.mp (Option.mem_toList.mp hstyle)
    exact writableKey_style

/-! ## §4. Reading a piece of HTML -/

/-- Finished nodes put in, one after the other. -/
def Partway.addAll (p : Partway) (ns : List MarkupNode) : Partway := ns.foldl Partway.add p

@[simp] theorem Partway.addAll_nil (p : Partway) : p.addAll [] = p := rfl

@[simp] theorem Partway.addAll_cons (p : Partway) (n : MarkupNode) (ns : List MarkupNode) :
    p.addAll (n :: ns) = (p.add n).addAll ns := rfl

@[simp] theorem Partway.addAll_append (p : Partway) (ns ms : List MarkupNode) :
    p.addAll (ns ++ ms) = (p.addAll ns).addAll ms := List.foldl_append

theorem Partway.addAll_roots (roots ns : List MarkupNode) :
    Partway.addAll ⟨[], roots⟩ ns = ⟨[], roots ++ ns⟩ := by
  induction ns generalizing roots with
  | nil => simp
  | cons n ns ih =>
    show Partway.addAll ⟨[], roots ++ [n]⟩ ns = _
    rw [ih]
    simp

theorem Partway.addAll_open (e : OpenElement) (pending : List OpenElement)
    (roots ns : List MarkupNode) :
    Partway.addAll ⟨e :: pending, roots⟩ ns =
      ⟨{ e with children := e.children ++ ns } :: pending, roots⟩ := by
  induction ns generalizing e with
  | nil => simp
  | cons n ns ih =>
    show Partway.addAll ⟨{ e with children := e.children ++ [n] } :: pending, roots⟩ ns = _
    rw [ih]
    simp

/-- Reading the first text from one state comes to reading the second from the other. -/
def Reads (p : Partway) (s : List Char) (q : Partway) (t : List Char) : Prop :=
  ∀ offset, ∃ offset', (items .none offset s).foldlM Partway.take p =
    (items .none offset' t).foldlM Partway.take q

theorem Reads.refl (p : Partway) (s : List Char) : Reads p s p s := fun offset => ⟨offset, rfl⟩

theorem Reads.trans {p q r : Partway} {s t u : List Char} (h : Reads p s q t) (h' : Reads q t r u) :
    Reads p s r u := by
  intro offset
  obtain ⟨offset₁, h₁⟩ := h offset
  obtain ⟨offset₂, h₂⟩ := h' offset₁
  exact ⟨offset₂, h₁.trans h₂⟩

/-- One item is taken in. -/
theorem Reads.of_firstItem {p q : Partway} {c : Char} {s rest : List Char}
    (h : ∀ offset, ∃ item, firstItem .none offset c s = (item, rest) ∧ p.take item = .ok q) :
    Reads p (c :: s) q rest := by
  intro offset
  obtain ⟨item, hitem, htake⟩ := h offset
  obtain ⟨offset', hitems⟩ := items_cons .none offset c s
  refine ⟨offset', ?_⟩
  rw [hitems, hitem, List.foldlM_cons, htake]
  rfl

/-! ## §5. Texts -/

theorem escapeChar_ne_nil (c : Char) : Html.escapeChar c ≠ [] := by
  unfold Html.escapeChar
  split <;> simp

theorem less_not_mem_escape (s : String) : '<' ∉ Html.escape s := by
  intro h
  obtain ⟨c, -, hc⟩ := List.mem_flatMap.mp h
  unfold Html.escapeChar at hc
  split at hc
  · simp at hc
  · simp at hc
  · simp at hc
  · next hless _ => exact hless (List.mem_singleton.mp hc).symm

/-- Blanks are not escaped, and what is escaped is no blank. -/
theorem isBlankText_escape (s : String) : isBlankText (Html.escape s) = isBlankText s.toList := by
  have hchar : ∀ c, (Html.escapeChar c).all isBlank = isBlank c := by
    intro c
    unfold Html.escapeChar
    split
    · decide
    · decide
    · decide
    · simp
  unfold isBlankText Html.escape
  rw [List.all_flatMap]
  exact congrArg (List.all _) (funext hchar)

theorem reads_text (p : Partway) (s : String) (rest : List Char)
    (hrest : rest.head? = some '<' ∨ rest = []) :
    Reads p (Html.escape s ++ rest) (p.addAll (legible [.text s])) rest := by
  cases hs : Html.escape s with
  | nil =>
    have hnil : s.toList = [] := by
      rw [Html.escape, List.flatMap_eq_nil_iff] at hs
      exact List.eq_nil_iff_forall_not_mem.mpr fun c hc => escapeChar_ne_nil c (hs c hc)
    rw [legible_text, hnil]
    exact Reads.refl p rest
  | cons c r =>
    have hless := less_not_mem_escape s
    rw [hs] at hless
    have hc : c ≠ '<' := fun he => hless (by simp [he])
    have hr : '<' ∉ r := fun hm => hless (List.mem_cons_of_mem c hm)
    refine Reads.of_firstItem fun offset => ⟨_, firstItem_text hc hr hrest offset, ?_⟩
    have hblank : isBlankText (c :: r) = isBlankText s.toList := by
      rw [← hs, isBlankText_escape]
    have hdecode : decodeEntities (String.ofList (c :: r)) = s := by
      rw [decodeEntities, String.toList_ofList, ← hs, decode_escape, String.ofList_toList]
    show (if isBlankText (String.ofList (c :: r)).toList then Except.ok p
      else .ok (p.add (.text (decodeEntities (String.ofList (c :: r)))))) = _
    rw [String.toList_ofList, hblank, hdecode, legible_text]
    split <;> rfl

/-! ## §6. Comments and tags -/

theorem reads_comment (p : Partway) (h : ¬ "-->".toList <:+: s.toList) (rest : List Char) :
    Reads p (Html.comment s ++ rest) (p.add (.comment s)) rest := by
  have hsplit := splitFirst?_comment h rest
  have hsource : Html.comment s ++ rest =
      '<' :: '!' :: '-' :: '-' :: (s.toList ++ '-' :: '-' :: '>' :: rest) := by
    simp [Html.comment]
  rw [hsource]
  refine Reads.of_firstItem fun offset => ⟨_, firstItem_comment hsplit .none offset, ?_⟩
  rw [String.ofList_toList]
  rfl

/-- What follows the name in a start tag is no part of it. -/
theorem endsName_head_attrs (as : List (String × String)) (rest : List Char) :
    ∃ c r, as.flatMap Html.writtenAttr ++ '>' :: rest = c :: r ∧ endsName c = true := by
  cases as with
  | nil => exact ⟨'>', rest, rfl, by decide⟩
  | cons a as => exact ⟨' ', _, rfl, by decide⟩

section tags

variable {tag : String} (hhead : ∃ c s, tag.toList = c :: s ∧ c.isLower = true)
  (hcapital : ∀ c ∈ tag.toList, c.isUpper = false) (hname : ∀ c ∈ tag.toList, isNameChar c = true)

include hhead hcapital hname

/-- A start tag in small letters, as it is written. -/
theorem firstItem_written_start {as : List (String × String)} (has : ∀ a ∈ as, WritableKey a.1)
    (rest : List Char) (offset : Nat) :
    firstItem .none offset '<' (tag.toList ++ (as.flatMap Html.writtenAttr ++ '>' :: rest)) =
      (.start tag as false, rest) := by
  obtain ⟨c, r, hcr, hc⟩ := endsName_head_attrs as rest
  have hattrs := attributes_written (fun a ha => ⟨(has a ha).ne_nil, (has a ha).name⟩) rest
  obtain ⟨n, s, hns, hn⟩ := hhead
  have hstarts : startsTag n = true := by
    show (n.isUpper || n.isLower) = true
    rw [hn, Bool.or_true]
  rw [hcr] at hattrs ⊢
  rw [firstItem_start_append (by rw [hns]; rfl) hstarts hname hc hattrs,
    lowerAscii_eq_self hcapital, String.ofList_toList]

/-- An end tag in small letters, as it is written. -/
theorem firstItem_written_stop (rest : List Char) (offset : Nat) :
    firstItem .none offset '<' ('/' :: (tag.toList ++ '>' :: rest)) = (.stop tag offset, rest) := by
  have hne : tag.toList ≠ [] := by
    obtain ⟨n, s, hns, -⟩ := hhead
    simp [hns]
  have hend := endTag?_append (b := []) hne hname rfl rest
  rw [List.nil_append, lowerAscii_eq_self hcapital] at hend
  rw [firstItem_stop hend, String.ofList_toList]

end tags

theorem reads_start (p : Partway) {tag : String} (htag : WritableTag tag)
    {as : List (String × String)} (has : ∀ a ∈ as, WritableKey a.1) (rest : List Char) :
    Reads p ('<' :: (tag.toList ++ (as.flatMap Html.writtenAttr ++ '>' :: rest)))
      { p with pending := ⟨tag, as, []⟩ :: p.pending } rest := by
  refine Reads.of_firstItem fun offset =>
    ⟨_, firstItem_written_start htag.head htag.no_capital htag.name has rest offset, ?_⟩
  show (if false || decide (tag ∈ voidElements) then _ else _) = _
  exact if_neg (by simpa using htag.not_void)

theorem reads_stop {tag : String} (htag : WritableTag tag) (as : List (String × String))
    (ns : List MarkupNode) (pending : List OpenElement) (roots : List MarkupNode)
    (rest : List Char) :
    Reads ⟨⟨tag, as, ns⟩ :: pending, roots⟩ ('<' :: '/' :: (tag.toList ++ '>' :: rest))
      (Partway.add ⟨pending, roots⟩ (.element tag as ns)) rest := by
  refine Reads.of_firstItem fun offset =>
    ⟨_, firstItem_written_stop htag.head htag.no_capital htag.name rest offset, ?_⟩
  simp [Partway.take]

/-! ## §7. Forests -/

/-- What an element is written as: its start tag, its children, its end tag. -/
theorem node_element_append (e : Shell) (children : List VNode) (rest : List Char) :
    Html.node (.element e children) ++ rest =
      '<' :: (e.tag.toList ++ ((attrsOf e).flatMap Html.writtenAttr ++ '>' ::
        (Html.nodes children ++ '<' :: '/' :: (e.tag.toList ++ '>' :: rest)))) := by
  show Html.tagged e.tag (attrsOf e) (Html.nodes children) ++ rest = _
  simp [Html.tagged]

mutual

/-- An element is read back, whatever follows it. -/
theorem reads_element (p : Partway) (e : Shell) (children : List VNode)
    (h : Writable (.element e children)) (rest : List Char) :
    Reads p (Html.node (.element e children) ++ rest) (p.add (ofNode (.element e children)))
      rest := by
  obtain ⟨htag, hkeys, hchildren⟩ := h
  have hstart := reads_start p htag (writableKey_of_mem_attrsOf hkeys)
    (Html.nodes children ++ '<' :: '/' :: (e.tag.toList ++ '>' :: rest))
  have hinside := reads_nodes { p with pending := ⟨e.tag, attrsOf e, []⟩ :: p.pending } ""
    children hchildren ('<' :: '/' :: (e.tag.toList ++ '>' :: rest)) (.inl rfl)
  rw [legible_empty_text, Partway.addAll_open] at hinside
  have hstop :=
    reads_stop htag (attrsOf e) ([] ++ legible (ofNodes children)) p.pending p.roots rest
  rw [node_element_append]
  exact hstart.trans (hinside.trans hstop)

/-- Nodes after a pending text are read back, up to where a tag follows or nothing. -/
theorem reads_nodes (p : Partway) (s : String) (ns : List VNode) (h : WritableAll ns)
    (rest : List Char) (hrest : rest.head? = some '<' ∨ rest = []) :
    Reads p (Html.escape s ++ (Html.nodes ns ++ rest))
      (p.addAll (legible (.text s :: ofNodes ns))) rest := by
  match ns, h with
  | [], _ =>
    show Reads p (Html.escape s ++ rest) (p.addAll (legible [.text s])) rest
    exact reads_text p s rest hrest
  | .text t :: ns, h =>
    -- The text is pending together with the one before it.
    have hlater := reads_nodes p (s ++ t) ns h.2 rest hrest
    have hsource : Html.escape s ++ (Html.nodes (.text t :: ns) ++ rest) =
        Html.escape (s ++ t) ++ (Html.nodes ns ++ rest) := by
      simp [Html.nodes, Html.node, Html.escape]
    rw [hsource]
    show Reads p _ (p.addAll (legible (.text s :: .text t :: ofNodes ns))) rest
    rw [legible_text_text]
    exact hlater
  | .comment t :: ns, h =>
    have hbefore := reads_text p s (Html.comment t ++ (Html.nodes ns ++ rest)) (.inl rfl)
    have hhere := reads_comment (p.addAll (legible [.text s])) h.1 (Html.nodes ns ++ rest)
    have hlater :=
      reads_nodes ((p.addAll (legible [.text s])).add (.comment t)) "" ns h.2 rest hrest
    rw [legible_empty_text] at hlater
    have hall := hbefore.trans (hhere.trans hlater)
    show Reads p (Html.escape s ++ ((Html.comment t ++ Html.nodes ns) ++ rest))
      (p.addAll (legible (.text s :: .comment t :: ofNodes ns))) rest
    rw [List.append_assoc, legible_text_cons (by simp), Partway.addAll_append, Partway.addAll_cons]
    exact hall
  | .element e children :: ns, h =>
    have hhead : (Html.node (.element e children) ++ (Html.nodes ns ++ rest)).head? = some '<' := by
      simp [Html.node, Html.tagged]
    have hbefore := reads_text p s _ (.inl hhead)
    have hhere :=
      reads_element (p.addAll (legible [.text s])) e children h.1 (Html.nodes ns ++ rest)
    have hlater := reads_nodes ((p.addAll (legible [.text s])).add (ofNode (.element e children)))
      "" ns h.2 rest hrest
    rw [legible_empty_text] at hlater
    have hall := hbefore.trans (hhere.trans hlater)
    show Reads p (Html.escape s ++ ((Html.node (.element e children) ++ Html.nodes ns) ++ rest))
      (p.addAll (legible (.text s :: ofNode (.element e children) :: ofNodes ns))) rest
    rw [List.append_assoc, legible_text_cons (by simp [ofNode]), Partway.addAll_append,
      Partway.addAll_cons]
    exact hall

end

/-- Reading inverts writing, but for the borders between adjacent texts and for blank texts. No
    text and no attribute value begins, ends or changes a tag. -/
theorem parse_render (ns : List VNode) (h : WritableAll ns) :
    parse .none (Html.render ns) = .ok (legible (ofNodes ns)) := by
  have hreads := reads_nodes ⟨[], []⟩ "" ns h [] (.inr rfl)
  rw [legible_empty_text, Partway.addAll_roots] at hreads
  obtain ⟨offset, hfold⟩ := hreads 0
  have hsource : (Html.render ns).toList = Html.escape "" ++ (Html.nodes ns ++ []) := by
    rw [List.append_nil]
    exact String.toList_ofList
  rw [parse, nest, hsource, hfold, items]
  rfl

/-- An element whose texts and attribute values look like markup. -/
def lookalike : VNode :=
  .element
    { tag := "p", attrs := OrderedMap.insert ∅ "title" "\"></p><b a='", className := some "" }
    [.text "</p>&lt;", .text "!", .comment "--", .text " ", .element { tag := "i" } []]

theorem writable_lookalike : Writable lookalike := by
  have hp : WritableTag "p" :=
    ⟨⟨'p', [], rfl, rfl⟩, by simp, List.all_eq_true.mp (by decide), by decide⟩
  have hi : WritableTag "i" :=
    ⟨⟨'i', [], rfl, rfl⟩, by simp, List.all_eq_true.mp (by decide), by decide⟩
  have hkey : WritableKey "title" := ⟨by decide, List.all_eq_true.mp (by decide)⟩
  have hcomment : ¬ "-->".toList <:+: "--".toList := by decide
  refine ⟨hp, ?_, trivial, trivial, hcomment, trivial, ⟨hi, ?_, trivial⟩, trivial⟩
  · intro a ha
    obtain rfl := List.mem_singleton.mp ha
    exact hkey
  · intro a ha
    cases ha

theorem parse_render_lookalike : parse .none (Html.render [lookalike]) =
    .ok [.element "p" [("title", "\"></p><b a='"), ("class", "")]
      [.text "</p>&lt;!", .comment "--", .element "i" [] []]] :=
  parse_render [lookalike] ⟨writable_lookalike, trivial⟩

end ReactiveView.Markup
