import ReactiveView.Proofs.LiveTree.Matches
import ReactiveView.Proofs.Template.Neat

/-! # Rendering what was rendered

  The HTML of a static template is a template again. It is read back as the same
  nodes, with two exceptions. An end tag is written for every element, also for
  one that is void, and the end tag of a void element is refused. And a style is
  written as text, which is read from left to right: a quote or parenthesis that
  is not closed takes in the declarations that follow it.

  * `nodes_stillAll_ofNodes`: what is shown by a template that was read back.
  * `nodes_rereadAll_iff`: this is the same HTML where all styles are steady.
  * `rejects_nodes`: nothing is read back where an element is void.
  * `renders_itself_iff`: both together.
-/

namespace ReactiveView

open Text Markup

/-! ## §1. Shells that are read back -/

/-- The style that is read from the text of a style. -/
def Style.reread (style : Style) : Style :=
  match style.text? with
  | none => ∅
  | some t => parse t

/-- A style whose text does not change when it is read and written again. -/
def Style.Steady (style : Style) : Prop := style.reread.text? = style.text?

instance (style : Style) : Decidable style.Steady := inferInstanceAs (Decidable (_ = _))

/-- The element that is read from the HTML of an element. -/
def Shell.reread (e : Shell) : Shell := Shell.setAll { tag := e.tag } (attrsOf e)

theorem Shell.setAll_append (e : Shell) (as bs : List (String × String)) :
    e.setAll (as ++ bs) = (e.setAll as).setAll bs := List.foldl_append

/-- Attributes without a place of their own are put one after the other. -/
theorem Shell.setAll_plain {es : Entries String}
    (h : ∀ a ∈ es, a.1 ≠ "class" ∧ a.1 ≠ "style") (e : Shell) :
    e.setAll es = { e with attrs := e.attrs.insertAll es } := by
  induction es generalizing e with
  | nil => rfl
  | cons a es ih =>
    obtain ⟨hclass, hstyle⟩ := h a List.mem_cons_self
    have hstep : e.setAttr a.1 a.2 = e.setPlain a.1 a.2 := by
      rw [setAttr, if_neg hclass, if_neg hstyle]
    show (e.setAttr a.1 a.2).setAll es = _
    rw [hstep, ih fun b hb => h b (List.mem_cons_of_mem a hb)]
    rfl

/-- **A neat element is read back** as it is, but for its style. -/
theorem NeatShell.reread_eq {e : Shell} (h : NeatShell e) :
    e.reread = { tag := e.tag, attrs := e.attrs, className := e.className,
                 style := e.style.reread } := by
  have hplain := Shell.setAll_plain (fun a ha => (h.attrs a ha).2.2) { tag := e.tag }
  rw [OrderedMap.insertAll_empty] at hplain
  have hclass : Shell.setAll { tag := e.tag, attrs := e.attrs }
      (e.className.map fun c => ("class", c)).toList =
        { tag := e.tag, attrs := e.attrs, className := e.className } := by
    cases hc : e.className with
    | none => rfl
    | some c =>
      obtain ⟨hblank, -⟩ := h.className c hc
      show Shell.addClass _ c = _
      rw [Shell.addClass, if_neg (by simp [hblank])]
  have hstyle : Shell.setAll { tag := e.tag, attrs := e.attrs, className := e.className }
      (e.style.text?.map fun t => ("style", t)).toList =
        { tag := e.tag, attrs := e.attrs, className := e.className,
          style := e.style.reread } := by
    unfold Style.reread
    cases e.style.text? with
    | none => rfl
    | some t =>
      show Shell.addStyle _ t = _
      rw [Shell.addStyle, OrderedMap.insertAll_empty]
  rw [Shell.reread, attrsOf, Shell.setAll_append, Shell.setAll_append, hplain, hclass, hstyle]

/-! ## §2. Nodes that are read back -/

mutual

/-- The node that is read from the HTML of a node. -/
def VNode.reread : VNode → VNode
  | .text s => .text s
  | .comment s => .comment s
  | .element e children => .element e.reread (VNode.rereadAll children)

/-- The nodes that are read from the HTML of nodes, one by one. -/
def VNode.rereadAll : List VNode → List VNode
  | [] => []
  | n :: ns => VNode.reread n :: VNode.rereadAll ns

end

/-- A node of markup that is no text, or one that is not blank and stands on one line. -/
def OneLine : MarkupNode → Prop
  | .text s => isBlankText s.toList = false ∧ '\n' ∉ s.toList
  | _ => True

variable {n : MarkupNode} {ms : List MarkupNode}

theorem oneLine_joinFront (hn : OneLine n) (hms : ∀ m ∈ ms, OneLine m) :
    ∀ m ∈ joinFront n ms, OneLine m := by
  unfold joinFront
  split
  · next s t ms =>
    obtain ⟨hblank, hs⟩ := hn
    obtain ⟨-, ht⟩ := hms (.text t) List.mem_cons_self
    intro m hm
    rcases List.mem_cons.mp hm with rfl | hm
    · show isBlankText (s ++ t).toList = false ∧ '\n' ∉ (s ++ t).toList
      rw [String.toList_append]
      exact ⟨isBlankText_append hblank _, fun hmem => (List.mem_append.mp hmem).elim hs ht⟩
    · exact hms m (List.mem_cons_of_mem _ hm)
  · intro m hm
    rcases List.mem_cons.mp hm with rfl | hm
    · exact hn
    · exact hms m hm

theorem oneLine_joinTexts (h : ∀ m ∈ ms, OneLine m) : ∀ m ∈ joinTexts ms, OneLine m := by
  induction ms with
  | nil => exact h
  | cons n ms ih =>
    have hms := ih fun m hm => h m (List.mem_cons_of_mem n hm)
    exact oneLine_joinFront (h n List.mem_cons_self) hms

/-- Where no text is blank, none is left out. -/
theorem legible_eq_joinTexts (h : ∀ m ∈ ms, OneLine m) : legible ms = joinTexts ms := by
  refine List.filter_eq_self.mpr ?_
  intro m hm
  have hm := oneLine_joinTexts h m hm
  cases m with
  | text s => simp [isBlankRun, hm.1]
  | element => rfl
  | comment => rfl

theorem still_text {s : String} (h : '\n' ∉ s.toList) : still (.text s) = .text s := by
  rw [still, joinLines_eq_self h, String.ofList_toList]

/-- Texts that run together are written as before. -/
theorem nodes_still_joinFront (hn : OneLine n) (hms : ∀ m ∈ ms, OneLine m) :
    Html.nodes (stillAll (joinFront n ms)) = Html.nodes (stillAll (n :: ms)) := by
  unfold joinFront
  split
  · next s t ms =>
    obtain ⟨-, hs⟩ := hn
    obtain ⟨-, ht⟩ := hms (.text t) List.mem_cons_self
    have hst : '\n' ∉ (s ++ t).toList := by
      rw [String.toList_append]
      exact fun hmem => (List.mem_append.mp hmem).elim hs ht
    rw [stillAll, stillAll, stillAll, still_text hs, still_text ht, still_text hst]
    simp [Html.nodes, Html.node, Html.escape]
  · rfl

theorem nodes_still_joinTexts (h : ∀ m ∈ ms, OneLine m) :
    Html.nodes (stillAll (joinTexts ms)) = Html.nodes (stillAll ms) := by
  induction ms with
  | nil => rfl
  | cons n ms ih =>
    have hms : ∀ m ∈ ms, OneLine m := fun m hm => h m (List.mem_cons_of_mem n hm)
    rw [joinTexts, nodes_still_joinFront (h n List.mem_cons_self) (oneLine_joinTexts hms), stillAll,
      stillAll, Html.nodes, Html.nodes, ih hms]

theorem oneLine_ofNodes {ns : List VNode} (h : NeatAll ns) : ∀ m ∈ ofNodes ns, OneLine m := by
  induction ns with
  | nil => exact fun m hm => (by cases hm)
  | cons n ns ih =>
    intro m hm
    rcases List.mem_cons.mp hm with rfl | hm
    · cases n with
      | text s => exact ⟨h.1.1, h.1.2.2⟩
      | comment s => trivial
      | element e children => trivial
    · exact ih h.2.2 m hm

mutual

theorem node_still_ofNode (n : VNode) (h : Neat n) :
    Html.node (still (ofNode n)) = Html.node n.reread := by
  match n, h with
  | .text s, h =>
    rw [ofNode, still_text h.2.2]
    rfl
  | .comment s, _ => rfl
  | .element e children, h =>
    have hchildren := nodes_stillAll_ofNodes children h.2
    have hshell := h.1.reread_eq
    show Html.tagged e.reread.tag (Html.writtenAttrs e.reread)
      (Html.nodes (stillAll (legible (ofNodes children)))) = _
    rw [hchildren]
    rfl

/-- **What is shown** by the template that neat nodes are read back as. -/
theorem nodes_stillAll_ofNodes (ns : List VNode) (h : NeatAll ns) :
    Html.nodes (stillAll (legible (ofNodes ns))) = Html.nodes (VNode.rereadAll ns) := by
  rw [legible_eq_joinTexts (oneLine_ofNodes h), nodes_still_joinTexts (oneLine_ofNodes h)]
  match ns, h with
  | [], _ => rfl
  | n :: ns, h =>
    have hrest := nodes_stillAll_ofNodes ns h.2.2
    rw [legible_eq_joinTexts (oneLine_ofNodes h.2.2),
      nodes_still_joinTexts (oneLine_ofNodes h.2.2)] at hrest
    rw [ofNodes, stillAll, Html.nodes, VNode.rereadAll, Html.nodes, node_still_ofNode n h.1, hrest]

end

/-! ## §3. Where the HTML is the same -/

namespace VNode

variable {P Q : Shell → Prop}

mutual

theorem everywhere_and (n : VNode) :
    n.Everywhere (fun e => P e ∧ Q e) ↔ n.Everywhere P ∧ n.Everywhere Q := by
  match n with
  | .text _ => exact ⟨fun _ => ⟨trivial, trivial⟩, fun _ => trivial⟩
  | .comment _ => exact ⟨fun _ => ⟨trivial, trivial⟩, fun _ => trivial⟩
  | .element e children =>
    rw [Everywhere, Everywhere, Everywhere, everywhereAll_and children]
    exact and_and_and_comm

theorem everywhereAll_and (ns : List VNode) :
    EverywhereAll (fun e => P e ∧ Q e) ns ↔ EverywhereAll P ns ∧ EverywhereAll Q ns := by
  match ns with
  | [] => exact ⟨fun _ => ⟨trivial, trivial⟩, fun _ => trivial⟩
  | n :: ns =>
    rw [EverywhereAll, EverywhereAll, EverywhereAll, everywhere_and n, everywhereAll_and ns]
    exact and_and_and_comm

end

end VNode

/-- What stands before the first of two equal characters is the same, and so is what follows. -/
theorem eq_and_eq_of_append_cons {c : Char} {s t x y : List Char} (hs : c ∉ s) (ht : c ∉ t)
    (h : s ++ c :: x = t ++ c :: y) : s = t ∧ x = y := by
  have hsplit := splitFirst?_singleton hs x
  rw [h, splitFirst?_singleton ht y] at hsplit
  obtain ⟨rfl, rfl⟩ := Prod.mk.inj (Option.some.inj hsplit)
  exact ⟨rfl, rfl⟩

/-- The texts of two styles are written alike if they are the same. -/
theorem written_style_iff (o o' : Option String) (x y : List Char) :
    (o.map fun t => ("style", t)).toList.flatMap Html.writtenAttr ++ '>' :: x =
        (o'.map fun t => ("style", t)).toList.flatMap Html.writtenAttr ++ '>' :: y ↔
      o = o' ∧ x = y := by
  have hsome : ∀ (t : String) (z : List Char),
      (Option.map (fun t => ("style", t)) (some t)).toList.flatMap Html.writtenAttr ++ '>' :: z =
        " style=\"".toList ++ (Html.escapeQuoted t ++ '"' :: '>' :: z) := by
    intro t z
    simp [Html.writtenAttr]
  constructor
  · intro h
    cases o with
    | none =>
      cases o' with
      | none => exact ⟨rfl, (List.cons.inj h).2⟩
      | some t' =>
        -- One side goes on with a bracket, the other with a blank.
        rw [hsome] at h
        exact absurd (List.cons.inj h).1 (by decide)
    | some t =>
      cases o' with
      | none =>
        rw [hsome] at h
        exact absurd (List.cons.inj h).1 (by decide)
      | some t' =>
        rw [hsome, hsome] at h
        -- No quote is left in an escaped text, so both end at the same one.
        obtain ⟨hescaped, hrest⟩ := eq_and_eq_of_append_cons (quote_not_mem_escapeQuoted t)
          (quote_not_mem_escapeQuoted t') (List.append_cancel_left h)
        have hdecoded := congrArg decode hescaped
        rw [decode_escapeQuoted, decode_escapeQuoted] at hdecoded
        exact ⟨congrArg some (String.toList_inj.mp hdecoded), (List.cons.inj hrest).2⟩
  · rintro ⟨rfl, rfl⟩
    rfl

theorem node_element_split (e : Shell) (children : List VNode) (rest : List Char) :
    Html.node (.element e children) ++ rest =
      '<' :: (e.tag.toList ++ (e.attrs.entries.flatMap Html.writtenAttr ++
        ((e.className.map fun c => ("class", c)).toList.flatMap Html.writtenAttr ++
          ((e.style.text?.map fun t => ("style", t)).toList.flatMap Html.writtenAttr ++
            '>' :: (Html.nodes children ++ '<' :: '/' :: (e.tag.toList ++ '>' :: rest)))))) := by
  simp [Html.node, Html.tagged, Html.writtenAttrs]

mutual

theorem node_reread_iff (n : VNode) (h : Neat n) (r' r : List Char) :
    Html.node n.reread ++ r' = Html.node n ++ r ↔
      n.Everywhere (fun e => e.style.Steady) ∧ r' = r := by
  match n, h with
  | .text s, _ =>
    show Html.escape s ++ r' = Html.escape s ++ r ↔ True ∧ r' = r
    rw [List.append_right_inj, true_and]
  | .comment s, _ =>
    show Html.comment s ++ r' = Html.comment s ++ r ↔ True ∧ r' = r
    rw [List.append_right_inj, true_and]
  | .element e children, h =>
    have hchildren := nodes_rereadAll_iff children h.2
    -- Tag, attributes and class are written alike and cancel; what is left begins with the style.
    rw [VNode.reread, node_element_split, node_element_split, h.1.reread_eq]
    simp only [List.cons.injEq, true_and, List.append_right_inj, written_style_iff, hchildren]
    show e.style.Steady ∧ _ ∧ _ ↔ (e.style.Steady ∧ _) ∧ _
    rw [and_assoc]

/-- **The same HTML** is shown again where all styles are steady, and only there. This is said with
    any texts behind, so that what is written first can be taken off both sides. -/
theorem nodes_rereadAll_iff (ns : List VNode) (h : NeatAll ns) (r' r : List Char) :
    Html.nodes (VNode.rereadAll ns) ++ r' = Html.nodes ns ++ r ↔
      VNode.EverywhereAll (fun e => e.style.Steady) ns ∧ r' = r := by
  match ns, h with
  | [], _ =>
    show r' = r ↔ True ∧ r' = r
    rw [true_and]
  | n :: ns, h =>
    rw [VNode.rereadAll, Html.nodes, Html.nodes, List.append_assoc, List.append_assoc,
      node_reread_iff n h.1, nodes_rereadAll_iff ns h.2.2, VNode.EverywhereAll, and_assoc]

end

/-! ## §4. Void elements -/

/-- Whether the element may be read back: it is not void. -/
def Shell.NotVoid (e : Shell) : Prop := e.tag ∉ voidElements

/-- Nothing is read from a text. -/
def Markup.Rejects (p : Partway) (s : List Char) : Prop :=
  ∀ offset q, (items .none offset s).foldlM Partway.take p ≠ .ok q

theorem Markup.Reads.rejects {p q : Partway} {s t : List Char} (h : Reads p s q t)
    (hq : Rejects q t) : Rejects p s := by
  intro offset r
  obtain ⟨offset', heq⟩ := h offset
  rw [heq]
  exact hq offset' r

/-- No void element is open. -/
def Markup.Partway.NoVoid (p : Partway) : Prop := ∀ e ∈ p.pending, e.tag ∉ voidElements

namespace Markup.Partway

variable {p : Partway}

theorem NoVoid.add (h : p.NoVoid) (n : MarkupNode) : (p.add n).NoVoid := by
  unfold Partway.add
  split
  · exact h
  · next e rest hpending =>
    intro d hd
    rcases List.mem_cons.mp hd with rfl | hd
    · exact h e (by rw [hpending]; exact List.mem_cons_self)
    · exact h d (by rw [hpending]; exact List.mem_cons_of_mem e hd)

theorem NoVoid.addAll (h : p.NoVoid) (ns : List MarkupNode) : (p.addAll ns).NoVoid := by
  induction ns generalizing p with
  | nil => exact h
  | cons n ns ih => exact ih (h.add n)

/-- An open element that is not void. -/
theorem NoVoid.open (h : p.NoVoid) {e : OpenElement} (he : e.tag ∉ voidElements) :
    NoVoid { p with pending := e :: p.pending } := by
  intro d hd
  rcases List.mem_cons.mp hd with rfl | hd
  · exact he
  · exact h d hd

end Markup.Partway

section void

variable {p : Partway} {tag : String} {as : List (String × String)}

/-- The start tag of a void element is all of it. -/
theorem reads_void_start (htag : LegalTag tag) (hvoid : tag ∈ voidElements)
    (has : ∀ a ∈ as, WritableKey a.1) (rest : List Char) :
    Markup.Reads p ('<' :: (tag.toList ++ (as.flatMap Html.writtenAttr ++ '>' :: rest)))
      (p.add (.element tag as [])) rest := by
  refine Reads.of_firstItem fun offset =>
    ⟨_, firstItem_written_start htag.head htag.no_capital htag.name has rest offset, ?_⟩
  show (if false || decide (tag ∈ voidElements) then _ else _) = _
  exact if_pos (by simpa using hvoid)

/-- Its end tag closes nothing. -/
theorem rejects_void_stop (htag : LegalTag tag) (hvoid : tag ∈ voidElements) (hp : p.NoVoid)
    (rest : List Char) : Rejects p ('<' :: '/' :: (tag.toList ++ '>' :: rest)) := by
  intro offset q
  obtain ⟨offset', hitems⟩ := items_cons .none offset '<' ('/' :: (tag.toList ++ '>' :: rest))
  rw [hitems, firstItem_written_stop htag.head htag.no_capital htag.name, List.foldlM_cons]
  have htake : ∃ e, p.take (.stop tag offset) = .error e := by
    unfold Partway.take
    cases hpending : p.pending with
    | nil => exact ⟨_, rfl⟩
    | cons e rest =>
      have he : e.tag ≠ tag := by
        rintro rfl
        exact hp e (by simp [hpending]) hvoid
      exact ⟨_, if_neg he⟩
  obtain ⟨e, he⟩ := htake
  rw [he]
  simp [bind, Except.bind]

end void

theorem NeatShell.writableKey {e : Shell} (h : NeatShell e) :
    ∀ a ∈ attrsOf e, WritableKey a.1 :=
  writableKey_of_mem_attrsOf fun a ha => (h.attrs a ha).1.key

mutual

theorem writable_of_neat (n : VNode) (h : Neat n) (hvoid : n.Everywhere Shell.NotVoid) :
    Writable n := by
  match n, h, hvoid with
  | .text _, _, _ => trivial
  | .comment _, h, _ => exact h.no_end
  | .element e children, h, hvoid =>
    have htag := h.1.tag
    exact ⟨⟨htag.head, htag.no_capital, htag.name, hvoid.1⟩, fun a ha => (h.1.attrs a ha).1.key,
      writableAll_of_neat children h.2 hvoid.2⟩

/-- Neat nodes can be read back if none of them is void. -/
theorem writableAll_of_neat (ns : List VNode) (h : NeatAll ns)
    (hvoid : VNode.EverywhereAll Shell.NotVoid ns) : WritableAll ns := by
  match ns, h, hvoid with
  | [], _, _ => trivial
  | n :: ns, h, hvoid =>
    exact ⟨writable_of_neat n h.1 hvoid.1, writableAll_of_neat ns h.2.2 hvoid.2⟩

end

mutual

theorem rejects_node (p : Partway) (hp : p.NoVoid) (n : VNode) (h : Neat n)
    (hvoid : ¬ n.Everywhere Shell.NotVoid) (rest : List Char) :
    Rejects p (Html.node n ++ rest) := by
  match n, h, hvoid with
  | .text _, _, hvoid => exact absurd trivial hvoid
  | .comment _, _, hvoid => exact absurd trivial hvoid
  | .element e children, h, hvoid =>
    obtain ⟨hshell, hchildren⟩ := h
    rw [node_element_append]
    by_cases htag : e.tag ∈ voidElements
    · -- The element is over before its children, which go to where it stands.
      refine (reads_void_start hshell.tag htag hshell.writableKey _).rejects ?_
      by_cases hinside : VNode.EverywhereAll Shell.NotVoid children
      · -- The children are read, and then comes an end tag that no open element fits.
        have hreads := reads_nodes (p.add (.element e.tag (attrsOf e) [])) "" children
          (writableAll_of_neat children hchildren hinside)
          ('<' :: '/' :: (e.tag.toList ++ '>' :: rest)) (.inl rfl)
        exact hreads.rejects (rejects_void_stop hshell.tag htag ((hp.add _).addAll _) rest)
      · exact rejects_nodes _ (hp.add _) "" children hchildren hinside _ (.inl rfl)
    · -- The void element is further inside.
      have hinside : ¬ VNode.EverywhereAll Shell.NotVoid children := fun hall => hvoid ⟨htag, hall⟩
      have hwritable : WritableTag e.tag :=
        ⟨hshell.tag.head, hshell.tag.no_capital, hshell.tag.name, htag⟩
      refine (reads_start p hwritable hshell.writableKey _).rejects ?_
      exact rejects_nodes _ (hp.open htag) "" children hchildren hinside _ (.inl rfl)

/-- **A void element** among neat nodes makes what they are written as unreadable. -/
theorem rejects_nodes (p : Partway) (hp : p.NoVoid) (s : String) (ns : List VNode)
    (h : NeatAll ns) (hvoid : ¬ VNode.EverywhereAll Shell.NotVoid ns) (rest : List Char)
    (hrest : rest.head? = some '<' ∨ rest = []) :
    Rejects p (Html.escape s ++ (Html.nodes ns ++ rest)) := by
  match ns, h, hvoid with
  | [], _, hvoid => exact absurd trivial hvoid
  | .text t :: ns, h, hvoid =>
    have hlater : ¬ VNode.EverywhereAll Shell.NotVoid ns := fun hall => hvoid ⟨trivial, hall⟩
    have hsource : Html.escape s ++ (Html.nodes (.text t :: ns) ++ rest) =
        Html.escape (s ++ t) ++ (Html.nodes ns ++ rest) := by
      simp [Html.nodes, Html.node, Html.escape]
    rw [hsource]
    exact rejects_nodes p hp (s ++ t) ns h.2.2 hlater rest hrest
  | .comment t :: ns, h, hvoid =>
    have hlater : ¬ VNode.EverywhereAll Shell.NotVoid ns := fun hall => hvoid ⟨trivial, hall⟩
    have hbefore := reads_text p s (Html.comment t ++ (Html.nodes ns ++ rest)) (.inl rfl)
    have hhere := reads_comment (p.addAll (legible [.text s])) h.1.no_end (Html.nodes ns ++ rest)
    rw [Html.nodes, List.append_assoc]
    exact (hbefore.trans hhere).rejects
      (rejects_nodes _ ((hp.addAll _).add _) "" ns h.2.2 hlater rest hrest)
  | .element e children :: ns, h, hvoid =>
    have hhead : (Html.node (.element e children) ++ (Html.nodes ns ++ rest)).head? = some '<' := by
      simp [Html.node, Html.tagged]
    have hbefore := reads_text p s _ (.inl hhead)
    rw [Html.nodes, List.append_assoc]
    refine hbefore.rejects ?_
    by_cases hfirst : (VNode.element e children).Everywhere Shell.NotVoid
    · have hlater : ¬ VNode.EverywhereAll Shell.NotVoid ns := fun hall => hvoid ⟨hfirst, hall⟩
      have hhere := reads_element (p.addAll (legible [.text s])) e children
        (writable_of_neat _ h.1 hfirst) (Html.nodes ns ++ rest)
      exact hhere.rejects (rejects_nodes _ ((hp.addAll _).add _) "" ns h.2.2 hlater rest hrest)
    · exact rejects_node _ (hp.addAll _) (.element e children) h.1 hfirst _

end

/-! ## §5. The second rendering -/

variable {ns : List VNode}

/-- The HTML of nodes is what stands behind an empty text. -/
theorem toList_render (ns : List VNode) :
    (Html.render ns).toList = Html.escape "" ++ (Html.nodes ns ++ []) := by
  rw [List.append_nil]
  exact String.toList_ofList

/-- Nodes without void elements are read back. -/
theorem parse_nodes (h : NeatAll ns) (hvoid : VNode.EverywhereAll Shell.NotVoid ns) :
    parse .none (Html.render ns) = .ok (legible (ofNodes ns)) := by
  have hreads := reads_nodes ⟨[], []⟩ "" ns (writableAll_of_neat ns h hvoid) [] (.inr rfl)
  rw [legible_empty_text, Partway.addAll_roots] at hreads
  obtain ⟨offset, hfold⟩ := hreads 0
  rw [parse, toList_render, nest_eq_ok_iff, hfold, items]
  rfl

/-- Others are not. -/
theorem parse_nodes_ne_ok (h : NeatAll ns) (hvoid : ¬ VNode.EverywhereAll Shell.NotVoid ns)
    (forest : List MarkupNode) : parse .none (Html.render ns) ≠ .ok forest := by
  have hstart : Partway.NoVoid ⟨[], []⟩ := fun e he => (by cases he)
  have hrejects := rejects_nodes _ hstart "" ns h hvoid [] (.inr rfl)
  intro hparse
  rw [parse, toList_render, nest_eq_ok_iff] at hparse
  exact hrejects 0 _ hparse

theorem plainMarkupAll_joinFront (hn : PlainMarkup n) (hms : PlainMarkupAll ms) :
    PlainMarkupAll (joinFront n ms) := by
  unfold joinFront
  split
  · exact ⟨trivial, hms.2⟩
  · exact ⟨hn, hms⟩

theorem plainMarkupAll_legible (h : PlainMarkupAll ms) : PlainMarkupAll (legible ms) := by
  have hjoin : PlainMarkupAll (joinTexts ms) := by
    induction ms with
    | nil => exact h
    | cons n ms ih => exact plainMarkupAll_joinFront h.1 (ih h.2)
  have hfilter : ∀ ms, PlainMarkupAll ms → PlainMarkupAll (ms.filter (!isBlankRun ·)) := by
    intro ms hms
    induction ms with
    | nil => exact hms
    | cons n ms ih =>
      rw [List.filter_cons]
      split
      · exact ⟨hms.1, ih hms.2⟩
      · exact ih hms.2
  exact hfilter _ hjoin

theorem NeatShell.plainName {e : Shell} (h : NeatShell e) : ∀ a ∈ attrsOf e, PlainName a.1 := by
  intro a ha
  rcases List.mem_append.mp ha with ha | hstyle
  · rcases List.mem_append.mp ha with hplain | hclass
    · exact (h.attrs a hplain).2.1
    · obtain ⟨c, -, rfl⟩ := Option.map_eq_some_iff.mp (Option.mem_toList.mp hclass)
      have hname : PlainName "class" := by decide
      exact hname
  · obtain ⟨t, -, rfl⟩ := Option.map_eq_some_iff.mp (Option.mem_toList.mp hstyle)
    have hname : PlainName "style" := by decide
    exact hname

mutual

theorem plainMarkup_ofNode (n : VNode) (h : Neat n) : PlainMarkup (ofNode n) := by
  match n, h with
  | .text _, _ => trivial
  | .comment _, _ => trivial
  | .element e children, h =>
    exact ⟨h.1.plainName, plainMarkupAll_legible (plainMarkupAll_ofNodes children h.2)⟩

/-- What is read back has no directives. -/
theorem plainMarkupAll_ofNodes (ns : List VNode) (h : NeatAll ns) :
    PlainMarkupAll (ofNodes ns) := by
  match ns, h with
  | [], _ => trivial
  | n :: ns, h => exact ⟨plainMarkup_ofNode n h.1, plainMarkupAll_ofNodes ns h.2.2⟩

end

theorem unopened_render (h : NeatAll ns) : Unopened (Html.render ns).toList := by
  rw [Html.render, String.toList_ofList]
  exact unopened_nodes ns h

/-- The HTML of a static template is a static template. -/
theorem static_render (h : NeatAll ns) (hvoid : VNode.EverywhereAll Shell.NotVoid ns) :
    Static (Html.render ns) := by
  have hopened := unopened_render h
  refine ⟨unopened_iff.mp hopened, ?_⟩
  intro forest hforest
  rw [parse_eq_none rfl hopened, parse_nodes h hvoid] at hforest
  obtain rfl := Except.ok.inj hforest
  exact plainMarkupAll_legible (plainMarkupAll_ofNodes ns h)

/-- It compiles where no element is void, and shows the nodes that are read back. -/
theorem compile_render (h : NeatAll ns) (hvoid : VNode.EverywhereAll Shell.NotVoid ns)
    (ambient : Ambient) :
    ∃ t, (Template.compile (Html.render ns) ambient {}).run.result = .ok t ∧
      ∀ scope, Html.render (t.expand scope).result = Html.render (VNode.rereadAll ns) := by
  obtain ⟨t, ht, hexpand⟩ := (static_render h hvoid).compile (parse_nodes h hvoid) ambient
  refine ⟨t, ht, ?_⟩
  intro scope
  rw [hexpand, Html.render, nodes_stillAll_ofNodes ns h, Html.render]

/-- It does not compile where an element is void. -/
theorem not_void_of_compile_render (h : NeatAll ns) {ambient : Ambient} {t : Template}
    (ht : (Template.compile (Html.render ns) ambient {}).run.result = .ok t) :
    VNode.EverywhereAll Shell.NotVoid ns := by
  obtain ⟨forest, hforest⟩ := Template.parse_of_compile ht
  rw [parse_eq_none rfl (unopened_render h)] at hforest
  by_contra hvoid
  exact parse_nodes_ne_ok h hvoid forest hforest

theorem render_rereadAll_iff (h : NeatAll ns) :
    Html.render (VNode.rereadAll ns) = Html.render ns ↔
      VNode.EverywhereAll (fun e => e.style.Steady) ns := by
  have hiff := nodes_rereadAll_iff ns h [] []
  rw [List.append_nil, List.append_nil, and_iff_left rfl] at hiff
  rw [Html.render, Html.render, String.ofList_inj, hiff]

/-- **Static HTML renders to itself** where no element is void and all styles are steady, and only
    there.

    The source has no interpolation, no directive and no attribute for an event; apart from that it
    may be written in any way that the parser accepts. -/
theorem renders_itself_iff {source : String} (h : Static source) {ambient : Ambient}
    {t : Template} (ht : (Template.compile source ambient {}).run.result = .ok t)
    (scope : Scope) (ambient' : Ambient) (scope' : Scope) :
    (∃ t', (Template.compile (Html.render (t.expand scope).result) ambient' {}).run.result =
        .ok t' ∧
      Html.render (t'.expand scope').result = Html.render (t.expand scope).result) ↔
    VNode.EverywhereAll (fun e => e.tag ∉ voidElements ∧ e.style.Steady)
      (t.expand scope).result := by
  obtain ⟨forest, hforest⟩ := Template.parse_of_compile ht
  have hplain := h.plain forest hforest
  rw [h.parse_eq] at hforest
  -- The first rendering shows neat nodes, whatever the scope.
  obtain ⟨t₀, ht₀, hexpand⟩ := h.compile hforest ambient
  obtain rfl := Except.ok.inj (ht.symm.trans ht₀)
  have hneat := neatAll_still forest (tidyAll_of_parse h.unopened hforest) hplain
  rw [hexpand]
  show _ ↔ VNode.EverywhereAll (fun e => e.NotVoid ∧ e.style.Steady) _
  rw [VNode.everywhereAll_and, ← render_rereadAll_iff hneat]
  constructor
  · rintro ⟨t', ht', hsame⟩
    have hvoid := not_void_of_compile_render hneat ht'
    obtain ⟨t₁, ht₁, hshown⟩ := compile_render hneat hvoid ambient'
    obtain rfl := Except.ok.inj (ht'.symm.trans ht₁)
    exact ⟨hvoid, (hshown scope').symm.trans hsame⟩
  · rintro ⟨hvoid, hsame⟩
    obtain ⟨t', ht', hshown⟩ := compile_render hneat hvoid ambient'
    exact ⟨t', ht', (hshown scope').trans hsame⟩

/-- A tag with a capital that closes itself, values without quotes, a text on two lines, and an
    angle bracket that starts no tag. -/
theorem renders_itself_iff_unquoted :
    let html := "<b CLASS=\"a\" style=\"c: d\"></b>x&lt;"
    ∃ t t', (Template.compile "<B CLASS=a style=c:d/>x\n<" Ambient.standard {}).run.result = .ok t ∧
      Html.render (t.expand Scope.empty).result = html ∧
      (Template.compile html Ambient.standard {}).run.result = .ok t' ∧
      Html.render (t'.expand Scope.empty).result = html := by
  intro html
  have hparse : parse ({} : TemplateSyntax).delimiters "<B CLASS=a style=c:d/>x\n<" =
      .ok [.element "b" [("CLASS", "a"), ("style", "c:d")] [], .text "x\n", .text "<"] := by
    with_unfolding_all rfl
  have hstatic : Static "<B CLASS=a style=c:d/>x\n<" := by
    refine ⟨unopened_iff.mp (by decide), ?_⟩
    intro forest hforest
    obtain rfl := Except.ok.inj (hparse.symm.trans hforest)
    exact ⟨⟨by decide, trivial⟩, trivial, trivial, trivial⟩
  obtain ⟨t, ht, hexpand⟩ := hstatic.compile (hstatic.parse_eq ▸ hparse) Ambient.standard
  have hshown : Html.render (t.expand Scope.empty).result = html := by
    rw [hexpand]
    with_unfolding_all rfl
  have hsteady : VNode.EverywhereAll (fun e => e.tag ∉ voidElements ∧ e.style.Steady)
      (t.expand Scope.empty).result := by
    have hb : "b" ∉ voidElements := by decide
    have hc : (Style.parse "c:d").Steady := by decide
    rw [hexpand]
    exact ⟨⟨⟨hb, hc⟩, trivial⟩, trivial, trivial, trivial⟩
  obtain ⟨t', ht', hsame⟩ :=
    (renders_itself_iff hstatic ht Scope.empty Ambient.standard Scope.empty).mpr hsteady
  rw [hshown] at ht' hsame
  exact ⟨t, t', ht, hshown, ht', hsame⟩

/-- A void element is a template, and what it is rendered to is none. -/
theorem void_not_rendered_to_itself :
    Static "<br>" ∧ ∃ t, (Template.compile "<br>" Ambient.standard {}).run.result = .ok t ∧
      Html.render (t.expand Scope.empty).result = "<br></br>" ∧
      (Template.compile "<br></br>" Ambient.standard {}).run.result =
        .error (.unexpectedClose "br" 4) := by
  have hparse : parse ({} : TemplateSyntax).delimiters "<br>" = .ok [.element "br" [] []] := by
    with_unfolding_all rfl
  have hstatic : Static "<br>" := by
    refine ⟨unopened_iff.mp (by decide), ?_⟩
    intro forest hforest
    obtain rfl := Except.ok.inj (hparse.symm.trans hforest)
    exact ⟨⟨by simp, trivial⟩, trivial⟩
  obtain ⟨t, ht, hexpand⟩ := hstatic.compile (hstatic.parse_eq ▸ hparse) Ambient.standard
  refine ⟨hstatic, t, ht, ?_, by with_unfolding_all rfl⟩
  rw [hexpand]
  with_unfolding_all rfl

/-- The quote that stood last has moved to the front, where it takes in what follows. -/
example : ¬ (Style.parse "b:1;a:'u;v';b:'").Steady := by decide

end ReactiveView
