import ReactiveView.Proofs.Style.RoundTrip
import ReactiveView.Proofs.Template.Static

/-! # What static templates show

  The virtual nodes of a static template are written so that they can be read
  again. Here is what that takes: names that are names, no blank texts, all
  texts on one line, and nowhere two braces side by side.

  * `Neat`, `NeatAll`: these conditions on virtual nodes.
  * `neatAll_still`: the nodes of a static template meet them.
  * `unopened_nodes`: no interpolation opens in what they are written as.
-/

namespace ReactiveView

open Text Markup

/-! ## §1. Styles that are read -/

namespace Style

/-- What is read from a text is part of it. -/
theorem infix_of_mem_parse {text : String} {a : String × String}
    (h : a ∈ (parse text).entries) : a.1.toList <:+: text.toList ∧ a.2.toList <:+: text.toList := by
  rcases Entries.mem_of_mem_insertAll h with h | h
  · cases h
  · obtain ⟨d, hd, ha⟩ := List.mem_filterMap.mp h
    have hd : d <:+: text.toList := (splits_splitDeclarations .outside text.toList).isInfix d hd
    obtain ⟨p, v, rfl, -, -, rfl⟩ := declaration?_eq_some_iff.mp ha
    have hproperty : p <:+: p ++ ':' :: v := (List.prefix_append p _).isInfix
    have hvalue : v <:+: p ++ ':' :: v :=
      ((List.suffix_cons ':' v).trans (List.suffix_append p _)).isInfix
    rw [String.toList_ofList, String.toList_ofList]
    exact ⟨(isInfix_trim p).trans (hproperty.trans hd), (isInfix_trim v).trans (hvalue.trans hd)⟩

/-- Where no interpolation opens in the declarations, none opens in the text of the style. -/
theorem unopened_text {style : Style} {t : String}
    (h : ∀ a ∈ style.entries, Unopened a.1.toList ∧ Unopened a.2.toList)
    (ht : style.text? = some t) : Unopened t.toList := by
  have htext : t.toList = writtenAll style.entries := by rw [← toList_text, ht, Option.getD_some]
  rw [htext]
  refine Unopened.intercalate (by decide) (by decide) ?_
  intro l hl
  obtain ⟨a, ha, rfl⟩ := List.mem_map.mp hl
  show Unopened (a.1.toList ++ ([':', ' '] ++ a.2.toList))
  exact (unopened_between_iff (by decide) (by decide)).mpr (h a ha)

end Style

/-! ## §2. Neat elements -/

/-- What a static template makes of the attributes of an element. -/
structure NeatShell (e : Shell) : Prop where
  /-- The tag is one that may be read. -/
  tag : LegalTag e.tag
  /-- So are the attributes without a place of their own, and they are plain. -/
  attrs : ∀ a ∈ e.attrs.entries, LegalAttr a ∧ PlainName a.1 ∧ a.1 ≠ "class" ∧ a.1 ≠ "style"
  /-- A class is not blank. -/
  className : ∀ c, e.className = some c → isBlankText c.toList = false ∧ Unopened c.toList
  /-- No interpolation opens in the style. -/
  style : ∀ a ∈ e.style.entries, Unopened a.1.toList ∧ Unopened a.2.toList

namespace NeatShell

variable {e : Shell} {name value : String}

theorem addClass (h : NeatShell e) (hvalue : Unopened value.toList) :
    NeatShell (e.addClass value) := by
  unfold Shell.addClass
  split
  · exact h
  · next hblank =>
    have hnew : isBlankText value.toList = false ∧ Unopened value.toList :=
      ⟨by simpa using hblank, hvalue⟩
    refine ⟨h.tag, h.attrs, ?_, h.style⟩
    intro c hc
    obtain rfl := Option.some.inj hc
    cases hclass : e.className with
    | none => exact hnew
    | some existing =>
      simp only
      split
      · exact hnew
      · -- The classes are joined with a blank.
        obtain ⟨hfirst, hopened⟩ := h.className existing hclass
        rw [String.toList_append, String.toList_append]
        refine ⟨?_, ?_⟩
        · rw [List.append_assoc]
          exact isBlankText_append hfirst _
        · rw [List.append_assoc]
          exact (unopened_between_iff (by decide) (by decide)).mpr ⟨hopened, hvalue⟩

theorem addStyle (h : NeatShell e) (hvalue : Unopened value.toList) :
    NeatShell (e.addStyle value) := by
  refine ⟨h.tag, h.attrs, h.className, ?_⟩
  intro a ha
  rcases Entries.mem_of_mem_insertAll ha with ha | ha
  · exact h.style a ha
  · obtain ⟨hproperty, hvalue'⟩ := Style.infix_of_mem_parse ha
    exact ⟨hvalue.of_isInfix hproperty, hvalue.of_isInfix hvalue'⟩

theorem setAttr (h : NeatShell e) (ha : LegalAttr (name, value)) (hplain : PlainName name) :
    NeatShell (e.setAttr name value) := by
  unfold Shell.setAttr
  split
  · exact h.addClass ha.unopened_value
  · next hclass =>
    split
    · exact h.addStyle ha.unopened_value
    · next hstyle =>
      refine ⟨h.tag, ?_, h.className, h.style⟩
      intro a hmem
      rcases Entries.mem_of_mem_insert hmem with rfl | hmem
      · exact ⟨ha, hplain, hclass, hstyle⟩
      · exact h.attrs a hmem

theorem setAll {attrs : List (String × String)} (h : NeatShell e)
    (hattrs : ∀ a ∈ attrs, LegalAttr a) (hplain : ∀ a ∈ attrs, PlainName a.1) :
    NeatShell (e.setAll attrs) := by
  induction attrs generalizing e with
  | nil => exact h
  | cons a attrs ih =>
    have hstep := h.setAttr (hattrs a List.mem_cons_self) (hplain a List.mem_cons_self)
    exact ih hstep (fun b hb => hattrs b (List.mem_cons_of_mem a hb))
      fun b hb => hplain b (List.mem_cons_of_mem a hb)

end NeatShell

/-! ## §3. Neat nodes -/

/-- Whether two nodes may stand side by side: a text after a text begins with an angle bracket. -/
def VNode.Beside : VNode → VNode → Prop
  | .text _, .text t => t.toList.head? = some '<'
  | _, _ => True

mutual

/-- A node that a static template shows. -/
def Neat : VNode → Prop
  | .text s => isBlankText s.toList = false ∧ Unopened s.toList ∧ '\n' ∉ s.toList
  | .comment s => LegalComment s
  | .element e children => NeatShell e ∧ NeatAll children

/-- Nodes that a static template shows, one after the other. -/
def NeatAll : List VNode → Prop
  | [] => True
  | n :: ns => Neat n ∧ (∀ m ∈ ns.head?, n.Beside m) ∧ NeatAll ns

end

/-- What stands side by side in markup still does on one line each. -/
theorem beside_still {m n : MarkupNode} (h : Markup.Beside m n) : (still m).Beside (still n) := by
  cases m with
  | element => trivial
  | comment => trivial
  | text s =>
    cases n with
    | element => trivial
    | comment => trivial
    | text t =>
      obtain ⟨r, hr⟩ := List.head?_eq_some_iff.mp h
      show (String.ofList (joinLines t.toList)).toList.head? = some '<'
      rw [String.toList_ofList, hr]
      exact head?_joinLines (by decide) r

mutual

theorem neat_still (n : MarkupNode) (htidy : Tidy n) (hplain : PlainMarkup n) : Neat (still n) := by
  match n, htidy, hplain with
  | .text s, htidy, _ =>
    obtain ⟨hblank, hopened⟩ := htidy
    show isBlankText (String.ofList _).toList = false ∧ _ ∧ _
    rw [String.toList_ofList]
    exact ⟨isBlankText_joinLines hblank, hopened.joinLines, newline_not_mem_joinLines _⟩
  | .comment s, htidy, _ => exact htidy
  | .element tag attrs children, htidy, hplain =>
    have hstart : NeatShell { tag := tag } :=
      ⟨htidy.1, fun a ha => (by cases ha), fun c hc => (by cases hc), fun a ha => (by cases ha)⟩
    exact ⟨hstart.setAll htidy.2.1 hplain.1, neatAll_still children htidy.2.2 hplain.2⟩

/-- **What a static template shows** is neat. -/
theorem neatAll_still (ns : List MarkupNode) (htidy : TidyAll ns) (hplain : PlainMarkupAll ns) :
    NeatAll (stillAll ns) := by
  match ns, htidy, hplain with
  | [], _, _ => trivial
  | [n], htidy, hplain => exact ⟨neat_still n htidy.1 hplain.1, by simp [stillAll], trivial⟩
  | n :: m :: ns, htidy, hplain =>
    refine ⟨neat_still n htidy.1 hplain.1, ?_, neatAll_still (m :: ns) htidy.2.2 hplain.2⟩
    intro m' hm'
    obtain rfl : still m = m' := by simpa [stillAll] using hm'
    exact beside_still (htidy.2.1 m rfl)

end

/-! ## §4. What they are written as -/

/-- Escapes put no braces together. -/
theorem unopened_flatMap {f : Char → List Char}
    (hf : ∀ c, f c = [c] ∨ f c ≠ [] ∧ '{' ∉ f c) {s : List Char} (h : Unopened s) :
    Unopened (s.flatMap f) := by
  induction s with
  | nil => exact unopened_nil
  | cons c s ih =>
    obtain ⟨hhead, htail⟩ := List.isChain_cons.mp h
    rw [List.flatMap_cons]
    rcases hf c with hself | ⟨hne, hbrace⟩
    · -- A character that stands for itself may be a brace.
      rw [hself, List.singleton_append]
      refine List.isChain_cons.mpr ⟨?_, ih htail⟩
      intro d hd hc hd'
      subst hc hd'
      -- A brace at the front of what follows was there before.
      cases s with
      | nil => cases hd
      | cons b s =>
        have hb : b ≠ '{' := hhead b rfl rfl
        rw [List.flatMap_cons, List.head?_append] at hd
        rcases hf b with hb' | ⟨hne, hbrace⟩
        · rw [hb'] at hd
          exact hb (Option.some.inj hd)
        · obtain ⟨d, r, hdr⟩ := List.exists_cons_of_ne_nil hne
          rw [hdr] at hd hbrace
          exact hbrace (by rw [← Option.some.inj hd]; exact List.mem_cons_self)
    · exact (unopened_between_iff (s := []) hne hbrace).mpr ⟨unopened_nil, ih htail⟩

theorem escapeChar_cases (c : Char) :
    Html.escapeChar c = [c] ∨ Html.escapeChar c ≠ [] ∧ '{' ∉ Html.escapeChar c := by
  unfold Html.escapeChar
  split <;> simp

theorem escapeQuotedChar_cases (c : Char) :
    Html.escapeQuotedChar c = [c] ∨
      Html.escapeQuotedChar c ≠ [] ∧ '{' ∉ Html.escapeQuotedChar c := by
  unfold Html.escapeQuotedChar
  split
  · exact .inr ⟨by simp, by simp⟩
  · exact escapeChar_cases _

theorem unopened_writtenAttrs {as : List (String × String)}
    (h : ∀ a ∈ as, Unopened a.1.toList ∧ Unopened a.2.toList) {rest : List Char}
    (hrest : Unopened rest) : Unopened (as.flatMap Html.writtenAttr ++ '>' :: rest) := by
  induction as with
  | nil => exact (unopened_cons_iff (by decide)).mpr hrest
  | cons a as ih =>
    obtain ⟨hkey, hvalue⟩ := h a List.mem_cons_self
    have hlater := ih fun b hb => h b (List.mem_cons_of_mem a hb)
    have hescaped : Unopened (Html.escapeQuoted a.2) :=
      unopened_flatMap escapeQuotedChar_cases hvalue
    have hsource : (a :: as).flatMap Html.writtenAttr ++ '>' :: rest =
        ' ' :: (a.1.toList ++ (['=', '"'] ++ (Html.escapeQuoted a.2 ++
          '"' :: (as.flatMap Html.writtenAttr ++ '>' :: rest)))) := by
      simp [Html.writtenAttr]
    rw [hsource, unopened_cons_iff (by decide), unopened_between_iff (by simp) (by simp),
      unopened_append_cons_iff (by decide)]
    exact ⟨hkey, hescaped, hlater⟩

theorem NeatShell.unopened_attrs {e : Shell} (h : NeatShell e) :
    ∀ a ∈ attrsOf e, Unopened a.1.toList ∧ Unopened a.2.toList := by
  intro a ha
  rcases List.mem_append.mp ha with ha | hstyle
  · rcases List.mem_append.mp ha with hplain | hclass
    · obtain ⟨hlegal, -⟩ := h.attrs a hplain
      exact ⟨hlegal.unopened_key, hlegal.unopened_value⟩
    · obtain ⟨c, hc, rfl⟩ := Option.map_eq_some_iff.mp (Option.mem_toList.mp hclass)
      have hname : Unopened "class".toList := by decide
      exact ⟨hname, (h.className c hc).2⟩
  · obtain ⟨t, ht, rfl⟩ := Option.map_eq_some_iff.mp (Option.mem_toList.mp hstyle)
    have hname : Unopened "style".toList := by decide
    exact ⟨hname, Style.unopened_text h.style ht⟩

/-- What is written behind a text does not begin with a brace. -/
theorem nodes_after_text {s : String} {ns : List VNode} (h : NeatAll (.text s :: ns)) :
    Html.nodes ns = [] ∨ ∃ c r, Html.nodes ns = c :: r ∧ c ≠ '{' := by
  obtain ⟨-, hbeside, -⟩ := h
  match ns, hbeside with
  | [], _ => exact .inl rfl
  | .comment t :: ns, _ => exact .inr ⟨'<', _, rfl, by decide⟩
  | .element e children :: ns, _ => exact .inr ⟨'<', _, rfl, by decide⟩
  | .text t :: ns, hbeside =>
    obtain ⟨r, hr⟩ := List.head?_eq_some_iff.mp (hbeside (.text t) rfl)
    have hwritten : Html.nodes (.text t :: ns) =
        '&' :: (['l', 't', ';'] ++ r.flatMap Html.escapeChar ++ Html.nodes ns) := by
      show Html.escape t ++ Html.nodes ns = _
      rw [Html.escape, hr]
      rfl
    exact .inr ⟨'&', _, hwritten, by decide⟩

mutual

theorem unopened_element (e : Shell) (children : List VNode) (h : Neat (.element e children))
    {rest : List Char} (hrest : Unopened rest) :
    Unopened (Html.node (.element e children) ++ rest) := by
  obtain ⟨hshell, hchildren⟩ := h
  have hstop : Unopened (e.tag.toList ++ '>' :: rest) :=
    (unopened_append_cons_iff (by decide)).mpr ⟨hshell.tag.unopened, hrest⟩
  have hinside : Unopened (Html.nodes children ++ '<' :: '/' :: (e.tag.toList ++ '>' :: rest)) :=
    (unopened_between_iff (p := ['<', '/']) (by simp) (by simp)).mpr
      ⟨unopened_nodes children hchildren, hstop⟩
  have hattrs := unopened_writtenAttrs hshell.unopened_attrs hinside
  obtain ⟨c, r, hcr, hc⟩ := endsName_head_attrs (attrsOf e)
    (Html.nodes children ++ '<' :: '/' :: (e.tag.toList ++ '>' :: rest))
  have hbrace : c ≠ '{' := by
    rintro rfl
    exact absurd hc (by decide)
  rw [node_element_append, unopened_cons_iff (by decide)]
  rw [hcr] at hattrs ⊢
  rw [unopened_cons_iff hbrace] at hattrs
  exact (unopened_append_cons_iff hbrace).mpr ⟨hshell.tag.unopened, hattrs⟩

/-- **No interpolation opens** in what neat nodes are written as. -/
theorem unopened_nodes (ns : List VNode) (h : NeatAll ns) : Unopened (Html.nodes ns) := by
  match ns, h with
  | [], _ => exact unopened_nil
  | .text s :: ns, h =>
    have hescaped : Unopened (Html.escape s) := unopened_flatMap escapeChar_cases h.1.2.1
    have hlater := unopened_nodes ns h.2.2
    show Unopened (Html.escape s ++ Html.nodes ns)
    rcases nodes_after_text h with hnil | ⟨c, r, hcr, hc⟩
    · rw [hnil, List.append_nil]
      exact hescaped
    · rw [hcr] at hlater ⊢
      exact (unopened_append_cons_iff hc).mpr ⟨hescaped, (unopened_cons_iff hc).mp hlater⟩
  | .comment s :: ns, h =>
    have hlater := unopened_nodes ns h.2.2
    have hsource : Html.nodes (.comment s :: ns) =
        ['<', '!', '-', '-'] ++ (s.toList ++ (['-', '-', '>'] ++ Html.nodes ns)) := by
      simp [Html.nodes, Html.node, Html.comment]
    rw [hsource, ← List.nil_append (['<', '!', '-', '-'] ++ _),
      unopened_between_iff (by simp) (by simp), unopened_between_iff (by simp) (by simp)]
    exact ⟨unopened_nil, h.1.unopened, hlater⟩
  | .element e children :: ns, h =>
    exact unopened_element e children h.1 (unopened_nodes ns h.2.2)

end

end ReactiveView
