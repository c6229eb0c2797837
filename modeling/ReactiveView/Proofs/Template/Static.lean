import ReactiveView.Proofs.Markup.Lenient
import ReactiveView.Proofs.Template.Unrolling

/-! # Templates without directives

  A template that has no directives and no interpolations expands to the same
  virtual nodes in every scope: texts on one line, and elements with the
  attributes that are written, `class` and `style` in their places.

  * `PlainMarkup`, `PlainMarkupAll`: markup without directives.
  * `still`, `stillAll`: the virtual nodes that it stands for.
  * `compileNodes_plain`: it compiles, and its expansion depends on nothing.
  * `Static`: a source without interpolations and directives.
-/

namespace ReactiveView

open Text Markup

/-! ## §1. Texts on one line -/

section lines

variable {c : Char} {s t : List Char}

/-- The lines of a text: the first begins it, and the others are parts of it. -/
theorem splitLines_spec (s : List Char) :
    ∃ l ls, splitLines s = l :: ls ∧ l <+: s ∧ (∀ m ∈ ls, m <:+: s) ∧
      (∀ m ∈ l :: ls, '\n' ∉ m) ∧ ∀ c ∈ s, c ≠ '\n' → ∃ m ∈ l :: ls, c ∈ m := by
  induction s with
  | nil => exact ⟨[], [], rfl, List.nil_prefix, by simp, by simp, by simp⟩
  | cons c s ih =>
    obtain ⟨l, ls, hsplit, hfirst, hothers, hbreaks, hall⟩ := ih
    have hs : s <:+: c :: s := (List.suffix_cons c s).isInfix
    rw [splitLines, hsplit]
    by_cases hc : c = '\n'
    · refine ⟨[], l :: ls, if_pos hc, List.nil_prefix, ?_, ?_, ?_⟩
      · intro m hm
        rcases List.mem_cons.mp hm with rfl | hm
        · exact hfirst.isInfix.trans hs
        · exact (hothers m hm).trans hs
      · intro m hm
        rcases List.mem_cons.mp hm with rfl | hm
        · simp
        · exact hbreaks m hm
      · intro d hd hne
        rcases List.mem_cons.mp hd with rfl | hd
        · exact absurd hc hne
        · obtain ⟨m, hm, hdm⟩ := hall d hd hne
          exact ⟨m, List.mem_cons_of_mem _ hm, hdm⟩
    · refine ⟨c :: l, ls, if_neg hc, (List.prefix_cons_inj c).mpr hfirst, ?_, ?_, ?_⟩
      · exact fun m hm => (hothers m hm).trans hs
      · intro m hm
        rcases List.mem_cons.mp hm with rfl | hm
        · intro hbreak
          rcases List.mem_cons.mp hbreak with he | hbreak
          · exact hc he.symm
          · exact hbreaks l List.mem_cons_self hbreak
        · exact hbreaks m (List.mem_cons_of_mem _ hm)
      · intro d hd hne
        rcases List.mem_cons.mp hd with rfl | hd
        · exact ⟨d :: l, List.mem_cons_self, List.mem_cons_self⟩
        · obtain ⟨m, hm, hdm⟩ := hall d hd hne
          rcases List.mem_cons.mp hm with rfl | hm
          · exact ⟨c :: m, List.mem_cons_self, List.mem_cons_of_mem c hdm⟩
          · exact ⟨m, List.mem_cons_of_mem _ hm, hdm⟩

/-- What a line is joined from. -/
theorem mem_intercalate_iff {ls : List (List Char)} (hc : c ≠ ' ') :
    c ∈ [' '].intercalate ls ↔ ∃ l ∈ ls, c ∈ l := by
  induction ls with
  | nil => simp
  | cons l ls ih =>
    cases ls with
    | nil => simp
    | cons m ms => simp [List.intercalate_cons_cons, ih, hc]

/-- Text on one line has no line break. -/
theorem newline_not_mem_joinLines (s : List Char) : '\n' ∉ joinLines s := by
  unfold joinLines
  split
  · intro h
    obtain ⟨l, hl, hmem⟩ := (mem_intercalate_iff (by decide)).mp h
    obtain ⟨m, hm, rfl⟩ := List.mem_map.mp (List.mem_of_mem_filter hl)
    obtain ⟨l, ls, hsplit, -, -, hbreaks, -⟩ := splitLines_spec s
    exact hbreaks m (hsplit ▸ hm) ((isInfix_trim m).subset hmem)
  · next h => exact h

theorem joinLines_eq_self (h : '\n' ∉ s) : joinLines s = s := if_neg h

/-- Nothing but blanks is lost. -/
theorem mem_joinLines (hc : c ∈ s) (hblank : isBlank c = false) : c ∈ joinLines s := by
  unfold joinLines
  split
  · obtain ⟨l, ls, hsplit, -, -, -, hall⟩ := splitLines_spec s
    obtain ⟨m, hm, hcm⟩ := hall c hc (by rintro rfl; cases hblank)
    have htrim : c ∈ trim m := mem_trim hcm hblank
    refine (mem_intercalate_iff (by rintro rfl; cases hblank)).mpr ⟨trim m, ?_, htrim⟩
    refine List.mem_filter.mpr ⟨List.mem_map.mpr ⟨m, hsplit ▸ hm, rfl⟩, ?_⟩
    simpa using List.ne_nil_of_mem htrim
  · exact hc

theorem isBlankText_append (h : isBlankText s = false) (t : List Char) :
    isBlankText (s ++ t) = false := by
  unfold isBlankText at h ⊢
  rw [List.all_append, h, Bool.false_and]

theorem isBlankText_joinLines (h : isBlankText s = false) : isBlankText (joinLines s) = false := by
  obtain ⟨c, hc, hblank⟩ := List.all_eq_false.mp h
  exact List.all_eq_false.mpr ⟨c, mem_joinLines hc (by simpa using hblank), hblank⟩

theorem head?_joinLines (hblank : isBlank c = false) (s : List Char) :
    (joinLines (c :: s)).head? = some c := by
  unfold joinLines
  split
  · obtain ⟨l, ls, hsplit, hfirst, -, -, -⟩ := splitLines_spec s
    have hc : c ≠ '\n' := by
      rintro rfl
      cases hblank
    have hlines : splitLines (c :: s) = (c :: l) :: ls := by
      rw [splitLines, hsplit]
      exact if_neg hc
    have hhead := head?_trim hblank l
    obtain ⟨r, hr⟩ := List.head?_eq_some_iff.mp hhead
    have hkept : ((splitLines (c :: s)).map trim).filter (· != []) =
        (c :: r) :: (ls.map trim).filter (· != []) := by
      rw [hlines, List.map_cons, hr]
      exact List.filter_cons_of_pos (by rfl)
    rw [hkept]
    cases (ls.map trim).filter (· != []) with
    | nil => rw [List.intercalate_singleton, List.head?_cons]
    | cons m ms =>
      rw [List.intercalate_cons_cons]
      rfl
  · rfl

theorem Markup.Unopened.joinLines (h : Unopened s) : Unopened (joinLines s) := by
  unfold ReactiveView.joinLines
  split
  · refine Unopened.intercalate (by simp) (by simp) ?_
    intro l hl
    obtain ⟨m, hm, rfl⟩ := List.mem_map.mp (List.mem_of_mem_filter hl)
    obtain ⟨l, ls, hsplit, hfirst, hothers, -, -⟩ := splitLines_spec s
    rw [hsplit] at hm
    rcases List.mem_cons.mp hm with rfl | hm
    · exact h.of_isInfix ((isInfix_trim m).trans hfirst.isInfix)
    · exact h.of_isInfix ((isInfix_trim m).trans (hothers m hm))
  · exact h

end lines

/-! ## §2. Markup without directives -/

/-- The name of an attribute that is neither a directive nor bound to an event. -/
def PlainName (name : String) : Prop :=
  ¬ "dr:".toList <+: name.toList ∧ ¬ "on".toList <+: lowerAscii name.toList

instance (name : String) : Decidable (PlainName name) := inferInstanceAs (Decidable (_ ∧ _))

mutual

/-- A node without directives. -/
def PlainMarkup : MarkupNode → Prop
  | .element _ attrs children => (∀ a ∈ attrs, PlainName a.1) ∧ PlainMarkupAll children
  | .text _ => True
  | .comment _ => True

/-- Nodes without directives. -/
def PlainMarkupAll : List MarkupNode → Prop
  | [] => True
  | n :: ns => PlainMarkup n ∧ PlainMarkupAll ns

end

theorem PlainName.role_eq {name : String} (h : PlainName name) :
    ({} : TemplateSyntax).role name = .plain := by
  obtain ⟨hmarker, hon⟩ := h
  refine TemplateSyntax.role_eq_plain ?_ ?_
  · cases hd : ({} : TemplateSyntax).directive? name with
    | none => rfl
    | some d =>
      exact absurd ⟨d, (TemplateSyntax.directive?_eq_some_iff.mp hd).2.symm⟩ hmarker
  · unfold eventOf?
    split
    · next o n c s hname =>
      rw [hname] at hon
      refine if_neg ?_
      intro hcapitals
      obtain ⟨ho, hn⟩ : o.toLower = 'o' ∧ n.toLower = 'n' := by simpa using hcapitals
      refine hon ⟨lowerAscii (c :: s), ?_⟩
      show ['o', 'n'] ++ _ = o.toLower :: n.toLower :: lowerAscii (c :: s)
      rw [ho, hn]
      rfl
    · rfl

/-! ## §3. What it stands for -/

/-- Sets attributes in order. -/
def Shell.setAll (e : Shell) (attrs : List (String × String)) : Shell :=
  attrs.foldl (fun e a => e.setAttr a.1 a.2) e

mutual

/-- The virtual node that a node without directives stands for. -/
def still : MarkupNode → VNode
  | .text s => .text (String.ofList (joinLines s.toList))
  | .comment s => .comment s
  | .element tag attrs children =>
    .element (Shell.setAll { tag := tag } attrs) (stillAll children)

/-- The virtual nodes that nodes without directives stand for. -/
def stillAll : List MarkupNode → List VNode
  | [] => []
  | n :: ns => still n :: stillAll ns

end

/-- Plain attributes are kept as they are. -/
theorem ElementPlan.addAttrs_plain {s : TemplateSyntax} {p : ElementPlan}
    {attrs : List (String × String)} (h : ∀ a ∈ attrs, s.role a.1 = .plain) :
    (addAttrs s p attrs).run.result = .ok { p with attrs := p.attrs ++ attrs } := by
  induction attrs generalizing p with
  | nil => rw [List.append_nil]; rfl
  | cons a attrs ih =>
    rw [addAttrs, Compilation.result_bind, addAttr_plain (h a List.mem_cons_self)]
    show (addAttrs s { p with attrs := p.attrs ++ [a] } attrs).run.result = _
    rw [ih fun b hb => h b (List.mem_cons_of_mem a hb)]
    simp

/-- A text in which no interpolation opens is one piece. -/
theorem pieces_of_unopened {d : Delimiters} (hd : d.opening = ['{', '{']) {s : List Char}
    (h : Unopened s) : pieces d s = if s = [] then [] else [.literal s] := by
  rw [pieces, dif_neg (by simp [hd])]
  split
  · rfl
  · next before inside hsplit =>
    have hwhole := eq_append_of_splitFirst? hsplit
    rw [hd] at hwhole
    exact absurd ⟨before, inside, hwhole.symm⟩ (unopened_iff.mp h)

/-- A text in which no interpolation opens expands to itself, on one line. -/
theorem expand_text_of_unopened {d : Delimiters} (hd : d.opening = ['{', '{']) {text : String}
    (h : Unopened text.toList) (ambient : Ambient) (scope : Scope) :
    ((Compiled.text (compileText d text).result).expand ambient scope).result =
      [.text (String.ofList (joinLines text.toList))] := by
  have hpieces := pieces_of_unopened hd h.joinLines
  rw [Compiled.expand, Traced.result_bind, Traced.result_forEach, compileText,
    Traced.result_forEach, hpieces]
  split
  · next hnil => rw [hnil]; rfl
  · show [VNode.text (String.join [String.ofList (joinLines text.toList)])] = _
    exact congrArg (fun t => [VNode.text t]) (String.empty_append)

mutual

/-- A node without directives compiles, and its expansion depends on nothing. -/
theorem compileNode_plain (n : MarkupNode) (htidy : Tidy n) (hplain : PlainMarkup n) :
    ∃ c, (compileNode {} n).run.result = .ok c ∧
      ∀ ambient scope, (c.expand ambient scope).result = [still n] := by
  match n, htidy, hplain with
  | .text s, htidy, _ =>
    exact ⟨_, rfl, expand_text_of_unopened rfl htidy.2⟩
  | .comment s, _, _ => exact ⟨.comment s, rfl, fun _ _ => rfl⟩
  | .element tag attrs children, htidy, hplain =>
    obtain ⟨cs, hcs, hchildren⟩ := compileNodes_plain children htidy.2.2 hplain.2
    have hplan := ElementPlan.addAttrs_plain (s := {}) (p := { tag := tag })
      fun a ha => (hplain.1 a ha).role_eq
    refine ⟨_, compileNode_element hplan hcs, ?_⟩
    intro ambient scope
    have hshell : (ElementPlan.expand ambient scope { tag := tag, attrs := attrs }).result =
        Shell.setAll { tag := tag } attrs := rfl
    rw [Compiled.expand]
    show [VNode.element (ElementPlan.expand ambient scope { tag := tag, attrs := attrs }).result
      (Compiled.expandAll ambient scope cs).result] = _
    rw [hshell, hchildren, still]

/-- **Markup without directives** compiles, and its expansion depends on nothing. -/
theorem compileNodes_plain (ns : List MarkupNode) (htidy : TidyAll ns)
    (hplain : PlainMarkupAll ns) :
    ∃ cs, (compileNodes {} ns).run.result = .ok cs ∧
      ∀ ambient scope, (Compiled.expandAll ambient scope cs).result = stillAll ns := by
  match ns, htidy, hplain with
  | [], _, _ => exact ⟨[], rfl, fun _ _ => rfl⟩
  | n :: ns, htidy, hplain =>
    obtain ⟨c, hc, hexpand⟩ := compileNode_plain n htidy.1 hplain.1
    obtain ⟨cs, hcs, hexpandAll⟩ := compileNodes_plain ns htidy.2.2 hplain.2
    refine ⟨c :: cs, ?_, ?_⟩
    · rw [compileNodes, Compilation.result_bind, hc]
      show (compileNodes {} ns >>= _).run.result = _
      rw [Compilation.result_bind, hcs]
      rfl
    · intro ambient scope
      rw [Compiled.expandAll, Traced.result_bind, Traced.result_bind, hexpand, hexpandAll]
      rfl

end

/-! ## §4. Static templates -/

/-- What compiles is well-formed markup. -/
theorem Template.parse_of_compile {source : String} {ambient : Ambient} {s : TemplateSyntax}
    {t : Template} (h : (Template.compile source ambient s).run.result = .ok t) :
    ∃ forest, parse s.delimiters source = .ok forest := by
  unfold Template.compile at h
  split at h
  · cases h
  · next forest hforest => exact ⟨forest, hforest⟩

/-- A source without interpolations and directives. -/
structure Static (source : String) : Prop where
  /-- No interpolation opens in it. -/
  no_interpolation : ¬ "\x7b\x7b".toList <:+: source.toList
  /-- No attribute is a directive or bound to an event. -/
  plain : ∀ forest, parse ({} : TemplateSyntax).delimiters source = .ok forest →
    PlainMarkupAll forest

namespace Static

variable {source : String}

theorem unopened (h : Static source) : Unopened source.toList := unopened_iff.mpr h.no_interpolation

theorem parse_eq (h : Static source) :
    parse ({} : TemplateSyntax).delimiters source = parse .none source :=
  parse_eq_none rfl h.unopened

/-- **A static template** is compiled if it is well-formed markup, and its expansion depends on
    nothing. -/
theorem compile (h : Static source) {forest : List MarkupNode}
    (hforest : parse .none source = .ok forest) (ambient : Ambient) :
    ∃ t, (Template.compile source ambient {}).run.result = .ok t ∧
      ∀ scope, (t.expand scope).result = stillAll forest := by
  have hparse : parse ({} : TemplateSyntax).delimiters source = .ok forest :=
    h.parse_eq.trans hforest
  obtain ⟨cs, hcs, hexpand⟩ :=
    compileNodes_plain forest (tidyAll_of_parse h.unopened hforest) (h.plain forest hparse)
  refine ⟨⟨cs, ambient, {}⟩, ?_, hexpand ambient⟩
  rw [Template.compile, hparse]
  show (compileNodes {} forest >>= _).run.result = _
  rw [Compilation.result_bind, hcs]
  rfl

end Static

end ReactiveView
