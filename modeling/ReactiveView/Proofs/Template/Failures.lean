import ReactiveView.Proofs.Template.Attributes
import ReactiveView.Proofs.Template.LoopGrammar

/-! # What keeps a template from being compiled

  A template is refused for its markup, or for the text of a loop; an expression
  that cannot be parsed is left as it is written. What is compiled can be
  expanded in every scope, and then has the shape of the markup.

  * `MarkupNode.loopTexts`: the texts of loops, elements in front of their children.
  * `outcome_compileNode`: compiling a node fails like checking these texts.
  * `MarkupNode.Shows`: virtual nodes in the shape of markup.
  * `template_compile_iff`: the errors of a compilation, and what it leads to.
-/

namespace ReactiveView

open Text

variable {s : TemplateSyntax} {p : ElementPlan} {e : TemplateError}

/-! ## §1. The texts of loops -/

/-- The texts of the loops among attributes: the prefix, if there is one, and `for`. -/
def attrLoopTexts (s : TemplateSyntax) (attrs : List (String × String)) : List String :=
  (attrs.filter fun a => s.marker ≠ "" ∧ a.1 = s.marker ++ "for").map (·.2)

mutual

/-- The texts of the loops in a node, those of an element in front of those of its children. -/
def MarkupNode.loopTexts (s : TemplateSyntax) : MarkupNode → List String
  | .element _ attrs children => attrLoopTexts s attrs ++ loopTextsAll s children
  | .text _ => []
  | .comment _ => []

/-- The texts of the loops in nodes, in their order. -/
def MarkupNode.loopTextsAll (s : TemplateSyntax) : List MarkupNode → List String
  | [] => []
  | n :: ns => n.loopTexts s ++ loopTextsAll s ns

end

/-- A text splits at its first word `in` into what a loop binds and what it runs over. -/
def IsLoop (s : List Char) : Prop :=
  ∃ vars item position collection, LoopText s vars item position collection ∧
    ∀ vars' collection', Keyword none s vars' collection' → vars.length ≤ vars'.length

/-- The first of the texts that is refused as a loop is refused with this error. -/
def FirstRefused (texts : List String) (e : TemplateError) : Prop :=
  ∃ before text after, texts = before ++ text :: after ∧
    (∀ t ∈ before, ∃ loop, (Loop.compile t).run.result = .ok loop) ∧
    (Loop.compile text).run.result = .error e

/-- Whether a text is refused is a matter of the grammar of loops and not of the expression. -/
theorem Loop.compile_eq_error_iff {source : String} :
    (Loop.compile source).run.result = .error e ↔
      ¬ IsLoop source.toList ∧ e = .invalidLoop source := by
  constructor
  · intro h
    refine ⟨?_, eq_invalidLoop_of_compile h⟩
    rintro ⟨vars, item, position, collection, htext, hfirst⟩
    have hok := (@compile_eq_ok_iff source ⟨item, position, .ofSource collection⟩).mpr
      ⟨vars, collection, htext, hfirst, rfl⟩
    rw [h] at hok
    cases hok
  · rintro ⟨hloop, rfl⟩
    cases hresult : (Loop.compile source).run.result with
    | error e => rw [eq_invalidLoop_of_compile hresult]
    | ok loop =>
      obtain ⟨vars, collection, htext, hfirst, -⟩ := compile_eq_ok_iff.mp hresult
      exact absurd ⟨vars, _, _, collection, htext, hfirst⟩ hloop

/-! ## §2. Outcomes -/

/-- Whether a compilation fails, and how. -/
def Compilation.outcome {α : Type} (t : Compilation α) : Except TemplateError Unit :=
  t.run.result.map fun _ => ()

/-- Checks texts of loops in order, up to the first that is refused. -/
def checkLoops (texts : List String) : Except TemplateError Unit :=
  texts.forM fun text => (Loop.compile text).outcome

theorem Compilation.outcome_bind {α β : Type} (t : Compilation α) {f : α → Compilation β}
    {o : Except TemplateError Unit} (h : ∀ a, (f a).outcome = o) :
    (t >>= f).outcome = t.outcome >>= fun _ => o := by
  unfold outcome at h ⊢
  rw [result_bind]
  cases t.run.result with
  | error e => rfl
  | ok a => exact h a

theorem Compilation.outcome_return {α β : Type} (t : Compilation α) (f : α → β) :
    (do return f (← t) : Compilation β).outcome = t.outcome := by
  unfold outcome
  rw [result_bind]
  cases t.run.result <;> rfl

theorem Compilation.outcome_eq_error_iff {α : Type} {t : Compilation α} :
    t.outcome = .error e ↔ t.run.result = .error e := by
  unfold outcome
  cases t.run.result with
  | error e' =>
    exact ⟨fun h => congrArg _ (Except.error.inj h), fun h => congrArg _ (Except.error.inj h)⟩
  | ok a => exact ⟨fun h => (by cases h), fun h => (by cases h)⟩

theorem toOption_eq_some_iff {ε α : Type} {r : Except ε α} {a : α} :
    r.toOption = some a ↔ r = .ok a := by
  cases r <;> simp [Except.toOption]

theorem Compilation.outcome_eq_ok_iff {α : Type} {t : Compilation α} :
    t.outcome = .ok () ↔ ∃ a, t.run.result = .ok a :=
  map_eq_ok_iff.trans (exists_congr fun _ => and_iff_left rfl)

theorem checkLoops_cons (text : String) (texts : List String) :
    checkLoops (text :: texts) = (Loop.compile text).outcome >>= fun _ => checkLoops texts := rfl

theorem checkLoops_singleton (text : String) : checkLoops [text] = (Loop.compile text).outcome := by
  rw [checkLoops_cons]
  cases (Loop.compile text).outcome <;> rfl

theorem checkLoops_append (texts texts' : List String) :
    checkLoops (texts ++ texts') = checkLoops texts >>= fun _ => checkLoops texts' :=
  List.forM_append

theorem not_firstRefused_nil : ¬ FirstRefused [] e := by
  rintro ⟨before, text, after, h, -⟩
  simp at h

/-- Of several texts the first is refused, or it is a loop and another one is refused. -/
theorem firstRefused_cons_iff {text : String} {texts : List String} :
    FirstRefused (text :: texts) e ↔
      (Loop.compile text).run.result = .error e ∨
        (∃ loop, (Loop.compile text).run.result = .ok loop) ∧ FirstRefused texts e := by
  constructor
  · rintro ⟨before, text', after, htexts, hbefore, herror⟩
    cases before with
    | nil =>
      obtain ⟨rfl, rfl⟩ := List.cons.inj htexts
      exact .inl herror
    | cons t before =>
      obtain ⟨rfl, rfl⟩ := List.cons.inj htexts
      exact .inr ⟨hbefore _ List.mem_cons_self, before, text', after, rfl,
        fun t ht => hbefore t (List.mem_cons_of_mem _ ht), herror⟩
  · rintro (herror | ⟨hok, before, text', after, rfl, hbefore, herror⟩)
    · exact ⟨[], text, texts, rfl, nofun, herror⟩
    · exact ⟨text :: before, text', after, rfl, List.forall_mem_cons.mpr ⟨hok, hbefore⟩, herror⟩

/-- The check fails at the first text that is refused. -/
theorem checkLoops_eq_error_iff {texts : List String} :
    checkLoops texts = .error e ↔ FirstRefused texts e := by
  induction texts with
  | nil => exact ⟨fun h => (by cases h), fun h => absurd h not_firstRefused_nil⟩
  | cons text texts ih =>
    rw [checkLoops_cons, firstRefused_cons_iff, ← ih, Compilation.outcome]
    cases (Loop.compile text).run.result with
    | error e' =>
      show Except.error e' = Except.error e ↔ _
      simp
    | ok loop =>
      show checkLoops texts = .error e ↔ _
      simp

/-! ## §3. Failures of compilations -/

/-- Of all attributes only loops can fail. -/
theorem ElementPlan.outcome_addAttr (p : ElementPlan) (a : String × String) :
    (p.addAttr s a).outcome = checkLoops (attrLoopTexts s [a]) := by
  obtain ⟨name, source⟩ := a
  by_cases hloop : s.role name = .loop
  · have hname := TemplateSyntax.role_eq_loop_iff.mp hloop
    have htexts : attrLoopTexts s [(name, source)] = [source] := by simp [attrLoopTexts, hname]
    rw [Compilation.outcome, addAttr_loop hloop, htexts, checkLoops_singleton, Compilation.outcome]
    cases (Loop.compile source).run.result <;> rfl
  · have htexts : attrLoopTexts s [(name, source)] = [] := by
      have hname := TemplateSyntax.role_eq_loop_iff.not.mp hloop
      simp [attrLoopTexts, hname]
    rw [htexts]
    unfold Compilation.outcome addAttr
    simp only
    cases hrole : s.role name with
    | loop => exact absurd hrole hloop
    | _ => rfl

theorem attrLoopTexts_cons (a : String × String) (attrs : List (String × String)) :
    attrLoopTexts s (a :: attrs) = attrLoopTexts s [a] ++ attrLoopTexts s attrs := by
  rw [attrLoopTexts, attrLoopTexts, attrLoopTexts, ← List.map_append, ← List.filter_append]
  rfl

theorem ElementPlan.outcome_addAttrs (p : ElementPlan) (attrs : List (String × String)) :
    (addAttrs s p attrs).outcome = checkLoops (attrLoopTexts s attrs) := by
  induction attrs generalizing p with
  | nil => rfl
  | cons a attrs ih =>
    rw [addAttrs, Compilation.outcome_bind _ ih, outcome_addAttr, attrLoopTexts_cons a attrs,
      checkLoops_append]

mutual

/-- **Compiling a node** fails like checking the texts of its loops. -/
theorem outcome_compileNode (n : MarkupNode) :
    (compileNode s n).outcome = checkLoops (n.loopTexts s) := by
  match n with
  | .element tag attrs children =>
    have hchildren : ∀ plan : ElementPlan,
        (do
          let cs ← compileNodes s children
          return .element plan cs : Compilation Compiled).outcome =
            checkLoops (MarkupNode.loopTextsAll s children) := by
      intro plan
      exact (Compilation.outcome_return _ _).trans (outcome_compileNodes children)
    rw [compileNode, Compilation.outcome_bind _ hchildren, ElementPlan.outcome_addAttrs,
      MarkupNode.loopTexts, checkLoops_append]
  | .text text => rfl
  | .comment text => rfl

/-- **Compiling nodes** fails like checking the texts of their loops. -/
theorem outcome_compileNodes (ns : List MarkupNode) :
    (compileNodes s ns).outcome = checkLoops (MarkupNode.loopTextsAll s ns) := by
  match ns with
  | [] => rfl
  | n :: ns =>
    have hrest : ∀ c : Compiled,
        (do
          let cs ← compileNodes s ns
          return c :: cs : Compilation (List Compiled)).outcome =
            checkLoops (MarkupNode.loopTextsAll s ns) := by
      intro c
      exact (Compilation.outcome_return _ _).trans (outcome_compileNodes ns)
    rw [compileNodes, Compilation.outcome_bind _ hrest, outcome_compileNode n,
      MarkupNode.loopTextsAll, checkLoops_append]

end

/-- **A template** is refused for its markup, or for the first loop that is refused. -/
theorem Template.compile_eq_error_iff {source : String} {ambient : Ambient} :
    (Template.compile source ambient s).run.result = .error e ↔
      Markup.parse s.delimiters source = .error e ∨
        ∃ forest, Markup.parse s.delimiters source = .ok forest ∧
          FirstRefused (MarkupNode.loopTextsAll s forest) e := by
  rw [← Compilation.outcome_eq_error_iff, Template.compile]
  cases Markup.parse s.delimiters source with
  | error e' =>
    show Except.error e' = .error e ↔ _
    simp
  | ok forest =>
    have houtcome : (do
        let nodes ← compileNodes s forest
        return ⟨nodes, ambient, s⟩ : Compilation Template).outcome =
          checkLoops (MarkupNode.loopTextsAll s forest) :=
      (Compilation.outcome_return _ _).trans (outcome_compileNodes forest)
    show Compilation.outcome _ = _ ↔ _
    rw [houtcome, checkLoops_eq_error_iff]
    simp

/-! ## §4. Shapes -/

mutual

/-- Virtual nodes in the shape of a node. An element without a loop stands for one element, and an
    element with a loop for any number of them. -/
def MarkupNode.Shows (s : TemplateSyntax) : MarkupNode → List VNode → Prop
  | .element tag attrs children, ns =>
    (attrLoopTexts s attrs = [] → ns.length = 1) ∧
      ∀ n ∈ ns, ∃ e cs, n = .element e cs ∧ e.tag = tag ∧ ShowsAll s children cs
  | .text _, ns => ∃ shown, ns = [.text shown]
  | .comment body, ns => ns = [.comment body]

/-- Virtual nodes in the shape of nodes, one after the other. -/
def MarkupNode.ShowsAll (s : TemplateSyntax) : List MarkupNode → List VNode → Prop
  | [], ns => ns = []
  | m :: ms, ns => ∃ first rest, ns = first ++ rest ∧ m.Shows s first ∧ ShowsAll s ms rest

end

theorem role_ne_loop_of_attrLoopTexts {attrs : List (String × String)}
    (h : attrLoopTexts s attrs = []) : ∀ a ∈ attrs, s.role a.1 ≠ .loop := by
  intro a ha hrole
  have hfilter := List.filter_eq_nil_iff.mp (List.map_eq_nil_iff.mp h) a ha
  exact hfilter (decide_eq_true (TemplateSyntax.role_eq_loop_iff.mp hrole))

section expansion

variable (ambient : Ambient)

mutual

/-- **A node** expands to its shape. -/
theorem shows_expand (n : MarkupNode) {c : Compiled} (hc : (compileNode s n).run.result = .ok c)
    (scope : Scope) : n.Shows s (c.expand ambient scope).result := by
  match n with
  | .text text =>
    obtain ⟨segments, -, hc⟩ := Compilation.bind_ok hc
    obtain rfl := Except.ok.inj hc
    exact ⟨_, rfl⟩
  | .comment text =>
    obtain rfl := Except.ok.inj hc
    rw [Compiled.expand, MarkupNode.Shows]
    rfl
  | .element tag attrs children =>
    rw [compileNode] at hc
    obtain ⟨plan, hplan, hc⟩ := Compilation.bind_ok hc
    obtain ⟨cs, hcs, hc⟩ := Compilation.bind_ok hc
    obtain rfl := Except.ok.inj hc
    rw [Compiled.result_expand_element]
    refine ⟨?_, ?_⟩
    · intro hnone
      have hloop : plan.loop = none :=
        ElementPlan.loop_of_addAttrs (role_ne_loop_of_attrLoopTexts hnone) hplan
      rw [List.length_map, ElementPlan.scopes, hloop]
      rfl
    · intro n hn
      obtain ⟨inner, -, rfl⟩ := List.mem_map.mp hn
      refine ⟨_, _, rfl, ?_, showsAll_expand children hcs inner⟩
      rw [ElementPlan.tag_expand, ElementPlan.addAttrs_eq_collect hplan]
      rfl

/-- **Nodes** expand to their shapes. -/
theorem showsAll_expand (ns : List MarkupNode) {cs : List Compiled}
    (hcs : (compileNodes s ns).run.result = .ok cs) (scope : Scope) :
    MarkupNode.ShowsAll s ns (Compiled.expandAll ambient scope cs).result := by
  match ns with
  | [] =>
    obtain rfl := Except.ok.inj hcs
    rfl
  | n :: ns =>
    rw [compileNodes] at hcs
    obtain ⟨c, hc, hcs⟩ := Compilation.bind_ok hcs
    obtain ⟨cs', hcs', hcs⟩ := Compilation.bind_ok hcs
    obtain rfl := Except.ok.inj hcs
    exact ⟨_, _, rfl, shows_expand n hc scope, showsAll_expand ns hcs' scope⟩

end

end expansion

/-! ## §5. Templates -/

/-- **What keeps a template from being compiled.** The error of the markup, or the error of the
    first text of a loop that is refused, elements in front of their children; and this is a matter
    of the grammar of loops alone. No expression makes a compilation fail, be it an attribute's, a
    text's or what a loop runs over. What is compiled expands in every scope to virtual nodes in
    the shape of the markup. -/
theorem template_compile_iff (source : String) (ambient : Ambient) (s : TemplateSyntax) :
    (∀ e, (Template.compile source ambient s).run.result = .error e ↔
      Markup.parse s.delimiters source = .error e ∨
        ∃ forest, Markup.parse s.delimiters source = .ok forest ∧
          FirstRefused (MarkupNode.loopTextsAll s forest) e) ∧
      (∀ text e, (Loop.compile text).run.result = .error e ↔
        ¬ IsLoop text.toList ∧ e = .invalidLoop text) ∧
      ∀ t, (Template.compile source ambient s).run.result = .ok t →
        ∃ forest, Markup.parse s.delimiters source = .ok forest ∧
          ∀ scope, MarkupNode.ShowsAll s forest (t.expand scope).result := by
  refine ⟨fun e => Template.compile_eq_error_iff, fun text e => Loop.compile_eq_error_iff, ?_⟩
  intro t ht
  rw [Template.compile] at ht
  cases hparse : Markup.parse s.delimiters source with
  | error e =>
    rw [hparse] at ht
    cases ht
  | ok forest =>
    rw [hparse] at ht
    obtain ⟨cs, hcs, ht⟩ := Compilation.bind_ok ht
    obtain rfl := Except.ok.inj ht
    exact ⟨forest, rfl, showsAll_expand ambient forest hcs⟩

/-- Of two texts that are no loops the one inside is refused, since its element begins first.
    Neither the title in front of it nor what another loop runs over can be parsed, which does not
    matter. -/
theorem template_compile_iff_nested :
    (Template.compile "<ul dr:title='+'><li dr:for='x of y'></li></ul><p dr:for='x'></p>"
        .empty {}).run.result = .error (.invalidLoop "x of y") ∧
      ∃ t, (Template.compile "<p dr:for='x in +'></p>" .empty {}).run.result = .ok t ∧
        ∀ scope, MarkupNode.ShowsAll {} [.element "p" [("dr:for", "x in +")] []]
          (t.expand scope).result := by
  obtain ⟨herror, -, -⟩ := template_compile_iff
    "<ul dr:title='+'><li dr:for='x of y'></li></ul><p dr:for='x'></p>" .empty {}
  obtain ⟨-, -, hok⟩ := template_compile_iff "<p dr:for='x in +'></p>" .empty {}
  constructor
  · have hparse : Markup.parse ({} : TemplateSyntax).delimiters
        "<ul dr:title='+'><li dr:for='x of y'></li></ul><p dr:for='x'></p>" =
          .ok [.element "ul" [("dr:title", "+")] [.element "li" [("dr:for", "x of y")] []],
            .element "p" [("dr:for", "x")] []] := by with_unfolding_all rfl
    have hnone : splitIn? none "x of y".toList = none := by decide +kernel
    have hrefused : (Loop.compile "x of y").run.result = .error (.invalidLoop "x of y") := by
      rw [Loop.compile, hnone]
      rfl
    have hfirst : FirstRefused ["x of y", "x"] (.invalidLoop "x of y") :=
      firstRefused_cons_iff.mpr (.inl hrefused)
    exact (herror _).mpr (.inr ⟨_, hparse, hfirst⟩)
  · have hparse : Markup.parse ({} : TemplateSyntax).delimiters "<p dr:for='x in +'></p>" =
        .ok [.element "p" [("dr:for", "x in +")] []] := by with_unfolding_all rfl
    have hcompiled : (Template.compile "<p dr:for='x in +'></p>" .empty
        {}).run.result.toOption.isSome = true := by decide +kernel
    obtain ⟨t, ht⟩ := Option.isSome_iff_exists.mp hcompiled
    obtain ⟨forest, hforest, hshows⟩ := hok t (toOption_eq_some_iff.mp ht)
    obtain rfl := Except.ok.inj (hparse.symm.trans hforest)
    exact ⟨t, toOption_eq_some_iff.mp ht, hshows⟩

end ReactiveView
