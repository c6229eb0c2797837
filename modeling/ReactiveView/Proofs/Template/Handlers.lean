import ReactiveView.Proofs.Expr.Resolution
import ReactiveView.Proofs.Template.Unrolling
import ReactiveView.Proofs.Text.Trim

/-! # Handlers that call a helper

  An event may be bound to a helper by its name alone, or by a function that
  hands the payload on to the helper. A name alone is looked up in the scope first,
  and what a scope binds is no helper; a call looks for the helper at once.

  * `Directive.handler?_name`, `Directive.handler?_handOn`: the two handlers.
  * `ElementPlan.addAttrs_event`: an attribute for an event adds one binding, and
    the rest of the plan does not depend on its source.
  * `helper_spellings`: the two spellings compared, for an element with any other
    attributes.
-/

namespace ReactiveView

variable {ambient : Ambient} {scope : Scope} {helper : Helper} {name : String}

/-! ## §1. Two ways to call a helper -/

/-- The function that hands what it is given on to a helper. -/
def Expr.handOn (name : String) : Expr := lambda ["e"] (call (ident name) [ident "e"])

/-- The source of this function. -/
def handOnText (name : String) : String := "(e) => " ++ name ++ "(e)"

/-- An answer without a failure is what happens on the way to it. -/
theorem events_respond_of_lift (source : String) {e : Expr} {payload : Value} {t : Traced Value}
    (h : respondWith ambient scope e payload = ExceptT.lift t) :
    (respond ambient scope source e payload).events = t.events := by
  rw [respond, h]
  show (t.events ++ []) ++ [] = t.events
  rw [List.append_nil, List.append_nil]

theorem respondWith_name (hhelper : ambient.helper? name = some helper) (scope : Scope)
    (payload : Value) :
    respondWith ambient scope (.ident name) payload =
      ExceptT.lift (match scope.lookup name with
        | none => callHelper name helper [payload]
        | some v => pure v) := by
  unfold respondWith
  cases hscope : scope.lookup name with
  | none => simp [hscope, hhelper]
  | some v =>
    -- The helper is not even looked up; the name is evaluated as any other expression.
    simp only [hscope, Option.isNone_some, Bool.false_eq_true, if_false]
    rw [Expr.eval, resolve, hscope]
    rfl

theorem respondWith_handOn (hhelper : ambient.helper? name = some helper) (scope : Scope)
    (payload : Value) :
    respondWith ambient scope (.handOn name) payload =
      ExceptT.lift (callHelper name helper [payload]) := by
  have hargument : resolve ambient (scope.child [("e", payload)]) "e" = .ok payload := by
    rw [resolve, Scope.lookup_child]
    rfl
  -- Helpers come first: no frame can hide the callee, not even if its name is `e`.
  have hcallee : resolveHelper ambient (scope.child [("e", payload)]) name = .ok helper := by
    rw [resolveHelper, hhelper]
  show Expr.eval ambient (scope.child [("e", payload)]) (.call (.ident name) [.ident "e"]) = _
  rw [Expr.eval, hcallee, Expr.evalAll, Expr.evalAll, Expr.eval, hargument]
  rfl

theorem not_unknown_of_helper (hhelper : ambient.helper? name = some helper) :
    ¬ Unknown ambient scope .called name := by
  rintro ⟨-, -, hnone⟩
  rw [hhelper] at hnone
  cases hnone

/-- A handler is made of what passes the check. -/
theorem Directive.handler?_eq {source : String} {e : Expr}
    (hcheck : e.checkResolved ambient scope = .ok ()) :
    handler? ambient scope ⟨source, some e⟩ =
      pure (some ⟨0, fun payload => (respond ambient scope source e payload).events⟩) := by
  rw [handler?]
  simp only [hcheck]

/-- The handler that calls a helper with the payload. -/
def EventHandler.calling (name : String) (helper : Helper) : EventHandler :=
  ⟨0, fun payload => (callHelper name helper [payload]).events⟩

/-- The handler that does nothing. -/
def EventHandler.idle : EventHandler := ⟨0, fun _ => []⟩

/-- A name alone means the helper unless the scope binds it. What the scope binds is read, and
    nothing happens. -/
theorem Directive.handler?_name (hhelper : ambient.helper? name = some helper) (source : String) :
    handler? ambient scope ⟨source, some (.ident name)⟩ =
      pure (some (if scope.lookup name = none then .calling name helper else .idle)) := by
  rw [handler?_eq (Expr.checkResolved_ident (not_unknown_of_helper hhelper)).1]
  have hrespond (payload : Value) :=
    events_respond_of_lift source (respondWith_name hhelper scope payload)
  simp only [hrespond]
  cases hscope : scope.lookup name with
  | none => simp [EventHandler.calling]
  | some v => simp [EventHandler.idle]

/-- A call means the helper, whatever the scope binds. -/
theorem Directive.handler?_handOn (hhelper : ambient.helper? name = some helper)
    (source : String) :
    handler? ambient scope ⟨source, some (.handOn name)⟩ =
      pure (some (.calling name helper)) := by
  have hcheck : (Expr.handOn name).checkResolved ambient scope = .ok () := by
    rw [Expr.checkResolved_eq_ok_iff]
    intro n hn
    have hfree := (Expr.mem_freeOccurrences_lambda_iff.mp (Expr.mem_freeNames_iff.mp hn))
    obtain rfl | rfl : n = name ∨ n = "e" := by
      simpa [Expr.freeOccurrences, Expr.freeInAll] using hfree.1
    · exact not_unknown_of_helper hhelper
    · exact absurd (List.mem_singleton_self _) hfree.2
  rw [handler?_eq hcheck]
  have hrespond (payload : Value) :=
    events_respond_of_lift source (respondWith_handOn hhelper scope payload)
  simp only [hrespond, EventHandler.calling]

/-! ## §2. Their sources -/

/-- A name is compiled to itself. -/
theorem compile_name (hname : isVariableName name.toList = true) (hfree : name ∉ reservedNames) :
    (Directive.compile name.toList).result = ⟨name, some (.ident name)⟩ := by
  have htrim : Text.trim name.toList = name.toList :=
    Text.trim_eq_self
      (fun c hc => isBlank_eq_false_of_mem_name hname c (List.mem_of_mem_head? hc))
      (fun c hc => isBlank_eq_false_of_mem_name hname c (List.mem_of_mem_getLast? hc))
  exact Directive.compile_eq (by rw [htrim, String.ofList_toList]) (parse_name hname hfree)

theorem prints_handOn (hfree : name ∉ reservedNames) :
    Prints (.handOn name) [.mark .leftParen, .ident "e", .mark .rightParen, .mark .arrow,
      .ident name, .mark .leftParen, .ident "e", .mark .rightParen] :=
  .lambda (.parens ["e"]) (.call (.ident hfree) (.cons (.ident (by decide)) .nil))

theorem spells_handOnText (hname : isVariableName name.toList = true) :
    Spells (handOnText name).toList [.mark .leftParen, .ident "e", .mark .rightParen, .mark .arrow,
      .ident name, .mark .leftParen, .ident "e", .mark .rightParen] := by
  have he : isVariableName "e".toList = true := by decide
  have hargument : Spells ['(', 'e', ')'] [.mark .leftParen, .ident "e", .mark .rightParen] :=
    .mark rfl (.named he rfl (.mark rfl .nil))
  have hbody : Spells (' ' :: (name.toList ++ ['(', 'e', ')'])) _ :=
    .blank rfl (.named hname rfl hargument)
  have hparams : Spells ('(' :: 'e' :: ')' :: ' ' :: '=' :: '>' :: ' ' ::
      (name.toList ++ ['(', 'e', ')'])) _ :=
    .mark rfl (.named he rfl (.mark rfl (.blank rfl (.mark rfl hbody))))
  rw [handOnText, String.toList_append, String.toList_append, List.append_assoc]
  exact hparams

theorem compile_handOnText (hname : isVariableName name.toList = true)
    (hfree : name ∉ reservedNames) :
    (Directive.compile (handOnText name).toList).result =
      ⟨handOnText name, some (.handOn name)⟩ := by
  have htrim : Text.trim (handOnText name).toList = (handOnText name).toList := by
    rw [handOnText, String.toList_append]
    refine Text.trim_eq_self ?_ ?_
    · intro c hc
      rw [String.toList_append] at hc
      obtain rfl : '(' = c := Option.some.inj hc
      decide
    · intro c hc
      rw [List.getLast?_append] at hc
      obtain rfl : ')' = c := Option.some.inj hc
      decide
  exact Directive.compile_eq (by rw [htrim, String.ofList_toList])
    ((spells_handOnText hname).parse_eq (prints_handOn hfree))

/-! ## §3. An attribute for an event -/

namespace ElementPlan

variable {s : TemplateSyntax} {p q : ElementPlan}

/-- The plan with other bindings of events. -/
def withEvents (p : ElementPlan) (bs : List Binding) : ElementPlan := { p with events := bs }

/-- An attribute for an event adds a binding. -/
theorem addAttr_event {attr event : String} (hrole : s.role attr = .event event)
    (p : ElementPlan) (source : String) :
    (p.addAttr s (attr, source)).run.result =
      .ok (p.withEvents
        (p.events ++ [⟨event, attr, (Directive.compile source.toList).result⟩])) := by
  unfold addAttr
  simp only [hrole]
  rfl

/-- An attribute adds bindings of events without regard to those that are there. -/
theorem addAttr_withEvents {a : String × String} (h : (p.addAttr s a).run.result = .ok q) :
    ∃ added : List Binding, (∀ b ∈ added, s.role a.1 = .event b.target) ∧
      q.events = p.events ++ added ∧
      ∀ bs, ((p.withEvents bs).addAttr s a).run.result = .ok (q.withEvents (bs ++ added)) := by
  obtain ⟨attr, source⟩ := a
  cases hrole : s.role attr with
  | event event =>
    rw [addAttr_event hrole] at h
    obtain rfl := Except.ok.inj h
    refine ⟨[⟨event, attr, (Directive.compile source.toList).result⟩], ?_, rfl, ?_⟩
    · intro b hb
      obtain rfl := List.mem_singleton.mp hb
      rfl
    · intro bs
      rw [addAttr_event hrole]
      rfl
  | loop =>
    -- Of the attributes that bind no event only a loop can fail to compile.
    unfold addAttr at h ⊢
    simp only [hrole] at h ⊢
    obtain ⟨l, hl, h⟩ := Compilation.bind_ok h
    obtain rfl := Except.ok.inj h
    refine ⟨[], nofun, (List.append_nil _).symm, ?_⟩
    intro bs
    rw [Compilation.result_bind, hl, List.append_nil]
    rfl
  | _ =>
    unfold addAttr at h ⊢
    simp only [hrole] at h ⊢
    obtain rfl := Except.ok.inj h
    refine ⟨[], nofun, (List.append_nil _).symm, ?_⟩
    intro bs
    rw [List.append_nil]
    rfl

theorem addAttrs_withEvents {attrs : List (String × String)}
    (h : (addAttrs s p attrs).run.result = .ok q) :
    ∃ added : List Binding, (∀ b ∈ added, ∃ a ∈ attrs, s.role a.1 = .event b.target) ∧
      q.events = p.events ++ added ∧
      ∀ bs, (addAttrs s (p.withEvents bs) attrs).run.result = .ok (q.withEvents (bs ++ added)) := by
  induction attrs generalizing p with
  | nil =>
    obtain rfl := Except.ok.inj h
    refine ⟨[], nofun, (List.append_nil _).symm, ?_⟩
    intro bs
    rw [List.append_nil]
    rfl
  | cons a attrs ih =>
    rw [addAttrs] at h
    obtain ⟨r, hr, h⟩ := Compilation.bind_ok h
    obtain ⟨first, hfirst, hevents, hadd⟩ := addAttr_withEvents hr
    obtain ⟨others, hothers, hevents', hadd'⟩ := ih h
    refine ⟨first ++ others, ?_, ?_, ?_⟩
    · intro b hb
      rcases List.mem_append.mp hb with hb | hb
      · exact ⟨a, List.mem_cons_self, hfirst b hb⟩
      · obtain ⟨a', ha', hrole⟩ := hothers b hb
        exact ⟨a', List.mem_cons_of_mem a ha', hrole⟩
    · rw [hevents', hevents, List.append_assoc]
    · intro bs
      rw [addAttrs, Compilation.result_bind, hadd bs, ← List.append_assoc]
      exact hadd' (bs ++ first)

/-- **The place of an attribute for an event.** Whatever its source, the attributes before it and
    after it add the same, and its binding stands between the others. -/
theorem addAttrs_event {attr event source : String} {pre post : List (String × String)}
    (hrole : s.role attr = .event event)
    (h : (addAttrs s p (pre ++ (attr, source) :: post)).run.result = .ok q) :
    ∃ before after : List Binding, (∀ b ∈ after, ∃ a ∈ post, s.role a.1 = .event b.target) ∧
      ∀ source, (addAttrs s p (pre ++ (attr, source) :: post)).run.result =
        .ok (q.withEvents
          (before ++ ⟨event, attr, (Directive.compile source.toList).result⟩ :: after)) := by
  obtain ⟨r, hpre, h⟩ := addAttrs_append_ok_iff.mp h
  rw [addAttrs, Compilation.result_bind, addAttr_event hrole] at h
  obtain ⟨after, hafter, -, hadd⟩ := addAttrs_withEvents h
  refine ⟨r.events, after, hafter, ?_⟩
  intro source
  refine addAttrs_append_ok_iff.mpr ⟨r, hpre, ?_⟩
  rw [addAttrs, Compilation.result_bind, addAttr_event hrole]
  have hpost := hadd (r.events ++ [⟨event, attr, (Directive.compile source.toList).result⟩])
  rw [List.append_assoc] at hpost
  exact hpost

end ElementPlan

/-! ## §4. Handlers that are attached -/

section Shell

variable {e : Shell} {b : Binding} {bs before after : List Binding} {event : String}
  {h : EventHandler}

theorem Shell.find?_on_self : (e.on event h).handlers.find? event = some h :=
  OrderedMap.find?_insert_self _ _ _

theorem Shell.listenAll_cons :
    (e.listenAll ambient scope (b :: bs)).result =
      ((match (b.directive.handler? ambient scope).result with
        | some handler => e.on b.target handler
        | none => e.leaveWritten b).listenAll ambient scope bs).result := by
  rw [listenAll, Traced.result_bind]
  cases (b.directive.handler? ambient scope).result <;> rfl

theorem Shell.listenAll_append :
    (e.listenAll ambient scope (before ++ after)).result =
      ((e.listenAll ambient scope before).result.listenAll ambient scope after).result := by
  induction before generalizing e with
  | nil => rfl
  | cons b before ih => rw [List.cons_append, listenAll_cons, listenAll_cons, ih]

/-- A handler for an event stays, or another takes its place. -/
theorem Shell.isSome_find?_listenAll (he : (e.handlers.find? event).isSome) :
    ((e.listenAll ambient scope bs).result.handlers.find? event).isSome := by
  induction bs generalizing e with
  | nil => exact he
  | cons b bs ih =>
    rw [listenAll_cons]
    apply ih
    cases (b.directive.handler? ambient scope).result with
    | none => exact he
    | some handler =>
      by_cases hb : event = b.target
      · rw [hb, find?_on_self]
        rfl
      · show ((e.handlers.insert b.target handler).find? event).isSome
        rw [OrderedMap.find?_insert_ne _ _ hb]
        exact he

/-- Bindings of other events leave a handler alone. -/
theorem Shell.find?_listenAll (hbs : ∀ b ∈ bs, b.target ≠ event) :
    (e.listenAll ambient scope bs).result.handlers.find? event = e.handlers.find? event := by
  induction bs generalizing e with
  | nil => rfl
  | cons b bs ih =>
    rw [listenAll_cons, ih fun b' hb' => hbs b' (List.mem_cons_of_mem b hb')]
    cases (b.directive.handler? ambient scope).result with
    | none => rfl
    | some handler =>
      exact OrderedMap.find?_insert_ne _ _ (hbs b List.mem_cons_self).symm

/-- Bindings with one handler for one event are exchanged. -/
theorem Shell.listenAll_congr_handler {b' : Binding}
    (hb : b.directive.handler? ambient scope = pure (some h))
    (hb' : b'.directive.handler? ambient scope = pure (some h)) (htarget : b.target = b'.target) :
    e.listenAll ambient scope (before ++ b :: after) =
      e.listenAll ambient scope (before ++ b' :: after) := by
  induction before generalizing e with
  | nil =>
    rw [List.nil_append, List.nil_append, listenAll, listenAll, hb, hb', htarget]
    rfl
  | cons c before ih =>
    simp only [List.cons_append, listenAll, ih]

end Shell

namespace ElementPlan

variable {b b' : Binding} {h : EventHandler}

/-- The handlers of a plan are attached in the end. -/
theorem expand_withEvents (p : ElementPlan) (bs : List Binding) :
    ((p.withEvents bs).expand ambient scope).result =
      (((p.withEvents []).expand ambient scope).result.listenAll ambient scope bs).result := rfl

/-- An event that is bound to a handler is heard, by this handler if no other binding of the event
    follows. -/
theorem find?_expand (p : ElementPlan) (before after : List Binding)
    (hb : b.directive.handler? ambient scope = pure (some h)) :
    (((p.withEvents (before ++ b :: after)).expand ambient scope).result.handlers.find?
        b.target).isSome ∧
      ((∀ c ∈ after, c.target ≠ b.target) →
        ((p.withEvents (before ++ b :: after)).expand ambient scope).result.handlers.find?
          b.target = some h) := by
  rw [expand_withEvents, Shell.listenAll_append, Shell.listenAll_cons, hb, Traced.result_pure]
  refine ⟨?_, ?_⟩
  · apply Shell.isSome_find?_listenAll
    rw [Shell.find?_on_self]
    rfl
  · intro hafter
    rw [Shell.find?_listenAll hafter, Shell.find?_on_self]

theorem expand_congr_handler (p : ElementPlan) (before after : List Binding)
    (hb : b.directive.handler? ambient scope = pure (some h))
    (hb' : b'.directive.handler? ambient scope = pure (some h)) (htarget : b.target = b'.target) :
    (p.withEvents (before ++ b :: after)).expand ambient scope =
      (p.withEvents (before ++ b' :: after)).expand ambient scope := by
  simp only [expand, withEvents, Shell.listenAll_congr_handler hb hb' htarget]

end ElementPlan

/-! ## §5. The two spellings -/

/-- The binding of an event to a helper by its name. -/
def Binding.toName (event attr name : String) : Binding :=
  ⟨event, attr, ⟨name, some (.ident name)⟩⟩

/-- The binding of an event to the function that calls a helper. -/
def Binding.toHandOn (event attr name : String) : Binding :=
  ⟨event, attr, ⟨handOnText name, some (.handOn name)⟩⟩

/-- **A helper in two spellings.** An attribute binds an event to a helper, by its name or by the
    function `(e) => name(e)`. If the element compiles with any source for this attribute, it does
    with both, and the two plans differ in the bindings of events alone. In every scope both
    elements hear the event. In a scope that does not bind the name they have the same handler for
    it, and are the same altogether.

    If no later attribute binds the event again, what this handler does is call the helper with the
    payload. In a scope that binds the name, the function still calls the helper, but the name
    alone does nothing. -/
theorem helper_spellings {s : TemplateSyntax} {tag attr event source : String}
    {pre post : List (String × String)} {children : List MarkupNode} {c : Compiled}
    (hname : isVariableName name.toList = true) (hfree : name ∉ reservedNames)
    (hrole : s.role attr = .event event)
    (hc : (compileNode s (.element tag (pre ++ (attr, source) :: post) children)).run.result =
      .ok c) :
    ∃ plain function cs,
      (compileNode s (.element tag (pre ++ (attr, name) :: post) children)).run.result =
        .ok (.element plain cs) ∧
      (compileNode s (.element tag (pre ++ (attr, handOnText name) :: post) children)).run.result =
        .ok (.element function cs) ∧
      function = plain.withEvents function.events ∧
      ∀ (ambient : Ambient) (helper : Helper), ambient.helper? name = some helper →
        ∀ scope : Scope, ∃ h h',
          (plain.expand ambient scope).result.handlers.find? event = some h ∧
          (function.expand ambient scope).result.handlers.find? event = some h' ∧
          (scope.lookup name = none →
            h = h' ∧ plain.expand ambient scope = function.expand ambient scope) ∧
          ((∀ a ∈ post, s.role a.1 ≠ .event event) →
            h = (if scope.lookup name = none then .calling name helper else .idle) ∧
            h' = .calling name helper) := by
  rw [compileNode] at hc
  obtain ⟨plan, hplan, hc⟩ := Compilation.bind_ok hc
  obtain ⟨cs, hcs, -⟩ := Compilation.bind_ok hc
  obtain ⟨before, after, hafter, hadd⟩ := ElementPlan.addAttrs_event hrole hplan
  -- The two plans differ in one binding, which stands at the same place in both.
  have hplain := hadd name
  have hfunction := hadd (handOnText name)
  rw [compile_name hname hfree] at hplain
  rw [compile_handOnText hname hfree] at hfunction
  refine ⟨_, _, cs, compileNode_element hplain hcs, compileNode_element hfunction hcs, rfl, ?_⟩
  intro ambient helper hhelper scope
  have hb : (Binding.toName event attr name).directive.handler? ambient scope =
      pure (some (if scope.lookup name = none then .calling name helper else .idle)) :=
    Directive.handler?_name hhelper name
  have hb' : (Binding.toHandOn event attr name).directive.handler? ambient scope =
      pure (some (.calling name helper)) := Directive.handler?_handOn hhelper (handOnText name)
  have hheard := plan.find?_expand before after hb
  have hheard' := plan.find?_expand before after hb'
  obtain ⟨h, hh⟩ := Option.isSome_iff_exists.mp hheard.1
  obtain ⟨h', hh'⟩ := Option.isSome_iff_exists.mp hheard'.1
  refine ⟨h, h', hh, hh', ?_, ?_⟩
  · -- With one and the same handler there is no difference left.
    intro hscope
    rw [if_pos hscope] at hb
    have hsame := plan.expand_congr_handler before after hb hb' rfl
    refine ⟨?_, hsame⟩
    rw [hsame] at hh
    exact Option.some.inj (hh.symm.trans hh')
  · -- Only a later binding of the event could take the place of the handler.
    intro hpost
    have hlater : ∀ c ∈ after, c.target ≠ event := by
      rintro c hc rfl
      obtain ⟨a, ha, hrole'⟩ := hafter c hc
      exact hpost a ha hrole'
    exact ⟨Option.some.inj (hh.symm.trans (hheard.2 hlater)),
      Option.some.inj (hh'.symm.trans (hheard'.2 hlater))⟩

/-- The standard helpers and one more, which has no effect of its own. -/
def Ambient.withPick : Ambient := standard.withHelper "pick" fun _ => pure .null

/-- A button whose attribute in the middle binds the click. -/
def button (source : String) : MarkupNode :=
  .element "button" ([("title", "x")] ++ ("onclick", source) :: [("dr:onkeydown", "pick")]) []

/-- The plan of this button. -/
def buttonPlan (click : Binding) : ElementPlan :=
  ({ tag := "button", attrs := [("title", "x")] } : ElementPlan).withEvents
    ([] ++ click :: [.toName "keydown" "dr:onkeydown" "pick"])

theorem compile_button (source : String) : (compileNode {} (button source)).run.result =
    .ok (.element (buttonPlan ⟨"click", "onclick", (Directive.compile source.toList).result⟩)
      []) := by
  have htitle : ({} : TemplateSyntax).role "title" = .plain := rfl
  have hclick : ({} : TemplateSyntax).role "onclick" = .event "click" := rfl
  have hkeydown : ({} : TemplateSyntax).role "dr:onkeydown" = .event "keydown" := rfl
  have hpick : (Directive.compile "pick".toList).result = ⟨"pick", some (.ident "pick")⟩ :=
    compile_name (by decide) (by decide)
  refine compileNode_element ?_ rfl
  rw [List.singleton_append, ElementPlan.addAttrs, Compilation.result_bind,
    ElementPlan.addAttr_plain htitle]
  show (ElementPlan.addAttrs _ _ (("onclick", source) :: _)).run.result = _
  rw [ElementPlan.addAttrs, Compilation.result_bind, ElementPlan.addAttr_event hclick]
  show (ElementPlan.addAttrs _ _ [("dr:onkeydown", "pick")]).run.result = _
  rw [ElementPlan.addAttrs, Compilation.result_bind, ElementPlan.addAttr_event hkeydown, hpick]
  rfl

/-- In a scope without bindings the helper is called with the payload, be it named alone or called
    by a function. -/
theorem helper_spellings_button :
    isVariableName "pick".toList = true ∧ "pick" ∉ reservedNames ∧
      (∀ a ∈ [("dr:onkeydown", "pick")], ({} : TemplateSyntax).role a.1 ≠ .event "click") ∧
      ∃ plain function cs,
        (compileNode {} (button "pick")).run.result = .ok (.element plain cs) ∧
        (compileNode {} (button "(e) => pick(e)")).run.result = .ok (.element function cs) ∧
        ∃ h, (plain.expand .withPick .empty).result.handlers.find? "click" = some h ∧
          (function.expand .withPick .empty).result.handlers.find? "click" = some h ∧
          h.respond (.bool true) = [.called "pick" [.bool true]] := by
  have hname : isVariableName "pick".toList = true := by decide
  have hfree : "pick" ∉ reservedNames := by decide
  have hrole : ({} : TemplateSyntax).role "onclick" = .event "click" := rfl
  have hpost : ∀ a ∈ [("dr:onkeydown", "pick")],
      ({} : TemplateSyntax).role a.1 ≠ .event "click" := by
    have hkeydown : ({} : TemplateSyntax).role "dr:onkeydown" = .event "keydown" := rfl
    intro a ha
    obtain rfl := List.mem_singleton.mp ha
    rw [hkeydown]
    intro h
    exact absurd (AttrRole.event.inj h) (by decide)
  obtain ⟨plain, function, cs, hplain, hfunction, -, hall⟩ :=
    helper_spellings hname hfree hrole (compile_button "pick")
  obtain ⟨h, h', hh, hh', hsame, hcall⟩ := hall .withPick (fun _ => pure .null) rfl .empty
  obtain ⟨rfl, -⟩ := hsame rfl
  refine ⟨hname, hfree, hpost, plain, function, cs, hplain, hfunction, h, hh, hh', ?_⟩
  rw [(hcall hpost).2]
  rfl

/-- Where the scope binds the name of the helper, the function calls the helper all the same, and
    the name alone does not. -/
theorem spellings_differ_where_bound :
    isVariableName "pick".toList = true ∧ "pick" ∉ reservedNames ∧ "pick" ≠ "e" ∧
      (Ambient.withPick.helper? "pick").isSome ∧
      ∃ plain function cs h h',
        (compileNode {} (button "pick")).run.result = .ok (.element plain cs) ∧
        (compileNode {} (button "(e) => pick(e)")).run.result = .ok (.element function cs) ∧
        let scope : Scope := Scope.empty.child [("pick", .null)]
        (plain.expand .withPick scope).result.handlers.find? "click" = some h ∧
          (function.expand .withPick scope).result.handlers.find? "click" = some h' ∧
          h.respond (.bool true) = [] ∧
          h'.respond (.bool true) = [.called "pick" [.bool true]] := by
  have hname : isVariableName "pick".toList = true := by decide
  have hfree : "pick" ∉ reservedNames := by decide
  have hplain := compile_button "pick"
  have hfunction := compile_button (handOnText "pick")
  rw [compile_name hname hfree] at hplain
  rw [compile_handOnText hname hfree] at hfunction
  have hlater : ∀ c ∈ [Binding.toName "keydown" "dr:onkeydown" "pick"], c.target ≠ "click" := by
    decide
  refine ⟨hname, hfree, by decide, rfl, _, _, _, .idle, .calling "pick" fun _ => pure .null,
    hplain, hfunction, ?_, ?_, rfl, rfl⟩
  · exact (ElementPlan.find?_expand _ _ _ (Directive.handler?_name rfl "pick")).2 hlater
  · exact (ElementPlan.find?_expand _ _ _ (Directive.handler?_handOn rfl _)).2 hlater

end ReactiveView
