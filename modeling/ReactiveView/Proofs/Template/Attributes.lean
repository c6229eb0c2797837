import ReactiveView.Proofs.Template.Markers
import ReactiveView.Template.Expand

/-! # What becomes of attributes

  The plan of an element depends on its attributes one by one: each adds at most
  one thing, in the place of its role. Expanding the plan once per scope of the
  element is all that happens to it.

  * `TemplateSyntax.names_role`: a directive is named by the prefix and what it is for.
  * `ElementPlan.addAttrs_eq_collect`: the plan in terms of the attributes.
  * `Shell.Kept`: a property that everything that is done to an element keeps;
    `Shell.Kept.expand`: so its expansion has it.
  * `Compiled.result_expand_element`: the elements that a plan stands for.
-/

namespace ReactiveView

variable {s : TemplateSyntax} {p q : ElementPlan} {name target : String}

/-! ## §1. Names and roles -/

/-- What is known of the name of an attribute with a role. -/
def AttrRole.Names (marker name : String) : AttrRole → Prop
  | .loop => name = marker ++ "for"
  | .classes => name = marker ++ "class"
  | .style => name = marker ++ "style"
  | .value target => name = marker ++ target ∧ target ≠ "class" ∧ target ≠ "style"
  | _ => True

/-- A directive is named by the prefix and what it is for. -/
theorem TemplateSyntax.names_role (s : TemplateSyntax) (name : String) :
    (s.role name).Names s.marker name := by
  unfold role
  cases hd : s.directive? name with
  | none =>
    cases eventOf? name.toList with
    | none => trivial
    | some event => simp only; split <;> trivial
  | some d =>
    obtain ⟨-, happend⟩ := directive?_eq_some_iff.mp hd
    have hname : name = s.marker ++ String.ofList d := by
      rw [← String.toList_inj, String.toList_append, String.toList_ofList, happend]
    simp only
    split
    · next h => rwa [h] at hname
    · trivial
    · next h => rwa [h] at hname
    · next h => rwa [h] at hname
    · next hclass hstyle =>
      cases eventOf? d with
      | none => exact ⟨hname, hclass, hstyle⟩
      | some event => trivial

/-- The target of the classes. -/
def AttrRole.class? : AttrRole → Option String
  | .classes => some "class"
  | _ => none

/-- The target of the style. -/
def AttrRole.style? : AttrRole → Option String
  | .style => some "style"
  | _ => none

/-- The target of a value. -/
def AttrRole.value? : AttrRole → Option String
  | .value target => some target
  | _ => none

/-- The target of an event. -/
def AttrRole.event? : AttrRole → Option String
  | .event name => some name
  | _ => none

theorem AttrRole.eq_classes {r : AttrRole} (h : r.class?.isSome) : r = .classes := by
  cases r with
  | classes => rfl
  | _ => cases h

theorem AttrRole.eq_style {r : AttrRole} (h : r.style?.isSome) : r = .style := by
  cases r with
  | style => rfl
  | _ => cases h

theorem AttrRole.eq_event {r : AttrRole} {event : String} (h : r.event? = some event) :
    r = .event event := by
  cases r with
  | event name => exact congrArg AttrRole.event (Option.some.inj h)
  | _ => cases h

/-- Whether an attribute is plain. -/
def AttrRole.isPlain : AttrRole → Bool
  | .plain => true
  | _ => false

/-! ## §2. Plans -/

/-- The binding of an attribute, if its role has a target of the kind. -/
def bindingOf? (s : TemplateSyntax) (target? : AttrRole → Option String) (a : String × String) :
    Option Binding :=
  (target? (s.role a.1)).map fun target => ⟨target, a.1, .ofSource a.2.toList⟩

/-- The loop of an attribute. -/
def loopOf? (s : TemplateSyntax) (a : String × String) : Option Loop :=
  match s.role a.1 with
  | .loop => (Loop.compile a.2).run.result.toOption
  | _ => none

theorem name_of_loopOf? {a : String × String} (h : (loopOf? s a).isSome) :
    a.1 = s.marker ++ "for" := by
  have hname := s.names_role a.1
  unfold loopOf? at h
  cases hrole : s.role a.1 with
  | loop => rwa [hrole] at hname
  | _ => simp [hrole] at h

/-- An attribute of a kind with one role is named for this role. -/
theorem names_of_bindingOf? {r : AttrRole} {target? : AttrRole → Option String}
    {a : String × String} (hrole : ∀ {r' : AttrRole}, (target? r').isSome → r' = r)
    (h : (bindingOf? s target? a).isSome) : r.Names s.marker a.1 := by
  rw [bindingOf?, Option.isSome_map] at h
  exact hrole h ▸ s.names_role a.1

/-- A bound attribute is written with the prefix in front of its target. -/
theorem binding_of_value? {a : String × String} {b : Binding}
    (h : bindingOf? s AttrRole.value? a = some b) :
    b.written = a.1 ∧ a.1 = s.marker ++ b.target ∧ b.target ≠ "class" ∧ b.target ≠ "style" := by
  have hname := s.names_role a.1
  unfold bindingOf? at h
  cases hrole : s.role a.1 with
  | value target =>
    rw [hrole] at h hname
    obtain rfl := Option.some.inj h
    exact ⟨rfl, hname⟩
  | _ => simp [hrole, AttrRole.value?] at h

namespace ElementPlan

/-- The plan with everything that attributes add. Of two loops the later wins, and likewise of
    classes and styles. -/
def collect (s : TemplateSyntax) (p : ElementPlan) (attrs : List (String × String)) :
    ElementPlan where
  tag := p.tag
  attrs := p.attrs ++ attrs.filter fun a => (s.role a.1).isPlain
  loop := (attrs.filterMap (loopOf? s)).getLast?.or p.loop
  classes := (attrs.filterMap (bindingOf? s AttrRole.class?)).getLast?.or p.classes
  style := (attrs.filterMap (bindingOf? s AttrRole.style?)).getLast?.or p.style
  bindings := p.bindings ++ attrs.filterMap (bindingOf? s AttrRole.value?)
  events := p.events ++ attrs.filterMap (bindingOf? s AttrRole.event?)

theorem collect_nil (p : ElementPlan) : p.collect s [] = p := by simp [collect]

theorem collect_append (p : ElementPlan) (attrs attrs' : List (String × String)) :
    p.collect s (attrs ++ attrs') = (p.collect s attrs).collect s attrs' := by
  simp [collect, List.getLast?_append, Option.or_assoc]

/-- An attribute that is added is collected. -/
theorem addAttr_eq_collect {a : String × String} (h : (p.addAttr s a).run.result = .ok q) :
    q = p.collect s [a] := by
  obtain ⟨name, source⟩ := a
  cases hrole : s.role name with
  | loop =>
    rw [addAttr_loop hrole] at h
    obtain ⟨l, hl, rfl⟩ := map_eq_ok_iff.mp h
    simp [collect, bindingOf?, loopOf?, hrole, hl, withLoop, AttrRole.isPlain, AttrRole.class?,
      AttrRole.style?, AttrRole.value?, AttrRole.event?, Except.toOption]
  | _ =>
    unfold addAttr at h
    simp only [hrole] at h
    obtain rfl := Except.ok.inj h
    simp [collect, bindingOf?, loopOf?, hrole, AttrRole.isPlain, AttrRole.class?,
      AttrRole.style?, AttrRole.value?, AttrRole.event?, ← Directive.result_compile]

/-- **Attributes** that are added are collected. -/
theorem addAttrs_eq_collect {attrs : List (String × String)}
    (h : (addAttrs s p attrs).run.result = .ok q) : q = p.collect s attrs := by
  induction attrs generalizing p with
  | nil => exact (Except.ok.inj h).symm.trans (collect_nil p).symm
  | cons a attrs ih =>
    obtain ⟨r, hr, h⟩ := Compilation.bind_ok h
    rw [ih h, addAttr_eq_collect hr, ← collect_append, List.singleton_append]

end ElementPlan

/-! ## §3. Elements -/

section expansion

variable {fits hears : String → Prop} {P : Shell → Prop} {e : Shell}

/-- A property of elements that everything that is done to an element keeps: any names of attributes
    that fit, and any events that are heard. -/
structure Shell.Kept (fits hears : String → Prop) (P : Shell → Prop) : Prop where
  /-- All names fit but those with a place of their own. -/
  others : ∀ name, name ≠ "class" → name ≠ "style" → fits name
  /-- Attributes keep it. -/
  setPlain : ∀ e name value, fits name → P e → P (e.setPlain name value)
  /-- Classes keep it. -/
  addClass : ∀ e name, P e → P (e.addClass name)
  /-- Properties of the style keep it. -/
  setStyle : ∀ e property value, P e → P (e.setStyle property value)
  /-- Texts of the style keep it. -/
  addStyle : ∀ e text, P e → P (e.addStyle text)
  /-- Handlers keep it. -/
  on : ∀ e event handler, hears event → P e → P (e.on event handler)

/-- The directives of a plan are written under names that fit, and bind events that are heard. -/
structure ElementPlan.Fits (fits hears : String → Prop) (p : ElementPlan) : Prop where
  /-- Bound attributes are. -/
  bindings : ∀ b ∈ p.bindings, fits b.written
  /-- So are the classes. -/
  classes : ∀ b ∈ p.classes, fits b.written
  /-- So is the style. -/
  style : ∀ b ∈ p.style, fits b.written
  /-- So are the events. -/
  events : ∀ b ∈ p.events, fits b.written ∧ hears b.target

namespace Shell.Kept

theorem setAttr (h : Kept fits hears P) (name value : String) (he : P e) :
    P (e.setAttr name value) := by
  unfold Shell.setAttr
  split
  · exact h.addClass _ _ he
  · next hclass =>
    split
    · exact h.addStyle _ _ he
    · next hstyle => exact h.setPlain _ _ _ (h.others name hclass hstyle) he

theorem addClasses (h : Kept fits hears P) (v : Value) (he : P e) : P (e.addClasses v) := by
  unfold Shell.addClasses
  split
  · refine List.foldlRecOn _ _ he ?_
    intro e he f _
    split
    · exact h.addClass _ _ he
    · exact he
  · refine List.foldlRecOn _ _ he ?_
    intro e he name _
    split
    · exact h.addClass _ _ he
    · exact he
  · exact h.addClass _ _ he

theorem addStyles (h : Kept fits hears P) (v : Value) (he : P e) : P (e.addStyles v) := by
  unfold Shell.addStyles
  split
  · refine List.foldlRecOn _ _ he ?_
    intro e he f _
    split
    · exact he
    · exact h.setStyle _ _ _ he
  · exact h.addStyle _ _ he
  · exact he

theorem bind (h : Kept fits hears P) {set : Shell → Value → Shell} (hset : ∀ v, P (set e v))
    {b : Binding} (hb : fits b.written) (ambient : Ambient) (scope : Scope) (he : P e) :
    P (e.bind ambient scope set b).result := by
  rw [Shell.bind, Traced.result_bind]
  cases (b.directive.value? ambient scope).result with
  | none => exact h.setPlain _ _ _ hb he
  | some v => exact hset v

theorem bindAll (h : Kept fits hears P) {bs : List Binding} (hbs : ∀ b ∈ bs, fits b.written)
    (ambient : Ambient) (scope : Scope) (he : P e) : P (e.bindAll ambient scope bs).result := by
  induction bs generalizing e with
  | nil => exact he
  | cons b bs ih =>
    obtain ⟨hb, hbs⟩ := List.forall_mem_cons.mp hbs
    exact ih hbs (h.bind (fun v => h.setAttr _ _ he) hb ambient scope he)

theorem bindOption (h : Kept fits hears P) {set : Shell → Value → Shell} (hset : ∀ v, P (set e v))
    {b : Option Binding} (hb : ∀ b' ∈ b, fits b'.written) (ambient : Ambient) (scope : Scope)
    (he : P e) : P (e.bindOption ambient scope set b).result := by
  cases b with
  | none => exact he
  | some b => exact h.bind hset (hb b rfl) ambient scope he

theorem listenAll (h : Kept fits hears P) {bs : List Binding}
    (hbs : ∀ b ∈ bs, fits b.written ∧ hears b.target) (ambient : Ambient) (scope : Scope)
    (he : P e) : P (e.listenAll ambient scope bs).result := by
  induction bs generalizing e with
  | nil => exact he
  | cons b bs ih =>
    obtain ⟨⟨hfits, hhears⟩, hbs⟩ := List.forall_mem_cons.mp hbs
    rw [Shell.listenAll, Traced.result_bind]
    cases (b.directive.handler? ambient scope).result with
    | none => exact ih hbs (h.setPlain _ _ _ hfits he)
    | some handler => exact ih hbs (h.on _ _ _ hhears he)

/-- **An element** has what its tag alone has and everything keeps. -/
theorem expand (h : Kept fits hears P) {p : ElementPlan} (hp : p.Fits fits hears)
    (htag : P { tag := p.tag }) (ambient : Ambient) (scope : Scope) :
    P (p.expand ambient scope).result := by
  -- In the order of the expansion: attributes as they stand, bound ones, classes, style, events.
  have hattrs : P (p.attrs.foldl (fun e a => e.setAttr a.1 a.2) { tag := p.tag }) :=
    List.foldlRecOn _ _ htag fun e he a _ => h.setAttr a.1 a.2 he
  have hbound := h.bindAll hp.bindings ambient scope hattrs
  have hclasses := h.bindOption (fun v => h.addClasses v hbound) hp.classes ambient scope hbound
  have hstyle := h.bindOption (fun v => h.addStyles v hclasses) hp.style ambient scope hclasses
  exact h.listenAll hp.events ambient scope hstyle

end Shell.Kept

/-- Nothing changes the tag. -/
theorem Shell.kept_tag (tag : String) :
    Shell.Kept (fun _ => True) (fun _ => True) fun e => e.tag = tag where
  others _ _ _ := trivial
  setPlain _ _ _ _ h := h
  addClass e name h := by
    unfold addClass
    split <;> exact h
  setStyle _ _ _ h := h
  addStyle _ _ h := h
  on _ _ _ _ h := h

/-- An element has the tag of its plan. -/
theorem ElementPlan.tag_expand (p : ElementPlan) (ambient : Ambient) (scope : Scope) :
    (p.expand ambient scope).result.tag = p.tag :=
  (Shell.kept_tag p.tag).expand
    ⟨fun _ _ => trivial, fun _ _ => trivial, fun _ _ => trivial, fun _ _ => ⟨trivial, trivial⟩⟩ rfl
    ambient scope

/-- The scopes that an element is expanded in: the scope it stands in, or one per round of its
    loop. -/
def ElementPlan.scopes (ambient : Ambient) (scope : Scope) (p : ElementPlan) : List Scope :=
  match p.loop with
  | none => [scope]
  | some loop => (loop.frames ambient scope).result.map scope.child

/-- **The elements of a plan**: one per scope. -/
theorem Compiled.result_expand_element (ambient : Ambient) (scope : Scope) (p : ElementPlan)
    (cs : List Compiled) :
    ((element p cs).expand ambient scope).result =
      (p.scopes ambient scope).map fun inner =>
        .element (p.expand ambient inner).result (expandAll ambient inner cs).result := by
  rw [expand, ElementPlan.scopes]
  cases p.loop with
  | none => rfl
  | some loop =>
    show (Traced.forEach _ (loop.frames ambient scope).result).result = _
    rw [Traced.result_forEach]
    show _ = List.map _ (List.map scope.child _)
    rw [List.map_map]
    rfl

end expansion

end ReactiveView
