import ReactiveView.Proofs.Expr.Spelling
import ReactiveView.Template.Expand

/-! # Loops are unrolled

  An element with a loop stands for one copy of the same element without the
  loop per item of the collection, each in a scope of its own. This is said of
  markup: the element and its copy are compiled separately, and the loop may
  stand anywhere among the attributes.

  * `compileNode_loop`: the compiled element differs from the compiled copy in
    its loop alone.
  * `expand_loop`: what the expansion of a loop comes to.
  * `unrolled`: both together.
-/

namespace ReactiveView

/-! ## §1. Results of compilations -/

theorem Compilation.result_bind {α β : Type} (t : Compilation α) (f : α → Compilation β) :
    (t >>= f).run.result = t.run.result >>= fun a => (f a).run.result := by
  show (ExceptT.bindCont f t.run.result).result = _
  cases t.run.result with
  | error e => rfl
  | ok a => rfl

/-- A compilation that comes to a result comes to one in each of its parts. -/
theorem Compilation.bind_ok {α β : Type} {t : Compilation α} {f : α → Compilation β} {b : β}
    (h : (t >>= f).run.result = .ok b) :
    ∃ a, t.run.result = .ok a ∧ (f a).run.result = .ok b := by
  rw [result_bind] at h
  cases ht : t.run.result with
  | error e =>
    rw [ht] at h
    cases h
  | ok a =>
    rw [ht] at h
    exact ⟨a, rfl, h⟩

theorem map_eq_ok_iff {ε α β : Type} {r : Except ε α} {f : α → β} {b : β} :
    r.map f = .ok b ↔ ∃ a, r = .ok a ∧ f a = b := by
  cases r with
  | error e => exact ⟨fun h => (by cases h), fun ⟨a, ha, _⟩ => (by cases ha)⟩
  | ok a =>
    refine ⟨fun h => ⟨a, rfl, Except.ok.inj h⟩, ?_⟩
    rintro ⟨a', ha, rfl⟩
    cases ha
    rfl

/-- A directive is compiled to its source without blanks around it and what that is parsed as. -/
theorem Directive.compile_eq {text : List Char} {source : String} {e : Expr}
    (hsource : String.ofList (Text.trim text) = source) (hparse : Expr.parse source = .ok e) :
    (Directive.compile text).result = ⟨source, some e⟩ := by
  unfold Directive.compile
  simp only [hsource]
  rw [hparse]
  rfl

theorem Traced.result_forEach {α β : Type} (f : α → Traced β) (as : List α) :
    (forEach f as).result = as.map fun a => (f a).result := by
  induction as with
  | nil => rfl
  | cons a as ih => exact congrArg _ ih

/-! ## §2. The loop among the attributes -/

theorem TemplateSyntax.directive?_eq_some_iff {s : TemplateSyntax} {name : String} {d : List Char} :
    s.directive? name = some d ↔ s.marker ≠ "" ∧ name.toList = s.marker.toList ++ d := by
  unfold directive?
  by_cases hs : s.marker.isEmpty
  · rw [if_pos hs]
    have hnil : s.marker = "" := by simpa using hs
    simp [hnil]
  · rw [if_neg hs, Text.dropFront?_eq_some_iff]
    have hnil : s.marker ≠ "" := by simpa using hs
    simp [hnil]

/-- One name is the name of a loop: the prefix and `for`. -/
theorem TemplateSyntax.role_eq_loop_iff {s : TemplateSyntax} {name : String} :
    s.role name = .loop ↔ s.marker ≠ "" ∧ name = s.marker ++ "for" := by
  have hname : name = s.marker ++ "for" ↔ name.toList = s.marker.toList ++ "for".toList := by
    rw [← String.toList_append, String.toList_inj]
  rw [hname, ← directive?_eq_some_iff]
  unfold role
  cases hd : s.directive? name with
  | none =>
    -- Without the prefix an attribute is for an event, or is plain.
    cases eventOf? name.toList with
    | none => simp
    | some event => simp only []; split <;> simp
  | some d =>
    have hfor : some d = some "for".toList ↔ String.ofList d = "for" := by
      rw [Option.some_inj]
      refine ⟨fun h => by rw [h]; rfl, fun h => by rw [← h, String.toList_ofList]⟩
    rw [hfor]
    simp only
    split
    · simp_all
    · simp_all
    · simp_all
    · simp_all
    · cases eventOf? d <;> simp_all

/-- A name without the prefix that is no event's is the name of a plain attribute. -/
theorem TemplateSyntax.role_eq_plain {s : TemplateSyntax} {name : String}
    (hd : s.directive? name = none) (he : eventOf? name.toList = none) : s.role name = .plain := by
  unfold role
  simp only [hd, he]

namespace ElementPlan

variable {s : TemplateSyntax} {p q : ElementPlan}

/-- The plan with another loop, or none. -/
def withLoop (p : ElementPlan) (l : Option Loop) : ElementPlan := { p with loop := l }

/-- Every attribute but a loop is added without regard to the loop. -/
theorem addAttr_withLoop (l : Option Loop) {a : String × String} (ha : s.role a.1 ≠ .loop) :
    ((p.withLoop l).addAttr s a).run.result =
      (p.addAttr s a).run.result.map fun q => q.withLoop l := by
  obtain ⟨name, source⟩ := a
  unfold addAttr
  simp only
  cases hr : s.role name with
  | loop => exact absurd hr ha
  | ignored => rfl
  | classes => rfl
  | style => rfl
  | event event => rfl
  | value target => rfl
  | plain => rfl

theorem addAttrs_withLoop (l : Option Loop) {attrs : List (String × String)}
    (hattrs : ∀ a ∈ attrs, s.role a.1 ≠ .loop) :
    (addAttrs s (p.withLoop l) attrs).run.result =
      (addAttrs s p attrs).run.result.map fun q => q.withLoop l := by
  induction attrs generalizing p with
  | nil => rfl
  | cons a attrs ih =>
    have ha : s.role a.1 ≠ .loop := hattrs a List.mem_cons_self
    have hrest (q : ElementPlan) := ih (p := q) fun b hb => hattrs b (List.mem_cons_of_mem a hb)
    rw [addAttrs, addAttrs, Compilation.result_bind, Compilation.result_bind,
      addAttr_withLoop l ha]
    cases (p.addAttr s a).run.result with
    | error e => rfl
    | ok q => exact hrest q

/-- Attributes other than loops leave the loop as it is. -/
theorem loop_of_addAttrs {attrs : List (String × String)}
    (hattrs : ∀ a ∈ attrs, s.role a.1 ≠ .loop) (h : (addAttrs s p attrs).run.result = .ok q) :
    q.loop = p.loop := by
  have hsame := addAttrs_withLoop (p := p) p.loop hattrs
  have hself : p.withLoop p.loop = p := rfl
  rw [hself, h] at hsame
  have hq : q = q.withLoop p.loop := Except.ok.inj hsame
  show q.loop = (q.withLoop p.loop).loop
  rw [← hq]

/-- A loop is put in its place. -/
theorem addAttr_loop {name source : String} (hname : s.role name = .loop) :
    (p.addAttr s (name, source)).run.result =
      (Loop.compile source).run.result.map fun l => p.withLoop (some l) := by
  unfold addAttr
  simp only [hname]
  rw [Compilation.result_bind]
  cases (Loop.compile source).run.result <;> rfl

/-- A plain attribute is kept as it is. -/
theorem addAttr_plain {a : String × String} (ha : s.role a.1 = .plain) :
    (p.addAttr s a).run.result = .ok { p with attrs := p.attrs ++ [a] } := by
  unfold addAttr
  simp only [ha]
  rfl

/-- Attributes are added one after the other. -/
theorem addAttrs_append_ok_iff {attrs attrs' : List (String × String)} :
    (addAttrs s p (attrs ++ attrs')).run.result = .ok q ↔
      ∃ r, (addAttrs s p attrs).run.result = .ok r ∧ (addAttrs s r attrs').run.result = .ok q := by
  induction attrs generalizing p with
  | nil => exact ⟨fun h => ⟨p, rfl, h⟩, fun ⟨r, hr, h⟩ => Except.ok.inj hr ▸ h⟩
  | cons a attrs ih =>
    rw [List.cons_append, addAttrs, addAttrs, Compilation.result_bind, Compilation.result_bind]
    cases (p.addAttr s a).run.result with
    | error e => exact ⟨fun h => (by cases h), fun ⟨r, hr, _⟩ => (by cases hr)⟩
    | ok p' => exact ih

end ElementPlan

/-! ## §3. The element and its copy -/

variable {s : TemplateSyntax} {tag source : String} {attrs pre post : List (String × String)}
  {children : List MarkupNode} {c : Compiled}

/-- An element compiles when its attributes and its children do. -/
theorem compileNode_element {plan : ElementPlan} {cs : List Compiled}
    (hplan : (ElementPlan.addAttrs s { tag := tag } attrs).run.result = .ok plan)
    (hcs : (compileNodes s children).run.result = .ok cs) :
    (compileNode s (.element tag attrs children)).run.result = .ok (.element plan cs) := by
  rw [compileNode, Compilation.result_bind, hplan]
  show (compileNodes s children >>= _).run.result = _
  rw [Compilation.result_bind, hcs]
  rfl

/-- **The compiled element** differs from the compiled copy without the loop in its loop alone. -/
theorem compileNode_loop (hmarker : s.marker ≠ "")
    (honly : ∀ a ∈ pre ++ post, a.1 ≠ s.marker ++ "for")
    (hc : (compileNode s (.element tag (pre ++ (s.marker ++ "for", source) :: post)
      children)).run.result = .ok c) :
    ∃ loop plan cs, (Loop.compile source).run.result = .ok loop ∧
      (compileNode s (.element tag (pre ++ post) children)).run.result = .ok (.element plan cs) ∧
      plan.loop = none ∧ c = .element (plan.withLoop (some loop)) cs := by
  have hother : ∀ a ∈ pre ++ post, s.role a.1 ≠ .loop := by
    intro a ha hrole
    exact honly a ha (TemplateSyntax.role_eq_loop_iff.mp hrole).2
  have hpre : ∀ a ∈ pre, s.role a.1 ≠ .loop := fun a ha => hother a (List.mem_append_left _ ha)
  have hpost : ∀ a ∈ post, s.role a.1 ≠ .loop := fun a ha => hother a (List.mem_append_right _ ha)
  have hrole : s.role (s.marker ++ "for") = .loop :=
    TemplateSyntax.role_eq_loop_iff.mpr ⟨hmarker, rfl⟩
  rw [compileNode] at hc
  obtain ⟨looped, hlooped, hc⟩ := Compilation.bind_ok hc
  obtain ⟨cs, hcs, hc⟩ := Compilation.bind_ok hc
  -- The attributes before the loop, the loop, and the attributes after it.
  obtain ⟨first, hfirst, hlooped⟩ := ElementPlan.addAttrs_append_ok_iff.mp hlooped
  rw [ElementPlan.addAttrs] at hlooped
  obtain ⟨second, hsecond, hlooped⟩ := Compilation.bind_ok hlooped
  rw [ElementPlan.addAttr_loop hrole] at hsecond
  obtain ⟨loop, hloop, rfl⟩ := map_eq_ok_iff.mp hsecond
  rw [ElementPlan.addAttrs_withLoop _ hpost] at hlooped
  obtain ⟨plan, hlast, rfl⟩ := map_eq_ok_iff.mp hlooped
  have hplan : (ElementPlan.addAttrs s { tag := tag } (pre ++ post)).run.result = .ok plan :=
    ElementPlan.addAttrs_append_ok_iff.mpr ⟨first, hfirst, hlast⟩
  exact ⟨loop, plan, cs, hloop, compileNode_element hplan hcs,
    ElementPlan.loop_of_addAttrs hother hplan, (Except.ok.inj hc).symm⟩

/-! ## §4. The rounds of a loop -/

/-- The scope of a round of a loop: it binds the item, and the position if that is wanted. -/
def Loop.round (l : Loop) (scope : Scope) (item position : Value) : Scope :=
  scope.child ((l.item, item) :: (l.position.map fun name => (name, position)).toList)

/-- What a loop binds, round by round. -/
theorem Loop.result_frames (ambient : Ambient) (scope : Scope) (l : Loop) :
    (l.frames ambient scope).result =
      match (l.collection.value? ambient scope).result with
      | some (.arr items) => items.zipIdx.map fun x => l.frame (x.1, .ofNat x.2)
      | some (.obj fields) => fields.map fun f => l.frame (f.2, .str f.1)
      | _ => [] := by
  rw [frames, Traced.result_bind]
  cases (l.collection.value? ambient scope).result with
  | none => rfl
  | some v =>
    cases v with
    | arr items =>
      show (items.mapIdx fun i v => (v, Value.ofNat i)).map l.frame = _
      rw [List.mapIdx_eq_zipIdx_map, List.map_map]
      rfl
    | obj fields => exact List.map_map
    | _ => rfl

/-- **The expansion of a loop**: one copy of the element per round. -/
theorem Compiled.expand_loop (ambient : Ambient) (scope : Scope) {plan : ElementPlan} (l : Loop)
    (cs : List Compiled) (hplan : plan.loop = none) :
    ((element (plan.withLoop (some l)) cs).expand ambient scope).result =
      (l.frames ambient scope).result.flatMap fun frame =>
        ((element plan cs).expand ambient (scope.child frame)).result := by
  have hround : ∀ frame, ((element plan cs).expand ambient (scope.child frame)).result =
      [.element (plan.expand ambient (scope.child frame)).result
        (expandAll ambient (scope.child frame) cs).result] := by
    intro frame
    rw [expand, hplan]
    rfl
  rw [expand]
  show (Traced.forEach _ (l.frames ambient scope).result).result = _
  rw [Traced.result_forEach, List.map_eq_flatMap]
  refine List.flatMap_congr ?_
  intro frame _
  rw [hround]
  rfl

/-! ## §5. Unrolling -/

/-- **Loops are unrolled.** An element has a loop among its attributes, at any place, and no second
    one. If it compiles, so does its copy without the loop, and in every scope the element stands
    for the copy once per item of an array, with the item and its index bound, or once per field of
    an object, with the value and the key bound. Over anything else, and where the collection has
    no value, it stands for nothing.

    The virtual nodes are the same, handlers included: they answer every payload alike. -/
theorem unrolled (hmarker : s.marker ≠ "") (honly : ∀ a ∈ pre ++ post, a.1 ≠ s.marker ++ "for")
    (hc : (compileNode s (.element tag (pre ++ (s.marker ++ "for", source) :: post)
      children)).run.result = .ok c) :
    ∃ loop copy, (Loop.compile source).run.result = .ok loop ∧
      (compileNode s (.element tag (pre ++ post) children)).run.result = .ok copy ∧
      ∀ (ambient : Ambient) (scope : Scope), (c.expand ambient scope).result =
        let round (item position : Value) : List VNode :=
          (copy.expand ambient (loop.round scope item position)).result
        match (loop.collection.value? ambient scope).result with
        | some (.arr items) => items.zipIdx.flatMap fun x => round x.1 (.ofNat x.2)
        | some (.obj fields) => fields.flatMap fun f => round f.2 (.str f.1)
        | _ => [] := by
  obtain ⟨loop, plan, cs, hloop, hcopy, hplan, rfl⟩ := compileNode_loop hmarker honly hc
  refine ⟨loop, .element plan cs, hloop, hcopy, ?_⟩
  intro ambient scope
  rw [Compiled.expand_loop ambient scope loop cs hplan, Loop.result_frames]
  cases (loop.collection.value? ambient scope).result with
  | none => rfl
  | some v =>
    cases v with
    | arr items => exact List.flatMap_map _ _ _
    | obj fields => exact List.flatMap_map _ _ _
    | _ => rfl

/-! ## §6. Loops over an entry -/

/-- A loop over an entry reads it by its name. -/
theorem compile_loop_name {vars collection : List Char} {item name : String}
    {position : Option String} (hsplit : splitIn? none source.toList = some (vars, collection))
    (hnames : loopNames? vars = some (item, position))
    (hblank : Text.isBlankText collection = false)
    (hname : String.ofList (Text.trim collection) = name)
    (hparse : Expr.parse name = .ok (.ident name)) :
    (Loop.compile source).run.result = .ok ⟨item, position, ⟨name, some (.ident name)⟩⟩ := by
  have hdirective : (Directive.compile collection).result = ⟨name, some (.ident name)⟩ :=
    Directive.compile_eq hname hparse
  rw [Loop.compile, hsplit]
  simp only [hnames]
  rw [if_neg (by simp [hblank]), Compilation.result_bind]
  show Except.ok (⟨item, position, (Directive.compile collection).result⟩ : Loop) = _
  rw [hdirective]

/-- A list of lists: the loop over the lists has a loop over each of them inside. -/
theorem unrolled_nested :
    let s : TemplateSyntax := {}
    let inner : MarkupNode := .element "b" [(s.marker ++ "for", "y in x")] []
    let item (v : Value) (i : Nat) : Frame := [("x", v), ("i", .ofNat i)]
    let a : Value := .arr [.null, .bool true]
    let b : Value := .arr [.null]
    let scope : Scope := Scope.empty.child [("items", .arr [a, b])]
    ∃ c copy, (compileNode s (.element "li"
        ([] ++ (s.marker ++ "for", "(x, i) in items") :: [("title", "t")]) [inner])).run.result =
          .ok c ∧
      (compileNode s (.element "li" ([] ++ [("title", "t")]) [inner])).run.result = .ok copy ∧
      (c.expand Ambient.standard scope).result =
        (copy.expand Ambient.standard (scope.child (item a 0))).result ++
          (copy.expand Ambient.standard (scope.child (item b 1))).result := by
  intro s inner item a b scope
  have hrole : s.role (s.marker ++ "for") = .loop :=
    TemplateSyntax.role_eq_loop_iff.mpr ⟨by decide, rfl⟩
  have htitle : s.role "title" = .plain := TemplateSyntax.role_eq_plain (by decide) (by decide)
  have hitems : (Loop.compile "(x, i) in items").run.result =
      .ok ⟨"x", some "i", ⟨"items", some (.ident "items")⟩⟩ :=
    compile_loop_name rfl rfl (by decide) (by decide)
      (parse_name (by decide) (by decide))
  have hx : (Loop.compile "y in x").run.result = .ok ⟨"y", none, ⟨"x", some (.ident "x")⟩⟩ :=
    compile_loop_name rfl rfl (by decide) (by decide) (parse_name (by decide) (by decide))
  have hinner : (ElementPlan.addAttrs s { tag := "b" }
      [(s.marker ++ "for", "y in x")]).run.result =
        .ok { tag := "b", loop := some ⟨"y", none, ⟨"x", some (.ident "x")⟩⟩ } := by
    rw [ElementPlan.addAttrs, Compilation.result_bind, ElementPlan.addAttr_loop hrole, hx]
    rfl
  have houter : (ElementPlan.addAttrs s { tag := "li" }
      ([] ++ (s.marker ++ "for", "(x, i) in items") :: [("title", "t")])).run.result =
        .ok { tag := "li", attrs := [("title", "t")]
              loop := some ⟨"x", some "i", ⟨"items", some (.ident "items")⟩⟩ } := by
    rw [List.nil_append, ElementPlan.addAttrs, Compilation.result_bind,
      ElementPlan.addAttr_loop hrole, hitems]
    show (ElementPlan.addAttrs s _ [("title", "t")]).run.result = _
    rw [ElementPlan.addAttrs, Compilation.result_bind, ElementPlan.addAttr_plain htitle]
    rfl
  have hchildren : (compileNodes s [inner]).run.result = .ok [.element
      { tag := "b", loop := some ⟨"y", none, ⟨"x", some (.ident "x")⟩⟩ } []] := by
    rw [compileNodes, Compilation.result_bind, compileNode_element hinner rfl]
    rfl
  have hc := compileNode_element houter hchildren
  obtain ⟨loop, copy, hloop, hcopy, hexpand⟩ := unrolled (by decide) (by decide) hc
  refine ⟨_, copy, hc, hcopy, ?_⟩
  obtain rfl := Except.ok.inj (hitems.symm.trans hloop)
  rw [hexpand]
  exact List.flatMap_cons.trans (congrArg _ (List.flatMap_singleton _ _))

end ReactiveView
