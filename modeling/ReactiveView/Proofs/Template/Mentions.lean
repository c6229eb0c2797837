import Mathlib.Data.List.Find
import ReactiveView.Proofs.Expr.Names
import ReactiveView.Proofs.OrderedMap.Agree
import ReactiveView.Template.Expand

/-! # What a template mentions

  The entries of a store are the outermost bindings of a render, and a template
  sees no other entries than those it mentions: the names that stand free in one
  of its expressions and are not variables of a loop around it. The collection of
  a loop lies outside of its variables, all else on its element inside.

  * `Template.mentions`: these names.
  * One lemma per function of the expansion: in scopes that agree on what a part
    mentions, the part expands alike, its handlers and the events included.
  * `render_eq_of_agree`: two stores that agree on what a template mentions are
    rendered alike.
-/

namespace ReactiveView

/-! ## §1. The names that are mentioned -/

/-- The names that a directive reads; none if its source is no expression. -/
def Directive.mentions (d : Directive) : List String := (d.expr.map Expr.freeNames).getD []

/-- The names that a piece of a text reads. -/
def Segment.mentions : Segment → List String
  | .literal _ => []
  | .interpolation _ d => d.mentions

/-- The names that a loop binds. -/
def Loop.names (l : Loop) : List String := l.item :: l.position.toList

/-- The names that the directives of an element read, its loop apart. -/
def ElementPlan.mentions (p : ElementPlan) : List String :=
  (p.bindings ++ p.classes.toList ++ p.style.toList ++ p.events).flatMap (·.directive.mentions)

mutual

/-- The names that a node reads from around it. -/
def Compiled.mentions : Compiled → List String
  | .text segments => segments.flatMap Segment.mentions
  | .comment _ => []
  | .element plan children =>
    let inside := plan.mentions ++ mentionsAll children
    match plan.loop with
    | none => inside
    | some loop => loop.collection.mentions ++ inside.filter (· ∉ loop.names)

/-- The names that a list of nodes reads. -/
def Compiled.mentionsAll : List Compiled → List String
  | [] => []
  | c :: cs => c.mentions ++ mentionsAll cs

end

/-- The names that a template reads from the store. -/
def Template.mentions (t : Template) : List String := Compiled.mentionsAll t.nodes

/-! ## §2. Directives in scopes that agree -/

section Congruence

variable {ambient : Ambient} {s s' : Scope}

theorem Directive.agreeOn_of_expr {d : Directive} {e : Expr} (he : d.expr = some e)
    (h : s.AgreeOn s' d.mentions) : s.AgreeOn s' (Expr.freeOccurrences [] e) := by
  intro n hn
  apply h
  rw [mentions, he]
  exact Expr.mem_freeNames_iff.mpr hn

theorem Directive.value?_congr {d : Directive} (h : s.AgreeOn s' d.mentions) :
    d.value? ambient s = d.value? ambient s' := by
  unfold value?
  split
  · rfl
  · next e he => rw [Expr.eval_congr e (agreeOn_of_expr he h)]

theorem Expr.checkResolved_congr {e : Expr} (h : s.AgreeOn s' (freeOccurrences [] e)) :
    e.checkResolved ambient s = e.checkResolved ambient s' := by
  unfold checkResolved
  rw [List.find?_congr]
  intro n hn
  rw [h n (mem_freeNames_iff.mp hn)]

/-- A handler keeps its scope, and so it answers alike whenever it is called. -/
theorem respondWith_congr {e : Expr} (h : s.AgreeOn s' (Expr.freeOccurrences [] e))
    (payload : Value) : respondWith ambient s e payload = respondWith ambient s' e payload := by
  unfold respondWith
  split
  · exact Expr.eval_congr _ (Expr.agreeOn_child_bindParams h [payload])
  · next name =>
    rw [h name (by simp [Expr.freeOccurrences]), Expr.eval_congr _ h]
  · exact Expr.eval_congr _ h

theorem Directive.handler?_congr {d : Directive} (h : s.AgreeOn s' d.mentions) :
    d.handler? ambient s = d.handler? ambient s' := by
  unfold handler?
  split
  · rfl
  · next e he =>
    have hagree := agreeOn_of_expr he h
    have hrespond : respond ambient s d.source e = respond ambient s' d.source e := by
      funext payload
      rw [respond, respond, respondWith_congr hagree]
    rw [Expr.checkResolved_congr hagree, hrespond]

/-! ## §3. Elements, texts and loops in scopes that agree -/

theorem Shell.bind_congr {set : Shell → Value → Shell} {e : Shell} {b : Binding}
    (h : s.AgreeOn s' b.directive.mentions) :
    e.bind ambient s set b = e.bind ambient s' set b := by
  rw [Shell.bind, Shell.bind, Directive.value?_congr h]

theorem Shell.bindAll_congr {e : Shell} {bs : List Binding}
    (h : ∀ b ∈ bs, s.AgreeOn s' b.directive.mentions) :
    e.bindAll ambient s bs = e.bindAll ambient s' bs := by
  induction bs generalizing e with
  | nil => rfl
  | cons b bs ih =>
    have hrest (e : Shell) := ih (e := e) fun b' hb' => h b' (List.mem_cons_of_mem b hb')
    simp only [bindAll, bind_congr (h b List.mem_cons_self), hrest]

theorem Shell.bindOption_congr {set : Shell → Value → Shell} {e : Shell} {b : Option Binding}
    (h : ∀ b' ∈ b.toList, s.AgreeOn s' b'.directive.mentions) :
    e.bindOption ambient s set b = e.bindOption ambient s' set b := by
  cases b with
  | none => rfl
  | some b => exact bind_congr (h b (by simp))

theorem Shell.listenAll_congr {e : Shell} {bs : List Binding}
    (h : ∀ b ∈ bs, s.AgreeOn s' b.directive.mentions) :
    e.listenAll ambient s bs = e.listenAll ambient s' bs := by
  induction bs generalizing e with
  | nil => rfl
  | cons b bs ih =>
    have hrest (e : Shell) := ih (e := e) fun b' hb' => h b' (List.mem_cons_of_mem b hb')
    simp only [listenAll, Directive.handler?_congr (h b List.mem_cons_self), hrest]

theorem ElementPlan.expand_congr {p : ElementPlan} (h : s.AgreeOn s' p.mentions) :
    p.expand ambient s = p.expand ambient s' := by
  have hdirective : ∀ b ∈ p.bindings ++ p.classes.toList ++ p.style.toList ++ p.events,
      s.AgreeOn s' b.directive.mentions := by
    intro b hb
    exact h.mono fun n hn => List.mem_flatMap.mpr ⟨b, hb, hn⟩
  simp only [List.mem_append] at hdirective
  have hbindings (e : Shell) :
      e.bindAll ambient s p.bindings = e.bindAll ambient s' p.bindings :=
    Shell.bindAll_congr fun b hb => hdirective b (.inl (.inl (.inl hb)))
  have hclasses (e : Shell) :
      e.bindOption ambient s Shell.addClasses p.classes =
        e.bindOption ambient s' Shell.addClasses p.classes :=
    Shell.bindOption_congr fun b hb => hdirective b (.inl (.inl (.inr hb)))
  have hstyle (e : Shell) :
      e.bindOption ambient s Shell.addStyles p.style =
        e.bindOption ambient s' Shell.addStyles p.style :=
    Shell.bindOption_congr fun b hb => hdirective b (.inl (.inr hb))
  have hevents (e : Shell) :
      e.listenAll ambient s p.events = e.listenAll ambient s' p.events :=
    Shell.listenAll_congr fun b hb => hdirective b (.inr hb)
  simp only [expand, hbindings, hclasses, hstyle, hevents]

theorem Segment.expand_congr {g : Segment} (h : s.AgreeOn s' g.mentions) :
    g.expand ambient s = g.expand ambient s' := by
  cases g with
  | literal text => rfl
  | interpolation marker d => rw [expand, expand, Directive.value?_congr h]

theorem Loop.frames_congr {l : Loop} (h : s.AgreeOn s' l.collection.mentions) :
    l.frames ambient s = l.frames ambient s' := by
  rw [frames, frames, Directive.value?_congr h]

/-- Every round of a loop binds its variables and nothing else. -/
theorem Loop.keys_of_mem_frames {l : Loop} {f : Frame} (h : f ∈ (l.frames ambient s).result) :
    f.keys = l.names := by
  have hframe : ∀ item, Entries.keys (l.frame item) = l.names := by
    intro item
    unfold Loop.frame names
    cases l.position <;> rfl
  rw [frames, Traced.result_bind] at h
  split at h
  · cases h
  · split at h
    · obtain ⟨item, -, rfl⟩ := List.mem_map.mp h
      exact hframe item
    · cases h

theorem Traced.bind_congr {α β : Type} {t : Traced α} {f g : α → Traced β}
    (h : f t.result = g t.result) : t >>= f = t >>= g := by
  show bind t f = bind t g
  rw [bind, bind, h]

theorem Traced.forEach_congr {α β : Type} {f g : α → Traced β} {as : List α}
    (h : ∀ a ∈ as, f a = g a) : forEach f as = forEach g as := by
  induction as with
  | nil => rfl
  | cons a as ih =>
    rw [forEach, forEach, h a List.mem_cons_self, ih fun b hb => h b (List.mem_cons_of_mem a hb)]

/-! ## §4. Nodes in scopes that agree -/

namespace Compiled

/-- In a round of a loop the variables are bound alike, and the rest is mentioned. -/
theorem agreeOn_child_of_loop {l : Loop} {f : Frame} {inside : List String}
    (hkeys : f.keys = l.names)
    (h : s.AgreeOn s' (l.collection.mentions ++ inside.filter (· ∉ l.names))) :
    (s.child f).AgreeOn (s'.child f) inside := by
  refine Scope.AgreeOn.child f ?_
  intro n hn hfree
  rw [hkeys] at hfree
  exact h n (List.mem_append_right _ (List.mem_filter.mpr ⟨hn, decide_eq_true hfree⟩))

mutual

/-- A node expands alike in scopes that agree on what it mentions. -/
theorem expand_congr {s s' : Scope} (c : Compiled) (h : s.AgreeOn s' c.mentions) :
    c.expand ambient s = c.expand ambient s' := by
  match c with
  | .text segments =>
    rw [mentions] at h
    have hsegments : Traced.forEach (Segment.expand ambient s) segments =
        Traced.forEach (Segment.expand ambient s') segments :=
      Traced.forEach_congr fun g hg =>
        Segment.expand_congr (h.mono fun n hn => List.mem_flatMap.mpr ⟨g, hg, hn⟩)
    rw [expand, expand, hsegments]
  | .comment body => rw [expand, expand]
  | .element plan children =>
    rw [mentions] at h
    rw [expand, expand]
    cases hloop : plan.loop with
    | none =>
      simp only [hloop] at h ⊢
      rw [ElementPlan.expand_congr (h.mono (List.subset_append_left _ _)),
        expandAll_congr children (h.mono (List.subset_append_right _ _))]
    | some loop =>
      simp only [hloop] at h ⊢
      rw [Loop.frames_congr (h.mono (List.subset_append_left _ _))]
      -- The rounds are the same, and each expands alike in its own scope.
      refine Traced.bind_congr (Traced.forEach_congr ?_)
      intro frame hframe
      have hinside := agreeOn_child_of_loop (Loop.keys_of_mem_frames hframe) h
      rw [ElementPlan.expand_congr (hinside.mono (List.subset_append_left _ _)),
        expandAll_congr children (hinside.mono (List.subset_append_right _ _))]

/-- The same of a list of nodes. -/
theorem expandAll_congr {s s' : Scope} (cs : List Compiled) (h : s.AgreeOn s' (mentionsAll cs)) :
    expandAll ambient s cs = expandAll ambient s' cs := by
  match cs with
  | [] => rw [expandAll, expandAll]
  | c :: cs =>
    rw [mentionsAll] at h
    rw [expandAll, expandAll, expand_congr c (h.mono (List.subset_append_left _ _)),
      expandAll_congr cs (h.mono (List.subset_append_right _ _))]

end

end Compiled

end Congruence

/-! ## §5. Stores that agree -/

/-- The outermost scope of a render binds the entries of the store. -/
theorem Scope.lookup_entries (σ : Snapshot) (n : String) :
    (Scope.empty.child σ.entries).lookup n = σ.find? n := by
  have hnodup : (Entries.keys σ.entries.reverse).Nodup := by
    rw [Entries.keys, List.map_reverse, List.nodup_reverse]
    exact σ.nodup_keys
  have hlookup : σ.entries.reverse.lookup n = σ.find? n := by
    apply Option.ext
    intro v
    rw [Entries.lookup_eq_some_iff_mem hnodup, OrderedMap.find?_eq_some_iff, List.mem_reverse]
  rw [Scope.lookup_child, hlookup, Scope.lookup_empty, Option.or_none]

/-- **A render depends only on what its template mentions.** Two stores that agree on every name
    that a template mentions, on presence and on value, give the same virtual nodes, with handlers
    on the same events of the same elements that answer every payload by the same events, calls of
    helpers among them; and the same happens on the way. -/
theorem Template.render_eq_of_agree (t : Template) {σ σ' : Snapshot}
    (h : ∀ n ∈ t.mentions, σ.find? n = σ'.find? n) : t.render σ = t.render σ' := by
  have hagree :
      (Scope.empty.child σ.entries).AgreeOn (Scope.empty.child σ'.entries) t.mentions := by
    intro n hn
    rw [Scope.lookup_entries, Scope.lookup_entries]
    exact h n hn
  exact Compiled.expandAll_congr t.nodes hagree

/-- A list that logs an item together with the user when the item is clicked; the item has the name
    of an entry of the store, which it hides. -/
def Template.clickableItems : Template where
  nodes := [.element
    { tag := "li"
      loop := some ⟨"x", none, ⟨"items", some (.ident "items")⟩⟩
      events := [⟨"click", "onclick",
        ⟨"log(x, user)", some (.call (.ident "log") [.ident "x", .ident "user"])⟩⟩] }
    [.text [.interpolation "\x7b\x7b x \x7d\x7d" ⟨"x", some (.ident "x")⟩]]]
  ambient := Ambient.standard
  spelling := {}

theorem Template.render_eq_of_agree_clickableItems :
    let items : Value := .arr [.str "a", .str "b"]
    let σ : Snapshot := .ofEntries [("items", items), ("user", .str "u"), ("x", .null)]
    let σ' : Snapshot := .ofEntries [("x", .bool true), ("user", .str "u"), ("items", items)]
    clickableItems.mentions = ["items", "log", "user"] ∧
      σ.find? "x" = some .null ∧ σ'.find? "x" = some (.bool true) ∧
      clickableItems.render σ = clickableItems.render σ' := by
  intro items σ σ'
  have hmentions : clickableItems.mentions = ["items", "log", "user"] := by decide
  refine ⟨hmentions, rfl, rfl, render_eq_of_agree clickableItems ?_⟩
  rw [hmentions]
  intro n hn
  simp only [List.mem_cons, List.not_mem_nil, or_false] at hn
  rcases hn with rfl | rfl | rfl
  · rfl
  · rfl
  · rfl

end ReactiveView
