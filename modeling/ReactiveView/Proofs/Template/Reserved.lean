import ReactiveView.Proofs.Reconcile.Convergence
import ReactiveView.Proofs.Template.Attributes
import ReactiveView.Proofs.Template.Rerender

/-! # Expansions keep to the reserved places

  Classes, style and handlers of an element have places of their own. An
  attribute comes to an element in several ways: as it stands, as the value of a
  directive, or as a directive that has no value and is left as it was written.
  The last way goes past the sorting of names, so it matters how directives may
  be spelled.

  * `ElementPlan.Sorted`: what compilation sees to. No directive is written
    `class` or `style`, and events are bound in small letters.
  * `Shell.InPlace`: what expansion sees to, one lemma per operation on elements.
  * `expansion_in_place`: so rendering the same nodes twice costs nothing the
    second time.
-/

namespace ReactiveView

open Text

/-! ## §1. Elements in order -/

/-- What has a place of its own is in this place, and nowhere else. -/
structure Shell.InPlace (e : Shell) : Prop where
  /-- No plain attribute is the class. -/
  class_not_mem : "class" ∉ e.attrs.keys
  /-- No plain attribute is the style. -/
  style_not_mem : "style" ∉ e.attrs.keys
  /-- A class is not blank. -/
  className_not_blank : ∀ c, e.className = some c → isBlankText c.toList = false
  /-- Events have no capitals. -/
  events_small : ∀ event ∈ e.handlers.keys, ∀ c ∈ event.toList, c.isUpper = false

namespace Shell.InPlace

variable {e : Shell}

theorem of_tag (tag : String) : Shell.InPlace { tag := tag } where
  class_not_mem := List.not_mem_nil
  style_not_mem := List.not_mem_nil
  className_not_blank _ hc := nomatch hc
  events_small _ h := absurd h List.not_mem_nil

/-- A blank class is ignored, and a class in front of another one stays what it is. -/
theorem addClass (h : e.InPlace) (name : String) : (e.addClass name).InPlace := by
  unfold Shell.addClass
  split
  · exact h
  · next hblank =>
    have hname : isBlankText name.toList = false := by simpa using hblank
    refine { h with className_not_blank := ?_ }
    intro c hc
    obtain rfl := Option.some.inj hc
    cases hclass : e.className with
    | none => exact hname
    | some existing =>
      simp only
      split
      · exact hname
      · rw [String.toList_append, String.toList_append, List.append_assoc]
        exact isBlankText_append (h.className_not_blank existing hclass) _

theorem setStyle (h : e.InPlace) (property value : String) : (e.setStyle property value).InPlace :=
  ⟨h.class_not_mem, h.style_not_mem, h.className_not_blank, h.events_small⟩

theorem addStyle (h : e.InPlace) (text : String) : (e.addStyle text).InPlace :=
  ⟨h.class_not_mem, h.style_not_mem, h.className_not_blank, h.events_small⟩

theorem setPlain (h : e.InPlace) {name : String} (hname : name ≠ "class" ∧ name ≠ "style")
    (value : String) : (e.setPlain name value).InPlace := by
  refine { h with class_not_mem := ?_, style_not_mem := ?_ }
  · intro hmem
    rcases OrderedMap.mem_keys_insert_iff.mp hmem with heq | hmem
    · exact hname.1 heq.symm
    · exact h.class_not_mem hmem
  · intro hmem
    rcases OrderedMap.mem_keys_insert_iff.mp hmem with heq | hmem
    · exact hname.2 heq.symm
    · exact h.style_not_mem hmem

theorem on (h : e.InPlace) {event : String} (hevent : ∀ c ∈ event.toList, c.isUpper = false)
    (handler : EventHandler) : (e.on event handler).InPlace := by
  refine { h with events_small := ?_ }
  intro other hmem
  rcases OrderedMap.mem_keys_insert_iff.mp hmem with rfl | hmem
  · exact hevent
  · exact h.events_small other hmem

/-- All that is done to an element keeps it so, if no attribute is written where another one has its
    place. -/
theorem kept : Shell.Kept (fun name => name ≠ "class" ∧ name ≠ "style")
    (fun event => ∀ c ∈ event.toList, c.isUpper = false) Shell.InPlace where
  others _ hclass hstyle := ⟨hclass, hstyle⟩
  setPlain _ _ value hname h := h.setPlain hname value
  addClass _ name h := h.addClass name
  setStyle _ property value h := h.setStyle property value
  addStyle _ text h := h.addStyle text
  on _ _ handler hevent h := h.on hevent handler

end Shell.InPlace

/-! ## §2. Plans in order -/

/-- Whether a directive is written with a name that has no place of its own. -/
def Binding.Plain (b : Binding) : Prop := b.written ≠ "class" ∧ b.written ≠ "style"

/-- The directives of an element do not get into the places of others. -/
structure ElementPlan.Sorted (p : ElementPlan) : Prop where
  /-- Bound attributes are written with plain names. -/
  bindings : ∀ b ∈ p.bindings, b.Plain
  /-- So are classes. -/
  classes : ∀ b ∈ p.classes, b.Plain
  /-- So is the style. -/
  style : ∀ b ∈ p.style, b.Plain
  /-- So are events, and the events have no capitals. -/
  events : ∀ b ∈ p.events, b.Plain ∧ ∀ c ∈ b.target.toList, c.isUpper = false

theorem small_of_eventOf? {name : List Char} {event : String} (h : eventOf? name = some event) :
    ∀ c ∈ event.toList, c.isUpper = false := by
  unfold eventOf? at h
  split at h
  · split at h
    · obtain rfl := Option.some.inj h
      intro c hc
      rw [String.toList_ofList] at hc
      obtain ⟨d, -, rfl⟩ := List.mem_map.mp hc
      exact Text.isUpper_toLower d
    · cases h
  · cases h

namespace TemplateSyntax

variable {s : TemplateSyntax} {name event : String}

/-- The prefix begins none of the names with a place of their own. -/
def Apart (s : TemplateSyntax) : Prop :=
  s.marker = "" ∨ ¬ s.marker.toList <+: "class".toList ∧ ¬ s.marker.toList <+: "style".toList

/-- Then such a name is a plain attribute's. -/
theorem Apart.role_eq_plain (h : s.Apart) (hname : name = "class" ∨ name = "style") :
    s.role name = .plain := by
  refine TemplateSyntax.role_eq_plain ?_ ?_
  · cases hd : s.directive? name with
    | none => rfl
    | some d =>
      obtain ⟨hmarker, happend⟩ := directive?_eq_some_iff.mp hd
      have hprefix : s.marker.toList <+: name.toList := ⟨d, happend.symm⟩
      obtain ⟨hclass, hstyle⟩ := h.resolve_left hmarker
      rcases hname with rfl | rfl
      · exact absurd hprefix hclass
      · exact absurd hprefix hstyle
  · rcases hname with rfl | rfl <;> decide

/-- The event of an attribute is in small letters. -/
theorem small_of_role (h : s.role name = .event event) : ∀ c ∈ event.toList, c.isUpper = false := by
  unfold role at h
  cases hd : s.directive? name with
  | none =>
    simp only [hd] at h
    cases he : eventOf? name.toList with
    | none => simp [he] at h
    | some other =>
      simp only [he] at h
      split at h
      · obtain rfl : other = event := by simpa using h
        exact small_of_eventOf? he
      · cases h
  | some d =>
    simp only [hd] at h
    split at h
    · cases h
    · cases h
    · cases h
    · cases h
    · cases he : eventOf? d with
      | none => simp [he] at h
      | some other =>
        obtain rfl : other = event := by simpa [he] using h
        exact small_of_eventOf? he

end TemplateSyntax

namespace ElementPlan

variable {s : TemplateSyntax} {p q : ElementPlan}

/-- No directive is written where another attribute has its place. -/
theorem plain_of_bindingOf? (hs : s.Apart) {target? : AttrRole → Option String}
    (htarget : target? .plain = none) {a : String × String} {b : Binding}
    (h : bindingOf? s target? a = some b) : b.Plain := by
  obtain ⟨target, hrole, rfl⟩ := Option.map_eq_some_iff.mp h
  have hname : ∀ name, name = "class" ∨ name = "style" → a.1 ≠ name := by
    intro name hname heq
    rw [heq, hs.role_eq_plain hname, htarget] at hrole
    cases hrole
  exact ⟨hname "class" (.inl rfl), hname "style" (.inr rfl)⟩

theorem mem_of_mem_getLast?_or {bs : List Binding} {o : Option Binding} {b : Binding}
    (h : b ∈ bs.getLast?.or o) : b ∈ bs ∨ b ∈ o := by
  rcases Option.or_eq_some_iff.mp h with hlast | ⟨-, hb⟩
  · exact .inl (List.mem_of_getLast? hlast)
  · exact .inr hb

/-- **What attributes add** is sorted. -/
theorem Sorted.collect (h : p.Sorted) (hs : s.Apart) (attrs : List (String × String)) :
    (p.collect s attrs).Sorted where
  bindings b hb := by
    rcases List.mem_append.mp hb with hb | hb
    · exact h.bindings b hb
    · obtain ⟨a, -, hab⟩ := List.mem_filterMap.mp hb
      exact plain_of_bindingOf? hs rfl hab
  classes b hb := by
    rcases mem_of_mem_getLast?_or hb with hb | hb
    · obtain ⟨a, -, hab⟩ := List.mem_filterMap.mp hb
      exact plain_of_bindingOf? hs rfl hab
    · exact h.classes b hb
  style b hb := by
    rcases mem_of_mem_getLast?_or hb with hb | hb
    · obtain ⟨a, -, hab⟩ := List.mem_filterMap.mp hb
      exact plain_of_bindingOf? hs rfl hab
    · exact h.style b hb
  events b hb := by
    rcases List.mem_append.mp hb with hb | hb
    · exact h.events b hb
    · obtain ⟨a, -, hab⟩ := List.mem_filterMap.mp hb
      refine ⟨plain_of_bindingOf? hs rfl hab, ?_⟩
      obtain ⟨event, hevent, rfl⟩ := Option.map_eq_some_iff.mp hab
      exact TemplateSyntax.small_of_role (AttrRole.eq_event hevent)

theorem Sorted.addAttrs (h : p.Sorted) (hs : s.Apart) {attrs : List (String × String)}
    (hq : (addAttrs s p attrs).run.result = .ok q) : q.Sorted :=
  addAttrs_eq_collect hq ▸ h.collect hs attrs

theorem sorted_of_tag (tag : String) : ElementPlan.Sorted { tag := tag } where
  bindings _ hb := absurd hb List.not_mem_nil
  classes _ hb := nomatch hb
  style _ hb := nomatch hb
  events _ hb := absurd hb List.not_mem_nil

end ElementPlan

namespace Compiled

mutual

/-- Every plan of a node is sorted. -/
def Sorted : Compiled → Prop
  | .element plan children => plan.Sorted ∧ SortedAll children
  | .text _ => True
  | .comment _ => True

/-- Every plan of a list of nodes is sorted. -/
def SortedAll : List Compiled → Prop
  | [] => True
  | c :: cs => c.Sorted ∧ SortedAll cs

end

end Compiled

section compilation

variable {s : TemplateSyntax}

mutual

/-- **A node** compiles to sorted plans. -/
theorem sorted_compileNode (hs : s.Apart) (n : MarkupNode) {c : Compiled}
    (hc : (compileNode s n).run.result = .ok c) : c.Sorted := by
  match n with
  | .text text =>
    rw [compileNode] at hc
    obtain ⟨segments, -, hc⟩ := Compilation.bind_ok hc
    obtain rfl := Except.ok.inj hc
    trivial
  | .comment text =>
    rw [compileNode] at hc
    obtain rfl := Except.ok.inj hc
    trivial
  | .element tag attrs children =>
    rw [compileNode] at hc
    obtain ⟨plan, hplan, hc⟩ := Compilation.bind_ok hc
    obtain ⟨cs, hcs, hc⟩ := Compilation.bind_ok hc
    obtain rfl := Except.ok.inj hc
    exact ⟨(ElementPlan.sorted_of_tag tag).addAttrs hs hplan,
      sortedAll_compileNodes hs children hcs⟩

/-- **Nodes** compile to sorted plans. -/
theorem sortedAll_compileNodes (hs : s.Apart) (ns : List MarkupNode) {cs : List Compiled}
    (hcs : (compileNodes s ns).run.result = .ok cs) : Compiled.SortedAll cs := by
  match ns with
  | [] =>
    rw [compileNodes] at hcs
    obtain rfl := Except.ok.inj hcs
    trivial
  | n :: ns =>
    rw [compileNodes] at hcs
    obtain ⟨c, hc, hcs⟩ := Compilation.bind_ok hcs
    obtain ⟨cs', hcs', hcs⟩ := Compilation.bind_ok hcs
    obtain rfl := Except.ok.inj hcs
    exact ⟨sorted_compileNode hs n hc, sortedAll_compileNodes hs ns hcs'⟩

end

end compilation

/-! ## §3. Expansions in order -/

/-- **An element** of a sorted plan has everything in its place. -/
theorem ElementPlan.Sorted.inPlace {p : ElementPlan} (h : p.Sorted) (ambient : Ambient)
    (scope : Scope) : (p.expand ambient scope).result.InPlace :=
  Shell.InPlace.kept.expand ⟨h.bindings, h.classes, h.style, h.events⟩ (.of_tag p.tag) ambient scope

namespace VNode

variable {P : Shell → Prop}

theorem everywhereAll_iff {ns : List VNode} : EverywhereAll P ns ↔ ∀ n ∈ ns, n.Everywhere P := by
  induction ns with
  | nil => simp [EverywhereAll]
  | cons n ns ih => simp [EverywhereAll, ih]

mutual

theorem unreserved_of_inPlace (n : VNode) (h : n.Everywhere Shell.InPlace) : n.Unreserved := by
  match n, h with
  | .text _, _ => trivial
  | .comment _, _ => trivial
  | .element e children, h =>
    exact ⟨h.1.class_not_mem, h.1.style_not_mem, unreservedAll_of_inPlace children h.2⟩

/-- What is in its place leaves the reserved names alone. -/
theorem unreservedAll_of_inPlace (ns : List VNode) (h : EverywhereAll Shell.InPlace ns) :
    UnreservedAll ns := by
  match ns, h with
  | [], _ => trivial
  | n :: ns, h => exact ⟨unreserved_of_inPlace n h.1, unreservedAll_of_inPlace ns h.2⟩

end

end VNode

mutual

/-- **A node** of sorted plans has everything in its place, in every scope. -/
theorem Compiled.inPlace_expand (c : Compiled) (h : c.Sorted) (ambient : Ambient) (scope : Scope) :
    VNode.EverywhereAll Shell.InPlace (c.expand ambient scope).result := by
  match c, h with
  | .text segments, _ => exact ⟨trivial, trivial⟩
  | .comment body, _ => exact ⟨trivial, trivial⟩
  | .element plan children, h =>
    -- Each copy of the element has a scope of its own.
    rw [Compiled.result_expand_element, VNode.everywhereAll_iff]
    intro n hn
    obtain ⟨inner, -, rfl⟩ := List.mem_map.mp hn
    exact ⟨h.1.inPlace ambient inner, inPlace_expandAll children h.2 ambient inner⟩

/-- **Nodes** of sorted plans have everything in its place, in every scope. -/
theorem Compiled.inPlace_expandAll (cs : List Compiled) (h : Compiled.SortedAll cs)
    (ambient : Ambient) (scope : Scope) :
    VNode.EverywhereAll Shell.InPlace (Compiled.expandAll ambient scope cs).result := by
  match cs, h with
  | [], _ => trivial
  | c :: cs, h =>
    rw [Compiled.expandAll, Traced.result_bind, VNode.everywhereAll_iff]
    intro n hn
    rcases List.mem_append.mp hn with hn | hn
    · exact VNode.everywhereAll_iff.mp (inPlace_expand c h.1 ambient scope) n hn
    · exact VNode.everywhereAll_iff.mp (inPlace_expandAll cs h.2 ambient scope) n hn

end

/-! ## §4. Templates in order -/

variable {source : String} {ambient : Ambient} {s : TemplateSyntax} {t : Template}

theorem sortedAll_of_compile (hs : s.Apart)
    (ht : (Template.compile source ambient s).run.result = .ok t) :
    Compiled.SortedAll t.nodes := by
  unfold Template.compile at ht
  split at ht
  · cases ht
  · next forest hforest =>
    obtain ⟨nodes, hnodes, ht⟩ := Compilation.bind_ok ht
    obtain rfl := Except.ok.inj ht
    exact sortedAll_compileNodes hs forest hnodes

/-- **Expansions keep to the reserved places**, whatever the template and the scope, unless a
    directive may be spelled like the name of a place. At every depth, classes and style are in
    their places and nowhere else, a class is not blank, and events are in small letters. So
    bringing a live tree in line with the same expansion twice makes no edits the second time. -/
theorem expansion_in_place (hs : s.Apart)
    (ht : (Template.compile source ambient s).run.result = .ok t) (scope : Scope) :
    VNode.EverywhereAll Shell.InPlace (t.expand scope).result ∧
      ∀ (tree : LiveTree) (p : NodeId), tree.WellFormed → tree.exists? p = true →
        ((tree.reconcile .stored p (t.expand scope).result).1.reconcile .stored p
          (t.expand scope).result).2 = 0 := by
  have hplaces := Compiled.inPlace_expandAll t.nodes (sortedAll_of_compile hs ht) t.ambient scope
  refine ⟨hplaces, ?_⟩
  intro tree p hwf hp
  rw [reconcile_edits_zero_iff_matchesAll]
  exact matchesAll_reconcile hwf hp (VNode.unreservedAll_of_inPlace _ hplaces)

/-- Two directives have no value and are left as they were written. The class is in its place all
    the same. -/
theorem expansion_in_place_left_as_written :
    ∃ t, ({} : TemplateSyntax).Apart ∧
      (Template.compile "<p class=a dr:class=x dr:onClick=f>b</p>" Ambient.standard
        {}).run.result = .ok t ∧
      Html.render (t.expand Scope.empty).result =
        "<p dr:class=\"x\" dr:onClick=\"f\" class=\"a\">b</p>" ∧
      VNode.EverywhereAll Shell.InPlace (t.expand Scope.empty).result ∧
      LiveTree.initial.WellFormed ∧ LiveTree.initial.exists? 0 = true ∧
      ((LiveTree.initial.reconcile .stored 0 (t.expand Scope.empty).result).1.reconcile .stored 0
        (t.expand Scope.empty).result).2 = 0 := by
  have happart : ({} : TemplateSyntax).Apart := .inr (by decide)
  have hshown : ((Template.compile "<p class=a dr:class=x dr:onClick=f>b</p>" Ambient.standard
      {}).run.result.map fun t => Html.render (t.expand Scope.empty).result) =
        .ok "<p dr:class=\"x\" dr:onClick=\"f\" class=\"a\">b</p>" := by decide +kernel
  obtain ⟨t, ht, hrender⟩ := map_eq_ok_iff.mp hshown
  obtain ⟨hplaces, htwice⟩ := expansion_in_place happart ht Scope.empty
  exact ⟨t, happart, ht, hrender, hplaces, LiveTree.wellFormed_initial, rfl,
    htwice LiveTree.initial 0 LiveTree.wellFormed_initial rfl⟩

end ReactiveView
