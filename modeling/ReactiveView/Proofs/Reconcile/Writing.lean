import ReactiveView.LiveTree.Html
import ReactiveView.Proofs.Reconcile.Convergence

/-! # What is built is written as it stands

  Virtual nodes are written as HTML in two ways that know nothing of each other:
  as they are, and through the live nodes that are built for them. The texts are
  the same, if no tag has a capital and no plain attribute the name `class` or
  `style`: the live tree makes tags small, and it keeps the class among the
  attributes and the style apart.

  * `html_congr`: how a node is written depends on what is at and below it.
  * `WrittenAs`: a live node is written as a virtual one is.
  * `build_writtenAs`, `appendAll_writtenAs`: what is built and appended is.
  * `innerHtml_reconcile`: so are the children of a node that had none.
-/

namespace ReactiveView

open LiveTree

/-! ## §1. Virtual nodes -/

/-- An element that is written with the same tag and the same attributes when it is live: no capital
    in the tag, and nothing in a reserved place. -/
structure Shell.Literal (e : Shell) : Prop where
  /-- The tag has no ASCII capital. -/
  no_capital : ∀ c ∈ e.tag.toList, c.isUpper = false
  /-- The class is not a plain attribute. -/
  class_not_mem : "class" ∉ e.attrs.keys
  /-- The style is not a plain attribute. -/
  style_not_mem : "style" ∉ e.attrs.keys

namespace VNode

mutual

/-- The number of live nodes that a virtual one takes. -/
def count : VNode → Nat
  | text _ => 1
  | comment _ => 1
  | element _ children => countAll children + 1

/-- The same for all nodes of a list. -/
def countAll : List VNode → Nat
  | [] => 0
  | v :: vs => count v + countAll vs

end

end VNode

/-! ## §2. What the written form depends on -/

namespace LiveTree

variable {t t' : LiveTree} {n : NodeId}

/-- A tree that looks the same at and below a node writes it in the same way. -/
theorem html_congr (wf : t.WellFormed) (hface : ∀ m, t.Below m n → t'.face? m = t.face? m)
    (depth : Nat) : t'.html depth n = t.html depth n := by
  induction depth generalizing n with
  | zero => rfl
  | succ depth ih =>
    rcases slot?_of_face? (hface n (Below.refl t n)) with ⟨hn', hn⟩ | ⟨s, q, hs, hs'⟩
    · rw [html, html, hn, hn']
    · have hchildren : s.children.flatMap (t'.html depth) = s.children.flatMap (t.html depth) := by
        refine List.flatMap_congr ?_
        intro c hc
        have hcn : t.ChildOf c n := (wf.mem_children_iff c n).mp (by rwa [children_of_slot? hs])
        exact ih fun m hm => hface m (hm.trans hcn.below)
      simp only [html, hs, hs', hchildren]
      rfl

end LiveTree

namespace Work

variable {w w' w₁ : Work} {n p : NodeId} {v : VNode} {vs : List VNode} {e : Shell}

/-! ## §3. A new element -/

/-- The class goes behind the plain attributes. -/
theorem slot?_setClass {s : Slot} (h : w.tree.slot? n = some s) (hs : "class" ∉ s.attrs.keys)
    (c : Option String) :
    ∃ m, (w.setClass n c).tree.slot? n = some { s with attrs := m } ∧
      m.entries = s.attrs.entries ++ (c.map fun c => ("class", c)).toList := by
  cases c with
  | none => exact ⟨s.attrs, h, (List.append_nil _).symm⟩
  | some c =>
    refine ⟨_, slot?_setAttribute h (by decide) c, ?_⟩
    rw [OrderedMap.entries_insert, Entries.insert_of_not_mem hs]
    rfl

/-- An element that is built has the tag and the written attributes of the virtual one. -/
theorem slot?_buildShell (w : Work) (he : e.Literal) :
    ∃ s, (w.buildShell e).tree.slot? w.tree.slots.size = some s ∧ s.kind = .element e.tag ∧
      writtenAttrs s = Html.writtenAttrs e ∧ s.children = [] := by
  have htag : Text.lowerAsciiText e.tag = e.tag := by
    rw [Text.lowerAsciiText, Text.lowerAscii_eq_self he.no_capital, String.ofList_toList]
  have hnew := slot?_createElement w.tree e.tag
  rw [htag] at hnew
  have hattrs := slot?_setAttributes (w := ⟨_, w.edits + 1⟩) he.style_not_mem hnew
  rw [OrderedMap.foldl_insert, OrderedMap.insertAll_empty] at hattrs
  obtain ⟨m, hclass, hentries⟩ := slot?_setClass hattrs he.class_not_mem e.className
  have hstyle := slot?_setStyles e.style.entries hclass
  rw [OrderedMap.foldl_insert, OrderedMap.insertAll_empty] at hstyle
  refine ⟨_, slot?_listenAll e.handlers.entries hstyle, rfl, ?_, rfl⟩
  show m.entries ++ _ = _
  rw [hentries]
  rfl

/-! ## §4. Building -/

/-- The live node is written as the virtual one is, by any walk that goes deep enough. -/
def WrittenAs (t : LiveTree) (n : NodeId) (v : VNode) : Prop :=
  ∀ depth, v.count ≤ depth → t.html depth n = Html.node v

/-- The live nodes are written, one after the other, as the virtual ones are. -/
def WrittenAsAll (t : LiveTree) (ns : List NodeId) (vs : List VNode) : Prop :=
  ∀ depth, VNode.countAll vs ≤ depth → ns.flatMap (t.html depth) = Html.nodes vs

theorem writtenAs_create_text (t : LiveTree) (s : String) :
    WrittenAs (t.create .text s).2 t.slots.size (.text s) := by
  intro depth hdepth
  have hpos : 1 ≤ depth := hdepth
  obtain ⟨depth, rfl⟩ := Nat.exists_eq_add_of_le' hpos
  simp [html, slot?_create, Html.node]

theorem writtenAs_create_comment (t : LiveTree) (s : String) :
    WrittenAs (t.create .comment s).2 t.slots.size (.comment s) := by
  intro depth hdepth
  have hpos : 1 ≤ depth := hdepth
  obtain ⟨depth, rfl⟩ := Nat.exists_eq_add_of_le' hpos
  simp [html, slot?_create, Html.node]

/-- An element is written as the virtual one is, once its children are. -/
theorem writtenAs_element (he : e.Literal) {ns : List NodeId}
    (h : Appended (w.buildShell e) w.tree.slots.size vs ns w')
    (hwritten : WrittenAsAll w'.tree ns vs) :
    WrittenAs w'.tree w.tree.slots.size (.element e vs) := by
  obtain ⟨s, hs, hkind, hattrs, hchildren⟩ := w.slot?_buildShell he
  have hs' := h.slot?_eq
  rw [hs, Option.map_some, hchildren, List.nil_append] at hs'
  intro depth hdepth
  obtain ⟨depth, rfl⟩ := Nat.exists_eq_add_of_le' (Nat.le_of_add_left_le hdepth)
  have hbelow := hwritten depth (Nat.le_of_add_le_add_right hdepth)
  simp only [html, hs', hkind, hbelow, Html.node]
  rw [← hattrs]
  rfl

/-- A node that is appended is written as before, whatever is appended behind it. -/
theorem Built.html_eq {ns : List NodeId} (h : Built w v n w₁) (wf : w.tree.WellFormed)
    (hp : p < w.tree.slots.size) (h' : Appended (w₁.edit (·.append p n)) p vs ns w') (depth : Nat) :
    w'.tree.html depth n = w₁.tree.html depth n := by
  have hfirst := h.appended wf hp
  have hlater : w'.tree.html depth n = (w₁.tree.append p n).html depth n :=
    html_congr hfirst.wellFormed
      (fun m hm => face?_of_slot?_eq (hfirst.slot?_below h' hp List.mem_cons_self hm)) depth
  exact hlater.trans (html_congr h.wellFormed (fun m hm => h.face?_below wf hp hm) depth)

mutual

/-- **Building** makes as many nodes as the virtual one takes, and it is written like that. -/
theorem build_writtenAs (w : Work) (v : VNode) (wf : w.tree.WellFormed)
    (hv : v.Everywhere Shell.Literal) :
    (w.build v).2.tree.slots.size = w.tree.slots.size + v.count ∧
      WrittenAs (w.build v).2.tree (w.build v).1 v := by
  match v with
  | .text s => exact ⟨size_create w.tree .text s, writtenAs_create_text w.tree s⟩
  | .comment s => exact ⟨size_create w.tree .comment s, writtenAs_create_comment w.tree s⟩
  | .element e children =>
    obtain ⟨he, hchildren⟩ := hv
    rw [build_element]
    obtain ⟨ns, hns, hsize, hwritten⟩ := appendAll_writtenAs (w.buildShell e) w.tree.slots.size
      children (wellFormed_buildShell wf e) (w.lt_size_buildShell e) hchildren
    refine ⟨?_, writtenAs_element he hns hwritten⟩
    rw [hsize, size_buildShell, VNode.count]
    omega

/-- **Appending** the same, for each node of a list. -/
theorem appendAll_writtenAs (w : Work) (p : NodeId) (vs : List VNode) (wf : w.tree.WellFormed)
    (hp : p < w.tree.slots.size) (hvs : VNode.EverywhereAll Shell.Literal vs) :
    ∃ ns, Appended w p vs ns (w.appendAll p vs) ∧
      (w.appendAll p vs).tree.slots.size = w.tree.slots.size + VNode.countAll vs ∧
      WrittenAsAll (w.appendAll p vs).tree ns vs := by
  match vs with
  | [] =>
    rw [appendAll]
    exact ⟨[], Appended.nil wf p, rfl, fun _ _ => rfl⟩
  | v :: vs =>
    have hbuilt := build_spec w v wf
    have hfirst := hbuilt.appended wf hp
    obtain ⟨hsize, hwritten⟩ := build_writtenAs w v wf hvs.1
    rw [appendAll_cons]
    obtain ⟨ns, hrest, hsize', hwritten'⟩ := appendAll_writtenAs _ p vs hfirst.wellFormed
      (hfirst.sameOff.lt hp) hvs.2
    refine ⟨_ :: ns, hfirst.trans hrest hp, ?_, ?_⟩
    · rw [hsize', tree_edit, size_append, hsize, VNode.countAll]
      omega
    · intro depth hdepth
      rw [VNode.countAll] at hdepth
      rw [List.flatMap_cons, hbuilt.html_eq wf hp hrest, hwritten depth (by omega),
        hwritten' depth (by omega), Html.nodes]

end

end Work

/-! ## §5. The children of a node -/

variable {t : LiveTree} {p : NodeId}

theorem reconcile_of_children_eq_nil (h : t.children p = []) (vs : List VNode) :
    (t.reconcile .stored p vs).1 = (Work.appendAll ⟨t, 0⟩ p vs).tree := by
  rw [reconcile_eq]
  simp [Work.settleAll, Work.trim, h, Work.settle_nil]

/-- **Both ways of writing agree**: what is shown in a node without children is written as it
    stands. -/
theorem innerHtml_reconcile (wf : t.WellFormed) (hp : t.exists? p = true)
    (hempty : t.children p = []) {vs : List VNode} (hvs : VNode.EverywhereAll Shell.Literal vs) :
    (t.reconcile .stored p vs).1.innerHtml p = Html.render vs := by
  obtain ⟨ns, hns, hsize, hwritten⟩ :=
    Work.appendAll_writtenAs ⟨t, 0⟩ p vs wf (exists?_iff.mp hp) hvs
  have hchildren := hns.children_eq (exists?_iff.mp hp)
  rw [hempty, List.nil_append] at hchildren
  rw [reconcile_of_children_eq_nil hempty, innerHtml, hchildren, Html.render]
  rw [hwritten _ (by rw [hsize]; omega)]

/-- A paragraph with a plain attribute, a class and a style, around a text and an element. -/
theorem innerHtml_reconcile_paragraph :
    (LiveTree.initial.reconcile .stored 0
      [.element
        { tag := "p", attrs := .ofEntries [("id", "a")], className := some "b",
          style := .ofEntries [("top", "0"), ("left", "1px")] }
        [.text "1 < 2", .element { tag := "br" } [], .comment "c"]]).1.innerHtml 0 =
      "<p id=\"a\" class=\"b\" style=\"top: 0; left: 1px\">1 &lt; 2<br></br><!--c--></p>" := by
  refine (innerHtml_reconcile wellFormed_initial rfl rfl ?_).trans (by decide)
  exact ⟨⟨⟨by simp, by decide, by decide⟩, trivial, ⟨⟨by simp, by decide, by decide⟩, trivial⟩,
    trivial, trivial⟩, trivial⟩

end ReactiveView
