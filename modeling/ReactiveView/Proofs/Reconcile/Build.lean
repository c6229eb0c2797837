import ReactiveView.Proofs.LiveTree.Structure
import ReactiveView.Reconcile

/-! # Building live nodes

  `Work.build` makes a live node for a virtual one, and `Work.appendAll` makes
  several and appends them. Both leave every node that was there as it was,
  except that the parent of an appended node lists it.

  * `build_spec`: the new node is apart from all old ones, and it matches.
  * `appendAll_spec`: the parent lists the new nodes last, and they match.
-/

namespace ReactiveView

open LiveTree

variable {α : Type}

/-! ## §1. Tags in small letters -/

@[simp] theorem Text.lowerAsciiText_lowerAsciiText (s : String) :
    lowerAsciiText (lowerAsciiText s) = lowerAsciiText s := by
  simp [lowerAsciiText]

/-- A tag made small is still the same tag up to case. -/
@[simp] theorem Text.equalIgnoringCase_lowerAsciiText (s : String) :
    equalIgnoringCase (lowerAsciiText s) s = true := by
  simp [equalIgnoringCase]

/-! ## §2. Runs of edits at one node -/

namespace LiveTree

variable {t : LiveTree} {n : NodeId} {s : Slot}

theorem slot?_change (h : t.slot? n = some s) (f : Slot → Slot) (e : Edit) :
    (t.change n f e).slot? n = some (f s) := by
  have hex : t.exists? n = true := by simp [exists?, h]
  simp [change, hex, slot?_update_self, h]

theorem slot?_setAttribute (h : t.slot? n = some s) {name : String} (hname : name ≠ "style")
    (value : String) :
    (t.setAttribute n name value).slot? n = some { s with attrs := s.attrs.insert name value } := by
  rw [setAttribute, slot?_change h, if_neg hname]

theorem slot?_removeAttribute (h : t.slot? n = some s) {name : String} (hname : name ≠ "style") :
    (t.removeAttribute n name).slot? n = some { s with attrs := s.attrs.erase name } := by
  rw [removeAttribute, slot?_change h, if_neg hname]

theorem slot?_setStyle_some (h : t.slot? n = some s) (property value : String) :
    (t.setStyle n property (some value)).slot? n =
      some { s with style := s.style.insert property value } := by
  rw [setStyle, slot?_change h]

theorem slot?_setStyle_none (h : t.slot? n = some s) (property : String) :
    (t.setStyle n property none).slot? n = some { s with style := s.style.erase property } := by
  rw [setStyle, slot?_change h]

theorem slot?_setText (h : t.slot? n = some s) (text : String) :
    (t.setText n text).slot? n = some { s with text := text } := by
  rw [setText, slot?_change h]

theorem slot?_listen (h : t.slot? n = some s) (event : String) (handler : EventHandler) :
    (t.listen n event handler).slot? n =
      some { s with listeners := s.listeners.insert event handler } := by
  rw [listen, slot?_change h]

end LiveTree

namespace Work

variable {w w' : Work} {n p : NodeId} {s : Slot}

@[simp] theorem tree_edit (w : Work) (f : LiveTree → LiveTree) : (w.edit f).tree = f w.tree := rfl

@[simp] theorem edits_edit (w : Work) (f : LiveTree → LiveTree) :
    (w.edit f).edits = w.edits + 1 := rfl

/-- A run of edits counts one for each. -/
theorem edits_foldl_edit (f : LiveTree → α → LiveTree) (xs : List α) (w : Work) :
    (xs.foldl (fun w x => w.edit (f · x)) w).edits = w.edits + xs.length := by
  induction xs generalizing w with
  | nil => rfl
  | cons x xs ih => rw [List.foldl_cons, ih, edits_edit, List.length_cons]; omega

theorem redressed_foldl_edit {f : LiveTree → α → LiveTree} (hf : ∀ t x, Redressed n t (f t x))
    (xs : List α) (w : Work) :
    Redressed n w.tree (xs.foldl (fun w x => w.edit (f · x)) w).tree := by
  induction xs generalizing w with
  | nil => exact Redressed.refl n w.tree
  | cons x xs ih => exact (hf w.tree x).trans (ih (w.edit (f · x)))

/-- Sets attributes in order. -/
def setAttributes (w : Work) (n : NodeId) (es : Entries String) : Work :=
  es.foldl (fun w a => w.edit (·.setAttribute n a.1 a.2)) w

/-- Sets style properties in order. -/
def setStyles (w : Work) (n : NodeId) (es : Entries String) : Work :=
  es.foldl (fun w p => w.edit (·.setStyle n p.1 (some p.2))) w

/-- Clears style properties in order. -/
def clearStyles (w : Work) (n : NodeId) (ps : List String) : Work :=
  ps.foldl (fun w p => w.edit (·.setStyle n p none)) w

/-- Attaches handlers in order. -/
def listenAll (w : Work) (n : NodeId) (es : Entries EventHandler) : Work :=
  es.foldl (fun w h => w.edit (·.listen n h.1 h.2)) w

theorem redressed_setAttributes (w : Work) (n : NodeId) (es : Entries String) :
    Redressed n w.tree (w.setAttributes n es).tree :=
  redressed_foldl_edit (f := fun t (a : String × String) => t.setAttribute n a.1 a.2)
    (fun t a => redressed_setAttribute t n a.1 a.2) es w

theorem redressed_setStyles (w : Work) (n : NodeId) (es : Entries String) :
    Redressed n w.tree (w.setStyles n es).tree :=
  redressed_foldl_edit (f := fun t (p : String × String) => t.setStyle n p.1 (some p.2))
    (fun t p => redressed_setStyle t n p.1 (some p.2)) es w

theorem redressed_clearStyles (w : Work) (n : NodeId) (ps : List String) :
    Redressed n w.tree (w.clearStyles n ps).tree :=
  redressed_foldl_edit (f := fun t (p : String) => t.setStyle n p none)
    (fun t p => redressed_setStyle t n p none) ps w

theorem redressed_listenAll (w : Work) (n : NodeId) (es : Entries EventHandler) :
    Redressed n w.tree (w.listenAll n es).tree :=
  redressed_foldl_edit (f := fun t (h : String × EventHandler) => t.listen n h.1 h.2)
    (fun t h => redressed_listen t n h.1 h.2) es w

theorem slot?_setAttributes {es : Entries String} (hes : "style" ∉ Entries.keys es)
    (h : w.tree.slot? n = some s) :
    (w.setAttributes n es).tree.slot? n =
      some { s with attrs := es.foldl (fun m a => m.insert a.1 a.2) s.attrs } := by
  induction es generalizing w s with
  | nil => exact h
  | cons a es ih =>
    have hes' : a.1 ≠ "style" ∧ "style" ∉ Entries.keys es := by simpa [eq_comm] using hes
    exact ih (w := w.edit (·.setAttribute n a.1 a.2)) hes'.2 (slot?_setAttribute h hes'.1 a.2)

theorem slot?_setStyles (es : Entries String) (h : w.tree.slot? n = some s) :
    (w.setStyles n es).tree.slot? n =
      some { s with style := es.foldl (fun m p => m.insert p.1 p.2) s.style } := by
  induction es generalizing w s with
  | nil => exact h
  | cons p es ih =>
    exact ih (w := w.edit (·.setStyle n p.1 (some p.2))) (slot?_setStyle_some h p.1 p.2)

theorem slot?_clearStyles (ps : List String) (h : w.tree.slot? n = some s) :
    (w.clearStyles n ps).tree.slot? n =
      some { s with style := ps.foldl OrderedMap.erase s.style } := by
  induction ps generalizing w s with
  | nil => exact h
  | cons p ps ih => exact ih (w := w.edit (·.setStyle n p none)) (slot?_setStyle_none h p)

theorem slot?_listenAll (es : Entries EventHandler) (h : w.tree.slot? n = some s) :
    (w.listenAll n es).tree.slot? n =
      some { s with listeners := es.foldl (fun m h => m.insert h.1 h.2) s.listeners } := by
  induction es generalizing w s with
  | nil => exact h
  | cons e es ih => exact ih (w := w.edit (·.listen n e.1 e.2)) (slot?_listen h e.1 e.2)

/-! ## §3. Dressing a new element -/

/-- Sets the class names, if there are any. -/
def setClass (w : Work) (n : NodeId) : Option String → Work
  | some c => w.edit (·.setAttribute n "class" c)
  | none => w

/-- Gives a new node the attributes, class, style and handlers of an element. -/
def dress (w : Work) (n : NodeId) (e : Shell) : Work :=
  (((w.setAttributes n e.attrs.entries).setClass n e.className).setStyles n
    e.style.entries).listenAll n e.handlers.entries

/-- Makes an element without children. -/
def buildShell (w : Work) (e : Shell) : Work :=
  dress ⟨(w.tree.createElement e.tag).2, w.edits + 1⟩ w.tree.slots.size e

theorem build_element (w : Work) (e : Shell) (children : List VNode) :
    w.build (.element e children) =
      (w.tree.slots.size, (w.buildShell e).appendAll w.tree.slots.size children) := by
  rw [build]
  unfold buildShell dress setClass
  cases e.className <;> rfl

theorem appendAll_cons (w : Work) (p : NodeId) (v : VNode) (vs : List VNode) :
    w.appendAll p (v :: vs) =
      ((w.build v).2.edit (·.append p (w.build v).1)).appendAll p vs := by
  rw [appendAll]

theorem redressed_setClass (w : Work) (n : NodeId) (c : Option String) :
    Redressed n w.tree (w.setClass n c).tree := by
  cases c with
  | none => exact Redressed.refl n _
  | some c => exact redressed_setAttribute _ n "class" c

theorem redressed_dress (w : Work) (n : NodeId) (e : Shell) :
    Redressed n w.tree (w.dress n e).tree :=
  (((redressed_setAttributes w n e.attrs.entries).trans
    (redressed_setClass _ n e.className)).trans
    (redressed_setStyles _ n e.style.entries)).trans
    (redressed_listenAll _ n e.handlers.entries)

theorem redressed_buildShell (w : Work) (e : Shell) :
    Redressed w.tree.slots.size (w.tree.createElement e.tag).2 (w.buildShell e).tree :=
  redressed_dress ⟨(w.tree.createElement e.tag).2, w.edits + 1⟩ w.tree.slots.size e

theorem size_buildShell (w : Work) (e : Shell) :
    (w.buildShell e).tree.slots.size = w.tree.slots.size + 1 := by
  rw [(w.redressed_buildShell e).size_eq, createElement, size_create]

theorem lt_size_buildShell (w : Work) (e : Shell) :
    w.tree.slots.size < (w.buildShell e).tree.slots.size := by
  rw [size_buildShell]
  exact Nat.lt_succ_self _

theorem wellFormed_buildShell (wf : w.tree.WellFormed) (e : Shell) :
    (w.buildShell e).tree.WellFormed :=
  (w.redressed_buildShell e).wellFormed (wf.create _ "")

/-- A bare node that is dressed has the class and the style of the element. -/
theorem dress_reads {e : Shell} {k : NodeKind} (hclass : "class" ∉ e.attrs.keys)
    (hstyle : "style" ∉ e.attrs.keys) (h : w.tree.slot? n = some { kind := k }) :
    (w.dress n e).tree.attribute? n "class" = e.className ∧
      ((w.dress n e).tree.style n).Agree e.style := by
  have hattrs : (w.setAttributes n e.attrs.entries).tree.slot? n = _ :=
    slot?_setAttributes hstyle h
  -- Plain attributes leave `class` alone, so the class set after them is the class.
  have hnone : (e.attrs.entries.foldl (fun m a => m.insert a.1 a.2)
      (∅ : OrderedMap String)).find? "class" = none := by
    rw [OrderedMap.find?_foldl_insert e.attrs.nodup_keys,
      (Entries.lookup_eq_none_iff_not_mem _ _).mpr hclass]
    rfl
  have hset : ∃ s, ((w.setAttributes n e.attrs.entries).setClass n e.className).tree.slot? n =
      some s ∧ s.attrs.find? "class" = e.className ∧ s.style = ∅ := by
    cases hc : e.className with
    | none => exact ⟨_, hattrs, hnone, rfl⟩
    | some c => exact ⟨_, slot?_setAttribute hattrs (by decide) c, by simp, rfl⟩
  obtain ⟨s, hs, hsclass, hsstyle⟩ := hset
  have hlast := slot?_listenAll e.handlers.entries (slot?_setStyles e.style.entries hs)
  constructor
  · simpa [dress, attribute?, hlast] using hsclass
  · intro k
    simp only [dress, LiveTree.style, hlast, Option.map_some, Option.getD_some, hsstyle]
    rw [OrderedMap.find?_foldl_insert e.style.nodup_keys]
    simp [OrderedMap.find?]

/-- What the arena holds for a new element before it is dressed. -/
theorem slot?_createElement (t : LiveTree) (tag : String) :
    (t.createElement tag).2.slot? t.slots.size =
      some { kind := .element (Text.lowerAsciiText tag) } := by
  rw [createElement, slot?_create, if_pos rfl]

theorem buildShell_reads (w : Work) {e : Shell} (hclass : "class" ∉ e.attrs.keys)
    (hstyle : "style" ∉ e.attrs.keys) :
    (w.buildShell e).tree.attribute? w.tree.slots.size "class" = e.className ∧
      ((w.buildShell e).tree.style w.tree.slots.size).Agree e.style :=
  dress_reads hclass hstyle (slot?_createElement w.tree e.tag)

/-! ## §4. Building and appending -/

/-- `n` is a new node for a virtual one, apart from all that was there. -/
structure Built (w : Work) (v : VNode) (n : NodeId) (w' : Work) : Prop where
  /-- The tree stays well formed. -/
  wellFormed : w'.tree.WellFormed
  /-- The node was not there before. -/
  size_le : w.tree.slots.size ≤ n
  /-- The node is there now. -/
  lt_size : n < w'.tree.slots.size
  /-- It has no parent yet. -/
  parent?_eq_none : w'.tree.parent? n = none
  /-- All old nodes are as they were. -/
  sameOff : SameOff (fun _ => False) w.tree w'.tree
  /-- It matches. -/
  matched : v.Unreserved → w'.tree.Matches n v

/-- `ns` are new children of `p`, behind the old ones, for a list of virtual nodes. -/
structure Appended (w : Work) (p : NodeId) (vs : List VNode) (ns : List NodeId) (w' : Work) :
    Prop where
  /-- The tree stays well formed. -/
  wellFormed : w'.tree.WellFormed
  /-- The parent lists them last and is otherwise as it was. -/
  slot?_eq : w'.tree.slot? p =
    (w.tree.slot? p).map fun s => { s with children := s.children ++ ns }
  /-- They were not there before. -/
  size_le : ∀ n ∈ ns, w.tree.slots.size ≤ n
  /-- There is one for each virtual node. -/
  length_eq : ns.length = vs.length
  /-- All old nodes but the parent are as they were. -/
  sameOff : SameOff (· = p) w.tree w'.tree
  /-- They match. -/
  matched : VNode.UnreservedAll vs → w'.tree.MatchesAll ns vs

theorem Appended.nil (wf : w.tree.WellFormed) (p : NodeId) : Appended w p [] [] w where
  wellFormed := wf
  slot?_eq := by cases w.tree.slot? p <;> simp
  size_le := by simp
  length_eq := rfl
  sameOff := SameOff.refl _ _
  matched := fun _ => matchesAll_nil

theorem Appended.children_eq {vs : List VNode} {ns : List NodeId} (h : Appended w p vs ns w')
    (hp : p < w.tree.slots.size) : w'.tree.children p = w.tree.children p ++ ns := by
  obtain ⟨s, hs⟩ := exists_slot_of_lt hp
  have hs' := h.slot?_eq
  rw [hs] at hs'
  rw [children_of_slot? hs, children_of_slot? hs']

/-- What is below nodes that were appended stays as it is when more are appended: that changes the
    parent alone, and the parent is not below its children. -/
theorem Appended.slot?_below {w₁ : Work} {vs vs' : List VNode} {ns ns' : List NodeId}
    (h : Appended w p vs ns w₁) (h' : Appended w₁ p vs' ns' w') (hp : p < w.tree.slots.size)
    (hn : n ∈ ns) {m : NodeId} (hm : w₁.tree.Below m n) :
    w'.tree.slot? m = w₁.tree.slot? m := by
  have hnp : w₁.tree.ChildOf n p := by
    rw [ChildOf, ← h.wellFormed.mem_children_iff, h.children_eq hp]
    exact List.mem_append_right _ hn
  have hmp : m ≠ p := by
    intro he
    subst he
    exact h.wellFormed.not_below_child hnp hm
  exact h'.sameOff.slot?_eq m (hm.lt_left (lt_of_childOf hnp)) hmp

/-- Nodes that were appended still match when more are appended. -/
theorem Appended.trans {w₁ : Work} {vs vs' : List VNode} {ns ns' : List NodeId}
    (h : Appended w p vs ns w₁) (h' : Appended w₁ p vs' ns' w') (hp : p < w.tree.slots.size) :
    Appended w p (vs ++ vs') (ns ++ ns') w' where
  wellFormed := h'.wellFormed
  slot?_eq := by
    rw [h'.slot?_eq, h.slot?_eq, Option.map_map]
    simp [Function.comp_def]
  size_le := by
    intro n hn
    rcases List.mem_append.mp hn with hn | hn
    · exact h.size_le n hn
    · exact Nat.le_trans h.sameOff.size_le (h'.size_le n hn)
  length_eq := by simp [h.length_eq, h'.length_eq]
  sameOff := h.sameOff.trans h'.sameOff fun _ _ hm => hm
  matched := by
    intro hvs
    obtain ⟨hvs, hvs'⟩ := VNode.unreservedAll_append.mp hvs
    refine MatchesAll.append ?_ (h'.matched hvs')
    refine MatchesAll.congr h.wellFormed ?_ (h.matched hvs)
    exact fun n hn m hm => face?_of_slot?_eq (h.slot?_below h' hp hn hm)

/-- What is below a node that was built stays as it is when it is appended: what changes but for
    its parent is the node that it is appended to, and that is not below it. -/
theorem Built.face?_below {w₁ : Work} {v : VNode} (h : Built w v n w₁) (wf : w.tree.WellFormed)
    (hp : p < w.tree.slots.size) {m : NodeId} (hm : w₁.tree.Below m n) :
    (w₁.tree.append p n).face? m = w₁.tree.face? m := by
  have hpn : ¬ w₁.tree.Below p n := h.sameOff.not_below_fresh wf hp h.size_le
  have hne : n ≠ p := Nat.ne_of_gt (Nat.lt_of_lt_of_le hp h.size_le)
  have hmp : m ≠ p := by
    intro he
    subst he
    exact hpn hm
  exact face?_append h.parent?_eq_none h.lt_size (h.sameOff.lt hp) hne hmp

/-- A node that was built becomes the last child. -/
theorem Built.appended {w₁ : Work} {v : VNode} (h : Built w v n w₁) (wf : w.tree.WellFormed)
    (hp : p < w.tree.slots.size) : Appended w p [v] [n] (w₁.edit (·.append p n)) := by
  have hpn : ¬ w₁.tree.Below p n := h.sameOff.not_below_fresh wf hp h.size_le
  have hplt : p < w₁.tree.slots.size := h.sameOff.lt hp
  have hne : n ≠ p := Nat.ne_of_gt (Nat.lt_of_lt_of_le hp h.size_le)
  have hslot := slot?_append h.parent?_eq_none h.lt_size hplt hne
  refine ⟨h.wellFormed.append h.parent?_eq_none h.lt_size hplt hpn, ?_, ?_, rfl, ?_, ?_⟩
  · rw [tree_edit, hslot, if_neg hne.symm, if_pos rfl, h.sameOff.slot?_eq p hp not_false]
  · intro m hm
    obtain rfl : m = n := by simpa using hm
    exact h.size_le
  · refine ⟨?_, ?_⟩
    · rw [tree_edit, size_append]
      exact h.sameOff.size_le
    · intro m hm hmp
      have hmn : m ≠ n := Nat.ne_of_lt (Nat.lt_of_lt_of_le hm h.size_le)
      rw [tree_edit, hslot, if_neg hmn, if_neg hmp, h.sameOff.slot?_eq m hm not_false]
  · intro hv
    have hmatch : (w₁.tree.append p n).Matches n v :=
      Matches.congr h.wellFormed (fun m hm => h.face?_below wf hp hm) (h.matched hv.1)
    simpa using hmatch

theorem built_leaf (wf : w.tree.WellFormed) (k : NodeKind) (text : String) (v : VNode)
    (hv : v.Unreserved → (w.tree.create k text).2.Matches w.tree.slots.size v) :
    Built w v w.tree.slots.size ⟨(w.tree.create k text).2, w.edits + 1⟩ where
  wellFormed := wf.create k text
  size_le := Nat.le_refl _
  lt_size := by simp
  parent?_eq_none := by
    rw [parent?_create, parent?, slot?_eq_none_iff.mpr (Nat.le_refl _)]
    rfl
  sameOff := sameOff_create w.tree k text
  matched := hv

/-- A new element with its children appended. -/
theorem built_element (w : Work) (e : Shell) {children : List VNode} {ns : List NodeId}
    (h : Appended (w.buildShell e) w.tree.slots.size children ns w') :
    Built w (.element e children) w.tree.slots.size w' := by
  have hnew := slot?_createElement w.tree e.tag
  have hdress := w.redressed_buildShell e
  have hlt := w.lt_size_buildShell e
  obtain ⟨s, hs⟩ := exists_slot_of_lt hlt
  -- After the children were appended the slot is the dressed one but for its children.
  have hs' : w'.tree.slot? w.tree.slots.size = some { s with children := s.children ++ ns } := by
    rw [h.slot?_eq, hs]
    rfl
  have hparent : s.parent = none := by
    rw [← parent?_of_slot? hs, hdress.parent?_eq, parent?_of_slot? hnew]
  have hchildren : s.children = [] := by
    rw [← children_of_slot? hs, hdress.children_eq, children_of_slot? hnew]
  have hkind : s.kind = .element (Text.lowerAsciiText e.tag) := by
    simpa [kind, hs, hnew] using hdress.kind_eq
  refine ⟨h.wellFormed, Nat.le_refl _, h.sameOff.lt hlt, ?_, ?_, ?_⟩
  · rw [parent?_of_slot? hs', hparent]
  · refine ((sameOff_create w.tree _ "").trans hdress.sameOff ?_).trans h.sameOff ?_
    · exact fun m hm hmn => Nat.ne_of_lt hm hmn
    · exact fun m hm hmn => Nat.ne_of_lt hm hmn
  · intro hx
    obtain ⟨hclass, hstyle, hall⟩ := hx
    have hreads := w.buildShell_reads hclass hstyle
    refine ⟨⟨Text.lowerAsciiText e.tag, ?_, by simp⟩, ?_, ?_, ?_⟩
    · simp [kind, hs', hkind]
    · simpa [attribute?, hs, hs'] using hreads.1
    · simpa [LiveTree.style, hs, hs'] using hreads.2
    · rw [children_of_slot? hs', hchildren, List.nil_append]
      exact h.matched hall

mutual

/-- Building makes one node, with what is below it, that matches. -/
theorem build_spec (w : Work) (v : VNode) (wf : w.tree.WellFormed) :
    Built w v (w.build v).1 (w.build v).2 := by
  match v with
  | .text s =>
    refine built_leaf wf .text s _ ?_
    intro _
    simp [Matches, kind, textContent?, slot?_create]
  | .comment s =>
    refine built_leaf wf .comment s _ ?_
    intro _
    simp [Matches, kind, textContent?, slot?_create]
  | .element e children =>
    rw [build_element]
    obtain ⟨ns, hns⟩ := appendAll_spec (w.buildShell e) w.tree.slots.size children
      (wellFormed_buildShell wf e) (w.lt_size_buildShell e)
    exact built_element w e hns

/-- Appending a list adds one child for each node of it. -/
theorem appendAll_spec (w : Work) (p : NodeId) (vs : List VNode) (wf : w.tree.WellFormed)
    (hp : p < w.tree.slots.size) : ∃ ns, Appended w p vs ns (w.appendAll p vs) := by
  match vs with
  | [] => exact ⟨[], Appended.nil wf p⟩
  | v :: vs =>
    have hfirst := (build_spec w v wf).appended wf hp
    obtain ⟨ns, hrest⟩ := appendAll_spec _ p vs hfirst.wellFormed (hfirst.sameOff.lt hp)
    exact ⟨_ :: ns, hfirst.trans hrest hp⟩

end

end Work

end ReactiveView
