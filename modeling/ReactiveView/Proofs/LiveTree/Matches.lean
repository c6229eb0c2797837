import ReactiveView.Proofs.LiveTree.WellFormed
import ReactiveView.Proofs.OrderedMap.Agree

/-! # Live nodes that match virtual ones

  What it means that a live tree shows a list of virtual nodes, said of the live
  tree alone and without reference to how it came about:

  * a text or comment matches a leaf of its kind with the same text, or with an
    empty one;
  * an element matches an element with the same tag up to ASCII case, the same
    class, the same style up to order, and children that match one by one.

  Matching depends on nothing but the nodes at and below the live node
  (`Matches.congr`).
-/

namespace ReactiveView

/-! ## §1. Conditions on virtual nodes -/

namespace VNode

mutual

/-- Every element of a node has a property. -/
def Everywhere (P : Shell → Prop) : VNode → Prop
  | .element e children => P e ∧ EverywhereAll P children
  | .text _ => True
  | .comment _ => True

/-- Every element of a list of nodes has a property. -/
def EverywhereAll (P : Shell → Prop) : List VNode → Prop
  | [] => True
  | n :: ns => n.Everywhere P ∧ EverywhereAll P ns

end

mutual

/-- No element of the node has the key `class` or `style` among its plain attributes. -/
def Unreserved : VNode → Prop
  | text _ => True
  | comment _ => True
  | element e children =>
    "class" ∉ e.attrs.keys ∧ "style" ∉ e.attrs.keys ∧ UnreservedAll children

/-- The same for each node of a list. -/
def UnreservedAll : List VNode → Prop
  | [] => True
  | v :: vs => Unreserved v ∧ UnreservedAll vs

end

theorem unreservedAll_append {vs vs' : List VNode} :
    UnreservedAll (vs ++ vs') ↔ UnreservedAll vs ∧ UnreservedAll vs' := by
  induction vs with
  | nil => simp [UnreservedAll]
  | cons v vs ih => simp [UnreservedAll, ih, and_assoc]

end VNode

/-! ## §2. Types -/

namespace NodeKind

variable {k : NodeKind}

theorem sameType_text_iff : k.sameType .text = true ↔ k = .text := by
  cases k <;> simp [sameType]

theorem sameType_comment_iff : k.sameType .comment = true ↔ k = .comment := by
  cases k <;> simp [sameType]

theorem sameType_element_iff {tag : String} : k.sameType (.element tag) = true ↔
    ∃ tag', k = .element tag' ∧ Text.equalIgnoringCase tag' tag = true := by
  cases k <;> simp [sameType]

end NodeKind

namespace LiveTree

variable {t t' : LiveTree} {n : NodeId}

/-! ## §3. Matching -/

mutual

/-- The live node `n` shows a virtual node. -/
def Matches (t : LiveTree) (n : NodeId) : VNode → Prop
  | .text s => t.kind n = .text ∧ (s = "" ∨ t.textContent? n = some s)
  | .comment s => t.kind n = .comment ∧ (s = "" ∨ t.textContent? n = some s)
  | .element e children =>
    (∃ tag, t.kind n = .element tag ∧ Text.equalIgnoringCase tag e.tag = true) ∧
      t.attribute? n "class" = e.className ∧ (t.style n).Agree e.style ∧
      MatchesAll t (t.children n) children

/-- The live nodes show as many virtual nodes, one by one. -/
def MatchesAll (t : LiveTree) (ns : List NodeId) : List VNode → Prop
  | [] => ns = []
  | v :: vs => ∃ n rest, ns = n :: rest ∧ Matches t n v ∧ MatchesAll t rest vs

end

@[simp] theorem matchesAll_nil : t.MatchesAll [] [] := rfl

@[simp] theorem matchesAll_nil_cons (v : VNode) (vs : List VNode) :
    ¬ t.MatchesAll [] (v :: vs) := by
  simp [MatchesAll]

@[simp] theorem matchesAll_cons_nil (ns : List NodeId) : ¬ t.MatchesAll (n :: ns) [] := by
  simp [MatchesAll]

@[simp] theorem matchesAll_cons (ns : List NodeId) (v : VNode) (vs : List VNode) :
    t.MatchesAll (n :: ns) (v :: vs) ↔ t.Matches n v ∧ t.MatchesAll ns vs := by
  simp [MatchesAll]

theorem MatchesAll.length_eq {ns : List NodeId} {vs : List VNode} (h : t.MatchesAll ns vs) :
    ns.length = vs.length := by
  induction vs generalizing ns with
  | nil => simp [MatchesAll] at h; simp [h]
  | cons v vs ih =>
    obtain ⟨n, rest, rfl, _, hrest⟩ := h
    simp [ih hrest]

theorem MatchesAll.append {ns ns' : List NodeId} {vs vs' : List VNode} (h : t.MatchesAll ns vs)
    (h' : t.MatchesAll ns' vs') : t.MatchesAll (ns ++ ns') (vs ++ vs') := by
  induction vs generalizing ns with
  | nil => simpa [show ns = [] from h] using h'
  | cons v vs ih =>
    obtain ⟨n, rest, rfl, hn, hrest⟩ := h
    exact ⟨n, rest ++ ns', rfl, hn, ih hrest⟩

/-- `p` has as many children as there are virtual nodes, and the child in each place matches the
    virtual node in that place. -/
def Shows (t : LiveTree) (p : NodeId) (vs : List VNode) : Prop :=
  (t.children p).length = vs.length ∧
    ∀ (i : Nat) n v, (t.children p)[i]? = some n → vs[i]? = some v → t.Matches n v

theorem matchesAll_iff {ns : List NodeId} {vs : List VNode} :
    t.MatchesAll ns vs ↔ ns.length = vs.length ∧
      ∀ (i : Nat) n v, ns[i]? = some n → vs[i]? = some v → t.Matches n v := by
  induction vs generalizing ns with
  | nil =>
    cases ns with
    | nil => simp
    | cons n ns => simp
  | cons v vs ih =>
    cases ns with
    | nil => simp
    | cons n ns =>
      -- Position 0 is the first node, position `i + 1` is position `i` of the rest.
      rw [matchesAll_cons, ih]
      constructor
      · intro hall
        obtain ⟨hn, hlen, hrest⟩ := hall
        refine ⟨by simp [hlen], ?_⟩
        intro i
        cases i with
        | zero => simpa using hn
        | succ i => simpa using hrest i
      · intro hx
        obtain ⟨hlen, hall⟩ := hx
        refine ⟨by simpa using hall 0, by simpa using hlen, ?_⟩
        intro i
        simpa using hall (i + 1)

theorem shows_iff {p : NodeId} {vs : List VNode} :
    t.Shows p vs ↔ t.MatchesAll (t.children p) vs :=
  matchesAll_iff.symm

/-- The types of a live node and a virtual one that match are the same. -/
theorem Matches.sameType {v : VNode} (h : t.Matches n v) :
    (t.kind n).sameType v.kind = true := by
  cases v with
  | text s => exact NodeKind.sameType_text_iff.mpr h.1
  | comment s => exact NodeKind.sameType_comment_iff.mpr h.1
  | element e children => exact NodeKind.sameType_element_iff.mpr h.1

/-! ## §4. What matching depends on -/

/-- What the arena holds for a node, except who lists it. -/
def face? (t : LiveTree) (n : NodeId) : Option Slot :=
  (t.slot? n).map fun s => { s with parent := none }

theorem face?_of_slot?_eq {m : NodeId} (h : t'.slot? m = t.slot? m) : t'.face? m = t.face? m := by
  rw [face?, face?, h]

/-- Two faces are the same when the slots differ in nothing but the parent. -/
theorem slot?_of_face? (h : t'.face? n = t.face? n) :
    t'.slot? n = none ∧ t.slot? n = none ∨
      ∃ s q, t.slot? n = some s ∧ t'.slot? n = some { s with parent := q } := by
  unfold face? at h
  cases hs : t.slot? n with
  | none => exact Or.inl ⟨by simpa [hs] using h, rfl⟩
  | some s =>
    cases hs' : t'.slot? n with
    | none => simp [hs, hs'] at h
    | some s' =>
      refine Or.inr ⟨s, s'.parent, rfl, ?_⟩
      cases s
      cases s'
      simp_all

section faces

variable (h : t'.face? n = t.face? n)

include h

theorem kind_of_face? : t'.kind n = t.kind n := by
  rcases slot?_of_face? h with ⟨hn', hn⟩ | ⟨s, q, hs, hs'⟩
  · simp [kind, hn, hn']
  · simp [kind, hs, hs']

theorem children_of_face? : t'.children n = t.children n := by
  rcases slot?_of_face? h with ⟨hn', hn⟩ | ⟨s, q, hs, hs'⟩
  · simp [children, hn, hn']
  · simp [children, hs, hs']

theorem style_of_face? : t'.style n = t.style n := by
  rcases slot?_of_face? h with ⟨hn', hn⟩ | ⟨s, q, hs, hs'⟩
  · simp [style, hn, hn']
  · simp [style, hs, hs']

theorem attribute?_of_face? (name : String) : t'.attribute? n name = t.attribute? n name := by
  rcases slot?_of_face? h with ⟨hn', hn⟩ | ⟨s, q, hs, hs'⟩
  · simp [attribute?, hn, hn']
  · simp [attribute?, hs, hs']

theorem textContent?_of_face? : t'.textContent? n = t.textContent? n := by
  rcases slot?_of_face? h with ⟨hn', hn⟩ | ⟨s, q, hs, hs'⟩
  · simp [textContent?, hn, hn']
  · simp [textContent?, hs, hs']

end faces

mutual

/-- A tree that looks the same at and below a node matches there as well. -/
theorem Matches.congr {n : NodeId} {v : VNode} (wf : t.WellFormed)
    (hface : ∀ m, t.Below m n → t'.face? m = t.face? m) (h : t.Matches n v) :
    t'.Matches n v := by
  have hn : t'.face? n = t.face? n := hface n (Below.refl t n)
  match v with
  | .text s => simpa [Matches, kind_of_face? hn, textContent?_of_face? hn] using h
  | .comment s => simpa [Matches, kind_of_face? hn, textContent?_of_face? hn] using h
  | .element e children =>
    obtain ⟨htag, hclass, hstyle, hchildren⟩ := h
    refine ⟨?_, ?_, ?_, ?_⟩
    · rw [kind_of_face? hn]; exact htag
    · rw [attribute?_of_face? hn]; exact hclass
    · rw [style_of_face? hn]; exact hstyle
    · rw [children_of_face? hn]
      -- What is below a child is below the node.
      refine MatchesAll.congr wf (fun c hc m hm => hface m ?_) hchildren
      have hcn : t.ChildOf c n := (wf.mem_children_iff c n).mp hc
      exact hm.trans hcn.below

/-- The same for each node of a list. -/
theorem MatchesAll.congr {ns : List NodeId} {vs : List VNode} (wf : t.WellFormed)
    (hface : ∀ n ∈ ns, ∀ m, t.Below m n → t'.face? m = t.face? m) (h : t.MatchesAll ns vs) :
    t'.MatchesAll ns vs := by
  match vs with
  | [] => simpa [MatchesAll] using h
  | v :: vs =>
    obtain ⟨n, rest, rfl, hn, hrest⟩ := h
    refine ⟨n, rest, rfl, ?_, ?_⟩
    · exact Matches.congr wf (hface n (by simp)) hn
    · exact MatchesAll.congr wf (fun m hm => hface m (by simp [hm])) hrest

end

end LiveTree

end ReactiveView
