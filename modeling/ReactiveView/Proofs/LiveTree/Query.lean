import Mathlib.Data.Finset.Card
import Mathlib.Data.Finset.Range
import ReactiveView.LiveTree.Html
import ReactiveView.Proofs.LiveTree.WellFormed

/-! # Nodes are found in document order

  In document order a node comes before what is below it, and this before what
  comes after the node. A query walks the tree below the root and stops at the
  first node that the selector means. The walk is cut off at a depth; where no
  node is below itself, nothing lies that deep.

  * `Preorder`: the nodes at and below some nodes, in document order.
  * `level`: how deep a node lies, which bounds a walk
    (`Preorder.findSome?_findBelow`).
  * `Means`: what a selector means.
  * `query_first_in_document_order`: a query finds the first node that is meant.
-/

namespace ReactiveView.LiveTree

variable {t : LiveTree} {c m n p : NodeId} {ns order : List NodeId} {depth : Nat}

/-! ## §1. Document order -/

/-- The nodes at and below some nodes, in document order. -/
inductive Preorder (t : LiveTree) : List NodeId → List NodeId → Prop where
  /-- Nothing is below no nodes. -/
  | nil : Preorder t [] []
  /-- A node comes before what is below it, and this before what comes after the node. -/
  | cons {n : NodeId} {ns below after : List NodeId} (hbelow : Preorder t (t.children n) below)
      (hafter : Preorder t ns after) : Preorder t (n :: ns) (n :: (below ++ after))

/-- Where children name their parents, these are the nodes that climb to one of the nodes. -/
theorem Preorder.mem_iff (hlinks : ∀ c p, c ∈ t.children p ↔ t.parent? c = some p)
    (h : t.Preorder ns order) (m : NodeId) : m ∈ order ↔ ∃ n ∈ ns, t.Below m n := by
  induction h with
  | nil => simp
  | @cons n ns below after _ _ ihbelow ihafter =>
    -- Below a node is the node itself or what is below one of its children.
    have hn : t.Below m n ↔ m = n ∨ ∃ c ∈ t.children n, t.Below m c := by
      constructor
      · intro hm
        rcases Relation.ReflTransGen.cases_tail hm with rfl | ⟨c, hmc, hcn⟩
        · exact .inl rfl
        · exact .inr ⟨c, (hlinks c n).mpr hcn, hmc⟩
      · rintro (rfl | ⟨c, hc, hmc⟩)
        · exact Below.refl t m
        · exact hmc.tail ((hlinks c n).mp hc)
    simp only [List.mem_cons, List.mem_append, ihbelow, ihafter, exists_eq_or_imp, hn, or_assoc]

/-! ## §2. Levels -/

open Classical in
/-- How many nodes a node is below, itself included. -/
noncomputable def level (t : LiveTree) (n : NodeId) : Nat :=
  ((Finset.range t.slots.size).filter (t.Below n ·)).card

/-- A walk of so many levels is not cut off below these nodes. -/
def Reaches (t : LiveTree) (depth : Nat) (ns : List NodeId) : Prop :=
  ∀ n ∈ ns, t.slots.size < depth + t.level n

section walks

variable (hlinks : ∀ c p, c ∈ t.children p ↔ t.parent? c = some p)
  (hacyclic : ∀ n, ¬ Relation.TransGen t.ChildOf n n)

include hacyclic in
/-- A child lies deeper than its parent. -/
theorem level_lt_level (h : t.ChildOf c p) : t.level p < t.level c := by
  classical
  refine Finset.card_lt_card ((Finset.ssubset_iff_of_subset ?_).mpr ⟨c, ?_, ?_⟩)
  · intro m hm
    rw [Finset.mem_filter] at hm ⊢
    exact ⟨hm.1, h.below.trans hm.2⟩
  · exact Finset.mem_filter.mpr ⟨Finset.mem_range.mpr (lt_of_childOf h), Below.refl t c⟩
  · intro hc
    exact hacyclic c (Relation.TransGen.head' h (Finset.mem_filter.mp hc).2)

/-- No node lies deeper than there are nodes. -/
theorem Reaches.exists_succ (h : t.Reaches depth (n :: ns)) : ∃ d, depth = d + 1 := by
  classical
  refine Nat.exists_eq_succ_of_ne_zero ?_
  rintro rfl
  have hn : t.slots.size < 0 + t.level n := h n List.mem_cons_self
  have hle : t.level n ≤ t.slots.size :=
    (Finset.card_filter_le _ _).trans (Finset.card_range _).le
  omega

theorem Reaches.tail (h : t.Reaches depth (n :: ns)) : t.Reaches depth ns :=
  fun m hm => h m (List.mem_cons_of_mem n hm)

include hlinks hacyclic

theorem Reaches.children (h : t.Reaches (depth + 1) (n :: ns)) :
    t.Reaches depth (t.children n) := by
  intro c hc
  have hn : t.slots.size < depth + 1 + t.level n := h n List.mem_cons_self
  have hlt : t.level n < t.level c := level_lt_level hacyclic ((hlinks c n).mp hc)
  omega

/-- A walk of as many levels as there are nodes is not cut off below children. -/
theorem reaches_children (n : NodeId) : t.Reaches t.slots.size (t.children n) := by
  intro c hc
  have hlt : t.level n < t.level c := level_lt_level hacyclic ((hlinks c n).mp hc)
  omega

/-! ## §3. Walks -/

/-- Where a walk is not cut off, there is a document order. -/
theorem Reaches.exists_preorder (h : t.Reaches depth ns) : ∃ order, t.Preorder ns order := by
  induction depth generalizing ns with
  | zero =>
    cases ns with
    | nil => exact ⟨[], .nil⟩
    | cons n ns =>
      obtain ⟨d, hd⟩ := h.exists_succ
      cases hd
  | succ depth ihdepth =>
    induction ns with
    | nil => exact ⟨[], .nil⟩
    | cons n ns ih =>
      obtain ⟨below, hbelow⟩ := ihdepth (h.children hlinks hacyclic)
      obtain ⟨after, hafter⟩ := ih h.tail
      exact ⟨_, .cons hbelow hafter⟩

/-- **A walk** that is not cut off finds the first node in document order that passes the test,
    the root apart. -/
theorem Preorder.findSome?_findBelow (h : t.Preorder ns order) (accept : Slot → Bool)
    (hdepth : t.Reaches depth ns) :
    ns.findSome? (t.findBelow accept depth) =
      order.find? fun m => m ≠ root && (t.slot? m).any accept := by
  induction h generalizing depth with
  | nil => rfl
  | @cons n ns below after _ _ ihbelow ihafter =>
    obtain ⟨depth, rfl⟩ := hdepth.exists_succ
    have hbelow := ihbelow (hdepth.children hlinks hacyclic)
    rw [List.findSome?_cons, ihafter hdepth.tail, List.find?_cons, List.find?_append, ← hbelow,
      findBelow]
    cases hs : t.slot? n with
    | none => simp [LiveTree.children, hs]
    | some s =>
      -- The walk stops at the node, or goes on below it and then after it.
      by_cases hn : n ≠ root ∧ accept s = true
      · simp [hn]
      · have hchildren : t.children n = s.children := children_of_slot? hs
        have htest : (n ≠ root && accept s) = false := by simpa using hn
        rw [hchildren]
        simp only [Option.any_some, htest, if_neg hn]
        cases s.children.findSome? (t.findBelow accept depth) <;> rfl

end walks

/-! ## §4. Queries -/

/-- What a selector means: `#` and an `id` the nodes with this `id`, and any other selector the
    elements whose tag it is, in whatever case its ASCII letters are. -/
def Means (t : LiveTree) (selector : String) (n : NodeId) : Prop :=
  (∃ id, selector = "#" ++ id ∧ t.attribute? n "id" = some id) ∨
    (∀ id, selector ≠ "#" ++ id) ∧
      ∃ tag, t.kind n = .element tag ∧ Text.lowerAsciiText tag = Text.lowerAsciiText selector

theorem matchesSelector_hash (id : String) (s : Slot) :
    matchesSelector ("#" ++ id) s = true ↔ s.attrs.find? "id" = some id := by
  have hid : ("#" ++ id).toList = '#' :: id.toList := String.toList_append
  rw [matchesSelector, hid]
  simp

theorem matchesSelector_plain {selector : String} (h : ∀ id, selector ≠ "#" ++ id) (s : Slot) :
    matchesSelector selector s = true ↔
      ∃ tag, s.kind = .element tag ∧ Text.lowerAsciiText tag = Text.lowerAsciiText selector := by
  unfold matchesSelector
  split
  · next id hid =>
    refine absurd ?_ (h (String.ofList id))
    rw [← String.toList_inj, hid, String.toList_append]
    simp
  · cases s.kind <;> simp [Text.equalIgnoringCase]

/-- The walk tests what the selector means. -/
theorem means_iff (selector : String) (n : NodeId) :
    t.Means selector n ↔ (t.slot? n).any (matchesSelector selector) = true := by
  cases hs : t.slot? n with
  | none => simp [Means, attribute?, kind, hs]
  | some s =>
    have hkind : t.kind n = s.kind := by simp [kind, hs]
    have hid : t.attribute? n "id" = s.attrs.find? "id" := by simp [attribute?, hs]
    rw [Means, hkind, hid, Option.any_some]
    by_cases h : ∃ id, selector = "#" ++ id
    · obtain ⟨id, rfl⟩ := h
      rw [matchesSelector_hash]
      simp
    · have hplain : ∀ id, selector ≠ "#" ++ id := not_exists.mp h
      rw [matchesSelector_plain hplain]
      simp [hplain]

instance (t : LiveTree) (selector : String) : DecidablePred (t.Means selector) :=
  fun n => decidable_of_iff _ (means_iff selector n).symm

section queries

variable (hlinks : ∀ c p, c ∈ t.children p ↔ t.parent? c = some p)
  (hacyclic : ∀ n, ¬ Relation.TransGen t.ChildOf n n)

include hlinks hacyclic

/-- Document order lists what is below a node, and not the node itself. -/
theorem Preorder.mem_children_iff (h : t.Preorder (t.children n) order) (m : NodeId) :
    m ∈ order ↔ t.Below m n ∧ m ≠ n := by
  rw [h.mem_iff hlinks]
  constructor
  · rintro ⟨c, hc, hmc⟩
    have hcn : t.ChildOf c n := (hlinks c n).mp hc
    refine ⟨hmc.trans hcn.below, ?_⟩
    rintro rfl
    exact hacyclic c (Relation.TransGen.head' hcn hmc)
  · rintro ⟨hm, hne⟩
    rcases Relation.ReflTransGen.cases_tail hm with heq | ⟨c, hmc, hcn⟩
    · exact absurd heq.symm hne
    · exact ⟨c, (hlinks c n).mpr hcn, hmc⟩

/-- A query is a search in document order. -/
theorem Preorder.query?_eq (h : t.Preorder (t.children root) order) (selector : String) :
    t.query? selector = order.find? (t.Means selector ·) := by
  have hwalk : t.query? selector =
      order.find? fun m => m ≠ root && (t.slot? m).any (matchesSelector selector) := by
    rw [← h.findSome?_findBelow hlinks hacyclic _ (reaches_children hlinks hacyclic root), query?,
      findBelow]
    cases hs : t.slot? root <;> simp [LiveTree.children, hs]
  rw [hwalk, ← List.head?_filter, ← List.head?_filter]
  refine congrArg List.head? (List.filter_congr fun m hm => ?_)
  simp [means_iff, ((h.mem_children_iff hlinks hacyclic m).mp hm).2]

end queries

/-- **A query finds the first node in document order** that its selector means, among the nodes
    below the root. -/
theorem query_first_in_document_order
    (hlinks : ∀ c p, c ∈ t.children p ↔ t.parent? c = some p)
    (hacyclic : ∀ n, ¬ Relation.TransGen t.ChildOf n n) (selector : String) :
    (∃ order, t.Preorder (t.children root) order) ∧
      ∀ order, t.Preorder (t.children root) order →
        (∀ m, m ∈ order ↔ t.Below m root ∧ m ≠ root) ∧
        (∀ n, t.query? selector = some n ↔ ∃ front behind, order = front ++ n :: behind ∧
          t.Means selector n ∧ ∀ m ∈ front, ¬ t.Means selector m) ∧
        (t.query? selector = none ↔ ∀ m, t.Below m root → m ≠ root → ¬ t.Means selector m) := by
  have hdepth : t.Reaches t.slots.size (t.children root) := reaches_children hlinks hacyclic root
  refine ⟨hdepth.exists_preorder hlinks hacyclic, fun order horder => ?_⟩
  have hmem := horder.mem_children_iff hlinks hacyclic
  rw [horder.query?_eq hlinks hacyclic]
  refine ⟨hmem, fun n => ?_, ?_⟩
  · rw [List.find?_eq_some_iff_append]
    simp [and_left_comm]
  · simp only [List.find?_eq_none, hmem, decide_eq_true_eq, and_imp]

/-- A paragraph in a list in a mount point, one that comes after it but was made before, and one
    that is detached. The tag is asked for as a capital. -/
theorem query_first_in_document_order_nested :
    let t : LiveTree := ⟨#[
      { kind := .element "body", children := [2, 1] },
      { kind := .element "p", parent := some 0 },
      { kind := .element "div", children := [3], parent := some 0 },
      { kind := .element "ul", children := [4], parent := some 2 },
      { kind := .element "p", parent := some 3 },
      { kind := .element "p", attrs := OrderedMap.empty.insert "id" "b" }], []⟩
    (∀ c p, c ∈ t.children p ↔ t.parent? c = some p) ∧
      (∀ n, ¬ Relation.TransGen t.ChildOf n n) ∧
      t.query? "P" = some 4 ∧ t.Means "#b" 5 ∧ t.query? "#b" = none := by
  intro t
  have hup : ∀ p < 6, ∀ c ∈ t.children p, t.parent? c = some p := by decide
  have hdown : ∀ c < 6, ∀ p ∈ t.parent? c, c ∈ t.children p ∧ p < c := by decide
  have hlinks : ∀ c p, c ∈ t.children p ↔ t.parent? c = some p := fun c p =>
    ⟨fun h => hup p (lt_of_mem_children h) c h, fun h => (hdown c (lt_of_childOf h) p h).1⟩
  have hacyclic : ∀ n, ¬ Relation.TransGen t.ChildOf n n := by
    -- All parents have smaller names than their children.
    have hlt : ∀ c p, Relation.TransGen t.ChildOf c p → p < c := by
      intro c p h
      induction h with
      | single h => exact (hdown _ (lt_of_childOf h) _ h).2
      | tail _ h ih => exact (hdown _ (lt_of_childOf h) _ h).2.trans ih
    exact fun n h => Nat.lt_irrefl n (hlt n n h)
  have horder : t.Preorder (t.children root) [2, 3, 4, 1] := by
    have hinner : t.Preorder [4] (4 :: ([] ++ [])) := .cons .nil .nil
    have hlist : t.Preorder [3] (3 :: ([4] ++ [])) := .cons hinner .nil
    have hlast : t.Preorder [1] (1 :: ([] ++ [])) := .cons .nil .nil
    have hall : t.Preorder [2, 1] (2 :: ([3, 4] ++ [1])) := .cons hlist hlast
    exact hall
  obtain ⟨-, hcapital⟩ := query_first_in_document_order hlinks hacyclic "P"
  obtain ⟨-, hid⟩ := query_first_in_document_order hlinks hacyclic "#b"
  obtain ⟨-, hsome, -⟩ := hcapital _ horder
  obtain ⟨hmem, -, hnone⟩ := hid _ horder
  have hfront : ∀ m ∈ [2, 3], ¬ t.Means "P" m := by
    simp only [means_iff]
    decide
  have hattached : ∀ m ∈ [2, 3, 4, 1], ¬ t.Means "#b" m := by
    simp only [means_iff]
    decide
  refine ⟨hlinks, hacyclic, (hsome 4).mpr ⟨[2, 3], [1], rfl, ?_, hfront⟩, ?_,
    hnone.mpr fun m hm hne => hattached m ((hmem m).mpr ⟨hm, hne⟩)⟩
  · rw [means_iff]
    decide
  · rw [means_iff]
    decide

end ReactiveView.LiveTree
