import Mathlib.Logic.Relation
import ReactiveView.LiveTree.Basic

/-! # Well-formed live trees

  A live tree is well formed when the two sides of every link agree, no node is
  listed twice, and no node is below itself. The nodes then form a forest: a
  node has one parent, and what is below two children of one node is apart.

  * `WellFormed`: the invariant.
  * `Below`: at a node or below it, by climbing from parent to parent.
  * `not_below_sibling`: two children of one node have nothing below them in common.
  * `NoAdoption`: in a later tree, a node that was there before keeps its parent
    or has none.
  * `SameOff`: a later tree that differs from an earlier one only in a region
    and in nodes made meanwhile.
-/

namespace ReactiveView.LiveTree

variable {t t' t'' : LiveTree} {a b c m n p : NodeId}

/-! ## §1. The invariant -/

/-- `p` is the parent of `c`. -/
def ChildOf (t : LiveTree) (c p : NodeId) : Prop := t.parent? c = some p

/-- `m` is `n`, or a child of a child of ... of `n`. -/
def Below (t : LiveTree) (m n : NodeId) : Prop := Relation.ReflTransGen t.ChildOf m n

/-- The links of a live tree agree, and they form no cycle. -/
structure WellFormed (t : LiveTree) : Prop where
  /-- A node lists exactly those children that name it as their parent. -/
  mem_children_iff : ∀ c p, c ∈ t.children p ↔ t.parent? c = some p
  /-- No child is listed twice. -/
  nodup_children : ∀ p, (t.children p).Nodup
  /-- No node is strictly below itself. -/
  acyclic : ∀ n, ¬ Relation.TransGen t.ChildOf n n

/-! ## §2. Which nodes exist -/

theorem slot?_eq_none_iff : t.slot? n = none ↔ t.slots.size ≤ n := by
  simp [slot?]

theorem exists?_iff : t.exists? n = true ↔ n < t.slots.size := by
  simp [exists?, slot?]

theorem exists_slot_of_lt (h : n < t.slots.size) : ∃ s, t.slot? n = some s :=
  ⟨t.slots[n], by simp [slot?, h]⟩

theorem children_of_slot? {s : Slot} (h : t.slot? n = some s) : t.children n = s.children := by
  simp [children, h]

theorem parent?_of_slot? {s : Slot} (h : t.slot? n = some s) : t.parent? n = s.parent := by
  simp [parent?, h]

theorem lt_of_childOf (h : t.ChildOf c p) : c < t.slots.size := by
  refine Nat.lt_of_not_le ?_
  intro hc
  have hnone : t.slot? c = none := slot?_eq_none_iff.mpr hc
  simp [ChildOf, parent?, hnone] at h

theorem lt_of_mem_children (h : c ∈ t.children p) : p < t.slots.size := by
  refine Nat.lt_of_not_le ?_
  intro hp
  have hnone : t.slot? p = none := slot?_eq_none_iff.mpr hp
  simp [children, hnone] at h

theorem WellFormed.parent_lt (wf : t.WellFormed) (h : t.ChildOf c p) : p < t.slots.size :=
  lt_of_mem_children ((wf.mem_children_iff c p).mpr h)

theorem WellFormed.child_lt (wf : t.WellFormed) (h : c ∈ t.children p) : c < t.slots.size :=
  lt_of_childOf ((wf.mem_children_iff c p).mp h)

/-- Nobody lists a node without a parent. -/
theorem WellFormed.not_mem_children (wf : t.WellFormed) (hc : t.parent? c = none) (q : NodeId) :
    c ∉ t.children q := by
  intro hq
  rw [wf.mem_children_iff, hc] at hq
  cases hq

/-! ## §3. Climbing -/

theorem Below.refl (t : LiveTree) (n : NodeId) : t.Below n n := Relation.ReflTransGen.refl

theorem ChildOf.below (h : t.ChildOf c p) : t.Below c p := Relation.ReflTransGen.single h

theorem ne_of_not_below (h : ¬ t.Below p c) : c ≠ p := by
  intro he
  rw [he] at h
  exact h (Below.refl t p)

theorem Below.trans (h : t.Below a b) (h' : t.Below b c) : t.Below a c :=
  Relation.ReflTransGen.trans h h'

/-- A node has at most one parent. -/
theorem childOf_rightUnique (t : LiveTree) : Relator.RightUnique t.ChildOf := by
  intro c p q hp hq
  exact Option.some.inj (hp.symm.trans hq)

theorem WellFormed.not_below_child (wf : t.WellFormed) (h : t.ChildOf c p) : ¬ t.Below p c :=
  fun hb => wf.acyclic c (Relation.TransGen.head' h hb)

theorem WellFormed.ne_of_childOf (wf : t.WellFormed) (h : t.ChildOf c p) : c ≠ p := by
  intro he
  subst he
  exact wf.acyclic c (.single h)

theorem Below.lt_left (hn : n < t.slots.size) (h : t.Below m n) : m < t.slots.size := by
  rcases Relation.ReflTransGen.cases_head h with rfl | ⟨q, hq, _⟩
  · exact hn
  · exact lt_of_childOf hq

theorem Below.lt_right (wf : t.WellFormed) (hm : m < t.slots.size) (h : t.Below m n) :
    n < t.slots.size := by
  rcases Relation.ReflTransGen.cases_tail h with rfl | ⟨q, _, hq⟩
  · exact hm
  · exact wf.parent_lt hq

/-- Nothing is below two children of one node. -/
theorem WellFormed.not_below_sibling (wf : t.WellFormed) (ha : t.ChildOf a p)
    (hb : t.ChildOf b p) (hne : a ≠ b) (hm : t.Below m a) : ¬ t.Below m b := by
  -- One of two nodes above `m` is above the other, and then its parent is below it.
  have key : ∀ {x y}, t.ChildOf x p → t.ChildOf y p → x ≠ y → ¬ t.Below x y := by
    intro x y hx hy hxy h
    rcases Relation.ReflTransGen.cases_head h with rfl | ⟨q, hq, hqy⟩
    · exact hxy rfl
    · obtain rfl : q = p := childOf_rightUnique t hq hx
      exact wf.not_below_child hy hqy
  intro hmb
  rcases Relation.ReflTransGen.total_of_right_unique (childOf_rightUnique t) hm hmb with h | h
  · exact key ha hb hne h
  · exact key hb ha hne.symm h

/-- Climbing in a later tree is climbing in an earlier one, as long as it stays where the parents
    are the same. -/
theorem Below.of_agree {P : NodeId → Prop}
    (hP : ∀ x q, P x → t'.ChildOf x q → t.ChildOf x q ∧ P q) (hm : P m) (h : t'.Below m n) :
    t.Below m n := by
  induction h using Relation.ReflTransGen.head_induction_on with
  | refl => exact Below.refl t n
  | head hxq _ ih =>
    obtain ⟨hq, hPq⟩ := hP _ _ hm hxq
    exact hq.below.trans (ih hPq)

/-! ## §4. Nodes that keep their parents -/

/-- No old node gets a new parent. -/
structure NoAdoption (t t' : LiveTree) : Prop where
  /-- No node is lost. -/
  size_le : t.slots.size ≤ t'.slots.size
  /-- The parent of an old node was its parent before. -/
  childOf_of : ∀ x q, x < t.slots.size → t'.ChildOf x q → t.ChildOf x q

namespace NoAdoption

theorem refl (t : LiveTree) : NoAdoption t t := ⟨Nat.le_refl _, fun _ _ _ h => h⟩

theorem trans (h : NoAdoption t t') (h' : NoAdoption t' t'') : NoAdoption t t'' where
  size_le := Nat.le_trans h.size_le h'.size_le
  childOf_of := fun x q hx hq =>
    h.childOf_of x q hx (h'.childOf_of x q (Nat.lt_of_lt_of_le hx h.size_le) hq)

theorem of_parent?_eq (hsize : t.slots.size ≤ t'.slots.size)
    (h : ∀ x, x < t.slots.size → t'.parent? x = t.parent? x) : NoAdoption t t' where
  size_le := hsize
  childOf_of := by
    intro x q hx hq
    rw [ChildOf, ← h x hx]
    exact hq

/-- Below a new node there are new nodes only. -/
theorem not_below_fresh (h : NoAdoption t t') (wf : t.WellFormed) (hm : m < t.slots.size)
    (hn : t.slots.size ≤ n) : ¬ t'.Below m n := by
  intro hb
  have hold : t.Below m n := by
    refine Below.of_agree (P := (· < t.slots.size)) ?_ hm hb
    intro x q hx hxq
    have hq := h.childOf_of x q hx hxq
    exact ⟨hq, wf.parent_lt hq⟩
  exact Nat.not_lt_of_le hn (hold.lt_right wf hm)

end NoAdoption

/-! ## §5. Changes within a region -/

/-- Outside of a region the nodes of an earlier tree are as they were. -/
structure SameOff (R : NodeId → Prop) (t t' : LiveTree) : Prop where
  /-- No node is lost. -/
  size_le : t.slots.size ≤ t'.slots.size
  /-- Nodes outside of the region are as they were. -/
  slot?_eq : ∀ m, m < t.slots.size → ¬ R m → t'.slot? m = t.slot? m

namespace SameOff

variable {R R' : NodeId → Prop}

theorem refl (R : NodeId → Prop) (t : LiveTree) : SameOff R t t := ⟨Nat.le_refl _, fun _ _ _ => rfl⟩

theorem trans (h : SameOff R t t') (h' : SameOff R' t' t'')
    (hR : ∀ m, m < t.slots.size → R' m → R m) : SameOff R t t'' where
  size_le := Nat.le_trans h.size_le h'.size_le
  slot?_eq := by
    intro m hm hRm
    rw [h'.slot?_eq m (Nat.lt_of_lt_of_le hm h.size_le) fun hr => hRm (hR m hm hr)]
    exact h.slot?_eq m hm hRm

theorem mono (h : SameOff R t t') (hR : ∀ m, m < t.slots.size → R m → R' m) :
    SameOff R' t t' :=
  ⟨h.size_le, fun m hm hr => h.slot?_eq m hm fun hRm => hr (hR m hm hRm)⟩

theorem lt (h : SameOff R t t') (hn : n < t.slots.size) : n < t'.slots.size :=
  Nat.lt_of_lt_of_le hn h.size_le

theorem parent?_eq (h : SameOff R t t') (hm : m < t.slots.size) (hR : ¬ R m) :
    t'.parent? m = t.parent? m := by
  rw [parent?, parent?, h.slot?_eq m hm hR]

theorem noAdoption (h : SameOff (fun _ => False) t t') : NoAdoption t t' :=
  .of_parent?_eq h.size_le fun _ hx => h.parent?_eq hx not_false

/-- Where nothing but new nodes came about, no old node is below a new one. -/
theorem not_below_fresh (h : SameOff (fun _ => False) t t') (wf : t.WellFormed)
    (hm : m < t.slots.size) (hn : t.slots.size ≤ n) : ¬ t'.Below m n :=
  h.noAdoption.not_below_fresh wf hm hn

/-- After a change below `a`, what is below some node but not below `a` was there before. -/
theorem below_of_not_below (h : SameOff (fun x => t.Below x a) t t') (wf : t.WellFormed)
    (hm : m < t.slots.size) (hma : ¬ t.Below m a) (hb : t'.Below m n) : t.Below m n := by
  refine Below.of_agree (P := fun x => x < t.slots.size ∧ ¬ t.Below x a) ?_ ⟨hm, hma⟩ hb
  intro x q hall hxq
  obtain ⟨hx, hxa⟩ := hall
  have hq : t.ChildOf x q := by rw [ChildOf, ← h.parent?_eq hx hxa]; exact hxq
  exact ⟨hq, wf.parent_lt hq, fun hqa => hxa (hq.below.trans hqa)⟩

end SameOff

end ReactiveView.LiveTree
