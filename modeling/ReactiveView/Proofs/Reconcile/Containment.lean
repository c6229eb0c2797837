import ReactiveView.Proofs.Reconcile.Convergence

/-! # Reconciliation stays inside its target

  All nodes live in one arena, and every edit names its node, so nothing but the
  course of the edits keeps a reconciliation from touching what is not its own.

  * `StrictlyBelow`: the region that belongs to a target.
  * `slot?_reconcile_of_not_below`: outside of it, and at the target but for its
    list of children, every node is as it was.
  * `mem_below_reconcile`: nothing moves into the region from outside; what is
    there afterwards was there before or is new.
-/

namespace ReactiveView

open LiveTree

variable {t : LiveTree} {m n p q : NodeId}

/-! ## §1. Strictly below a node -/

namespace LiveTree

/-- `m` is a child, or a child of a child ..., of `n`. -/
def StrictlyBelow (t : LiveTree) (m n : NodeId) : Prop := Relation.TransGen t.ChildOf m n

theorem below_iff : t.Below m n ↔ n = m ∨ t.StrictlyBelow m n :=
  Relation.reflTransGen_iff_eq_or_transGen

theorem StrictlyBelow.lt (h : t.StrictlyBelow m n) : m < t.slots.size := by
  obtain ⟨q, hq, _⟩ := Relation.TransGen.head'_iff.mp h
  exact lt_of_childOf hq

/-- A child of a node at or below `n` is strictly below `n`. -/
theorem ChildOf.strictlyBelow {c : NodeId} (h : t.ChildOf c q) (hq : t.Below q n) :
    t.StrictlyBelow c n :=
  Relation.TransGen.head' h hq

theorem not_strictlyBelow_of_parent?_eq_none (h : t.parent? m = none) :
    ¬ t.StrictlyBelow m n := by
  intro hm
  obtain ⟨q, hq, _⟩ := Relation.TransGen.head'_iff.mp hm
  rw [ChildOf, h] at hq
  cases hq

end LiveTree

/-! ## §2. Outside of the target -/

theorem slot?_reconcile_of_not_below (wf : t.WellFormed) (hp : t.exists? p = true)
    (vs : List VNode) (hm : m < t.slots.size) (hmp : ¬ t.Below m p) :
    (t.reconcile .stored p vs).1.slot? m = t.slot? m := by
  obtain ⟨ns, hns⟩ := shown_reconcile wf hp vs
  exact hns.sameOff.slot?_eq m hm hmp

/-- The target itself changes in its list of children only. -/
theorem slot?_reconcile_target (wf : t.WellFormed) (hp : t.exists? p = true) (vs : List VNode) :
    ∃ cs, (t.reconcile .stored p vs).1.slot? p =
      (t.slot? p).map fun s => { s with children := cs } := by
  obtain ⟨ns, hns⟩ := shown_reconcile wf hp vs
  exact ⟨ns, hns.slot?_eq⟩

/-! ## §3. Inside of the target -/

/-- What is strictly below the target afterwards was so before or was made meanwhile. -/
theorem mem_below_reconcile (wf : t.WellFormed) (hp : t.exists? p = true) (vs : List VNode)
    (h : (t.reconcile .stored p vs).1.StrictlyBelow m p) :
    t.StrictlyBelow m p ∨ t.slots.size ≤ m := by
  obtain ⟨ns, hns⟩ := shown_reconcile wf hp vs
  have wf' := wellFormed_reconcile wf hp vs
  rcases Nat.lt_or_ge m t.slots.size with hm | hm
  · refine .inl (Classical.byContradiction fun hout => ?_)
    -- Otherwise the node is outside of the target, where climbing is as before.
    have hmp : ¬ t.Below m p := by
      intro hb
      rcases below_iff.mp hb with rfl | hb
      · exact wf'.acyclic p h
      · exact hout hb
    exact hmp (hns.sameOff.below_of_not_below wf hm hmp (below_iff.mpr (.inr h)))
  · exact .inr hm

/-- **Containment**: a reconciliation keeps the whole tree well formed. A node that is not strictly
    below the target keeps its kind, text, attributes, style, handlers and parent, and unless it is
    the target also its children. And every child of the target, or of a node below it, was strictly
    below the target before or was made by the reconciliation. -/
theorem reconcile_contained (wf : t.WellFormed) (hp : t.exists? p = true) (vs : List VNode) :
    let t' := (t.reconcile .stored p vs).1
    t'.WellFormed ∧
    (∀ m s, t.slot? m = some s → ¬ t.StrictlyBelow m p →
      ∃ cs, t'.slot? m = some { s with children := cs } ∧ (m ≠ p → cs = s.children)) ∧
    ∀ q c, t'.Below q p → c ∈ t'.children q →
      t.StrictlyBelow c p ∨ (t.exists? c = false ∧ t'.exists? c = true) := by
  intro t'
  have wf' : t'.WellFormed := wellFormed_reconcile wf hp vs
  refine ⟨wf', ?_, ?_⟩
  · intro m s hs hm
    by_cases hmp : m = p
    · subst hmp
      obtain ⟨cs, hcs⟩ := slot?_reconcile_target wf hp vs
      rw [hs] at hcs
      exact ⟨cs, hcs, fun hne => absurd rfl hne⟩
    · have hlt : m < t.slots.size := exists?_iff.mp (by simp [exists?, hs])
      have hout : ¬ t.Below m p := by
        intro hb
        rcases below_iff.mp hb with rfl | hb
        · exact hmp rfl
        · exact hm hb
      refine ⟨s.children, ?_, fun _ => rfl⟩
      show (t.reconcile .stored p vs).1.slot? m = some s
      rw [slot?_reconcile_of_not_below wf hp vs hlt hout, hs]
  · intro q c hq hc
    have hchild : t'.ChildOf c q := (wf'.mem_children_iff c q).mp hc
    have hbelow : t'.StrictlyBelow c p := hchild.strictlyBelow hq
    rcases mem_below_reconcile wf hp vs hbelow with h | h
    · exact .inl h
    · refine .inr ⟨?_, exists?_iff.mpr hbelow.lt⟩
      rw [Bool.eq_false_iff]
      intro hex
      exact Nat.not_lt_of_le h (exists?_iff.mp hex)

/-- A paragraph is put at an empty mount point: the root above it is as it was, and the paragraph is
    new. -/
theorem reconcile_contained_at_mount_point :
    let t := (LiveTree.initial.createMountPoint "app").2
    let t' := (t.reconcile .stored 1 [.element { tag := "p" } [.text "new"]]).1
    t'.WellFormed ∧ t'.slot? 0 = some { kind := .element "body", children := [1] } ∧
      ∀ c ∈ t'.children 1, t.exists? c = false ∧ t'.exists? c = true := by
  intro t t'
  have wf : t.WellFormed := wellFormed_initial.createMountPoint (by decide) "app"
  obtain ⟨wf', hout, hin⟩ :=
    reconcile_contained (p := 1) wf (by decide) [.element { tag := "p" } [.text "new"]]
  refine ⟨wf', ?_, ?_⟩
  · have hroot : ¬ t.StrictlyBelow 0 1 := not_strictlyBelow_of_parent?_eq_none (by decide)
    obtain ⟨cs, hslot, hcs⟩ := hout 0 { kind := .element "body", children := [1] } rfl hroot
    rw [hcs (by decide)] at hslot
    exact hslot
  · intro c hc
    rcases hin 1 c (Below.refl t' 1) hc with h | h
    · -- The mount point had no children.
      obtain ⟨x, _, hx⟩ := Relation.TransGen.tail'_iff.mp h
      have hmem : x ∈ t.children 1 := (wf.mem_children_iff x 1).mpr hx
      have hnil : t.children 1 = [] := by decide
      rw [hnil] at hmem
      cases hmem
    · exact h

end ReactiveView
