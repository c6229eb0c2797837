import Mathlib.Data.List.Nodup
import ReactiveView.Proofs.LiveTree.Matches

/-! # What the operations do to a well-formed live tree

  Each structural operation is described by what the arena holds for every node
  afterwards, and from that it is shown to keep the tree well formed:

  * `remove`: the child has no parent, the parent does not list it;
  * `append`: a node without a parent becomes the last child;
  * `replace`: a node without a parent takes the place of a child;
  * `create`: a new node is apart from all others.

  `Redressed` covers the operations on attributes, style, text and handlers,
  which leave all links alone.
-/

namespace ReactiveView.LiveTree

variable {t t' t'' : LiveTree} {c m n p old new : NodeId}

/-! ## §1. Updates -/

theorem slot?_update (t : LiveTree) (n : NodeId) (f : Slot → Slot) (m : NodeId) :
    (t.update n f).slot? m = if m = n then (t.slot? m).map f else t.slot? m := by
  split
  · next h => rw [h, slot?_update_self]
  · next h => exact slot?_update_ne t f h

@[simp] theorem size_update (t : LiveTree) (n : NodeId) (f : Slot → Slot) :
    (t.update n f).slots.size = t.slots.size := by
  simp [update]

@[simp] theorem size_log (t : LiveTree) (e : Edit) : (t.log e).slots.size = t.slots.size := rfl

@[simp] theorem size_detach (t : LiveTree) (c : NodeId) :
    (t.detach c).slots.size = t.slots.size := by
  unfold detach
  split <;> simp

theorem edits_detach (t : LiveTree) (c : NodeId) : (t.detach c).edits = t.edits := by
  unfold detach
  split <;> rfl

@[simp] theorem size_remove (t : LiveTree) (p c : NodeId) :
    (t.remove p c).slots.size = t.slots.size := by
  unfold remove
  split <;> simp

@[simp] theorem size_append (t : LiveTree) (p c : NodeId) :
    (t.append p c).slots.size = t.slots.size := by
  unfold append
  split <;> simp [attach]

@[simp] theorem size_replace (t : LiveTree) (p old new : NodeId) :
    (t.replace p old new).slots.size = t.slots.size := by
  unfold replace
  split <;> simp

theorem detach_of_parent?_eq_none (h : t.parent? c = none) : t.detach c = t := by
  simp [detach, h]

/-! ## §2. What the arena holds afterwards -/

theorem slot?_remove (h : t.ChildOf c p) (hne : c ≠ p) (m : NodeId) :
    (t.remove p c).slot? m =
      if m = c then (t.slot? m).map fun s => { s with parent := none }
      else if m = p then
        (t.slot? m).map fun s => { s with children := s.children.filter (· != c) }
      else t.slot? m := by
  have hp : t.parent? c = some p := h
  simp only [remove, hp, if_true, slot?_log, detach, slot?_update]
  by_cases hmc : m = c
  · simp [hmc, hne]
  · simp [hmc]

theorem slot?_append (hc : t.parent? c = none) (hclt : c < t.slots.size)
    (hplt : p < t.slots.size) (hne : c ≠ p) (m : NodeId) :
    (t.append p c).slot? m =
      if m = c then (t.slot? m).map fun s => { s with parent := some p }
      else if m = p then (t.slot? m).map fun s => { s with children := s.children ++ [c] }
      else t.slot? m := by
  have hex : (t.exists? p && t.exists? c) = true := by
    rw [exists?_iff.mpr hplt, exists?_iff.mpr hclt]; rfl
  simp only [append, hex, if_true, detach_of_parent?_eq_none hc, attach, slot?_log, slot?_update]
  by_cases hmc : m = c
  · simp [hmc, hne]
  · by_cases hmp : m = p
    · obtain ⟨s, hs⟩ := exists_slot_of_lt hplt
      simp [hmp, hs, children_of_slot? hs, hne.symm]
    · simp [hmc, hmp]

theorem slot?_replace (hold : t.ChildOf old p) (hnew : t.parent? new = none)
    (hlt : new < t.slots.size) (hop : old ≠ p) (hnp : new ≠ p) (m : NodeId) :
    (t.replace p old new).slot? m =
      if m = new then (t.slot? m).map fun s => { s with parent := some p }
      else if m = old then (t.slot? m).map fun s => { s with parent := none }
      else if m = p then
        (t.slot? m).map fun s => { s with children := s.children.replace old new }
      else t.slot? m := by
  have hp : t.parent? old = some p := hold
  have hno : new ≠ old := by
    -- `old` has a parent and `new` has none.
    intro he
    subst he
    rw [hnew] at hp
    exact absurd hp (by simp)
  have hcond : t.parent? old = some p ∧ t.exists? new = true := ⟨hp, exists?_iff.mpr hlt⟩
  simp only [replace, if_pos hcond, detach_of_parent?_eq_none hnew, slot?_log, slot?_update]
  by_cases hmn : m = new
  · simp [hmn, hno, hnp]
  · by_cases hmo : m = old
    · simp [hmo, hno.symm, hop]
    · simp [hmn, hmo]

theorem slot?_create (t : LiveTree) (k : NodeKind) (text : String) (m : NodeId) :
    (t.create k text).2.slot? m =
      if m = t.slots.size then some { kind := k, text := text } else t.slot? m := by
  simp only [create, alloc, slot?_log]
  simp only [slot?, Array.getElem?_push]

@[simp] theorem size_create (t : LiveTree) (k : NodeKind) (text : String) :
    (t.create k text).2.slots.size = t.slots.size + 1 := by
  simp [create, alloc, log]

theorem sameOff_create (t : LiveTree) (k : NodeKind) (text : String) :
    SameOff (fun _ => False) t (t.create k text).2 where
  size_le := by simp
  slot?_eq := by
    intro m hm _
    rw [slot?_create, if_neg (Nat.ne_of_lt hm)]

/-! ## §3. Links and faces afterwards -/

theorem face?_append (hc : t.parent? c = none) (hclt : c < t.slots.size)
    (hplt : p < t.slots.size) (hne : c ≠ p) (hm : m ≠ p) :
    (t.append p c).face? m = t.face? m := by
  rw [face?, face?, slot?_append hc hclt hplt hne]
  by_cases hmc : m = c
  · simp [hmc, Function.comp_def]
  · simp [hmc, hm]

theorem face?_replace (hold : t.ChildOf old p) (hnew : t.parent? new = none)
    (hlt : new < t.slots.size) (hop : old ≠ p) (hnp : new ≠ p) (hm : m ≠ p) :
    (t.replace p old new).face? m = t.face? m := by
  rw [face?, face?, slot?_replace hold hnew hlt hop hnp]
  by_cases hmn : m = new
  · simp [hmn, Function.comp_def]
  · by_cases hmo : m = old
    · simp [hmo, hmo ▸ hmn, Function.comp_def]
    · simp [hmn, hmo, hm]

theorem children_remove (h : t.ChildOf c p) (hne : c ≠ p) (q : NodeId) :
    (t.remove p c).children q =
      if q = p then (t.children q).filter (· != c) else t.children q := by
  rw [children, slot?_remove h hne]
  by_cases hqc : q = c
  · cases hs : t.slot? q <;> simp [hqc ▸ hs, hqc, hne, children]
  · by_cases hqp : q = p
    · cases hs : t.slot? p <;> simp [hqp, hs, hne.symm, children]
    · simp [hqc, hqp, children]

theorem parent?_remove (h : t.ChildOf c p) (hne : c ≠ p) (x : NodeId) :
    (t.remove p c).parent? x = if x = c then none else t.parent? x := by
  rw [parent?, slot?_remove h hne]
  by_cases hxc : x = c
  · cases hs : t.slot? c <;> simp [hxc, hs]
  · by_cases hxp : x = p
    · cases hs : t.slot? p <;> simp [hxp, hs, hne.symm, parent?]
    · simp [hxc, hxp, parent?]

theorem children_append (hc : t.parent? c = none) (hclt : c < t.slots.size)
    (hplt : p < t.slots.size) (hne : c ≠ p) (q : NodeId) :
    (t.append p c).children q = if q = p then t.children q ++ [c] else t.children q := by
  rw [children, slot?_append hc hclt hplt hne]
  by_cases hqc : q = c
  · cases hs : t.slot? c <;> simp [hqc, hs, hne, children]
  · by_cases hqp : q = p
    · obtain ⟨s, hs⟩ := exists_slot_of_lt hplt
      simp [hqp, hs, hne.symm, children]
    · simp [hqc, hqp, children]

theorem parent?_append (hc : t.parent? c = none) (hclt : c < t.slots.size)
    (hplt : p < t.slots.size) (hne : c ≠ p) (x : NodeId) :
    (t.append p c).parent? x = if x = c then some p else t.parent? x := by
  rw [parent?, slot?_append hc hclt hplt hne]
  by_cases hxc : x = c
  · obtain ⟨s, hs⟩ := exists_slot_of_lt hclt
    simp [hxc, hs]
  · by_cases hxp : x = p
    · cases hs : t.slot? p <;> simp [hxp, hs, hne.symm, parent?]
    · simp [hxc, hxp, parent?]

theorem children_replace (hold : t.ChildOf old p) (hnew : t.parent? new = none)
    (hlt : new < t.slots.size) (hop : old ≠ p) (hnp : new ≠ p) (q : NodeId) :
    (t.replace p old new).children q =
      if q = p then (t.children q).replace old new else t.children q := by
  rw [children, slot?_replace hold hnew hlt hop hnp]
  by_cases hqp : q = p
  · cases hs : t.slot? p <;> simp [hqp, hs, hop.symm, hnp.symm, children]
  · rw [if_neg hqp]
    split
    · cases hs : t.slot? q <;> simp [hs, children]
    · split
      · cases hs : t.slot? q <;> simp [hs, children]
      · simp [children]

theorem parent?_replace (hold : t.ChildOf old p) (hnew : t.parent? new = none)
    (hlt : new < t.slots.size) (hop : old ≠ p) (hnp : new ≠ p) (x : NodeId) :
    (t.replace p old new).parent? x =
      if x = new then some p else if x = old then none else t.parent? x := by
  rw [parent?, slot?_replace hold hnew hlt hop hnp]
  by_cases hxn : x = new
  · obtain ⟨s, hs⟩ := exists_slot_of_lt hlt
    simp [hxn, hs]
  · by_cases hxo : x = old
    · subst hxo
      cases t.slot? x <;> simp [hxn]
    · by_cases hxp : x = p
      · subst hxp
        cases hs : t.slot? x <;> simp [hs, hxn, hxo, parent?]
      · simp [hxn, hxo, hxp, parent?]

theorem children_create (t : LiveTree) (k : NodeKind) (text : String) (q : NodeId) :
    (t.create k text).2.children q = t.children q := by
  rw [children, slot?_create]
  by_cases hq : q = t.slots.size
  · have hnone : t.slot? q = none := slot?_eq_none_iff.mpr (Nat.le_of_eq hq.symm)
    simp [hq, children, hq ▸ hnone]
  · simp [hq, children]

theorem parent?_create (t : LiveTree) (k : NodeKind) (text : String) (x : NodeId) :
    (t.create k text).2.parent? x = t.parent? x := by
  rw [parent?, slot?_create]
  by_cases hx : x = t.slots.size
  · have hnone : t.slot? x = none := slot?_eq_none_iff.mpr (Nat.le_of_eq hx.symm)
    simp [hx, parent?, hx ▸ hnone]
  · simp [hx, parent?]

/-! ## §4. The invariant is kept -/

/-- A tree with the links of a well-formed one is well formed. -/
theorem WellFormed.of_same_links (wf : t.WellFormed) (hc : ∀ q, t'.children q = t.children q)
    (hp : ∀ x, t'.parent? x = t.parent? x) : t'.WellFormed where
  mem_children_iff := by
    intro x q
    rw [hc, hp]
    exact wf.mem_children_iff x q
  nodup_children := by
    intro q
    rw [hc]
    exact wf.nodup_children q
  acyclic := by
    intro x hx
    refine wf.acyclic x (Relation.TransGen.mono ?_ x x hx)
    intro a b hab
    rw [ChildOf, ← hp]
    exact hab

theorem WellFormed.create (wf : t.WellFormed) (k : NodeKind) (text : String) :
    (t.create k text).2.WellFormed :=
  wf.of_same_links (children_create t k text) (parent?_create t k text)

theorem WellFormed.remove (wf : t.WellFormed) (h : t.ChildOf c p) : (t.remove p c).WellFormed := by
  have hne := wf.ne_of_childOf h
  have hpar := parent?_remove h hne
  refine ⟨?_, ?_, ?_⟩
  · intro x q
    rw [children_remove h hne, hpar]
    by_cases hxc : x = c
    · -- Only `p` listed the child, and it does not any more.
      have hq : q ≠ p → x ∉ t.children q := by
        intro hqp hx
        rw [wf.mem_children_iff, hxc] at hx
        exact hqp (childOf_rightUnique t hx h)
      by_cases hqp : q = p <;> simp [hxc, hqp]
      exact hxc ▸ hq hqp
    · by_cases hqp : q = p <;> simp [hxc, hqp, wf.mem_children_iff]
  · intro q
    rw [children_remove h hne]
    split
    · exact (wf.nodup_children q).filter _
    · exact wf.nodup_children q
  · -- A cycle would have been there before: no link is new.
    intro x hx
    refine wf.acyclic x (Relation.TransGen.mono ?_ x x hx)
    intro a b hab
    rw [ChildOf, hpar] at hab
    split at hab
    · simp at hab
    · exact hab

/-- With one more link, from `c` up to `p`, climbing either does without it or uses it. -/
theorem transGen_of_link {r r' : NodeId → NodeId → Prop}
    (hr : ∀ x y, r' x y → r x y ∨ (x = c ∧ y = p)) {x y : NodeId}
    (h : Relation.TransGen r' x y) :
    Relation.TransGen r x y ∨ (Relation.ReflTransGen r x c ∧ Relation.ReflTransGen r p y) := by
  induction h with
  | single hxy =>
    rcases hr _ _ hxy with h | ⟨rfl, rfl⟩
    · exact Or.inl (.single h)
    · exact Or.inr ⟨.refl, .refl⟩
  | tail _ hyz ih =>
    -- The last step of the climb is an old link or the new one.
    rcases hr _ _ hyz with h | ⟨rfl, rfl⟩
    · rcases ih with ih | ⟨hxc, hpy⟩
      · exact Or.inl (ih.tail h)
      · exact Or.inr ⟨hxc, hpy.tail h⟩
    · rcases ih with ih | ⟨hxc, _⟩
      · exact Or.inr ⟨ih.to_reflTransGen, .refl⟩
      · exact Or.inr ⟨hxc, .refl⟩

/-- A node without a parent may be linked to any node that is not below it. -/
theorem WellFormed.acyclic_link (wf : t.WellFormed) (hpc : ¬ t.Below p c)
    (hr : ∀ x q, t'.ChildOf x q → t.ChildOf x q ∨ (x = c ∧ q = p)) (x : NodeId) :
    ¬ Relation.TransGen t'.ChildOf x x := by
  intro hx
  rcases transGen_of_link hr hx with h | ⟨hxc, hpx⟩
  · exact wf.acyclic x h
  · exact hpc (Relation.ReflTransGen.trans hpx hxc)

theorem WellFormed.append (wf : t.WellFormed) (hc : t.parent? c = none)
    (hclt : c < t.slots.size) (hplt : p < t.slots.size) (hpc : ¬ t.Below p c) :
    (t.append p c).WellFormed := by
  have hne := ne_of_not_below hpc
  have hpar := parent?_append hc hclt hplt hne
  have hnot := wf.not_mem_children hc
  refine ⟨?_, ?_, ?_⟩
  · intro x q
    rw [children_append hc hclt hplt hne, hpar]
    by_cases hxc : x = c
    · -- The new child is listed by `p`, and by nobody before.
      by_cases hqp : q = p
      · simp [hxc, hqp]
      · simp [hxc, hqp, hnot q, Ne.symm hqp]
    · by_cases hqp : q = p <;> simp [hxc, hqp, wf.mem_children_iff]
  · intro q
    rw [children_append hc hclt hplt hne]
    split
    · rw [List.nodup_append]
      refine ⟨wf.nodup_children q, by simp, ?_⟩
      intro a ha b hb hab
      obtain rfl : b = c := by simpa using hb
      exact hnot q (hab ▸ ha)
    · exact wf.nodup_children q
  · -- There is one new link, and the climb from `p` never came to `c`.
    refine wf.acyclic_link hpc ?_
    intro x q hxq
    rw [ChildOf, hpar] at hxq
    split at hxq
    · next h => exact Or.inr ⟨h, (Option.some.inj hxq).symm⟩
    · exact Or.inl hxq

/-- In a list without repetitions an entry is replaced where it stands. -/
theorem replace_append_cons {l₁ l₂ : List NodeId} (h : (l₁ ++ old :: l₂).Nodup) :
    (l₁ ++ old :: l₂).replace old new = l₁ ++ new :: l₂ := by
  have hold : old ∉ l₁ := fun ho => (List.nodup_append.mp h).2.2 old ho old (by simp) rfl
  rw [List.replace_append_right hold, List.replace_cons_self]

theorem mem_replace_iff {l : List NodeId} (h : l.Nodup) (hold : old ∈ l) (x : NodeId) :
    x ∈ l.replace old new ↔ x = new ∨ (x ∈ l ∧ x ≠ old) := by
  obtain ⟨l₁, l₂, rfl⟩ := List.append_of_mem hold
  have hnot : old ∉ l₁ ∧ old ∉ l₂ := by
    simpa using (List.nodup_cons.mp (List.nodup_middle.mp h)).1
  rw [replace_append_cons h]
  by_cases hxo : x = old
  · simp [hxo, hnot]
  · simp [hxo, or_left_comm]

theorem nodup_replace {l : List NodeId} (h : l.Nodup) (hold : old ∈ l) (hnew : new ∉ l) :
    (l.replace old new).Nodup := by
  obtain ⟨l₁, l₂, rfl⟩ := List.append_of_mem hold
  rw [replace_append_cons h]
  refine List.nodup_middle.mpr (List.nodup_cons.mpr ⟨?_, ?_⟩)
  · intro hn
    exact hnew (List.perm_middle.mem_iff.mpr (List.mem_cons_of_mem _ hn))
  · exact (List.nodup_cons.mp (List.nodup_middle.mp h)).2

theorem WellFormed.replace (wf : t.WellFormed) (hold : t.ChildOf old p)
    (hnew : t.parent? new = none) (hlt : new < t.slots.size) (hpn : ¬ t.Below p new) :
    (t.replace p old new).WellFormed := by
  have hop := wf.ne_of_childOf hold
  have hnp := ne_of_not_below hpn
  have hpar := parent?_replace hold hnew hlt hop hnp
  have hchild := children_replace hold hnew hlt hop hnp
  have hmem : old ∈ t.children p := (wf.mem_children_iff old p).mpr hold
  have hnot := wf.not_mem_children hnew
  refine ⟨?_, ?_, ?_⟩
  · intro x q
    rw [hchild, hpar]
    by_cases hqp : q = p
    · -- `p` lists `new` and everything else but `old`.
      subst hqp
      rw [if_pos rfl, mem_replace_iff (wf.nodup_children q) hmem, wf.mem_children_iff]
      by_cases hxn : x = new
      · simp [hxn]
      · by_cases hxo : x = old <;> simp [hxn, hxo]
    · rw [if_neg hqp, wf.mem_children_iff]
      by_cases hxn : x = new
      · simp [hxn, hnew, Ne.symm hqp]
      · by_cases hxo : x = old
        · -- `old` was listed by `p` alone.
          have : ¬ t.parent? old = some q := fun h => hqp (childOf_rightUnique t h hold)
          simp [hxo, hxo ▸ hxn, this]
        · simp [hxn, hxo]
  · intro q
    rw [hchild]
    split
    · next h => exact h ▸ nodup_replace (wf.nodup_children p) hmem (hnot p)
    · exact wf.nodup_children q
  · -- One link is gone and one is new.
    refine wf.acyclic_link hpn ?_
    intro x q hxq
    rw [ChildOf, hpar] at hxq
    split at hxq
    · next h => exact Or.inr ⟨h, (Option.some.inj hxq).symm⟩
    · split at hxq
      · simp at hxq
      · exact Or.inl hxq

/-! ## §5. Operations that leave the links alone -/

/-- At most the attributes, style, text and handlers of `n` differ. -/
structure Redressed (n : NodeId) (t t' : LiveTree) : Prop where
  /-- There are the same nodes. -/
  size_eq : t'.slots.size = t.slots.size
  /-- All other nodes are as they were. -/
  slot?_ne : ∀ m, m ≠ n → t'.slot? m = t.slot? m
  /-- The kind is as it was. -/
  kind_eq : t'.kind n = t.kind n
  /-- The children are as they were. -/
  children_eq : t'.children n = t.children n
  /-- The parent is as it was. -/
  parent?_eq : t'.parent? n = t.parent? n

namespace Redressed

theorem refl (n : NodeId) (t : LiveTree) : Redressed n t t := ⟨rfl, fun _ _ => rfl, rfl, rfl, rfl⟩

theorem trans (h : Redressed n t t') (h' : Redressed n t' t'') : Redressed n t t'' where
  size_eq := h'.size_eq.trans h.size_eq
  slot?_ne := fun m hm => (h'.slot?_ne m hm).trans (h.slot?_ne m hm)
  kind_eq := h'.kind_eq.trans h.kind_eq
  children_eq := h'.children_eq.trans h.children_eq
  parent?_eq := h'.parent?_eq.trans h.parent?_eq

theorem all_children_eq (h : Redressed n t t') (q : NodeId) : t'.children q = t.children q := by
  by_cases hq : q = n
  · rw [hq, h.children_eq]
  · rw [children, children, h.slot?_ne q hq]

theorem all_parent?_eq (h : Redressed n t t') (x : NodeId) : t'.parent? x = t.parent? x := by
  by_cases hx : x = n
  · rw [hx, h.parent?_eq]
  · rw [parent?, parent?, h.slot?_ne x hx]

theorem wellFormed (h : Redressed n t t') (wf : t.WellFormed) : t'.WellFormed :=
  wf.of_same_links h.all_children_eq h.all_parent?_eq

theorem sameOff (h : Redressed n t t') : SameOff (· = n) t t' :=
  ⟨Nat.le_of_eq h.size_eq.symm, fun m _ hm => h.slot?_ne m hm⟩

end Redressed

theorem redressed_change {f : Slot → Slot} (hk : ∀ s, (f s).kind = s.kind)
    (hc : ∀ s, (f s).children = s.children) (hp : ∀ s, (f s).parent = s.parent) (t : LiveTree)
    (n : NodeId) (e : Edit) : Redressed n t (t.change n f e) := by
  unfold change
  split
  · refine ⟨by simp, fun m hm => ?_, ?_, ?_, ?_⟩
    · rw [slot?_log, slot?_update_ne t f hm]
    all_goals
      simp only [kind, children, parent?, slot?_log, slot?_update_self]
      cases t.slot? n <;> simp [hk, hc, hp]
  · exact Redressed.refl n t

theorem redressed_setAttribute (t : LiveTree) (n : NodeId) (name value : String) :
    Redressed n t (t.setAttribute n name value) := by
  refine redressed_change ?_ ?_ ?_ t n _ <;> intro s <;> split <;> rfl

theorem redressed_removeAttribute (t : LiveTree) (n : NodeId) (name : String) :
    Redressed n t (t.removeAttribute n name) := by
  refine redressed_change ?_ ?_ ?_ t n _ <;> intro s <;> split <;> rfl

theorem redressed_setStyle (t : LiveTree) (n : NodeId) (property : String)
    (value : Option String) : Redressed n t (t.setStyle n property value) := by
  refine redressed_change ?_ ?_ ?_ t n _ <;> intro s <;> cases value <;> rfl

theorem redressed_setText (t : LiveTree) (n : NodeId) (text : String) :
    Redressed n t (t.setText n text) := by
  refine redressed_change ?_ ?_ ?_ t n _ <;> intro s <;> rfl

theorem redressed_listen (t : LiveTree) (n : NodeId) (event : String) (handler : EventHandler) :
    Redressed n t (t.listen n event handler) := by
  refine redressed_change ?_ ?_ ?_ t n _ <;> intro s <;> rfl

theorem redressed_unlisten (t : LiveTree) (n : NodeId) (event : String) :
    Redressed n t (t.unlisten n event) := by
  unfold unlisten
  split
  · refine redressed_change ?_ ?_ ?_ t n _ <;> intro s <;> rfl
  · exact Redressed.refl n t

/-! ## §6. Trees to start from -/

theorem wellFormed_initial : initial.WellFormed := by
  -- There is one slot, with neither children nor a parent.
  have hslot : ∀ n s, initial.slot? n = some s → s.children = [] ∧ s.parent = none := by
    intro n s hs
    cases n with
    | zero => cases hs; exact ⟨rfl, rfl⟩
    | succ n => simp [initial, slot?] at hs
  have hchildren : ∀ n, initial.children n = [] := by
    intro n
    cases hs : initial.slot? n with
    | none => simp [children, hs]
    | some s => rw [children_of_slot? hs, (hslot n s hs).1]
  have hparent : ∀ n, initial.parent? n = none := by
    intro n
    cases hs : initial.slot? n with
    | none => simp [parent?, hs]
    | some s => rw [parent?_of_slot? hs, (hslot n s hs).2]
  refine ⟨fun c p => by simp [hchildren, hparent], fun p => by simp [hchildren], ?_⟩
  intro n hn
  obtain ⟨q, hq, _⟩ := Relation.TransGen.head'_iff.mp hn
  simp [ChildOf, hparent] at hq

theorem slot?_createMountPoint (hroot : root < t.slots.size) (id : String) (m : NodeId) :
    (t.createMountPoint id).2.slot? m =
      if m = t.slots.size then
        some { kind := .element "div", attrs := OrderedMap.empty.insert "id" id,
               parent := some root }
      else if m = root then
        (t.slot? m).map fun s => { s with children := s.children ++ [t.slots.size] }
      else t.slot? m := by
  simp only [createMountPoint, alloc, slot?_update]
  simp only [slot?, Array.getElem?_push]
  by_cases hm : m = t.slots.size
  · have hne : m ≠ root := hm ▸ Nat.ne_of_gt hroot
    simp [hm, hm ▸ hne]
  · simp [hm]

/-- Against an element that was appended to the root, only the log and the attributes of the new
    node differ. -/
theorem links_createMountPoint (hroot : root < t.slots.size) (id : String) (k : NodeKind) :
    (∀ q, (t.createMountPoint id).2.children q =
        ((t.create k "").2.append root t.slots.size).children q) ∧
      ∀ x, (t.createMountPoint id).2.parent? x =
        ((t.create k "").2.append root t.slots.size).parent? x := by
  have hnone : t.slot? t.slots.size = none := slot?_eq_none_iff.mpr (Nat.le_refl _)
  have hparent : (t.create k "").2.parent? t.slots.size = none := by
    rw [parent?_create, parent?, hnone]
    rfl
  have hlt : t.slots.size < (t.create k "").2.slots.size := by simp
  have hplt : root < (t.create k "").2.slots.size := by
    rw [size_create]
    exact Nat.lt_succ_of_lt hroot
  have hne : t.slots.size ≠ root := Nat.ne_of_gt hroot
  constructor
  · intro q
    rw [children_append hparent hlt hplt hne, children_create, children, children,
      slot?_createMountPoint hroot]
    by_cases hq : q = t.slots.size
    · simp [hq, hne, hnone]
    · obtain ⟨s, hs⟩ := exists_slot_of_lt hroot
      by_cases hqr : q = root
      · simp [hqr, hne.symm, hs]
      · simp [hq, hqr]
  · intro x
    rw [parent?_append hparent hlt hplt hne, parent?_create, parent?, parent?,
      slot?_createMountPoint hroot]
    by_cases hx : x = t.slots.size
    · simp [hx]
    · by_cases hxr : x = root
      · cases hs : t.slot? root <;> simp [hxr, hne.symm, hs]
      · simp [hx, hxr]

/-- A mount point has the links of an element that was appended to the root. -/
theorem WellFormed.createMountPoint (wf : t.WellFormed) (hroot : root < t.slots.size)
    (id : String) : (t.createMountPoint id).2.WellFormed := by
  let k : NodeKind := .element "div"
  obtain ⟨hchildren, hparent⟩ := links_createMountPoint hroot id k
  have hnone : t.slot? t.slots.size = none := slot?_eq_none_iff.mpr (Nat.le_refl _)
  have hnew : (t.create k "").2.parent? t.slots.size = none := by
    rw [parent?_create, parent?, hnone]
    rfl
  have hapart : ¬ (t.create k "").2.Below root t.slots.size :=
    (sameOff_create t k "").not_below_fresh wf hroot (Nat.le_refl _)
  refine ((wf.create k "").append hnew (by simp) ?_ hapart).of_same_links hchildren hparent
  rw [size_create]
  exact Nat.lt_succ_of_lt hroot

end ReactiveView.LiveTree
