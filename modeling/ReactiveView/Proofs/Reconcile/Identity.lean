import ReactiveView.Proofs.Reconcile.Convergence

/-! # Which live nodes are reused

  Position and type decide: the live child in some place is reused exactly if
  its type is that of the virtual node in this place. Otherwise a new node takes
  its place, or the place is gone; and a child that loses its place loses its
  parent. Clearing, trimming, replacing and going on inside a reused element all
  follow this rule.

  * `Carried`, `CarriedAll`: the rule along the virtual nodes.
  * `carried_patch`, `carried_settle`: the reconciliation follows it.
  * `Level`, `Positional`: the rule at one level of reused elements.
  * `reconcile_positional`: it holds at every level.
-/

namespace ReactiveView

open LiveTree

/-! ## §1. No old node is adopted -/

theorem LiveTree.Redressed.noAdoption {n : NodeId} {t t' : LiveTree} (h : Redressed n t t') :
    NoAdoption t t' :=
  .of_parent?_eq (Nat.le_of_eq h.size_eq.symm) fun x _ => h.all_parent?_eq x

theorem Pruned.noAdoption {p : NodeId} {kept : List NodeId} {t t' : LiveTree}
    (h : Pruned p kept t t') : NoAdoption t t' :=
  ⟨h.sameOff.size_le, fun x q _ hq => h.childOf_of x q hq⟩

namespace Work

variable {w w' w₁ : Work} {n n' p : NodeId} {v : VNode} {vs : List VNode} {ns : List NodeId}

theorem Appended.noAdoption (h : Appended w p vs ns w') : NoAdoption w.tree w'.tree := by
  refine .of_parent?_eq h.sameOff.size_le ?_
  intro x hx
  by_cases hxp : x = p
  · obtain ⟨s, hs⟩ := exists_slot_of_lt hx
    have hs' := h.slot?_eq
    rw [← hxp, hs] at hs'
    rw [parent?_of_slot? hs, parent?_of_slot? hs']
  · exact h.sameOff.parent?_eq hx hxp

/-- A node that is replaced has no parent any more; the other old nodes keep theirs. -/
theorem Built.noAdoption_replace (h : Built w v n' w₁) (wf : w.tree.WellFormed)
    (hnp : w.tree.ChildOf n p) : NoAdoption w.tree (w₁.edit (·.replace p n n')).tree := by
  have hp : p < w.tree.slots.size := wf.parent_lt hnp
  have hnp₁ : w₁.tree.ChildOf n p := by
    rw [ChildOf, h.sameOff.parent?_eq (lt_of_childOf hnp) not_false]
    exact hnp
  have hn'p : n' ≠ p := Nat.ne_of_gt (Nat.lt_of_lt_of_le hp h.size_le)
  have hpar := parent?_replace hnp₁ h.parent?_eq_none h.lt_size (wf.ne_of_childOf hnp) hn'p
  refine ⟨by rw [tree_edit, size_replace]; exact h.sameOff.size_le, ?_⟩
  intro x q hx hxq
  rw [ChildOf, tree_edit, hpar, if_neg (Nat.ne_of_lt (Nat.lt_of_lt_of_le hx h.size_le))] at hxq
  split at hxq
  · cases hxq
  · exact h.sameOff.noAdoption.childOf_of x q hx hxq

end Work

/-! ## §2. The rule along the virtual nodes -/

/-- What a node keeps that is reused. Class, style, text and children may change. -/
structure Slot.KeptAs (s s' : Slot) : Prop where
  /-- The kind is as it was. -/
  kind_eq : s'.kind = s.kind
  /-- All attributes but the class are as they were. -/
  find?_eq : ∀ k, k ≠ "class" → s'.attrs.find? k = s.attrs.find? k
  /-- All handlers are as they were. -/
  listeners_eq : s'.listeners = s.listeners

namespace LiveTree

variable {t t₁ t' t₁' : LiveTree} {n n' p q : NodeId} {old new : List NodeId}

/-- A node is there before and afterwards, and it is kept. -/
def Kept (t t' : LiveTree) (n : NodeId) : Prop :=
  ∃ s s', t.slot? n = some s ∧ t'.slot? n = some s' ∧ s.KeptAs s'

mutual

/-- The node `n` is reused for a virtual node. -/
def Carried (t t' : LiveTree) (n : NodeId) : VNode → Prop
  | .text _ => Kept t t' n
  | .comment _ => Kept t t' n
  | .element _ children =>
    Kept t t' n ∧ CarriedAll t t' (t.children n) (t'.children n) children

/-- The children `old` gave way to `new`, one for each virtual node: the old one if it is of the
    same type, else a new one. -/
def CarriedAll (t t' : LiveTree) (old new : List NodeId) : List VNode → Prop
  | [] => new = []
  | v :: vs => ∃ n rest, new = n :: rest ∧ CarriedAll t t' old.tail rest vs ∧
      (old.head? = some n ∧ (t.kind n).sameType v.kind = true ∧ Carried t t' n v ∨
        (∀ m, old.head? = some m → ¬ (t.kind m).sameType v.kind = true) ∧ t.slots.size ≤ n)

end

theorem Kept.congr (h : Kept t₁ t₁' n) (hleft : t₁.slot? n = t.slot? n)
    (hright : t'.slot? n = t₁'.slot? n) : Kept t t' n := by
  obtain ⟨s, s', hs, hs', hkept⟩ := h
  exact ⟨s, s', hleft ▸ hs, hright ▸ hs', hkept⟩

theorem Carried.kept {v : VNode} (h : Carried t t' n v) : Kept t t' n := by
  match v with
  | .text _ => exact h
  | .comment _ => exact h
  | .element _ _ => exact h.1

mutual

/-- The rule depends on nothing but what was, and what is, at and below the node. -/
theorem Carried.congr {n : NodeId} {v : VNode} (wf : t.WellFormed) (wf' : t₁'.WellFormed)
    (hsize : t.slots.size ≤ t₁.slots.size)
    (hleft : ∀ m, t.Below m n → t₁.slot? m = t.slot? m)
    (hright : ∀ m, t₁'.Below m n → t'.slot? m = t₁'.slot? m) (h : Carried t₁ t₁' n v) :
    Carried t t' n v := by
  have hn := hleft n (Below.refl t n)
  have hn' := hright n (Below.refl t₁' n)
  match v with
  | .text _ => exact Kept.congr h hn hn'
  | .comment _ => exact Kept.congr h hn hn'
  | .element _ cs =>
    obtain ⟨hkept, hchildren⟩ := h
    have hold : t₁.children n = t.children n := by rw [children, children, hn]
    have hnew : t'.children n = t₁'.children n := by rw [children, children, hn']
    rw [hold] at hchildren
    refine ⟨hkept.congr hn hn', ?_⟩
    rw [hnew]
    refine CarriedAll.congr wf wf' hsize ?_ ?_ hchildren
    · intro c hc m hm
      exact hleft m (hm.trans (ChildOf.below ((wf.mem_children_iff c n).mp hc)))
    · intro c hc m hm
      exact hright m (hm.trans (ChildOf.below ((wf'.mem_children_iff c n).mp hc)))

/-- The same for the children of a node. -/
theorem CarriedAll.congr {old new : List NodeId} {vs : List VNode} (wf : t.WellFormed)
    (wf' : t₁'.WellFormed) (hsize : t.slots.size ≤ t₁.slots.size)
    (hleft : ∀ c ∈ old, ∀ m, t.Below m c → t₁.slot? m = t.slot? m)
    (hright : ∀ c ∈ new, ∀ m, t₁'.Below m c → t'.slot? m = t₁'.slot? m)
    (h : CarriedAll t₁ t₁' old new vs) : CarriedAll t t' old new vs := by
  match vs with
  | [] => exact h
  | v :: vs =>
    obtain ⟨n, rest, rfl, hrest, hfirst⟩ := h
    have hkind : ∀ m, old.head? = some m → t₁.kind m = t.kind m := by
      intro m hm
      rw [kind, kind, hleft m (List.mem_of_mem_head? hm) m (Below.refl t m)]
    refine ⟨n, rest, rfl, ?_, ?_⟩
    · exact CarriedAll.congr wf wf' hsize (fun c hc => hleft c (List.mem_of_mem_tail hc))
        (fun c hc => hright c (List.mem_cons_of_mem n hc)) hrest
    · rcases hfirst with ⟨hhead, hsame, hcarried⟩ | ⟨hother, hfresh⟩
      · refine .inl ⟨hhead, hkind n hhead ▸ hsame, ?_⟩
        exact Carried.congr wf wf' hsize (hleft n (List.mem_of_mem_head? hhead))
          (hright n List.mem_cons_self) hcarried
      · refine .inr ⟨?_, Nat.le_trans hsize hfresh⟩
        intro m hm
        rw [← hkind m hm]
        exact hother m hm

end

/-- Children beyond the virtual nodes do not matter. -/
theorem CarriedAll.of_take {old new : List NodeId} {vs : List VNode} {k : Nat}
    (hk : vs.length ≤ k) (h : CarriedAll t t' (old.take k) new vs) :
    CarriedAll t t' old new vs := by
  induction vs generalizing old new k with
  | nil => exact h
  | cons v vs ih =>
    obtain ⟨n, rest, rfl, hrest, hfirst⟩ := h
    obtain ⟨k, rfl⟩ : ∃ j, k = j + 1 := Nat.exists_eq_add_one.mpr (Nat.lt_of_lt_of_le (by simp) hk)
    have hhead : (old.take (k + 1)).head? = old.head? := by cases old <;> rfl
    have htail : (old.take (k + 1)).tail = old.tail.take k := by cases old <;> simp
    rw [hhead] at hfirst
    rw [htail] at hrest
    exact ⟨n, rest, rfl, ih (by simpa using hk) hrest, hfirst⟩

/-- Where no child was, all are new. -/
theorem carriedAll_of_fresh {ns : List NodeId} {vs : List VNode} (hlen : ns.length = vs.length)
    (hns : ∀ n ∈ ns, t.slots.size ≤ n) : CarriedAll t t' [] ns vs := by
  induction vs generalizing ns with
  | nil => exact List.length_eq_zero_iff.mp hlen
  | cons v vs ih =>
    obtain ⟨n, rest, rfl⟩ := List.exists_cons_of_length_eq_add_one hlen
    obtain ⟨hn, hrest⟩ := List.forall_mem_cons.mp hns
    exact ⟨n, rest, rfl, ih (by simpa using hlen) hrest, .inr ⟨by simp, hn⟩⟩

/-- The rule place by place. -/
theorem CarriedAll.getElem? {old new : List NodeId} {vs : List VNode}
    (h : CarriedAll t t' old new vs) :
    new.length = vs.length ∧ ∀ (i : Nat) n v, new[i]? = some n → vs[i]? = some v →
      old[i]? = some n ∧ (t.kind n).sameType v.kind = true ∧ Carried t t' n v ∨
        (∀ m, old[i]? = some m → ¬ (t.kind m).sameType v.kind = true) ∧ t.slots.size ≤ n := by
  induction vs generalizing old new with
  | nil =>
    obtain rfl : new = [] := h
    simp
  | cons v vs ih =>
    obtain ⟨n, rest, rfl, hrest, hfirst⟩ := h
    obtain ⟨hlen, hall⟩ := ih hrest
    refine ⟨by simp [hlen], ?_⟩
    intro i m u hm hu
    cases i with
    | zero =>
      obtain rfl : n = m := by simpa using hm
      obtain rfl : v = u := by simpa using hu
      rwa [List.head?_eq_getElem?] at hfirst
    | succ i =>
      have htail : old[i + 1]? = old.tail[i]? := List.getElem?_tail.symm
      rw [htail]
      exact hall i m u (by simpa using hm) (by simpa using hu)

end LiveTree

/-! ## §3. The reconciliation follows the rule -/

namespace Work

variable {w w' w₁ : Work} {n n' p : NodeId} {kept live : List NodeId} {v : VNode}
  {vs : List VNode} {ns : List NodeId}

/-- Trimming leaves what is below the children that are kept as it was. -/
theorem slot?_below_of_pruned {t t' : LiveTree} (h : Pruned p kept t t') (wf : t.WellFormed)
    {c m : NodeId} (hc : t.ChildOf c p) (hck : c ∈ kept) (hm : t.Below m c) :
    t'.slot? m = t.slot? m := by
  refine h.sameOff.slot?_eq m (hm.lt_left (lt_of_childOf hc)) ?_
  rintro (rfl | ⟨hmp, hmk⟩)
  · exact wf.not_below_child hc hm
  · have hne : m ≠ c := fun he => hmk (he ▸ hck)
    exact wf.not_below_sibling hmp hc hne (Below.refl t m) hm

/-- What follows a node that is placed is as it was. -/
theorem Placed.slot?_below_rest {rest : List NodeId} (h : Placed w p kept n rest v n' w₁)
    (wf : w.tree.WellFormed) (hc : w.tree.children p = kept ++ n :: rest) {c m : NodeId}
    (hcr : c ∈ rest) (hm : w.tree.Below m c) : w₁.tree.slot? m = w.tree.slot? m := by
  have hnp : w.tree.ChildOf n p := (wf.mem_children_iff n p).mp (by simp [hc])
  have hcp : w.tree.ChildOf c p := (wf.mem_children_iff c p).mp (by simp [hc, hcr])
  have hne : n ≠ c := by
    have hnd := hc ▸ wf.nodup_children p
    have hnr := (List.nodup_cons.mp (List.nodup_append.mp hnd).2.1).1
    exact fun he => hnr (he ▸ hcr)
  refine h.sameOff.slot?_eq m (hm.lt_left (lt_of_childOf hcp)) ?_
  rintro (rfl | hmn)
  · exact wf.not_below_child hcp hm
  · exact wf.not_below_sibling hnp hcp hne hmn hm

theorem kept_patchText (hn : n < w.tree.slots.size) (text : String) :
    Kept w.tree (w.patchText n text).tree n := by
  obtain ⟨s, hs⟩ := exists_slot_of_lt hn
  unfold patchText
  split
  · exact ⟨s, _, hs, slot?_setText hs text, rfl, fun _ _ => rfl, rfl⟩
  · exact ⟨s, s, hs, hs, rfl, fun _ _ => rfl, rfl⟩

theorem keptAs_adjust {s : Slot} (hs : w.tree.slot? n = some s) (e : Shell) :
    ∃ s', (w.adjust n e).tree.slot? n = some s' ∧ s.KeptAs s' := by
  obtain ⟨attrs, hclass, -, hattrs⟩ := slot?_patchClass hs e.className
  obtain ⟨style, hstyle, -⟩ := slot?_patchStyle hclass e.style
  exact ⟨_, hstyle, rfl, hattrs, rfl⟩

/-- An element is reused once its children follow the rule. -/
theorem carried_element {e : Shell} {children : List VNode} (wf : w.tree.WellFormed)
    (hn : n < w.tree.slots.size) (h : Shown (w.adjust n e) n children ns w')
    (hcarried : CarriedAll (w.adjust n e).tree w'.tree ((w.adjust n e).tree.children n) ns
      children) :
    Carried w.tree w'.tree n (.element e children) := by
  have hadj := w.redressed_adjust n e
  obtain ⟨s, hs⟩ := exists_slot_of_lt hn
  obtain ⟨s₁, hs₁, hkept⟩ := keptAs_adjust hs e
  have hs' := h.slot?_eq
  rw [hs₁, Option.map_some] at hs'
  refine ⟨⟨s, _, hs, hs', hkept.kind_eq, hkept.find?_eq, hkept.listeners_eq⟩, ?_⟩
  rw [hadj.children_eq] at hcarried
  rw [children_of_slot? hs']
  refine hcarried.congr wf h.wellFormed hadj.sameOff.size_le ?_ fun _ _ _ _ => rfl
  -- The node that is adjusted is not below its children.
  intro c hc m hm
  have hcn : w.tree.ChildOf c n := (wf.mem_children_iff c n).mp hc
  refine hadj.slot?_ne m ?_
  rintro rfl
  exact wf.not_below_child hcn hm

/-- Once the surplus is trimmed, the children that are left follow the rule, and so all do. -/
theorem Settled.carriedAll (h : Settled w₁ p [] ((w.tree.children p).take vs.length) vs ns w')
    (hpruned : Pruned p ((w.tree.children p).take vs.length) w.tree w₁.tree)
    (wf : w.tree.WellFormed)
    (hcarried : CarriedAll w₁.tree w'.tree ((w.tree.children p).take vs.length) ns vs) :
    CarriedAll w.tree w'.tree (w.tree.children p) ns vs := by
  refine .of_take (Nat.le_refl vs.length) ?_
  refine hcarried.congr wf h.wellFormed hpruned.sameOff.size_le ?_ fun _ _ _ _ => rfl
  intro c hc m hm
  have hcp : w.tree.ChildOf c p := (wf.mem_children_iff c p).mp (List.mem_of_mem_take hc)
  exact slot?_below_of_pruned hpruned wf hcp hc hm

mutual

/-- **A node of the same type** is reused. -/
theorem carried_patch (w : Work) (n : NodeId) (v : VNode) (wf : w.tree.WellFormed)
    (hn : n < w.tree.slots.size) (hk : (w.tree.kind n).sameType v.kind = true) :
    NoAdoption w.tree (patch .stored w n v).tree ∧
      Carried w.tree (patch .stored w n v).tree n v := by
  match v with
  | .text s =>
    rw [patch]
    exact ⟨(w.redressed_patchText n s).noAdoption, kept_patchText hn s⟩
  | .comment s =>
    rw [patch]
    exact ⟨(w.redressed_patchText n s).noAdoption, kept_patchText hn s⟩
  | .element e children =>
    have hadj := w.redressed_adjust n e
    have hlt : n < (w.adjust n e).tree.slots.size := hadj.sameOff.lt hn
    have hwf := hadj.wellFormed wf
    rw [patch_element]
    split
    · next hempty =>
      obtain rfl : children = [] := by simpa using hempty
      split
      · next hlive =>
        have hnil : (w.adjust n e).tree.children n = [] := by simpa using hlive
        have hshown := shown_of_pruned (hnil ▸ Pruned.refl hwf n)
        exact ⟨hadj.noAdoption, carried_element wf hn hshown rfl⟩
      · have hpruned := pruned_clear hwf hlt
        exact ⟨hadj.noAdoption.trans hpruned.noAdoption,
          carried_element wf hn (shown_of_pruned hpruned) rfl⟩
    · have hpruned := pruned_trim hwf hlt children.length
      obtain ⟨hadopt, ns, hns, hcarried⟩ := carried_settle
        ((w.adjust n e).trim n children.length) n []
        (((w.adjust n e).tree.children n).take children.length) children hpruned.wellFormed
        (hpruned.sameOff.lt hlt) (hpruned.children_eq hlt) (List.length_take_le _ _)
      have hshown := hns.shown hpruned hwf fun m hm => List.mem_of_mem_take hm
      exact ⟨(hadj.noAdoption.trans hpruned.noAdoption).trans hadopt,
        carried_element wf hn hshown (hns.carriedAll hpruned hwf hcarried)⟩

/-- **The children of a node** from some position on follow the rule. -/
theorem carried_settle (w : Work) (p : NodeId) (kept live : List NodeId) (vs : List VNode)
    (wf : w.tree.WellFormed) (hp : p < w.tree.slots.size)
    (hc : w.tree.children p = kept ++ live) (hlen : live.length ≤ vs.length) :
    NoAdoption w.tree (settle .stored w p live vs).tree ∧
      ∃ ns, Settled w p kept live vs ns (settle .stored w p live vs) ∧
        CarriedAll w.tree (settle .stored w p live vs).tree live ns vs := by
  match vs, live with
  | [], [] =>
    rw [settle_nil, appendAll]
    exact ⟨.refl _, [], Settled.nil wf (by simpa using hc), rfl⟩
  | [], _ :: _ => simp at hlen
  | v :: vs, [] =>
    rw [settle_nil]
    obtain ⟨ns, hns⟩ := appendAll_spec w p (v :: vs) wf hp
    exact ⟨hns.noAdoption, ns, hns.settled (by simpa using hc),
      carriedAll_of_fresh hns.length_eq hns.size_le⟩
  | v :: vs, n :: live =>
    have hnp : w.tree.ChildOf n p := (wf.mem_children_iff n p).mp (by simp [hc])
    have hn : n < w.tree.slots.size := lt_of_childOf hnp
    rw [settle_cons]
    generalize hw₁ : (if (w.tree.kind n).sameType v.kind then patch .stored w n v
      else (w.build v).2.edit (·.replace p n (w.build v).1)) = w₁
    -- The node in this place is reused or replaced; the ones behind it follow after it.
    have hstep : ∃ n', Placed w p kept n live v n' w₁ ∧ NoAdoption w.tree w₁.tree ∧
        (n' = n ∧ (w.tree.kind n).sameType v.kind = true ∧ Carried w.tree w₁.tree n v ∨
          ¬ (w.tree.kind n).sameType v.kind = true ∧ w.tree.slots.size ≤ n') := by
      split at hw₁
      · next hk =>
        subst hw₁
        obtain ⟨hadopt, hcarried⟩ := carried_patch w n v wf hn hk
        exact ⟨n, (patch_spec w n v wf hn hk).placed wf hc, hadopt, .inl ⟨rfl, hk, hcarried⟩⟩
      · next hk =>
        subst hw₁
        have hbuilt := build_spec w v wf
        exact ⟨_, hbuilt.placed wf hc, hbuilt.noAdoption_replace wf hnp,
          .inr ⟨hk, hbuilt.size_le⟩⟩
    obtain ⟨n', hplaced, hadopt, hfirst⟩ := hstep
    obtain ⟨hadopt', ns, hns, hcarried⟩ := carried_settle _ p (kept ++ [n']) live vs
      hplaced.wellFormed (hplaced.sameOff.lt hp)
      (by simpa using children_eq_of_slot?_eq hp hplaced.slot?_eq) (by simpa using hlen)
    refine ⟨hadopt.trans hadopt', n' :: ns, hplaced.settled hns hp, n', ns, rfl, ?_, ?_⟩
    · exact hcarried.congr wf hns.wellFormed hplaced.sameOff.size_le
        (fun c hcl m hm => hplaced.slot?_below_rest wf hc hcl hm) fun _ _ _ _ => rfl
    · rcases hfirst with ⟨rfl, hk, hfirst⟩ | ⟨hk, hfresh⟩
      · exact .inl ⟨rfl, hk, hfirst.congr wf hplaced.wellFormed (Nat.le_refl _) (fun _ _ => rfl)
          fun m hm => hplaced.slot?_below hns hp hm⟩
      · exact .inr ⟨by simpa using hk, hfresh⟩

end

end Work

/-! ## §4. Level by level -/

variable {t t' : LiveTree} {m n p q : NodeId} {vs us : List VNode}

namespace LiveTree

/-- On the way down from `p` along elements that are reused: `us` are the virtual nodes for the
    children of `q` if `vs` are those for the children of `p`. -/
inductive Level (t : LiveTree) (p : NodeId) (vs : List VNode) : NodeId → List VNode → Prop where
  /-- The target itself. -/
  | target : Level t p vs p vs
  /-- A child in the place of an element of the same type. -/
  | inside {q n : NodeId} {us children : List VNode} {e : Shell} {i : Nat}
      (level : Level t p vs q us) (child : (t.children q)[i]? = some n)
      (element : us[i]? = some (.element e children))
      (sameType : (t.kind n).sameType (.element e.tag) = true) : Level t p vs n children

/-- The children of `q` are reused by position and type for virtual nodes `us`. -/
structure Positional (t t' : LiveTree) (q : NodeId) (us : List VNode) : Prop where
  /-- There is one child for each virtual node. -/
  length_eq : (t'.children q).length = us.length
  /-- In a place that there was and is, the same node stands exactly if the types are the same. -/
  same_iff : ∀ (i : Nat) n v, (t.children q)[i]? = some n → us[i]? = some v →
    ((t'.children q)[i]? = some n ↔ (t.kind n).sameType v.kind = true)
  /-- A node that stands where it stood is kept. -/
  kept : ∀ (i : Nat) n, (t.children q)[i]? = some n → (t'.children q)[i]? = some n → Kept t t' n
  /-- Any other node is new, and so is everything below it. -/
  made : ∀ (i : Nat) n, (t'.children q)[i]? = some n → (t.children q)[i]? ≠ some n →
    ∀ m, t'.Below m n → t.exists? m = false ∧ t'.exists? m = true
  /-- A node that does not stand where it stood has no parent. -/
  released : ∀ (i : Nat) n, (t.children q)[i]? = some n → (t'.children q)[i]? ≠ some n →
    t'.parent? n = none

/-- **One level**: children that follow the rule are reused by position and type. -/
theorem CarriedAll.positional (h : CarriedAll t t' (t.children q) (t'.children q) us)
    (wf : t.WellFormed) (wf' : t'.WellFormed) (hadopt : NoAdoption t t') :
    Positional t t' q us := by
  obtain ⟨hlen, hall⟩ := h.getElem?
  have hold : ∀ {i : Nat} {n}, (t.children q)[i]? = some n → n < t.slots.size :=
    fun hn => wf.child_lt (List.mem_of_getElem? hn)
  have hvirtual : ∀ {i : Nat} {n}, (t'.children q)[i]? = some n → ∃ v, us[i]? = some v := by
    intro i n hn
    obtain ⟨hi, -⟩ := List.getElem?_eq_some_iff.mp hn
    exact ⟨us[i], List.getElem?_eq_getElem (hlen ▸ hi)⟩
  -- A new node stands in a place, or the old one of the same type.
  have hreused : ∀ {i : Nat} {n v}, (t'.children q)[i]? = some n → us[i]? = some v →
      n < t.slots.size → (t.children q)[i]? = some n ∧ (t.kind n).sameType v.kind = true ∧
        Carried t t' n v := by
    intro i n v hn hv hlt
    exact (hall i n v hn hv).resolve_right fun hfresh => Nat.not_lt_of_le hfresh.2 hlt
  refine ⟨hlen, ?_, ?_, ?_, ?_⟩
  · intro i n v hn hv
    constructor
    · intro hn'
      exact (hreused hn' hv (hold hn)).2.1
    · intro hk
      obtain ⟨hi, -⟩ := List.getElem?_eq_some_iff.mp hv
      have hn' := List.getElem?_eq_getElem (l := t'.children q) (hlen ▸ hi)
      rcases hall i _ v hn' hv with ⟨hsame, -, -⟩ | ⟨hother, -⟩
      · rw [hn', ← hsame, hn]
      · exact absurd hk (hother n hn)
  · intro i n hn hn'
    obtain ⟨v, hv⟩ := hvirtual hn'
    exact (hreused hn' hv (hold hn)).2.2.kept
  · intro i n hn' hne m hm
    obtain ⟨v, hv⟩ := hvirtual hn'
    obtain ⟨-, hfresh⟩ := (hall i n v hn' hv).resolve_left fun hsame => hne hsame.1
    have hm' : m < t'.slots.size := hm.lt_left (wf'.child_lt (List.mem_of_getElem? hn'))
    refine ⟨?_, exists?_iff.mpr hm'⟩
    rw [← Bool.not_eq_true, exists?_iff]
    exact fun hlt => hadopt.not_below_fresh wf hlt hfresh hm
  · intro i n hn hne
    cases hparent : t'.parent? n with
    | none => rfl
    | some r =>
      -- It would have its old parent and stand in some place, which can only be its old one.
      have hnq : t.ChildOf n q := (wf.mem_children_iff n q).mp (List.mem_of_getElem? hn)
      obtain rfl := childOf_rightUnique t (hadopt.childOf_of n r (hold hn) hparent) hnq
      obtain ⟨j, hj⟩ := List.getElem?_of_mem ((wf'.mem_children_iff n r).mpr hparent)
      obtain ⟨v, hv⟩ := hvirtual hj
      have hsame := (hreused hj hv (hold hn)).1
      obtain ⟨hi, -⟩ := List.getElem?_eq_some_iff.mp hn
      obtain rfl := (List.getElem?_inj hi (wf.nodup_children r)).mp (hn.trans hsame.symm)
      exact absurd hj hne

theorem CarriedAll.of_level (h : CarriedAll t t' (t.children p) (t'.children p) vs)
    (hlevel : t.Level p vs q us) : CarriedAll t t' (t.children q) (t'.children q) us := by
  induction hlevel with
  | target => exact h
  | @inside q n us children e i _ child element sameType ih =>
    obtain ⟨hlen, hall⟩ := ih.getElem?
    obtain ⟨hi, -⟩ := List.getElem?_eq_some_iff.mp element
    have hn' := List.getElem?_eq_getElem (l := t'.children q) (hlen ▸ hi)
    rcases hall i _ _ hn' element with ⟨hsame, -, hcarried⟩ | ⟨hother, -⟩
    · obtain rfl : n = (t'.children q)[i] := Option.some.inj (child.symm.trans hsame)
      exact hcarried.2
    · exact absurd sameType (hother n child)

end LiveTree

/-- **Live nodes are reused exactly by position and type**, in the target and at every level inside
    of elements that are reused. -/
theorem reconcile_positional (wf : t.WellFormed) (hp : t.exists? p = true) (vs : List VNode) :
    ∀ q us, t.Level p vs q us → Positional t (t.reconcile .stored p vs).1 q us := by
  intro q us hlevel
  have hlt : p < t.slots.size := exists?_iff.mp hp
  have hpruned := Work.pruned_trim (w := ⟨t, 0⟩) wf hlt vs.length
  obtain ⟨hadopt, ns, hns, hcarried⟩ := Work.carried_settle _ p []
    ((t.children p).take vs.length) vs hpruned.wellFormed (hpruned.sameOff.lt hlt)
    (hpruned.children_eq hlt) (List.length_take_le _ _)
  have hshown := hns.shown hpruned wf fun m hm => List.mem_of_mem_take hm
  have hall := hns.carriedAll hpruned wf hcarried
  rw [← children_reconcile hp hshown] at hall
  exact (hall.of_level hlevel).positional wf (wellFormed_reconcile wf hp vs)
    (hpruned.noAdoption.trans hadopt)

/-- Under the root there are a paragraph around a text, and a comment. The paragraph is reused with
    a tag in another case, and so is its text, behind which a line break is made. -/
theorem reconcile_positional_paragraph :
    let t := (LiveTree.initial.reconcile .stored 0
      [.element { tag := "p" } [.text "a"], .comment "b"]).1
    let inner : List VNode := [.text "c", .element { tag := "br" } []]
    let vs : List VNode := [.element { tag := "P" } inner, .text "d"]
    (t.WellFormed ∧ t.Level 0 vs 1 inner) ∧ Positional t (t.reconcile .stored 0 vs).1 1 inner ∧
      (t.reconcile .stored 0 vs).1.children 0 = [1, 5] ∧
      (t.reconcile .stored 0 vs).1.children 1 = [2, 4] := by
  intro t inner vs
  have wf : t.WellFormed := wellFormed_reconcile wellFormed_initial rfl _
  have hp : t.exists? 0 = true := exists?_reconcile wellFormed_initial rfl _
  have hlevel : t.Level 0 vs 1 inner :=
    .inside (i := 0) (e := { tag := "P" }) .target (by decide) rfl (by decide)
  exact ⟨⟨wf, hlevel⟩, reconcile_positional wf hp vs 1 inner hlevel, by decide, by decide⟩

end ReactiveView
