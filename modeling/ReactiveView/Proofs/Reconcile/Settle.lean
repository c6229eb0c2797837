import ReactiveView.Proofs.Reconcile.Build

/-! # Settling the children of a node

  What `Work.patch` and `Work.settle` leave behind, along their recursion:

  * removing children leaves a list of kept ones (`Pruned`);
  * a kept node is brought in line, and only what was below it is touched
    (`Patched`);
  * settling one position puts a matching node there (`Placed`);
  * what is below two children of a node is apart, so a position that is settled
    stays settled (`Placed.settled`).

  `settleAll_spec` puts this together for all children of a node.
-/

namespace ReactiveView

open LiveTree

/-! ## §1. Removing children -/

/-- `p` keeps `kept` of its children; the others have no parent any more. -/
structure Pruned (p : NodeId) (kept : List NodeId) (t t' : LiveTree) : Prop where
  /-- The tree stays well formed. -/
  wellFormed : t'.WellFormed
  /-- `p` lists those that are kept and is otherwise as it was. -/
  slot?_eq : t'.slot? p = (t.slot? p).map fun s => { s with children := kept }
  /-- No node gets a new parent. -/
  childOf_of : ∀ x q, t'.ChildOf x q → t.ChildOf x q
  /-- The children that are not kept have no parent. -/
  parent?_eq_none : ∀ c ∈ t.children p, c ∉ kept → t'.parent? c = none
  /-- All other nodes are as they were. -/
  sameOff : SameOff (fun m => m = p ∨ (t.ChildOf m p ∧ m ∉ kept)) t t'

namespace Pruned

variable {t t' t'' : LiveTree} {p : NodeId} {kept kept' : List NodeId}

theorem refl (wf : t.WellFormed) (p : NodeId) : Pruned p (t.children p) t t where
  wellFormed := wf
  slot?_eq := by
    cases hs : t.slot? p with
    | none => rfl
    | some s => simp [children_of_slot? hs]
  childOf_of := fun _ _ h => h
  parent?_eq_none := fun _ hc hn => absurd hc hn
  sameOff := SameOff.refl _ _

theorem children_eq (h : Pruned p kept t t') (hp : p < t.slots.size) : t'.children p = kept := by
  obtain ⟨s, hs⟩ := exists_slot_of_lt hp
  exact children_of_slot? (by rw [h.slot?_eq, hs]; rfl)

theorem below_of (h : Pruned p kept t t') {m n : NodeId} (hb : t'.Below m n) : t.Below m n :=
  Relation.ReflTransGen.mono h.childOf_of m n hb

/-- Removing one more child. -/
theorem remove {c : NodeId} (h : Pruned p kept t t') (hp : p < t.slots.size) (hc : c ∈ kept) :
    Pruned p (kept.filter (· != c)) t (t'.remove p c) := by
  have hcp : t'.ChildOf c p := by
    rw [ChildOf, ← h.wellFormed.mem_children_iff, h.children_eq hp]
    exact hc
  -- A child that is still kept has `p` for its parent, so the removal applies.
  have hne := h.wellFormed.ne_of_childOf hcp
  have hslot := slot?_remove hcp hne
  have hpar := parent?_remove hcp hne
  refine ⟨h.wellFormed.remove hcp, ?_, ?_, ?_, ?_⟩
  · rw [hslot, if_neg hne.symm, if_pos rfl, h.slot?_eq, Option.map_map]
    rfl
  · intro x q hxq
    rw [ChildOf, hpar] at hxq
    split at hxq
    · simp at hxq
    · exact h.childOf_of x q hxq
  · intro x hx hxk
    rw [hpar]
    by_cases hxc : x = c
    · rw [if_pos hxc]
    · rw [if_neg hxc]
      exact h.parent?_eq_none x hx fun hk => hxk (by simp [hk, hxc])
  · refine ⟨by rw [size_remove]; exact h.sameOff.size_le, ?_⟩
    intro m hm hR
    have hmp : m ≠ p := fun e => hR (Or.inl e)
    have hmc : m ≠ c := by
      intro he
      subst he
      exact hR (Or.inr ⟨h.childOf_of m p hcp, by simp⟩)
    rw [hslot, if_neg hmc, if_neg hmp]
    refine h.sameOff.slot?_eq m hm ?_
    intro hR
    rcases hR with e | ⟨hmt, hmk⟩
    · exact hmp e
    · exact hR (Or.inr ⟨hmt, by simp [hmk]⟩)

/-- Removing several children, one after the other. -/
theorem removeAll (h : Pruned p kept t t') (hp : p < t.slots.size) (ns : List NodeId)
    (hns : ∀ n ∈ ns, n ∈ kept) (hnd : ns.Nodup) :
    Pruned p (kept.filter (· ∉ ns)) t (ns.foldl (fun t c => t.remove p c) t') := by
  induction ns generalizing kept t' with
  | nil => simpa using h
  | cons n ns ih =>
    obtain ⟨hn, hnd⟩ := List.nodup_cons.mp hnd
    have hstep := h.remove hp (hns n (by simp))
    -- The others are still kept, because no child is listed twice.
    have hns' : ∀ m ∈ ns, m ∈ kept.filter (· != n) := by
      intro m hm
      have hmn : m ≠ n := fun e => hn (e ▸ hm)
      simp [hns m (by simp [hm]), hmn]
    have hall := ih hstep hns' hnd
    have hfilter : (kept.filter (· != n)).filter (· ∉ ns) = kept.filter (· ∉ n :: ns) := by
      rw [List.filter_filter]
      refine List.filter_congr ?_
      intro m _
      by_cases hmn : m = n <;> simp [hmn]
    rw [hfilter] at hall
    exact hall

end Pruned

/-- A list without repetitions loses exactly its end when the end is filtered out. -/
theorem filter_not_mem_end {l l' : List NodeId} (h : (l ++ l').Nodup) :
    (l ++ l').filter (· ∉ l'.reverse) = l := by
  have hl : l.filter (· ∉ l'.reverse) = l := by
    refine List.filter_eq_self.mpr ?_
    intro a ha
    have : a ∉ l' := fun ha' => (List.nodup_append.mp h).2.2 a ha a ha' rfl
    simpa using this
  have hl' : l'.filter (· ∉ l'.reverse) = [] := by
    simp [List.filter_eq_nil_iff]
  rw [List.filter_append, hl, hl', List.append_nil]

namespace Work

variable {w : Work} {n p : NodeId}

/-- A run of edits does to the tree what the operations do to it. -/
theorem tree_foldl_edit {α : Type} (f : LiveTree → α → LiveTree) (xs : List α) (w : Work) :
    (xs.foldl (fun w x => w.edit (f · x)) w).tree = xs.foldl f w.tree := by
  induction xs generalizing w with
  | nil => rfl
  | cons x xs ih => rw [List.foldl_cons, ih]; rfl

theorem pruned_trim (wf : w.tree.WellFormed) (hp : p < w.tree.slots.size) (keep : Nat) :
    Pruned p ((w.tree.children p).take keep) w.tree (w.trim p keep).tree := by
  have hnd := wf.nodup_children p
  have hall := (Pruned.refl wf p).removeAll hp ((w.tree.children p).drop keep).reverse
    (fun n hn => List.mem_of_mem_drop (List.mem_reverse.mp hn))
    (List.nodup_reverse.mpr (hnd.sublist (List.drop_sublist _ _)))
  have htake : (w.tree.children p).filter (· ∉ ((w.tree.children p).drop keep).reverse) =
      (w.tree.children p).take keep := by
    have := filter_not_mem_end ((List.take_append_drop keep (w.tree.children p)).symm ▸ hnd)
    rwa [List.take_append_drop] at this
  rw [htake] at hall
  rw [trim, tree_foldl_edit (fun t c => t.remove p c)]
  exact hall

theorem pruned_clear (wf : w.tree.WellFormed) (hn : n < w.tree.slots.size) :
    Pruned n [] w.tree (w.clear n).tree := by
  have hall := (Pruned.refl wf n).removeAll hn (w.tree.children n) (fun m hm => hm)
    (wf.nodup_children n)
  have hnone : (w.tree.children n).filter (· ∉ w.tree.children n) = [] := by
    simp [List.filter_eq_nil_iff]
  rw [hnone] at hall
  exact hall

/-! ## §2. Adjusting a kept element -/

variable {s : Slot}

theorem redressed_patchClass (w : Work) (n : NodeId) (c : Option String) :
    Redressed n w.tree (w.patchClass n c).tree := by
  unfold patchClass
  split
  · exact Redressed.refl n w.tree
  · cases c with
    | some c => exact redressed_setAttribute w.tree n "class" c
    | none => exact redressed_removeAttribute w.tree n "class"

theorem patchStyle_stored (w : Work) (n : NodeId) (style : Style) :
    w.patchStyle .stored n style =
      if (w.tree.style n).same style then w
      else (w.clearStyles n ((w.tree.style n).surplus style)).setStyles n
        ((w.tree.style n).missing style) := rfl

theorem redressed_patchStyle (w : Work) (n : NodeId) (style : Style) :
    Redressed n w.tree (w.patchStyle .stored n style).tree := by
  rw [patchStyle_stored]
  split
  · exact Redressed.refl n w.tree
  · exact (redressed_clearStyles w n _).trans (redressed_setStyles _ n _)

/-- Afterwards the class is the one asked for, and all other attributes are as they were. -/
theorem slot?_patchClass (h : w.tree.slot? n = some s) (c : Option String) :
    ∃ attrs, (w.patchClass n c).tree.slot? n = some { s with attrs := attrs } ∧
      attrs.find? "class" = c ∧ ∀ k, k ≠ "class" → attrs.find? k = s.attrs.find? k := by
  unfold patchClass
  split
  · next heq =>
    refine ⟨s.attrs, h, ?_, fun _ _ => rfl⟩
    simpa [attribute?, h] using heq
  · cases c with
    | some c =>
      refine ⟨_, slot?_setAttribute h (by decide) c, by simp, fun k hk => ?_⟩
      exact OrderedMap.find?_insert_ne _ _ hk
    | none =>
      refine ⟨_, slot?_removeAttribute h (by decide), by simp, fun k hk => ?_⟩
      exact OrderedMap.find?_erase_ne _ hk

/-- Afterwards the style agrees with the one asked for. -/
theorem slot?_patchStyle (h : w.tree.slot? n = some s) (style : Style) :
    ∃ st, (w.patchStyle .stored n style).tree.slot? n = some { s with style := st } ∧
      st.Agree style := by
  have hlive : w.tree.style n = s.style := by simp [LiveTree.style, h]
  rw [patchStyle_stored, hlive]
  split
  · next hsame => exact ⟨s.style, h, (OrderedMap.same_iff_agree _ _).mp hsame⟩
  · have hlast := slot?_setStyles (s.style.missing style)
      (slot?_clearStyles (s.style.surplus style) h)
    exact ⟨_, hlast, OrderedMap.agree_of_erase_insert s.style style⟩

/-- Adjusts class and style. -/
def adjust (w : Work) (n : NodeId) (e : Shell) : Work :=
  (w.patchClass n e.className).patchStyle .stored n e.style

theorem redressed_adjust (w : Work) (n : NodeId) (e : Shell) :
    Redressed n w.tree (w.adjust n e).tree :=
  (redressed_patchClass w n e.className).trans (redressed_patchStyle _ n e.style)

theorem adjust_reads (hn : n < w.tree.slots.size) (e : Shell) :
    (w.adjust n e).tree.attribute? n "class" = e.className ∧
      ((w.adjust n e).tree.style n).Agree e.style := by
  obtain ⟨s, hs⟩ := exists_slot_of_lt hn
  obtain ⟨attrs, hs₁, hclass, _⟩ := slot?_patchClass hs e.className
  obtain ⟨st, hs₂, hagree⟩ := slot?_patchStyle hs₁ e.style
  constructor
  · simpa [adjust, attribute?, hs₂] using hclass
  · simpa [adjust, LiveTree.style, hs₂] using hagree

theorem redressed_patchText (w : Work) (n : NodeId) (text : String) :
    Redressed n w.tree (w.patchText n text).tree := by
  unfold patchText
  split
  · exact redressed_setText w.tree n text
  · exact Redressed.refl n w.tree

/-- Afterwards a leaf has the text asked for, unless that is empty. -/
theorem textContent?_patchText (hn : n < w.tree.slots.size)
    (hk : ∀ tag, w.tree.kind n ≠ .element tag) (text : String) :
    text = "" ∨ (w.patchText n text).tree.textContent? n = some text := by
  obtain ⟨s, hs⟩ := exists_slot_of_lt hn
  have hkind : ∀ tag, s.kind ≠ .element tag := by simpa [kind, hs] using hk
  unfold patchText
  split
  · refine Or.inr ?_
    rw [tree_edit, textContent?, slot?_setText hs]
    cases hsk : s.kind with
    | element tag => exact absurd hsk (hkind tag)
    | text => rfl
    | comment => rfl
  · next hcond =>
    simp only [Bool.and_eq_true, Bool.not_eq_true', bne_iff_ne, ne_eq, not_and,
      Decidable.not_not, String.isEmpty_eq_false_iff] at hcond
    by_cases htext : text = ""
    · exact Or.inl htext
    · exact Or.inr (hcond htext)

/-! ## §3. One node, one position, a list of children -/

/-- The kept node `n` was brought in line with `v`. -/
structure Patched (w : Work) (n : NodeId) (v : VNode) (w' : Work) : Prop where
  /-- The tree stays well formed. -/
  wellFormed : w'.tree.WellFormed
  /-- Only what was at or below the node is touched. -/
  sameOff : SameOff (w.tree.Below · n) w.tree w'.tree
  /-- The node matches. -/
  matched : v.Unreserved → w'.tree.Matches n v

/-- In the place of `n`, behind `kept` and in front of `rest`, there is a node `n'` for `v`. -/
structure Placed (w : Work) (p : NodeId) (kept : List NodeId) (n : NodeId) (rest : List NodeId)
    (v : VNode) (n' : NodeId) (w' : Work) : Prop where
  /-- The tree stays well formed. -/
  wellFormed : w'.tree.WellFormed
  /-- The parent lists the new node in that place and is otherwise as it was. -/
  slot?_eq : w'.tree.slot? p =
    (w.tree.slot? p).map fun s => { s with children := kept ++ n' :: rest }
  /-- No other old node came to be below the children that follow. -/
  below_of : ∀ m, m < w.tree.slots.size → ∀ c ∈ rest, w'.tree.Below m c →
    w.tree.Below m n ∨ w.tree.Below m c
  /-- Only the parent and what was at or below `n` are touched. -/
  sameOff : SameOff (fun m => m = p ∨ w.tree.Below m n) w.tree w'.tree
  /-- The node matches. -/
  matched : v.Unreserved → w'.tree.Matches n' v

/-- Behind `kept`, the children `live` of `p` gave way to nodes `ns` for a list of virtual ones. -/
structure Settled (w : Work) (p : NodeId) (kept live : List NodeId) (vs : List VNode)
    (ns : List NodeId) (w' : Work) : Prop where
  /-- The tree stays well formed. -/
  wellFormed : w'.tree.WellFormed
  /-- The parent lists the new nodes and is otherwise as it was. -/
  slot?_eq : w'.tree.slot? p =
    (w.tree.slot? p).map fun s => { s with children := kept ++ ns }
  /-- There is one for each virtual node. -/
  length_eq : ns.length = vs.length
  /-- Only the parent and what was at or below `live` are touched. -/
  sameOff : SameOff (fun m => m = p ∨ ∃ n ∈ live, w.tree.Below m n) w.tree w'.tree
  /-- They match. -/
  matched : VNode.UnreservedAll vs → w'.tree.MatchesAll ns vs

variable {w₁ w₂ w' : Work} {v : VNode} {vs : List VNode} {n' : NodeId}
  {kept live rest ns : List NodeId}

theorem children_eq_of_slot?_eq {t t' : LiveTree} (hp : p < t.slots.size)
    (h : t'.slot? p = (t.slot? p).map fun s => { s with children := ns }) :
    t'.children p = ns := by
  obtain ⟨s, hs⟩ := exists_slot_of_lt hp
  rw [hs] at h
  exact children_of_slot? h

/-- A node that was patched is in its place. -/
theorem Patched.placed (h : Patched w n v w') (wf : w.tree.WellFormed)
    (hc : w.tree.children p = kept ++ n :: rest) : Placed w p kept n rest v n w' := by
  have hnp : w.tree.ChildOf n p := (wf.mem_children_iff n p).mp (by simp [hc])
  have hpn : ¬ w.tree.Below p n := wf.not_below_child hnp
  refine ⟨h.wellFormed, ?_, ?_, ?_, h.matched⟩
  · -- The parent is not below its child, so it was not touched.
    rw [h.sameOff.slot?_eq p (wf.parent_lt hnp) hpn]
    cases hs : w.tree.slot? p with
    | none => rfl
    | some s =>
      rw [children_of_slot? hs] at hc
      simp [← hc]
  · intro m hm c _ hb
    by_cases hmn : w.tree.Below m n
    · exact Or.inl hmn
    · exact Or.inr (h.sameOff.below_of_not_below wf hm hmn hb)
  · exact h.sameOff.mono fun m _ hm => Or.inr hm

/-- A node that was built replaces the one in its place. -/
theorem Built.placed (h : Built w v n' w₁) (wf : w.tree.WellFormed)
    (hc : w.tree.children p = kept ++ n :: rest) :
    Placed w p kept n rest v n' (w₁.edit (·.replace p n n')) := by
  have hnp : w.tree.ChildOf n p := (wf.mem_children_iff n p).mp (by simp [hc])
  have hp : p < w.tree.slots.size := wf.parent_lt hnp
  have hn : n < w.tree.slots.size := lt_of_childOf hnp
  have hnp₁ : w₁.tree.ChildOf n p := by
    rw [ChildOf, h.sameOff.parent?_eq hn not_false]
    exact hnp
  have hne : n ≠ p := wf.ne_of_childOf hnp
  have hn'p : n' ≠ p := Nat.ne_of_gt (Nat.lt_of_lt_of_le hp h.size_le)
  have hpn' : ¬ w₁.tree.Below p n' := h.sameOff.not_below_fresh wf hp h.size_le
  -- `n` is still a child of `p`, since building leaves old nodes alone.
  have hslot := slot?_replace hnp₁ h.parent?_eq_none h.lt_size hne hn'p
  have hpar := parent?_replace hnp₁ h.parent?_eq_none h.lt_size hne hn'p
  refine ⟨h.wellFormed.replace hnp₁ h.parent?_eq_none h.lt_size hpn', ?_, ?_, ?_, ?_⟩
  · have hreplace : (kept ++ n :: rest).replace n n' = kept ++ n' :: rest :=
      replace_append_cons (hc ▸ wf.nodup_children p)
    rw [tree_edit, hslot, if_neg hn'p.symm, if_neg hne.symm, if_pos rfl,
      h.sameOff.slot?_eq p hp not_false]
    cases hs : w.tree.slot? p with
    | none => rfl
    | some s =>
      rw [children_of_slot? hs] at hc
      simp [hc, hreplace]
  · intro m hm c _ hb
    -- Climbing from an old node meets no new link.
    refine Or.inr (Below.of_agree (P := (· < w.tree.slots.size)) ?_ hm hb)
    intro x q hx hxq
    have hxn' : x ≠ n' := Nat.ne_of_lt (Nat.lt_of_lt_of_le hx h.size_le)
    rw [ChildOf, tree_edit, hpar, if_neg hxn'] at hxq
    split at hxq
    · simp at hxq
    · rw [h.sameOff.parent?_eq hx not_false] at hxq
      exact ⟨hxq, wf.parent_lt hxq⟩
  · refine ⟨by rw [tree_edit, size_replace]; exact h.sameOff.size_le, ?_⟩
    intro m hm hR
    have hmp : m ≠ p := fun e => hR (Or.inl e)
    have hmn : m ≠ n := fun e => hR (Or.inr (e ▸ Below.refl w.tree m))
    have hmn' : m ≠ n' := Nat.ne_of_lt (Nat.lt_of_lt_of_le hm h.size_le)
    rw [tree_edit, hslot, if_neg hmn', if_neg hmn, if_neg hmp, h.sameOff.slot?_eq m hm not_false]
  · intro hv
    refine Matches.congr h.wellFormed ?_ (h.matched hv)
    intro m hm
    have hmp : m ≠ p := by
      intro he
      subst he
      exact hpn' hm
    exact face?_replace hnp₁ h.parent?_eq_none h.lt_size hne hn'p hmp

theorem Settled.nil (wf : w.tree.WellFormed) (hc : w.tree.children p = kept) :
    Settled w p kept [] [] [] w where
  wellFormed := wf
  slot?_eq := by
    cases hs : w.tree.slot? p with
    | none => rfl
    | some s => simp [← hc, children_of_slot? hs]
  length_eq := rfl
  sameOff := SameOff.refl _ _
  matched := fun _ => matchesAll_nil

/-- Where no live child is left, settling is appending. -/
theorem Appended.settled (h : Appended w p vs ns w') (hc : w.tree.children p = kept) :
    Settled w p kept [] vs ns w' where
  wellFormed := h.wellFormed
  slot?_eq := by
    rw [h.slot?_eq]
    cases hs : w.tree.slot? p with
    | none => rfl
    | some s => simp [← hc, children_of_slot? hs]
  length_eq := h.length_eq
  sameOff := h.sameOff.mono fun m _ hm => Or.inl hm
  matched := h.matched

/-- What is below a node that was placed stays as it is while the positions behind it are settled:
    neither the parent nor what follows is below that node. -/
theorem Placed.slot?_below (h : Placed w p kept n rest v n' w₁)
    (h' : Settled w₁ p (kept ++ [n']) rest vs ns w') (hp : p < w.tree.slots.size) {m : NodeId}
    (hm : w₁.tree.Below m n') : w'.tree.slot? m = w₁.tree.slot? m := by
  have hc₁ : w₁.tree.children p = kept ++ n' :: rest := children_eq_of_slot?_eq hp h.slot?_eq
  have hchild : ∀ c, c ∈ n' :: rest → w₁.tree.ChildOf c p := by
    intro c hc
    rw [ChildOf, ← h.wellFormed.mem_children_iff, hc₁]
    exact List.mem_append_right _ hc
  have hn'rest : n' ∉ rest := by
    have hnd := hc₁ ▸ h.wellFormed.nodup_children p
    exact (List.nodup_cons.mp (List.nodup_append.mp hnd).2.1).1
  have hn'p := hchild n' (by simp)
  refine h'.sameOff.slot?_eq m (hm.lt_left (lt_of_childOf hn'p)) ?_
  intro hR
  rcases hR with rfl | ⟨c, hc, hmc⟩
  · exact h.wellFormed.not_below_child hn'p hm
  · have hne : n' ≠ c := fun e => hn'rest (e ▸ hc)
    exact h.wellFormed.not_below_sibling hn'p (hchild c (by simp [hc])) hne hm hmc

/-- A position that is settled stays settled while the ones behind it are. -/
theorem Placed.settled (h : Placed w p kept n rest v n' w₁)
    (h' : Settled w₁ p (kept ++ [n']) rest vs ns w') (hp : p < w.tree.slots.size) :
    Settled w p kept (n :: rest) (v :: vs) (n' :: ns) w' := by
  refine ⟨h'.wellFormed, ?_, by simp [h'.length_eq], ?_, ?_⟩
  · rw [h'.slot?_eq, h.slot?_eq, Option.map_map]
    simp [Function.comp_def]
  · refine SameOff.trans (h.sameOff.mono ?_) h'.sameOff ?_
    · intro m _ hR
      rcases hR with hm | hm
      · exact Or.inl hm
      · exact Or.inr ⟨n, by simp, hm⟩
    · intro m hm hR
      rcases hR with hmp | ⟨c, hc, hmc⟩
      · exact Or.inl hmp
      · rcases h.below_of m hm c hc hmc with hmn | hmc
        · exact Or.inr ⟨n, by simp, hmn⟩
        · exact Or.inr ⟨c, by simp [hc], hmc⟩
  · intro hall
    obtain ⟨hv, hvs⟩ := hall
    refine ⟨n', ns, rfl, ?_, h'.matched hvs⟩
    refine Matches.congr h.wellFormed ?_ (h.matched hv)
    exact fun m hm => face?_of_slot?_eq (h.slot?_below h' hp hm)

/-- The children of `p` are nodes `ns` for a list of virtual ones. -/
structure Shown (w : Work) (p : NodeId) (vs : List VNode) (ns : List NodeId) (w' : Work) :
    Prop where
  /-- The tree stays well formed. -/
  wellFormed : w'.tree.WellFormed
  /-- `p` lists the new nodes and is otherwise as it was. -/
  slot?_eq : w'.tree.slot? p = (w.tree.slot? p).map fun s => { s with children := ns }
  /-- There is one for each virtual node. -/
  length_eq : ns.length = vs.length
  /-- Only `p` and what was below it are touched. -/
  sameOff : SameOff (w.tree.Below · p) w.tree w'.tree
  /-- They match. -/
  matched : VNode.UnreservedAll vs → w'.tree.MatchesAll ns vs

theorem shown_of_pruned (h : Pruned p [] w.tree w'.tree) : Shown w p [] [] w' where
  wellFormed := h.wellFormed
  slot?_eq := h.slot?_eq
  length_eq := rfl
  sameOff := by
    refine h.sameOff.mono ?_
    intro m _ hm
    rcases hm with rfl | ⟨hm, _⟩
    · exact Below.refl w.tree m
    · exact hm.below
  matched := fun _ => matchesAll_nil

theorem Settled.shown (hpruned : Pruned p live w.tree w₁.tree)
    (h : Settled w₁ p [] live vs ns w') (wf : w.tree.WellFormed)
    (hlive : ∀ n ∈ live, n ∈ w.tree.children p) : Shown w p vs ns w' where
  wellFormed := h.wellFormed
  slot?_eq := by
    rw [h.slot?_eq, hpruned.slot?_eq, Option.map_map]
    rfl
  length_eq := h.length_eq
  sameOff := by
    refine SameOff.trans (hpruned.sameOff.mono ?_) h.sameOff ?_
    · intro m _ hR
      rcases hR with rfl | ⟨hm, _⟩
      · exact Below.refl w.tree m
      · exact hm.below
    · intro m _ hR
      rcases hR with rfl | ⟨n, hn, hmn⟩
      · exact Below.refl w.tree m
      · have hnp : w.tree.ChildOf n p := (wf.mem_children_iff n p).mp (hlive n hn)
        exact (hpruned.below_of hmn).trans hnp.below
  matched := h.matched

/-- An element that was adjusted and shows its children is brought in line. -/
theorem Shown.patched {e : Shell} {children : List VNode}
    (h : Shown (w.adjust n e) n children ns w') (hn : n < w.tree.slots.size)
    (hk : (w.tree.kind n).sameType (.element e.tag) = true) :
    Patched w n (.element e children) w' := by
  have hadj := w.redressed_adjust n e
  have hlt : n < (w.adjust n e).tree.slots.size := hadj.sameOff.lt hn
  obtain ⟨s, hs⟩ := exists_slot_of_lt hlt
  have hs' : w'.tree.slot? n = some { s with children := ns } := by
    rw [h.slot?_eq, hs]
    rfl
  -- Neither adjusting nor settling changes the kind.
  have hkind : s.kind = w.tree.kind n := by
    rw [← hadj.kind_eq]
    simp [kind, hs]
  refine ⟨h.wellFormed, ?_, ?_⟩
  · refine SameOff.trans (hadj.sameOff.mono ?_) h.sameOff ?_
    · intro m _ he
      subst he
      exact Below.refl w.tree m
    · intro m _ hm
      refine Relation.ReflTransGen.mono ?_ m n hm
      intro x q hxq
      rw [ChildOf, ← hadj.all_parent?_eq]
      exact hxq
  · intro hx
    obtain ⟨_, _, hall⟩ := hx
    obtain ⟨hclass, hstyle⟩ := w.adjust_reads hn e
    refine ⟨?_, ?_, ?_, ?_⟩
    · obtain ⟨tag, htag, hsame⟩ := NodeKind.sameType_element_iff.mp hk
      rw [htag] at hkind
      exact ⟨tag, by simp [kind, hs', hkind], hsame⟩
    · simpa [attribute?, hs, hs'] using hclass
    · simpa [LiveTree.style, hs, hs'] using hstyle
    · rw [children_of_slot? hs']
      exact h.matched hall

/-! ## §4. The recursion -/

/-- Removes surplus children and settles those that are kept. -/
def settleAll (w : Work) (p : NodeId) (vs : List VNode) : Work :=
  settle .stored (w.trim p vs.length) p ((w.tree.children p).take vs.length) vs

theorem patch_element (w : Work) (n : NodeId) (e : Shell) (children : List VNode) :
    patch .stored w n (.element e children) =
      if children.isEmpty then
        if ((w.adjust n e).tree.children n).isEmpty then w.adjust n e
        else (w.adjust n e).clear n
      else (w.adjust n e).settleAll n children := by
  rw [patch]
  rfl

theorem settle_nil (w : Work) (p : NodeId) (vs : List VNode) :
    settle .stored w p [] vs = w.appendAll p vs := by
  induction vs generalizing w with
  | nil => rw [settle, appendAll]
  | cons v vs ih =>
    rw [settle, appendAll]
    exact ih _

theorem settle_cons (w : Work) (p n : NodeId) (live : List NodeId) (v : VNode)
    (vs : List VNode) :
    settle .stored w p (n :: live) (v :: vs) =
      settle .stored
        (if (w.tree.kind n).sameType v.kind then patch .stored w n v
          else (w.build v).2.edit (·.replace p n (w.build v).1))
        p live vs := by
  rw [settle]

theorem patched_text (wf : w.tree.WellFormed) (hn : n < w.tree.slots.size) {text : String}
    (hk : w.tree.kind n = v.kind) (hv : ∀ tag, v.kind ≠ .element tag)
    (hm : (∀ t : LiveTree, t.kind n = v.kind →
      (text = "" ∨ t.textContent? n = some text) → t.Matches n v)) :
    Patched w n v (w.patchText n text) := by
  have hdress := w.redressed_patchText n text
  refine ⟨hdress.wellFormed wf, hdress.sameOff.mono ?_, fun _ => hm _ ?_ ?_⟩
  · intro m _ he
    subst he
    exact Below.refl w.tree m
  · rw [hdress.kind_eq, hk]
  · exact textContent?_patchText hn (fun tag => hk ▸ hv tag) text

mutual

/-- A kept node of the same type is brought in line. -/
theorem patch_spec (w : Work) (n : NodeId) (v : VNode) (wf : w.tree.WellFormed)
    (hn : n < w.tree.slots.size) (hk : (w.tree.kind n).sameType v.kind = true) :
    Patched w n v (patch .stored w n v) := by
  match v with
  | .text s =>
    have hkind : w.tree.kind n = .text := NodeKind.sameType_text_iff.mp hk
    exact patched_text wf hn hkind (by simp [VNode.kind]) fun t ht hs => ⟨ht, hs⟩
  | .comment s =>
    have hkind : w.tree.kind n = .comment := NodeKind.sameType_comment_iff.mp hk
    exact patched_text wf hn hkind (by simp [VNode.kind]) fun t ht hs => ⟨ht, hs⟩
  | .element e children =>
    have hadj := w.redressed_adjust n e
    have hlt : n < (w.adjust n e).tree.slots.size := hadj.sameOff.lt hn
    have hwf := hadj.wellFormed wf
    -- Either the live children are cleared, or the surplus is trimmed and the rest is settled.
    have hshown : ∃ ns, Shown (w.adjust n e) n children ns
        (patch .stored w n (.element e children)) := by
      rw [patch_element]
      split
      · next hempty =>
        obtain rfl : children = [] := by simpa using hempty
        refine ⟨[], shown_of_pruned ?_⟩
        split
        · next hlive =>
          have hnil : (w.adjust n e).tree.children n = [] := by simpa using hlive
          exact hnil ▸ Pruned.refl hwf n
        · exact pruned_clear hwf hlt
      · have hpruned := pruned_trim hwf hlt children.length
        obtain ⟨ns, hns⟩ := settle_spec ((w.adjust n e).trim n children.length) n []
          (((w.adjust n e).tree.children n).take children.length) children hpruned.wellFormed
          (hpruned.sameOff.lt hlt) (hpruned.children_eq hlt) (List.length_take_le _ _)
        exact ⟨ns, hns.shown hpruned hwf fun m hm => List.mem_of_mem_take hm⟩
    obtain ⟨ns, hns⟩ := hshown
    exact hns.patched hn hk

/-- The children of a node from some position on are settled. -/
theorem settle_spec (w : Work) (p : NodeId) (kept live : List NodeId) (vs : List VNode)
    (wf : w.tree.WellFormed) (hp : p < w.tree.slots.size)
    (hc : w.tree.children p = kept ++ live) (hlen : live.length ≤ vs.length) :
    ∃ ns, Settled w p kept live vs ns (settle .stored w p live vs) := by
  match vs, live with
  | [], [] =>
    rw [settle_nil, appendAll]
    exact ⟨[], Settled.nil wf (by simpa using hc)⟩
  | [], _ :: _ => simp at hlen
  | v :: vs, [] =>
    rw [settle_nil]
    obtain ⟨ns, hns⟩ := appendAll_spec w p (v :: vs) wf hp
    exact ⟨ns, hns.settled (by simpa using hc)⟩
  | v :: vs, n :: live =>
    have hn : n < w.tree.slots.size := wf.child_lt (p := p) (by simp [hc])
    -- The node in this position is patched or replaced; the ones behind it are settled after it.
    have hplaced : ∃ n', Placed w p kept n live v n'
        (if (w.tree.kind n).sameType v.kind then patch .stored w n v
          else (w.build v).2.edit (·.replace p n (w.build v).1)) := by
      split
      · next hk => exact ⟨n, (patch_spec w n v wf hn hk).placed wf hc⟩
      · exact ⟨_, (build_spec w v wf).placed wf hc⟩
    obtain ⟨n', hn'⟩ := hplaced
    rw [settle_cons]
    obtain ⟨ns, hns⟩ := settle_spec _ p (kept ++ [n']) live vs hn'.wellFormed
      (hn'.sameOff.lt hp) (by simpa using children_eq_of_slot?_eq hp hn'.slot?_eq)
      (by simpa using hlen)
    exact ⟨n' :: ns, hn'.settled hns hp⟩

end

/-- Settling all children of a node. -/
theorem settleAll_spec (wf : w.tree.WellFormed) (hp : p < w.tree.slots.size) (vs : List VNode) :
    ∃ ns, Shown w p vs ns (w.settleAll p vs) := by
  have hpruned := pruned_trim wf hp vs.length
  obtain ⟨ns, hns⟩ := settle_spec (w.trim p vs.length) p [] _ vs hpruned.wellFormed
    (hpruned.sameOff.lt hp) (hpruned.children_eq hp) (List.length_take_le _ _)
  exact ⟨ns, hns.shown hpruned wf fun m hm => List.mem_of_mem_take hm⟩

end Work

end ReactiveView
