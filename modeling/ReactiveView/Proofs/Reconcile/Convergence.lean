import ReactiveView.Proofs.Reconcile.Settle

/-! # Reconciliation converges and stops

  Whatever the live tree was before, after reconciliation it shows the virtual
  nodes, provided that these keep to the reserved places of class and style
  (`reconcile_shows`). And edits are made only where something differs:

  * every change is counted, so that work without edits is work without changes
    (`Counted`);
  * there are no edits exactly when the tree shows the virtual nodes already
    (`reconcile_edits_eq_zero_iff`), so a second pass makes none.
-/

namespace ReactiveView

open LiveTree

variable {t : LiveTree} {n p : NodeId} {v : VNode} {vs : List VNode}

/-! ## §1. Convergence -/

theorem reconcile_eq (t : LiveTree) (p : NodeId) (vs : List VNode) :
    t.reconcile .stored p vs =
      ((Work.settleAll ⟨t, 0⟩ p vs).tree, (Work.settleAll ⟨t, 0⟩ p vs).edits) := rfl

theorem shown_reconcile (wf : t.WellFormed) (hp : t.exists? p = true) (vs : List VNode) :
    ∃ ns, Work.Shown ⟨t, 0⟩ p vs ns (Work.settleAll ⟨t, 0⟩ p vs) :=
  Work.settleAll_spec (w := ⟨t, 0⟩) wf (exists?_iff.mp hp) vs

theorem wellFormed_reconcile (wf : t.WellFormed) (hp : t.exists? p = true) (vs : List VNode) :
    (t.reconcile .stored p vs).1.WellFormed := by
  obtain ⟨ns, hns⟩ := shown_reconcile wf hp vs
  exact hns.wellFormed

theorem exists?_reconcile (wf : t.WellFormed) (hp : t.exists? p = true) (vs : List VNode) :
    (t.reconcile .stored p vs).1.exists? p = true := by
  obtain ⟨ns, hns⟩ := shown_reconcile wf hp vs
  exact exists?_iff.mpr (hns.sameOff.lt (exists?_iff.mp hp))

theorem children_reconcile {ns : List NodeId} (hp : t.exists? p = true)
    (hns : Work.Shown ⟨t, 0⟩ p vs ns (Work.settleAll ⟨t, 0⟩ p vs)) :
    (t.reconcile .stored p vs).1.children p = ns :=
  Work.children_eq_of_slot?_eq (exists?_iff.mp hp) hns.slot?_eq

/-- There are as many children as virtual nodes, whatever attributes these have. -/
theorem length_children_reconcile (wf : t.WellFormed) (hp : t.exists? p = true)
    (vs : List VNode) : ((t.reconcile .stored p vs).1.children p).length = vs.length := by
  obtain ⟨ns, hns⟩ := shown_reconcile wf hp vs
  rw [children_reconcile hp hns]
  exact hns.length_eq

theorem matchesAll_reconcile (wf : t.WellFormed) (hp : t.exists? p = true)
    (hvs : VNode.UnreservedAll vs) :
    (t.reconcile .stored p vs).1.MatchesAll ((t.reconcile .stored p vs).1.children p) vs := by
  obtain ⟨ns, hns⟩ := shown_reconcile wf hp vs
  rw [children_reconcile hp hns]
  exact hns.matched hvs

/-- **Convergence**: the target of a reconciliation has one child for each virtual node, and each
    of them matches. -/
theorem reconcile_shows (wf : t.WellFormed) (hp : t.exists? p = true)
    (hvs : VNode.UnreservedAll vs) : (t.reconcile .stored p vs).1.Shows p vs :=
  shows_iff.mpr (matchesAll_reconcile wf hp hvs)

/-- A paragraph under the root gives way to a text and an element of another class. -/
theorem reconcile_shows_under_root :
    let t := (LiveTree.initial.reconcile .stored 0 [.element { tag := "p" } [.text "old"]]).1
    let vs : List VNode := [.text "new", .element { tag := "b", className := some "c" } []]
    t.WellFormed ∧ (t.reconcile .stored 0 vs).1.Shows 0 vs := by
  intro t vs
  have wf : t.WellFormed := wellFormed_reconcile wellFormed_initial rfl _
  refine ⟨wf, reconcile_shows wf (exists?_reconcile wellFormed_initial rfl _) ?_⟩
  exact ⟨trivial, ⟨by decide, by decide, trivial⟩, trivial⟩

/-! ## §2. Every change is counted -/

namespace Work

/-- Edits are never taken back, and without new ones nothing has changed. -/
def Counted (w w' : Work) : Prop := w.edits ≤ w'.edits ∧ (w'.edits = w.edits → w' = w)

variable {w w₁ w₂ : Work}

theorem Counted.refl (w : Work) : Counted w w := ⟨Nat.le_refl _, fun _ => rfl⟩

theorem Counted.of_lt (h : w.edits < w₁.edits) : Counted w w₁ :=
  ⟨Nat.le_of_lt h, fun he => absurd he (Nat.ne_of_gt h)⟩

/-- When the whole changes nothing, neither does its first part. -/
theorem Counted.eq_of_eq (h : Counted w w₁) (h' : Counted w₁ w₂) (he : w₂ = w) : w₁ = w := by
  refine h.2 (Nat.le_antisymm ?_ h.1)
  rw [← he]
  exact h'.1

theorem Counted.trans (h : Counted w w₁) (h' : Counted w₁ w₂) : Counted w w₂ := by
  refine ⟨Nat.le_trans h.1 h'.1, ?_⟩
  intro he
  have h₁ : w₁ = w := h.2 (Nat.le_antisymm (he ▸ h'.1) h.1)
  rw [← h₁] at he ⊢
  exact h'.2 he

theorem counted_edit (w : Work) (f : LiveTree → LiveTree) : Counted w (w.edit f) :=
  Counted.of_lt (Nat.lt_succ_self _)

theorem counted_foldl_edit {α : Type} (f : LiveTree → α → LiveTree) (xs : List α) (w : Work) :
    Counted w (xs.foldl (fun w x => w.edit (f · x)) w) := by
  induction xs generalizing w with
  | nil => exact Counted.refl w
  | cons x xs ih => exact (counted_edit w _).trans (ih _)

theorem counted_patchClass (w : Work) (n : NodeId) (c : Option String) :
    Counted w (w.patchClass n c) := by
  unfold patchClass
  split
  · exact Counted.refl w
  · cases c <;> exact counted_edit w _

theorem counted_patchStyle (w : Work) (n : NodeId) (style : Style) :
    Counted w (w.patchStyle .stored n style) := by
  rw [patchStyle_stored]
  split
  · exact Counted.refl w
  · exact (counted_foldl_edit (fun t (p : String) => t.setStyle n p none) _ w).trans
      (counted_foldl_edit (fun t (p : String × String) => t.setStyle n p.1 (some p.2)) _ _)

theorem counted_adjust (w : Work) (n : NodeId) (e : Shell) : Counted w (w.adjust n e) :=
  (counted_patchClass w n e.className).trans (counted_patchStyle _ n e.style)

theorem counted_patchText (w : Work) (n : NodeId) (text : String) :
    Counted w (w.patchText n text) := by
  unfold patchText
  split
  · exact counted_edit w _
  · exact Counted.refl w

theorem counted_trim (w : Work) (p : NodeId) (keep : Nat) : Counted w (w.trim p keep) :=
  counted_foldl_edit (fun t c => t.remove p c) _ w

theorem counted_clear (w : Work) (n : NodeId) : Counted w (w.clear n) := by
  refine ⟨Nat.le_add_right _ _, ?_⟩
  intro h
  have hnil : w.tree.children n = [] := by
    have : w.edits + (w.tree.children n).length = w.edits := h
    exact List.eq_nil_of_length_eq_zero (by omega)
  simp [clear, clearChildren, hnil]

theorem counted_dress (w : Work) (n : NodeId) (e : Shell) : Counted w (w.dress n e) := by
  have hclass : ∀ w : Work, Counted w (w.setClass n e.className) := by
    intro w
    cases e.className with
    | none => exact Counted.refl w
    | some c => exact counted_edit w _
  have hattrs := counted_foldl_edit
    (fun t (a : String × String) => t.setAttribute n a.1 a.2) e.attrs.entries w
  have hstyle := counted_foldl_edit
    (fun t (p : String × String) => t.setStyle n p.1 (some p.2)) e.style.entries
  have hlisten := counted_foldl_edit
    (fun t (h : String × EventHandler) => t.listen n h.1 h.2) e.handlers.entries
  exact ((hattrs.trans (hclass _)).trans (hstyle _)).trans (hlisten _)

mutual

/-- Building is always an edit. -/
theorem edits_lt_build (w : Work) (v : VNode) : w.edits < (w.build v).2.edits := by
  match v with
  | .text s => exact Nat.lt_succ_self _
  | .comment s => exact Nat.lt_succ_self _
  | .element e children =>
    rw [build_element]
    have hdress := counted_dress ⟨(w.tree.createElement e.tag).2, w.edits + 1⟩
      w.tree.slots.size e
    have hrest := counted_appendAll (w.buildShell e) w.tree.slots.size children
    exact Nat.lt_of_lt_of_le (Nat.lt_succ_self _) (Nat.le_trans hdress.1 hrest.1)

theorem counted_appendAll (w : Work) (p : NodeId) (vs : List VNode) :
    Counted w (w.appendAll p vs) := by
  match vs with
  | [] =>
    rw [appendAll]
    exact Counted.refl w
  | v :: vs =>
    rw [appendAll_cons]
    exact ((Counted.of_lt (edits_lt_build w v)).trans (counted_edit _ _)).trans
      (counted_appendAll _ p vs)

end

mutual

theorem counted_patch (w : Work) (n : NodeId) (v : VNode) :
    Counted w (patch .stored w n v) := by
  match v with
  | .text s =>
    rw [patch]
    exact counted_patchText w n s
  | .comment s =>
    rw [patch]
    exact counted_patchText w n s
  | .element e children =>
    have hadj := counted_adjust w n e
    rw [patch_element]
    split
    · split
      · exact hadj
      · exact hadj.trans (counted_clear _ n)
    · exact hadj.trans ((counted_trim _ n _).trans (counted_settle _ n _ children))

theorem counted_settle (w : Work) (p : NodeId) (live : List NodeId) (vs : List VNode) :
    Counted w (settle .stored w p live vs) := by
  match vs, live with
  | [], _ =>
    rw [settle]
    exact Counted.refl w
  | v :: vs, [] =>
    rw [settle_nil]
    exact counted_appendAll w p (v :: vs)
  | v :: vs, n :: live =>
    rw [settle_cons]
    refine Counted.trans ?_ (counted_settle _ p live vs)
    split
    · exact counted_patch w n v
    · exact (Counted.of_lt (edits_lt_build w v)).trans (counted_edit _ _)

end

theorem counted_settleAll (w : Work) (p : NodeId) (vs : List VNode) :
    Counted w (w.settleAll p vs) :=
  (counted_trim w p _).trans (counted_settle _ p _ vs)

/-! ## §3. Nothing to do -/

theorem edit_ne_self (w : Work) (f : LiveTree → LiveTree) : w.edit f ≠ w := fun h =>
  absurd (congrArg Work.edits h) (Nat.succ_ne_self _)

theorem patchClass_eq_self_iff (w : Work) (n : NodeId) (c : Option String) :
    w.patchClass n c = w ↔ w.tree.attribute? n "class" = c := by
  unfold patchClass
  by_cases h : w.tree.attribute? n "class" = c
  · simp [h]
  · rw [if_neg h]
    cases c with
    | none => exact iff_of_false (edit_ne_self w _) h
    | some c => exact iff_of_false (edit_ne_self w _) h

theorem patchStyle_eq_self_iff (w : Work) (n : NodeId) (style : Style) :
    w.patchStyle .stored n style = w ↔ (w.tree.style n).Agree style := by
  rw [patchStyle_stored, ← OrderedMap.same_iff_agree]
  by_cases h : (w.tree.style n).same style = true
  · simp [h]
  · rw [if_neg h]
    refine iff_of_false (fun heq => h ?_) h
    have hedits := congrArg Work.edits heq
    rw [setStyles, edits_foldl_edit (fun t (p : String × String) => t.setStyle n p.1 (some p.2)),
      clearStyles, edits_foldl_edit (fun t (p : String) => t.setStyle n p none)] at hedits
    -- Without edits nothing was surplus or missing, but then the styles agree.
    rw [OrderedMap.same_iff_agree]
    exact OrderedMap.agree_of_surplus_of_missing
      (List.eq_nil_of_length_eq_zero (by omega)) (List.eq_nil_of_length_eq_zero (by omega))

theorem adjust_eq_self_iff (w : Work) (n : NodeId) (e : Shell) :
    w.adjust n e = w ↔
      w.tree.attribute? n "class" = e.className ∧ (w.tree.style n).Agree e.style := by
  rw [← patchClass_eq_self_iff, ← patchStyle_eq_self_iff]
  constructor
  · intro h
    have hclass : w.patchClass n e.className = w :=
      (counted_patchClass w n e.className).eq_of_eq (counted_patchStyle _ n e.style) h
    refine ⟨hclass, ?_⟩
    rwa [adjust, hclass] at h
  · intro hall
    obtain ⟨hclass, hstyle⟩ := hall
    rw [adjust, hclass, hstyle]

theorem patchText_eq_self_iff (w : Work) (n : NodeId) (text : String) :
    w.patchText n text = w ↔ text = "" ∨ w.tree.textContent? n = some text := by
  unfold patchText
  by_cases htext : text = ""
  · simp [htext]
  · by_cases hlive : w.tree.textContent? n = some text
    · simp [hlive]
    · have hcond : (!text.isEmpty && w.tree.textContent? n != some text) = true := by
        simp [htext, hlive]
      rw [if_pos hcond]
      exact iff_of_false (edit_ne_self w _) (by simp [htext, hlive])

theorem clear_eq_self_iff (w : Work) (n : NodeId) :
    w.clear n = w ↔ w.tree.children n = [] := by
  constructor
  · intro h
    have hedits : w.edits + (w.tree.children n).length = w.edits := congrArg Work.edits h
    exact List.eq_nil_of_length_eq_zero (by omega)
  · intro h
    simp [clear, clearChildren, h]

theorem trim_eq_self_iff (w : Work) (p : NodeId) (keep : Nat) :
    w.trim p keep = w ↔ (w.tree.children p).length ≤ keep := by
  rw [← List.drop_eq_nil_iff]
  constructor
  · intro h
    have hedits := congrArg Work.edits h
    rw [trim, edits_foldl_edit (fun t c => t.remove p c), List.length_reverse] at hedits
    exact List.eq_nil_of_length_eq_zero (by omega)
  · intro h
    rw [trim, h]
    rfl

theorem appendAll_eq_self_iff (w : Work) (p : NodeId) (vs : List VNode) :
    w.appendAll p vs = w ↔ w.tree.MatchesAll [] vs := by
  cases vs with
  | nil => simp [appendAll]
  | cons v vs =>
    refine iff_of_false ?_ (matchesAll_nil_cons v vs)
    intro h
    rw [appendAll_cons] at h
    have hbuild := edits_lt_build w v
    have hrest := (counted_appendAll ((w.build v).2.edit (·.append p (w.build v).1)) p vs).1
    rw [h, edits_edit] at hrest
    omega

/-- Settling all children leaves everything alone when settling does. -/
theorem settleAll_eq_self_iff_of {p : NodeId} {vs : List VNode}
    (h : ∀ live : List NodeId, live.length ≤ vs.length →
      (settle .stored w p live vs = w ↔ w.tree.MatchesAll live vs)) :
    w.settleAll p vs = w ↔ w.tree.MatchesAll (w.tree.children p) vs := by
  have htake : (w.tree.children p).length ≤ vs.length →
      (w.tree.children p).take vs.length = w.tree.children p := List.take_of_length_le
  constructor
  · intro heq
    -- Nothing was changed in all, so nothing was trimmed, and all live children are settled.
    have htrim : w.trim p vs.length = w :=
      (counted_trim w p vs.length).eq_of_eq (counted_settle _ p _ vs) heq
    have hlen := (trim_eq_self_iff w p vs.length).mp htrim
    rw [settleAll, htrim, htake hlen] at heq
    exact (h _ hlen).mp heq
  · intro hm
    have hlen := Nat.le_of_eq hm.length_eq
    rw [settleAll, (trim_eq_self_iff w p vs.length).mpr hlen, htake hlen]
    exact (h _ hlen).mpr hm

mutual

/-- A node of the same type is left alone exactly when it matches. -/
theorem patch_eq_self_iff (w : Work) (n : NodeId) (v : VNode)
    (hk : (w.tree.kind n).sameType v.kind = true) :
    patch .stored w n v = w ↔ w.tree.Matches n v := by
  match v with
  | .text s =>
    have hkind : w.tree.kind n = .text := NodeKind.sameType_text_iff.mp hk
    rw [patch, patchText_eq_self_iff]
    simp [Matches, hkind]
  | .comment s =>
    have hkind : w.tree.kind n = .comment := NodeKind.sameType_comment_iff.mp hk
    rw [patch, patchText_eq_self_iff]
    simp [Matches, hkind]
  | .element e children =>
    have htag : ∃ tag, w.tree.kind n = .element tag ∧
        Text.equalIgnoringCase tag e.tag = true := NodeKind.sameType_element_iff.mp hk
    have hchildren : (if children.isEmpty then
          if (w.tree.children n).isEmpty then w else w.clear n
        else w.settleAll n children) = w ↔ w.tree.MatchesAll (w.tree.children n) children := by
      cases children with
      | nil =>
        -- Without virtual children the live ones are cleared.
        by_cases hlive : w.tree.children n = []
        · simp [hlive]
        · have hclear := (clear_eq_self_iff w n).not.mpr hlive
          simp [MatchesAll, hlive, hclear]
      | cons c cs =>
        exact settleAll_eq_self_iff_of fun live => settle_eq_self_iff w n live (c :: cs)
    -- Class and style come first; when they are left alone, what remains is `hchildren`.
    have hadj := counted_adjust w n e
    rw [patch_element, Matches, ← hchildren]
    constructor
    · intro h
      have hself : w.adjust n e = w := by
        refine hadj.eq_of_eq ?_ h
        split
        · split
          · exact Counted.refl _
          · exact counted_clear _ n
        · exact counted_settleAll _ n children
      rw [hself] at h
      obtain ⟨hclass, hstyle⟩ := (adjust_eq_self_iff w n e).mp hself
      exact ⟨htag, hclass, hstyle, h⟩
    · intro hall
      obtain ⟨_, hclass, hstyle, h⟩ := hall
      rwa [(adjust_eq_self_iff w n e).mpr ⟨hclass, hstyle⟩]

/-- Children are left alone exactly when they match. -/
theorem settle_eq_self_iff (w : Work) (p : NodeId) (live : List NodeId) (vs : List VNode)
    (hlen : live.length ≤ vs.length) :
    settle .stored w p live vs = w ↔ w.tree.MatchesAll live vs := by
  match vs, live with
  | [], [] => simp [settle]
  | [], _ :: _ => simp at hlen
  | v :: vs, [] =>
    rw [settle_nil]
    exact appendAll_eq_self_iff w p (v :: vs)
  | v :: vs, n :: live =>
    rw [settle_cons, matchesAll_cons]
    have hrest := settle_eq_self_iff w p live vs (by simpa using hlen)
    by_cases hk : (w.tree.kind n).sameType v.kind = true
    · -- Edits are never taken back: the whole is left alone when both parts are.
      rw [if_pos hk, ← patch_eq_self_iff w n v hk]
      constructor
      · intro h
        have hself := (counted_patch w n v).eq_of_eq (counted_settle _ p live vs) h
        rw [hself] at h
        exact ⟨hself, hrest.mp h⟩
      · intro hall
        obtain ⟨hself, h⟩ := hall
        rw [hself]
        exact hrest.mpr h
    · -- A node of another type is replaced, and that is an edit.
      rw [if_neg hk]
      refine iff_of_false ?_ fun h => hk h.1.sameType
      intro h
      have hbuild := edits_lt_build w v
      have hle := (counted_settle ((w.build v).2.edit (·.replace p n (w.build v).1)) p live vs).1
      rw [h, edits_edit] at hle
      omega

end

theorem settleAll_eq_self_iff (w : Work) (p : NodeId) (vs : List VNode) :
    w.settleAll p vs = w ↔ w.tree.MatchesAll (w.tree.children p) vs :=
  settleAll_eq_self_iff_of fun live => settle_eq_self_iff w p live vs

end Work

theorem reconcile_edits_zero_iff_matchesAll (t : LiveTree) (p : NodeId) (vs : List VNode) :
    (t.reconcile .stored p vs).2 = 0 ↔ t.MatchesAll (t.children p) vs := by
  rw [reconcile_eq, ← Work.settleAll_eq_self_iff ⟨t, 0⟩ p vs]
  exact ⟨(Work.counted_settleAll ⟨t, 0⟩ p vs).2, fun h => congrArg Work.edits h⟩

theorem reconcile_tree_of_edits_zero (h : (t.reconcile .stored p vs).2 = 0) :
    (t.reconcile .stored p vs).1 = t :=
  congrArg Work.tree ((Work.counted_settleAll ⟨t, 0⟩ p vs).2 h)

/-- **Economy**: a reconciliation edits exactly when the target does not show the virtual nodes
    yet, and without edits the whole tree, its log included, is as before. So reconciling again
    makes no edits. -/
theorem reconcile_edits_eq_zero_iff (wf : t.WellFormed) (hp : t.exists? p = true)
    (vs : List VNode) :
    ((t.reconcile .stored p vs).2 = 0 ↔ t.Shows p vs) ∧
      ((t.reconcile .stored p vs).2 = 0 → (t.reconcile .stored p vs).1 = t) ∧
      (VNode.UnreservedAll vs →
        ((t.reconcile .stored p vs).1.reconcile .stored p vs).2 = 0) := by
  refine ⟨?_, reconcile_tree_of_edits_zero, ?_⟩
  · rw [reconcile_edits_zero_iff_matchesAll, shows_iff]
  · intro hvs
    rw [reconcile_edits_zero_iff_matchesAll]
    exact matchesAll_reconcile wf hp hvs

/-- Two nodes under the root of an empty tree, drawn twice. -/
theorem reconcile_edits_eq_zero_iff_under_root :
    let vs : List VNode := [.text "new", .element { tag := "b", className := some "c" } []]
    ((LiveTree.initial.reconcile .stored 0 vs).2 = 0 ↔ LiveTree.initial.Shows 0 vs) ∧
      ((LiveTree.initial.reconcile .stored 0 vs).1.reconcile .stored 0 vs).2 = 0 := by
  intro vs
  have hall := reconcile_edits_eq_zero_iff (p := 0) wellFormed_initial rfl vs
  exact ⟨hall.1, hall.2.2 ⟨trivial, ⟨by decide, by decide, trivial⟩, trivial⟩⟩

end ReactiveView
