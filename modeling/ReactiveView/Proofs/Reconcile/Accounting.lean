import ReactiveView.Proofs.Reconcile.Convergence

/-! # Reconciliation counts what it logs

  The edits are counted by the reconciliation and logged by the tree. An
  operation that does not apply logs nothing, but it is counted all the same, so
  the two agree only because no such operation is ever tried:

  * attributes, style, text and handlers are written at nodes that exist;
  * what is appended, or put in the place of a child, was built before;
  * what is removed or replaced is a child of the node.

  `Logged` says that count and log agree between two stages of the work, and
  `logged_settle` that they do along the recursion. That the nodes are where
  they are expected comes from the well-formedness that each stage keeps
  (`Built`, `Patched`, `Pruned`).
-/

namespace ReactiveView

open LiveTree

variable {α : Type}

/-! ## §1. Operations that apply -/

namespace LiveTree

/-- One edit is recorded, behind all others. -/
def LogsOne (t t' : LiveTree) : Prop := ∃ e, t'.edits = t.edits ++ [e]

variable {t t' : LiveTree} {n p c : NodeId}

theorem logsOne_log (h : t.edits = t'.edits) (e : Edit) : LogsOne t (t'.log e) :=
  ⟨e, by rw [edits_log, h]⟩

theorem logsOne_create (t : LiveTree) (k : NodeKind) (text : String) :
    LogsOne t (t.create k text).2 := logsOne_log rfl _

/-- A change at a node that exists. -/
theorem logsOne_change (h : n < t.slots.size) (f : Slot → Slot) (e : Edit) :
    LogsOne t (t.change n f e) := by
  rw [change, if_pos (exists?_iff.mpr h)]
  exact logsOne_log rfl e

theorem logsOne_append (hp : p < t.slots.size) (hc : c < t.slots.size) :
    LogsOne t (t.append p c) := by
  have hex : (t.exists? p && t.exists? c) = true := by
    rw [exists?_iff.mpr hp, exists?_iff.mpr hc]
    rfl
  rw [LiveTree.append, if_pos hex]
  exact logsOne_log (edits_detach t c).symm _

theorem logsOne_remove (h : t.ChildOf c p) : LogsOne t (t.remove p c) := by
  have hp : t.parent? c = some p := h
  rw [LiveTree.remove, if_pos hp]
  exact logsOne_log (edits_detach t c).symm _

theorem logsOne_replace (h : t.ChildOf c p) (hn : n < t.slots.size) :
    LogsOne t (t.replace p c n) := by
  have hp : t.parent? c = some p := h
  rw [LiveTree.replace, if_pos ⟨hp, exists?_iff.mpr hn⟩]
  refine logsOne_log ?_ _
  rw [edits_update, edits_update, edits_update, edits_detach]

end LiveTree

/-! ## §2. Counted and logged -/

namespace Work

/-- Between two stages of the work the log was continued, by as many edits as were counted. -/
def Logged (w w' : Work) : Prop :=
  ∃ es, w'.tree.edits = w.tree.edits ++ es ∧ w'.edits = w.edits + es.length

variable {w w₁ w₂ : Work} {n p : NodeId}

theorem Logged.refl (w : Work) : Logged w w := ⟨[], by simp⟩

theorem Logged.trans (h : Logged w w₁) (h' : Logged w₁ w₂) : Logged w w₂ := by
  obtain ⟨es, hlog, hcount⟩ := h
  obtain ⟨es', hlog', hcount'⟩ := h'
  refine ⟨es ++ es', ?_, ?_⟩
  · rw [hlog', hlog, List.append_assoc]
  · rw [hcount', hcount, List.length_append]
    omega

theorem logged_of_logsOne {t : LiveTree} (h : LogsOne w.tree t) :
    Logged w ⟨t, w.edits + 1⟩ := by
  obtain ⟨e, he⟩ := h
  exact ⟨[e], he, rfl⟩

/-- A run of edits at a node that exists. -/
theorem logged_foldl_edit {f : LiveTree → α → LiveTree} (hf : ∀ t x, Redressed n t (f t x))
    (hlog : ∀ t x, n < t.slots.size → LogsOne t (f t x)) (xs : List α) (w : Work)
    (hn : n < w.tree.slots.size) : Logged w (xs.foldl (fun w x => w.edit (f · x)) w) := by
  induction xs generalizing w with
  | nil => exact Logged.refl w
  | cons x xs ih =>
    have hn' : n < (f w.tree x).slots.size := (hf w.tree x).sameOff.lt hn
    exact (logged_of_logsOne (hlog w.tree x hn)).trans (ih (w.edit (f · x)) hn')

theorem logged_setAttributes (es : Entries String) (hn : n < w.tree.slots.size) :
    Logged w (w.setAttributes n es) :=
  logged_foldl_edit (f := fun t (a : String × String) => t.setAttribute n a.1 a.2)
    (fun t a => redressed_setAttribute t n a.1 a.2) (fun _ _ h => logsOne_change h _ _) es w hn

theorem logged_setStyles (es : Entries String) (hn : n < w.tree.slots.size) :
    Logged w (w.setStyles n es) :=
  logged_foldl_edit (f := fun t (p : String × String) => t.setStyle n p.1 (some p.2))
    (fun t p => redressed_setStyle t n p.1 (some p.2)) (fun _ _ h => logsOne_change h _ _) es w hn

theorem logged_clearStyles (ps : List String) (hn : n < w.tree.slots.size) :
    Logged w (w.clearStyles n ps) :=
  logged_foldl_edit (f := fun t (p : String) => t.setStyle n p none)
    (fun t p => redressed_setStyle t n p none) (fun _ _ h => logsOne_change h _ _) ps w hn

theorem logged_listenAll (es : Entries EventHandler) (hn : n < w.tree.slots.size) :
    Logged w (w.listenAll n es) :=
  logged_foldl_edit (f := fun t (h : String × EventHandler) => t.listen n h.1 h.2)
    (fun t h => redressed_listen t n h.1 h.2) (fun _ _ h => logsOne_change h _ _) es w hn

/-! ## §3. Building -/

theorem logged_setClass (hn : n < w.tree.slots.size) (c : Option String) :
    Logged w (w.setClass n c) := by
  cases c with
  | none => exact Logged.refl w
  | some c => exact logged_of_logsOne (logsOne_change hn _ _)

theorem logged_dress (hn : n < w.tree.slots.size) (e : Shell) : Logged w (w.dress n e) := by
  have hattrs := redressed_setAttributes w n e.attrs.entries
  have hclass := redressed_setClass (w.setAttributes n e.attrs.entries) n e.className
  have hstyle := redressed_setStyles ((w.setAttributes n e.attrs.entries).setClass n e.className) n
    e.style.entries
  have hn₁ := hattrs.sameOff.lt hn
  have hn₂ := hclass.sameOff.lt hn₁
  have hn₃ := hstyle.sameOff.lt hn₂
  exact (((logged_setAttributes e.attrs.entries hn).trans
    (logged_setClass hn₁ e.className)).trans
    (logged_setStyles e.style.entries hn₂)).trans
    (logged_listenAll e.handlers.entries hn₃)

theorem logged_buildShell (w : Work) (e : Shell) : Logged w (w.buildShell e) := by
  have hcreate : Logged w ⟨(w.tree.createElement e.tag).2, w.edits + 1⟩ :=
    logged_of_logsOne (logsOne_create w.tree _ "")
  have hnew : w.tree.slots.size < (w.tree.createElement e.tag).2.slots.size := by
    rw [createElement, size_create]
    exact Nat.lt_succ_self _
  exact hcreate.trans (logged_dress (w := ⟨_, w.edits + 1⟩) hnew e)

mutual

theorem logged_build (w : Work) (v : VNode) (wf : w.tree.WellFormed) :
    Logged w (w.build v).2 := by
  match v with
  | .text s => exact logged_of_logsOne (logsOne_create w.tree .text s)
  | .comment s => exact logged_of_logsOne (logsOne_create w.tree .comment s)
  | .element e children =>
    rw [build_element]
    exact (logged_buildShell w e).trans (logged_appendAll (w.buildShell e) w.tree.slots.size
      children (wellFormed_buildShell wf e) (w.lt_size_buildShell e))

theorem logged_appendAll (w : Work) (p : NodeId) (vs : List VNode) (wf : w.tree.WellFormed)
    (hp : p < w.tree.slots.size) : Logged w (w.appendAll p vs) := by
  match vs with
  | [] =>
    rw [appendAll]
    exact Logged.refl w
  | v :: vs =>
    have hbuilt := build_spec w v wf
    have hfirst := hbuilt.appended wf hp
    -- Parent and child both exist: one was there before, the other was built.
    have hedit : Logged (w.build v).2 ((w.build v).2.edit (·.append p (w.build v).1)) :=
      logged_of_logsOne (logsOne_append (hbuilt.sameOff.lt hp) hbuilt.lt_size)
    rw [appendAll_cons]
    exact ((logged_build w v wf).trans hedit).trans
      (logged_appendAll _ p vs hfirst.wellFormed (hfirst.sameOff.lt hp))

end

/-! ## §4. Removing children -/

/-- Children that are removed one after the other are all still there when their turn comes. -/
theorem logged_removeAll {t : LiveTree} {kept : List NodeId} (h : Pruned p kept t w.tree)
    (hp : p < t.slots.size) (ns : List NodeId) (hns : ∀ n ∈ ns, n ∈ kept) (hnd : ns.Nodup) :
    Logged w (ns.foldl (fun w n => w.edit (·.remove p n)) w) := by
  induction ns generalizing kept w with
  | nil => exact Logged.refl w
  | cons n ns ih =>
    obtain ⟨hn, hnd⟩ := List.nodup_cons.mp hnd
    have hkept : n ∈ kept := hns n (by simp)
    have hchild : w.tree.ChildOf n p := by
      rw [ChildOf, ← h.wellFormed.mem_children_iff, h.children_eq hp]
      exact hkept
    have hns' : ∀ m ∈ ns, m ∈ kept.filter (· != n) := by
      intro m hm
      have hmn : m ≠ n := fun e => hn (e ▸ hm)
      simp [hns m (by simp [hm]), hmn]
    exact (logged_of_logsOne (logsOne_remove hchild)).trans
      (ih (w := w.edit (·.remove p n)) (h.remove hp hkept) hns' hnd)

theorem logged_trim (wf : w.tree.WellFormed) (hp : p < w.tree.slots.size) (keep : Nat) :
    Logged w (w.trim p keep) := by
  refine logged_removeAll (Pruned.refl wf p) hp _ ?_ ?_
  · intro n hn
    exact List.mem_of_mem_drop (List.mem_reverse.mp hn)
  · exact List.nodup_reverse.mpr ((wf.nodup_children p).sublist (List.drop_sublist _ _))

/-- Clearing is a run of removals. -/
theorem clear_eq_foldl (w : Work) (n : NodeId) :
    w.clear n = (w.tree.children n).foldl (fun w c => w.edit (·.remove n c)) w := by
  have htree := tree_foldl_edit (fun t c => t.remove n c) (w.tree.children n) w
  have hedits := edits_foldl_edit (fun t c => t.remove n c) (w.tree.children n) w
  rw [clear, clearChildren, ← htree, ← hedits]

theorem logged_clear (wf : w.tree.WellFormed) (hn : n < w.tree.slots.size) :
    Logged w (w.clear n) := by
  rw [clear_eq_foldl]
  exact logged_removeAll (Pruned.refl wf n) hn _ (fun _ h => h) (wf.nodup_children n)

/-! ## §5. Adjusting and settling -/

theorem logged_patchClass (hn : n < w.tree.slots.size) (c : Option String) :
    Logged w (w.patchClass n c) := by
  unfold patchClass
  split
  · exact Logged.refl w
  · cases c <;> exact logged_of_logsOne (logsOne_change hn _ _)

theorem logged_patchStyle (hn : n < w.tree.slots.size) (style : Style) :
    Logged w (w.patchStyle .stored n style) := by
  rw [patchStyle_stored]
  split
  · exact Logged.refl w
  · have hclear := redressed_clearStyles w n ((w.tree.style n).surplus style)
    exact (logged_clearStyles _ hn).trans (logged_setStyles _ (hclear.sameOff.lt hn))

theorem logged_adjust (hn : n < w.tree.slots.size) (e : Shell) : Logged w (w.adjust n e) :=
  (logged_patchClass hn e.className).trans
    (logged_patchStyle ((redressed_patchClass w n e.className).sameOff.lt hn) e.style)

theorem logged_patchText (hn : n < w.tree.slots.size) (text : String) :
    Logged w (w.patchText n text) := by
  unfold patchText
  split
  · exact logged_of_logsOne (logsOne_change hn _ _)
  · exact Logged.refl w

mutual

theorem logged_patch (w : Work) (n : NodeId) (v : VNode) (wf : w.tree.WellFormed)
    (hn : n < w.tree.slots.size) : Logged w (patch .stored w n v) := by
  match v with
  | .text s =>
    rw [patch]
    exact logged_patchText hn s
  | .comment s =>
    rw [patch]
    exact logged_patchText hn s
  | .element e children =>
    have hadj := w.redressed_adjust n e
    have hlog := logged_adjust hn e
    have hwf := hadj.wellFormed wf
    have hlt := hadj.sameOff.lt hn
    rw [patch_element]
    split
    · split
      · exact hlog
      · exact hlog.trans (logged_clear hwf hlt)
    · have hpruned := pruned_trim hwf hlt children.length
      exact hlog.trans ((logged_trim hwf hlt _).trans (logged_settle _ n [] _ children
        hpruned.wellFormed (hpruned.sameOff.lt hlt) (hpruned.children_eq hlt)
        (List.length_take_le _ _)))

theorem logged_settle (w : Work) (p : NodeId) (kept live : List NodeId) (vs : List VNode)
    (wf : w.tree.WellFormed) (hp : p < w.tree.slots.size)
    (hc : w.tree.children p = kept ++ live) (hlen : live.length ≤ vs.length) :
    Logged w (settle .stored w p live vs) := by
  match vs, live with
  | [], _ =>
    rw [settle]
    exact Logged.refl w
  | v :: vs, [] =>
    rw [settle_nil]
    exact logged_appendAll w p (v :: vs) wf hp
  | v :: vs, n :: live =>
    have hnp : w.tree.ChildOf n p := (wf.mem_children_iff n p).mp (by simp [hc])
    have hn : n < w.tree.slots.size := lt_of_childOf hnp
    rw [settle_cons]
    -- The node in this position is patched or replaced; the ones behind it are settled after it.
    by_cases hk : (w.tree.kind n).sameType v.kind = true
    · have hplaced := (patch_spec w n v wf hn hk).placed wf hc
      rw [if_pos hk]
      exact (logged_patch w n v wf hn).trans (logged_settle _ p (kept ++ [n]) live vs
        hplaced.wellFormed (hplaced.sameOff.lt hp)
        (by simpa using children_eq_of_slot?_eq hp hplaced.slot?_eq) (by simpa using hlen))
    · have hbuilt := build_spec w v wf
      have hplaced := hbuilt.placed wf hc
      have hnp' : (w.build v).2.tree.ChildOf n p := by
        rw [ChildOf, hbuilt.sameOff.parent?_eq hn not_false]
        exact hnp
      have hedit : Logged (w.build v).2 ((w.build v).2.edit (·.replace p n (w.build v).1)) :=
        logged_of_logsOne (logsOne_replace hnp' hbuilt.lt_size)
      rw [if_neg hk]
      exact ((logged_build w v wf).trans hedit).trans (logged_settle _ p (kept ++ [_]) live vs
        hplaced.wellFormed (hplaced.sameOff.lt hp)
        (by simpa using children_eq_of_slot?_eq hp hplaced.slot?_eq) (by simpa using hlen))

end

theorem logged_settleAll (wf : w.tree.WellFormed) (hp : p < w.tree.slots.size)
    (vs : List VNode) : Logged w (w.settleAll p vs) := by
  have hpruned := pruned_trim wf hp vs.length
  exact (logged_trim wf hp _).trans (logged_settle _ p [] _ vs hpruned.wellFormed
    (hpruned.sameOff.lt hp) (hpruned.children_eq hp) (List.length_take_le _ _))

end Work

/-- **Accounting**: a reconciliation continues the log, and it returns the number of edits that it
    put there. -/
theorem reconcile_counts_log {t : LiveTree} {p : NodeId} (wf : t.WellFormed)
    (hp : t.exists? p = true) (vs : List VNode) :
    ∃ es, (t.reconcile .stored p vs).1.edits = t.edits ++ es ∧
      (t.reconcile .stored p vs).2 = es.length := by
  obtain ⟨es, hlog, hcount⟩ := Work.logged_settleAll (w := ⟨t, 0⟩) wf (exists?_iff.mp hp) vs
  refine ⟨es, hlog, ?_⟩
  rw [reconcile_eq, hcount, Nat.zero_add]

/-- Under the root there are a paragraph of some class, its text, and a comment. The comment is
    removed, the class is changed, the style is set, and the text is cleared: four edits behind the
    seven that made the nodes. -/
theorem reconcile_counts_log_under_root :
    let t := (LiveTree.initial.reconcile .stored 0
      [.element { tag := "p", className := some "old" } [.text "a"], .comment "b"]).1
    let vs : List VNode :=
      [.element { tag := "P", className := some "new", style := .ofEntries [("top", "0")] } []]
    (t.WellFormed ∧ t.edits.length = 7) ∧
      ∃ es, (t.reconcile .stored 0 vs).1.edits = t.edits ++ es ∧ es.length = 4 := by
  intro t vs
  have wf : t.WellFormed := wellFormed_reconcile wellFormed_initial rfl _
  have hp : t.exists? 0 = true := exists?_reconcile wellFormed_initial rfl _
  obtain ⟨es, hlog, hcount⟩ := reconcile_counts_log wf hp vs
  have hfour : (t.reconcile .stored 0 vs).2 = 4 := by decide
  exact ⟨⟨wf, by decide⟩, es, hlog, hcount.symm.trans hfour⟩

end ReactiveView
