import Mathlib.Data.List.Induction
import ReactiveView.Proofs.LiveTree.Structure

/-! # The two sides of every link

  A parent lists its children and each of them names it in turn. The operations
  keep these two sides in agreement whatever nodes they are given: one that does
  not exist, a node as its own child, a node that is moved below itself, or a
  child that is inserted where it already is.

  There is one exception. A child that is put in its own place is taken out of
  the list first, so that there is no place left to put it; it still names the
  parent, which does not list it any more.

  * `Linked`: both sides agree, and no child is listed twice.
  * `Operation`: everything that changes a live tree.
  * `Operation.linked_apply_iff`: which operations keep the agreement.
  * `linked_throughout_iff`: the same for sequences of operations.
-/

namespace ReactiveView.LiveTree

variable {t : LiveTree} {c n p q x : NodeId}

/-! ## §1. Agreement -/

/-- The two sides of every link agree. Unlike in a well-formed tree, nodes may be below
    themselves. -/
structure Linked (t : LiveTree) : Prop where
  /-- A node lists exactly those children that name it as their parent. -/
  mem_children_iff : ∀ c p, c ∈ t.children p ↔ t.parent? c = some p
  /-- No child is listed twice. -/
  nodup_children : ∀ p, (t.children p).Nodup

theorem WellFormed.linked (wf : t.WellFormed) : t.Linked :=
  ⟨wf.mem_children_iff, wf.nodup_children⟩

namespace Linked

variable {t' : LiveTree}

/-- A tree with the links of one that is linked is linked. -/
theorem of_same_links (h : t.Linked) (hc : ∀ q, t'.children q = t.children q)
    (hp : ∀ x, t'.parent? x = t.parent? x) : t'.Linked where
  mem_children_iff := by
    intro x q
    rw [hc, hp]
    exact h.mem_children_iff x q
  nodup_children := by
    intro q
    rw [hc]
    exact h.nodup_children q

theorem log (h : t.Linked) (e : Edit) : (t.log e).Linked :=
  h.of_same_links (fun _ => rfl) fun _ => rfl

/-- Nobody lists a node without a parent. -/
theorem not_mem_children (h : t.Linked) (hc : t.parent? c = none) (q : NodeId) :
    c ∉ t.children q := by
  intro hq
  rw [h.mem_children_iff, hc] at hq
  cases hq

end Linked

/-! ## §2. One side at a time -/

theorem children_log (t : LiveTree) (e : Edit) (q : NodeId) :
    (t.log e).children q = t.children q := rfl

theorem parent?_log (t : LiveTree) (e : Edit) (x : NodeId) :
    (t.log e).parent? x = t.parent? x := rfl

/-- What an update of the children does; it must not invent children of a missing node. -/
theorem children_updateChildren {f : List NodeId → List NodeId}
    (h : t.exists? p = true ∨ f [] = []) (q : NodeId) :
    (t.update p fun s => { s with children := f s.children }).children q =
      if q = p then f (t.children q) else t.children q := by
  rw [children, slot?_update]
  by_cases hq : q = p
  · subst hq
    cases hs : t.slot? q with
    | none =>
      have hf : f [] = [] := h.resolve_left (by simp [exists?, hs])
      simp [children, hs, hf]
    | some s => simp [children, hs]
  · simp [hq, children]

theorem parent?_updateChildren (f : List NodeId → List NodeId) (x : NodeId) :
    (t.update p fun s => { s with children := f s.children }).parent? x = t.parent? x := by
  rw [parent?, slot?_update]
  split
  · cases hs : t.slot? x <;> simp [parent?, hs]
  · rfl

theorem children_updateParent (o : Option NodeId) (q : NodeId) :
    (t.update c fun s => { s with parent := o }).children q = t.children q := by
  rw [children, slot?_update]
  split
  · cases hs : t.slot? q <;> simp [children, hs]
  · rfl

/-- What an update of the parent does; a missing node has no parent anyway. -/
theorem parent?_updateParent {o : Option NodeId} (h : t.exists? c = true ∨ o = none)
    (x : NodeId) :
    (t.update c fun s => { s with parent := o }).parent? x =
      if x = c then o else t.parent? x := by
  rw [parent?, slot?_update]
  by_cases hx : x = c
  · subst hx
    cases hs : t.slot? x with
    | none =>
      have ho : o = none := h.resolve_left (by simp [exists?, hs])
      simp [ho]
    | some s => simp
  · simp [hx, parent?]

@[simp] theorem exists?_detach (t : LiveTree) (c n : NodeId) :
    (t.detach c).exists? n = t.exists? n := by
  rw [Bool.eq_iff_iff, exists?_iff, exists?_iff, size_detach]

/-! ## §3. Moving a node -/

theorem parent?_detach (t : LiveTree) (c x : NodeId) :
    (t.detach c).parent? x = if x = c then none else t.parent? x := by
  cases hc : t.parent? c with
  | none =>
    rw [detach_of_parent?_eq_none hc]
    split
    · next h => rw [h, hc]
    · rfl
  | some p =>
    simp only [detach, hc]
    rw [parent?_updateParent (Or.inr rfl)]
    rw [parent?_updateChildren (fun l => l.filter (· != c))]

namespace Linked

/-- A detached node is listed nowhere: nobody but its parent listed it. -/
theorem children_detach (h : t.Linked) (c q : NodeId) :
    (t.detach c).children q = (t.children q).filter (· != c) := by
  have hfilter : t.parent? c ≠ some q → (t.children q).filter (· != c) = t.children q := by
    intro hq
    have hc : c ∉ t.children q := fun hm => hq ((h.mem_children_iff c q).mp hm)
    exact List.filter_eq_self.mpr fun a ha => by simpa using ne_of_mem_of_not_mem ha hc
  cases hc : t.parent? c with
  | none => rw [detach_of_parent?_eq_none hc, hfilter (by simp [hc])]
  | some p =>
    simp only [detach, hc]
    rw [children_updateParent]
    rw [children_updateChildren (f := fun l => l.filter (· != c)) (Or.inr rfl)]
    split
    · rfl
    · next hqp => exact (hfilter (by simp [hc, Ne.symm hqp])).symm

theorem detach (h : t.Linked) (c : NodeId) : (t.detach c).Linked where
  mem_children_iff := by
    intro x q
    rw [h.children_detach, parent?_detach, List.mem_filter, h.mem_children_iff]
    by_cases hx : x = c <;> simp [hx]
  nodup_children := by
    intro q
    rw [h.children_detach]
    exact (h.nodup_children q).filter _

/-- A node without a parent is attached, be it below itself. -/
theorem attach {i : Nat} (h : t.Linked) (hc : t.parent? c = none) (hpe : t.exists? p = true)
    (hce : t.exists? c = true) (hi : i ≤ (t.children p).length) : (t.attach p i c).Linked := by
  have hchildren : ∀ q, (t.attach p i c).children q =
      if q = p then (t.children q).insertIdx i c else t.children q := by
    intro q
    rw [LiveTree.attach, children_updateParent]
    exact children_updateChildren (f := fun l => l.insertIdx i c) (Or.inl hpe) q
  have hparent : ∀ x, (t.attach p i c).parent? x = if x = c then some p else t.parent? x := by
    intro x
    have hce' : (t.update p fun s =>
        { s with children := s.children.insertIdx i c }).exists? c = true := by
      rw [exists?_iff, size_update]
      exact exists?_iff.mp hce
    rw [LiveTree.attach, parent?_updateParent (Or.inl hce'),
      parent?_updateChildren (fun l => l.insertIdx i c)]
  have hnot := h.not_mem_children hc
  refine ⟨?_, ?_⟩
  · intro x q
    rw [hchildren, hparent]
    by_cases hq : q = p
    · subst hq
      rw [if_pos rfl, List.mem_insertIdx hi, h.mem_children_iff]
      by_cases hx : x = c <;> simp [hx]
    · rw [if_neg hq, h.mem_children_iff]
      by_cases hx : x = c
      · simp [hx, hc, Ne.symm hq]
      · simp [hx]
  · intro q
    rw [hchildren]
    split
    · next hq =>
      rw [(List.perm_insertIdx c (t.children q) (hq ▸ hi)).nodup_iff]
      exact List.nodup_cons.mpr ⟨hnot q, h.nodup_children q⟩
    · exact h.nodup_children q

theorem append (h : t.Linked) (p c : NodeId) : (t.append p c).Linked := by
  unfold LiveTree.append
  split
  · next hex =>
    simp only [Bool.and_eq_true] at hex
    refine ((h.detach c).attach ?_ (by simp [hex]) (by simp [hex]) (Nat.le_refl _)).log _
    rw [parent?_detach, if_pos rfl]
  · exact h

theorem insert (h : t.Linked) (p : NodeId) (i : Nat) (c : NodeId) : (t.insert p i c).Linked := by
  unfold LiveTree.insert
  split
  · next hex =>
    simp only [Bool.and_eq_true] at hex
    refine ((h.detach c).attach ?_ (by simp [hex]) (by simp [hex]) (Nat.min_le_right _ _)).log _
    rw [parent?_detach, if_pos rfl]
  · exact h

theorem remove (h : t.Linked) (p c : NodeId) : (t.remove p c).Linked := by
  unfold LiveTree.remove
  split
  · exact (h.detach c).log _
  · exact h

theorem clearChildren (h : t.Linked) (n : NodeId) : (t.clearChildren n).Linked := by
  unfold LiveTree.clearChildren
  generalize t.children n = cs
  induction cs generalizing t with
  | nil => exact h
  | cons c cs ih => exact ih (h.remove n c)

end Linked

/-! ## §4. Replacing a node -/

section replace

variable {old new : NodeId}

theorem replace_of_childOf (hold : t.ChildOf old p) (hnew : t.exists? new = true) :
    t.replace p old new =
      ((((t.detach new).update p fun s =>
          { s with children := s.children.replace old new }).update old fun s =>
        { s with parent := none }).update new fun s =>
      { s with parent := some p }).log (.replace p old new) := if_pos ⟨hold, hnew⟩

/-- What a replacement that applies does to the children. -/
theorem children_replace_of_childOf (h : t.Linked) (hold : t.ChildOf old p)
    (hnew : t.exists? new = true) (q : NodeId) :
    (t.replace p old new).children q =
      if q = p then ((t.children q).filter (· != new)).replace old new
      else (t.children q).filter (· != new) := by
  rw [replace_of_childOf hold hnew, children_log, children_updateParent, children_updateParent,
    children_updateChildren (f := fun l => l.replace old new) (Or.inr rfl), h.children_detach]

/-- What it does to the parents. A node that replaces itself keeps its parent. -/
theorem parent?_replace_of_childOf (hold : t.ChildOf old p) (hnew : t.exists? new = true)
    (x : NodeId) :
    (t.replace p old new).parent? x =
      if x = new then some p else if x = old then none else t.parent? x := by
  have hlt : new < t.slots.size := exists?_iff.mp hnew
  rw [replace_of_childOf hold hnew, parent?_log,
    parent?_updateParent (Or.inl (by rw [exists?_iff]; simpa using hlt)),
    parent?_updateParent (Or.inr rfl), parent?_updateChildren (fun l => l.replace old new),
    parent?_detach]
  by_cases hx : x = new <;> simp [hx]

theorem Linked.replace (h : t.Linked) (hne : old ≠ new) (p : NodeId) :
    (t.replace p old new).Linked := by
  by_cases hcond : t.parent? old = some p ∧ t.exists? new = true
  · obtain ⟨hold, hnew⟩ := hcond
    -- Without `new`, which may have been a child of `p` as well, `p` still lists `old`.
    have hlinked := h.detach new
    have hmem : old ∈ (t.children p).filter (· != new) := by
      rw [List.mem_filter, h.mem_children_iff]
      exact ⟨hold, by simpa using hne⟩
    have hnodup : ∀ q, ((t.children q).filter (· != new)).Nodup :=
      fun q => (h.nodup_children q).filter _
    have hnot : ∀ q, new ∉ (t.children q).filter (· != new) := by simp
    refine ⟨?_, ?_⟩
    · intro x q
      rw [children_replace_of_childOf h hold hnew, parent?_replace_of_childOf hold hnew]
      by_cases hq : q = p
      · subst hq
        rw [if_pos rfl, mem_replace_iff (hnodup q) hmem, List.mem_filter, h.mem_children_iff]
        by_cases hxn : x = new
        · simp [hxn]
        · by_cases hxo : x = old <;> simp [hxn, hxo]
      · rw [if_neg hq, List.mem_filter, h.mem_children_iff]
        by_cases hxn : x = new
        · simp [hxn, Ne.symm hq]
        · by_cases hxo : x = old
          · subst hxo
            have : ¬ t.parent? x = some q := fun hx => hq (childOf_rightUnique t hx hold)
            simp [hxn, this]
          · simp [hxn, hxo]
    · intro q
      rw [children_replace_of_childOf h hold hnew]
      split
      · next hq => exact nodup_replace (hnodup q) (hq ▸ hmem) (hnot q)
      · exact hnodup q
  · rw [LiveTree.replace, if_neg hcond]
    exact h

/-- A child that replaces itself names a parent that does not list it. -/
theorem not_linked_replace_self (h : t.Linked) (hc : t.ChildOf c p) :
    ¬ (t.replace p c c).Linked := by
  intro hlinked
  have hex : t.exists? c = true := exists?_iff.mpr (lt_of_childOf hc)
  have hparent : (t.replace p c c).parent? c = some p := by
    rw [parent?_replace_of_childOf hc hex, if_pos rfl]
  have hmem : c ∈ (t.replace p c c).children p := (hlinked.mem_children_iff c p).mpr hparent
  rw [children_replace_of_childOf h hc hex, if_pos rfl, List.replace_of_not_mem (by simp)] at hmem
  simp at hmem

end replace

/-! ## §5. Making nodes -/

theorem Linked.create (h : t.Linked) (k : NodeKind) (text : String) : (t.create k text).2.Linked :=
  h.of_same_links (children_create t k text) (parent?_create t k text)

/-- A mount point has the links of an element that was appended to the root. -/
theorem Linked.createMountPoint (h : t.Linked) (hroot : root < t.slots.size) (id : String) :
    (t.createMountPoint id).2.Linked := by
  let k : NodeKind := .element "div"
  obtain ⟨hchildren, hparent⟩ := links_createMountPoint hroot id k
  exact ((h.create k "").append root t.slots.size).of_same_links hchildren hparent

theorem Redressed.linked {t' : LiveTree} (hr : Redressed n t t') (h : t.Linked) : t'.Linked :=
  h.of_same_links hr.all_children_eq hr.all_parent?_eq

/-! ## §6. Operations -/

/-- Everything that changes a live tree. The nodes need not exist. -/
inductive Operation where
  /-- Put an element with an `id` under the root. -/
  | createMountPoint (id : String)
  /-- Make an element. -/
  | createElement (tag : String)
  /-- Make a text. -/
  | createText (text : String)
  /-- Make a comment. -/
  | createComment (text : String)
  /-- Make a node the last child of another. -/
  | append (parent child : NodeId)
  /-- Make a node the child of another at a position. -/
  | insert (parent : NodeId) (index : Nat) (child : NodeId)
  /-- Detach a child from its parent. -/
  | remove (parent child : NodeId)
  /-- Put a node in the place of a child. -/
  | replace (parent old new : NodeId)
  /-- Detach all children. -/
  | clearChildren (node : NodeId)
  /-- Set an attribute. -/
  | setAttribute (node : NodeId) (name value : String)
  /-- Remove an attribute. -/
  | removeAttribute (node : NodeId) (name : String)
  /-- Set a style property or clear it. -/
  | setStyle (node : NodeId) (property : String) (value : Option String)
  /-- Replace the text of a node. -/
  | setText (node : NodeId) (text : String)
  /-- Attach a handler. -/
  | listen (node : NodeId) (event : String) (handler : EventHandler)
  /-- Take a handler away. -/
  | unlisten (node : NodeId) (event : String)
  /-- Empty the log. -/
  | clearLog

namespace Operation

/-- The live tree after an operation. -/
def apply (t : LiveTree) : Operation → LiveTree
  | createMountPoint id => (t.createMountPoint id).2
  | createElement tag => (t.createElement tag).2
  | createText text => (t.createText text).2
  | createComment text => (t.createComment text).2
  | append parent child => t.append parent child
  | insert parent index child => t.insert parent index child
  | remove parent child => t.remove parent child
  | replace parent old new => t.replace parent old new
  | clearChildren n => t.clearChildren n
  | setAttribute n name value => t.setAttribute n name value
  | removeAttribute n name => t.removeAttribute n name
  | setStyle n property value => t.setStyle n property value
  | setText n text => t.setText n text
  | listen n event handler => t.listen n event handler
  | unlisten n event => t.unlisten n event
  | clearLog => t.clearLog

/-- Whether an operation puts a child in its own place. -/
def ReplacesByItself (t : LiveTree) (op : Operation) : Prop :=
  ∃ p c, op = replace p c c ∧ t.ChildOf c p

theorem size_le_apply (t : LiveTree) (op : Operation) : t.slots.size ≤ (op.apply t).slots.size := by
  cases op with
  | createMountPoint id => simp [apply, LiveTree.createMountPoint, alloc]
  | createElement tag => simp [apply, LiveTree.createElement]
  | createText text => simp [apply, LiveTree.createText]
  | createComment text => simp [apply, LiveTree.createComment]
  | append p c => simp [apply]
  | insert p i c =>
    simp only [apply, LiveTree.insert]
    split <;> simp [attach]
  | remove p c => simp [apply]
  | replace p old new => simp [apply]
  | clearChildren n =>
    simp only [apply, LiveTree.clearChildren]
    generalize t.children n = cs
    induction cs generalizing t with
    | nil => exact Nat.le_refl _
    | cons c cs ih => simpa using ih (t.remove n c)
  | setAttribute n name value => exact (redressed_setAttribute t n name value).sameOff.size_le
  | removeAttribute n name => exact (redressed_removeAttribute t n name).sameOff.size_le
  | setStyle n property value => exact (redressed_setStyle t n property value).sameOff.size_le
  | setText n text => exact (redressed_setText t n text).sameOff.size_le
  | listen n event handler => exact (redressed_listen t n event handler).sameOff.size_le
  | unlisten n event => exact (redressed_unlisten t n event).sameOff.size_le
  | clearLog => exact Nat.le_refl _

/-- **One operation** keeps the agreement, unless it puts a child in its own place. -/
theorem linked_apply_iff (h : t.Linked) (hroot : root < t.slots.size) (op : Operation) :
    (op.apply t).Linked ↔ ¬ op.ReplacesByItself t := by
  constructor
  · rintro hlinked ⟨p, c, rfl, hc⟩
    exact not_linked_replace_self h hc hlinked
  · intro hop
    cases op with
    | createMountPoint id => exact h.createMountPoint hroot id
    | createElement tag => exact h.create _ _
    | createText text => exact h.create _ _
    | createComment text => exact h.create _ _
    | append p c => exact h.append p c
    | insert p i c => exact h.insert p i c
    | remove p c => exact h.remove p c
    | replace p old new =>
      by_cases hne : old = new
      · -- A node that is no child of `p` is not replaced at all.
        subst hne
        have hc : ¬ t.parent? old = some p := fun hc => hop ⟨p, old, rfl, hc⟩
        rw [apply, LiveTree.replace, if_neg fun hcond => hc hcond.1]
        exact h
      · exact h.replace hne p
    | clearChildren n => exact h.clearChildren n
    | setAttribute n name value => exact (redressed_setAttribute t n name value).linked h
    | removeAttribute n name => exact (redressed_removeAttribute t n name).linked h
    | setStyle n property value => exact (redressed_setStyle t n property value).linked h
    | setText n text => exact (redressed_setText t n text).linked h
    | listen n event handler => exact (redressed_listen t n event handler).linked h
    | unlisten n event => exact (redressed_unlisten t n event).linked h
    | clearLog => exact h.of_same_links (fun _ => rfl) fun _ => rfl

end Operation

/-! ## §7. Sequences of operations -/

/-- The live tree that operations make of one with nothing but its root. -/
def after (ops : List Operation) : LiveTree := ops.foldl Operation.apply initial

theorem after_append_singleton (ops : List Operation) (op : Operation) :
    after (ops ++ [op]) = op.apply (after ops) := by
  simp [after]

/-- The root stays. -/
theorem root_lt_size_after (ops : List Operation) : root < (after ops).slots.size := by
  induction ops using List.reverseRecOn with
  | nil => decide
  | append_singleton ops op ih =>
    rw [after_append_singleton]
    exact Nat.lt_of_lt_of_le ih (op.size_le_apply _)

/-- **The two sides of every link agree** all along a sequence of operations, on whatever nodes, if
    and only if none of them puts a child in its own place. -/
theorem linked_throughout_iff (ops : List Operation) :
    (∀ done rest, ops = done ++ rest →
        (∀ c p, c ∈ (after done).children p ↔ (after done).parent? c = some p) ∧
          ∀ p, ((after done).children p).Nodup) ↔
      ∀ done op rest, ops = done ++ op :: rest → ¬ op.ReplacesByItself (after done) := by
  constructor
  · intro h done op rest hops
    have hbefore := h done (op :: rest) hops
    have hafter := h (done ++ [op]) rest (by simp [hops])
    rw [after_append_singleton] at hafter
    exact (op.linked_apply_iff ⟨hbefore.1, hbefore.2⟩ (root_lt_size_after done)).mp
      ⟨hafter.1, hafter.2⟩
  · intro h done rest hops
    suffices hlinked : (after done).Linked from ⟨hlinked.mem_children_iff, hlinked.nodup_children⟩
    -- By induction on what was done: the last operation found the links in agreement.
    induction done using List.reverseRecOn generalizing rest with
    | nil => exact wellFormed_initial.linked
    | append_singleton done op ih =>
      have hops' : ops = done ++ op :: rest := by simpa using hops
      rw [after_append_singleton]
      exact (op.linked_apply_iff (ih _ hops') (root_lt_size_after done)).mpr (h _ _ _ hops')

/-- An element under the root that is put in its own place: it names the root, which lists
    nobody. -/
theorem not_linked_after_replace_self :
    ¬ ∀ c p, c ∈ (after [.createElement "p", .append 0 1, .replace 0 1 1]).children p ↔
      (after [.createElement "p", .append 0 1, .replace 0 1 1]).parent? c = some p := by
  intro h
  have hparent : (after [.createElement "p", .append 0 1, .replace 0 1 1]).parent? 1 = some 0 := by
    decide
  have hmem := (h 1 0).mpr hparent
  revert hmem
  decide

end ReactiveView.LiveTree
