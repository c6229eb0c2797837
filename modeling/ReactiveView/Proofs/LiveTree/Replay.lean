import ReactiveView.Proofs.LiveTree.Links

/-! # Replaying the log

  The log names every change, so the tree can be made again from the tree that
  was there before: each edit is carried out as the operation of its name, and
  a recorded node is made in the next place. What the log does not hold cannot
  be made again, which are the handlers and the texts with which leaves were
  made.

  * `Edit.replay`, `replay`: carrying out one edit and a whole log.
  * `Reproduced`: a tree that was made again from the log of another one.
  * `Operation.recorded_apply`: what one operation logs reproduces it.
  * `replay_edits`: so does the log of a sequence of operations; and an operation
    that logs nothing changes nothing.
-/

namespace ReactiveView

/-! ## §1. Slots alike -/

/-- Two slots are alike if only texts and handlers differ, and only those that need not be known:
    the text of an element always is. -/
structure Slot.Alike (text : Prop) (handler : String → Prop) (s s' : Slot) : Prop where
  /-- The kinds are the same. -/
  kind_eq : s'.kind = s.kind
  /-- A known text is the same. -/
  text_eq : (text ∨ ∃ tag, s.kind = .element tag) → s'.text = s.text
  /-- The attributes are the same. -/
  attrs_eq : s'.attrs = s.attrs
  /-- The styles are the same. -/
  style_eq : s'.style = s.style
  /-- There are handlers for the same events. -/
  keys_eq : s'.listeners.keys = s.listeners.keys
  /-- A known handler is the same. -/
  find?_eq : ∀ event, handler event → s'.listeners.find? event = s.listeners.find? event
  /-- The children are the same. -/
  children_eq : s'.children = s.children
  /-- The parents are the same. -/
  parent_eq : s'.parent = s.parent

namespace Slot.Alike

variable {text text' : Prop} {handler handler' : String → Prop} {s s' : Slot}

theorem refl (text : Prop) (handler : String → Prop) (s : Slot) : s.Alike text handler s :=
  ⟨rfl, fun _ => rfl, rfl, rfl, rfl, fun _ _ => rfl, rfl, rfl⟩

theorem mono (h : s.Alike text handler s') (htext : text' → text)
    (hhandler : ∀ event, handler' event → handler event) : s.Alike text' handler' s' where
  __ := h
  text_eq := fun ht => h.text_eq (ht.imp_left htext)
  find?_eq := fun event he => h.find?_eq event (hhandler event he)

theorem listen (h : s.Alike text handler s') (event : String) (g g' : EventHandler) :
    { s with listeners := s.listeners.insert event g }.Alike text
      (fun e => handler e ∧ e ≠ event)
      { s' with listeners := s'.listeners.insert event g' } where
  __ := h
  keys_eq := by simp only [OrderedMap.keys_insert, h.keys_eq]
  find?_eq := by
    rintro e ⟨he, hne⟩
    simp only [OrderedMap.find?_insert_ne _ _ hne, h.find?_eq e he]

theorem unlisten (h : s.Alike text handler s') (event : String) :
    { s with listeners := s.listeners.erase event }.Alike text handler
      { s' with listeners := s'.listeners.erase event } where
  __ := h
  keys_eq := by simp only [OrderedMap.keys_erase, h.keys_eq]
  find?_eq := by
    intro e he
    by_cases hne : e = event
    · simp [hne]
    · simp only [OrderedMap.find?_erase_ne _ hne, h.find?_eq e he]

end Slot.Alike

/-! ## §2. Carrying out edits -/

namespace LiveTree

/-- The kind of a node that was recorded with a label. -/
def kindOfLabel (label : String) : NodeKind :=
  if label = "#text" then .text else if label = "#comment" then .comment else .element label

theorem kindOfLabel_kindLabel {k : NodeKind}
    (h : ∀ tag, k = .element tag → tag ≠ "#text" ∧ tag ≠ "#comment") :
    kindOfLabel (kindLabel k) = k := by
  cases k with
  | element tag =>
    obtain ⟨htext, hcomment⟩ := h tag rfl
    rw [kindLabel, kindOfLabel, if_neg htext, if_neg hcomment]
  | text => rfl
  | comment => rfl

end LiveTree

/-- The operation of an edit's name. A node is made in the next place, a leaf without a text, and
    one handler stands in for all. -/
def Edit.replay (standIn : EventHandler) (t : LiveTree) : Edit → LiveTree
  | create _ label => (t.create (LiveTree.kindOfLabel label) "").2
  | setAttribute n name value => t.setAttribute n name value
  | removeAttribute n name => t.removeAttribute n name
  | setStyle n property value => t.setStyle n property value
  | setText n text => t.setText n text
  | append parent child => t.append parent child
  | insert parent index child => t.insert parent index child
  | remove parent child => t.remove parent child
  | replace parent old new => t.replace parent old new
  | listen n event => t.listen n event standIn
  | unlisten n event => t.unlisten n event

namespace LiveTree

/-- All edits of a log, in order. -/
def replay (standIn : EventHandler) (t : LiveTree) (es : List Edit) : LiveTree :=
  es.foldl (Edit.replay standIn) t

/-! ## §3. Reproduced trees -/

variable {t t' u : LiveTree} {n p c : NodeId} {old : Nat}

/-- The text of a node is known if the node is one of the `old` ones that were there when the log
    began, or if a text was given to it since. -/
def KnownText (old : Nat) (t : LiveTree) (n : NodeId) : Prop :=
  n < old ∨ ∃ x, .setText n x ∈ t.edits

/-- A handler is known if none was attached since the log began. -/
def KnownHandler (t : LiveTree) (n : NodeId) (event : String) : Prop := .listen n event ∉ t.edits

/-- The tree `t'` was made again from the log of `t`, which began when there were `old` nodes. -/
structure Reproduced (old : Nat) (t t' : LiveTree) : Prop where
  /-- No node was lost. -/
  old_le : old ≤ t.slots.size
  /-- Texts were given to nodes that exist. -/
  setText_lt : ∀ n x, .setText n x ∈ t.edits → n < t.slots.size
  /-- The logs are the same. -/
  edits_eq : t'.edits = t.edits
  /-- There are the same nodes. -/
  size_eq : t'.slots.size = t.slots.size
  /-- Every node is alike, up to what is not known. -/
  alike : ∀ n s s', t.slot? n = some s → t'.slot? n = some s' →
    s.Alike (KnownText old t n) (KnownHandler t n) s'

theorem KnownText.of_log {e : Edit} (he : ∀ x, e ≠ .setText n x)
    (h : KnownText old (t.log e) n) : KnownText old t n := by
  refine h.imp_right ?_
  rintro ⟨x, hx⟩
  rcases List.mem_append.mp hx with hx | hx
  · exact ⟨x, hx⟩
  · exact absurd (List.mem_singleton.mp hx).symm (he x)

theorem KnownHandler.of_log {e : Edit} {event : String} (h : KnownHandler (t.log e) n event) :
    KnownHandler t n event := fun hm => h (List.mem_append_left _ hm)

namespace Reproduced

theorem refl (h : t.edits = []) : Reproduced t.slots.size t t where
  old_le := Nat.le_refl _
  setText_lt := by simp [h]
  edits_eq := rfl
  size_eq := rfl
  alike := by
    intro n s s' hs hs'
    obtain rfl := Option.some.inj (hs.symm.trans hs')
    exact .refl _ _ s

/-- What both trees hold for a node. -/
theorem slot?_cases (h : Reproduced old t t') (n : NodeId) :
    t.slot? n = none ∧ t'.slot? n = none ∨
      ∃ s s', t.slot? n = some s ∧ t'.slot? n = some s' ∧
        s.Alike (KnownText old t n) (KnownHandler t n) s' := by
  by_cases hn : n < t.slots.size
  · obtain ⟨s, hs⟩ := exists_slot_of_lt hn
    obtain ⟨s', hs'⟩ := exists_slot_of_lt (h.size_eq ▸ hn : n < t'.slots.size)
    exact .inr ⟨s, s', hs, hs', h.alike n s s' hs hs'⟩
  · refine .inl ⟨slot?_eq_none_iff.mpr (Nat.le_of_not_lt hn), slot?_eq_none_iff.mpr ?_⟩
    rw [h.size_eq]
    exact Nat.le_of_not_lt hn

theorem exists?_eq (h : Reproduced old t t') (n : NodeId) : t'.exists? n = t.exists? n := by
  rw [Bool.eq_iff_iff, exists?_iff, exists?_iff, h.size_eq]

theorem parent?_eq (h : Reproduced old t t') (n : NodeId) : t'.parent? n = t.parent? n := by
  rcases h.slot?_cases n with ⟨hs, hs'⟩ | ⟨s, s', hs, hs', halike⟩
  · simp [parent?, hs, hs']
  · rw [parent?_of_slot? hs, parent?_of_slot? hs', halike.parent_eq]

theorem children_eq (h : Reproduced old t t') (n : NodeId) : t'.children n = t.children n := by
  rcases h.slot?_cases n with ⟨hs, hs'⟩ | ⟨s, s', hs, hs', halike⟩
  · simp [children, hs, hs']
  · rw [children_of_slot? hs, children_of_slot? hs', halike.children_eq]

theorem isSome_listener?_eq (h : Reproduced old t t') (n : NodeId) (event : String) :
    (t'.listener? n event).isSome = (t.listener? n event).isSome := by
  rcases h.slot?_cases n with ⟨hs, hs'⟩ | ⟨s, s', hs, hs', halike⟩
  · simp [listener?, hs, hs']
  · simp [listener?, hs, hs', OrderedMap.isSome_find?_congr halike.keys_eq]

/-! ### One update and one entry of the log -/

/-- An update on both sides. -/
theorem update (h : Reproduced old t t') (n : NodeId) {f f' : Slot → Slot}
    (hf : ∀ s s', s.Alike (KnownText old t n) (KnownHandler t n) s' →
      (f s).Alike (KnownText old t n) (KnownHandler t n) (f' s')) :
    Reproduced old (t.update n f) (t'.update n f') where
  old_le := by simpa using h.old_le
  setText_lt := by simpa using h.setText_lt
  edits_eq := h.edits_eq
  size_eq := by simpa using h.size_eq
  alike := by
    intro m r r' hr hr'
    rw [slot?_update] at hr hr'
    split at hr
    · next hm =>
      subst hm
      rw [if_pos rfl] at hr'
      obtain ⟨s, hs, rfl⟩ := Option.map_eq_some_iff.mp hr
      obtain ⟨s', hs', rfl⟩ := Option.map_eq_some_iff.mp hr'
      exact hf s s' (h.alike m s s' hs hs')
    · next hm =>
      rw [if_neg hm] at hr'
      exact h.alike m r r' hr hr'

/-- An edit is recorded on both sides that makes no text known. -/
theorem log (h : Reproduced old t t') {e : Edit} (he : ∀ n x, e ≠ .setText n x) :
    Reproduced old (t.log e) (t'.log e) where
  old_le := h.old_le
  setText_lt := by
    intro n x hx
    rcases List.mem_append.mp hx with hx | hx
    · exact h.setText_lt n x hx
    · exact absurd (List.mem_singleton.mp hx).symm (he n x)
  edits_eq := by rw [edits_log, edits_log, h.edits_eq]
  size_eq := h.size_eq
  alike := fun n s s' hs hs' =>
    (h.alike n s s' hs hs').mono (KnownText.of_log (he n)) fun _ => KnownHandler.of_log

/-- A change on both sides that makes no text known. The edit is recorded first, since it may make
    a handler unknown. -/
theorem change (h : Reproduced old t t') (n : NodeId) {f f' : Slot → Slot} {e : Edit}
    (he : ∀ n x, e ≠ .setText n x)
    (hf : ∀ s s', s.Alike (KnownText old (t.log e) n) (KnownHandler (t.log e) n) s' →
      (f s).Alike (KnownText old (t.log e) n) (KnownHandler (t.log e) n) (f' s')) :
    Reproduced old (t.change n f e) (t'.change n f' e) := by
  rw [LiveTree.change, LiveTree.change, h.exists?_eq]
  split
  · exact (h.log he).update n hf
  · exact h

/-! ### Operations on one node -/

theorem setAttribute (h : Reproduced old t t') (n : NodeId) (name value : String) :
    Reproduced old (t.setAttribute n name value) (t'.setAttribute n name value) := by
  refine h.change n (by simp) ?_
  intro s s' halike
  split
  · exact { halike with style_eq := rfl }
  · exact { halike with attrs_eq := by rw [halike.attrs_eq] }

theorem removeAttribute (h : Reproduced old t t') (n : NodeId) (name : String) :
    Reproduced old (t.removeAttribute n name) (t'.removeAttribute n name) := by
  refine h.change n (by simp) ?_
  intro s s' halike
  split
  · exact { halike with style_eq := rfl }
  · exact { halike with attrs_eq := by rw [halike.attrs_eq] }

theorem setStyle (h : Reproduced old t t') (n : NodeId) (property : String)
    (value : Option String) :
    Reproduced old (t.setStyle n property value) (t'.setStyle n property value) := by
  refine h.change n (by simp) ?_
  intro s s' halike
  cases value with
  | none => exact { halike with style_eq := by rw [halike.style_eq] }
  | some v => exact { halike with style_eq := by rw [halike.style_eq] }

theorem listen (h : Reproduced old t t') (n : NodeId) (event : String) (g g' : EventHandler) :
    Reproduced old (t.listen n event g) (t'.listen n event g') := by
  refine h.change n (by simp) ?_
  intro s s' halike
  refine (halike.listen event g g').mono id ?_
  intro e he
  refine ⟨he, ?_⟩
  rintro rfl
  exact he (List.mem_append_right _ List.mem_cons_self)

theorem unlisten (h : Reproduced old t t') (n : NodeId) (event : String) :
    Reproduced old (t.unlisten n event) (t'.unlisten n event) := by
  rw [LiveTree.unlisten, LiveTree.unlisten, h.isSome_listener?_eq]
  split
  · exact h.change n (by simp) fun s s' halike => halike.unlisten event
  · exact h

/-- The one operation that makes a text known. -/
theorem setText (h : Reproduced old t t') (n : NodeId) (x : String) :
    Reproduced old (t.setText n x) (t'.setText n x) := by
  rw [LiveTree.setText, LiveTree.setText, LiveTree.change, LiveTree.change, h.exists?_eq]
  split
  · next hn =>
    have hupdate : Reproduced old (t.update n fun s => { s with text := x })
        (t'.update n fun s => { s with text := x }) :=
      h.update n fun s s' halike => { halike with text_eq := fun _ => rfl }
    refine ⟨hupdate.old_le, ?_, ?_, hupdate.size_eq, ?_⟩
    · intro m y hy
      rcases List.mem_append.mp hy with hy | hy
      · exact hupdate.setText_lt m y hy
      · obtain ⟨rfl, -⟩ := Edit.setText.inj (List.mem_singleton.mp hy)
        simpa using exists?_iff.mp hn
    · rw [edits_log, edits_log, hupdate.edits_eq]
    · intro m s s' hs hs'
      have halike := hupdate.alike m s s' hs hs'
      by_cases hm : m = n
      · subst hm
        rw [slot?_log, slot?_update_self] at hs hs'
        obtain ⟨r, -, rfl⟩ := Option.map_eq_some_iff.mp hs
        obtain ⟨r', -, rfl⟩ := Option.map_eq_some_iff.mp hs'
        exact { halike with
          text_eq := fun _ => rfl
          find?_eq := fun event he => halike.find?_eq event he.of_log }
      · have hother : ∀ y, Edit.setText n x ≠ .setText m y :=
          fun y he => hm (Edit.setText.inj he).1.symm
        exact halike.mono (KnownText.of_log hother) fun _ => KnownHandler.of_log
  · exact h

/-! ### Making nodes -/

/-- The text of a leaf that is made is not known. -/
theorem create (h : Reproduced old t t') {k : NodeKind} {x x' : String}
    (hx : ∀ tag, k = .element tag → x' = x) :
    Reproduced old (t.create k x).2 (t'.create k x').2 := by
  have hlog : ∀ n y, Edit.create t.slots.size (kindLabel k) ≠ .setText n y := by simp
  have hlogged := h.log hlog
  refine ⟨?_, ?_, ?_, ?_, ?_⟩
  · rw [size_create]
    exact Nat.le_succ_of_le h.old_le
  · intro n y hy
    rw [size_create]
    exact Nat.lt_succ_of_lt (hlogged.setText_lt n y hy)
  · show t'.edits ++ [.create t'.slots.size (kindLabel k)] =
      t.edits ++ [.create t.slots.size (kindLabel k)]
    rw [h.edits_eq, h.size_eq]
  · rw [size_create, size_create, h.size_eq]
  · intro n s s' hs hs'
    rw [slot?_create] at hs hs'
    rw [h.size_eq] at hs'
    split at hs
    · next hn =>
      rw [if_pos hn] at hs'
      obtain rfl := Option.some.inj hs
      obtain rfl := Option.some.inj hs'
      refine ⟨rfl, ?_, rfl, rfl, rfl, fun _ _ => rfl, rfl, rfl⟩
      rintro ((hold | ⟨y, hy⟩) | ⟨tag, htag⟩)
      · exact absurd (hn ▸ hold) (Nat.not_lt_of_le h.old_le)
      · exact absurd (hn ▸ hlogged.setText_lt n y hy) (Nat.lt_irrefl _)
      · exact hx tag htag
    · next hn =>
      rw [if_neg hn] at hs'
      exact hlogged.alike n s s' hs hs'

/-! ### Structure -/

theorem updateChildren (h : Reproduced old t t') (p : NodeId) {f f' : List NodeId → List NodeId}
    (hf : f = f') :
    Reproduced old (t.update p fun s => { s with children := f s.children })
      (t'.update p fun s => { s with children := f' s.children }) :=
  h.update p fun _ _ halike => { halike with children_eq := by rw [halike.children_eq, hf] }

theorem updateParent (h : Reproduced old t t') (c : NodeId) (o : Option NodeId) :
    Reproduced old (t.update c fun s => { s with parent := o })
      (t'.update c fun s => { s with parent := o }) :=
  h.update c fun _ _ halike => { halike with parent_eq := rfl }

theorem detach (h : Reproduced old t t') (c : NodeId) :
    Reproduced old (t.detach c) (t'.detach c) := by
  rw [LiveTree.detach, LiveTree.detach, h.parent?_eq]
  split
  · next p _ =>
    exact (h.updateChildren p (f := fun l => l.filter (· != c)) rfl).updateParent c none
  · exact h

theorem attach (h : Reproduced old t t') (p : NodeId) (i : Nat) (c : NodeId) :
    Reproduced old (t.attach p i c) (t'.attach p i c) :=
  (h.updateChildren p (f := fun l => l.insertIdx i c) rfl).updateParent c (some p)

theorem append (h : Reproduced old t t') (p c : NodeId) :
    Reproduced old (t.append p c) (t'.append p c) := by
  have hdetach := h.detach c
  rw [LiveTree.append, LiveTree.append, h.exists?_eq, h.exists?_eq]
  split
  · simp only [hdetach.children_eq]
    exact (hdetach.attach p _ c).log (by simp)
  · exact h

theorem insert (h : Reproduced old t t') (p : NodeId) (i : Nat) (c : NodeId) :
    Reproduced old (t.insert p i c) (t'.insert p i c) := by
  have hdetach := h.detach c
  rw [LiveTree.insert, LiveTree.insert, h.exists?_eq, h.exists?_eq]
  split
  · simp only [hdetach.children_eq]
    exact (hdetach.attach p _ c).log (by simp)
  · exact h

theorem remove (h : Reproduced old t t') (p c : NodeId) :
    Reproduced old (t.remove p c) (t'.remove p c) := by
  rw [LiveTree.remove, LiveTree.remove, h.parent?_eq]
  split
  · exact (h.detach c).log (by simp)
  · exact h

theorem replace (h : Reproduced old t t') (p a b : NodeId) :
    Reproduced old (t.replace p a b) (t'.replace p a b) := by
  rw [LiveTree.replace, LiveTree.replace, h.parent?_eq, h.exists?_eq]
  split
  · have hplaced := (h.detach b).updateChildren p (f := fun l => l.replace a b) rfl
    exact ((hplaced.updateParent a none).updateParent b (some p)).log (by simp)
  · exact h

end Reproduced

/-! ## §4. Recorded changes -/

/-- What `u` has logged since `t` leads from any tree that was made again from the log of `t` to
    one that was made again from the log of `u`; and nothing changed if nothing was logged. -/
def Recorded (standIn : EventHandler) (t u : LiveTree) : Prop :=
  ∃ es, u.edits = t.edits ++ es ∧ (es = [] → u = t) ∧
    ∀ old t', Reproduced old t t' → Reproduced old u (t'.replay standIn es)

namespace Recorded

variable {standIn : EventHandler} {v : LiveTree}

theorem refl (standIn : EventHandler) (t : LiveTree) : Recorded standIn t t :=
  ⟨[], by simp, fun _ => rfl, fun _ _ h => h⟩

theorem trans (h : Recorded standIn t u) (h' : Recorded standIn u v) : Recorded standIn t v := by
  obtain ⟨es, hlog, hsame, hreplay⟩ := h
  obtain ⟨es', hlog', hsame', hreplay'⟩ := h'
  refine ⟨es ++ es', by rw [hlog', hlog, List.append_assoc], ?_, ?_⟩
  · intro hnil
    obtain ⟨rfl, rfl⟩ := List.append_eq_nil_iff.mp hnil
    exact (hsame' rfl).trans (hsame rfl)
  · intro old t' hrep
    rw [replay, List.foldl_append]
    exact hreplay' old _ (hreplay old t' hrep)

/-- One edit was recorded, or the tree is the same. -/
theorem single {e : Edit} (h : u = t ∨ u.edits = t.edits ++ [e])
    (hreplay : ∀ old t', Reproduced old t t' → Reproduced old u (e.replay standIn t')) :
    Recorded standIn t u := by
  rcases h with rfl | h
  · exact refl standIn u
  · exact ⟨[e], h, by simp, hreplay⟩

/-- A change that is replayed as one on the other side. -/
theorem change {f : Slot → Slot} {e : Edit}
    (hreplay : ∀ old t', Reproduced old t t' →
      Reproduced old (t.change n f e) (e.replay standIn t')) :
    Recorded standIn t (t.change n f e) := by
  refine single ?_ hreplay
  unfold LiveTree.change
  split
  · exact .inr rfl
  · exact .inl rfl

/-- A node that is made, unless its label is misread. -/
theorem create {k : NodeKind} {x : String}
    (hk : ∀ tag, k = .element tag → x = "" ∧ tag ≠ "#text" ∧ tag ≠ "#comment") :
    Recorded standIn t (t.create k x).2 := by
  refine single (e := .create t.slots.size (kindLabel k)) (.inr rfl) ?_
  intro old t' h
  rw [Edit.replay, kindOfLabel_kindLabel fun tag htag => (hk tag htag).2]
  exact h.create fun tag htag => (hk tag htag).1.symm

theorem append (p c : NodeId) : Recorded standIn t (t.append p c) := by
  refine single (e := .append p c) ?_ fun old t' h => h.append p c
  unfold LiveTree.append
  split
  · exact .inr (by rw [edits_log]; exact congrArg (· ++ _) (edits_detach t c))
  · exact .inl rfl

/-- The position is recorded as it was after the node was detached. -/
theorem insert (p : NodeId) (i : Nat) (c : NodeId) : Recorded standIn t (t.insert p i c) := by
  refine single (e := .insert p (min i ((t.detach c).children p).length) c) ?_ ?_
  · unfold LiveTree.insert
    split
    · exact .inr (by rw [edits_log]; exact congrArg (· ++ _) (edits_detach t c))
    · exact .inl rfl
  · intro old t' h
    have hsame : t'.insert p (min i ((t.detach c).children p).length) c = t'.insert p i c := by
      rw [LiveTree.insert, LiveTree.insert]
      simp only [(h.detach c).children_eq, Nat.min_assoc, Nat.min_self]
    rw [Edit.replay, hsame]
    exact h.insert p i c

theorem remove (p c : NodeId) : Recorded standIn t (t.remove p c) := by
  refine single (e := .remove p c) ?_ fun old t' h => h.remove p c
  unfold LiveTree.remove
  split
  · exact .inr (by rw [edits_log, edits_detach])
  · exact .inl rfl

theorem replace (p a b : NodeId) : Recorded standIn t (t.replace p a b) := by
  refine single (e := .replace p a b) ?_ fun old t' h => h.replace p a b
  unfold LiveTree.replace
  split
  · exact .inr (by simp [edits_detach])
  · exact .inl rfl

theorem unlisten (n : NodeId) (event : String) : Recorded standIn t (t.unlisten n event) := by
  refine single (e := .unlisten n event) ?_ fun old t' h => h.unlisten n event
  unfold LiveTree.unlisten LiveTree.change
  split
  · split
    · exact .inr rfl
    · exact .inl rfl
  · exact .inl rfl

/-- One removal after the other. -/
theorem clearChildren (n : NodeId) : Recorded standIn t (t.clearChildren n) := by
  rw [LiveTree.clearChildren]
  generalize t.children n = cs
  induction cs generalizing t with
  | nil => exact refl standIn t
  | cons c cs ih => exact (remove n c).trans ih

end Recorded

/-! ## §5. Operations -/

namespace Operation

/-- Whether an operation is one of those that a host must have: all but two for its owner. -/
def OfHost : Operation → Prop
  | createMountPoint _ => False
  | clearLog => False
  | _ => True

/-- Whether an element is made that is labelled as a leaf. -/
def Mislabels (op : Operation) : Prop :=
  ∃ tag, op = createElement tag ∧
    (Text.lowerAsciiText tag = "#text" ∨ Text.lowerAsciiText tag = "#comment")

/-- **One operation**, on whatever nodes, is recorded. -/
theorem recorded_apply {op : Operation} (hhost : op.OfHost) (hlabel : ¬ op.Mislabels)
    (standIn : EventHandler) (t : LiveTree) : Recorded standIn t (op.apply t) := by
  cases op with
  | createMountPoint id => exact hhost.elim
  | createElement tag =>
    refine Recorded.create ?_
    rintro _ ⟨⟩
    refine ⟨rfl, ?_, ?_⟩
    · exact fun h => hlabel ⟨tag, rfl, .inl h⟩
    · exact fun h => hlabel ⟨tag, rfl, .inr h⟩
  | createText x => exact Recorded.create (by simp)
  | createComment x => exact Recorded.create (by simp)
  | append p c => exact .append p c
  | insert p i c => exact .insert p i c
  | remove p c => exact .remove p c
  | replace p a b => exact .replace p a b
  | clearChildren n => exact .clearChildren n
  | setAttribute n name value => exact .change fun _ _ h => h.setAttribute n name value
  | removeAttribute n name => exact .change fun _ _ h => h.removeAttribute n name
  | setStyle n property value => exact .change fun _ _ h => h.setStyle n property value
  | setText n x => exact .change fun _ _ h => h.setText n x
  | listen n event g => exact .change fun _ _ h => h.listen n event g standIn
  | unlisten n event => exact .unlisten n event
  | clearLog => exact hhost.elim

/-- An operation that logs nothing changes nothing. -/
theorem apply_eq_of_edits_eq {op : Operation} (hhost : op.OfHost)
    (hedits : (op.apply t).edits = t.edits) : op.apply t = t := by
  by_cases hlabel : op.Mislabels
  · -- Making a node is logged, whatever its label.
    obtain ⟨tag, rfl, -⟩ := hlabel
    have hlog : t.edits ++ [.create t.slots.size (Text.lowerAsciiText tag)] = t.edits := hedits
    simp at hlog
  · obtain ⟨es, hlog, hsame, -⟩ := recorded_apply hhost hlabel ⟨0, fun _ => []⟩ t
    refine hsame ?_
    rw [hedits] at hlog
    simpa using hlog

end Operation

/-- **A sequence of operations** is recorded. -/
theorem recorded_foldl {ops : List Operation} (hops : ∀ op ∈ ops, op.OfHost ∧ ¬ op.Mislabels)
    (standIn : EventHandler) (t : LiveTree) :
    Recorded standIn t (ops.foldl Operation.apply t) := by
  induction ops generalizing t with
  | nil => exact .refl standIn t
  | cons op ops ih =>
    obtain ⟨hhost, hlabel⟩ := hops op List.mem_cons_self
    have hrest := ih (fun op hop => hops op (List.mem_cons_of_mem _ hop)) (op.apply t)
    exact (Operation.recorded_apply hhost hlabel standIn t).trans hrest

/-- **The log records every change.** From a tree with an empty log, let a sequence of operations be
    carried out that makes no element labelled as a leaf. To replay the log on that tree makes the
    same nodes again, except for handlers and the first texts of leaves. And an operation that logs
    nothing leaves any tree as it is. -/
theorem replay_edits {start : LiveTree} (hstart : start.edits = []) {ops : List Operation}
    (hops : ∀ op ∈ ops, op.OfHost ∧ ¬ op.Mislabels) (standIn : EventHandler) :
    Reproduced start.slots.size (ops.foldl Operation.apply start)
        (start.replay standIn (ops.foldl Operation.apply start).edits) ∧
      ∀ (t : LiveTree) (op : Operation), op.OfHost → (op.apply t).edits = t.edits →
        op.apply t = t := by
  refine ⟨?_, fun t op hhost => Operation.apply_eq_of_edits_eq hhost⟩
  obtain ⟨es, hlog, -, hreplay⟩ := recorded_foldl hops standIn start
  rw [hlog, hstart, List.nil_append]
  exact hreplay _ _ (.refl hstart)

/-- A paragraph under the root with a text that is inserted far behind and then moved, a text given
    to a node that does not exist, and a handler that is taken away. -/
theorem replay_edits_paragraph :
    Reproduced 1
      ([.createElement "P", .createText "a", .append 0 1, .insert 1 7 2, .setText 9 "b",
        .listen 1 "click" ⟨1, fun _ => []⟩, .append 0 2, .unlisten 1 "click"].foldl
        Operation.apply initial)
      (initial.replay ⟨0, fun _ => []⟩
        [.create 1 "p", .create 2 "#text", .append 0 1, .insert 1 0 2, .listen 1 "click",
          .append 0 2, .unlisten 1 "click"]) := by
  have hstart : initial.edits = [] := rfl
  have hlabel : Text.lowerAsciiText "P" = "p" := by decide
  refine (replay_edits hstart ?_ ⟨0, fun _ => []⟩).1
  simp [Operation.OfHost, Operation.Mislabels, hlabel]

end LiveTree

end ReactiveView
