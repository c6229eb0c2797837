import ReactiveView.Proofs.Reconcile.Convergence
import ReactiveView.Proofs.Scheduling.Calls

/-! # A mounted view stays steady

  When nobody but the renderer changes the live tree, a mounted view goes on
  from one state to the next in which

  * the page is sound: the view and the target are the ones that were mounted,
    the live tree is well formed, and the target is in it (`Housed`);
  * all callbacks, kept and in flight, leave the live tree alone, and what is
    behind is awaited (`Orderly`);
  * unless the live tree shows what the view makes of the store, the end of a
    batch or a frame is awaited (`Steady`).
-/

namespace ReactiveView

open LiveTree

variable {S ω : Type}

/-! ## §1. Callbacks that leave the live tree alone -/

/-- Whether a script leaves the live tree to the renderer and drops no frame, and so do all scripts
    that it hands over. -/
def Script.Confined : Script ω → Prop
  | done => True
  | world _ next => ∀ w, (next w).Confined
  | look next => ∀ page, (next page).Confined
  | emit _ next => next.Confined
  | setState _ next => next.Confined
  | write _ _ next => next.Confined
  | remove _ next => ∀ removed, (next removed).Confined
  | replace _ next => ∀ answer, (next answer).Confined
  | render next => ∀ edits, (next edits).Confined
  | onReady callback next => callback.Confined ∧ ∀ id, (next id).Confined
  | cancelReady _ next => ∀ found, (next found).Confined
  | addEffect effect next => (∀ s s', (effect s s').Confined) ∧ ∀ id, (next id).Confined
  | removeEffect _ next => ∀ found, (next found).Confined
  | changeTree _ _ => False
  | defer task next => task.Confined ∧ next.Confined
  | requestFrame task next => task.Confined ∧ ∀ id, (next id).Confined
  | cancelFrame _ _ => False
  | runDeferred _ next => ∀ ran, (next ran).Confined
  | runFrame next => ∀ ran, (next ran).Confined
  | flush _ next => ∀ ran, (next ran).Confined

/-- The same of a side effect. -/
def SideEffect.Confined (effect : SideEffect ω) : Prop := ∀ s s', (effect s s').Confined

/-- The same of a task; the renderer's own tasks start no script by themselves. -/
def Task.Confined : Task ω → Prop
  | run s => s.Confined
  | closeBatch => True
  | frame _ => True

/-- The same of the callback that comes with a call. -/
def Call.Confined : Call ω → Prop
  | onReady callback => callback.Confined
  | addEffect effect => SideEffect.Confined effect
  | _ => True

/-- The same of what is about to run. Tasks are judged where they are in flight. -/
def Activity.Confined : Activity ω → Prop
  | rest s => s.Confined
  | deferred _ _ => True
  | frame _ _ => True
  | effect _ _ _ e => SideEffect.Confined e
  | ready _ callback => callback.Confined

/-- The callback that an activity is the start of, if it comes from a scheduler. -/
def Activity.waiting? : Activity ω → Option (Waiting (Task ω))
  | deferred _ task => some (.deferred task)
  | frame id task => some (.frame id task)
  | _ => none

theorem Task.confined_of_isOwn {t : Task ω} (h : t.isOwn = true) : t.Confined := by
  cases t with
  | run s => simp [isOwn] at h
  | closeBatch => trivial
  | frame g => trivial

/-! ## §2. The callbacks that a renderer keeps -/

namespace Renderer

variable {r r' : Renderer ω}

theorem content_eq_iff : r'.content = r.content ↔
    r'.page = r.page ∧ r'.view = r.view ∧ r'.effects = r.effects ∧ r'.ready = r.ready := by
  simp [content]

/-- The registered callbacks are confined. -/
structure Tame (r : Renderer ω) : Prop where
  /-- The side effects are confined. -/
  effects : ∀ e ∈ r.effects.entries, SideEffect.Confined e.2
  /-- The ready callbacks are confined. -/
  ready : ∀ e ∈ r.ready.entries, Script.Confined e.2

theorem Tame.of_content_eq (h : r.Tame) (hr : r'.content = r.content) : r'.Tame := by
  obtain ⟨_, _, heffects, hready⟩ := content_eq_iff.mp hr
  exact ⟨heffects ▸ h.effects, hready ▸ h.ready⟩

theorem Tame.withStore (h : r.Tame) (s : Store) : (r.withStore s).Tame := ⟨h.effects, h.ready⟩

/-- A frame keeps the side effects, and the ready callbacks or none. -/
theorem Tame.perform (h : r.Tame) : r.perform.result.renderer.Tame := by
  obtain ⟨t, ht⟩ := r.perform_eq_settled
  rw [ht]
  refine ⟨h.effects, ?_⟩
  show ∀ e ∈ (if r.page.completed = 0 then .empty else r.ready : Registry _).entries, e.2.Confined
  split
  · intro e he
    simp [Registry.empty] at he
  · exact h.ready

/-- What a frame makes due is confined, and none of it comes from a scheduler. -/
theorem Tame.due (h : r.Tame) :
    ∀ a ∈ r.perform.result.due, a.Confined ∧ a.waiting? = none := by
  obtain ⟨t, ht⟩ := r.draw_eq_withTree
  intro a ha
  have hdue : a ∈ (r.withTree t).dueEffects ∨ a ∈ (r.withTree t).dueReady := by
    rw [← ht]
    exact List.mem_append.mp ha
  rcases hdue with ha | ha
  · unfold dueEffects at ha
    split at ha
    · simp at ha
    · obtain ⟨e, he, rfl⟩ := List.mem_map.mp ha
      exact ⟨h.effects e he, rfl⟩
  · unfold dueReady at ha
    split at ha
    · obtain ⟨e, he, rfl⟩ := List.mem_map.mp ha
      exact ⟨h.ready e he, rfl⟩
    · simp at ha

/-- What a frame that runs makes due is confined. -/
theorem Tame.due_runFrame {p : Site S ω} (h : p.renderer.Tame) (g : Nat) :
    ∀ a ∈ (p.runFrame g).result.1, a.Confined ∧ a.waiting? = none := by
  by_cases hg : g = p.renderer.generation
  · rw [hg, p.runFrame_generation]
    exact Tame.due (h.of_content_eq rfl)
  · rw [p.runFrame_of_ne hg]
    intro a ha
    cases ha

theorem Tame.addEffect (h : r.Tame) {effect : SideEffect ω} (he : SideEffect.Confined effect) :
    (r.addEffect effect).2.Tame := by
  refine ⟨?_, h.ready⟩
  intro e hmem
  rcases List.mem_append.mp hmem with hmem | hmem
  · exact h.effects e hmem
  · obtain rfl := List.mem_singleton.mp hmem
    exact he

theorem Tame.call [FrameScheduler S (Task ω)] {p : Site S ω} (h : p.renderer.Tame) (c : Call ω)
    (hc : c.Confined) : (c.perform p).renderer.Tame := by
  cases c with
  | setState u => exact (h.withStore _).of_content_eq (p.content_setState u)
  | write key v => exact (h.withStore _).of_content_eq (p.content_write key v)
  | remove key => exact (h.withStore _).of_content_eq (p.content_remove key)
  | replace entries => exact h
  | render => exact Tame.perform (h.of_content_eq p.content_supersede)
  | onReady s =>
    by_cases hdone : p.renderer.page.completed = 0
    · rw [Call.perform, p.onReady_of_waiting s hdone]
      refine ⟨h.effects, ?_⟩
      intro e he
      rcases List.mem_append.mp he with he | he
      · exact h.ready e he
      · obtain rfl := List.mem_singleton.mp he
        exact hc
    · rw [Call.perform, p.onReady_of_drawn s hdone]
      exact h
  | cancelReady id => exact ⟨h.effects, fun e he => h.ready e (List.mem_of_mem_eraseP he)⟩
  | addEffect effect => exact h.addEffect hc
  | removeEffect id => exact ⟨fun e he => h.effects e (List.mem_of_mem_eraseP he), h.ready⟩

theorem Tame.task [FrameScheduler S (Task ω)] {p : Site S ω} (h : p.renderer.Tame) (t : Task ω) :
    (t.perform p).renderer.Tame := by
  cases t with
  | run s => exact h
  | closeBatch => exact h.of_content_eq p.content_closeBatch
  | frame g =>
    by_cases hg : g = p.renderer.generation
    · rw [Task.perform, hg, p.runFrame_generation]
      exact Tame.perform (h.of_content_eq rfl)
    · rw [Task.perform, p.runFrame_of_ne hg]
      exact h

end Renderer

/-! ## §3. The page -/

namespace Renderer

/-- Whether the live tree shows what the view makes of the store. -/
def UpToDate (r : Renderer ω) (n : NodeId) : Prop :=
  r.page.tree.Shows n (r.view r.page.store.entries).result

/-- The view `v` is mounted at `n`, and the callbacks that are kept are confined. -/
structure Housed (v : View) (n : NodeId) (r : Renderer ω) : Prop where
  /-- The view is the one that was mounted. -/
  view_eq : r.view = v
  /-- The target is the one that was found. -/
  target_eq : r.page.target = some n
  /-- The live tree is well formed. -/
  wellFormed : r.page.tree.WellFormed
  /-- The target is in it. -/
  exists_target : r.page.tree.exists? n = true
  /-- The side effects are confined. -/
  effects : ∀ e ∈ r.effects.entries, SideEffect.Confined e.2
  /-- The ready callbacks are confined. -/
  ready : ∀ e ∈ r.ready.entries, Script.Confined e.2

variable {v : View} {n : NodeId} {r r' : Renderer ω}

theorem Housed.tame (h : Housed v n r) : r.Tame := ⟨h.effects, h.ready⟩

theorem Housed.of_content_eq (h : Housed v n r) (hr : r'.content = r.content) : Housed v n r' := by
  obtain ⟨hpage, hview, heffects, hready⟩ := content_eq_iff.mp hr
  refine ⟨hview ▸ h.view_eq, hpage ▸ h.target_eq, hpage ▸ h.wellFormed, hpage ▸ h.exists_target,
    heffects ▸ h.effects, hready ▸ h.ready⟩

theorem upToDate_of_content_eq (hr : r'.content = r.content) :
    r'.UpToDate n ↔ r.UpToDate n := by
  obtain ⟨hpage, hview, _⟩ := content_eq_iff.mp hr
  rw [UpToDate, UpToDate, hpage, hview]

theorem Housed.withStore (h : Housed v n r) (s : Store) : Housed v n (r.withStore s) :=
  { h with }

/-- A frame leaves the page sound. -/
theorem Housed.perform (h : Housed v n r) : Housed v n r.perform.result.renderer := by
  have htame := h.tame.perform
  rw [renderer_perform, draw_of_target h.target_eq] at htame ⊢
  exact {
    view_eq := h.view_eq
    target_eq := h.target_eq
    wellFormed := wellFormed_reconcile h.wellFormed h.exists_target _
    exists_target := exists?_reconcile h.wellFormed h.exists_target _
    effects := htame.effects
    ready := htame.ready }

/-- A frame brings the live tree up to date. -/
theorem Housed.upToDate_perform (h : Housed v n r)
    (hv : ∀ s, VNode.UnreservedAll (v s).result) : r.perform.result.renderer.UpToDate n := by
  rw [renderer_perform, draw_of_target h.target_eq]
  refine shows_iff.mpr ?_
  exact matchesAll_reconcile h.wellFormed h.exists_target (h.view_eq ▸ hv _)

end Renderer

/-! ## §4. Calls in good order -/

/-- All callbacks around a renderer are confined, and one that is behind awaits something. -/
structure Orderly [LawfulScheduler S (Task ω)] (p : Site S ω) (taken : Multiset (Waiting (Task ω)))
    (behind : Prop) : Prop where
  /-- The registered callbacks are confined. -/
  tame : p.renderer.Tame
  /-- What is behind is awaited. -/
  scheduled : Scheduled p.renderer (p.inFlight taken) behind
  /-- The callbacks in flight are confined. -/
  confined : ∀ w ∈ p.inFlight taken, w.task.Confined

namespace Orderly

variable [LawfulScheduler S (Task ω)] {p : Site S ω} {taken : Multiset (Waiting (Task ω))}
  {w : Waiting (Task ω)} {b b' : Prop}

/-- Only what is in flight matters, not where it is. -/
theorem of_inFlight_eq (h : Orderly p taken b) {s : S} {taken' : Multiset (Waiting (Task ω))}
    (hfl : (⟨p.renderer, s⟩ : Site S ω).inFlight taken' = p.inFlight taken) :
    Orderly ⟨p.renderer, s⟩ taken' b :=
  ⟨h.tame, by rw [hfl]; exact h.scheduled, by rw [hfl]; exact h.confined⟩

/-- The embedder may put callbacks in flight, too. -/
theorem of_inFlight_eq_cons (h : Orderly p taken b) {s : S}
    (hfl : (⟨p.renderer, s⟩ : Site S ω).inFlight taken = w ::ₘ p.inFlight taken)
    (hown : w.task.isOwn = false) (hw : w.task.Confined) : Orderly ⟨p.renderer, s⟩ taken b := by
  refine ⟨h.tame, h.scheduled.of_ownCallbacks_eq ?_, ?_⟩
  · rw [hfl, ownCallbacks, Multiset.filter_cons_of_neg _ (by simp [hown])]
    rfl
  · intro x hx
    rw [hfl] at hx
    rcases Multiset.mem_cons.mp hx with rfl | hmem
    · exact hw
    · exact h.confined x hmem

/-- **A call** keeps the order. -/
theorem call (h : Orderly p taken b) (c : Call ω) (hc : c.Confined)
    (hb : b' → b ∨ c.writes = true) (hdrawn : c.draws = true → ¬ b') :
    Orderly (c.perform p) taken b' := by
  refine ⟨h.tame.call c hc, h.scheduled.call c hb hdrawn, ?_⟩
  intro w hw
  rcases c.mem_inFlight_perform hw with hmem | hown | ⟨s, rfl, rfl⟩
  · exact h.confined w hmem
  · exact Task.confined_of_isOwn hown
  · exact hc

/-- **A callback** that runs keeps the order. -/
theorem run (h : Orderly p (w ::ₘ taken) b) (hb : b' → b)
    (hdrawn : w.task = .frame p.renderer.generation → ¬ b') :
    Orderly (w.task.perform p) taken b' := by
  have hscheduled := h.scheduled
  have hconfined := h.confined
  rw [Site.inFlight_cons] at hscheduled hconfined
  refine ⟨h.tame.task w.task, hscheduled.run hb hdrawn, ?_⟩
  intro x hx
  rcases w.task.mem_inFlight_perform hx with hmem | hown
  · exact hconfined x (Multiset.mem_cons_of_mem hmem)
  · exact Task.confined_of_isOwn hown

/-- Where nothing is in flight, nothing is behind. -/
theorem not_behind (h : Orderly p taken b) (hfl : p.inFlight taken = 0) : ¬ b := by
  intro hb
  rcases h.scheduled.awaited hb with hbatch | hframe
  · have hmem := h.scheduled.closeBatch_mem hbatch
    simp [hfl] at hmem
  · obtain ⟨id, hmem⟩ := h.scheduled.frame_mem hframe
    simp [hfl] at hmem

end Orderly

/-! ## §5. Steps of a steady view -/

/-- A view `v` mounted at `n`, with everything around it. -/
structure Steady [LawfulScheduler S (Task ω)] (v : View) (n : NodeId) (p : Site S ω)
    (taken : Multiset (Waiting (Task ω))) : Prop where
  /-- The page is sound. -/
  housed : p.renderer.Housed v n
  /-- What shows less than it should is going to be drawn. -/
  scheduled : Scheduled p.renderer (p.inFlight taken) (¬ p.renderer.UpToDate n)
  /-- The callbacks in flight are confined. -/
  confined : ∀ w ∈ p.inFlight taken, w.task.Confined

theorem Store.writeAll_eq_self {s : Store} {es : List (String × Option Value)}
    (h : es.filter (·.2.isSome) = []) : s.writeAll es = s := by
  induction es with
  | nil => rfl
  | cons e es ih =>
    obtain ⟨key, v⟩ := e
    cases v with
    | none => exact ih (by simpa using h)
    | some v => simp at h

/-- An update without defined entries leaves the store alone. -/
theorem Store.setState_eq_self {s : Store} {u : Update} (h : ¬ Store.written u > 0) :
    s.setState u = s :=
  writeAll_eq_self (List.eq_nil_of_length_eq_zero (Nat.eq_zero_of_not_pos h))

section calls

variable [FrameScheduler S (Task ω)] {p : Site S ω} {v : View} {n : NodeId}

/-- A call that neither writes nor draws leaves the page alone. -/
theorem Call.page_perform (c : Call ω) (hw : c.writes = false) (hd : c.draws = false) :
    (c.perform p).renderer.page = p.renderer.page ∧
      (c.perform p).renderer.view = p.renderer.view := by
  cases c with
  | setState u =>
    have hstore : p.renderer.page.store.setState u = p.renderer.page.store :=
      Store.setState_eq_self (by simpa [writes] using hw)
    obtain ⟨hpage, hview, -⟩ := Renderer.content_eq_iff.mp (p.content_setState u)
    rw [hstore] at hpage
    exact ⟨hpage, hview⟩
  | onReady s =>
    by_cases h : p.renderer.page.completed = 0
    · rw [perform, p.onReady_of_waiting s h]
      exact ⟨rfl, rfl⟩
    · rw [perform, p.onReady_of_drawn s h]
      exact ⟨rfl, rfl⟩
  | write key v => simp [writes] at hw
  | remove key => simp [writes] at hw
  | render => simp [draws] at hd
  | _ => exact ⟨rfl, rfl⟩

/-- It changes neither what is shown nor what should be. -/
theorem Call.upToDate_perform (c : Call ω) (hw : c.writes = false) (hd : c.draws = false) :
    (c.perform p).renderer.UpToDate n ↔ p.renderer.UpToDate n := by
  obtain ⟨hpage, hview⟩ := c.page_perform (p := p) hw hd
  rw [Renderer.UpToDate, Renderer.UpToDate, hpage, hview]

theorem Renderer.Housed.call (h : p.renderer.Housed v n) (c : Call ω) (hc : c.Confined) :
    (c.perform p).renderer.Housed v n := by
  have htame := h.tame.call c hc
  cases c with
  | setState u => exact (h.withStore _).of_content_eq (p.content_setState u)
  | write key v => exact (h.withStore _).of_content_eq (p.content_write key v)
  | remove key => exact (h.withStore _).of_content_eq (p.content_remove key)
  | replace entries => exact h
  | render => exact Renderer.Housed.perform (h.of_content_eq (p.content_supersede))
  | onReady s =>
    by_cases hdone : p.renderer.page.completed = 0
    · rw [Call.perform, p.onReady_of_waiting s hdone] at htame ⊢
      exact { h with ready := htame.ready }
    · rw [Call.perform, p.onReady_of_drawn s hdone]
      exact h
  | cancelReady id => exact { h with ready := htame.ready }
  | addEffect effect => exact { h with effects := htame.effects }
  | removeEffect id => exact { h with effects := htame.effects }

theorem Renderer.Housed.task (h : p.renderer.Housed v n) (t : Task ω) :
    (t.perform p).renderer.Housed v n := by
  cases t with
  | run s => exact h
  | closeBatch => exact h.of_content_eq p.content_closeBatch
  | frame g =>
    by_cases hg : g = p.renderer.generation
    · rw [Task.perform, hg, p.runFrame_generation]
      exact Renderer.Housed.perform (h.of_content_eq rfl)
    · rw [Task.perform, p.runFrame_of_ne hg]
      exact h

/-- What is shown stays up to date when a task runs, and the current frame brings it there. -/
theorem Renderer.Housed.upToDate_task (h : p.renderer.Housed v n)
    (hv : ∀ s, VNode.UnreservedAll (v s).result) (t : Task ω) :
    (p.renderer.UpToDate n → (t.perform p).renderer.UpToDate n) ∧
      (t = .frame p.renderer.generation → (t.perform p).renderer.UpToDate n) := by
  cases t with
  | run s => exact ⟨id, by simp⟩
  | closeBatch => exact ⟨(Renderer.upToDate_of_content_eq p.content_closeBatch).mpr, by simp⟩
  | frame g =>
    by_cases hg : g = p.renderer.generation
    · have hnone : Renderer.Housed v n { p.renderer with frame := none } := h.of_content_eq rfl
      have hup := hnone.upToDate_perform hv
      rw [Task.perform, hg, p.runFrame_generation]
      exact ⟨fun _ => hup, fun _ => hup⟩
    · rw [Task.perform, p.runFrame_of_ne hg]
      exact ⟨id, fun he => absurd (Task.frame.inj he) hg⟩

end calls

namespace Steady

variable [LawfulScheduler S (Task ω)] {p : Site S ω} {taken : Multiset (Waiting (Task ω))}
  {v : View} {n : NodeId}

theorem orderly (h : Steady v n p taken) : Orderly p taken (¬ p.renderer.UpToDate n) :=
  ⟨h.housed.tame, h.scheduled, h.confined⟩

theorem of_orderly (housed : p.renderer.Housed v n)
    (h : Orderly p taken (¬ p.renderer.UpToDate n)) : Steady v n p taken :=
  ⟨housed, h.scheduled, h.confined⟩

/-- Where nothing is in flight, the live tree shows what it should. -/
theorem upToDate (h : Steady v n p taken) (hfl : p.inFlight taken = 0) :
    p.renderer.UpToDate n := not_not.mp (h.orderly.not_behind hfl)

end Steady

/-! ## §6. Mounting -/

theorem LiveTree.exists?_of_findBelow {t : LiveTree} {accept : Slot → Bool} {depth : Nat}
    {m n : NodeId} (h : t.findBelow accept depth m = some n) : t.exists? n = true := by
  induction depth generalizing m with
  | zero => simp [findBelow] at h
  | succ depth ih =>
    unfold findBelow at h
    split at h
    · simp at h
    · next s hs =>
      split at h
      · obtain rfl := Option.some.inj h
        simp [exists?, hs]
      · obtain ⟨c, _, hc⟩ := List.exists_of_findSome?_eq_some h
        exact ih hc

theorem Renderer.Tame.foldl_addEffect {r : Renderer ω} (h : r.Tame) {es : List (SideEffect ω)}
    (hes : ∀ e ∈ es, SideEffect.Confined e) :
    (es.foldl (fun r e => (r.addEffect e).2) r).Tame := by
  induction es generalizing r with
  | nil => exact h
  | cons e es ih =>
    exact ih (h.addEffect (hes e (by simp))) fun x hx => hes x (List.mem_cons_of_mem e hx)

theorem Renderer.view_foldl_addEffect (es : List (SideEffect ω)) (r : Renderer ω) :
    (es.foldl (fun r e => (r.addEffect e).2) r).view = r.view := by
  induction es generalizing r with
  | nil => rfl
  | cons e es ih => exact ih (r.addEffect e).2

namespace MountOptions

variable [LawfulScheduler S (Task ω)] {o : MountOptions ω} {tree : LiveTree} {n : NodeId} {s : S}

theorem tame_bare (tree : LiveTree) (heffects : ∀ e ∈ o.effects, SideEffect.Confined e) :
    (o.bare tree).Tame := by
  refine Renderer.Tame.foldl_addEffect (r := o.blank tree) ⟨?_, ?_⟩ heffects
  · intro e he
    simp [blank, Registry.empty] at he
  · intro e he
    simp [blank, Registry.empty] at he

/-- **Mounting** starts in good order, found the target or not. -/
theorem orderly_mount (heffects : ∀ e ∈ o.effects, SideEffect.Confined e)
    (hs : ∀ w ∈ LawfulScheduler.inFlight s, w.task.isOwn = false ∧ w.task.Confined)
    (behind : Prop) : Orderly (o.mount tree s).result 0 behind := by
  have hfl : (⟨o.bare tree, s⟩ : Site S ω).inFlight 0 = LawfulScheduler.inFlight s :=
    Multiset.add_zero _
  refine ⟨?_, o.scheduled_mount tree s 0 (fun w hw => (hs w (hfl ▸ hw)).1) behind, ?_⟩
  · rw [o.result_mount]
    exact (tame_bare tree heffects).of_content_eq (Site.content_requestFrame _)
  · intro w hw
    rw [o.result_mount] at hw
    rcases Site.mem_inFlight_requestFrame hw with hmem | hown
    · exact (hs w (hfl ▸ hmem)).2
    · exact Task.confined_of_isOwn hown

/-- **Mounting** starts steady. -/
theorem steady_mount (wf : tree.WellFormed) (htarget : tree.query? o.target = some n)
    (heffects : ∀ e ∈ o.effects, SideEffect.Confined e)
    (hs : ∀ w ∈ LawfulScheduler.inFlight s, w.task.isOwn = false ∧ w.task.Confined) :
    Steady o.view n (o.mount tree s).result 0 := by
  have htame := tame_bare tree heffects
  have hview : (o.bare tree).view = o.view := Renderer.view_foldl_addEffect _ _
  have hpage := o.page_bare tree
  -- The target was found in the tree, so it exists.
  have hhoused : (o.bare tree).Housed o.view n := by
    refine ⟨hview, ?_, ?_, ?_, htame.effects, htame.ready⟩
    · rw [hpage]
      exact htarget
    · rw [hpage]
      exact wf
    · rw [hpage]
      exact exists?_of_findBelow htarget
  refine .of_orderly ?_ (orderly_mount heffects hs _)
  rw [o.result_mount]
  exact hhoused.of_content_eq (Site.content_requestFrame _)

end MountOptions

end ReactiveView
