import ReactiveView.Proofs.Scheduling.InFlight

/-! # Calls keep the schedule

  Each call of a renderer, and each callback of it that runs, keeps the
  invariant `Scheduled`:

  * a request for a frame and the start of a batch establish it however far the
    view is behind (`Scheduled.requestFrame`, `Scheduled.openBatch`);
  * a frame that is drawn leaves a view that is not behind;
  * all other calls leave the plan alone.

  `Call` lists the calls, and `Scheduled.call` and `Scheduled.run` are the two
  kinds of steps.
-/

namespace ReactiveView

variable {S ω : Type}

/-! ## §1. What drawing leaves alone -/

namespace Renderer

variable {r : Renderer ω} {n : NodeId}

/-- What a renderer has besides its plan: the page, the view and the callbacks. -/
def content (r : Renderer ω) :
    Page × View × Registry (SideEffect ω) × Registry (Script ω) :=
  (r.page, r.view, r.effects, r.ready)

theorem draw_of_target (h : r.page.target = some n) :
    r.draw.result.2 =
      r.withTree (r.page.tree.reconcile .stored n (r.view r.page.store.entries).result).1 := by
  rw [draw, h]
  rfl

theorem draw_of_no_target (h : r.page.target = none) : r.draw.result.2 = r := by
  rw [draw, h]
  rfl

/-- Drawing changes the live tree alone. -/
theorem draw_eq_withTree (r : Renderer ω) : ∃ t, r.draw.result.2 = r.withTree t := by
  cases h : r.page.target with
  | none => exact ⟨r.page.tree, draw_of_no_target h⟩
  | some n => exact ⟨_, draw_of_target h⟩

theorem renderer_perform (r : Renderer ω) :
    r.perform.result.renderer = r.draw.result.2.settled := rfl

/-- A frame changes the live tree and ends the batch. -/
theorem perform_eq_settled (r : Renderer ω) :
    ∃ t, r.perform.result.renderer = (r.withTree t).settled := by
  obtain ⟨t, ht⟩ := r.draw_eq_withTree
  exact ⟨t, by rw [renderer_perform, ht]⟩

theorem plan_perform (r : Renderer ω) : r.perform.result.renderer.plan = r.plan := by
  obtain ⟨t, ht⟩ := r.perform_eq_settled
  rw [ht]
  rfl

theorem completed_perform (r : Renderer ω) :
    r.perform.result.renderer.page.completed = r.page.completed + 1 := by
  obtain ⟨t, ht⟩ := r.perform_eq_settled
  rw [ht]
  rfl

theorem target_perform (r : Renderer ω) :
    r.perform.result.renderer.page.target = r.page.target := by
  obtain ⟨t, ht⟩ := r.perform_eq_settled
  rw [ht]
  rfl

end Renderer

/-! ## §2. What each operation comes to -/

namespace Site

/-- A frame of another generation does nothing. -/
theorem runFrame_of_ne (p : Site S ω) {g : Nat} (hg : g ≠ p.renderer.generation) :
    (p.runFrame g).result = ([], p) := by
  unfold runFrame
  rw [if_pos hg.symm]
  rfl

/-- The frame of the current generation draws. -/
theorem runFrame_generation (p : Site S ω) :
    (p.runFrame p.renderer.generation).result =
      ((Renderer.perform { p.renderer with frame := none }).result.due,
        { p with
          renderer := (Renderer.perform { p.renderer with frame := none }).result.renderer }) := by
  unfold runFrame
  rw [if_neg (not_not.mpr rfl)]
  rfl

section operations

variable [FrameScheduler S (Task ω)]

theorem setState_of_written (p : Site S ω) {u : Update} (h : Store.written u > 0) :
    p.setState u =
      (p.onRenderer fun r => r.withStore (r.page.store.setState u)).openBatch := if_pos h

theorem setState_of_not_written (p : Site S ω) {u : Update} (h : ¬ Store.written u > 0) :
    p.setState u = p.onRenderer fun r => r.withStore (r.page.store.setState u) := if_neg h

/-- Before the first frame a ready callback is registered. -/
theorem onReady_of_waiting (p : Site S ω) (s : Script ω) (h : p.renderer.page.completed = 0) :
    (p.onReady s).2 = p.onRenderer fun r =>
      { r with
        ready := (p.renderer.ready.register p.renderer.supply s).2.1
        supply := (p.renderer.ready.register p.renderer.supply s).2.2 } := by
  unfold onReady
  rw [if_pos h]

/-- After the first frame it is deferred. -/
theorem onReady_of_drawn (p : Site S ω) (s : Script ω) (h : p.renderer.page.completed ≠ 0) :
    (p.onReady s).2 = { p with scheduler := FrameScheduler.defer p.scheduler (.run s) } := by
  unfold onReady
  rw [if_neg h]

theorem content_supersede (p : Site S ω) :
    p.supersede.renderer.content = p.renderer.content := rfl

theorem content_requestFrame (p : Site S ω) :
    p.requestFrame.renderer.content = p.renderer.content := rfl

theorem content_closeBatch (p : Site S ω) :
    p.closeBatch.renderer.content = p.renderer.content := rfl

theorem content_openBatch (p : Site S ω) :
    p.openBatch.renderer.content = p.renderer.content := by
  unfold openBatch
  split <;> rfl

theorem content_setState (p : Site S ω) (u : Update) :
    (p.setState u).renderer.content =
      (p.renderer.withStore (p.renderer.page.store.setState u)).content := by
  by_cases h : Store.written u > 0
  · rw [p.setState_of_written h]
    exact content_openBatch _
  · rw [p.setState_of_not_written h]
    rfl

theorem content_write (p : Site S ω) (key : String) (v : Value) :
    (p.write key v).renderer.content =
      (p.renderer.withStore (p.renderer.page.store.write key v)).content :=
  content_openBatch _

theorem content_remove (p : Site S ω) (key : String) :
    (p.remove key).renderer.content =
      (p.renderer.withStore (p.renderer.page.store.remove key)).content := rfl

theorem page_of_content_eq {r r' : Renderer ω} (h : r'.content = r.content) :
    r'.page = r.page := congrArg Prod.fst h

end operations

/-! ### In flight afterwards -/

variable [LawfulScheduler S (Task ω)]

/-- All callbacks in flight: those in the scheduler, and those taken out that did not start yet. -/
def inFlight (p : Site S ω) (taken : Multiset (Waiting (Task ω))) : Multiset (Waiting (Task ω)) :=
  LawfulScheduler.inFlight p.scheduler + taken

variable (p : Site S ω) (taken : Multiset (Waiting (Task ω)))

theorem inFlight_cons (w : Waiting (Task ω)) :
    p.inFlight (w ::ₘ taken) = w ::ₘ p.inFlight taken := Multiset.add_cons _ _ _

/-- At most frames are dropped. -/
theorem inFlight_supersede : ∃ dropped, p.inFlight taken = dropped + p.supersede.inFlight taken ∧
    ∀ w ∈ dropped, ∃ id t, w = .frame id t := by
  unfold inFlight supersede
  cases p.renderer.frame with
  | none => exact ⟨0, (Multiset.zero_add _).symm, by simp⟩
  | some id =>
    obtain ⟨dropped, hsplit, hdropped⟩ := LawfulScheduler.inFlight_cancelFrame p.scheduler id
    refine ⟨dropped, ?_, ?_⟩
    · rw [hsplit, Multiset.add_assoc]
    · intro w hw
      obtain ⟨t, rfl⟩ := hdropped w hw
      exact ⟨id, t, rfl⟩

/-- The name under which a request for a frame is waiting. -/
def requestId : FrameId :=
  (FrameScheduler.requestFrame p.supersede.scheduler
    (Task.frame p.supersede.renderer.generation)).1

theorem renderer_requestFrame :
    p.requestFrame.renderer = { p.supersede.renderer with frame := some p.requestId } := rfl

theorem inFlight_requestFrame : p.requestFrame.inFlight taken =
    .frame p.requestId (.frame p.supersede.renderer.generation) ::ₘ
      p.supersede.inFlight taken := by
  unfold inFlight requestFrame requestId
  rw [LawfulScheduler.inFlight_requestFrame, Multiset.cons_add]

theorem inFlight_defer (t : Task ω) :
    ({ p with scheduler := FrameScheduler.defer p.scheduler t } : Site S ω).inFlight taken =
      .deferred t ::ₘ p.inFlight taken := by
  unfold inFlight
  rw [LawfulScheduler.inFlight_defer, Multiset.cons_add]

variable {p taken} {w : Waiting (Task ω)}

theorem mem_inFlight_supersede (hw : w ∈ p.supersede.inFlight taken) : w ∈ p.inFlight taken := by
  obtain ⟨dropped, hsplit, _⟩ := p.inFlight_supersede taken
  rw [hsplit]
  exact Multiset.mem_add.mpr (Or.inr hw)

theorem mem_inFlight_requestFrame (hw : w ∈ p.requestFrame.inFlight taken) :
    w ∈ p.inFlight taken ∨ w.task.isOwn = true := by
  rw [p.inFlight_requestFrame taken] at hw
  rcases Multiset.mem_cons.mp hw with rfl | hmem
  · exact Or.inr rfl
  · exact Or.inl (mem_inFlight_supersede hmem)

theorem mem_inFlight_defer {t : Task ω} (hw : w ∈ ({ p with
    scheduler := FrameScheduler.defer p.scheduler t } : Site S ω).inFlight taken) :
    w ∈ p.inFlight taken ∨ w = .deferred t := by
  rw [p.inFlight_defer taken t] at hw
  exact (Multiset.mem_cons.mp hw).symm

theorem mem_inFlight_openBatch (hw : w ∈ p.openBatch.inFlight taken) :
    w ∈ p.inFlight taken ∨ w.task.isOwn = true := by
  unfold openBatch at hw
  split at hw
  · exact Or.inl hw
  · rcases mem_inFlight_defer (p := p) hw with hmem | rfl
    · exact Or.inl hmem
    · exact Or.inr rfl

end Site

/-- A generation has started, and no frame of it is in flight. -/
structure Vacant (r : Renderer ω) (fl : Multiset (Waiting (Task ω))) : Prop where
  /-- An open batch will end. -/
  closeBatch_mem : r.batchPending = true → .deferred .closeBatch ∈ fl
  /-- No frame is awaited. -/
  frame_eq_none : r.frame = none
  /-- All frames are of earlier generations. -/
  generation_lt : ∀ id g, .frame id (.frame g) ∈ fl → g < r.generation

namespace Vacant

variable {r : Renderer ω} {fl : Multiset (Waiting (Task ω))}

theorem countP_eq_zero (h : Vacant r fl) : fl.countP (·.isFrameOf r.generation = true) = 0 := by
  refine Multiset.countP_eq_zero.mpr ?_
  intro w hw hg
  match w with
  | .frame id (.frame g) =>
    have hlt := h.generation_lt id g hw
    have heq : g = r.generation := by simpa [Waiting.isFrameOf] using hg
    omega
  | .frame _ (.run _) => simp [Waiting.isFrameOf] at hg
  | .frame _ .closeBatch => simp [Waiting.isFrameOf] at hg
  | .deferred _ => simp [Waiting.isFrameOf] at hg

theorem scheduled (h : Vacant r fl) : Scheduled r fl False where
  closeBatch_mem := h.closeBatch_mem
  frame_mem hf := by simp [h.frame_eq_none] at hf
  generation_le id g hg := Nat.le_of_lt (h.generation_lt id g hg)
  countP_le := h.countP_eq_zero ▸ Nat.zero_le 1
  awaited := False.elim

/-- The frame of the generation is requested. -/
theorem request (h : Vacant r fl) (id : FrameId) (b : Prop) :
    Scheduled { r with frame := some id } (.frame id (.frame r.generation) ::ₘ fl) b where
  closeBatch_mem hp := Multiset.mem_cons_of_mem (h.closeBatch_mem hp)
  frame_mem _ := ⟨id, Multiset.mem_cons_self _ _⟩
  generation_le id' g hg := by
    rcases Multiset.mem_cons.mp hg with he | hmem
    · cases he
      exact Nat.le_refl _
    · exact Nat.le_of_lt (h.generation_lt id' g hmem)
  countP_le := by
    rw [Multiset.countP_cons, h.countP_eq_zero]
    split <;> simp
  awaited _ := Or.inr rfl

end Vacant

namespace Scheduled

variable [LawfulScheduler S (Task ω)] {p : Site S ω} {taken : Multiset (Waiting (Task ω))}
  {w : Waiting (Task ω)} {b b' : Prop}

theorem supersede (h : Scheduled p.renderer (p.inFlight taken) b) :
    Vacant p.supersede.renderer (p.supersede.inFlight taken) := by
  obtain ⟨dropped, hsplit, hdropped⟩ := p.inFlight_supersede taken
  refine ⟨?_, rfl, ?_⟩
  · intro hp
    -- Cancelling drops frames, and the end of a batch is none.
    have hmem := h.closeBatch_mem hp
    rw [hsplit, Multiset.mem_add] at hmem
    rcases hmem with hmem | hmem
    · obtain ⟨id, t, he⟩ := hdropped _ hmem
      cases he
    · exact hmem
  · intro id g hg
    exact Nat.lt_succ_of_le (h.generation_le id g (Site.mem_inFlight_supersede hg))

/-- Once a frame is requested, the view may be behind. -/
theorem requestFrame (h : Scheduled p.renderer (p.inFlight taken) b) (b' : Prop) :
    Scheduled p.requestFrame.renderer (p.requestFrame.inFlight taken) b' := by
  rw [p.renderer_requestFrame, p.inFlight_requestFrame taken]
  exact h.supersede.request p.requestId b'

/-- A task is deferred. -/
theorem defer (h : Scheduled p.renderer (p.inFlight taken) b) (t : Task ω) :
    Scheduled p.renderer (({ p with
      scheduler := FrameScheduler.defer p.scheduler t } : Site S ω).inFlight taken) b := by
  rw [p.inFlight_defer taken t]
  refine ⟨?_, ?_, ?_, ?_, h.awaited⟩
  · intro hp
    exact Multiset.mem_cons_of_mem (h.closeBatch_mem hp)
  · intro hf
    obtain ⟨id, hid⟩ := h.frame_mem hf
    exact ⟨id, Multiset.mem_cons_of_mem hid⟩
  · intro id g hg
    rcases Multiset.mem_cons.mp hg with he | hmem
    · cases he
    · exact h.generation_le id g hmem
  · rw [Multiset.countP_cons_of_neg _ (by simp [Waiting.isFrameOf])]
    exact h.countP_le

/-- Once a batch is open, the view may be behind. -/
theorem openBatch (h : Scheduled p.renderer (p.inFlight taken) b) (b' : Prop) :
    Scheduled p.openBatch.renderer (p.openBatch.inFlight taken) b' := by
  unfold Site.openBatch
  split
  · next hp => exact { h with awaited := fun _ => Or.inl hp }
  · have hdefer := h.defer .closeBatch
    have hmem : .deferred .closeBatch ∈ ({ p with
        scheduler := FrameScheduler.defer p.scheduler .closeBatch } : Site S ω).inFlight taken := by
      rw [p.inFlight_defer taken]
      exact Multiset.mem_cons_self _ _
    exact {
      closeBatch_mem := fun _ => hmem
      frame_mem := hdefer.frame_mem
      generation_le := hdefer.generation_le
      countP_le := hdefer.countP_le
      awaited := fun _ => Or.inl rfl }

/-- The end of a batch was let go, and the frame that follows is requested. -/
theorem closeBatch (h : Scheduled p.renderer (w ::ₘ p.inFlight taken) b)
    (hw : w.task = .closeBatch) (b' : Prop) :
    Scheduled p.closeBatch.renderer (p.closeBatch.inFlight taken) b' := by
  -- The batch is not open any more, so that its end is gone does no harm.
  have hend : Scheduled { p.renderer with batchPending := false } (p.inFlight taken) False := by
    refine h.letGo rfl ?_ (fun hf => ⟨hf, ?_⟩) False.elim
    · intro hp
      simp at hp
    · intro id he
      simp [he, Waiting.task] at hw
  exact requestFrame (p := p.onRenderer fun r => { r with batchPending := false }) hend b'

/-- A frame was let go. Unless it is of the current generation, nothing happens. -/
theorem runFrame {g : Nat} (h : Scheduled p.renderer (w ::ₘ p.inFlight taken) b)
    (hw : w.task = .frame g) (hb : b' → b) (hdrawn : g = p.renderer.generation → ¬ b') :
    Scheduled (p.runFrame g).result.2.renderer ((p.runFrame g).result.2.inFlight taken) b' := by
  have hbatch : w ≠ .deferred .closeBatch := by
    intro he
    rw [he] at hw
    cases hw
  by_cases hg : g = p.renderer.generation
  · -- The frame that was awaited is not awaited any more, and the view is not behind.
    have hnone : Scheduled { p.renderer with frame := none } (p.inFlight taken) b' := by
      refine h.letGo rfl (fun hp => ⟨hp, hbatch⟩) ?_ ?_
      · intro hf
        simp at hf
      · intro hb'
        exact absurd hb' (hdrawn hg)
    rw [hg, p.runFrame_generation]
    exact hnone.of_plan_eq (Renderer.plan_perform _)
  · -- The frame that is awaited is another one.
    rw [p.runFrame_of_ne hg]
    refine h.letGo rfl (fun hp => ⟨hp, hbatch⟩) (fun hf => ⟨hf, ?_⟩)
      fun hb' => h.awaited (hb hb')
    intro id he
    rw [he] at hw
    exact hg (Task.frame.inj hw).symm

/-- A callback of the embedder was let go. -/
theorem foreign (h : Scheduled p.renderer (w ::ₘ p.inFlight taken) b)
    (hw : w.task.isOwn = false) : Scheduled p.renderer (p.inFlight taken) b := by
  refine h.of_ownCallbacks_eq ?_
  simp [ownCallbacks, hw]

end Scheduled

/-! ## §3. Calls and tasks as steps -/

/-- What can be asked of a renderer, by whom and from where ever. -/
inductive Call (ω : Type) where
  /-- Write the defined entries of an update. -/
  | setState (update : Update)
  /-- Write an entry. -/
  | write (key : String) (value : Value)
  /-- Remove an entry. -/
  | remove (key : String)
  /-- Try to replace the store. -/
  | replace (entries : Snapshot)
  /-- Draw now. -/
  | render
  /-- Ask for a callback after the first frame. -/
  | onReady (callback : Script ω)
  /-- Withdraw a ready callback. -/
  | cancelReady (id : CallbackId)
  /-- Add a side effect. -/
  | addEffect (effect : SideEffect ω)
  /-- Withdraw a side effect. -/
  | removeEffect (id : CallbackId)

/-- Whether a call writes to the store or removes from it. -/
def Call.writes : Call ω → Bool
  | setState u => Store.written u > 0
  | write _ _ => true
  | remove _ => true
  | _ => false

/-- Whether a call draws. -/
def Call.draws : Call ω → Bool
  | render => true
  | _ => false

/-- What a call does, except for its answer and for the callbacks it makes due: what these do are
    calls of their own. -/
def Call.perform [FrameScheduler S (Task ω)] (p : Site S ω) : Call ω → Site S ω
  | setState u => p.setState u
  | write key v => p.write key v
  | remove key => p.remove key
  | replace _ => p
  | render => p.render.result.2
  | onReady callback => (p.onReady callback).2
  | cancelReady id => p.onRenderer fun r => (r.cancelReady id).2
  | addEffect effect => p.onRenderer fun r => (r.addEffect effect).2
  | removeEffect id => p.onRenderer fun r => (r.removeEffect id).2

/-- What a task does when it runs, in the same sense. -/
def Task.perform [FrameScheduler S (Task ω)] (p : Site S ω) : Task ω → Site S ω
  | run _ => p
  | closeBatch => p.closeBatch
  | frame generation => (p.runFrame generation).result.2

/-- A call puts nothing in flight but the renderer's own callbacks and those it was given. -/
theorem Call.mem_inFlight_perform [LawfulScheduler S (Task ω)] {p : Site S ω}
    {taken : Multiset (Waiting (Task ω))} {w : Waiting (Task ω)} (c : Call ω)
    (hw : w ∈ (c.perform p).inFlight taken) :
    w ∈ p.inFlight taken ∨ w.task.isOwn = true ∨
      ∃ s, c = .onReady s ∧ w = .deferred (.run s) := by
  have hown : (w ∈ p.inFlight taken ∨ w.task.isOwn = true) → _ := fun h =>
    h.imp_right (Or.inl (b := ∃ s, c = .onReady s ∧ w = .deferred (.run s)))
  cases c with
  | setState u =>
    by_cases h : Store.written u > 0
    · rw [perform, p.setState_of_written h] at hw
      exact hown (Site.mem_inFlight_openBatch
        (p := p.onRenderer fun r => r.withStore (r.page.store.setState u)) hw)
    · rw [perform, p.setState_of_not_written h] at hw
      exact Or.inl hw
  | write key v =>
    exact hown (Site.mem_inFlight_openBatch
      (p := p.onRenderer fun r => r.withStore (r.page.store.write key v)) hw)
  | remove key => exact hown (Site.mem_inFlight_requestFrame hw)
  | render => exact Or.inl (Site.mem_inFlight_supersede hw)
  | onReady s =>
    by_cases h : p.renderer.page.completed = 0
    · rw [perform, p.onReady_of_waiting s h] at hw
      exact Or.inl hw
    · rw [perform, p.onReady_of_drawn s h] at hw
      rcases Site.mem_inFlight_defer hw with hmem | rfl
      · exact Or.inl hmem
      · exact Or.inr (Or.inr ⟨s, rfl, rfl⟩)
  | _ => exact Or.inl hw

theorem Task.mem_inFlight_perform [LawfulScheduler S (Task ω)] {p : Site S ω}
    {taken : Multiset (Waiting (Task ω))} {w : Waiting (Task ω)} (t : Task ω)
    (hw : w ∈ (t.perform p).inFlight taken) : w ∈ p.inFlight taken ∨ w.task.isOwn = true := by
  cases t with
  | run s => exact Or.inl hw
  | closeBatch => exact Site.mem_inFlight_requestFrame hw
  | frame g =>
    by_cases hg : g = p.renderer.generation
    · rw [perform, hg, p.runFrame_generation] at hw
      exact Or.inl hw
    · rw [perform, p.runFrame_of_ne hg] at hw
      exact Or.inl hw

theorem Call.target_perform [FrameScheduler S (Task ω)] (p : Site S ω) (c : Call ω) :
    (c.perform p).renderer.page.target = p.renderer.page.target := by
  cases c with
  | setState u => rw [perform, Site.page_of_content_eq (p.content_setState u)]; rfl
  | write key v => rw [perform, Site.page_of_content_eq (p.content_write key v)]; rfl
  | onReady callback =>
    by_cases h : p.renderer.page.completed = 0
    · rw [perform, p.onReady_of_waiting callback h]
      rfl
    · rw [perform, p.onReady_of_drawn callback h]
  | render => exact Renderer.target_perform p.supersede.renderer
  | _ => rfl

theorem Task.target_perform [FrameScheduler S (Task ω)] (p : Site S ω) (t : Task ω) :
    (t.perform p).renderer.page.target = p.renderer.page.target := by
  cases t with
  | run s => rfl
  | closeBatch => rfl
  | frame g =>
    by_cases hg : g = p.renderer.generation
    · rw [perform, hg, p.runFrame_generation]
      exact Renderer.target_perform _
    · rw [perform, p.runFrame_of_ne hg]

namespace Scheduled

variable [LawfulScheduler S (Task ω)] {p : Site S ω} {taken : Multiset (Waiting (Task ω))}
  {w : Waiting (Task ω)} {b b' : Prop}

/-- **Calls**: only a call that writes may leave the view behind if it was not, and one that draws
    must not leave it behind. -/
theorem call (h : Scheduled p.renderer (p.inFlight taken) b) (c : Call ω)
    (hb : b' → b ∨ c.writes = true) (hdrawn : c.draws = true → ¬ b') :
    Scheduled (c.perform p).renderer ((c.perform p).inFlight taken) b' := by
  have hsame : c.writes = false → Scheduled p.renderer (p.inFlight taken) b' :=
    fun hw => h.mono fun hb' => (hb hb').resolve_right (by simp [hw])
  cases c with
  | setState u =>
    by_cases hpos : Store.written u > 0
    · rw [Call.perform, p.setState_of_written hpos]
      exact openBatch (p := p.onRenderer fun r => r.withStore (r.page.store.setState u))
        (h.of_plan_eq rfl) b'
    · rw [Call.perform, p.setState_of_not_written hpos]
      exact (hsame (by simpa [Call.writes] using hpos)).of_plan_eq rfl
  | write key v =>
    exact openBatch (p := p.onRenderer fun r => r.withStore (r.page.store.write key v))
      (h.of_plan_eq rfl) b'
  | remove key =>
    exact requestFrame (p := p.onRenderer fun r => r.withStore (r.page.store.remove key))
      (h.of_plan_eq rfl) b'
  | replace entries => exact hsame rfl
  | render =>
    -- The frame that was awaited is dropped, and nothing is awaited in its place.
    have hdraw := h.supersede.scheduled.of_plan_eq (Renderer.plan_perform p.supersede.renderer)
    exact hdraw.mono fun hb' => hdrawn rfl hb'
  | onReady callback =>
    by_cases hdone : p.renderer.page.completed = 0
    · rw [Call.perform, p.onReady_of_waiting callback hdone]
      exact (hsame rfl).of_plan_eq rfl
    · rw [Call.perform, p.onReady_of_drawn callback hdone]
      exact (hsame rfl).defer (.run callback)
  | cancelReady id => exact (hsame rfl).of_plan_eq rfl
  | addEffect effect => exact (hsame rfl).of_plan_eq rfl
  | removeEffect id => exact (hsame rfl).of_plan_eq rfl

/-- **Tasks**: a callback was let go and runs. A view that was not behind is not behind afterwards,
    unless a batch ends, and the current frame must not leave it behind. -/
theorem run (h : Scheduled p.renderer (w ::ₘ p.inFlight taken) b) (hb : b' → b)
    (hdrawn : w.task = .frame p.renderer.generation → ¬ b') :
    Scheduled (w.task.perform p).renderer ((w.task.perform p).inFlight taken) b' := by
  cases hw : w.task with
  | run s => exact (h.foreign (by simp [hw, Task.isOwn])).mono hb
  | closeBatch => exact h.closeBatch hw b'
  | frame g => exact h.runFrame hw hb fun hg => hdrawn (hg ▸ hw)

end Scheduled

/-! ## §4. Mounting -/

/-- Adding side effects leaves everything else alone. -/
theorem Renderer.foldl_addEffect (es : List (SideEffect ω)) (r : Renderer ω) :
    (es.foldl (fun r e => (r.addEffect e).2) r).plan = r.plan ∧
      (es.foldl (fun r e => (r.addEffect e).2) r).page = r.page := by
  induction es generalizing r with
  | nil => exact ⟨rfl, rfl⟩
  | cons e es ih => exact ih (r.addEffect e).2

namespace MountOptions

/-- The renderer of a view that is being mounted, without its side effects. -/
def blank (o : MountOptions ω) (tree : LiveTree) : Renderer ω where
  page := ⟨tree, tree.query? o.target, .ofEntries o.data, 0⟩
  view := o.view
  effects := .empty
  ready := .empty
  supply := {}
  batchPending := false
  frame := none
  generation := 0

/-- The same with its side effects, before its first frame is requested. -/
def bare (o : MountOptions ω) (tree : LiveTree) : Renderer ω :=
  o.effects.foldl (fun r e => (r.addEffect e).2) (o.blank tree)

theorem page_bare (o : MountOptions ω) (tree : LiveTree) :
    (o.bare tree).page = ⟨tree, tree.query? o.target, .ofEntries o.data, 0⟩ :=
  (Renderer.foldl_addEffect _ _).2

theorem result_mount [FrameScheduler S (Task ω)] (o : MountOptions ω) (tree : LiveTree) (s : S) :
    (o.mount tree s).result = Site.requestFrame ⟨o.bare tree, s⟩ := by
  unfold mount
  cases h : tree.query? o.target <;> simp [bare, blank, h]

/-- **Mounting**: the first frame is in flight. -/
theorem scheduled_mount [LawfulScheduler S (Task ω)] (o : MountOptions ω) (tree : LiveTree) (s : S)
    (taken : Multiset (Waiting (Task ω)))
    (hs : ∀ w ∈ (⟨o.bare tree, s⟩ : Site S ω).inFlight taken, w.task.isOwn = false) (b : Prop) :
    Scheduled (o.mount tree s).result.renderer ((o.mount tree s).result.inFlight taken) b := by
  have hplan : (o.bare tree).plan = (false, none, 0) := (Renderer.foldl_addEffect _ _).1
  obtain ⟨hbatch, hframe, _⟩ : (o.bare tree).batchPending = false ∧ (o.bare tree).frame = none ∧
      (o.bare tree).generation = 0 := by
    simpa [Renderer.plan] using hplan
  rw [result_mount]
  exact Scheduled.requestFrame (p := ⟨o.bare tree, s⟩) (scheduled_of_foreign hbatch hframe hs) b

end MountOptions

end ReactiveView
