import ReactiveView.Proofs.Scheduling.Lockstep
import ReactiveView.Proofs.Session.Turns

/-! # A flush among quiet callbacks

  A quiet callback neither calls the renderer nor works on the queues. Where all
  callbacks are quiet (`Calm`), a flush comes to an end after one round in which
  anything runs:

  * a quiet activity ends, and the renderer and the queues are as they were
    (`ComesTo.activity`);
  * the deferred tasks run, and the end of a batch makes a frame out of it
    (`Calm.drained`);
  * the frames run, and the one that the renderer waits for is drawn
    (`Calm.framed`).

  The number of renders is counted by what a renderer still owes (`owed`): a
  render pays what is owed, and nothing else changes the sum of what was rendered
  and what is owed.
-/

namespace ReactiveView

variable {ω : Type}

/-! ## §1. Quiet callbacks -/

/-- Whether a script calls neither the renderer nor the scheduler. -/
def Script.Quiet : Script ω → Prop
  | done => True
  | world _ next => ∀ w, (next w).Quiet
  | look next => ∀ page, (next page).Quiet
  | emit _ next => next.Quiet
  | _ => False

/-- The same of a task; the renderer's own tasks start no script by themselves. -/
def Task.Quiet : Task ω → Prop
  | run s => s.Quiet
  | closeBatch => True
  | frame _ => True

/-- The same of what is about to run. -/
def Activity.Quiet : Activity ω → Prop
  | rest s => s.Quiet
  | deferred _ task => task.Quiet
  | frame _ task => task.Quiet
  | effect _ previous current e => (e previous current).Quiet
  | ready _ callback => callback.Quiet

namespace Renderer

variable {r r' : Renderer ω}

/-- The side effects and the ready callbacks are quiet. -/
structure Quiet (r : Renderer ω) : Prop where
  /-- The side effects are quiet, whatever they are told. -/
  effects : ∀ e ∈ r.effects.entries, ∀ s s', (e.2 s s').Quiet
  /-- The ready callbacks are quiet. -/
  ready : ∀ e ∈ r.ready.entries, Script.Quiet e.2

theorem Quiet.of_content_eq (h : r.Quiet) (hr : r'.content = r.content) : r'.Quiet := by
  obtain ⟨_, _, heffects, hready⟩ := content_eq_iff.mp hr
  exact ⟨heffects ▸ h.effects, hready ▸ h.ready⟩

/-- A frame keeps the side effects, and the ready callbacks or none. -/
theorem Quiet.perform (h : r.Quiet) : r.perform.result.renderer.Quiet := by
  obtain ⟨t, ht⟩ := r.perform_eq_settled
  rw [ht]
  refine ⟨h.effects, ?_⟩
  show ∀ e ∈ (if r.page.completed = 0 then .empty else r.ready : Registry _).entries, e.2.Quiet
  split
  · intro e he
    simp [Registry.empty] at he
  · exact h.ready

/-- What a frame makes due is quiet. -/
theorem Quiet.due (h : r.Quiet) : ∀ a ∈ r.perform.result.due, a.Quiet := by
  obtain ⟨t, ht⟩ := r.draw_eq_withTree
  intro a ha
  have hdue : a ∈ (r.withTree t).dueEffects ∨ a ∈ (r.withTree t).dueReady := by
    rw [← ht]
    exact List.mem_append.mp ha
  rcases hdue with ha | ha
  · unfold dueEffects at ha
    split at ha
    · cases ha
    · obtain ⟨e, he, rfl⟩ := List.mem_map.mp ha
      exact h.effects e he _ _
  · unfold dueReady at ha
    split at ha
    · obtain ⟨e, he, rfl⟩ := List.mem_map.mp ha
      exact h.ready e he
    · cases ha

/-- How many renders a renderer still owes: one if a batch is pending or a frame is waiting. -/
def owed (r : Renderer ω) : Nat := if r.batchPending || r.frame.isSome then 1 else 0

theorem owed_of_frame {id : FrameId} (h : r.frame = some id) : r.owed = 1 := by
  rw [owed, h]
  simp

theorem owed_of_batchPending (h : r.batchPending = true) : r.owed = 1 := by
  rw [owed, h]
  rfl

theorem owed_eq_zero (hbatch : r.batchPending = false) (hframe : r.frame = none) : r.owed = 0 := by
  rw [owed, hbatch, hframe]
  rfl

end Renderer

variable {p : Site (Queues (Task ω)) ω} {w : Waiting (Task ω)} {as : List (Activity ω)}

theorem Task.quiet_due (h : p.renderer.Quiet) {t : Task ω} (ht : t.Quiet) :
    ∀ a ∈ t.due p, a.Quiet := by
  cases t with
  | run s =>
    intro a ha
    obtain rfl := List.mem_singleton.mp ha
    exact ht
  | closeBatch => simp [due]
  | frame g =>
    by_cases hg : g = p.renderer.generation
    · rw [due, hg, p.runFrame_generation]
      exact Renderer.Quiet.due (h.of_content_eq rfl)
    · rw [due, p.runFrame_of_ne hg]
      simp

theorem Task.quiet_perform (h : p.renderer.Quiet) (t : Task ω) : (t.perform p).renderer.Quiet := by
  cases t with
  | run s => exact h
  | closeBatch => exact h.of_content_eq p.content_closeBatch
  | frame g =>
    by_cases hg : g = p.renderer.generation
    · rw [perform, hg, p.runFrame_generation]
      exact Renderer.Quiet.perform (h.of_content_eq rfl)
    · rw [perform, p.runFrame_of_ne hg]
      exact h

/-- Only the end of a batch works on the queues, and only on the frames. -/
theorem Task.deferred_perform (p : Site (Queues (Task ω)) ω) (t : Task ω) :
    (t.perform p).scheduler.deferred = p.scheduler.deferred := by
  cases t with
  | run s => rfl
  | closeBatch =>
    show (p.closeBatch).scheduler.deferred = _
    unfold Site.closeBatch Site.requestFrame Site.supersede Site.onRenderer
    cases p.renderer.frame with
    | none => rfl
    | some id => exact p.scheduler.deferred_cancelFrame id
  | frame g =>
    by_cases hg : g = p.renderer.generation
    · rw [perform, hg, p.runFrame_generation]
    · rw [perform, p.runFrame_of_ne hg]

/-! ## §2. What is owed -/

namespace Lockstep

variable {taken : Multiset (Waiting (Task ω))}

/-- **A task that starts** pays what it renders: what was rendered and what is owed stay the same
    in sum, if no frame is drawn in the midst of a batch. -/
theorem completed_add_owed (h : Lockstep p (w ::ₘ taken))
    (hw : w.isDeferred = true ∨ p.renderer.batchPending = false) :
    (w.task.perform p).renderer.page.completed + (w.task.perform p).renderer.owed =
      p.renderer.page.completed + p.renderer.owed := by
  have hknown : w.task.isOwn = true → w ∈ p.renderer.awaited ∨ w.Stale p.renderer.generation :=
    h.awaited_or_stale (Multiset.mem_cons_self w taken)
  cases htask : w.task with
  | run s => rfl
  | closeBatch =>
    rcases hknown (by rw [htask]; rfl) with hmem | ⟨id, g, rfl, -⟩
    · rcases Renderer.mem_awaited_iff.mp hmem with ⟨hpending, -⟩ | ⟨id, -, rfl⟩
      · -- The batch that was owed gives way to a frame that is owed.
        have hpage : p.closeBatch.renderer.page = p.renderer.page :=
          Site.page_of_content_eq p.content_closeBatch
        show p.closeBatch.renderer.page.completed + p.closeBatch.renderer.owed = _
        rw [hpage, Renderer.owed_of_frame rfl, Renderer.owed_of_batchPending hpending]
      · cases htask
    · cases htask
  | frame g =>
    by_cases hg : g = p.renderer.generation
    · subst hg
      rcases hknown (by rw [htask]; rfl) with hmem | ⟨id, g, rfl, hlt⟩
      · rcases Renderer.mem_awaited_iff.mp hmem with ⟨-, rfl⟩ | ⟨id, hframe, rfl⟩
        · cases htask
        · have hbatch : p.renderer.batchPending = false :=
            hw.resolve_left (by simp [Waiting.isDeferred])
          obtain ⟨hpending, hnone, -⟩ := Renderer.plan_eq_iff.mp
            (Renderer.plan_perform { p.renderer with frame := none })
          rw [Task.perform, p.runFrame_generation, Renderer.completed_perform,
            Renderer.owed_eq_zero (hpending.trans hbatch) hnone, Renderer.owed_of_frame hframe]
      · obtain rfl := Task.frame.inj htask
        exact absurd hlt (Nat.lt_irrefl _)
    · rw [Task.perform, p.runFrame_of_ne hg]

/-- A frame that starts neither hands anything over nor opens a batch. -/
theorem frame_perform {id : FrameId} {t : Task ω} (h : Lockstep p (.frame id t ::ₘ taken)) :
    (t.perform p).scheduler = p.scheduler ∧
      (t.perform p).renderer.batchPending = p.renderer.batchPending := by
  cases t with
  | run s => exact ⟨rfl, rfl⟩
  | closeBatch =>
    -- The end of a batch is no frame.
    rcases h.current_or_stale (Multiset.mem_cons_self _ taken) rfl with ⟨-, heq⟩ | ⟨g, heq, -⟩
    · cases heq
    · cases heq
  | frame g =>
    by_cases hg : g = p.renderer.generation
    · rw [Task.perform, hg, p.runFrame_generation]
      exact ⟨rfl, (Renderer.plan_eq_iff.mp (Renderer.plan_perform _)).1⟩
    · rw [Task.perform, p.runFrame_of_ne hg]
      exact ⟨rfl, rfl⟩

/-- Where nothing is in the queues and nothing was taken out, nothing is owed. -/
theorem owed_eq_zero (h : Lockstep p 0) (hempty : p.scheduler.isEmpty = true) :
    p.renderer.owed = 0 := by
  simp only [Queues.isEmpty, Bool.and_eq_true, List.isEmpty_iff] at hempty
  exact Renderer.owed_eq_zero (h.holdsAwaited.batchPending_eq_false hempty.1)
    (h.holdsAwaited.frame_eq_none hempty.2)

end Lockstep

/-! ## §3. What a session comes to -/

/-- A session at the one site and with the one agenda comes to the other by itself. -/
def ComesTo (p : Site (Queues (Task ω)) ω) (as : List (Activity ω)) (p' : Site (Queues (Task ω)) ω)
    (as' : List (Activity ω)) : Prop :=
  ∀ m : Session ω, m.At p as → ∃ k, (Session.step^[k] m).At p' as'

namespace ComesTo

variable {p₁ p₂ p₃ : Site (Queues (Task ω)) ω} {as₁ as₂ as₃ : List (Activity ω)} {a : Activity ω}

theorem refl (p : Site (Queues (Task ω)) ω) (as : List (Activity ω)) : ComesTo p as p as :=
  fun _ h => ⟨0, h⟩

theorem trans (h : ComesTo p₁ as₁ p₂ as₂) (h' : ComesTo p₂ as₂ p₃ as₃) : ComesTo p₁ as₁ p₃ as₃ := by
  intro m hm
  obtain ⟨k, hk⟩ := h m hm
  obtain ⟨k', hk'⟩ := h' _ hk
  refine ⟨k' + k, ?_⟩
  rw [Function.iterate_add_apply]
  exact hk'

/-- What the next step comes to may depend on the embedder's state. -/
theorem of_step
    (h : ∀ m : Session ω, m.At p as → ∃ p₁ as₁, m.step.At p₁ as₁ ∧ ComesTo p₁ as₁ p₂ as₂) :
    ComesTo p as p₂ as₂ := by
  intro m hm
  obtain ⟨p₁, as₁, hstep, hcomes⟩ := h m hm
  obtain ⟨k, hk⟩ := hcomes _ hstep
  exact ⟨k + 1, hk⟩

/-- The next step is one of a script. -/
theorem of_advance {s : Script ω}
    (h : ∀ m : Session ω, m.At p as → ∃ p₁ as₁, (m.advance s).At p₁ as₁ ∧ ComesTo p₁ as₁ p₂ as₂) :
    ComesTo p (.rest s :: as) p₂ as₂ := by
  refine of_step fun m hm => ?_
  rw [Session.step, hm.agenda_eq]
  exact h { m with agenda := as } ⟨hm.renderer_eq, hm.queues_eq, rfl⟩

/-- A quiet script ends. -/
theorem script {s : Script ω} (hs : s.Quiet) : ComesTo p (.rest s :: as) p as := by
  -- What is left are steps of the embedder, and the last case is all the others.
  induction s with
  | done => exact of_advance fun m hm => ⟨p, as, hm, refl p as⟩
  | world change next ih =>
    refine of_advance fun m hm => ?_
    have hat : ({ m with world := change m.world } : Session ω).At p as :=
      ⟨hm.renderer_eq, hm.queues_eq, hm.agenda_eq⟩
    exact ⟨p, _, hat.run _, ih _ (hs _)⟩
  | look next ih => exact of_advance fun m hm => ⟨p, _, hm.run _, ih _ (hs _)⟩
  | emit events next ih =>
    refine of_advance fun m hm => ?_
    have hat : ({ m with events := m.events ++ events } : Session ω).At p as :=
      ⟨hm.renderer_eq, hm.queues_eq, hm.agenda_eq⟩
    exact ⟨p, _, hat.run _, ih hs⟩
  | _ => exact hs.elim

/-- A quiet activity ends, unless it is a task. -/
theorem activity (ha : a.Quiet) (hnone : a.waiting? = none) : ComesTo p (a :: as) p as := by
  cases a with
  | rest s => exact script ha
  | deferred ticket task => cases hnone
  | frame id task => cases hnone
  | effect id previous current e =>
    refine of_step fun m hm => ⟨p, .rest (e previous current) :: as, ?_, script ha⟩
    rw [Session.step, hm.agenda_eq]
    exact ⟨hm.renderer_eq, hm.queues_eq, rfl⟩
  | ready id callback =>
    refine of_step fun m hm => ⟨p, .rest callback :: as, ?_, script ha⟩
    rw [Session.step, hm.agenda_eq]
    exact ⟨hm.renderer_eq, hm.queues_eq, rfl⟩

theorem activities {new : List (Activity ω)} (hnew : ∀ a ∈ new, a.Quiet)
    (hnone : ∀ a ∈ new, a.waiting? = none) : ComesTo p (new ++ as) p as := by
  induction new with
  | nil => exact refl p as
  | cons a new ih =>
    have hhead : ComesTo p (a :: (new ++ as)) p (new ++ as) :=
      activity (hnew a List.mem_cons_self) (hnone a List.mem_cons_self)
    exact hhead.trans (ih (fun b hb => hnew b (List.mem_cons_of_mem a hb))
      fun b hb => hnone b (List.mem_cons_of_mem a hb))

/-- A quiet task runs, and so does what it makes due. -/
theorem task (ha : a.waiting? = some w) (hw : w.task.Quiet) (hr : p.renderer.Quiet) :
    ComesTo p (a :: as) (w.task.perform p) as := by
  refine of_step fun m hm => ⟨w.task.perform p, w.task.due p ++ as, ?_,
    activities (Task.quiet_due hr hw) w.task.waiting?_due⟩
  have hpop : ({ m with agenda := as } : Session ω).At p as := ⟨hm.renderer_eq, hm.queues_eq, rfl⟩
  rw [Session.step, hm.agenda_eq]
  cases a with
  | deferred ticket t =>
    obtain rfl := Option.some.inj ha
    exact hpop.start t
  | frame id t =>
    obtain rfl := Option.some.inj ha
    exact hpop.start t
  | _ => cases ha

/-- A flush is made of rounds: the deferred tasks, then the frames. -/
theorem round (p : Site (Queues (Task ω)) ω) (as : List (Activity ω)) (ran : Nat)
    (next : Nat → Script ω) :
    ComesTo p (.rest (.flush ran next) :: as) p (.rest (.runDeferred 0 fun deferred =>
      .runFrame fun frames => if deferred + frames = 0 then next ran
        else .flush (ran + deferred + frames) next) :: as) :=
  .of_advance fun _ hm => ⟨p, _, hm.run _, .refl _ _⟩

/-- A round in which nothing runs is the last one. -/
theorem flush_of_isEmpty (hempty : p.scheduler.isEmpty = true) (ran : Nat)
    (next : Nat → Script ω) :
    ComesTo p (.rest (.flush ran next) :: as) p (.rest (next ran) :: as) := by
  simp only [Queues.isEmpty, Bool.and_eq_true, List.isEmpty_iff] at hempty
  refine (round p as ran next).trans (.of_advance fun m hm => ?_)
  have hnone : m.queues.takeDeferred? = none := by
    rw [hm.queues_eq, Queues.takeDeferred?, hempty.1]
  rw [Session.advance, hnone]
  refine ⟨p, _, hm.run _, .of_advance fun m hm => ?_⟩
  have hsame : p.scheduler.takeFrames = ([], p.scheduler) := by
    rw [Queues.takeFrames, ← hempty.2]
  rw [Session.advance, hm.queues_eq, hsame]
  exact ⟨p, _, (hm.withQueues p.scheduler).push _, .refl _ _⟩

end ComesTo

/-! ## §4. A flush -/

theorem Task.quiet_of_isOwn {t : Task ω} (h : t.isOwn = true) : t.Quiet := by
  cases t with
  | run s => cases h
  | closeBatch => trivial
  | frame g => trivial

/-- A renderer in lockstep with its queues, where all callbacks are quiet. -/
structure Calm (p : Site (Queues (Task ω)) ω) (taken : Multiset (Waiting (Task ω))) : Prop where
  /-- The renderer and its queues are in lockstep. -/
  lockstep : Lockstep p taken
  /-- The side effects and the ready callbacks are quiet. -/
  renderer : p.renderer.Quiet
  /-- The callbacks in flight are quiet. -/
  waiting : ∀ w ∈ p.inFlight taken, w.task.Quiet

namespace Calm

variable {taken : Multiset (Waiting (Task ω))}

theorem takeOut (h : Calm p taken) {q : Queues (Task ω)} {ws : List (Waiting (Task ω))}
    (hq : p.scheduler.waiting.Perm (ws ++ q.waiting)) : Calm ⟨p.renderer, q⟩ (ws + taken) := by
  refine ⟨h.lockstep.takeOut hq, h.renderer, ?_⟩
  intro w hw
  refine h.waiting w ?_
  have hfl : (p.scheduler.waiting : Multiset (Waiting (Task ω))) = ws + q.waiting :=
    Multiset.coe_eq_coe.mpr hq
  show w ∈ (p.scheduler.waiting : Multiset (Waiting (Task ω))) + taken
  rw [hfl, Multiset.add_comm (ws : Multiset (Waiting (Task ω))), Multiset.add_assoc]
  exact hw

theorem run (h : Calm p (w ::ₘ taken)) : Calm (w.task.perform p) taken := by
  refine ⟨h.lockstep.run, w.task.quiet_perform h.renderer, ?_⟩
  intro x hx
  rcases w.task.mem_inFlight_perform hx with hmem | hown
  · refine h.waiting x ?_
    rw [p.inFlight_cons]
    exact Multiset.mem_cons_of_mem hmem
  · exact Task.quiet_of_isOwn hown

theorem comesTo (h : Calm p (w ::ₘ taken)) {a : Activity ω} (ha : a.waiting? = some w) :
    ComesTo p (a :: as) (w.task.perform p) as := by
  refine .task ha (h.waiting w ?_) h.renderer
  rw [p.inFlight_cons]
  exact Multiset.mem_cons_self _ _

/-- **Deferred tasks** run until there is none. -/
theorem drained (as : List (Activity ω)) {next : Nat → Script ω} {ds : List (Ticket × Task ω)}
    (h : Calm p 0) (hds : p.scheduler.deferred = ds) (ran : Nat) :
    ∃ p', ComesTo p (.rest (.runDeferred ran next) :: as) p'
        (.rest (next (ran + ds.length)) :: as) ∧
      Calm p' 0 ∧ p'.scheduler.deferred = [] ∧
      p'.renderer.page.completed + p'.renderer.owed =
        p.renderer.page.completed + p.renderer.owed := by
  -- No quiet task defers another, so each one leaves the others as they were.
  induction ds generalizing p ran with
  | nil =>
    refine ⟨p, .of_advance fun m hm => ⟨p, _, ?_, .refl _ _⟩, h, hds, rfl⟩
    have hnone : m.queues.takeDeferred? = none := by
      rw [hm.queues_eq, Queues.takeDeferred?, hds]
    rw [Session.advance, hnone]
    exact hm.run (next ran)
  | cons d ds ih =>
    obtain ⟨ticket, t⟩ := d
    have hfirst : p.scheduler.waiting.Perm
        ([.deferred t] ++ { p.scheduler with deferred := ds : Queues (Task ω) }.waiting) := by
      rw [Queues.waiting, hds]
      rfl
    have hout : Calm ⟨p.renderer, { p.scheduler with deferred := ds }⟩ {.deferred t} :=
      h.takeOut hfirst
    have hpop : ComesTo p (.rest (.runDeferred ran next) :: as)
        ⟨p.renderer, { p.scheduler with deferred := ds }⟩
        (.deferred ticket t :: .rest (.runDeferred (ran + 1) next) :: as) := by
      refine .of_advance fun m hm => ⟨_, _, ?_, .refl _ _⟩
      have hsome : m.queues.takeDeferred? =
          some ((ticket, t), { p.scheduler with deferred := ds }) := by
        rw [hm.queues_eq, Queues.takeDeferred?, hds]
      rw [Session.advance, hsome]
      exact (hm.withQueues { p.scheduler with deferred := ds }).push _
    have hrest := t.deferred_perform ⟨p.renderer, { p.scheduler with deferred := ds }⟩
    obtain ⟨p', hcomes, hcalm, hempty, hsum⟩ := ih hout.run hrest (ran + 1)
    refine ⟨p', ?_, hcalm, hempty, hsum.trans (hout.lockstep.completed_add_owed (.inl rfl))⟩
    rw [List.length_cons, Nat.add_comm ds.length 1, ← Nat.add_assoc]
    exact hpop.trans ((hout.comesTo rfl).trans hcomes)

/-- The frames that were taken out run, where no batch is pending. -/
theorem framed (as : List (Activity ω)) {fs : List (FrameId × Task ω)}
    (h : Calm p (fs.map fun f => Waiting.frame f.1 f.2 : List (Waiting (Task ω))))
    (hbatch : p.renderer.batchPending = false) :
    ∃ p', ComesTo p ((fs.map fun f => Activity.frame f.1 f.2) ++ as) p' as ∧ Calm p' 0 ∧
      p'.scheduler = p.scheduler ∧
      p'.renderer.page.completed + p'.renderer.owed =
        p.renderer.page.completed + p.renderer.owed := by
  -- On the frames that did not start yet. What they do cannot open a batch, so each one pays.
  induction fs generalizing p with
  | nil => exact ⟨p, .refl p as, h, rfl, rfl⟩
  | cons f fs ih =>
    obtain ⟨id, t⟩ := f
    have hcons : Calm p (Waiting.frame id t ::ₘ
        (fs.map fun f => Waiting.frame f.1 f.2 : List (Waiting (Task ω)))) := h
    obtain ⟨hscheduler, hpending⟩ := hcons.lockstep.frame_perform
    obtain ⟨p', hcomes, hcalm, hsame, hsum⟩ := ih hcons.run (hpending.trans hbatch)
    refine ⟨p', (hcons.comesTo rfl).trans hcomes, hcalm, hsame.trans hscheduler, ?_⟩
    exact hsum.trans (hcons.lockstep.completed_add_owed (.inr hbatch))

/-- **All frames** of the queue run, where no batch is pending. -/
theorem ranFrames (as : List (Activity ω)) {next : Nat → Script ω} (h : Calm p 0)
    (hempty : p.scheduler.deferred = []) :
    ∃ p', ComesTo p (.rest (.runFrame next) :: as) p'
        (.rest (next p.scheduler.frames.length) :: as) ∧
      Calm p' 0 ∧ p'.scheduler.isEmpty = true ∧
      p'.renderer.page.completed + p'.renderer.owed =
        p.renderer.page.completed + p.renderer.owed := by
  -- The end of a batch would be among the deferred tasks.
  have hbatch : p.renderer.batchPending = false :=
    h.lockstep.holdsAwaited.batchPending_eq_false hempty
  have hall : p.scheduler.waiting.Perm
      (p.scheduler.frames.map (fun f => Waiting.frame f.1 f.2) ++
        p.scheduler.takeFrames.2.waiting) := by
    rw [Queues.waiting, Queues.waiting, Queues.takeFrames, hempty]
    exact List.perm_append_comm.trans (by rfl)
  have hout := h.takeOut hall
  rw [Multiset.add_zero] at hout
  obtain ⟨p', hcomes, hcalm, hsame, hsum⟩ :=
    hout.framed (.rest (next p.scheduler.frames.length) :: as) hbatch
  refine ⟨p', .of_advance fun m hm => ⟨_, _, ?_, hcomes⟩, hcalm, ?_, hsum⟩
  · rw [Session.advance, hm.queues_eq, ← List.singleton_append, ← List.append_assoc]
    exact (hm.withQueues p.scheduler.takeFrames.2).push _
  · rw [hsame, Queues.isEmpty, Queues.takeFrames, hempty]
    rfl

/-- **A flush** renders what is owed and leaves nothing in the queues. -/
theorem flushed (as : List (Activity ω)) (h : Calm p 0) (ran : Nat) (next : Nat → Script ω) :
    ∃ p' ran', ComesTo p (.rest (.flush ran next) :: as) p' (.rest (next ran') :: as) ∧
      p'.scheduler.isEmpty = true ∧
      p'.renderer.page.completed = p.renderer.page.completed + p.renderer.owed := by
  obtain ⟨p₁, hdeferred, hcalm₁, hnone, hsum₁⟩ := h.drained as rfl 0
  obtain ⟨p₂, hframes, hcalm₂, hempty, hsum₂⟩ := hcalm₁.ranFrames as hnone
  -- The first round pays what is owed. If anything ran, a second one finds nothing to run.
  have hround := (ComesTo.round p as ran next).trans (hdeferred.trans hframes)
  have hpaid : p₂.renderer.page.completed = p.renderer.page.completed + p.renderer.owed := by
    rw [← hsum₁, ← hsum₂, hcalm₂.lockstep.owed_eq_zero hempty, Nat.add_zero]
  by_cases hran : 0 + p.scheduler.deferred.length + p₁.scheduler.frames.length = 0
  · rw [if_pos hran] at hround
    exact ⟨p₂, ran, hround, hempty, hpaid⟩
  · rw [if_neg hran] at hround
    exact ⟨p₂, _, hround.trans (.flush_of_isEmpty hempty _ next), hempty, hpaid⟩

end Calm

end ReactiveView
