import ReactiveView.Proofs.Session.Flush
import ReactiveView.Proofs.Session.Runs

/-! # Renders are coalesced

  However scripts call a mounted renderer and its queues, the queues stay in
  lockstep with it (`InStep`). Three things follow for every state that a session
  can come to:

  * where nothing runs, the queues hold of the renderer's own callbacks just
    those that it awaits;
  * of the frames that are run at once, at most one renders: afterwards its
    generation is spent, and no other frame that was in the queues is of a later
    one;
  * a flush among quiet callbacks renders once if anything is awaited, and else
    not at all.
-/

namespace ReactiveView

variable {ω : Type} {p p' : Site (Queues (Task ω)) ω} {a : Activity ω} {as new : List (Activity ω)}

/-! ## §1. Sessions stay in lockstep -/

/-- **A turn** keeps the lockstep, unless it cancels the frame that the renderer waits for. -/
theorem Turn.lockstep (hturn : Turn p a new p') (h : Lockstep p (waitingIn (a :: as)))
    (hkeep : ∀ id next, a = .rest (.cancelFrame id next) → p.renderer.frame ≠ some id) :
    Lockstep p' (waitingIn (new ++ as)) := by
  have hrest : ∀ next, a.waiting? = none → Lockstep p (waitingIn ([.rest next] ++ as)) := by
    intro next ha
    rw [waitingIn_append_of_due (waiting?_rest next)]
    rwa [waitingIn_cons_of_none ha] at h
  -- What was taken out is what is on the agenda, so each turn is judged by what it puts there.
  cases hturn with
  | @call s next c =>
    rw [waitingIn_append_of_due (c.waiting?_due next)]
    exact h.call c
  | changeTree change next => exact (hrest next rfl).of_plan_eq rfl
  | @alone s _ q hs =>
    rcases hs.waiting_cases with hq | ⟨w, hq, hnew, hown, -⟩ | ⟨id, next, rfl, rfl, rfl⟩
    · rw [waitingIn_append]
      exact h.takeOut hq
    · rw [waitingIn_append_of_due hnew]
      exact h.of_own_eq (Queues.own_eq_of_foreign hq hown)
    · exact h.cancelFrame (hkeep id next rfl)
  | @task _ w hw =>
    rw [waitingIn_cons_of_some hw] at h
    rw [waitingIn_append_of_due w.task.waiting?_due]
    exact h.run
  | effect id previous current e => exact hrest _ rfl
  | ready id callback => exact hrest _ rfl

namespace Session

variable {m start : Session ω} {r : Renderer ω}

/-- The renderer is there, and its queues are in lockstep with it. -/
def InStep (m : Session ω) : Prop :=
  ∃ r, m.renderer = some r ∧ Lockstep ⟨r, m.queues⟩ m.taken

theorem InStep.lockstep (h : m.InStep) (hr : m.renderer = some r) :
    Lockstep ⟨r, m.queues⟩ m.taken := by
  obtain ⟨r₁, hr₁, hsite⟩ := h
  obtain rfl := Option.some.inj (hr.symm.trans hr₁)
  exact hsite

/-- **One step** of a session. -/
theorem InStep.step (h : m.InStep) (hkeep : ¬ m.DropsAwaited) : m.step.InStep := by
  obtain ⟨r, hr, hsite⟩ := h
  rcases step_cases hr with ⟨-, hself⟩ | ⟨a, as, new, p', hm, hturn, hat⟩
  · rw [hself]
    exact ⟨r, hr, hsite⟩
  · rw [taken, hm] at hsite
    refine ⟨p'.renderer, hat.renderer_eq, ?_⟩
    rw [taken, hat.agenda_eq, hat.queues_eq]
    refine hturn.lockstep hsite fun id next ha hframe => hkeep ⟨id, next, as, r, ?_, hr, hframe⟩
    rw [hm, ha]

/-- **Every run** of a session. -/
theorem Attainable.inStep (h : start.InStep) (hm : start.Attainable m) : m.InStep := by
  obtain ⟨ms, hm⟩ := hm
  exact hm.invariant h (fun _ _ _ h => h) fun _ hkeep h => h.step hkeep

/-- All callbacks in flight are the embedder's. -/
def Foreign (m : Session ω) : Prop :=
  ∀ w ∈ (m.queues.waiting : Multiset (Waiting (Task ω))) + m.taken, w.task.isOwn = false

theorem inStep_mount (h : m.Foreign) (o : MountOptions ω) (tree : LiveTree) :
    (m.mount o tree).InStep := by
  have hplan : (o.bare tree).plan = (o.blank tree).plan := (Renderer.foldl_addEffect _ _).1
  obtain ⟨hbatch, hframe, -⟩ := Renderer.plan_eq_iff.mp hplan
  have hbare : Lockstep ⟨o.bare tree, m.queues⟩ m.taken :=
    lockstep_of_foreign hbatch hframe
      (fun w hw => h w (Multiset.mem_add.mpr (.inl (Multiset.mem_coe.mpr hw))))
      fun w hw => h w (Multiset.mem_add.mpr (.inr hw))
  refine ⟨_, rfl, ?_⟩
  show Lockstep (o.mount tree m.queues).result m.taken
  rw [o.result_mount]
  exact hbare.requestFrame

end Session

/-! ## §2. A generation is drawn once -/

/-- No frame of a generation is waited for, now or later. -/
def Renderer.Spent (g : Nat) (r : Renderer ω) : Prop :=
  g < r.generation ∨ g = r.generation ∧ r.frame = none

namespace Renderer.Spent

variable {g : Nat} {r r' : Renderer ω}

theorem of_plan_eq (h : r.Spent g) (hr : r'.plan = r.plan) : r'.Spent g := by
  obtain ⟨-, hframe, hgen⟩ := plan_eq_iff.mp hr
  rw [Spent, hframe, hgen]
  exact h

theorem supersede (h : p.renderer.Spent g) : g < p.supersede.renderer.generation := by
  show g < p.renderer.generation + 1
  rcases h with hlt | ⟨rfl, -⟩
  · exact Nat.lt_succ_of_lt hlt
  · exact Nat.lt_succ_self _

theorem openBatch (h : p.renderer.Spent g) : p.openBatch.renderer.Spent g := by
  unfold Site.openBatch
  split
  · exact h
  · exact h

theorem call (h : p.renderer.Spent g) (c : Call ω) : (c.perform p).renderer.Spent g := by
  cases c with
  | setState u =>
    by_cases hpos : Store.written u > 0
    · rw [Call.perform, p.setState_of_written hpos]
      exact openBatch h
    · rw [Call.perform, p.setState_of_not_written hpos]
      exact h
  | write key v => exact openBatch h
  | remove key => exact .inl (supersede h)
  | render => exact of_plan_eq (.inl (supersede h)) (plan_perform p.supersede.renderer)
  | onReady callback =>
    by_cases hdone : p.renderer.page.completed = 0
    · rw [Call.perform, p.onReady_of_waiting callback hdone]
      exact h
    · rw [Call.perform, p.onReady_of_drawn callback hdone]
      exact h
  | _ => exact h

theorem task (h : p.renderer.Spent g) (t : Task ω) : (t.perform p).renderer.Spent g := by
  cases t with
  | run s => exact h
  | closeBatch => exact .inl (supersede h)
  | frame g' =>
    by_cases hg : g' = p.renderer.generation
    · have hnone : Renderer.Spent g { p.renderer with frame := none } :=
        h.imp_right fun hcur => ⟨hcur.1, rfl⟩
      rw [Task.perform, hg, p.runFrame_generation]
      exact hnone.of_plan_eq (plan_perform _)
    · rw [Task.perform, p.runFrame_of_ne hg]
      exact h

theorem turn (h : p.renderer.Spent g) (hturn : Turn p a new p') : p'.renderer.Spent g := by
  cases hturn with
  | @call s next c => exact h.call c
  | @task _ w => exact h.task w.task
  | changeTree change next => exact h.of_plan_eq rfl
  | _ => exact h

end Renderer.Spent

namespace Session

variable {m start : Session ω} {r : Renderer ω} {f f' : FrameId × Task ω} {g : Nat}

/-- The generation is spent for the renderer that is there. -/
def Spent (g : Nat) (m : Session ω) : Prop := ∃ r, m.renderer = some r ∧ r.Spent g

theorem Spent.step (h : m.Spent g) : m.step.Spent g := by
  obtain ⟨r, hr, hspent⟩ := h
  rcases step_cases hr with ⟨-, hself⟩ | ⟨a, as, new, p', -, hturn, hat⟩
  · rw [hself]
    exact ⟨r, hr, hspent⟩
  · exact ⟨p'.renderer, hat.renderer_eq, Renderer.Spent.turn hspent hturn⟩

theorem Spent.iterate (h : m.Spent g) (k : Nat) : (Session.step^[k] m).Spent g := by
  induction k with
  | zero => exact h
  | succ k ih =>
    rw [Function.iterate_succ_apply']
    exact ih.step

/-- The next step starts a frame, and the frame renders. -/
def Draws (m : Session ω) (f : FrameId × Task ω) : Prop :=
  ∃ r r' as, m.agenda = .frame f.1 f.2 :: as ∧ m.renderer = some r ∧ m.step.renderer = some r' ∧
    r.page.completed < r'.page.completed

/-- Only a frame of the current generation renders, and then the generation is spent. -/
theorem Draws.current (h : m.Draws f) :
    ∃ r as, m.agenda = .frame f.1 f.2 :: as ∧ m.renderer = some r ∧
      f.2 = .frame r.generation ∧ m.step.Spent r.generation := by
  obtain ⟨r, r', as, hagenda, hr, hr', hlt⟩ := h
  have hpop : ({ m with agenda := as } : Session ω).At ⟨r, m.queues⟩ as := ⟨hr, rfl, rfl⟩
  have hat : m.step.At (f.2.perform ⟨r, m.queues⟩) (f.2.due ⟨r, m.queues⟩ ++ as) := by
    rw [Session.step, hagenda]
    exact hpop.start f.2
  obtain rfl : (f.2.perform ⟨r, m.queues⟩).renderer = r' :=
    Option.some.inj (hat.renderer_eq.symm.trans hr')
  refine ⟨r, as, hagenda, hr, ?_⟩
  -- A callback of the embedder's renders later if at all, and a stale frame does nothing.
  cases htask : f.2 with
  | run s =>
    rw [htask] at hlt
    exact absurd hlt (Nat.lt_irrefl _)
  | closeBatch =>
    rw [htask, Task.perform, Site.page_of_content_eq (Site.content_closeBatch _)] at hlt
    exact absurd hlt (Nat.lt_irrefl _)
  | frame g =>
    by_cases hg : g = r.generation
    · refine ⟨by rw [hg], _, hat.renderer_eq, ?_⟩
      have hnone : Renderer.Spent r.generation { r with frame := none } := .inr ⟨rfl, rfl⟩
      rw [htask, Task.perform, hg, Site.runFrame_generation ⟨r, m.queues⟩]
      exact hnone.of_plan_eq (Renderer.plan_perform _)
    · rw [htask, Task.perform, Site.runFrame_of_ne _ hg] at hlt
      exact absurd hlt (Nat.lt_irrefl _)

/-- Of the frames of a batch, at most one renders from here on, as long as no step drops the frame
    that the renderer waits for. -/
def DrawsAtMostOne (m : Session ω) (batch : List (FrameId × Task ω)) : Prop :=
  ∀ i j, i < j → (∀ k < j, ¬ (Session.step^[k] m).DropsAwaited) →
    ∀ f ∈ batch, ∀ f' ∈ batch, (Session.step^[i] m).Draws f → ¬ (Session.step^[j] m).Draws f'

/-- A frame whose generation is spent does not render. -/
theorem InStep.not_draws (h : m.InStep) (hspent : m.Spent g) (hf : f.2 = .frame g) :
    ¬ m.Draws f := by
  intro hdraws
  obtain ⟨r, as, hagenda, hr, hcurrent, -⟩ := hdraws.current
  obtain ⟨r₁, hr₁, hspent⟩ := hspent
  obtain rfl := Option.some.inj (hr.symm.trans hr₁)
  obtain rfl : g = r.generation := Task.frame.inj (hf.symm.trans hcurrent)
  -- The frame was taken out, so the renderer waits for it unless it is stale.
  have hmem : Waiting.frame f.1 f.2 ∈ m.taken := by
    show _ ∈ waitingIn m.agenda
    rw [hagenda, waitingIn_cons_of_some rfl]
    exact Multiset.mem_cons_self _ _
  rcases (h.lockstep hr).current_or_stale hmem (by rw [hf]; rfl) with
    ⟨hframe, -⟩ | ⟨g, htask, hstale⟩
  · rcases hspent with hlt | ⟨-, hnone⟩
    · exact absurd hlt (Nat.lt_irrefl _)
    · exact absurd (hframe.symm.trans hnone) (by simp)
  · obtain rfl := Task.frame.inj (hf.symm.trans htask)
    exact absurd hstale (Nat.lt_irrefl _)

/-- The renderer's own frames in the queues are of the current generation. -/
theorem InStep.generation_eq (h : m.InStep) (hr : m.renderer = some r)
    (hf : f ∈ m.queues.frames) (hown : f.2.isOwn = true) : f.2 = .frame r.generation := by
  have hmem : Waiting.frame f.1 f.2 ∈ m.queues.own := by
    rw [Queues.own, ownCallbacks, Multiset.mem_filter, Multiset.mem_coe, Queues.waiting]
    exact ⟨List.mem_append.mpr (.inr (List.mem_map.mpr ⟨f, hf, rfl⟩)), hown⟩
  rcases Renderer.mem_awaited_iff.mp ((h.lockstep hr).mem_awaited hmem) with
    ⟨-, heq⟩ | ⟨id, -, heq⟩
  · cases heq
  · exact (Waiting.frame.inj heq).2

/-- **The frames in the queues**: at most one renders. -/
theorem Attainable.drawsAtMostOne (hstart : start.InStep) (hm : start.Attainable m) :
    m.DrawsAtMostOne m.queues.frames := by
  intro i j hij hkeep f hf f' hf' hdraws
  obtain ⟨r, hr, -⟩ := hm.inStep hstart
  have hinStep : (Session.step^[j] m).InStep := (hm.iterate j hkeep).inStep hstart
  obtain ⟨rᵢ, -, -, -, htask, hspent⟩ := hdraws.current
  have hgen : f.2 = .frame r.generation :=
    (hm.inStep hstart).generation_eq hr hf (by rw [htask]; rfl)
  intro hdraws'
  obtain ⟨rⱼ, -, -, -, htask', -⟩ := hdraws'.current
  have hgen' : f'.2 = .frame r.generation :=
    (hm.inStep hstart).generation_eq hr hf' (by rw [htask']; rfl)
  -- Both frames are of the generation that is current at first, and rendering spends it.
  have hsame : rᵢ.generation = r.generation := Task.frame.inj (htask.symm.trans hgen)
  rw [hsame, ← Function.iterate_succ_apply' Session.step i m] at hspent
  have hlater : (Session.step^[j] m).Spent r.generation := by
    have h := hspent.iterate (j - (i + 1))
    rw [← Function.iterate_add_apply, Nat.sub_add_cancel hij] at h
    exact h
  exact hinStep.not_draws hlater hgen' hdraws'

/-! ## §3. Coalescing -/

theorem taken_eq_zero (hrest : m.isResting = true) : m.taken = 0 := by
  rw [taken, List.isEmpty_iff.mp hrest]
  rfl

/-- **A flush** among quiet callbacks renders what is owed and leaves nothing in the queues. -/
theorem InStep.flushed (h : m.InStep) (hr : m.renderer = some r) (hrest : m.isResting = true)
    (hquiet : r.Quiet) (hwaiting : ∀ w ∈ m.queues.waiting, w.task.Quiet) (next : Nat → Script ω) :
    ∃ k ran p', (Session.step^[k] (m.run (.flush 0 next))).At p' [.rest (next ran)] ∧
      p'.scheduler.isEmpty = true ∧ p'.renderer.page.completed = r.page.completed + r.owed := by
  have hsite := h.lockstep hr
  rw [taken_eq_zero hrest] at hsite
  have hcalm : Calm ⟨r, m.queues⟩ 0 := by
    refine ⟨hsite, hquiet, fun w hw => ?_⟩
    rcases Multiset.mem_add.mp hw with hw | hw
    · exact hwaiting w (Multiset.mem_coe.mp hw)
    · exact absurd hw (Multiset.notMem_zero w)
  obtain ⟨p', ran, hcomes, hempty, hcompleted⟩ := hcalm.flushed [] 0 next
  have hat : m.At ⟨r, m.queues⟩ [] := ⟨hr, rfl, List.isEmpty_iff.mp hrest⟩
  obtain ⟨k, hk⟩ := hcomes _ (hat.run (.flush 0 next))
  exact ⟨k, ran, p', hk, hempty, hcompleted⟩

/-- **Renders are coalesced**, whatever was called since a view was mounted. Where nothing runs, the
    queues hold just what the renderer awaits. Of the frames that are run at once at most one
    renders. A flush among quiet callbacks renders once if the end of a batch or a frame is awaited,
    and else not at all, and it leaves nothing in the queues. -/
theorem renders_coalesced {o : MountOptions ω} {tree : LiveTree} (hstart : start.Foreign)
    (hm : (start.mount o tree).Attainable m) :
    ∃ r, m.renderer = some r ∧
      (m.isResting = true → HoldsAwaited r m.queues) ∧
      (∀ next as, m.agenda = .rest (.runFrame next) :: as →
        m.DrawsAtMostOne m.queues.frames) ∧
      (m.isResting = true → r.Quiet → (∀ w ∈ m.queues.waiting, w.task.Quiet) → ∀ next,
        ∃ k ran p', (Session.step^[k] (m.run (.flush 0 next))).At p' [.rest (next ran)] ∧
          p'.scheduler.isEmpty = true ∧
          p'.renderer.page.completed = r.page.completed +
            if r.batchPending || r.frame.isSome then 1 else 0) := by
  have hmount := inStep_mount hstart o tree
  have hinStep := hm.inStep hmount
  obtain ⟨r, hr, hsite⟩ := hinStep
  refine ⟨r, hr, ?_, ?_, ?_⟩
  · intro hrest
    rw [taken_eq_zero hrest] at hsite
    exact hsite.holdsAwaited
  · intro next as hagenda
    exact hm.drawsAtMostOne hmount
  · intro hrest hquiet hwaiting next
    exact (hm.inStep hmount).flushed hr hrest hquiet hwaiting next

/-- A write and a removal leave two callbacks in the queues, and a flush renders once. -/
theorem renders_coalesced_after_write_and_remove :
    let o : MountOptions Unit := ⟨"#app",
      fun s => pure [.text (if (s.find? "key").isSome then "set" else "unset")], ∅, []⟩
    let start := (initial ()).mount o (LiveTree.initial.createMountPoint "app").2
    let m := step^[3] (start.run (.write "key" .null (.remove "key" fun _ => .done)))
    (m.queues.deferred.length = 1 ∧ m.queues.frames.length = 1) ∧
      ∃ r, m.renderer = some r ∧ HoldsAwaited r m.queues ∧
        (m.run (.runFrame fun _ => .done)).DrawsAtMostOne m.queues.frames ∧
        ∃ k p', (Session.step^[k] (m.run (.flush 0 fun _ => .done))).At p' [.rest .done] ∧
          p'.scheduler.isEmpty = true ∧ p'.renderer.page.completed = 1 := by
  intro o start m
  have hforeign : (initial ()).Foreign := by
    intro w hw
    exact absurd hw (Multiset.notMem_zero w)
  have htrivial : Respected (ω := Unit) (fun _ => True) fun _ => False :=
    ⟨fun _ _ _ _ => ⟨trivial, False.elim, fun _ => id⟩, fun _ _ _ => ⟨trivial, id, fun _ => id⟩⟩
  have hmount : start.Holds (fun _ => True) fun _ => False := by
    refine ⟨⟨_, rfl, trivial, ?_⟩, by simp [start, mount, initial]⟩
    rw [(ready_initial ()).taken_mount o _]
    exact MountOptions.orderly_mount (by simp [o]) (ready_initial ()).waiting _
  have hrun : start.Reachable
      (start.run (.write "key" .null (.remove "key" fun _ => .done))) :=
    .run _ (fun _ => trivial) .start
  have hm : start.Attainable m := htrivial.attainable hmount (hrun.iterate 3)
  have hshape : m.isResting = true ∧ m.queues.deferred.length = 1 ∧ m.queues.frames.length = 1 ∧
      m.queues.waiting.all (·.task.isOwn) = true := by decide
  have howed : m.renderer.map (fun r => (r.page.completed, r.batchPending,
      r.effects.entries.length, r.ready.entries.length)) = some (0, true, 0, 0) := by decide
  obtain ⟨hrest, hdeferred, hframes, hown⟩ := hshape
  obtain ⟨r, hr, hholds, -, hflush⟩ := renders_coalesced hforeign hm
  obtain ⟨-, -, -, hdraws, -⟩ := renders_coalesced hforeign (hm.run (.runFrame fun _ => .done))
  rw [hr, Option.map_some, Option.some.injEq, Prod.mk.injEq, Prod.mk.injEq, Prod.mk.injEq] at howed
  obtain ⟨hcompleted, hbatch, heffects, hready⟩ := howed
  have hquiet : r.Quiet := by
    refine ⟨?_, ?_⟩
    · rw [List.eq_nil_of_length_eq_zero heffects]
      simp
    · rw [List.eq_nil_of_length_eq_zero hready]
      simp
  have hwaiting : ∀ w ∈ m.queues.waiting, w.task.Quiet := by
    intro w hw
    exact Task.quiet_of_isOwn (List.all_eq_true.mp hown w hw)
  obtain ⟨k, -, p', hat, hempty, hcount⟩ := hflush hrest hquiet hwaiting fun _ => .done
  rw [hcompleted, hbatch] at hcount
  exact ⟨⟨hdeferred, hframes⟩, r, hr, hholds hrest, hdraws _ _ rfl, k, p', hat, hempty, hcount⟩

end Session

end ReactiveView
