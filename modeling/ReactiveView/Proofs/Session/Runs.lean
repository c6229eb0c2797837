import ReactiveView.Proofs.Session.Turns

/-! # Runs of a session

  Scripts are started in a session and steps are taken. What a session can come
  to depends on which scripts are started when, and on which steps are left out.

  * `Passage`: what is come to and the states on the way, for any condition on
    both. A run of a session or of one that is watched is a passage, and what
    holds of all runs is proved of passages: `Passage.invariant`, `Passage.map`,
    `Passage.split`.
  * `Session.Reachable`: by confined scripts. `Session.Attainable`: by any
    scripts. The one step that is left out drops the frame that the renderer
    waits for: a frame is cancelled by its name, and the renderer tells that name
    to nobody.
  * `Respected`: what a condition on the renderer has to be kept by. Then every
    turn keeps it (`Respected.turn`), and so does every run
    (`Respected.reachable`).
-/

namespace ReactiveView

variable {ω : Type}

/-! ## §1. Passages -/

/-- What is come to by starting scripts and taking steps, and the states on the way from which a
    step was taken, first to last. `may` says which scripts may be started in which states, and
    `goes` from which states a step may be taken. -/
inductive Passage {σ : Type} (run : σ → Script ω → σ) (step : σ → σ) (may : σ → Script ω → Prop)
    (goes : σ → Prop) (start : σ) : List σ → σ → Prop where
  /-- At the start. -/
  | start : Passage run step may goes start [] start
  /-- A script is started. -/
  | run {xs : List σ} {x : σ} (s : Script ω) (hs : may x s)
      (h : Passage run step may goes start xs x) : Passage run step may goes start xs (run x s)
  /-- A step is taken. -/
  | step {xs : List σ} {x : σ} (h : Passage run step may goes start xs x) (hx : goes x) :
      Passage run step may goes start (xs ++ [x]) (step x)

namespace Passage

variable {σ τ : Type} {run : σ → Script ω → σ} {step : σ → σ} {may : σ → Script ω → Prop}
  {goes : σ → Prop} {run' : τ → Script ω → τ} {step' : τ → τ} {may' : τ → Script ω → Prop}
  {goes' : τ → Prop} {start x : σ} {xs : List σ}

/-- What holds at the start, and is kept by scripts that are started and by steps, holds always. -/
theorem invariant {P : σ → Prop} (h : Passage run step may goes start xs x) (hstart : P start)
    (hrun : ∀ x s, may x s → P x → P (run x s)) (hstep : ∀ x, goes x → P x → P (step x)) :
    P x := by
  induction h with
  | start => exact hstart
  | run s hs _ ih => exact hrun _ s hs ih
  | step _ hx ih => exact hstep _ hx ih

/-- One step after the other. -/
theorem iterate (h : Passage run step may goes start xs x) (k : Nat)
    (hgoes : ∀ i < k, goes (step^[i] x)) :
    Passage run step may goes start (xs ++ (List.range k).map fun i => step^[i] x)
      (step^[k] x) := by
  induction k with
  | zero => simpa using h
  | succ k ih =>
    rw [Function.iterate_succ_apply', List.range_succ, List.map_append, ← List.append_assoc]
    exact (ih fun i hi => hgoes i (Nat.lt_succ_of_lt hi)).step (hgoes k (Nat.lt_succ_self k))

/-- On a passage the conditions are met in states that have the invariant. -/
theorem strengthen {P : σ → Prop} (h : Passage run step may goes start xs x) (hstart : P start)
    (hrun : ∀ x s, may x s → P x → P (run x s)) (hstep : ∀ x, goes x → P x → P (step x)) :
    Passage run step (fun x s => P x ∧ may x s) (fun x => P x ∧ goes x) start xs x := by
  induction h with
  | start => exact .start
  | run s hs h ih => exact ih.run s ⟨h.invariant hstart hrun hstep, hs⟩
  | step h hx ih => exact ih.step ⟨h.invariant hstart hrun hstep, hx⟩

/-- A passage, seen through a map that goes along with scripts and steps. -/
theorem map (h : Passage run step may goes start xs x) (f : σ → τ)
    (hrun : ∀ x s, f (run x s) = run' (f x) s) (hstep : ∀ x, f (step x) = step' (f x))
    (hmay : ∀ x s, may x s → may' (f x) s) (hgoes : ∀ x, goes x → goes' (f x)) :
    Passage run' step' may' goes' (f start) (xs.map f) (f x) := by
  induction h with
  | start => exact .start
  | run s hs _ ih =>
    rw [hrun]
    exact ih.run s (hmay _ s hs)
  | step _ hx ih =>
    rw [hstep, List.map_append]
    exact ih.step (hgoes _ hx)

/-- Conversely, a passage of what the map shows comes from one that is seen through it. -/
theorem lift {y : τ} {ys : List τ} {start' : τ}
    (h : Passage run' step' may' goes' start' ys y) (f : σ → τ) (hstart : f start = start')
    (hrun : ∀ x s, f (run x s) = run' (f x) s) (hstep : ∀ x, f (step x) = step' (f x))
    (hmay : ∀ x s, may' (f x) s → may x s) (hgoes : ∀ x, goes' (f x) → goes x) :
    ∃ xs x, Passage run step may goes start xs x ∧ f x = y := by
  induction h with
  | start => exact ⟨_, _, .start, hstart⟩
  | run s hs _ ih =>
    obtain ⟨xs, x, hx, rfl⟩ := ih
    exact ⟨_, _, hx.run s (hmay x s hs), hrun x s⟩
  | step _ hgo ih =>
    obtain ⟨xs, x, hx, rfl⟩ := ih
    exact ⟨_, _, hx.step (hgoes x hgo), hstep x⟩

/-- A passage through a state is one up to it and one from there on. -/
theorem split {before after : List σ} {v : σ}
    (h : Passage run step may goes start (before ++ v :: after) x) :
    Passage run step may goes start before v ∧ Passage run step may goes (step v) after x := by
  generalize hxs : before ++ v :: after = xs at h
  -- The induction is on the whole passage, and `after` gets shorter with it.
  induction h generalizing after with
  | start => simp at hxs
  | run s hs h ih =>
    obtain ⟨hbefore, hafter⟩ := ih hxs
    exact ⟨hbefore, hafter.run s hs⟩
  | @step xs x h hx ih =>
    rcases List.eq_nil_or_concat after with rfl | ⟨after, w, rfl⟩
    · -- The step from `v` is the last one.
      obtain ⟨rfl, hv⟩ := List.append_inj' hxs rfl
      obtain rfl : v = x := by simpa using hv
      exact ⟨h, .start⟩
    · have hassoc : (before ++ v :: after) ++ [w] = xs ++ [x] := by
        rw [← hxs, List.append_assoc, List.cons_append, List.concat_eq_append]
      obtain ⟨hxs', hw⟩ := List.append_inj' hassoc rfl
      obtain rfl : w = x := List.singleton_inj.mp hw
      obtain ⟨hbefore, hafter⟩ := ih hxs'
      rw [List.concat_eq_append]
      exact ⟨hbefore, hafter.step hx⟩

end Passage

/-! ## §2. What a session can come to -/

namespace Session

variable {base m : Session ω}

/-- What a session can come to by confined scripts: one is started, or the next step is taken. -/
def Reachable (start m : Session ω) : Prop :=
  ∃ ms, Passage run step (fun _ s => s.Confined) (fun _ => True) start ms m

theorem Reachable.start : base.Reachable base := ⟨[], .start⟩

theorem Reachable.run (s : Script ω) (hs : s.Confined) (h : base.Reachable m) :
    base.Reachable (m.run s) := by
  obtain ⟨ms, h⟩ := h
  exact ⟨ms, h.run s hs⟩

theorem Reachable.iterate (h : base.Reachable m) (k : Nat) :
    base.Reachable (Session.step^[k] m) := by
  obtain ⟨ms, h⟩ := h
  exact ⟨_, h.iterate k fun _ _ => trivial⟩

/-- The next step cancels the frame that the renderer waits for. -/
def DropsAwaited (m : Session ω) : Prop :=
  ∃ id next as r, m.agenda = .rest (.cancelFrame id next) :: as ∧ m.renderer = some r ∧
    r.frame = some id

/-- What a session can come to: a script is started, or the next step is taken. The name of the
    frame that the renderer waits for is known to the renderer alone, so no step cancels it. -/
def Attainable (start m : Session ω) : Prop :=
  ∃ ms, Passage run step (fun _ _ => True) (fun m => ¬ m.DropsAwaited) start ms m

theorem Attainable.run (s : Script ω) (h : base.Attainable m) : base.Attainable (m.run s) := by
  obtain ⟨ms, h⟩ := h
  exact ⟨ms, h.run s trivial⟩

theorem Attainable.iterate (h : base.Attainable m) (k : Nat)
    (hkeep : ∀ i < k, ¬ (Session.step^[i] m).DropsAwaited) :
    base.Attainable (Session.step^[k] m) := by
  obtain ⟨ms, h⟩ := h
  exact ⟨_, h.iterate k hkeep⟩

/-- The callbacks that were taken out of the queues and did not start yet. -/
def taken (m : Session ω) : Multiset (Waiting (Task ω)) :=
  (m.agenda.filterMap Activity.waiting? : List (Waiting (Task ω)))

/-- A session to mount in: nothing runs, and what waits is confined callbacks of the embedder. -/
structure Ready (m : Session ω) : Prop where
  /-- Nothing runs. -/
  isResting : m.isResting = true
  /-- What waits is the embedder's and confined. -/
  waiting : ∀ w ∈ m.queues.waiting, w.task.isOwn = false ∧ w.task.Confined

theorem ready_initial (world : ω) : (initial world).Ready where
  isResting := rfl
  waiting _ hw := absurd hw List.not_mem_nil

theorem Ready.taken_mount {m : Session ω} (h : m.Ready) (o : MountOptions ω) (tree : LiveTree) :
    (m.mount o tree).taken = 0 := by
  have hagenda : m.agenda = [] := List.isEmpty_iff.mp h.isResting
  rw [taken, mount, hagenda]
  rfl

theorem Ready.agenda_mount {m : Session ω} (h : m.Ready) (o : MountOptions ω) (tree : LiveTree) :
    (m.mount o tree).agenda = [] := List.isEmpty_iff.mp h.isResting

/-- Callbacks in flight are in the queues or on the agenda. -/
theorem inFlight_eq_zero {m : Session ω} (hrest : m.isResting = true)
    (hempty : m.queues.isEmpty = true) (r : Renderer ω) :
    (⟨r, m.queues⟩ : Site (Queues (Task ω)) ω).inFlight m.taken = 0 := by
  have hagenda : m.agenda = [] := List.isEmpty_iff.mp hrest
  have hqueues : m.queues.waiting = [] := by
    simp only [Queues.isEmpty, Bool.and_eq_true, List.isEmpty_iff] at hempty
    rw [Queues.waiting, hempty.1, hempty.2]
    rfl
  show (m.queues.waiting : Multiset (Waiting (Task ω))) + m.taken = 0
  rw [hqueues, taken, hagenda]
  rfl

end Session

/-! ## §3. What turns keep -/

/-- A condition on the renderer, and a way of being behind, that calls and tasks respect: the
    condition goes on to hold, only what writes leaves the renderer behind, and drawing does not. -/
structure Respected (J behind : Renderer ω → Prop) : Prop where
  /-- Calls respect it. -/
  call : ∀ (p : Site (Queues (Task ω)) ω) (c : Call ω), J p.renderer → c.Confined →
    J (c.perform p).renderer ∧
      (behind (c.perform p).renderer → behind p.renderer ∨ c.writes = true) ∧
      (c.draws = true → ¬ behind (c.perform p).renderer)
  /-- Tasks respect it. -/
  task : ∀ (p : Site (Queues (Task ω)) ω) (t : Task ω), J p.renderer →
    J (t.perform p).renderer ∧ (behind (t.perform p).renderer → behind p.renderer) ∧
      (t = .frame p.renderer.generation → ¬ behind (t.perform p).renderer)

namespace Respected

variable {J behind : Renderer ω → Prop} {p p' : Site (Queues (Task ω)) ω} {a : Activity ω}
  {as new : List (Activity ω)}

/-- **A turn** of a confined activity keeps the order around the renderer. -/
theorem turn (hk : Respected J behind) (hJ : J p.renderer)
    (h : Orderly p (waitingIn (a :: as)) (behind p.renderer)) (ha : a.Confined)
    (hturn : Turn p a new p') :
    J p'.renderer ∧ Orderly p' (waitingIn (new ++ as)) (behind p'.renderer) ∧
      ∀ b ∈ new, b.Confined := by
  have htask : ∀ w, a.waiting? = some w → w.task.Confined := by
    intro w hw
    refine h.confined w ?_
    rw [waitingIn_cons_of_some hw, Site.inFlight_cons]
    exact Multiset.mem_cons_self _ _
  have hconfined := hturn.confined h.tame ha htask
  -- What runs next comes first on the agenda; it was in flight if it is a task.
  have hquiet : a.waiting? = none → Orderly p (waitingIn as) (behind p.renderer) := by
    intro hnone
    rwa [waitingIn_cons_of_none hnone] at h
  cases hturn with
  | @call s next c hs hnext =>
    obtain ⟨hJ', hbehind, hdrawn⟩ := hk.call p c hJ (hnext ha).1
    rw [waitingIn_append_of_due (c.waiting?_due next)]
    exact ⟨hJ', (hquiet rfl).call c (hnext ha).1 hbehind hdrawn, hconfined⟩
  | changeTree change next => exact ha.elim
  | @alone s _ q hs =>
    rcases hs.waiting_cases with hq | ⟨w, hq, hnew, hown, hw⟩ | ⟨id, next, rfl, -, -⟩
    · -- What left the queues is on the agenda now.
      refine ⟨hJ, (hquiet rfl).of_inFlight_eq ?_, hconfined⟩
      have hfl : (p.scheduler.waiting : Multiset (Waiting (Task ω))) =
          waitingIn new + q.waiting := Multiset.coe_eq_coe.mpr hq
      show (q.waiting : Multiset (Waiting (Task ω))) + waitingIn (new ++ as) =
        p.scheduler.waiting + waitingIn as
      rw [hfl, waitingIn_append, ← Multiset.add_assoc]
      exact congrArg (· + waitingIn as) (Multiset.add_comm _ _)
    · rw [waitingIn_append_of_due hnew]
      refine ⟨hJ, (hquiet rfl).of_inFlight_eq_cons (w := w) ?_ hown (hw ha), hconfined⟩
      have hfl : (q.waiting : Multiset (Waiting (Task ω))) = w ::ₘ p.scheduler.waiting :=
        Multiset.coe_eq_coe.mpr hq
      exact (congrArg (· + waitingIn as) hfl).trans (Multiset.cons_add _ _ _)
    · exact ha.elim
  | @task _ w hw =>
    obtain ⟨hJ', hbehind, hdrawn⟩ := hk.task p w.task hJ
    rw [waitingIn_cons_of_some hw] at h
    rw [waitingIn_append_of_due w.task.waiting?_due]
    exact ⟨hJ', h.run hbehind hdrawn, hconfined⟩
  | effect id previous current e =>
    rw [waitingIn_append_of_due (waiting?_rest _)]
    exact ⟨hJ, hquiet rfl, hconfined⟩
  | ready id callback =>
    rw [waitingIn_append_of_due (waiting?_rest _)]
    exact ⟨hJ, hquiet rfl, hconfined⟩

end Respected

/-! ## §4. What runs keep -/

namespace Session

/-- The condition holds of the renderer, and all is in order around it. -/
structure Holds (J behind : Renderer ω → Prop) (m : Session ω) : Prop where
  /-- The renderer is there, and everything around it is in order. -/
  site : ∃ r, m.renderer = some r ∧ J r ∧ Orderly ⟨r, m.queues⟩ m.taken (behind r)
  /-- What is about to run is confined. -/
  agenda : ∀ a ∈ m.agenda, a.Confined

end Session

namespace Respected

open Session

variable {J behind : Renderer ω → Prop} {m start : Session ω}

theorem run (h : m.Holds J behind) {s : Script ω} (hs : s.Confined) : (m.run s).Holds J behind := by
  refine ⟨h.site, ?_⟩
  intro a ha
  rcases List.mem_cons.mp ha with rfl | ha
  · exact hs
  · exact h.agenda a ha

/-- **One step** of a session. -/
theorem step (hk : Respected J behind) (h : m.Holds J behind) : m.step.Holds J behind := by
  obtain ⟨r, hr, hJ, hsite⟩ := h.site
  rcases step_cases hr with ⟨-, hself⟩ | ⟨a, as, new, p', hm, hturn, hat⟩
  · rw [hself]
    exact h
  · rw [taken, hm] at hsite
    obtain ⟨hJ', hsite', hnew⟩ := hk.turn hJ hsite (h.agenda a (by simp [hm])) hturn
    refine ⟨⟨p'.renderer, hat.renderer_eq, hJ', ?_⟩, ?_⟩
    · rw [taken, hat.agenda_eq, hat.queues_eq]
      exact hsite'
    · intro b hb
      rw [hat.agenda_eq] at hb
      rcases List.mem_append.mp hb with hb | hb
      · exact hnew b hb
      · exact h.agenda b (by simp [hm, hb])

/-- **Every run** of a session. -/
theorem reachable (hk : Respected J behind) (h : start.Holds J behind) (hm : start.Reachable m) :
    m.Holds J behind := by
  obtain ⟨ms, hm⟩ := hm
  exact hm.invariant h (fun _ _ hs h => run h hs) fun _ _ h => hk.step h

/-- Confined scripts cancel no frame, so they come to nothing else than scripts do that leave the
    renderer's frame alone. -/
theorem attainable (hk : Respected J behind) (h : start.Holds J behind) (hm : start.Reachable m) :
    start.Attainable m := by
  obtain ⟨ms, hm⟩ := hm
  have hkeep : ∀ m : Session ω, m.Holds J behind → ¬ m.DropsAwaited := by
    rintro m hm ⟨id, next, as, r, hagenda, -, -⟩
    have hconfined := hm.agenda (.rest (.cancelFrame id next))
    rw [hagenda] at hconfined
    exact hconfined List.mem_cons_self
  have hholds := hm.strengthen h (fun _ _ hs h => run h hs) fun _ _ h => hk.step h
  exact ⟨_, hholds.map id (fun _ _ => rfl) (fun _ => rfl) (fun _ _ _ => trivial)
    fun m hm => hkeep m hm.1⟩

end Respected

end ReactiveView
