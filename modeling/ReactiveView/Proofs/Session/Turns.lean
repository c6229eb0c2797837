import ReactiveView.Proofs.Session.Steady
import ReactiveView.Renderer.Session

/-! # What one step of a session can do

  A step runs the activity that stands first on the agenda: a script makes a
  call, changes the live tree, works on the queues or goes on by itself, or a
  task or a callback starts.

  * `Alone`: what a script can do without the renderer. `advance_call` and
    `advance_alone` go through the steps of scripts, and nothing after them does
    so again.
  * `Turn`: what one step can do at the renderer's site, and which activities it
    puts on the agenda. `exists_turn` says that every step is one of these.
  * `Alone.waiting_cases`, `Turn.confined`: what a turn does with the callbacks in
    the queues, and that it starts nothing that works against the renderer.
-/

namespace ReactiveView

variable {ω : Type}

/-! ## §1. What calls and tasks make due -/

/-- The call that a script makes next, if its next step is one. -/
def Script.call? : Script ω → Option (Call ω)
  | setState u _ => some (.setState u)
  | write key v _ => some (.write key v)
  | remove key _ => some (.remove key)
  | replace entries _ => some (.replace entries)
  | render _ => some .render
  | onReady callback _ => some (.onReady callback)
  | cancelReady id _ => some (.cancelReady id)
  | addEffect effect _ => some (.addEffect effect)
  | removeEffect id _ => some (.removeEffect id)
  | _ => none

/-- What a call makes due before the script that made it goes on. -/
def Call.due (p : Site (Queues (Task ω)) ω) : Call ω → List (Activity ω)
  | render => p.supersede.renderer.perform.result.due
  | _ => []

/-- What a task makes due when it starts. A script that it starts is the rest of it. -/
def Task.due (p : Site (Queues (Task ω)) ω) : Task ω → List (Activity ω)
  | run s => [.rest s]
  | closeBatch => []
  | frame generation => (p.runFrame generation).result.1

/-- Whether an activity is a callback that a frame owes. -/
def Activity.isOwed : Activity ω → Bool
  | effect _ _ _ _ => true
  | ready _ _ => true
  | _ => false

variable {p p' : Site (Queues (Task ω)) ω} {q q' : Queues (Task ω)} {s : Script ω}
  {a : Activity ω} {as new : List (Activity ω)}

theorem Renderer.waiting?_due (r : Renderer ω) :
    ∀ a ∈ r.perform.result.due, a.waiting? = none := by
  intro a ha
  have hdue : a ∈ r.draw.result.2.dueEffects ∨ a ∈ r.draw.result.2.dueReady :=
    List.mem_append.mp ha
  rcases hdue with ha | ha
  · unfold dueEffects at ha
    split at ha
    · cases ha
    · obtain ⟨e, -, rfl⟩ := List.mem_map.mp ha
      rfl
  · unfold dueReady at ha
    split at ha
    · obtain ⟨e, -, rfl⟩ := List.mem_map.mp ha
      rfl
    · cases ha

/-- The rest of a script is no callback that was taken out of the queues. -/
theorem waiting?_rest (s : Script ω) : ∀ b ∈ [Activity.rest s], b.waiting? = none := by
  intro b hb
  obtain rfl := List.mem_singleton.mp hb
  rfl

/-- Nor is it a callback that a frame owes. -/
theorem isOwed_rest (s : Script ω) : ∀ b ∈ [Activity.rest s], b.isOwed = false := by
  intro b hb
  obtain rfl := List.mem_singleton.mp hb
  rfl

/-- What a call makes due comes from no scheduler, and neither does the script that made it. -/
theorem Call.waiting?_due (c : Call ω) (next : Script ω) :
    ∀ a ∈ c.due p ++ [.rest next], a.waiting? = none := by
  intro a ha
  rcases List.mem_append.mp ha with ha | ha
  · cases c with
    | render => exact p.supersede.renderer.waiting?_due a ha
    | _ => cases ha
  · exact waiting?_rest next a ha

theorem Task.waiting?_due (t : Task ω) : ∀ a ∈ t.due p, a.waiting? = none := by
  cases t with
  | run s => exact waiting?_rest s
  | closeBatch => simp [due]
  | frame g =>
    by_cases hg : g = p.renderer.generation
    · rw [due, hg, p.runFrame_generation]
      exact Renderer.waiting?_due _
    · rw [due, p.runFrame_of_ne hg]
      simp

theorem Call.confined_due (h : p.renderer.Tame) (c : Call ω) : ∀ a ∈ c.due p, a.Confined := by
  cases c with
  | render => exact fun a ha => (Renderer.Tame.due (h.of_content_eq p.content_supersede) a ha).1
  | _ => simp [due]

theorem Task.confined_due (h : p.renderer.Tame) {t : Task ω} (ht : t.Confined) :
    ∀ a ∈ t.due p, a.Confined := by
  cases t with
  | run s =>
    intro a ha
    obtain rfl := List.mem_singleton.mp ha
    exact ht
  | closeBatch => simp [due]
  | frame g => exact fun a ha => (h.due_runFrame g a ha).1

/-! ## §2. Callbacks among activities -/

/-- The callbacks among activities. -/
def waitingIn (as : List (Activity ω)) : Multiset (Waiting (Task ω)) :=
  (as.filterMap Activity.waiting? : List (Waiting (Task ω)))

theorem waitingIn_append (as bs : List (Activity ω)) :
    waitingIn (as ++ bs) = waitingIn as + waitingIn bs := by
  rw [waitingIn, List.filterMap_append, ← Multiset.coe_add]
  rfl

theorem waitingIn_cons_of_none (h : a.waiting? = none) : waitingIn (a :: as) = waitingIn as := by
  rw [waitingIn, List.filterMap_cons_none h]
  rfl

theorem waitingIn_cons_of_some {w : Waiting (Task ω)} (h : a.waiting? = some w) :
    waitingIn (a :: as) = w ::ₘ waitingIn as := by
  rw [waitingIn, List.filterMap_cons_some h]
  rfl

theorem waitingIn_append_of_due (h : ∀ a ∈ new, a.waiting? = none) :
    waitingIn (new ++ as) = waitingIn as := by
  have hzero : waitingIn new = 0 := by
    rw [waitingIn, List.filterMap_eq_nil_iff.mpr h]
    rfl
  rw [waitingIn_append, hzero, Multiset.zero_add]

/-! ## §3. Scripts that make no call -/

/-- Whether a script hands a callback over to the scheduler next, or drops one. -/
def Script.handsOver : Script ω → Bool
  | defer _ _ => true
  | requestFrame _ _ => true
  | cancelFrame _ _ => true
  | _ => false

/-- What a script can do without the renderer: what it puts on the agenda, and what becomes of the
    queues. -/
inductive Alone (q : Queues (Task ω)) :
    Script ω → List (Activity ω) → Queues (Task ω) → Prop where
  /-- It ends. -/
  | stop : Alone q .done [] q
  /-- It goes on, and has nothing to do with the queues. -/
  | goOn {s next : Script ω} (hcall : s.call? = none) (hover : s.handsOver = false)
      (hconfined : s.Confined → next.Confined) : Alone q s [.rest next] q
  /-- It defers a callback. -/
  | defer (task next : Script ω) : Alone q (.defer task next) [.rest next] (q.defer (.run task))
  /-- It requests a frame. -/
  | requestFrame (task : Script ω) (next : FrameId → Script ω) :
      Alone q (.requestFrame task next) [.rest (next (q.requestFrame (.run task)).1)]
        (q.requestFrame (.run task)).2
  /-- It cancels a frame. -/
  | cancelFrame (id : FrameId) (next : Script ω) :
      Alone q (.cancelFrame id next) [.rest next] (q.cancelFrame id)
  /-- It takes the first deferred task out, and goes on with the others after it. -/
  | takeDeferred {ran : Nat} {next : Nat → Script ω} {d : Ticket × Task ω}
      {ds : List (Ticket × Task ω)} (hq : q.deferred = d :: ds) :
      Alone q (.runDeferred ran next) [.deferred d.1 d.2, .rest (.runDeferred (ran + 1) next)]
        { q with deferred := ds }
  /-- It takes all frames out, and goes on after them. -/
  | takeFrames (next : Nat → Script ω) :
      Alone q (.runFrame next)
        ((q.frames.map fun f => Activity.frame f.1 f.2) ++ [.rest (next q.frames.length)])
        { q with frames := [] }

namespace Alone

theorem call?_eq_none (h : Alone q s new q') : s.call? = none := by
  cases h with
  | goOn hcall hover hconfined => exact hcall
  | _ => rfl

/-- Nothing that a frame owes comes from the queues. -/
theorem isOwed_eq_false (h : Alone q s new q') : ∀ b ∈ new, b.isOwed = false := by
  cases h with
  | takeDeferred hq => simp [Activity.isOwed]
  | takeFrames next =>
    intro b hb
    rcases List.mem_append.mp hb with hb | hb
    · obtain ⟨f, -, rfl⟩ := List.mem_map.mp hb
      rfl
    · exact isOwed_rest _ b hb
  | stop => simp
  | _ => exact isOwed_rest _

/-- A confined script goes on with a confined one. Tasks are judged where they are in flight. -/
theorem confined (h : Alone q s new q') (hs : s.Confined) : ∀ b ∈ new, b.Confined := by
  have hrest (next : Script ω) (hnext : next.Confined) :
      ∀ b ∈ [Activity.rest next], b.Confined := by
    intro b hb
    obtain rfl := List.mem_singleton.mp hb
    exact hnext
  cases h with
  | stop => simp
  | goOn hcall hover hconfined => exact hrest _ (hconfined hs)
  | defer task next => exact hrest next hs.2
  | requestFrame task next => exact hrest _ (hs.2 _)
  | cancelFrame id next => exact hs.elim
  | @takeDeferred ran next d ds hq =>
    intro b hb
    rcases List.mem_cons.mp hb with rfl | hb
    · trivial
    · exact hrest (.runDeferred (ran + 1) next) hs b hb
  | takeFrames next =>
    intro b hb
    rcases List.mem_append.mp hb with hb | hb
    · obtain ⟨f, -, rfl⟩ := List.mem_map.mp hb
      trivial
    · exact hrest _ (hs _) b hb

/-- What a script does with the callbacks in the queues: those that it takes out are on the agenda
    then, or it hands one over, or it cancels a frame. -/
theorem waiting_cases (h : Alone q s new q') :
    q.waiting.Perm (new.filterMap Activity.waiting? ++ q'.waiting) ∨
      (∃ w, q'.waiting.Perm (w :: q.waiting) ∧ (∀ b ∈ new, b.waiting? = none) ∧
        w.task.isOwn = false ∧ (s.Confined → w.task.Confined)) ∨
      ∃ id next, s = .cancelFrame id next ∧ new = [.rest next] ∧ q' = q.cancelFrame id := by
  cases h with
  | stop => exact .inl (.refl _)
  | goOn hcall hover hconfined => exact .inl (.refl _)
  | defer task next =>
    exact .inr (.inl ⟨_, q.waiting_defer (.run task), waiting?_rest next, rfl, fun hs => hs.1⟩)
  | requestFrame task next =>
    exact .inr (.inl ⟨_, q.waiting_requestFrame (.run task), waiting?_rest _, rfl, fun hs => hs.1⟩)
  | cancelFrame id next => exact .inr (.inr ⟨id, next, rfl, rfl, rfl⟩)
  | takeDeferred hq =>
    refine .inl ?_
    rw [Queues.waiting, hq]
    rfl
  | takeFrames next =>
    -- Each frame becomes an activity, and is the same callback as before.
    have hframes : (q.frames.map fun f => Activity.frame f.1 f.2).filterMap Activity.waiting? =
        q.frames.map fun f => Waiting.frame f.1 f.2 := by
      rw [List.filterMap_map]
      exact congrFun (List.filterMap_eq_map
        (f := fun f : FrameId × Task ω => Waiting.frame f.1 f.2)) _
    refine .inl ?_
    rw [List.filterMap_append, hframes]
    show (_ ++ _ : List (Waiting (Task ω))).Perm ((_ ++ []) ++ (_ ++ []))
    rw [List.append_nil, List.append_nil]
    exact List.perm_append_comm

end Alone

/-! ## §4. Turns -/

/-- What one step of an activity can do at the renderer's site, and which activities it puts on
    the agenda. -/
inductive Turn (p : Site (Queues (Task ω)) ω) :
    Activity ω → List (Activity ω) → Site (Queues (Task ω)) ω → Prop where
  /-- A script makes a call, and goes on after what the call made due. -/
  | call {s next : Script ω} {c : Call ω} (hs : s.call? = some c)
      (hconfined : s.Confined → c.Confined ∧ next.Confined) :
      Turn p (.rest s) (c.due p ++ [.rest next]) (c.perform p)
  /-- A script changes the live tree, and goes on. -/
  | changeTree (change : LiveTree → LiveTree) (next : Script ω) :
      Turn p (.rest (.changeTree change next)) [.rest next]
        ⟨p.renderer.withTree (change p.renderer.page.tree), p.scheduler⟩
  /-- A script works on the queues or goes on by itself. -/
  | alone {s : Script ω} {new : List (Activity ω)} {q : Queues (Task ω)}
      (h : Alone p.scheduler s new q) : Turn p (.rest s) new ⟨p.renderer, q⟩
  /-- A task that was taken out of the queues starts. -/
  | task {a : Activity ω} {w : Waiting (Task ω)} (hw : a.waiting? = some w) :
      Turn p a (w.task.due p) (w.task.perform p)
  /-- A side effect starts. -/
  | effect (id : CallbackId) (previous current : Snapshot) (e : SideEffect ω) :
      Turn p (.effect id previous current e) [.rest (e previous current)] p
  /-- A ready callback starts. -/
  | ready (id : CallbackId) (callback : Script ω) :
      Turn p (.ready id callback) [.rest callback] p

/-- What becomes due among confined callbacks is confined. -/
theorem Turn.confined (hturn : Turn p a new p') (htame : p.renderer.Tame) (ha : a.Confined)
    (htask : ∀ w, a.waiting? = some w → w.task.Confined) : ∀ b ∈ new, b.Confined := by
  cases hturn with
  | call hs hconfined =>
    intro b hb
    rcases List.mem_append.mp hb with hb | hb
    · exact Call.confined_due htame _ b hb
    · obtain rfl := List.mem_singleton.mp hb
      exact (hconfined ha).2
  | changeTree change next => exact ha.elim
  | alone h => exact h.confined ha
  | task hw => exact Task.confined_due htame (htask _ hw)
  | effect id previous current e =>
    intro b hb
    obtain rfl := List.mem_singleton.mp hb
    exact ha previous current
  | ready id callback =>
    intro b hb
    obtain rfl := List.mem_singleton.mp hb
    exact ha

/-! ## §5. Every step is a turn -/

namespace Session

variable {m : Session ω}

/-- A session with a renderer, in terms of the renderer's site and the agenda. -/
structure At (m : Session ω) (p : Site (Queues (Task ω)) ω) (agenda : List (Activity ω)) :
    Prop where
  /-- The renderer is there. -/
  renderer_eq : m.renderer = some p.renderer
  /-- It uses the session's queues. -/
  queues_eq : m.queues = p.scheduler
  /-- What is about to run. -/
  agenda_eq : m.agenda = agenda

namespace At

theorem run (h : m.At p as) (s : Script ω) : (m.run s).At p ([.rest s] ++ as) :=
  ⟨h.renderer_eq, h.queues_eq, congrArg (_ :: ·) h.agenda_eq⟩

theorem push (h : m.At p as) (new : List (Activity ω)) : (m.push new).At p (new ++ as) :=
  ⟨h.renderer_eq, h.queues_eq, congrArg (new ++ ·) h.agenda_eq⟩

theorem withQueues (h : m.At p as) (q : Queues (Task ω)) :
    ({ m with queues := q } : Session ω).At ⟨p.renderer, q⟩ as :=
  ⟨h.renderer_eq, rfl, h.agenda_eq⟩

theorem use (h : m.At p as)
    (f : Site (Queues (Task ω)) ω → Traced (List (Activity ω) × Site (Queues (Task ω)) ω)) :
    (m.use f).At (f p).result.2 ((f p).result.1 ++ as) := by
  obtain ⟨hr, hq, ha⟩ := h
  unfold Session.use
  rw [hr, hq, ha]
  exact ⟨rfl, rfl, rfl⟩

theorem start (h : m.At p as) (t : Task ω) : (m.start t).At (t.perform p) (t.due p ++ as) := by
  cases t with
  | run s => exact h.run s
  | closeBatch => exact h.use fun p => return ([], p.closeBatch)
  | frame g => exact h.use fun p => p.runFrame g

end At

/-- A script that makes a call uses the renderer. -/
theorem advance_call {s : Script ω} {c : Call ω} (hs : s.call? = some c) :
    ∃ f : Site (Queues (Task ω)) ω → Traced (List (Activity ω) × Site (Queues (Task ω)) ω),
      (∀ m : Session ω, m.advance s = m.use f) ∧
        ∀ p, ∃ next, (f p).result = (c.due p ++ [.rest next], c.perform p) ∧
          (s.Confined → c.Confined ∧ next.Confined) := by
  cases s <;> simp [Script.call?] at hs <;> subst hs
  case setState u next =>
    exact ⟨_, fun m => by rw [advance], fun p => ⟨next, rfl, fun h => ⟨trivial, h⟩⟩⟩
  case write key v next =>
    exact ⟨_, fun m => by rw [advance], fun p => ⟨next, rfl, fun h => ⟨trivial, h⟩⟩⟩
  case remove key next =>
    exact ⟨_, fun m => by rw [advance], fun p => ⟨_, rfl, fun h => ⟨trivial, h _⟩⟩⟩
  case replace entries next =>
    exact ⟨_, fun m => by rw [advance], fun p => ⟨_, rfl, fun h => ⟨trivial, h _⟩⟩⟩
  case render next =>
    exact ⟨_, fun m => by rw [advance], fun p => ⟨_, rfl, fun h => ⟨trivial, h _⟩⟩⟩
  case onReady callback next =>
    exact ⟨_, fun m => by rw [advance], fun p => ⟨_, rfl, fun h => ⟨h.1, h.2 _⟩⟩⟩
  case cancelReady id next =>
    exact ⟨_, fun m => by rw [advance], fun p => ⟨_, rfl, fun h => ⟨trivial, h _⟩⟩⟩
  case addEffect effect next =>
    exact ⟨_, fun m => by rw [advance], fun p => ⟨_, rfl, fun h => ⟨h.1, h.2 _⟩⟩⟩
  case removeEffect id next =>
    exact ⟨_, fun m => by rw [advance], fun p => ⟨_, rfl, fun h => ⟨trivial, h _⟩⟩⟩

/-- A script that makes no call goes on by itself, with a renderer or without, unless it changes
    the live tree. -/
theorem advance_alone (m : Session ω) {s : Script ω} (hs : s.call? = none)
    (htree : ∀ change next, s ≠ .changeTree change next) :
    ∃ new, Alone m.queues s new (m.advance s).queues ∧ (m.advance s).renderer = m.renderer ∧
      (m.advance s).agenda = new ++ m.agenda := by
  cases s <;> simp [Script.call?] at hs
  case done => exact ⟨[], .stop, rfl, rfl⟩
  case world change next => exact ⟨_, .goOn rfl rfl fun h => h _, rfl, rfl⟩
  case look next => exact ⟨_, .goOn rfl rfl fun h => h _, rfl, rfl⟩
  case emit events next => exact ⟨[.rest next], .goOn rfl rfl fun h => h, rfl, rfl⟩
  case changeTree change next => exact absurd rfl (htree change next)
  case defer task next => exact ⟨_, .defer task next, rfl, rfl⟩
  case requestFrame task next => exact ⟨_, .requestFrame task next, rfl, rfl⟩
  case cancelFrame id next => exact ⟨_, .cancelFrame id next, rfl, rfl⟩
  case runDeferred ran next =>
    rw [advance]
    cases hd : m.queues.deferred with
    | nil =>
      have hnone : m.queues.takeDeferred? = none := by rw [Queues.takeDeferred?, hd]
      rw [hnone]
      exact ⟨_, .goOn rfl rfl fun h => h ran, rfl, rfl⟩
    | cons d ds =>
      have hsome : m.queues.takeDeferred? = some (d, { m.queues with deferred := ds }) := by
        rw [Queues.takeDeferred?, hd]
      rw [hsome]
      exact ⟨_, .takeDeferred hd, rfl, rfl⟩
  case runFrame next => exact ⟨_, .takeFrames next, rfl, rfl⟩
  case flush ran next =>
    -- A flush is a script of other steps, and goes on with itself or with `next`.
    refine ⟨[.rest (.runDeferred 0 fun deferred => .runFrame fun frames =>
      if deferred + frames = 0 then next ran else .flush (ran + deferred + frames) next)],
      .goOn rfl rfl fun h deferred frames => ?_, rfl, rfl⟩
    show Script.Confined (if deferred + frames = 0 then next ran
      else .flush (ran + deferred + frames) next)
    split
    · exact h ran
    · exact h

/-- **A script** goes on. -/
theorem At.advance (h : m.At p as) (s : Script ω) :
    ∃ new p', Turn p (.rest s) new p' ∧ (m.advance s).At p' (new ++ as) := by
  by_cases htree : ∃ change next, s = .changeTree change next
  · obtain ⟨change, next, rfl⟩ := htree
    exact ⟨_, _, .changeTree change next, h.use fun p =>
      return ([.rest next], p.onRenderer fun r => r.withTree (change r.page.tree))⟩
  cases hs : s.call? with
  | some c =>
    obtain ⟨f, hadvance, hf⟩ := advance_call hs
    obtain ⟨next, hnext, hconfined⟩ := hf p
    have hat := h.use f
    rw [hnext, ← hadvance] at hat
    exact ⟨_, _, .call hs hconfined, hat⟩
  | none =>
    obtain ⟨new, halone, hr, hagenda⟩ :=
      m.advance_alone hs fun change next heq => htree ⟨change, next, heq⟩
    rw [h.queues_eq] at halone
    exact ⟨new, _, .alone halone, hr.trans h.renderer_eq, rfl, by rw [hagenda, h.agenda_eq]⟩

/-- **Every step** is a turn. -/
theorem exists_turn (h : m.At p (a :: as)) :
    ∃ new p', Turn p a new p' ∧ m.step.At p' (new ++ as) := by
  have hpop : ({ m with agenda := as } : Session ω).At p as := ⟨h.renderer_eq, h.queues_eq, rfl⟩
  rw [Session.step, h.agenda_eq]
  cases a with
  | rest s => exact hpop.advance s
  | deferred ticket task => exact ⟨_, _, .task (w := .deferred task) rfl, hpop.start task⟩
  | frame id task => exact ⟨_, _, .task (w := .frame id task) rfl, hpop.start task⟩
  | effect id previous current e => exact ⟨_, _, .effect id previous current e, hpop.run _⟩
  | ready id callback => exact ⟨_, _, .ready id callback, hpop.run _⟩

/-- A session with a renderer rests, or takes a turn. -/
theorem step_cases {r : Renderer ω} (hr : m.renderer = some r) :
    (m.agenda = [] ∧ m.step = m) ∨ ∃ a as new p', m.agenda = a :: as ∧
      Turn ⟨r, m.queues⟩ a new p' ∧ m.step.At p' (new ++ as) := by
  cases hm : m.agenda with
  | nil => exact .inl ⟨rfl, step_eq_self_of_isResting (by rw [isResting, hm]; rfl)⟩
  | cons a as =>
    obtain ⟨new, p', hturn, hat⟩ := exists_turn (p := ⟨r, m.queues⟩) ⟨hr, rfl, hm⟩
    exact .inr ⟨a, as, new, p', rfl, hturn, hat⟩

end Session

end ReactiveView
