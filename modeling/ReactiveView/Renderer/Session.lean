import ReactiveView.Renderer.Basic

/-! # Sessions

  A session is an embedder's state, the queues, at most one renderer, and an
  agenda: the activities to run, first to last. `Session.step` runs the first
  activity up to its next step. What an activity starts (a drained queue, a
  frame, the callbacks after it) goes to the front of the agenda, so it is over
  before the activity goes on.

  A session rests when its agenda is empty. Every step is defined, so a session
  in which callbacks start ever more callbacks goes on forever without any
  single step doing so.
-/

namespace ReactiveView

/-- A program around a renderer, at one moment. -/
structure Session (ω : Type) where
  /-- The embedder's state. -/
  world : ω
  /-- What is put off. -/
  queues : Queues (Task ω)
  /-- The renderer, unless it is gone. -/
  renderer : Option (Renderer ω)
  /-- What to run, first to last. -/
  agenda : List (Activity ω)
  /-- What happened, first to last. -/
  events : List Event

namespace Session

variable {ω : Type}

/-! ## §1. Starting -/

/-- A session without a renderer. -/
def initial (world : ω) : Session ω := ⟨world, .empty, none, [], []⟩

instance [Inhabited ω] : Inhabited (Session ω) := ⟨initial default⟩

/-- Mounts a view on a live tree. -/
def mount (m : Session ω) (o : MountOptions ω) (tree : LiveTree) : Session ω :=
  let t := o.mount tree m.queues
  { m with
    queues := t.result.scheduler
    renderer := some t.result.renderer
    events := m.events ++ t.events }

/-- Lets the renderer go. What it put off does nothing any more. -/
def unmount (m : Session ω) : Session ω := { m with renderer := none }

/-- Puts activities in front of the agenda. -/
def push (m : Session ω) (as : List (Activity ω)) : Session ω :=
  { m with agenda := as ++ m.agenda }

/-- Goes on with a script. -/
def run (m : Session ω) (s : Script ω) : Session ω := m.push [.rest s]

/-- Whether nothing runs. -/
def isResting (m : Session ω) : Bool := m.agenda.isEmpty

/-! ## §2. Steps -/

/-- Uses the renderer. The activities that come with the result go to the front of the agenda.
    Without a renderer nothing happens, and a script that wanted it ends. -/
def use (m : Session ω)
    (f : Site (Queues (Task ω)) ω → Traced (List (Activity ω) × Site (Queues (Task ω)) ω)) :
    Session ω :=
  match m.renderer with
  | none => m
  | some r =>
    let t := f ⟨r, m.queues⟩
    { m with
      renderer := some t.result.2.renderer
      queues := t.result.2.scheduler
      agenda := t.result.1 ++ m.agenda
      events := m.events ++ t.events }

/-- Starts a task. -/
def start (m : Session ω) : Task ω → Session ω
  | .run s => m.run s
  | .closeBatch => m.use fun p => return ([], p.closeBatch)
  | .frame generation => m.use fun p => p.runFrame generation

/-- Takes the next step of a script. -/
def advance (m : Session ω) : Script ω → Session ω
  | .done => m
  | .world change next =>
    let w := change m.world
    { m with world := w }.run (next w)
  | .look next => m.run (next (m.renderer.map (·.page)))
  | .emit events next => { m with events := m.events ++ events }.run next
  | .setState u next => m.use fun p => return ([.rest next], p.setState u)
  | .write key v next => m.use fun p => return ([.rest next], p.write key v)
  | .remove key next => m.use fun p =>
    return ([.rest (next (p.renderer.page.store.read key))], p.remove key)
  | .replace entries next => m.use fun p => do
    let answer ← Store.replace entries
    return ([.rest (next answer)], p)
  | .render next => m.use fun p => do
    let (drawn, p) ← p.render
    return (drawn.due ++ [.rest (next drawn.edits)], p)
  | .onReady callback next => m.use fun p =>
    let (id, p) := p.onReady callback
    return ([.rest (next id)], p)
  | .cancelReady id next => m.use fun p =>
    let (found, r) := p.renderer.cancelReady id
    return ([.rest (next found)], { p with renderer := r })
  | .addEffect effect next => m.use fun p =>
    let (id, r) := p.renderer.addEffect effect
    return ([.rest (next id)], { p with renderer := r })
  | .removeEffect id next => m.use fun p =>
    let (found, r) := p.renderer.removeEffect id
    return ([.rest (next found)], { p with renderer := r })
  | .changeTree change next => m.use fun p =>
    return ([.rest next], p.onRenderer fun r => r.withTree (change r.page.tree))
  | .defer task next => { m with queues := m.queues.defer (.run task) }.run next
  | .requestFrame task next =>
    let (id, queues) := m.queues.requestFrame (.run task)
    { m with queues }.run (next id)
  | .cancelFrame id next => { m with queues := m.queues.cancelFrame id }.run next
  | .runDeferred ran next =>
    match m.queues.takeDeferred? with
    | none => m.run (next ran)
    -- A task that this one defers comes up in the same run.
    | some ((ticket, task), queues) =>
      { m with queues }.push [.deferred ticket task, .rest (.runDeferred (ran + 1) next)]
  | .runFrame next =>
    -- Frames requested from here on wait for the next run.
    let (frames, queues) := m.queues.takeFrames
    let due := frames.map fun f => Activity.frame f.1 f.2
    { m with queues }.push (due ++ [Activity.rest (next frames.length)])
  | .flush ran next => m.run <|
    .runDeferred 0 fun deferred => .runFrame fun frames =>
      if deferred + frames = 0 then next ran else .flush (ran + deferred + frames) next

/-- Runs the first activity up to its next step. -/
def step (m : Session ω) : Session ω :=
  match m.agenda with
  | [] => m
  | a :: rest =>
    let m := { m with agenda := rest }
    match a with
    | .rest s => m.advance s
    | .deferred _ task => m.start task
    | .frame _ task => m.start task
    | .effect _ previous current effect => m.run (effect previous current)
    | .ready _ callback => m.run callback

/-- A session that rests stays as it is. -/
theorem step_eq_self_of_isResting {m : Session ω} (h : m.isResting = true) : m.step = m := by
  have : m.agenda = [] := by simpa [isResting] using h
  simp [step, this]

end Session

end ReactiveView
