import ReactiveView.LiveTree.Html
import ReactiveView.Reconcile
import ReactiveView.Renderer.Script
import ReactiveView.Template.Expand

/-! # The renderer

  A renderer keeps the children of one live node in line with what a view makes
  of a store.

  - The first write of a batch defers the end of the batch, and the end of the
    batch requests a frame. Further writes ride along.
  - A frame drops the one before it that is still waiting, so at most one is
    drawn. Each request starts a generation; a frame of an older generation does
    nothing.
  - A frame runs the view, brings the live tree in line and ends the batch. If
    something was written, it then owes every side effect a call with the store
    before and after; the first frame also owes the ready callbacks theirs.

  All this holds of any scheduler: nothing here runs a task.
-/

namespace ReactiveView

/-! ## §1. Renderers -/

/-- A view makes virtual nodes from the entries of a store. -/
abbrev View := Snapshot → Traced (List VNode)

/-- The view of a template. -/
def View.ofTemplate (t : Template) : View := t.render

/-- The state of a mounted view. -/
structure Renderer (ω : Type) where
  /-- What is shown, and from what. -/
  page : Page
  /-- The view. -/
  view : View
  /-- The side effects. -/
  effects : Registry (SideEffect ω)
  /-- The callbacks for the first frame. -/
  ready : Registry (Script ω)
  /-- The supply of callback identifiers. -/
  supply : CallbackSupply
  /-- Whether the end of a batch is deferred. -/
  batchPending : Bool
  /-- The frame that is waiting. -/
  frame : Option FrameId
  /-- The current generation. -/
  generation : Nat

namespace Renderer

variable {ω : Type}

/-- The renderer with another store. -/
def withStore (r : Renderer ω) (s : Store) : Renderer ω :=
  { r with page := { r.page with store := s } }

/-- The renderer with another live tree. -/
def withTree (r : Renderer ω) (t : LiveTree) : Renderer ω :=
  { r with page := { r.page with tree := t } }

/-- Brings the live tree in line with the view. Also the number of edits, if there is a target. -/
def draw (r : Renderer ω) : Traced (Option Nat × Renderer ω) :=
  match r.page.target with
  | none => return (none, r)
  | some n => do
    let vs ← r.view r.page.store.entries
    let (tree, edits) := r.page.tree.reconcile .stored n vs
    return (some edits, r.withTree tree)

/-- The side effects that are due when the batch ends. -/
def dueEffects (r : Renderer ω) : List (Activity ω) :=
  match r.page.store.pending with
  | none => []
  | some previous =>
    r.effects.entries.map fun e => .effect e.1 previous r.page.store.entries e.2

/-- The ready callbacks that are due with the next frame. -/
def dueReady (r : Renderer ω) : List (Activity ω) :=
  if r.page.completed = 0 then r.ready.entries.map fun e => .ready e.1 e.2 else []

/-- The renderer after a frame: the batch has ended and the ready callbacks are gone. -/
def settled (r : Renderer ω) : Renderer ω :=
  { r with
    page := { r.page with store := r.page.store.closeBatch, completed := r.page.completed + 1 }
    ready := if r.page.completed = 0 then .empty else r.ready }

/-- The result of a frame. -/
structure Drawn (ω : Type) where
  /-- The number of edits, if there is a target. -/
  edits : Option Nat
  /-- The callbacks that are due now. -/
  due : List (Activity ω)
  /-- The renderer afterwards. -/
  renderer : Renderer ω

/-- Draws a frame. -/
def perform (r : Renderer ω) : Traced (Drawn ω) := do
  let (edits, r) ← r.draw
  -- What is due depends on the batch, so it is listed before the batch ends.
  return ⟨edits, r.dueEffects ++ r.dueReady, r.settled⟩

/-- Withdraws a ready callback; says whether there was one. -/
def cancelReady (r : Renderer ω) (id : CallbackId) : Bool × Renderer ω :=
  ((r.ready.find? id).isSome, { r with ready := r.ready.unregister id })

/-- Adds a side effect. -/
def addEffect (r : Renderer ω) (effect : SideEffect ω) : CallbackId × Renderer ω :=
  let (id, effects, supply) := r.effects.register r.supply effect
  (id, { r with effects, supply })

/-- Withdraws a side effect; says whether there was one. -/
def removeEffect (r : Renderer ω) (id : CallbackId) : Bool × Renderer ω :=
  ((r.effects.find? id).isSome, { r with effects := r.effects.unregister id })

end Renderer

/-! ## §2. A renderer at its scheduler -/

/-- A renderer together with its scheduler. -/
structure Site (S ω : Type) where
  /-- The renderer. -/
  renderer : Renderer ω
  /-- The scheduler. -/
  scheduler : S

namespace Site

variable {S ω : Type} [FrameScheduler S (Task ω)]

/-- Changes the renderer alone. -/
def onRenderer (p : Site S ω) (f : Renderer ω → Renderer ω) : Site S ω :=
  { p with renderer := f p.renderer }

/-- Starts a generation and drops the frame that is waiting. -/
def supersede (p : Site S ω) : Site S ω where
  renderer := { p.renderer with frame := none, generation := p.renderer.generation + 1 }
  scheduler := match p.renderer.frame with
    | some id => FrameScheduler.cancelFrame p.scheduler id
    | none => p.scheduler

/-- Requests a frame in place of the one that is waiting. -/
def requestFrame (p : Site S ω) : Site S ω :=
  let p := p.supersede
  let (id, scheduler) := FrameScheduler.requestFrame p.scheduler (.frame p.renderer.generation)
  ⟨{ p.renderer with frame := some id }, scheduler⟩

/-- Defers the end of the batch, unless that was done. -/
def openBatch (p : Site S ω) : Site S ω :=
  if p.renderer.batchPending then p
  else
    ⟨{ p.renderer with batchPending := true }, FrameScheduler.defer p.scheduler .closeBatch⟩

/-- Ends the batch: from here on a frame is waiting. -/
def closeBatch (p : Site S ω) : Site S ω :=
  (p.onRenderer fun r => { r with batchPending := false }).requestFrame

/-- Writes the defined entries of an update. -/
def setState (p : Site S ω) (u : Update) : Site S ω :=
  let q := p.onRenderer fun r => r.withStore (r.page.store.setState u)
  if Store.written u > 0 then q.openBatch else q

/-- Writes an entry. -/
def write (p : Site S ω) (key : String) (v : Value) : Site S ω :=
  (p.onRenderer fun r => r.withStore (r.page.store.write key v)).openBatch

/-- Removes an entry and requests a frame at once, whether it was there or not. -/
def remove (p : Site S ω) (key : String) : Site S ω :=
  (p.onRenderer fun r => r.withStore (r.page.store.remove key)).requestFrame

/-- Draws now, in place of the frame that is waiting. -/
def render (p : Site S ω) : Traced (Renderer.Drawn ω × Site S ω) := do
  let p := p.supersede
  let drawn ← p.renderer.perform
  return (drawn, { p with renderer := drawn.renderer })

/-- Runs the frame of a generation, which does nothing unless it is the current one. Also the
    callbacks that are due now. -/
def runFrame (p : Site S ω) (generation : Nat) : Traced (List (Activity ω) × Site S ω) :=
  -- A scheduler may run a frame that was cancelled too late.
  if p.renderer.generation ≠ generation then return ([], p)
  else do
    let drawn ← Renderer.perform { p.renderer with frame := none }
    return (drawn.due, { p with renderer := drawn.renderer })

/-- Keeps a callback for the first frame or, after that, defers it. -/
def onReady (p : Site S ω) (callback : Script ω) : Option CallbackId × Site S ω :=
  if p.renderer.page.completed = 0 then
    let (id, ready, supply) := p.renderer.ready.register p.renderer.supply callback
    (some id, p.onRenderer fun r => { r with ready, supply })
  else (none, { p with scheduler := FrameScheduler.defer p.scheduler (.run callback) })

end Site

/-! ## §3. Mounting -/

/-- What to mount and where. -/
structure MountOptions (ω : Type) where
  /-- The selector of the target. -/
  target : String
  /-- The view. -/
  view : View
  /-- The first entries of the store. -/
  data : Snapshot := ∅
  /-- The side effects, in order. -/
  effects : List (SideEffect ω) := []

namespace MountOptions

variable {S ω : Type}

/-- Adds the entries of an object to the first entries; every other value is ignored. -/
def withInitialData (o : MountOptions ω) (v : Value) : Traced (MountOptions ω) :=
  match v with
  | .obj fields => return { o with data := o.data.insertAll fields }
  | v => do
    Traced.notice (.initialDataIgnored v)
    return o

/-- Adds one entry to the first entries. -/
def withEntry (o : MountOptions ω) (key : String) (v : Value) : MountOptions ω :=
  { o with data := o.data.insert key v }

/-- Adds a side effect. -/
def withEffect (o : MountOptions ω) (effect : SideEffect ω) : MountOptions ω :=
  { o with effects := o.effects ++ [effect] }

/-- Mounts a view on a live tree and requests the first frame. The target is looked up now and
    never again. -/
def mount [FrameScheduler S (Task ω)] (o : MountOptions ω) (tree : LiveTree) (scheduler : S) :
    Traced (Site S ω) := do
  let target := tree.query? o.target
  if target.isNone then Traced.notice (.targetMissing o.target)
  let bare : Renderer ω :=
    { page := ⟨tree, target, .ofEntries o.data, 0⟩
      view := o.view
      effects := .empty
      ready := .empty
      supply := {}
      batchPending := false
      frame := none
      generation := 0 }
  let renderer := o.effects.foldl (fun r e => (r.addEffect e).2) bare
  return Site.requestFrame ⟨renderer, scheduler⟩

end MountOptions

end ReactiveView
