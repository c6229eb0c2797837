import ReactiveView.LiveTree.Basic
import ReactiveView.Registry
import ReactiveView.Scheduler
import ReactiveView.Store

/-! # Scripts

  Callbacks (side effects, ready callbacks, scheduled tasks) may themselves call
  the renderer and the scheduler, which run further callbacks. A callback is
  therefore data: a `Script` says what to do next and how to go on with the
  answer.

  - `ω` is the type of the embedder's own state, which callbacks may change.
  - `Task` is what waits in a scheduler, `Activity` what is about to run.
  - `Part` is a piece of a script that yields an answer to the rest of it.
-/

namespace ReactiveView

/-! ## §1. Scripts -/

/-- What a mounted view shows and what it shows it from. -/
structure Page where
  /-- The live tree. -/
  tree : LiveTree
  /-- The node whose children the view gives; none if it was not found. -/
  target : Option NodeId
  /-- The state. -/
  store : Store
  /-- How many frames were drawn. -/
  completed : Nat

/-- What a callback does. Each step but the last names what follows it. -/
inductive Script (ω : Type) where
  /-- Nothing more. -/
  | done
  /-- Change the embedder's state. -/
  | world (change : ω → ω) (next : ω → Script ω)
  /-- Look at the page; there is none if the renderer is gone. -/
  | look (next : Option Page → Script ω)
  /-- Report events. -/
  | emit (events : List Event) (next : Script ω)
  /-- Write the defined entries of an update. -/
  | setState (update : Update) (next : Script ω)
  /-- Write an entry. -/
  | write (key : String) (value : Value) (next : Script ω)
  /-- Remove an entry. -/
  | remove (key : String) (next : Option Value → Script ω)
  /-- Try to replace the store. -/
  | replace (entries : Snapshot) (next : Except StoreError Unit → Script ω)
  /-- Draw now. The answer is the number of edits, if there is a target. -/
  | render (next : Option Nat → Script ω)
  /-- Ask for a callback after the first frame. -/
  | onReady (callback : Script ω) (next : Option CallbackId → Script ω)
  /-- Withdraw a ready callback. -/
  | cancelReady (id : CallbackId) (next : Bool → Script ω)
  /-- Ask for a callback after each batch. -/
  | addEffect (effect : Snapshot → Snapshot → Script ω) (next : CallbackId → Script ω)
  /-- Withdraw a side effect. -/
  | removeEffect (id : CallbackId) (next : Bool → Script ω)
  /-- Change the live tree behind the renderer's back. -/
  | changeTree (change : LiveTree → LiveTree) (next : Script ω)
  /-- Defer a task. -/
  | defer (task : Script ω) (next : Script ω)
  /-- Request a frame. -/
  | requestFrame (task : Script ω) (next : FrameId → Script ω)
  /-- Drop a requested frame. -/
  | cancelFrame (id : FrameId) (next : Script ω)
  /-- Run deferred tasks until there is none, after some that ran already. -/
  | runDeferred (ran : Nat) (next : Nat → Script ω)
  /-- Run the frames requested so far. -/
  | runFrame (next : Nat → Script ω)
  /-- Run deferred tasks and frames in turn until there are none, after some that ran already. -/
  | flush (ran : Nat) (next : Nat → Script ω)

instance {ω : Type} : Inhabited (Script ω) := ⟨.done⟩

/-- A callback for the store before and after a batch. -/
abbrev SideEffect (ω : Type) := Snapshot → Snapshot → Script ω

/-! ## §2. What waits and what runs -/

/-- What waits in a scheduler. -/
inductive Task (ω : Type) where
  /-- A callback. -/
  | run (script : Script ω)
  /-- The end of a batch. -/
  | closeBatch
  /-- The frame of a generation. -/
  | frame (generation : Nat)

/-- What is about to run. -/
inductive Activity (ω : Type) where
  /-- The rest of a callback. -/
  | rest (script : Script ω)
  /-- A deferred task, before its start. -/
  | deferred (ticket : Ticket) (task : Task ω)
  /-- A requested frame, before its start. -/
  | frame (id : FrameId) (task : Task ω)
  /-- A side effect, before its start. -/
  | effect (id : CallbackId) (previous current : Snapshot) (effect : SideEffect ω)
  /-- A ready callback, before its start. -/
  | ready (id : CallbackId) (callback : Script ω)

/-! ## §3. Parts of scripts -/

/-- A part of a script with an answer for what follows it. -/
def Part (ω α : Type) : Type := (α → Script ω) → Script ω

namespace Part

variable {ω α β : Type}

instance : Monad (Part ω) where
  pure a := fun next => next a
  bind p f := fun next => p fun a => f a next

instance : Inhabited (Part ω α) := ⟨fun _ => .done⟩

/-- The script that ends with a part. -/
def toScript (p : Part ω Unit) : Script ω := p fun _ => .done

/-- Changes the embedder's state. -/
def modify (change : ω → ω) : Part ω Unit := fun next => .world change fun _ => next ()

/-- The embedder's state. -/
def get : Part ω ω := fun next => .world id next

/-- A step without an answer. -/
def silent (step : Script ω → Script ω) : Part ω Unit := fun next => step (next ())

end Part

end ReactiveView
