/-! # Scheduling

  Work is put off in two ways:

  - a deferred task runs once the current unit of work is over, after the tasks
    deferred before it;
  - a frame runs before the next picture is drawn, and can be cancelled until
    then.

  `FrameScheduler` is what a renderer asks of a scheduler. `Queues` is the
  scheduler that runs nothing by itself; whoever holds it takes the tasks out.
-/

namespace ReactiveView

/-! ## §1. Schedulers -/

/-- The name of a requested frame. -/
structure FrameId where
  /-- How many frames were requested before it. -/
  serial : Nat
deriving DecidableEq

/-- What puts off tasks: `S` is the scheduler and `τ` a task. -/
class FrameScheduler (S : Type) (τ : outParam Type) where
  /-- Puts a task off until the current unit of work is over. -/
  defer : S → τ → S
  /-- Puts a task off until the next frame. -/
  requestFrame : S → τ → FrameId × S
  /-- Drops a frame that has not started. -/
  cancelFrame : S → FrameId → S

/-! ## §2. Queues -/

/-- The name of a deferred task. -/
structure Ticket where
  /-- How many tasks were deferred before it. -/
  serial : Nat
deriving DecidableEq

/-- Tasks put off, in the order of the requests. -/
structure Queues (τ : Type) where
  /-- The deferred tasks. -/
  deferred : List (Ticket × τ)
  /-- The frames. -/
  frames : List (FrameId × τ)
  /-- How many frames were dropped. -/
  cancelled : Nat
  /-- How many tasks were ever deferred. -/
  tickets : Nat
  /-- How many frames were ever requested. -/
  requests : Nat

namespace Queues

variable {τ : Type}

/-- Queues with nothing in them. -/
def empty : Queues τ := ⟨[], [], 0, 0, 0⟩

/-- Puts a task behind the deferred ones. -/
def defer (q : Queues τ) (t : τ) : Queues τ :=
  { q with deferred := q.deferred ++ [(⟨q.tickets⟩, t)], tickets := q.tickets + 1 }

/-- Puts a task behind the frames, under a fresh name. -/
def requestFrame (q : Queues τ) (t : τ) : FrameId × Queues τ :=
  (⟨q.requests⟩,
    { q with frames := q.frames ++ [(⟨q.requests⟩, t)], requests := q.requests + 1 })

/-- Drops the frame of a name. It counts only if it was there. -/
def cancelFrame (q : Queues τ) (id : FrameId) : Queues τ :=
  if q.frames.any (·.1 = id) then
    { q with frames := q.frames.filter (·.1 ≠ id), cancelled := q.cancelled + 1 }
  else q

instance : FrameScheduler (Queues τ) τ where
  defer := defer
  requestFrame := requestFrame
  cancelFrame := cancelFrame

/-- The first deferred task, and the queues without it. -/
def takeDeferred? (q : Queues τ) : Option ((Ticket × τ) × Queues τ) :=
  match q.deferred with
  | [] => none
  | t :: ts => some (t, { q with deferred := ts })

/-- All frames, and the queues without them. -/
def takeFrames (q : Queues τ) : List (FrameId × τ) × Queues τ :=
  (q.frames, { q with frames := [] })

/-- Whether nothing is put off. -/
def isEmpty (q : Queues τ) : Bool := q.deferred.isEmpty && q.frames.isEmpty

/-! ### What each operation leaves behind -/

@[simp] theorem deferred_defer (q : Queues τ) (t : τ) :
    (q.defer t).deferred = q.deferred ++ [(⟨q.tickets⟩, t)] := rfl

@[simp] theorem frames_defer (q : Queues τ) (t : τ) : (q.defer t).frames = q.frames := rfl

@[simp] theorem deferred_requestFrame (q : Queues τ) (t : τ) :
    (q.requestFrame t).2.deferred = q.deferred := rfl

@[simp] theorem frames_requestFrame (q : Queues τ) (t : τ) :
    (q.requestFrame t).2.frames = q.frames ++ [((q.requestFrame t).1, t)] := rfl

@[simp] theorem deferred_cancelFrame (q : Queues τ) (id : FrameId) :
    (q.cancelFrame id).deferred = q.deferred := by
  unfold cancelFrame; split <;> rfl

@[simp] theorem frames_cancelFrame (q : Queues τ) (id : FrameId) :
    (q.cancelFrame id).frames = q.frames.filter (·.1 ≠ id) := by
  unfold cancelFrame
  split
  · rfl
  · next h =>
    rw [List.filter_eq_self.2]
    intro f hf
    simp only [List.any_eq_true, not_exists] at h
    simpa using fun e => h f ⟨hf, by simpa using e⟩

end Queues

end ReactiveView
