import Mathlib.Logic.Hydra
import ReactiveView.Proofs.Session.Trail

/-! # A flush among tasks that only hand over tasks

  A task is finite work if all it does with the scheduler is to hand over and
  cancel, and if the tasks that it hands over are finite work again. Where all
  that waits is finite work, a flush comes to an end: `flush_returns_count`.

  A finite task may hand over more tasks than can be told beforehand, since what
  it does may depend on names of frames and on the embedder's state. So what
  decreases is no number. What waits is a multiset of tasks (`Queues.load`), and
  each task that runs gives way to tasks that it hands over (`Spends`).

  * `comes_of_finite`: a finite script runs to its end, and only hands over.
  * `drained`: the deferred tasks run until there is none.
  * `ranFrames`: the frames that wait run; those that they request wait.
  * `flushed`: rounds of both come to an end when neither waits.
-/

namespace ReactiveView

variable {ω : Type}

/-! ## §1. Finite work -/

/-- Whether all that a script does with the scheduler is to hand over tasks and to cancel frames,
    and so with the tasks that it hands over. -/
def Script.Finite : Script ω → Prop
  | done => True
  | world _ next => ∀ w, (next w).Finite
  | look next => ∀ page, (next page).Finite
  | emit _ next => next.Finite
  | defer task next => task.Finite ∧ next.Finite
  | requestFrame task next => task.Finite ∧ ∀ id, (next id).Finite
  | cancelFrame _ next => next.Finite
  | _ => False

/-- Whether a script may hand over the task `t`. -/
def Script.Hands (t : Script ω) : Script ω → Prop
  | world _ next => ∃ w, t.Hands (next w)
  | look next => ∃ page, t.Hands (next page)
  | emit _ next => t.Hands next
  | defer task next => t = task ∨ t.Hands next
  | requestFrame task next => t = task ∨ ∃ id, t.Hands (next id)
  | cancelFrame _ next => t.Hands next
  | _ => False

/-- The same of a task. The renderer's own tasks count as no finite work here. -/
def Task.Finite : Task ω → Prop
  | run s => s.Finite
  | _ => False

/-- Whether the task `u` may hand over the task `t`. -/
def Task.HandedBy : Task ω → Task ω → Prop
  | run t, run s => t.Hands s
  | _, _ => False

theorem Script.Hands.finite {t s : Script ω} (h : t.Hands s) (hs : s.Finite) : t.Finite := by
  induction s with
  | world change next ih =>
    obtain ⟨w, h⟩ := h
    exact ih w h (hs w)
  | look next ih =>
    obtain ⟨page, h⟩ := h
    exact ih page h (hs page)
  | emit events next ih => exact ih h hs
  | defer task next ihtask ihnext =>
    rcases h with rfl | h
    · exact hs.1
    · exact ihnext h hs.2
  | requestFrame task next ihtask ihnext =>
    rcases h with rfl | ⟨id, h⟩
    · exact hs.1
    · exact ihnext id h (hs.2 id)
  | cancelFrame id next ih => exact ih h hs
  | _ => exact h.elim

/-- Handing over does not go on forever: what a script hands over is part of it. -/
theorem Script.acc_of_hands {t s : Script ω} (h : t.Hands s) : Acc Script.Hands t := by
  induction s generalizing t with
  | world change next ih =>
    obtain ⟨w, h⟩ := h
    exact ih w h
  | look next ih =>
    obtain ⟨page, h⟩ := h
    exact ih page h
  | emit events next ih => exact ih h
  | defer task next ihtask ihnext =>
    rcases h with rfl | h
    · exact .intro t fun _ h => ihtask h
    · exact ihnext h
  | requestFrame task next ihtask ihnext =>
    rcases h with rfl | ⟨id, h⟩
    · exact .intro t fun _ h => ihtask h
    · exact ihnext id h
  | cancelFrame id next ih => exact ih h
  | _ => exact h.elim

theorem Task.HandedBy.finite {t u : Task ω} (h : t.HandedBy u) (hu : u.Finite) : t.Finite := by
  cases t <;> cases u <;> try exact h.elim
  exact Script.Hands.finite h hu

theorem Task.handedBy_wf : WellFounded (Task.HandedBy (ω := ω)) := by
  have hrun : ∀ s : Script ω, Acc Script.Hands s → Acc Task.HandedBy (Task.run s) := by
    intro s hs
    induction hs with
    | intro s _ ih =>
      refine .intro _ fun t ht => ?_
      cases t <;> try exact ht.elim
      exact ih _ ht
  refine ⟨fun u => ?_⟩
  cases u with
  | run s => exact hrun s (.intro s fun _ h => Script.acc_of_hands h)
  | closeBatch => exact .intro _ fun t ht => by cases t <;> exact ht.elim
  | frame g => exact .intro _ fun t ht => by cases t <;> exact ht.elim

/-! ## §2. What waits -/

/-- The tasks in the queues. -/
def Queues.load (q : Queues (Task ω)) : Multiset (Task ω) :=
  (q.waiting.map Waiting.task : List (Task ω))

namespace Queues

variable {q : Queues (Task ω)}

theorem load_of_perm {q' : Queues (Task ω)} {ws : List (Waiting (Task ω))}
    (h : q.waiting.Perm (ws ++ q'.waiting)) :
    q.load = (ws.map Waiting.task : List (Task ω)) + q'.load := by
  rw [load, load, Multiset.coe_add, ← List.map_append]
  exact Multiset.coe_eq_coe.mpr (h.map _)

theorem load_defer (q : Queues (Task ω)) (t : Task ω) : (q.defer t).load = t ::ₘ q.load :=
  Multiset.coe_eq_coe.mpr ((q.waiting_defer t).map _)

theorem load_requestFrame (q : Queues (Task ω)) (t : Task ω) :
    (q.requestFrame t).2.load = t ::ₘ q.load :=
  Multiset.coe_eq_coe.mpr ((q.waiting_requestFrame t).map _)

theorem load_cancelFrame_le (q : Queues (Task ω)) (id : FrameId) :
    (q.cancelFrame id).load ≤ q.load := by
  rw [load_of_perm (q.waiting_cancelFrame id)]
  exact Multiset.le_add_left _ _

theorem load_of_deferred {d : Ticket × Task ω} {ds : List (Ticket × Task ω)}
    (h : q.deferred = d :: ds) : q.load = d.2 ::ₘ ({ q with deferred := ds } : Queues _).load := by
  rw [load, waiting, h]
  rfl

theorem takeFrames_eq_self (h : q.frames = []) : q.takeFrames = ([], q) := by
  rw [takeFrames, h]
  exact congrArg (Prod.mk []) (by rw [← h])

theorem load_takeFrames (q : Queues (Task ω)) :
    q.load = (q.frames.map (·.2) : List (Task ω)) + q.takeFrames.2.load := by
  have hperm : q.waiting.Perm
      (q.frames.map (fun f => Waiting.frame f.1 f.2) ++ q.takeFrames.2.waiting) := by
    show (_ ++ _ : List (Waiting (Task ω))).Perm (_ ++ (_ ++ []))
    rw [List.append_nil]
    exact List.perm_append_comm
  rw [load_of_perm hperm, List.map_map]
  rfl

end Queues

/-- `L'` is left of `L` when `n` tasks have run, each of which gave way to tasks that it hands
    over. -/
inductive Spends : Nat → Multiset (Task ω) → Multiset (Task ω) → Prop where
  /-- No task has run. -/
  | none (L : Multiset (Task ω)) : Spends 0 L L
  /-- One task runs, and then others. -/
  | run {n : Nat} {t : Task ω} {L new L' : Multiset (Task ω)} (hnew : ∀ u ∈ new, u.HandedBy t)
      (hrest : Spends n (L + new) L') : Spends (n + 1) (t ::ₘ L) L'

namespace Spends

variable {n n' : Nat} {L L' L'' : Multiset (Task ω)}

theorem trans (h : Spends n L L') (h' : Spends n' L' L'') : Spends (n + n') L L'' := by
  induction h with
  | none L => rwa [Nat.zero_add]
  | run hnew _ ih =>
    rw [Nat.add_right_comm]
    exact .run hnew (ih h')

theorem finite (h : Spends n L L') (hL : ∀ t ∈ L, t.Finite) : ∀ t ∈ L', t.Finite := by
  induction h with
  | none L => exact hL
  | @run n t L new L' hnew hrest ih =>
    have ht : t.Finite := hL t (Multiset.mem_cons_self t L)
    refine ih fun u hu => ?_
    rcases Multiset.mem_add.mp hu with hu | hu
    · exact hL u (Multiset.mem_cons_of_mem hu)
    · exact (hnew u hu).finite ht

/-- What is left is less, if a task has run at all. -/
theorem transGen (h : Spends n L L') (hn : n ≠ 0) :
    Relation.TransGen (Relation.CutExpand Task.HandedBy) L' L := by
  induction h with
  | none L => exact absurd rfl hn
  | @run n t L new L' hnew hrest ih =>
    have hcut : Relation.CutExpand Task.HandedBy (L + new) (t ::ₘ L) := by
      refine ⟨new, t, hnew, ?_⟩
      rw [Multiset.cons_add, ← Multiset.singleton_add, add_comm]
    cases n with
    | zero =>
      cases hrest
      exact .single hcut
    | succ n => exact (ih (Nat.succ_ne_zero n)).tail hcut

end Spends

/-- The measure of a flush: what is left gets less only finitely often. -/
theorem wellFounded_spent :
    WellFounded (Relation.TransGen (Relation.CutExpand (Task.HandedBy (ω := ω)))) :=
  Task.handedBy_wf.cutExpand.transGen

/-! ## §3. What a session comes to -/

namespace Session

variable {m m₁ m₂ : Session ω}

/-- The session with another agenda. -/
def withAgenda (m : Session ω) (as : List (Activity ω)) : Session ω := { m with agenda := as }

/-- The next `k` sessions, from each of which a step is taken. -/
def trail (m : Session ω) (k : Nat) : List (Session ω) :=
  (List.range k).map fun i => Session.step^[i] m

theorem trail_add (m : Session ω) (k k' : Nat) :
    m.trail (k + k') = m.trail k ++ (Session.step^[k] m).trail k' := by
  rw [trail, trail, trail, List.range_add, List.map_append, List.map_map]
  refine congrArg (_ ++ ·) (List.map_congr_left fun i _ => ?_)
  rw [Function.comp_apply, Nat.add_comm, Function.iterate_add_apply]

/-- How many tasks started on a trail. -/
def tasksStarted (ms : List (Session ω)) : Nat :=
  (startedDeferred ms).length + (startedFrames ms).length

theorem tasksStarted_append (ms ms' : List (Session ω)) :
    tasksStarted (ms ++ ms') = tasksStarted ms + tasksStarted ms' := by
  simp only [tasksStarted, startedDeferred, startedFrames, started, List.filterMap_append,
    List.length_append]
  omega

/-- Whatever the index, the session comes from the one agenda to the other in the same steps, and
    on the way `n` tasks start. -/
def Comes {ι : Type} (m : Session ω) (f : ι → List (Activity ω)) (n : Nat) (m' : Session ω)
    (g : ι → List (Activity ω)) : Prop :=
  ∃ k, ∀ i, Session.step^[k] (m.withAgenda (f i)) = m'.withAgenda (g i) ∧
    tasksStarted ((m.withAgenda (f i)).trail k) = n

namespace Comes

variable {ι κ : Type} {f g h : ι → List (Activity ω)} {n n' : Nat}

theorem refl (m : Session ω) (f : ι → List (Activity ω)) : Comes m f 0 m f :=
  ⟨0, fun _ => ⟨rfl, rfl⟩⟩

theorem trans (h₁ : Comes m f n m₁ g) (h₂ : Comes m₁ g n' m₂ h) : Comes m f (n + n') m₂ h := by
  obtain ⟨k, hk⟩ := h₁
  obtain ⟨k', hk'⟩ := h₂
  refine ⟨k + k', fun i => ⟨?_, ?_⟩⟩
  · rw [Nat.add_comm, Function.iterate_add_apply, (hk i).1, (hk' i).1]
  · rw [trail_add, tasksStarted_append, (hk i).1, (hk i).2, (hk' i).2]

/-- Only some indices matter. -/
theorem comp (h₁ : Comes m f n m₁ g) (φ : κ → ι) : Comes m (f ∘ φ) n m₁ (g ∘ φ) := by
  obtain ⟨k, hk⟩ := h₁
  exact ⟨k, fun j => hk (φ j)⟩

/-- One step. -/
theorem step (hstep : ∀ i, (m.withAgenda (f i)).step = m₁.withAgenda (g i))
    (hn : ∀ i, tasksStarted [m.withAgenda (f i)] = n) : Comes m f n m₁ g :=
  ⟨1, fun i => ⟨hstep i, hn i⟩⟩

/-- A first step that starts no task. -/
theorem goOn (h₂ : Comes m₁ g n m₂ h)
    (hstep : ∀ i, (m.withAgenda (f i)).step = m₁.withAgenda (g i))
    (hnone : ∀ i, tasksStarted [m.withAgenda (f i)] = 0) : Comes m f n m₂ h := by
  rw [← Nat.zero_add n]
  exact (Comes.step hstep hnone).trans h₂

end Comes

/-! ## §4. Tasks that run -/

/-- **A finite script** runs to its end. What waits then waited before or was handed over by it. -/
theorem comes_of_finite {s : Script ω} (hs : s.Finite) (m : Session ω) :
    ∃ (m' : Session ω) (new : Multiset (Script ω)),
      Comes m (fun as => .rest s :: as) 0 m' id ∧ (∀ t ∈ new, t.Hands s) ∧
        m'.queues.load ≤ m.queues.load + new.map .run := by
  induction s generalizing m with
  | done => exact ⟨m, 0, .step (fun _ => rfl) fun _ => rfl, by simp, by simp⟩
  | world change next ih =>
    obtain ⟨m', new, hcomes, hnew, hload⟩ :=
      ih (change m.world) (hs _) { m with world := change m.world }
    exact ⟨m', new, hcomes.goOn (fun _ => rfl) fun _ => rfl, fun t ht => ⟨_, hnew t ht⟩, hload⟩
  | look next ih =>
    obtain ⟨m', new, hcomes, hnew, hload⟩ := ih (m.renderer.map (·.page)) (hs _) m
    exact ⟨m', new, hcomes.goOn (fun _ => rfl) fun _ => rfl, fun t ht => ⟨_, hnew t ht⟩, hload⟩
  | emit events next ih =>
    obtain ⟨m', new, hcomes, hnew, hload⟩ := ih hs { m with events := m.events ++ events }
    exact ⟨m', new, hcomes.goOn (fun _ => rfl) fun _ => rfl, hnew, hload⟩
  | defer task next ihtask ihnext =>
    obtain ⟨m', new, hcomes, hnew, hload⟩ :=
      ihnext hs.2 { m with queues := m.queues.defer (.run task) }
    refine ⟨m', task ::ₘ new, hcomes.goOn (fun _ => rfl) fun _ => rfl, fun t ht => ?_, ?_⟩
    · exact (Multiset.mem_cons.mp ht).imp id (hnew t)
    · rwa [Queues.load_defer, Multiset.cons_add, ← Multiset.add_cons, ← Multiset.map_cons] at hload
  | requestFrame task next ihtask ihnext =>
    obtain ⟨m', new, hcomes, hnew, hload⟩ :=
      ihnext (m.queues.requestFrame (.run task)).1 (hs.2 _)
        { m with queues := (m.queues.requestFrame (.run task)).2 }
    refine ⟨m', task ::ₘ new, hcomes.goOn (fun _ => rfl) fun _ => rfl, fun t ht => ?_, ?_⟩
    · exact (Multiset.mem_cons.mp ht).imp id fun ht => ⟨_, hnew t ht⟩
    · rwa [Queues.load_requestFrame, Multiset.cons_add, ← Multiset.add_cons,
        ← Multiset.map_cons] at hload
  | cancelFrame id next ih =>
    obtain ⟨m', new, hcomes, hnew, hload⟩ := ih hs { m with queues := m.queues.cancelFrame id }
    refine ⟨m', new, hcomes.goOn (fun _ => rfl) fun _ => rfl, hnew, hload.trans ?_⟩
    exact Multiset.add_le_add_right (m.queues.load_cancelFrame_le id)
  | _ => exact hs.elim

/-- A finite task that stands first on the agenda runs to its end. -/
theorem comes_of_task {t : Task ω} {f : List (Activity ω) → List (Activity ω)} (ht : t.Finite)
    (hstep : ∀ as, (m.withAgenda (f as)).step = (m.withAgenda as).start t)
    (hstarts : ∀ as, tasksStarted [m.withAgenda (f as)] = 1) :
    ∃ m' new, Comes m f 1 m' id ∧ (∀ u ∈ new, u.HandedBy t) ∧
      m'.queues.load ≤ m.queues.load + new := by
  cases t with
  | run s =>
    obtain ⟨m', new, hcomes, hnew, hload⟩ := comes_of_finite ht m
    refine ⟨m', new.map .run, (Comes.step hstep hstarts).trans hcomes, fun u hu => ?_, hload⟩
    obtain ⟨t, ht, rfl⟩ := Multiset.mem_map.mp hu
    exact hnew t ht
  | _ => exact ht.elim

/-! ## §5. Queues that run empty -/

/-- Who waits for the number of the tasks that run. -/
structure Caller (ω : Type) where
  /-- How many ran already. -/
  ran : Nat
  /-- How to go on with their number. -/
  next : Nat → Script ω
  /-- What comes after that. -/
  after : List (Activity ω)

namespace Caller

/-- The agenda at the call. -/
def calls (call : Nat → (Nat → Script ω) → Script ω) (c : Caller ω) : List (Activity ω) :=
  .rest (call c.ran c.next) :: c.after

/-- The agenda when another `n` tasks have run. -/
def returns (n : Nat) (c : Caller ω) : List (Activity ω) := .rest (c.next (c.ran + n)) :: c.after

/-- How a flush goes on when a round has run `deferred` deferred tasks and `frames` frames. -/
def goesOn (c : Caller ω) (deferred frames : Nat) : Script ω :=
  if deferred + frames = 0 then c.next c.ran else .flush (c.ran + deferred + frames) c.next

theorem returns_add (c : Caller ω) (n n' : Nat) :
    ({ c with ran := c.ran + n } : Caller ω).returns n' = c.returns (n + n') := by
  rw [returns, returns, Nat.add_assoc]

end Caller

theorem step_without_deferred (h : m.queues.deferred = []) (c : Caller ω) :
    (m.withAgenda (c.calls .runDeferred)).step = m.withAgenda (c.returns 0) := by
  show (m.withAgenda c.after).advance (.runDeferred c.ran c.next) = _
  simp only [advance, withAgenda, Queues.takeDeferred?, h]
  rfl

theorem step_first_deferred {d : Ticket × Task ω} {ds : List (Ticket × Task ω)}
    (h : m.queues.deferred = d :: ds) (c : Caller ω) :
    (m.withAgenda (c.calls .runDeferred)).step =
      ({ m with queues := { m.queues with deferred := ds } } : Session ω).withAgenda
        (.deferred d.1 d.2 :: ({ c with ran := c.ran + 1 } : Caller ω).calls .runDeferred) := by
  show (m.withAgenda c.after).advance (.runDeferred c.ran c.next) = _
  simp only [advance, withAgenda, Queues.takeDeferred?, h]
  rfl

/-- **The deferred tasks** run until there is none. -/
theorem drained {L : Multiset (Task ω)} (hL : ∀ t ∈ L, t.Finite) (hload : m.queues.load ≤ L) :
    ∃ n L' m', Spends n L L' ∧ m'.queues.load ≤ L' ∧ m'.queues.deferred = [] ∧
      Comes m (Caller.calls .runDeferred) n m' (Caller.returns n) := by
  -- What waits may be less than `L`: cancelling only drops from it.
  induction L using wellFounded_spent.induction generalizing m with
  | _ L ih =>
    cases hq : m.queues.deferred with
    | nil =>
      exact ⟨0, L, m, .none L, hload, hq, .step (step_without_deferred hq) fun _ => rfl⟩
    | cons d ds =>
      rw [Queues.load_of_deferred hq] at hload
      obtain ⟨rest, rfl⟩ := Multiset.exists_cons_of_mem (Multiset.mem_of_le hload
        (Multiset.mem_cons_self _ _))
      obtain ⟨m₁, new, hstart, hnew, hload₁⟩ :=
        comes_of_task (m := { m with queues := { m.queues with deferred := ds } })
          (f := (.deferred d.1 d.2 :: ·)) (hL d.2 (Multiset.mem_cons_self _ _)) (fun _ => rfl)
          fun _ => rfl
      have hspent : Spends 1 (d.2 ::ₘ rest) (rest + new) := .run hnew (.none _)
      obtain ⟨n, L', m', hspends, hload', hnil, hcomes⟩ :=
        ih (rest + new) (hspent.transGen Nat.one_ne_zero) (hspent.finite hL)
          (hload₁.trans (Multiset.add_le_add_right ((Multiset.cons_le_cons_iff _).mp hload)))
      refine ⟨1 + n, L', m', hspent.trans hspends, hload', hnil, ?_⟩
      have hagain := hcomes.comp fun c : Caller ω => { c with ran := c.ran + 1 }
      simp only [Function.comp_def, Caller.returns_add] at hagain
      exact ((hstart.comp _).trans hagain).goOn (step_first_deferred hq) fun _ => rfl

/-- Frames that were taken run one after another. -/
theorem ranEach (fs : List (FrameId × Task ω)) {L : Multiset (Task ω)}
    (hL : ∀ t ∈ (fs.map (·.2) : Multiset (Task ω)) + L, t.Finite) (hload : m.queues.load ≤ L) :
    ∃ L' m', Spends fs.length ((fs.map (·.2) : Multiset (Task ω)) + L) L' ∧
      m'.queues.load ≤ L' ∧
      Comes m ((fs.map fun f => Activity.frame f.1 f.2) ++ ·) fs.length m' id := by
  induction fs generalizing m L with
  | nil => exact ⟨L, m, (zero_add L).symm ▸ .none L, hload, .refl m _⟩
  | cons f fs ih =>
    rw [List.map_cons, ← Multiset.cons_coe, Multiset.cons_add] at hL ⊢
    obtain ⟨m₁, new, hstart, hnew, hload₁⟩ :=
      comes_of_task (m := m) (f := (.frame f.1 f.2 :: ·)) (hL f.2 (Multiset.mem_cons_self _ _))
        (fun _ => rfl) fun _ => rfl
    have hspent := Spends.run (L := (fs.map (·.2) : Multiset (Task ω)) + L) hnew (.none _)
    rw [add_assoc] at hspent
    obtain ⟨L', m', hspends, hload', hcomes⟩ :=
      ih (hspent.finite hL) (hload₁.trans (Multiset.add_le_add_right hload))
    rw [List.length_cons, Nat.add_comm]
    exact ⟨L', m', hspent.trans hspends, hload', (hstart.comp _).trans hcomes⟩

/-- **The frames that wait** run. -/
theorem ranFrames {L : Multiset (Task ω)} (hL : ∀ t ∈ L, t.Finite) (hload : m.queues.load ≤ L) :
    ∃ L' m', Spends m.queues.frames.length L L' ∧ m'.queues.load ≤ L' ∧
      Comes m (fun c : Caller ω => .rest (.runFrame c.next) :: c.after) m.queues.frames.length m'
        fun c => .rest (c.next m.queues.frames.length) :: c.after := by
  rw [Queues.load_takeFrames] at hload
  obtain ⟨rest, rfl⟩ := Multiset.le_iff_exists_add.mp hload
  rw [add_assoc] at hL ⊢
  obtain ⟨L', m', hspends, hload', hcomes⟩ :=
    ranEach (m := { m with queues := m.queues.takeFrames.2 }) m.queues.frames hL
      (Multiset.le_add_right _ _)
  refine ⟨L', m', hspends, hload', (hcomes.comp _).goOn (fun c => ?_) fun _ => rfl⟩
  exact congrArg (withAgenda _) (List.append_assoc _ _ _)

/-- **Rounds** of deferred tasks and frames come to an end when neither waits. -/
theorem flushed {L : Multiset (Task ω)} (hL : ∀ t ∈ L, t.Finite) (hload : m.queues.load ≤ L) :
    ∃ n m', m'.queues.isEmpty = true ∧ Comes m (Caller.calls .flush) n m' (Caller.returns n) := by
  induction L using wellFounded_spent.induction generalizing m with
  | _ L ih =>
    obtain ⟨n₁, L₁, m₁, hspends₁, hload₁, hnil, hdrained⟩ := drained hL hload
    have hL₁ := hspends₁.finite hL
    have hround : Comes m (Caller.calls .flush) n₁ m₁ fun c =>
        .rest (.runFrame (c.goesOn n₁)) :: c.after := by
      have hcomp := hdrained.comp fun c : Caller ω =>
        ⟨0, fun deferred => .runFrame (c.goesOn deferred), c.after⟩
      simp only [Function.comp_def, Caller.returns, Nat.zero_add] at hcomp
      exact hcomp.goOn (fun _ => rfl) fun _ => rfl
    by_cases hn : n₁ + m₁.queues.frames.length = 0
    · -- Nothing ran, so nothing waits: the round that ends the flush.
      obtain ⟨rfl, hframes⟩ := Nat.add_eq_zero_iff.mp hn
      rw [List.length_eq_zero_iff] at hframes
      refine ⟨0, m₁, by simp [Queues.isEmpty, hnil, hframes], hround.trans (.step ?_ fun _ => rfl)⟩
      intro c
      show (m₁.withAgenda c.after).advance (.runFrame (c.goesOn 0)) = _
      simp only [advance, withAgenda, Queues.takeFrames_eq_self hframes]
      rfl
    · obtain ⟨L₂, m₂, hspends₂, hload₂, hframes⟩ := ranFrames hL₁ hload₁
      obtain ⟨n, m', hempty, hflush⟩ :=
        ih L₂ ((hspends₁.trans hspends₂).transGen hn) (hspends₂.finite hL₁) hload₂
      refine ⟨n₁ + (m₁.queues.frames.length + n), m', hempty, hround.trans ?_⟩
      have hnext := hframes.comp fun c : Caller ω => { c with next := c.goesOn n₁ }
      have hagain := hflush.comp fun c : Caller ω =>
        { c with ran := c.ran + (n₁ + m₁.queues.frames.length) }
      simp only [Function.comp_def, Caller.goesOn, if_neg hn, Nat.add_assoc] at hnext
      simp only [Function.comp_def, Caller.returns_add, Nat.add_assoc] at hagain
      exact hnext.trans hagain

/-- **A flush comes to an end** if all that waits is finite work. It returns how many tasks
    started during the call, and leaves both queues empty. -/
theorem flush_returns_count (m : Session ω) (hm : ∀ w ∈ m.queues.waiting, w.task.Finite) :
    ∃ (n k : Nat) (m' : Session ω), m'.queues.isEmpty = true ∧ ∀ next as,
      step^[k] (m.withAgenda (.rest (.flush 0 next) :: as)) =
          m'.withAgenda (.rest (next n) :: as) ∧
        tasksStarted ((m.withAgenda (.rest (.flush 0 next) :: as)).trail k) = n := by
  have hfinite : ∀ t ∈ m.queues.load, t.Finite := by
    intro t ht
    obtain ⟨w, hw, rfl⟩ := List.mem_map.mp (Multiset.mem_coe.mp ht)
    exact hm w hw
  obtain ⟨n, m', hempty, k, hk⟩ := flushed hfinite le_rfl
  refine ⟨n, k, m', hempty, fun next as => ?_⟩
  have hcall := hk ⟨0, next, as⟩
  rwa [Caller.returns, Nat.zero_add] at hcall

/-- A deferred task requests two frames and cancels one of them. The other defers a task. -/
theorem flush_returns_count_nested :
    let task : Script Unit := .requestFrame (.defer .done .done) fun _ =>
      .requestFrame .done fun other => .cancelFrame other .done
    let m : Session Unit := { initial () with queues := Queues.empty.defer (.run task) }
    (∀ w ∈ m.queues.waiting, w.task.Finite) ∧
      ∃ (n k : Nat) (m' : Session Unit), m'.queues.isEmpty = true ∧ ∀ next as,
        step^[k] (m.withAgenda (.rest (.flush 0 next) :: as)) =
            m'.withAgenda (.rest (next n) :: as) ∧
          tasksStarted ((m.withAgenda (.rest (.flush 0 next) :: as)).trail k) = n := by
  intro task m
  have hm : ∀ w ∈ m.queues.waiting, w.task.Finite := by
    intro w hw
    obtain rfl := List.mem_singleton.mp hw
    exact ⟨⟨trivial, trivial⟩, fun _ => ⟨trivial, fun _ => trivial⟩⟩
  exact ⟨hm, flush_returns_count m hm⟩

end Session

end ReactiveView
