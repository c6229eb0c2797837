import Mathlib.Logic.Relation
import ReactiveView.Proofs.Scheduling.Calls

/-! # No update is lost

  A mounted renderer, whatever calls it gets and in whatever order its callbacks
  run, with any scheduler that keeps the contract.

  * `Course` is a moment: the renderer at its scheduler, the callbacks that were
    taken out of the scheduler but did not start, and whether the view is behind.
  * `Course.Step` has a call, a callback taken out, a callback that runs, and
    whatever goes on elsewhere. Calls that callbacks make are steps like others.
  * `no_update_lost`: frames of old generations are harmless, and as long as the
    view is behind, something is in flight that will bring it up to date.
-/

namespace ReactiveView

variable {S ω : Type}

/-! ## §1. Courses -/

/-- A mounted renderer at one moment. -/
structure Course (S ω : Type) where
  /-- The renderer at its scheduler. -/
  site : Site S ω
  /-- The callbacks that were taken out of the scheduler and did not start yet. It is too late to
      cancel these. -/
  taken : Multiset (Waiting (Task ω))
  /-- Whether the view never ran, or an entry was written or removed since it ran last. Nothing
      reads this. -/
  behind : Bool

/-- Whether the view ran between two moments: there is a target, and a frame was completed. -/
def Site.viewRan (p q : Site S ω) : Bool :=
  p.renderer.page.target.isSome && p.renderer.page.completed < q.renderer.page.completed

namespace Course

/-- Goes on to another site. A view that ran on the way is not behind. -/
def goTo (x : Course S ω) (q : Site S ω) (wrote : Bool) : Course S ω :=
  { x with site := q, behind := (x.behind || wrote) && !x.site.viewRan q }

/-- After a call. -/
def after [FrameScheduler S (Task ω)] (x : Course S ω) (c : Call ω) : Course S ω :=
  x.goTo (c.perform x.site) c.writes

/-- A view that was just mounted. -/
def start [FrameScheduler S (Task ω)] (o : MountOptions ω) (tree : LiveTree) (s : S) :
    Course S ω :=
  ⟨(o.mount tree s).result, 0, true⟩

/-- A view with a target ran when a frame was completed. -/
theorem goTo_not_behind (x : Course S ω) {q : Site S ω} {wrote : Bool}
    (htarget : x.site.renderer.page.target.isSome = true)
    (hq : q.renderer.page.completed = x.site.renderer.page.completed + 1) :
    ¬ (x.goTo q wrote).behind = true := by
  simp [goTo, Site.viewRan, htarget, hq]

theorem goTo_behind (x : Course S ω) {q : Site S ω} {wrote : Bool}
    (h : (x.goTo q wrote).behind = true) : x.behind = true ∨ wrote = true := by
  simp only [goTo, Bool.and_eq_true, Bool.or_eq_true] at h
  exact h.1

variable [LawfulScheduler S (Task ω)]

/-- All callbacks in flight. -/
def inFlight (x : Course S ω) : Multiset (Waiting (Task ω)) := x.site.inFlight x.taken

/-- One step. -/
inductive Step : Course S ω → Course S ω → Prop where
  /-- Somebody calls the renderer: the embedder, or a callback that runs. -/
  | call (x : Course S ω) (c : Call ω) : Step x (x.after c)
  /-- A callback is taken out of the scheduler. -/
  | take (x : Course S ω) (s : S) (w : Waiting (Task ω))
      (hw : LawfulScheduler.inFlight x.site.scheduler = w ::ₘ LawfulScheduler.inFlight s) :
      Step x { x with site := { x.site with scheduler := s }, taken := w ::ₘ x.taken }
  /-- A callback that was taken out runs. -/
  | run (x : Course S ω) (w : Waiting (Task ω)) (rest : Multiset (Waiting (Task ω)))
      (hw : x.taken = w ::ₘ rest) :
      Step x ({ x with taken := rest }.goTo (w.task.perform x.site) false)
  /-- The scheduler goes on by itself, or serves others. -/
  | elsewhere (x : Course S ω) (s : S)
      (hs : ownCallbacks (LawfulScheduler.inFlight s) =
        ownCallbacks (LawfulScheduler.inFlight x.site.scheduler)) :
      Step x { x with site := { x.site with scheduler := s } }

/-- The courses that a mounted view can take. -/
def Reachable (o : MountOptions ω) (tree : LiveTree) (s : S) : Course S ω → Prop :=
  Relation.ReflTransGen Step (start o tree s)

/-! ## §2. The invariant along a course -/

/-- The target is known, and what the renderer awaits is in flight. -/
structure Sound (x : Course S ω) : Prop where
  /-- There is a target. -/
  target : x.site.renderer.page.target.isSome = true
  /-- The view is not behind without something to wait for. -/
  scheduled : Scheduled x.site.renderer x.inFlight (x.behind = true)

variable {x y : Course S ω}

theorem sound_start {o : MountOptions ω} {tree : LiveTree} {s : S}
    (hs : ∀ w ∈ LawfulScheduler.inFlight s, w.task.isOwn = false)
    (htarget : (tree.query? o.target).isSome = true) : (start o tree s).Sound where
  target := by
    show (o.mount tree s).result.renderer.page.target.isSome = true
    rw [o.result_mount, Site.page_of_content_eq (Site.content_requestFrame _), o.page_bare]
    exact htarget
  scheduled := o.scheduled_mount tree s 0 (by simpa [Site.inFlight] using hs) _

/-- **One step**. -/
theorem Sound.step (h : x.Sound) (hxy : Step x y) : y.Sound := by
  cases hxy with
  | call c =>
    refine ⟨by rw [after, goTo, Call.target_perform]; exact h.target, ?_⟩
    refine h.scheduled.call c x.goTo_behind ?_
    intro hdraws
    cases c <;> simp [Call.draws] at hdraws
    exact x.goTo_not_behind h.target (Renderer.completed_perform _)
  | take s w hw =>
    refine ⟨h.target, ?_⟩
    -- The callback is in flight before and after.
    have hfl : inFlight { x with
        site := { x.site with scheduler := s }, taken := w ::ₘ x.taken } = x.inFlight := by
      simp [inFlight, Site.inFlight, hw]
    rw [hfl]
    exact h.scheduled
  | run w rest hw =>
    refine ⟨by rw [goTo, Task.target_perform]; exact h.target, ?_⟩
    have hfl : x.inFlight = w ::ₘ x.site.inFlight rest := by
      rw [inFlight, hw, Site.inFlight_cons]
    have hscheduled := h.scheduled
    rw [hfl] at hscheduled
    refine hscheduled.run (fun hb => (x.goTo_behind hb).resolve_right (by simp)) ?_
    intro htask
    refine x.goTo_not_behind h.target ?_
    rw [htask, Task.perform, x.site.runFrame_generation]
    exact Renderer.completed_perform _
  | elsewhere s hs =>
    refine ⟨h.target, h.scheduled.of_ownCallbacks_eq ?_⟩
    show ownCallbacks (LawfulScheduler.inFlight s + x.taken) =
      ownCallbacks (LawfulScheduler.inFlight x.site.scheduler + x.taken)
    rw [ownCallbacks_add, ownCallbacks_add, hs]

theorem Sound.reachable {o : MountOptions ω} {tree : LiveTree} {s : S}
    (h : (start o tree s).Sound) (hx : Reachable o tree s x) : x.Sound := by
  induction hx with
  | refl => exact h
  | tail _ hstep ih => exact ih.step hstep

end Course

/-! ## §3. The result -/

/-- **No update is lost, and stale frames are harmless.** Whatever happens to a mounted view with a
    target:

    * at most one frame in flight is of the current generation, and a frame of another generation
      does nothing when it runs;
    * as long as the view is behind, the end of a batch or the current frame is in flight. -/
theorem no_update_lost [LawfulScheduler S (Task ω)] {o : MountOptions ω} {tree : LiveTree} {s : S}
    (hs : ∀ w ∈ LawfulScheduler.inFlight s, w.task.isOwn = false)
    (htarget : (tree.query? o.target).isSome = true) {x : Course S ω}
    (hx : Course.Reachable o tree s x) :
    x.inFlight.countP (·.isFrameOf x.site.renderer.generation = true) ≤ 1 ∧
      (∀ id g, .frame id (.frame g) ∈ x.inFlight → g ≠ x.site.renderer.generation →
        (x.site.runFrame g).result = ([], x.site)) ∧
      (x.behind = true → .deferred .closeBatch ∈ x.inFlight ∨
        ∃ id, .frame id (.frame x.site.renderer.generation) ∈ x.inFlight) := by
  have hsound := (Course.sound_start hs htarget).reachable hx
  refine ⟨hsound.scheduled.countP_le, ?_, ?_⟩
  · intro id g _ hg
    exact x.site.runFrame_of_ne hg
  · intro hb
    rcases hsound.scheduled.awaited hb with hbatch | hframe
    · exact Or.inl (hsound.scheduled.closeBatch_mem hbatch)
    · exact Or.inr (hsound.scheduled.frame_mem hframe)

/-- A write before the first frame, on a scheduler that has nothing else to do. -/
theorem no_update_lost_after_write :
    let x : Course (Queues (Task Unit)) Unit :=
      (Course.start ⟨"#app", fun _ => pure [.text "shown"], ∅, []⟩
        (LiveTree.initial.createMountPoint "app").2 .empty).after (.write "key" .null)
    x.behind = true ∧ (.deferred .closeBatch ∈ x.inFlight ∨
      ∃ id, .frame id (.frame x.site.renderer.generation) ∈ x.inFlight) := by
  intro x
  have hbehind : x.behind = true := by decide
  have hx : Course.Reachable _ _ _ x :=
    Relation.ReflTransGen.single (Course.Step.call _ (.write "key" .null))
  have hresult := no_update_lost (s := (.empty : Queues (Task Unit)))
    (fun w hw => absurd hw (Multiset.notMem_zero w)) (by decide) hx
  exact ⟨hbehind, hresult.2.2 hbehind⟩

end ReactiveView
