import Mathlib.Algebra.Order.Group.Multiset
import ReactiveView.Proofs.Scheduling.Ledger
import ReactiveView.Proofs.Session.Runs

/-! # Trails of a session

  A trail is a passage of a session together with the sessions that it went
  through on the way. Scripts do what they like, and there may be a renderer or
  not; only a new script is started no sooner than all that runs is over.

  * `Session.ledger`: what the next step hands to the queues and drops from
    them, as a ledger has it.
  * `Deals`: what of a turn concerns the queues. `exists_deals` says that every
    step is one of these, with a renderer or without.
  * `Trail.induct`: what a script and a step keep holds of all trails.
  * `Balanced`: the books of a trail are right. What was handed over since its
    start waits in the queues, was taken out of them and is on the agenda, was
    dropped, or has started.
-/

namespace ReactiveView

variable {ω : Type}

/-! ## §1. What a step enters -/

/-- What the next step of a script makes of a ledger. Taking tasks out is not entered. -/
def Script.enter (renderer : Option (Renderer ω)) (l : Ledger (Task ω)) :
    Script ω → Ledger (Task ω)
  | .defer task _ => FrameScheduler.defer l (.run task)
  | .requestFrame task _ => (FrameScheduler.requestFrame l (.run task)).2
  | .cancelFrame id _ => FrameScheduler.cancelFrame l id
  | s =>
    match s.call?, renderer with
    | some c, some r => (c.perform ⟨r, l⟩).scheduler
    | _, _ => l

/-- What a task makes of a ledger when it starts. -/
def Task.enter (renderer : Option (Renderer ω)) (l : Ledger (Task ω)) (t : Task ω) :
    Ledger (Task ω) :=
  match renderer with
  | some r => (t.perform ⟨r, l⟩).scheduler
  | none => l

/-- What the next step of an activity makes of a ledger. -/
def Activity.enter (renderer : Option (Renderer ω)) (l : Ledger (Task ω)) :
    Activity ω → Ledger (Task ω)
  | .rest s => s.enter renderer l
  | .deferred _ t => t.enter renderer l
  | .frame _ t => t.enter renderer l
  | .effect _ _ _ _ => l
  | .ready _ _ => l

/-- The ledger of the next step. -/
def Session.ledger (m : Session ω) : Ledger (Task ω) :=
  match m.agenda with
  | [] => .ofQueues m.queues
  | a :: _ => a.enter m.renderer (.ofQueues m.queues)

/-- The deferred task that an activity is, before its start. -/
def Activity.deferred? : Activity ω → Option (Ticket × Task ω)
  | deferred ticket task => some (ticket, task)
  | _ => none

/-- The frame that an activity is, before its start. -/
def Activity.frame? : Activity ω → Option (FrameId × Task ω)
  | frame id task => some (id, task)
  | _ => none

/-- The deferred tasks among activities. -/
def takenDeferred (as : List (Activity ω)) : List (Ticket × Task ω) :=
  as.filterMap Activity.deferred?

/-- The frames among activities. -/
def takenFrames (as : List (Activity ω)) : List (FrameId × Task ω) := as.filterMap Activity.frame?

theorem takenDeferred_append (as bs : List (Activity ω)) :
    takenDeferred (as ++ bs) = takenDeferred as ++ takenDeferred bs := List.filterMap_append

theorem takenFrames_append (as bs : List (Activity ω)) :
    takenFrames (as ++ bs) = takenFrames as ++ takenFrames bs := List.filterMap_append

theorem takenDeferred_eq_nil {as : List (Activity ω)} (h : ∀ a ∈ as, a.waiting? = none) :
    takenDeferred as = [] := by
  refine List.filterMap_eq_nil_iff.mpr fun a ha => ?_
  have hnone := h a ha
  cases a <;> simp [Activity.waiting?] at hnone <;> rfl

theorem takenFrames_eq_nil {as : List (Activity ω)} (h : ∀ a ∈ as, a.waiting? = none) :
    takenFrames as = [] := by
  refine List.filterMap_eq_nil_iff.mpr fun a ha => ?_
  have hnone := h a ha
  cases a <;> simp [Activity.waiting?] at hnone <;> rfl

theorem takenFrames_map (fs : List (FrameId × Task ω)) :
    takenFrames (fs.map fun f => Activity.frame f.1 f.2) = fs := by
  rw [takenFrames, List.filterMap_map]
  exact List.filterMap_some

theorem takenDeferred_map (fs : List (FrameId × Task ω)) :
    takenDeferred (fs.map fun f => Activity.frame f.1 f.2) = [] := by
  refine List.filterMap_eq_nil_iff.mpr fun a ha => ?_
  obtain ⟨f, -, rfl⟩ := List.mem_map.mp ha
  rfl

/-- What stands on an agenda stands behind what is new, or is part of it. -/
theorem split_append_cons {new as front behind : List (Activity ω)} {a : Activity ω}
    (h : new ++ as = front ++ a :: behind) :
    (∃ front', as = front' ++ a :: behind) ∨
      ∃ behind', new = front ++ a :: behind' ∧ behind = behind' ++ as := by
  rcases List.append_eq_append_iff.mp h with ⟨front', -, has⟩ | ⟨new', hnew, hbehind⟩
  · exact .inl ⟨front', has⟩
  · cases new' with
    | nil => exact .inl ⟨[], hbehind.symm⟩
    | cons b behind' =>
      obtain ⟨rfl, hsplit⟩ := List.cons_eq_cons.mp hbehind
      exact .inr ⟨behind', hnew, hsplit⟩

/-! ## §2. Calls and tasks on a ledger -/

section entered

variable {r : Renderer ω} {q : Queues (Task ω)}

/-- A renderer at its queues, and the same at a ledger of them. -/
theorem matched_ledger (hq : q.Numbered) (r : Renderer ω) :
    Site.Matched (fun s (l : Ledger (Task ω)) => l.queues = s ∧ l.Entered q) ⟨r, q⟩
      ⟨r, .ofQueues q⟩ :=
  ⟨rfl, rfl, Ledger.entered_ofQueues hq⟩

/-- A call enters in a ledger what it does to the queues. -/
theorem Call.entered (hq : q.Numbered) (c : Call ω) :
    (c.perform ⟨r, Ledger.ofQueues q⟩).scheduler.queues = (c.perform ⟨r, q⟩).scheduler ∧
      (c.perform ⟨r, Ledger.ofQueues q⟩).scheduler.Entered q :=
  (c.alike (Ledger.Entered.alike q) (matched_ledger hq r)).scheduler

/-- So does a task. -/
theorem Task.entered (hq : q.Numbered) (t : Task ω) :
    (t.perform ⟨r, Ledger.ofQueues q⟩).scheduler.queues = (t.perform ⟨r, q⟩).scheduler ∧
      (t.perform ⟨r, Ledger.ofQueues q⟩).scheduler.Entered q :=
  (t.alike (Ledger.Entered.alike q) (matched_ledger hq r)).scheduler

theorem Script.enter_call {s : Script ω} {c : Call ω} (hs : s.call? = some c)
    (renderer : Option (Renderer ω)) (l : Ledger (Task ω)) :
    s.enter renderer l =
      match renderer with
      | some r => (c.perform ⟨r, l⟩).scheduler
      | none => l := by
  cases s <;> simp [call?] at hs <;> subst hs <;> cases renderer <;> rfl

theorem Script.enter_of_none {s : Script ω} (hcall : s.call? = none) (hover : s.handsOver = false)
    (renderer : Option (Renderer ω)) (l : Ledger (Task ω)) : s.enter renderer l = l := by
  cases s <;> simp [call?, handsOver] at hcall hover <;> rfl

end entered

namespace Session

variable {m : Session ω} {a : Activity ω} {as : List (Activity ω)}

/-- The books of a step are right. -/
theorem entered_ledger (hq : m.queues.Numbered) : m.ledger.Entered m.queues := by
  have hblank := Ledger.entered_ofQueues hq
  have htask : ∀ t : Task ω, (t.enter m.renderer (.ofQueues m.queues)).Entered m.queues := by
    intro t
    unfold Task.enter
    cases m.renderer with
    | none => exact hblank
    | some r => exact (t.entered hq).2
  unfold ledger
  cases m.agenda with
  | nil => exact hblank
  | cons a as =>
    cases a with
    | rest s =>
      -- A script makes a call of the renderer, or speaks to the queues itself.
      show (s.enter m.renderer (.ofQueues m.queues)).Entered m.queues
      cases hs : s.call? with
      | some c =>
        rw [Script.enter_call hs]
        cases m.renderer with
        | none => exact hblank
        | some r => exact (c.entered hq).2
      | none =>
        cases s <;> simp [Script.call?] at hs
        case defer task next => exact hblank.defer _
        case requestFrame task next => exact hblank.requestFrame _
        case cancelFrame id next => exact hblank.cancelFrame id
        all_goals exact hblank
    | deferred ticket t => exact htask t
    | frame id t => exact htask t
    | effect id previous current e => exact hblank
    | ready id callback => exact hblank

/-! ## §3. What a step does with the queues -/

/-- What one step of an activity can do with the queues `q`, given what it enters, and what it puts
    on the agenda. -/
inductive Deals (q : Queues (Task ω)) (l : Ledger (Task ω)) :
    Activity ω → List (Activity ω) → Queues (Task ω) → Prop where
  /-- It hands over and drops as the ledger says, and takes nothing out. -/
  | handOver {a : Activity ω} {new : List (Activity ω)} (hnew : ∀ b ∈ new, b.waiting? = none) :
      Deals q l a new l.queues
  /-- A script takes the first deferred task out, and goes on with the others after it. -/
  | takeDeferred {ran : Nat} {next : Nat → Script ω} {d : Ticket × Task ω}
      {ds : List (Ticket × Task ω)} (hq : q.deferred = d :: ds) (hl : l = .ofQueues q) :
      Deals q l (.rest (.runDeferred ran next))
        [.deferred d.1 d.2, .rest (.runDeferred (ran + 1) next)] { q with deferred := ds }
  /-- A script takes all frames out, and goes on after them. -/
  | takeFrames {next : Nat → Script ω} (hl : l = .ofQueues q) :
      Deals q l (.rest (.runFrame next))
        ((q.frames.map fun f => Activity.frame f.1 f.2) ++ [.rest (next q.frames.length)])
        { q with frames := [] }

/-- It leaves the queues as they are. -/
theorem Deals.leave {q : Queues (Task ω)} {a : Activity ω} {new : List (Activity ω)}
    (hnew : ∀ b ∈ new, b.waiting? = none) : Deals q (.ofQueues q) a new q :=
  .handOver (l := .ofQueues q) hnew

theorem use_of_none (h : m.renderer = none)
    (f : Site (Queues (Task ω)) ω → Traced (List (Activity ω) × Site (Queues (Task ω)) ω)) :
    m.use f = m := by
  unfold use
  rw [h]

/-- A script that makes no call deals with the queues by itself. -/
theorem deals_of_alone {q q' : Queues (Task ω)} {s : Script ω} {new : List (Activity ω)}
    (h : Alone q s new q') (renderer : Option (Renderer ω)) :
    Deals q (s.enter renderer (.ofQueues q)) (.rest s) new q' := by
  cases h with
  | stop => exact .leave (by simp)
  | @goOn s next hcall hover hconfined =>
    rw [Script.enter_of_none hcall hover]
    exact .leave (waiting?_rest next)
  | defer task next => exact .handOver (waiting?_rest next)
  | requestFrame task next =>
    exact .handOver (l := (FrameScheduler.requestFrame (Ledger.ofQueues q) _).2) (waiting?_rest _)
  | cancelFrame id next =>
    exact .handOver (l := FrameScheduler.cancelFrame (Ledger.ofQueues q) id) (waiting?_rest next)
  | takeDeferred hq => exact .takeDeferred hq rfl
  | takeFrames next => exact .takeFrames rfl

/-- **A turn** deals with the queues as its ledger says. -/
theorem deals_of_turn {p p' : Site (Queues (Task ω)) ω} {new : List (Activity ω)}
    (h : Turn p a new p') (hq : p.scheduler.Numbered) :
    Deals p.scheduler (a.enter (some p.renderer) (.ofQueues p.scheduler)) a new p'.scheduler := by
  cases h with
  | @call s next c hs hconfined =>
    rw [Activity.enter, Script.enter_call hs, ← (c.entered hq).1]
    exact .handOver (c.waiting?_due next)
  | changeTree change next => exact .leave (waiting?_rest next)
  | alone h => exact deals_of_alone h _
  | @task _ w hw =>
    have henter : a.enter (some p.renderer) (.ofQueues p.scheduler) =
        w.task.enter (some p.renderer) (.ofQueues p.scheduler) := by
      cases a <;> simp [Activity.waiting?] at hw <;> subst hw <;> rfl
    rw [henter, Task.enter, ← (w.task.entered hq).1]
    exact .handOver w.task.waiting?_due
  | effect id previous current e => exact .leave (waiting?_rest _)
  | ready id callback => exact .leave (waiting?_rest _)

section absent

variable (hr : m.renderer = none)
include hr

/-- Without a renderer, a script ends that wants it, and any other goes on by itself. -/
theorem advance_without_renderer (s : Script ω) :
    ∃ new, Deals m.queues (s.enter none (.ofQueues m.queues)) (.rest s) new (m.advance s).queues ∧
      (m.advance s).agenda = new ++ m.agenda := by
  have hend : ∃ new, Deals m.queues (.ofQueues m.queues) (.rest s) new m.queues ∧
      m.agenda = new ++ m.agenda := ⟨[], .leave (by simp), rfl⟩
  by_cases htree : ∃ change next, s = .changeTree change next
  · obtain ⟨change, next, rfl⟩ := htree
    rw [advance, use_of_none hr]
    exact hend
  cases hs : s.call? with
  | some c =>
    obtain ⟨f, hadvance, -⟩ := advance_call hs
    rw [Script.enter_call hs, hadvance, use_of_none hr]
    exact hend
  | none =>
    obtain ⟨new, halone, -, hagenda⟩ :=
      m.advance_alone hs fun change next heq => htree ⟨change, next, heq⟩
    exact ⟨new, deals_of_alone halone none, hagenda⟩

/-- Of the tasks, only the embedder's do something without a renderer. -/
theorem start_without_renderer (a : Activity ω) (t : Task ω) :
    ∃ new, Deals m.queues (.ofQueues m.queues) a new (m.start t).queues ∧
      (m.start t).agenda = new ++ m.agenda := by
  cases t with
  | run s => exact ⟨_, .leave (waiting?_rest s), rfl⟩
  | closeBatch | frame g =>
    rw [start, use_of_none hr]
    exact ⟨[], .leave (by simp), rfl⟩

theorem step_without_renderer (h : m.agenda = a :: as) :
    ∃ new, Deals m.queues (a.enter none (.ofQueues m.queues)) a new m.step.queues ∧
      m.step.agenda = new ++ as := by
  rw [Session.step, h]
  cases a with
  | rest s => exact advance_without_renderer (m := { m with agenda := as }) hr s
  | deferred ticket t => exact start_without_renderer (m := { m with agenda := as }) hr _ t
  | frame id t => exact start_without_renderer (m := { m with agenda := as }) hr _ t
  | effect id previous current e => exact ⟨_, .leave (waiting?_rest _), rfl⟩
  | ready id callback => exact ⟨_, .leave (waiting?_rest _), rfl⟩

end absent

/-- **Every step** deals with the queues as its ledger says. -/
theorem exists_deals (hq : m.queues.Numbered) (h : m.agenda = a :: as) :
    ∃ new, Deals m.queues m.ledger a new m.step.queues ∧ m.step.agenda = new ++ as := by
  rw [ledger, h]
  cases hr : m.renderer with
  | none => exact step_without_renderer hr h
  | some r =>
    obtain ⟨new, p', hturn, hat⟩ := exists_turn (p := ⟨r, m.queues⟩) ⟨hr, rfl, h⟩
    refine ⟨new, ?_, hat.agenda_eq⟩
    rw [hat.queues_eq]
    exact deals_of_turn hturn hq

namespace Deals

variable {q q' : Queues (Task ω)} {l : Ledger (Task ω)} {new : List (Activity ω)} {id : FrameId}

/-- A deferred task that is taken out is the next to start. -/
theorem takenDeferred_tail (h : Deals q l a new q') : takenDeferred new.tail = [] := by
  cases h with
  | handOver hnew => exact takenDeferred_eq_nil fun b hb => hnew b (List.mem_of_mem_tail hb)
  | takeDeferred hq hl => rfl
  | @takeFrames next hl =>
    have hall : takenDeferred ((q.frames.map fun f => Activity.frame f.1 f.2) ++
        [.rest (next q.frames.length)]) = [] := by
      rw [takenDeferred_append, takenDeferred_map]
      rfl
    exact List.filterMap_eq_nil_iff.mpr fun b hb =>
      List.filterMap_eq_nil_iff.mp hall b (List.mem_of_mem_tail hb)

/-- What was deferred is still there or is taken out. -/
theorem deferred_eq (h : Deals q l a new q') (he : l.Entered q) :
    takenDeferred new ++ q'.deferred = q.deferred ++ l.deferred := by
  cases h with
  | handOver hnew =>
    rw [takenDeferred_eq_nil hnew, he.deferred_eq]
    rfl
  | takeDeferred hq hl =>
    rw [hq, hl]
    exact (List.append_nil _).symm
  | takeFrames hl =>
    rw [takenDeferred_append, takenDeferred_map, hl]
    exact (List.append_nil _).symm

/-- What was requested is still there, is taken out or was dropped. -/
theorem frames_perm (h : Deals q l a new q') (he : l.Entered q) :
    (takenFrames new ++ (l.dropped ++ q'.frames)).Perm (q.frames ++ l.requested) := by
  cases h with
  | handOver hnew =>
    rw [takenFrames_eq_nil hnew]
    exact he.frames_perm
  | takeDeferred hq hl =>
    rw [hl]
    show q.frames.Perm (q.frames ++ [])
    rw [List.append_nil]
  | takeFrames hl =>
    rw [takenFrames_append, takenFrames_map, hl]
    show (q.frames ++ [] ++ []).Perm (q.frames ++ [])
    rw [List.append_nil]

/-- Taking out does not count. -/
theorem counts (h : Deals q l a new q') :
    q'.tickets = l.queues.tickets ∧ q'.requests = l.queues.requests ∧
      q'.cancelled = l.queues.cancelled := by
  cases h with
  | handOver hnew => exact ⟨rfl, rfl, rfl⟩
  | takeDeferred hq hl => exact hl ▸ ⟨rfl, rfl, rfl⟩
  | takeFrames hl => exact hl ▸ ⟨rfl, rfl, rfl⟩

theorem numbered (h : Deals q l a new q') (he : l.Entered q) (hq : q.Numbered) :
    q'.Numbered := by
  cases h with
  | handOver hnew => exact he.numbered hq
  | takeDeferred hd hl =>
    have hnodup := hq.deferred_nodup
    rw [hd] at hnodup
    refine ⟨(List.nodup_cons.mp hnodup).2, ?_, hq.frames_nodup, hq.frames_lt⟩
    intro d' hd'
    exact hq.deferred_lt d' (hd ▸ List.mem_cons_of_mem _ hd')
  | takeFrames hl =>
    exact ⟨hq.deferred_nodup, hq.deferred_lt, List.nodup_nil, by simp⟩

/-- A name that is cancelled is gone, and nothing is taken out. -/
theorem gone_of_cancelled (h : Deals q l a new q') (he : l.Entered q) (hid : id ∈ l.cancelled)
    (hissued : id.serial < q.requests) : q'.Gone id ∧ takenFrames new = [] := by
  cases h with
  | handOver hnew => exact ⟨he.gone id hid hissued, takenFrames_eq_nil hnew⟩
  | takeDeferred hq hl => exact absurd (hl ▸ hid) List.not_mem_nil
  | takeFrames hl => exact absurd (hl ▸ hid) List.not_mem_nil

/-- A name that is gone stays so, and no frame of it is taken out. -/
theorem gone (h : Deals q l a new q') (he : l.Entered q) (hid : q.Gone id) :
    q'.Gone id ∧ ∀ f ∈ takenFrames new, f.1 ≠ id := by
  cases h with
  | handOver hnew =>
    refine ⟨he.gone_of_gone hid, ?_⟩
    rw [takenFrames_eq_nil hnew]
    simp
  | takeDeferred hq hl => exact ⟨⟨hid.issued, hid.absent⟩, by simp [takenFrames, Activity.frame?]⟩
  | takeFrames hl =>
    refine ⟨⟨hid.issued, by simp⟩, ?_⟩
    rw [takenFrames_append, takenFrames_map]
    intro f hf
    rcases List.mem_append.mp hf with hf | hf
    · exact hid.absent f hf
    · simp [takenFrames, Activity.frame?] at hf

end Deals

/-! ## §4. Trails -/

/-- What a session comes to, and the sessions on the way there from which a step was taken, first to
    last. Whatever a script does, the next one is started when nothing runs. -/
def Trail (start : Session ω) (ms : List (Session ω)) (m : Session ω) : Prop :=
  Passage run step (fun m _ => m.isResting = true) (fun _ => True) start ms m

variable {base : Session ω} {ms before after : List (Session ω)} {v : Session ω}

namespace Trail

theorem start : base.Trail [] base := Passage.start

theorem run (s : Script ω) (hrest : m.isResting = true) (h : base.Trail ms m) :
    base.Trail ms (m.run s) := Passage.run s hrest h

theorem step (h : base.Trail ms m) : base.Trail (ms ++ [m]) m.step := Passage.step h trivial

theorem iterate (h : base.Trail ms m) (k : Nat) :
    base.Trail (ms ++ (List.range k).map fun i => Session.step^[i] m) (Session.step^[k] m) :=
  Passage.iterate h k fun _ _ => trivial

/-- A trail through a session is one up to it and one from there on. -/
theorem split (h : base.Trail (before ++ v :: after) m) :
    base.Trail before v ∧ v.step.Trail after m := Passage.split h

/-- What holds at the start of a trail, and is kept by scripts and by steps. -/
@[induction_eliminator]
theorem induct {motive : ∀ ms m, base.Trail ms m → Prop} (start : motive [] base .start)
    (run : ∀ {ms : List (Session ω)} {m : Session ω} (s : Script ω) (hrest : m.isResting = true)
      (h : base.Trail ms m), motive ms m h → motive ms (m.run s) (h.run s hrest))
    (step : ∀ {ms : List (Session ω)} {m : Session ω} (h : base.Trail ms m),
      motive ms m h → motive (ms ++ [m]) m.step h.step)
    {ms : List (Session ω)} {m : Session ω} (h : base.Trail ms m) : motive ms m h := by
  refine Passage.rec (motive := motive) start ?_ ?_ h
  · intro ms m s hrest h ih
    exact run s hrest h ih
  · intro ms m h _ ih
    exact step h ih

end Trail

variable {start : Session ω}

/-- Names stay apart. -/
theorem Trail.numbered (h : start.Trail ms m) (hstart : start.queues.Numbered) :
    m.queues.Numbered := by
  induction h with
  | start => exact hstart
  | run s hrest h ih => exact ih
  | @step ms m h ih =>
    cases hm : m.agenda with
    | nil => rwa [step_eq_self_of_isResting (by rw [isResting, hm]; rfl)]
    | cons a as =>
      obtain ⟨new, hdeals, -⟩ := exists_deals ih hm
      exact hdeals.numbered (entered_ledger ih) ih

/-- The tasks that were deferred on a trail. -/
def deferrals (ms : List (Session ω)) : List (Ticket × Task ω) := ms.flatMap (·.ledger.deferred)

/-- The frames that were requested on a trail. -/
def requests (ms : List (Session ω)) : List (FrameId × Task ω) := ms.flatMap (·.ledger.requested)

/-- The frames that were dropped on a trail. -/
def drops (ms : List (Session ω)) : List (FrameId × Task ω) := ms.flatMap (·.ledger.dropped)

/-- What started on a trail, of the activities that `f` selects. -/
def started {α : Type} (f : Activity ω → Option α) (ms : List (Session ω)) : List α :=
  ms.filterMap fun m => m.agenda.head?.bind f

/-- The deferred tasks that started on a trail. -/
def startedDeferred (ms : List (Session ω)) : List (Ticket × Task ω) :=
  started Activity.deferred? ms

/-- The frames that started on a trail. -/
def startedFrames (ms : List (Session ω)) : List (FrameId × Task ω) := started Activity.frame? ms

/-- The last step adds what is read off it. -/
theorem flatMap_concat {α : Type} (f : Session ω → List α) (ms : List (Session ω))
    (m : Session ω) : (ms ++ [m]).flatMap f = ms.flatMap f ++ f m := by
  rw [List.flatMap_append, List.flatMap_singleton]

theorem deferrals_concat (ms : List (Session ω)) (m : Session ω) :
    deferrals (ms ++ [m]) = deferrals ms ++ m.ledger.deferred := flatMap_concat _ ms m

theorem requests_concat (ms : List (Session ω)) (m : Session ω) :
    requests (ms ++ [m]) = requests ms ++ m.ledger.requested := flatMap_concat _ ms m

theorem drops_concat (ms : List (Session ω)) (m : Session ω) :
    drops (ms ++ [m]) = drops ms ++ m.ledger.dropped := flatMap_concat _ ms m

/-- What starts comes off the agenda. -/
theorem started_concat {α : Type} (f : Activity ω → Option α) (ms : List (Session ω))
    (h : m.agenda = a :: as) :
    started f (ms ++ [m]) ++ as.filterMap f = started f ms ++ m.agenda.filterMap f := by
  rw [started, List.filterMap_append, List.append_assoc, h]
  refine congrArg (started f ms ++ ·) ?_
  show [m].filterMap _ ++ _ = List.filterMap f ([a] ++ as)
  rw [List.filterMap_append, List.filterMap_cons, List.filterMap_cons, h]
  rfl

/-- At rest nothing starts. -/
theorem started_concat_of_nil {α : Type} (f : Activity ω → Option α) (ms : List (Session ω))
    (h : m.agenda = []) : started f (ms ++ [m]) = started f ms := by
  rw [started, List.filterMap_append, List.filterMap_cons, h]
  exact List.append_nil _

theorem started_concat_tail {α : Type} (f : Activity ω → Option α) (ms : List (Session ω))
    (m : Session ω) :
    started f (ms ++ [m]) ++ m.agenda.tail.filterMap f = started f ms ++ m.agenda.filterMap f := by
  cases hm : m.agenda with
  | nil => rw [started_concat_of_nil f ms hm]; rfl
  | cons a as => rw [List.tail_cons, started_concat f ms hm, hm]

/-! ## §5. The books of a trail -/

/-- A session to start from: nothing runs, and the names in the queues are told apart. -/
structure Fresh (m : Session ω) : Prop where
  /-- Nothing runs. -/
  isResting : m.isResting = true
  /-- The names are told apart. -/
  numbered : m.queues.Numbered

/-- A view is mounted in it. -/
theorem Fresh.mount (h : m.Fresh) (o : MountOptions ω) (tree : LiveTree) :
    (m.mount o tree).Fresh := by
  refine ⟨h.isResting, ?_⟩
  show (o.mount tree m.queues).result.scheduler.Numbered
  rw [o.result_mount]
  have hmatched := matched_ledger h.numbered (o.bare tree)
  obtain ⟨hqueues, hentered⟩ := (hmatched.requestFrame (Ledger.Entered.alike m.queues)).scheduler
  exact hqueues ▸ hentered.numbered h.numbered

theorem fresh_initial (world : ω) : (initial world).Fresh := ⟨rfl, Queues.numbered_empty⟩

/-- The books of a trail are right. -/
structure Balanced (start : Session ω) (ms : List (Session ω)) (m : Session ω) : Prop where
  /-- The names in the queues are told apart. -/
  numbered : m.queues.Numbered
  /-- A deferred task that was taken out is the next to start. -/
  takenDeferred_tail : takenDeferred m.agenda.tail = []
  /-- Deferred tasks start in their order. -/
  deferred_eq : startedDeferred ms ++ (takenDeferred m.agenda ++ m.queues.deferred) =
    start.queues.deferred ++ deferrals ms
  /-- A frame has started, was taken out, was dropped or waits. -/
  frames_perm : (startedFrames ms ++ (takenFrames m.agenda ++ (drops ms ++ m.queues.frames))).Perm
    (start.queues.frames ++ requests ms)
  /-- Tickets are given out one after the other. -/
  tickets_eq : (deferrals ms).map (·.1.serial) =
    List.range' start.queues.tickets (deferrals ms).length
  /-- They are counted. -/
  tickets_count : m.queues.tickets = start.queues.tickets + (deferrals ms).length
  /-- Names of frames are given out one after the other. -/
  requests_eq : (requests ms).map (·.1.serial) =
    List.range' start.queues.requests (requests ms).length
  /-- They are counted. -/
  requests_count : m.queues.requests = start.queues.requests + (requests ms).length
  /-- Frames that are dropped are counted. -/
  cancelled_count : m.queues.cancelled = start.queues.cancelled + (drops ms).length

namespace Balanced

/-- No two frames of a trail have one name. -/
theorem frames_nodup (h : Balanced start ms m) (hstart : start.Fresh) :
    ((startedFrames ms ++ (takenFrames m.agenda ++ (drops ms ++ m.queues.frames))).map
      (·.1)).Nodup := by
  refine (h.frames_perm.map _).nodup_iff.mpr ?_
  rw [List.map_append]
  exact nodup_names_append FrameId.serial hstart.numbered.frames_nodup
    (fun f hf => hstart.numbered.frames_lt f hf) h.requests_eq

/-- No two deferred tasks of a trail have one ticket. -/
theorem deferred_nodup (h : Balanced start ms m) (hstart : start.Fresh) :
    ((startedDeferred ms ++ (takenDeferred m.agenda ++ m.queues.deferred)).map (·.1)).Nodup := by
  rw [h.deferred_eq, List.map_append]
  exact nodup_names_append Ticket.serial hstart.numbered.deferred_nodup
    (fun d hd => hstart.numbered.deferred_lt d hd) h.tickets_eq

theorem at_start (h : start.Fresh) : Balanced start [] start := by
  have hagenda : start.agenda = [] := List.isEmpty_iff.mp h.isResting
  exact {
    numbered := h.numbered
    takenDeferred_tail := by rw [hagenda]; rfl
    deferred_eq := by rw [hagenda]; exact (List.append_nil _).symm
    frames_perm := by
      rw [hagenda]
      show start.queues.frames.Perm (start.queues.frames ++ [])
      rw [List.append_nil]
    tickets_eq := rfl
    tickets_count := rfl
    requests_eq := rfl
    requests_count := rfl
    cancelled_count := rfl }

/-- A script that is started enters nothing. -/
theorem run (h : Balanced start ms m) (hrest : m.isResting = true) (s : Script ω) :
    Balanced start ms (m.run s) := by
  have hagenda : m.agenda = [] := List.isEmpty_iff.mp hrest
  exact { h with
    takenDeferred_tail := by
      show takenDeferred m.agenda = []
      rw [hagenda]
      rfl }

/-- A session at rest enters nothing. -/
theorem stay (h : Balanced start ms m) (hm : m.agenda = []) :
    Balanced start (ms ++ [m]) m.step := by
  have hself : m.step = m := step_eq_self_of_isResting (by rw [isResting, hm]; rfl)
  have hledger : m.ledger = .ofQueues m.queues := by rw [ledger, hm]
  have hdeferrals : deferrals (ms ++ [m]) = deferrals ms := by
    rw [deferrals_concat, hledger]; exact List.append_nil _
  have hrequests : requests (ms ++ [m]) = requests ms := by
    rw [requests_concat, hledger]; exact List.append_nil _
  have hdrops : drops (ms ++ [m]) = drops ms := by
    rw [drops_concat, hledger]; exact List.append_nil _
  rw [hself]
  exact {
    numbered := h.numbered
    takenDeferred_tail := h.takenDeferred_tail
    deferred_eq := by
      rw [startedDeferred, started_concat_of_nil _ ms hm, hdeferrals]
      exact h.deferred_eq
    frames_perm := by
      rw [startedFrames, started_concat_of_nil _ ms hm, hdrops, hrequests]
      exact h.frames_perm
    tickets_eq := by rw [hdeferrals]; exact h.tickets_eq
    tickets_count := by rw [hdeferrals]; exact h.tickets_count
    requests_eq := by rw [hrequests]; exact h.requests_eq
    requests_count := by rw [hrequests]; exact h.requests_count
    cancelled_count := by rw [hdrops]; exact h.cancelled_count }

/-- A step enters what its ledger says. -/
theorem deal (h : Balanced start ms m) (hm : m.agenda = a :: as) {new : List (Activity ω)}
    (hdeals : Deals m.queues m.ledger a new m.step.queues) (hnew : m.step.agenda = new ++ as) :
    Balanced start (ms ++ [m]) m.step := by
  have he := entered_ledger h.numbered
  obtain ⟨htickets, hrequests, hcancelled⟩ := hdeals.counts
  -- Only the activity that takes this step can be a deferred task that was taken out, so the
  -- order of deferred tasks is not disturbed by what is behind it.
  have hbehind : takenDeferred as = [] := by
    have htail := h.takenDeferred_tail
    rwa [hm] at htail
  exact {
    numbered := hdeals.numbered he h.numbered
    takenDeferred_tail := by
      rw [hnew]
      cases new with
      | nil =>
        exact List.filterMap_eq_nil_iff.mpr fun b hb =>
          List.filterMap_eq_nil_iff.mp hbehind b (List.mem_of_mem_tail hb)
      | cons b bs =>
        show takenDeferred (bs ++ as) = []
        rw [takenDeferred_append, hbehind, List.append_nil]
        exact hdeals.takenDeferred_tail
    deferred_eq := by
      have hstarted : startedDeferred (ms ++ [m]) ++ takenDeferred as =
          startedDeferred ms ++ takenDeferred m.agenda := started_concat _ ms hm
      rw [hbehind, List.append_nil] at hstarted
      rw [hnew, takenDeferred_append, hbehind, List.append_nil, hdeals.deferred_eq he, hstarted,
        deferrals_concat, ← List.append_assoc (start.queues.deferred), ← h.deferred_eq]
      simp only [List.append_assoc]
    frames_perm := by
      have hstarted : startedFrames (ms ++ [m]) ++ takenFrames as =
          startedFrames ms ++ takenFrames m.agenda := started_concat _ ms hm
      have hdealt := hdeals.frames_perm he
      have hbefore := h.frames_perm
      rw [hnew, takenFrames_append, drops_concat, requests_concat]
      -- What started and was taken out before, then what the step deals with.
      calc startedFrames (ms ++ [m]) ++ (takenFrames new ++ takenFrames as ++
              (drops ms ++ m.ledger.dropped ++ m.step.queues.frames))
        _ |>.Perm ((startedFrames (ms ++ [m]) ++ takenFrames as) ++
              (drops ms ++ (takenFrames new ++ (m.ledger.dropped ++ m.step.queues.frames)))) := by
          refine Multiset.coe_eq_coe.mp ?_
          simp only [← Multiset.coe_add]
          ac_rfl
        _ |>.Perm ((startedFrames ms ++ takenFrames m.agenda) ++
              (drops ms ++ (m.queues.frames ++ m.ledger.requested))) := by
          rw [hstarted]
          exact (hdealt.append_left _).append_left _
        _ |>.Perm (start.queues.frames ++ (requests ms ++ m.ledger.requested)) := by
          simpa only [List.append_assoc] using hbefore.append_right m.ledger.requested
    tickets_eq := by
      rw [deferrals_concat, List.map_append, h.tickets_eq, he.tickets_eq, h.tickets_count,
        List.length_append]
      exact List.range'_append_1
    tickets_count := by
      rw [htickets, he.tickets_count, h.tickets_count, deferrals_concat, List.length_append,
        Nat.add_assoc]
    requests_eq := by
      rw [requests_concat, List.map_append, h.requests_eq, he.requests_eq, h.requests_count,
        List.length_append]
      exact List.range'_append_1
    requests_count := by
      rw [hrequests, he.requests_count, h.requests_count, requests_concat, List.length_append,
        Nat.add_assoc]
    cancelled_count := by
      rw [hcancelled, he.cancelled_count, h.cancelled_count, drops_concat, List.length_append,
        Nat.add_assoc] }

end Balanced

/-- **The books of a trail** are right. -/
theorem Trail.balanced (h : start.Trail ms m) (hstart : start.Fresh) : Balanced start ms m := by
  induction h with
  | start => exact .at_start hstart
  | run s hrest h ih => exact ih.run hrest s
  | @step ms m h ih =>
    cases hm : m.agenda with
    | nil => exact ih.stay hm
    | cons a as =>
      obtain ⟨new, hdeals, hnew⟩ := exists_deals ih.numbered hm
      exact ih.deal hm hdeals hnew

end Session

end ReactiveView
