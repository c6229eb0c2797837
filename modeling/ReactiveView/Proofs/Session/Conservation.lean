import ReactiveView.Proofs.Session.Trail

/-! # Nothing that is put off is lost or done twice

  A script that runs the deferred tasks or the frames takes them out of the
  queues and puts them on the agenda, in front of what follows in the script.
  Tasks do the same, to any depth. While none of these runs is under way, the
  queues and the trail account for everything: `work_conserved`.

  * `Underway`: something that a run took out is not over.
  * `Trail.under_run`: what was taken out and did not start belongs to a run
    that is under way.
  * `Trail.over_or_above`: the agenda is a stack. Until an activity is over,
    what was behind it stays behind what it started.
-/

namespace ReactiveView

variable {ω : Type}

/-- Whether the next step of a script takes tasks out of the queues. -/
def Script.isRun : Script ω → Bool
  | runDeferred _ _ => true
  | runFrame _ => true
  | _ => false

namespace Session

variable {start m v : Session ω} {ms before after : List (Session ω)} {a b : Activity ω}
  {as new front behind : List (Activity ω)} {q q' : Queues (Task ω)} {l : Ledger (Task ω)}

/-! ## §1. Runs -/

/-- A run of tasks is under way: a script took tasks out, and since then there was more to do than
    what follows in the script. -/
def Underway (ms : List (Session ω)) (m : Session ω) : Prop :=
  ∃ before v after s as, ms = before ++ v :: after ∧ v.agenda = .rest s :: as ∧ s.isRun = true ∧
    ∀ x ∈ after ++ [m], v.agenda.length < x.agenda.length

/-- At rest no run is under way. -/
theorem not_underway_of_isResting (hrest : m.isResting = true) : ¬ Underway ms m := by
  rintro ⟨before, v, after, s, as, -, hv, -, hlonger⟩
  have hlt := hlonger m (by simp)
  have hagenda : m.agenda = [] := List.isEmpty_iff.mp hrest
  rw [hagenda] at hlt
  exact Nat.not_lt_zero _ hlt

/-- A task that is taken out is taken out by a run, and has something behind it. -/
theorem Deals.isRun (h : Deals q l a new q') (hb : b.waiting? ≠ none)
    (hnew : new = front ++ b :: behind) : (∃ s, a = .rest s ∧ s.isRun = true) ∧ behind ≠ [] := by
  -- The last activity that a run puts on the agenda goes on with the script.
  have hlast : ∀ (due : List (Activity ω)) {s : Script ω},
      due ++ [.rest s] = front ++ b :: behind → behind ≠ [] := by
    rintro due s hdue rfl
    obtain ⟨-, hlast⟩ := List.append_inj' hdue rfl
    obtain rfl := List.singleton_inj.mp hlast
    exact hb rfl
  cases h with
  | handOver hwaiting => exact absurd (hwaiting b (by rw [hnew]; simp)) hb
  | takeDeferred hq hl => exact ⟨⟨_, rfl, rfl⟩, hlast [_] hnew⟩
  | takeFrames hl => exact ⟨⟨_, rfl, rfl⟩, hlast _ hnew⟩

/-- **What was taken out and did not start** belongs to a run that is under way. -/
theorem Trail.under_run (h : start.Trail ms m) (hstart : start.Fresh)
    (hm : m.agenda = front ++ a :: as) (ha : a.waiting? ≠ none) :
    ∃ before v after s bs, ms = before ++ v :: after ∧ v.agenda = .rest s :: bs ∧
      s.isRun = true ∧ v.agenda.length ≤ as.length ∧
      ∀ x ∈ after ++ [m], v.agenda.length < x.agenda.length := by
  -- What is in front changes from step to step, and what is behind stays.
  induction h generalizing front with
  | start =>
    have hagenda : start.agenda = [] := List.isEmpty_iff.mp hstart.isResting
    simp [hagenda] at hm
  | @run ms m s hrest h ih =>
    have hagenda : m.agenda = [] := List.isEmpty_iff.mp hrest
    have hmem : a ∈ Activity.rest s :: m.agenda := by
      rw [show Activity.rest s :: m.agenda = _ from hm]
      simp
    rw [hagenda] at hmem
    obtain rfl := List.mem_singleton.mp hmem
    exact absurd rfl ha
  | @step ms m h ih =>
    -- It was on the agenda before, or this step takes it out.
    have hold : ∀ front : List (Activity ω), m.agenda = front ++ a :: as →
        ∃ before v after s bs, ms ++ [m] = before ++ v :: after ∧ v.agenda = .rest s :: bs ∧
          s.isRun = true ∧ v.agenda.length ≤ as.length ∧
          ∀ x ∈ after ++ [m.step], v.agenda.length < x.agenda.length := by
      intro front hfront
      obtain ⟨before, v, after, s, bs, rfl, hv, hs, hle, hlonger⟩ := ih hfront
      refine ⟨before, v, after ++ [m], s, bs, by simp, hv, hs, hle, ?_⟩
      intro x hx
      rcases List.mem_append.mp hx with hx | hx
      · exact hlonger x hx
      · obtain rfl := List.mem_singleton.mp hx
        rw [hm, List.length_append, List.length_cons]
        omega
    cases hagenda : m.agenda with
    | nil =>
      rw [step_eq_self_of_isResting (by rw [isResting, hagenda]; rfl), hagenda] at hm
      simp at hm
    | cons b bs =>
      obtain ⟨new, hdeals, hnew⟩ := exists_deals (h.balanced hstart).numbered hagenda
      rcases split_append_cons (hnew.symm.trans hm) with ⟨front', hbs⟩ | ⟨behind, hnew', has⟩
      · exact hold (b :: front') (by rw [hagenda, hbs]; rfl)
      · -- This step is a run, and goes on with its script behind what it takes out.
        have hlength : as.length = behind.length + bs.length := by
          rw [has, List.length_append]
        obtain ⟨⟨s, rfl, hs⟩, hbehind⟩ := hdeals.isRun ha hnew'
        have hpos := List.length_pos_iff.mpr hbehind
        refine ⟨ms, m, [], s, bs, rfl, hagenda, hs, ?_, ?_⟩
        · rw [hagenda, List.length_cons]
          omega
        · intro x hx
          obtain rfl := List.mem_singleton.mp hx
          rw [hm, hagenda, List.length_append, List.length_cons, List.length_cons]
          omega

/-- Nothing is on the agenda that was taken out, unless a run is under way. -/
theorem Trail.waiting?_of_not_underway (h : start.Trail ms m) (hstart : start.Fresh)
    (hidle : ¬ Underway ms m) : ∀ a ∈ m.agenda, a.waiting? = none := by
  intro a ha
  by_contra hwaiting
  obtain ⟨front, as, hm⟩ := List.append_of_mem ha
  obtain ⟨before, v, after, s, bs, hms, hv, hs, -, hlonger⟩ := h.under_run hstart hm hwaiting
  exact hidle ⟨before, v, after, s, bs, hms, hv, hs, hlonger⟩

/-! ## §2. What starts is over before what is behind it -/

/-- Something is to be done before what is behind. -/
def Above (behind : List (Activity ω)) (m : Session ω) : Prop :=
  ∃ a as, m.agenda = a :: (as ++ behind)

/-- What an activity starts goes in front of what is behind it. -/
theorem Above.step (h : m.Above behind) (hnumbered : m.queues.Numbered) :
    m.step.agenda = behind ∨ m.step.Above behind := by
  obtain ⟨a, as, hm⟩ := h
  obtain ⟨new, -, hnew⟩ := exists_deals hnumbered hm
  rw [← List.append_assoc] at hnew
  cases hfront : new ++ as with
  | nil =>
    rw [hfront] at hnew
    exact .inl hnew
  | cons b bs =>
    rw [hfront] at hnew
    exact .inr ⟨b, bs, hnew⟩

/-- **The agenda is a stack.** From when an activity starts, there is something to be done before
    what was behind it, until this is all there is to do. -/
theorem Trail.over_or_above (h : v.step.Trail after m) (hnumbered : v.queues.Numbered)
    (hv : v.agenda = a :: as) (has : as ≠ []) :
    (∃ x ∈ after ++ [m], x.agenda = as) ∨ ∀ x ∈ after ++ [m], x.Above as := by
  induction h with
  | start =>
    have hv : v.Above as := ⟨a, [], hv⟩
    simpa using hv.step hnumbered
  | @run ms m s hrest h ih =>
    -- While something is to be done, no script is started.
    have hagenda : m.agenda = [] := List.isEmpty_iff.mp hrest
    rcases ih with ⟨x, hx, hover⟩ | habove
    · rcases List.mem_append.mp hx with hx | hx
      · exact .inl ⟨x, List.mem_append_left _ hx, hover⟩
      · obtain rfl := List.mem_singleton.mp hx
        exact absurd (hover.symm.trans hagenda) has
    · obtain ⟨b, bs, hm⟩ := habove m (by simp)
      exact absurd (hm.symm.trans hagenda) (List.cons_ne_nil _ _)
  | @step ms m h ih =>
    rcases ih with ⟨x, hx, hover⟩ | habove
    · exact .inl ⟨x, List.mem_append_left _ hx, hover⟩
    · have hnumbered' : m.queues.Numbered := h.numbered (Trail.start.step.numbered hnumbered)
      rcases (habove m (by simp)).step hnumbered' with hover | habove'
      · exact .inl ⟨m.step, by simp, hover⟩
      · refine .inr fun x hx => ?_
        rcases List.mem_append.mp hx with hx | hx
        · exact habove x hx
        · obtain rfl := List.mem_singleton.mp hx
          exact habove'

/-- A task that started is over, unless a run is under way. -/
theorem Trail.over_of_not_underway (h : start.Trail (before ++ v :: after) m)
    (hstart : start.Fresh) (hidle : ¬ Underway (before ++ v :: after) m) (hv : v.agenda = a :: as)
    (ha : a.waiting? ≠ none) : ∃ x ∈ after ++ [m], x.agenda = as := by
  obtain ⟨hbefore, hafter⟩ := h.split
  have hfront : v.agenda = [] ++ a :: as := hv
  obtain ⟨before', w, after', s, bs, rfl, hw, hs, hle, hlonger⟩ :=
    hbefore.under_run hstart hfront ha
  have has : as ≠ [] := by
    rintro rfl
    rw [hw] at hle
    simp at hle
  rcases hafter.over_or_above (hbefore.numbered hstart.numbered) hv has with hover | habove
  · exact hover
  · -- Otherwise the run that took the task out is under way.
    refine absurd ⟨before', w, after' ++ v :: after, s, bs, by simp, hw, hs, ?_⟩ hidle
    intro x hx
    rw [List.append_assoc, List.cons_append, List.append_cons] at hx
    rcases List.mem_append.mp hx with hx | hx
    · exact hlonger x hx
    · obtain ⟨b, front, hx⟩ := habove x hx
      rw [hx, List.length_cons, List.length_append]
      omega

/-! ## §3. Conservation -/

/-- **Nothing that is put off is lost or done twice**, whatever scripts do, to any depth, and with
    or without a renderer. While no run of tasks is under way:

    * the deferred tasks have started in the order in which they were deferred, and those that have
      not started are in the queue;
    * each frame that was requested has started, was dropped by a cancellation, or is in the queue,
      and it is only one of these, and only once;
    * the frames that were dropped are counted;
    * each task that has started is over.

    What was in the queues at the start counts as put off first. -/
theorem work_conserved (hstart : start.Fresh) (h : start.Trail ms m) (hidle : ¬ Underway ms m) :
    startedDeferred ms ++ m.queues.deferred = start.queues.deferred ++ deferrals ms ∧
      ((startedDeferred ms ++ m.queues.deferred).map (·.1)).Nodup ∧
      (startedFrames ms ++ drops ms ++ m.queues.frames).Perm
        (start.queues.frames ++ requests ms) ∧
      ((startedFrames ms ++ drops ms ++ m.queues.frames).map (·.1)).Nodup ∧
      m.queues.cancelled = start.queues.cancelled + (drops ms).length ∧
      ∀ before v after a as, ms = before ++ v :: after → v.agenda = a :: as → a.waiting? ≠ none →
        ∃ x ∈ after ++ [m], x.agenda = as := by
  have hbalanced := h.balanced hstart
  have hnone := h.waiting?_of_not_underway hstart hidle
  have hdeferred : takenDeferred m.agenda = [] := takenDeferred_eq_nil hnone
  have hframes : takenFrames m.agenda = [] := takenFrames_eq_nil hnone
  have horder := hbalanced.deferred_eq
  have hperm := hbalanced.frames_perm
  have htickets := hbalanced.deferred_nodup hstart
  have hnames := hbalanced.frames_nodup hstart
  rw [hdeferred, List.nil_append] at horder htickets
  rw [hframes, List.nil_append, ← List.append_assoc] at hperm hnames
  refine ⟨horder, htickets, hperm, hnames, hbalanced.cancelled_count, ?_⟩
  rintro before v after a as rfl hv ha
  exact h.over_of_not_underway hstart hidle hv ha

/-- A deferred task runs the frames, and then defers a task that the same run comes to. A frame was
    cancelled before. -/
theorem work_conserved_nested :
    ∃ ms m, (initial ()).Fresh ∧ (initial ()).Trail ms m ∧ ¬ Underway ms m ∧
      (startedDeferred ms).map (·.1) = [⟨0⟩, ⟨1⟩] ∧ (startedFrames ms).map (·.1) = [⟨0⟩] ∧
      (drops ms).map (·.1) = [⟨1⟩] ∧ m.queues.cancelled = 1 ∧
      startedDeferred ms ++ m.queues.deferred = (initial ()).queues.deferred ++ deferrals ms ∧
      (startedFrames ms ++ drops ms ++ m.queues.frames).Perm
        ((initial ()).queues.frames ++ requests ms) := by
  have hstart : (initial ()).Trail [] _ := .start
  have hm := (hstart.run (.defer (.runFrame fun _ => .defer .done .done) <|
    .requestFrame .done fun _ => .requestFrame .done fun other => .cancelFrame other <|
    .runDeferred 0 fun _ => .done) rfl).iterate 16
  obtain ⟨horder, -, hperm, -⟩ :=
    work_conserved (fresh_initial ()) hm (not_underway_of_isResting (by decide))
  exact ⟨_, _, fresh_initial (), hm, not_underway_of_isResting (by decide), by decide, by decide,
    by decide, by decide, horder, hperm⟩

end Session

end ReactiveView
