import ReactiveView.Proofs.Scheduling.Calls

/-! # Queues in lockstep with the renderer

  A renderer that hands its callbacks to the queues of `Queues`, where cancelling
  never fails, can tell at any time which of them are there: the end of the batch
  while one is pending, and the frame whose name it keeps (`awaited`).

  While callbacks run, some have been taken out of the queues and not started yet.
  So the invariant (`Lockstep`) is about both places:

  * what the renderer awaits is what it has in the queues, together with a
    missing part that was taken out;
  * what else was taken out are frames of earlier generations, which will do
    nothing.

  Where nothing has been taken out, the queues hold just what is awaited
  (`Lockstep.holdsAwaited`).
-/

namespace ReactiveView

variable {ω : Type}

/-! ## §1. What is awaited -/

namespace Renderer

/-- The end of the batch, if one is pending. -/
def awaitedEnd (r : Renderer ω) : Multiset (Waiting (Task ω)) :=
  if r.batchPending then {.deferred .closeBatch} else 0

/-- The frame that is waiting, if there is one. -/
def awaitedFrame (r : Renderer ω) : Multiset (Waiting (Task ω)) :=
  match r.frame with
  | some id => {.frame id (.frame r.generation)}
  | none => 0

/-- The callbacks that a renderer awaits. -/
def awaited (r : Renderer ω) : Multiset (Waiting (Task ω)) := r.awaitedEnd + r.awaitedFrame

variable {r r' : Renderer ω} {w : Waiting (Task ω)}

theorem plan_eq_iff : r'.plan = r.plan ↔
    r'.batchPending = r.batchPending ∧ r'.frame = r.frame ∧ r'.generation = r.generation := by
  simp [plan]

theorem awaited_of_plan_eq (h : r'.plan = r.plan) : r'.awaited = r.awaited := by
  obtain ⟨hbatch, hframe, hgen⟩ := plan_eq_iff.mp h
  rw [awaited, awaited, awaitedEnd, awaitedEnd, awaitedFrame, awaitedFrame, hbatch, hframe, hgen]

theorem mem_awaitedEnd_iff :
    w ∈ r.awaitedEnd ↔ r.batchPending = true ∧ w = .deferred .closeBatch := by
  unfold awaitedEnd
  split
  · next h => simp [h]
  · next h => simp [h]

theorem mem_awaitedFrame_iff :
    w ∈ r.awaitedFrame ↔ ∃ id, r.frame = some id ∧ w = .frame id (.frame r.generation) := by
  unfold awaitedFrame
  cases r.frame with
  | none => simp
  | some id => simp

/-- The end of a batch is awaited or the current frame is, and nothing else. -/
theorem mem_awaited_iff : w ∈ r.awaited ↔
    (r.batchPending = true ∧ w = .deferred .closeBatch) ∨
      ∃ id, r.frame = some id ∧ w = .frame id (.frame r.generation) := by
  rw [awaited, Multiset.mem_add, mem_awaitedEnd_iff, mem_awaitedFrame_iff]

end Renderer

/-! ## §2. The renderer's own callbacks in the queues -/

/-- Whether a callback is a frame of a name. -/
def Waiting.isNamed {τ : Type} (id : FrameId) : Waiting τ → Bool
  | frame id' _ => id' = id
  | deferred _ => false

/-- Whether a callback is a deferred task. -/
def Waiting.isDeferred {τ : Type} : Waiting τ → Bool
  | deferred _ => true
  | frame _ _ => false

theorem Waiting.isDeferred_of_mem_map {τ : Type} (ts : List τ) :
    ∀ w ∈ (ts.map deferred : Multiset (Waiting τ)), w.isDeferred = true := by
  intro w hw
  obtain ⟨t, -, rfl⟩ := List.mem_map.mp (Multiset.mem_coe.mp hw)
  rfl

theorem Waiting.isDeferred_of_mem_map_frame {τ : Type} (fs : List (FrameId × τ)) :
    ∀ w ∈ (fs.map (fun f => frame f.1 f.2) : Multiset (Waiting τ)), w.isDeferred = false := by
  intro w hw
  obtain ⟨f, -, rfl⟩ := List.mem_map.mp (Multiset.mem_coe.mp hw)
  rfl

/-- Deferred tasks and frames are told apart by their form. -/
theorem Waiting.eq_of_add_eq_add {τ : Type} {ds ds' fs fs' : Multiset (Waiting τ)}
    (hds : ∀ w ∈ ds, w.isDeferred = true) (hds' : ∀ w ∈ ds', w.isDeferred = true)
    (hfs : ∀ w ∈ fs, w.isDeferred = false) (hfs' : ∀ w ∈ fs', w.isDeferred = false)
    (h : ds + fs = ds' + fs') : ds = ds' ∧ fs = fs' := by
  have hpart : ∀ {ds fs : Multiset (Waiting τ)}, (∀ w ∈ ds, w.isDeferred = true) →
      (∀ w ∈ fs, w.isDeferred = false) → (ds + fs).filter (fun w => w.isDeferred = true) = ds := by
    intro ds fs hds hfs
    have hnone : fs.filter (fun w => w.isDeferred = true) = 0 :=
      Multiset.filter_eq_nil.mpr fun w hw => by simp [hfs w hw]
    rw [Multiset.filter_add, Multiset.filter_eq_self.mpr hds, hnone, Multiset.add_zero]
  have heq : ds = ds' := by rw [← hpart hds hfs, h, hpart hds' hfs']
  refine ⟨heq, ?_⟩
  rw [heq] at h
  exact Multiset.add_right_inj.mp h

namespace Queues

variable {q : Queues (Task ω)} {t : Task ω}

/-- The renderer's own callbacks in the queues. -/
def own (q : Queues (Task ω)) : Multiset (Waiting (Task ω)) := ownCallbacks q.waiting

theorem own_of_perm {q' : Queues (Task ω)} {ws : List (Waiting (Task ω))}
    (h : q.waiting.Perm (ws ++ q'.waiting)) : q.own = ownCallbacks ws + q'.own := by
  rw [own, own, Multiset.coe_eq_coe.mpr h, ← Multiset.coe_add, ownCallbacks_add]

theorem own_eq_cons {w : Waiting (Task ω)} {q' : Queues (Task ω)}
    (h : q'.waiting.Perm (w :: q.waiting)) (hw : w.task.isOwn = true) : q'.own = w ::ₘ q.own := by
  rw [own, Multiset.coe_eq_coe.mpr h, ← Multiset.cons_coe]
  exact Multiset.filter_cons_of_pos (p := fun w : Waiting (Task ω) => w.task.isOwn = true) _ hw

theorem own_eq_of_foreign {w : Waiting (Task ω)} {q' : Queues (Task ω)}
    (h : q'.waiting.Perm (w :: q.waiting)) (hw : w.task.isOwn = false) : q'.own = q.own := by
  rw [own, Multiset.coe_eq_coe.mpr h, ← Multiset.cons_coe, ownCallbacks,
    Multiset.filter_cons_of_neg _ (by simp [hw])]
  rfl

/-- Cancelling leaves all frames of other names. -/
theorem own_cancelFrame (q : Queues (Task ω)) (id : FrameId) :
    (q.cancelFrame id).own = q.own.filter fun w => ¬ w.isNamed id = true := by
  have hwaiting : (q.cancelFrame id).waiting = q.waiting.filter fun w => ¬ w.isNamed id = true := by
    rw [waiting, waiting, deferred_cancelFrame, frames_cancelFrame, List.filter_append,
      List.filter_map, List.filter_map]
    congr 1
    · rw [List.filter_eq_self.mpr]
      intro d _
      rfl
    · congr 1
      refine List.filter_congr ?_
      intro f _
      simp [Waiting.isNamed]
  rw [own, own, hwaiting, ownCallbacks, ownCallbacks, ← Multiset.filter_coe,
    Multiset.filter_comm]

/-- The deferred ones come first. -/
theorem own_eq (q : Queues (Task ω)) :
    q.own = (((q.deferred.map Prod.snd).filter Task.isOwn).map Waiting.deferred :
        List (Waiting (Task ω))) +
      ((q.frames.filter (·.2.isOwn)).map fun f => Waiting.frame f.1 f.2 :
        List (Waiting (Task ω))) := by
  rw [own, ownCallbacks, Multiset.filter_coe, waiting, List.filter_append, List.filter_map,
    List.filter_map, List.filter_map, List.map_map, Multiset.coe_add]
  simp only [Bool.decide_eq_true]
  rfl

end Queues

/-! ## §3. The invariant -/

/-- Whether a callback is a frame of an earlier generation. -/
def Waiting.Stale (generation : Nat) (w : Waiting (Task ω)) : Prop :=
  ∃ id g, w = .frame id (.frame g) ∧ g < generation

theorem Waiting.Stale.mono {w : Waiting (Task ω)} {g g' : Nat} (h : w.Stale g) (hg : g ≤ g') :
    w.Stale g' := by
  obtain ⟨id, g₀, rfl, hlt⟩ := h
  exact ⟨id, g₀, rfl, Nat.lt_of_lt_of_le hlt hg⟩

namespace Renderer

variable {r : Renderer ω} {id : FrameId}

/-- Of what is awaited only the frame has its name. -/
theorem awaited_not_named (hframe : r.frame = some id) :
    r.awaited.filter (fun w => ¬ w.isNamed id = true) = r.awaitedEnd := by
  have hend : r.awaitedEnd.filter (fun w => ¬ w.isNamed id = true) = r.awaitedEnd := by
    rw [Multiset.filter_eq_self]
    intro w hw
    obtain ⟨-, rfl⟩ := mem_awaitedEnd_iff.mp hw
    simp [Waiting.isNamed]
  rw [awaited, Multiset.filter_add, hend, awaitedFrame, hframe, Multiset.filter_singleton,
    if_neg (by simp [Waiting.isNamed])]
  exact Multiset.add_zero _

/-- A frame that is awaited is stale with the next generation. -/
theorem stale_of_named {w : Waiting (Task ω)} (hw : w ∈ r.awaited) (hnamed : w.isNamed id = true) :
    w.Stale (r.generation + 1) := by
  rcases mem_awaited_iff.mp hw with ⟨-, rfl⟩ | ⟨id', -, rfl⟩
  · cases hnamed
  · exact ⟨id', _, rfl, Nat.lt_succ_self _⟩

end Renderer

/-- What is awaited is in the queues but for what was taken out of them, and what else was taken
    out is stale. -/
def Lockstep (p : Site (Queues (Task ω)) ω) (taken : Multiset (Waiting (Task ω))) : Prop :=
  ∃ missing stale, p.renderer.awaited = p.scheduler.own + missing ∧
    ownCallbacks taken = missing + stale ∧ ∀ w ∈ stale, w.Stale p.renderer.generation

/-- The queues hold of the renderer's own callbacks just those that it awaits: the end of the batch
    if one is pending, and the frame that it waits for if there is one. -/
structure HoldsAwaited (r : Renderer ω) (q : Queues (Task ω)) : Prop where
  /-- The end of the batch. -/
  deferred_eq : (q.deferred.map Prod.snd).filter Task.isOwn =
    if r.batchPending then [.closeBatch] else []
  /-- The frame, under its name and of the current generation. -/
  frames_eq : q.frames.filter (·.2.isOwn) = r.frame.toList.map fun id => (id, .frame r.generation)

namespace HoldsAwaited

variable {r : Renderer ω} {q : Queues (Task ω)}

theorem batchPending_eq_false (h : HoldsAwaited r q) (hnone : q.deferred = []) :
    r.batchPending = false := by
  have hdeferred := h.deferred_eq
  rw [hnone] at hdeferred
  cases hbatch : r.batchPending with
  | false => rfl
  | true =>
    rw [hbatch] at hdeferred
    cases hdeferred

theorem frame_eq_none (h : HoldsAwaited r q) (hnone : q.frames = []) : r.frame = none := by
  have hframes := h.frames_eq
  rw [hnone] at hframes
  cases hframe : r.frame with
  | none => rfl
  | some id =>
    rw [hframe] at hframes
    cases hframes

end HoldsAwaited

namespace Lockstep

variable {p : Site (Queues (Task ω)) ω} {taken : Multiset (Waiting (Task ω))}
  {w : Waiting (Task ω)}

theorem of_plan_eq (h : Lockstep p taken) {r : Renderer ω} (hr : r.plan = p.renderer.plan) :
    Lockstep ⟨r, p.scheduler⟩ taken := by
  obtain ⟨missing, stale, hqueued, htaken, hstale⟩ := h
  obtain ⟨-, -, hgen⟩ := Renderer.plan_eq_iff.mp hr
  refine ⟨missing, stale, ?_, htaken, ?_⟩
  · exact (Renderer.awaited_of_plan_eq hr).trans hqueued
  · intro w hw
    show w.Stale r.generation
    rw [hgen]
    exact hstale w hw

/-- Only the renderer's own callbacks matter. -/
theorem of_own_eq (h : Lockstep p taken) {q : Queues (Task ω)} (hq : q.own = p.scheduler.own) :
    Lockstep ⟨p.renderer, q⟩ taken := by
  obtain ⟨missing, stale, hqueued, htaken, hstale⟩ := h
  exact ⟨missing, stale, by rw [hq]; exact hqueued, htaken, hstale⟩

/-- What the renderer has in the queues is awaited. -/
theorem mem_awaited (h : Lockstep p taken) (hw : w ∈ p.scheduler.own) : w ∈ p.renderer.awaited := by
  obtain ⟨missing, stale, hqueued, -, -⟩ := h
  rw [hqueued]
  exact Multiset.mem_add.mpr (.inl hw)

/-- What was taken out is awaited or stale. -/
theorem awaited_or_stale (h : Lockstep p taken) (hw : w ∈ taken) (hown : w.task.isOwn = true) :
    w ∈ p.renderer.awaited ∨ w.Stale p.renderer.generation := by
  obtain ⟨missing, stale, hqueued, htaken, hstale⟩ := h
  have hmem : w ∈ ownCallbacks taken := Multiset.mem_filter.mpr ⟨hw, hown⟩
  rw [htaken] at hmem
  rcases Multiset.mem_add.mp hmem with hmem | hmem
  · rw [hqueued]
    exact .inl (Multiset.mem_add.mpr (.inr hmem))
  · exact .inr (hstale w hmem)

/-- A frame that was taken out is the one that the renderer waits for, or it is stale. -/
theorem current_or_stale {id : FrameId} {t : Task ω} (h : Lockstep p taken)
    (hw : .frame id t ∈ taken) (hown : t.isOwn = true) :
    (p.renderer.frame = some id ∧ t = .frame p.renderer.generation) ∨
      ∃ g, t = .frame g ∧ g < p.renderer.generation := by
  rcases h.awaited_or_stale hw hown with hmem | ⟨id', g, heq, hlt⟩
  · rcases Renderer.mem_awaited_iff.mp hmem with ⟨-, heq⟩ | ⟨id', hframe, heq⟩
    · cases heq
    · obtain ⟨rfl, htask⟩ := Waiting.frame.inj heq
      exact .inl ⟨hframe, htask⟩
  · exact .inr ⟨g, (Waiting.frame.inj heq).2, hlt⟩

/-! ## §4. Steps of the embedder -/

/-- Callbacks are taken out of the queues. -/
theorem takeOut (h : Lockstep p taken) {q : Queues (Task ω)} {ws : List (Waiting (Task ω))}
    (hq : p.scheduler.waiting.Perm (ws ++ q.waiting)) :
    Lockstep ⟨p.renderer, q⟩ (ws + taken) := by
  obtain ⟨missing, stale, hqueued, htaken, hstale⟩ := h
  refine ⟨ownCallbacks ws + missing, stale, ?_, ?_, hstale⟩
  · show p.renderer.awaited = q.own + (ownCallbacks ws + missing)
    rw [hqueued, Queues.own_of_perm hq, Multiset.add_comm (ownCallbacks _) q.own,
      Multiset.add_assoc]
  · rw [ownCallbacks_add, htaken, Multiset.add_assoc]

/-- The embedder cancels a frame that is not the renderer's. -/
theorem cancelFrame (h : Lockstep p taken) {id : FrameId} (hid : p.renderer.frame ≠ some id) :
    Lockstep ⟨p.renderer, p.scheduler.cancelFrame id⟩ taken := by
  refine h.of_own_eq ?_
  rw [Queues.own_cancelFrame, Multiset.filter_eq_self]
  intro w hw
  rcases Renderer.mem_awaited_iff.mp (h.mem_awaited hw) with ⟨-, rfl⟩ | ⟨id', hframe, rfl⟩
  · simp [Waiting.isNamed]
  · have hne : id' ≠ id := by
      rintro rfl
      exact hid hframe
    simp [Waiting.isNamed, hne]

/-! ## §5. Steps of the renderer -/

/-- The frame that is awaited is dropped, or it was taken out and is stale from here on. -/
theorem supersede (h : Lockstep p taken) : Lockstep p.supersede taken := by
  obtain ⟨missing, stale, hqueued, htaken, hstale⟩ := h
  have hlater : ∀ w ∈ stale, w.Stale (p.renderer.generation + 1) :=
    fun w hw => (hstale w hw).mono (Nat.le_succ _)
  have hawaited : p.supersede.renderer.awaited = p.renderer.awaitedEnd := Multiset.add_zero _
  cases hframe : p.renderer.frame with
  | none =>
    have hscheduler : p.supersede.scheduler = p.scheduler := by
      unfold Site.supersede
      rw [hframe]
    refine ⟨missing, stale, ?_, htaken, hlater⟩
    rw [hawaited, hscheduler, ← hqueued, Renderer.awaited, Renderer.awaitedFrame, hframe]
    exact (Multiset.add_zero _).symm
  | some id =>
    have hscheduler : p.supersede.scheduler = p.scheduler.cancelFrame id := by
      unfold Site.supersede
      rw [hframe]
      rfl
    -- Of what is missing, the frame of that name is stale now.
    refine ⟨missing.filter fun w => ¬ w.isNamed id = true,
      missing.filter (fun w => w.isNamed id = true) + stale, ?_, ?_, ?_⟩
    · rw [hawaited, hscheduler, Queues.own_cancelFrame, ← Renderer.awaited_not_named hframe,
        hqueued, Multiset.filter_add]
    · rw [htaken, ← Multiset.add_assoc]
      congr 1
      rw [Multiset.add_comm]
      exact (Multiset.filter_add_not _ _).symm
    · intro w hw
      rcases Multiset.mem_add.mp hw with hw | hw
      · obtain ⟨hmem, hnamed⟩ := Multiset.mem_filter.mp hw
        refine Renderer.stale_of_named ?_ hnamed
        rw [hqueued]
        exact Multiset.mem_add.mpr (.inr hmem)
      · exact hlater w hw

/-- The frame that is requested is awaited and in the queues. -/
theorem requestFrame (h : Lockstep p taken) : Lockstep p.requestFrame taken := by
  obtain ⟨missing, stale, hqueued, htaken, hstale⟩ := h.supersede
  have hown : p.requestFrame.scheduler.own =
      .frame p.requestId (.frame p.supersede.renderer.generation) ::ₘ p.supersede.scheduler.own :=
    Queues.own_eq_cons (p.supersede.scheduler.waiting_requestFrame _) rfl
  have hawaited : p.requestFrame.renderer.awaited =
      .frame p.requestId (.frame p.supersede.renderer.generation) ::ₘ
        p.supersede.renderer.awaited := by
    have hnone : p.supersede.renderer.awaitedFrame = 0 := rfl
    rw [p.renderer_requestFrame, Renderer.awaited, Renderer.awaited, hnone, Multiset.add_zero,
      ← Multiset.singleton_add, Multiset.add_comm]
    rfl
  refine ⟨missing, stale, ?_, htaken, hstale⟩
  rw [hawaited, hqueued, hown, Multiset.cons_add]

/-- The end of the batch is awaited and in the queues. -/
theorem openBatch (h : Lockstep p taken) : Lockstep p.openBatch taken := by
  unfold Site.openBatch
  split
  · exact h
  · next hpending =>
    obtain ⟨missing, stale, hqueued, htaken, hstale⟩ := h
    refine ⟨missing, stale, ?_, htaken, hstale⟩
    have hown : (p.scheduler.defer .closeBatch).own = .deferred .closeBatch ::ₘ p.scheduler.own :=
      Queues.own_eq_cons (p.scheduler.waiting_defer .closeBatch) rfl
    have hend : p.renderer.awaitedEnd = 0 := by
      rw [Renderer.awaitedEnd, if_neg hpending]
    rw [Renderer.awaited, hend, Multiset.zero_add] at hqueued
    show _ = (p.scheduler.defer .closeBatch).own + missing
    rw [hown, Multiset.cons_add, ← hqueued, ← Multiset.singleton_add]
    rfl

/-- **Calls** keep the lockstep. -/
theorem call (h : Lockstep p taken) (c : Call ω) : Lockstep (c.perform p) taken := by
  cases c with
  | setState u =>
    have hstore := h.of_plan_eq
      (r := p.renderer.withStore (p.renderer.page.store.setState u)) rfl
    by_cases hpos : Store.written u > 0
    · rw [Call.perform, p.setState_of_written hpos]
      exact hstore.openBatch
    · rw [Call.perform, p.setState_of_not_written hpos]
      exact hstore
  | write key v =>
    have hstore := h.of_plan_eq
      (r := p.renderer.withStore (p.renderer.page.store.write key v)) rfl
    exact hstore.openBatch
  | remove key =>
    exact (h.of_plan_eq
      (r := p.renderer.withStore (p.renderer.page.store.remove key)) rfl).requestFrame
  | replace entries => exact h
  | render => exact h.supersede.of_plan_eq (Renderer.plan_perform p.supersede.renderer)
  | onReady callback =>
    by_cases hdone : p.renderer.page.completed = 0
    · rw [Call.perform, p.onReady_of_waiting callback hdone]
      exact h.of_plan_eq rfl
    · rw [Call.perform, p.onReady_of_drawn callback hdone]
      exact h.of_own_eq
        (Queues.own_eq_of_foreign (p.scheduler.waiting_defer (.run callback)) rfl)
  | cancelReady id => exact h.of_plan_eq rfl
  | addEffect effect => exact h.of_plan_eq rfl
  | removeEffect id => exact h.of_plan_eq rfl

/-- An own callback that was taken out starts. If it was awaited it was missing from the queues;
    else it is stale. -/
theorem letGo (h : Lockstep p (w ::ₘ taken)) (hown : w.task.isOwn = true) :
    (∃ missing stale, p.renderer.awaited = w ::ₘ (p.scheduler.own + missing) ∧
        ownCallbacks taken = missing + stale ∧ ∀ x ∈ stale, x.Stale p.renderer.generation) ∨
      (w.Stale p.renderer.generation ∧ Lockstep p taken) := by
  obtain ⟨missing, stale, hqueued, htaken, hstale⟩ := h
  have hcons : ownCallbacks (w ::ₘ taken) = w ::ₘ ownCallbacks taken :=
    Multiset.filter_cons_of_pos (p := fun w : Waiting (Task ω) => w.task.isOwn = true) _ hown
  rw [hcons] at htaken
  have hmem : w ∈ missing + stale := by
    rw [← htaken]
    exact Multiset.mem_cons_self _ _
  rcases Multiset.mem_add.mp hmem with hmem | hmem
  · obtain ⟨missing, rfl⟩ := Multiset.exists_cons_of_mem hmem
    rw [Multiset.cons_add] at htaken
    refine .inl ⟨missing, stale, ?_, (Multiset.cons_inj_right w).mp htaken, hstale⟩
    rw [hqueued, Multiset.add_cons]
  · obtain ⟨stale, rfl⟩ := Multiset.exists_cons_of_mem hmem
    rw [Multiset.add_cons] at htaken
    refine .inr ⟨hstale w hmem, missing, stale, hqueued, (Multiset.cons_inj_right w).mp htaken, ?_⟩
    exact fun x hx => hstale x (Multiset.mem_cons_of_mem hx)

/-- The end of the batch starts. -/
theorem closeBatch (h : Lockstep p (w ::ₘ taken)) (hw : w.task = .closeBatch) :
    Lockstep p.closeBatch taken := by
  rcases h.letGo (by rw [hw]; rfl) with ⟨missing, stale, hqueued, htaken, hstale⟩ | ⟨hlate, -⟩
  · have hmem : w ∈ p.renderer.awaited := by
      rw [hqueued]
      exact Multiset.mem_cons_self _ _
    rcases Renderer.mem_awaited_iff.mp hmem with ⟨hpending, rfl⟩ | ⟨id, -, rfl⟩
    · -- Without the end of the batch, the frame of before remains; the request supersedes it.
      have hframe : p.renderer.awaitedFrame = p.scheduler.own + missing := by
        rw [Renderer.awaited, Renderer.awaitedEnd, if_pos hpending,
          Multiset.singleton_add] at hqueued
        exact (Multiset.cons_inj_right _).mp hqueued
      have hclosed : Lockstep (p.onRenderer fun r => { r with batchPending := false }) taken := by
        refine ⟨missing, stale, ?_, htaken, hstale⟩
        exact (Multiset.zero_add p.renderer.awaitedFrame).trans hframe
      exact hclosed.requestFrame
    · cases hw
  · obtain ⟨id, g, rfl, -⟩ := hlate
    cases hw

/-- A frame starts. If it was awaited it is drawn; else it is stale and does nothing. -/
theorem runFrame {g : Nat} (h : Lockstep p (w ::ₘ taken)) (hw : w.task = .frame g) :
    Lockstep (p.runFrame g).result.2 taken := by
  rcases h.letGo (by rw [hw]; rfl) with ⟨missing, stale, hqueued, htaken, hstale⟩ | ⟨hlate, hrest⟩
  · have hmem : w ∈ p.renderer.awaited := by
      rw [hqueued]
      exact Multiset.mem_cons_self _ _
    rcases Renderer.mem_awaited_iff.mp hmem with ⟨-, rfl⟩ | ⟨id, hframe, rfl⟩
    · cases hw
    · obtain rfl := Task.frame.inj hw
      have hend : p.renderer.awaitedEnd = p.scheduler.own + missing := by
        rw [Renderer.awaited, Renderer.awaitedFrame, hframe] at hqueued
        rw [Multiset.add_comm, Multiset.singleton_add] at hqueued
        exact (Multiset.cons_inj_right _).mp hqueued
      have hnone : Lockstep ⟨{ p.renderer with frame := none }, p.scheduler⟩ taken := by
        refine ⟨missing, stale, ?_, htaken, hstale⟩
        exact (Multiset.add_zero p.renderer.awaitedEnd).trans hend
      rw [p.runFrame_generation]
      exact hnone.of_plan_eq (Renderer.plan_perform _)
  · obtain ⟨id, g', rfl, hlt⟩ := hlate
    obtain rfl := Task.frame.inj hw
    rw [p.runFrame_of_ne (Nat.ne_of_lt hlt)]
    exact hrest

/-- **Tasks** that were taken out and start keep the lockstep. -/
theorem run (h : Lockstep p (w ::ₘ taken)) : Lockstep (w.task.perform p) taken := by
  cases hw : w.task with
  | run s =>
    obtain ⟨missing, stale, hqueued, htaken, hstale⟩ := h
    refine ⟨missing, stale, hqueued, ?_, hstale⟩
    rw [← htaken]
    exact (Multiset.filter_cons_of_neg _ (by simp [hw, Task.isOwn])).symm
  | closeBatch => exact h.closeBatch hw
  | frame g => exact h.runFrame hw

/-! ## §6. Where nothing was taken out -/

/-- Where nothing was taken out, the queues hold just what is awaited. -/
theorem holdsAwaited (h : Lockstep p 0) : HoldsAwaited p.renderer p.scheduler := by
  obtain ⟨missing, stale, hqueued, htaken, -⟩ := h
  -- Nothing can be missing, so both sides are the same callbacks; each queue has its own kind.
  have hnone : missing = 0 := by
    have hle : missing ≤ ownCallbacks (0 : Multiset (Waiting (Task ω))) := by
      rw [htaken]
      exact Multiset.le_add_right _ _
    exact Multiset.le_zero.mp hle
  rw [hnone, Multiset.add_zero, Queues.own_eq, Renderer.awaited] at hqueued
  have hends : ∀ w ∈ p.renderer.awaitedEnd, w.isDeferred = true := by
    intro w hw
    obtain ⟨-, rfl⟩ := Renderer.mem_awaitedEnd_iff.mp hw
    rfl
  have hframes : ∀ w ∈ p.renderer.awaitedFrame, w.isDeferred = false := by
    intro w hw
    obtain ⟨id, -, rfl⟩ := Renderer.mem_awaitedFrame_iff.mp hw
    rfl
  obtain ⟨hend, hframe⟩ := Waiting.eq_of_add_eq_add hends (Waiting.isDeferred_of_mem_map _)
    hframes (Waiting.isDeferred_of_mem_map_frame _) hqueued
  refine ⟨?_, ?_⟩
  · rw [Renderer.awaitedEnd] at hend
    split at hend
    · next hpending =>
      rw [if_pos hpending]
      obtain ⟨t, ht, htask⟩ := List.map_eq_singleton_iff.mp (Multiset.coe_eq_singleton.mp hend.symm)
      rw [ht, Waiting.deferred.inj htask]
    · next hpending =>
      rw [if_neg hpending]
      exact List.map_eq_nil_iff.mp ((Multiset.coe_eq_zero _).mp hend.symm)
  · rw [Renderer.awaitedFrame] at hframe
    cases hid : p.renderer.frame with
    | none =>
      rw [hid] at hframe
      exact List.map_eq_nil_iff.mp ((Multiset.coe_eq_zero _).mp hframe.symm)
    | some id =>
      rw [hid] at hframe
      obtain ⟨f, hf, hwait⟩ :=
        List.map_eq_singleton_iff.mp (Multiset.coe_eq_singleton.mp hframe.symm)
      obtain ⟨rfl, htask⟩ := Waiting.frame.inj hwait
      rw [hf, ← htask]
      rfl

end Lockstep

/-- Before the first frame is requested nothing is awaited, and the queues hold nothing of the
    renderer's. -/
theorem lockstep_of_foreign {p : Site (Queues (Task ω)) ω} {taken : Multiset (Waiting (Task ω))}
    (hbatch : p.renderer.batchPending = false) (hframe : p.renderer.frame = none)
    (hqueues : ∀ w ∈ p.scheduler.waiting, w.task.isOwn = false)
    (htaken : ∀ w ∈ taken, w.task.isOwn = false) : Lockstep p taken := by
  have hnone : ∀ ws : Multiset (Waiting (Task ω)), (∀ w ∈ ws, w.task.isOwn = false) →
      ownCallbacks ws = 0 := by
    intro ws hws
    rw [ownCallbacks, Multiset.filter_eq_nil]
    intro w hw
    simp [hws w hw]
  refine ⟨0, 0, ?_, hnone taken htaken, fun w hw => absurd hw (Multiset.notMem_zero w)⟩
  have hown : p.scheduler.own = 0 := hnone _ fun w hw => hqueues w (Multiset.mem_coe.mp hw)
  rw [hown, Renderer.awaited, Renderer.awaitedEnd, Renderer.awaitedFrame, hbatch, hframe]
  rfl

end ReactiveView
