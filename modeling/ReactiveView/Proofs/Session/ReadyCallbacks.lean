import ReactiveView.Proofs.Registry.Interleaving
import ReactiveView.Proofs.Session.Conservation
import ReactiveView.Proofs.Session.Withdrawal

/-! # Ready callbacks run once

  A ready callback is registered while no frame is drawn, the first frame makes
  all that are left due, after its side effects, and from then on a ready
  callback is deferred instead. In between, side effects and ready callbacks may
  register, withdraw and draw as they like.

  * `Readies`: what one step can do to the ready callbacks.
  * `Waiting`: the books before the first frame. `Past`: from the first frame on
    nothing is registered, withdrawn or made due.
  * `ready_callbacks_once`: each ready callback runs once or is withdrawn.
-/

namespace ReactiveView

variable {ω : Type}

/-! ## §1. What a frame owes -/

/-- The ready callback that an activity is, before its start. -/
def Activity.readyCall? : Activity ω → Option (CallbackId × Script ω)
  | ready id callback => some (id, callback)
  | _ => none

/-- The ready callbacks among activities. -/
def readyCalls (as : List (Activity ω)) : List (CallbackId × Script ω) :=
  as.filterMap Activity.readyCall?

theorem readyCalls_append (as bs : List (Activity ω)) :
    readyCalls (as ++ bs) = readyCalls as ++ readyCalls bs := List.filterMap_append

theorem readyCalls_eq_nil {as : List (Activity ω)} (h : ∀ a ∈ as, a.isOwed = false) :
    readyCalls as = [] := by
  refine List.filterMap_eq_nil_iff.mpr fun a ha => ?_
  have hnot := h a ha
  cases a <;> simp [Activity.isOwed] at hnot <;> rfl

/-- Behind a ready callback no side effect is due. -/
def ReadyLast (as : List (Activity ω)) : Prop :=
  ∀ front a behind, as = front ++ a :: behind → a.readyCall? ≠ none → effectCalls behind = []

theorem readyLast_of_no_effects {as : List (Activity ω)} (h : effectCalls as = []) :
    ReadyLast as := by
  rintro front a behind rfl -
  rw [effectCalls_append] at h
  exact List.filterMap_eq_nil_iff.mpr fun b hb =>
    List.filterMap_eq_nil_iff.mp (List.append_eq_nil_iff.mp h).2 b (List.mem_cons_of_mem _ hb)

theorem ReadyLast.of_cons {a : Activity ω} {as : List (Activity ω)} (h : ReadyLast (a :: as)) :
    ReadyLast as := fun front b behind hsplit =>
  h (a :: front) b behind (congrArg (a :: ·) hsplit)

/-- What comes in front has no ready callback. -/
theorem ReadyLast.append {new as : List (Activity ω)} (h : ReadyLast as)
    (hnew : readyCalls new = []) : ReadyLast (new ++ as) := by
  intro front a behind hsplit ha
  rcases split_append_cons hsplit with ⟨front', has⟩ | ⟨behind', rfl, -⟩
  · exact h front' a behind has ha
  · exact absurd (List.filterMap_eq_nil_iff.mp hnew a (by simp)) ha

/-- A frame owes its round of side effects, and the first one owes the ready callbacks after it. -/
theorem Renderer.due_perform (r : Renderer ω) :
    ∃ effects readies, r.perform.result.due = effects ++ readies ∧
      effectCalls effects =
        History.round r.page.store.pending r.page.store.entries r.effects.entries ∧
      readyCalls effects = [] ∧ effectCalls readies = [] ∧
      readyCalls readies = if r.page.completed = 0 then r.ready.entries else [] := by
  -- Drawing changes the live tree only, so it does not matter to what is due.
  obtain ⟨t, ht⟩ := r.draw_eq_withTree
  have hdue : r.perform.result.due = (r.withTree t).dueEffects ++ (r.withTree t).dueReady := by
    rw [← ht]
    rfl
  have hready : effectCalls (r.withTree t).dueReady = [] := by
    unfold dueReady
    split
    · refine List.filterMap_eq_nil_iff.mpr fun a ha => ?_
      obtain ⟨e, -, rfl⟩ := List.mem_map.mp ha
      rfl
    · rfl
  refine ⟨_, _, hdue, ?_, ?_, hready, ?_⟩
  · have hround := r.effectCalls_due
    rwa [hdue, effectCalls_append, hready, List.append_nil] at hround
  · unfold dueEffects
    split
    · rfl
    · refine List.filterMap_eq_nil_iff.mpr fun a ha => ?_
      obtain ⟨e, -, rfl⟩ := List.mem_map.mp ha
      rfl
  · show readyCalls (if r.page.completed = 0 then r.ready.entries.map _ else []) = _
    split
    · rw [readyCalls, List.filterMap_map]
      exact List.filterMap_some
    · rfl

/-! ## §2. What a step does to the ready callbacks -/

/-- What a call registers as a ready callback: it is told the identifier. -/
def Call.registered (p : Site (Queues (Task ω)) ω) : Call ω → List (CallbackId × Script ω)
  | onReady callback => ((p.onReady callback).1.map fun id => (id, callback)).toList
  | _ => []

/-- Which ready callback a call withdraws: it is told that there was one. -/
def Call.withdrawn (p : Site (Queues (Task ω)) ω) : Call ω → List CallbackId
  | cancelReady id => if (p.renderer.cancelReady id).1 then [id] else []
  | _ => []

/-- What one step can do to the ready callbacks of a renderer, given what it registers and
    withdraws. -/
inductive Readies (r r' : Renderer ω) (new : List (Activity ω)) :
    List (CallbackId × Script ω) → List CallbackId → Prop where
  /-- They stay. Side effects may take numbers. -/
  | keep (hready : r'.ready = r.ready) (hcompleted : r'.page.completed = r.page.completed)
      (hsupply : r.supply.issued ≤ r'.supply.issued) (hnew : ∀ a ∈ new, a.isOwed = false) :
      Readies r r' new [] []
  /-- One is registered, before the first frame. -/
  | register (callback : Script ω) (hnone : r.page.completed = 0)
      (hready : r'.ready.entries = r.ready.entries ++ [(⟨r.supply.issued⟩, callback)])
      (hcompleted : r'.page.completed = r.page.completed)
      (hsupply : r'.supply.issued = r.supply.issued + 1) (hnew : ∀ a ∈ new, a.isOwed = false) :
      Readies r r' new [(⟨r.supply.issued⟩, callback)] []
  /-- One is withdrawn. -/
  | withdraw (id : CallbackId) (hfound : (r.cancelReady id).1 = true)
      (hr : r' = (r.cancelReady id).2) (hnew : ∀ a ∈ new, a.isOwed = false) :
      Readies r r' new [] [id]
  /-- A frame is drawn. -/
  | draw {effects readies behind : List (Activity ω)} (hnew : new = effects ++ readies ++ behind)
      (hready : r'.ready = if r.page.completed = 0 then .empty else r.ready)
      (hcompleted : r'.page.completed = r.page.completed + 1)
      (heffects : effectCalls effects =
        History.round r.page.store.pending r.page.store.entries r.effects.entries)
      (hnoReadies : readyCalls effects = []) (hnoEffects : effectCalls readies = [])
      (hreadies : readyCalls readies = if r.page.completed = 0 then r.ready.entries else [])
      (hbehind : ∀ a ∈ behind, a.isOwed = false) : Readies r r' new [] []

section operations

variable {r : Renderer ω} {p : Site (Queues (Task ω)) ω}

/-- A frame of a renderer that has the same callbacks. -/
theorem Renderer.readies_perform (r r₀ : Renderer ω) (hcontent : r.content = r₀.content)
    {behind : List (Activity ω)} (hbehind : ∀ a ∈ behind, a.isOwed = false) :
    Readies r₀ r.perform.result.renderer (r.perform.result.due ++ behind) [] [] := by
  obtain ⟨effects, readies, hdue, heffects, hnoReadies, hnoEffects, hreadies⟩ := r.due_perform
  have hpage : r.page = r₀.page := congrArg (·.1) hcontent
  have hregistered : r.effects = r₀.effects := congrArg (·.2.2.1) hcontent
  have hready : r.ready = r₀.ready := congrArg (·.2.2.2) hcontent
  obtain ⟨t, ht⟩ := r.perform_eq_settled
  refine .draw (by rw [hdue]) ?_ ?_ ?_ hnoReadies hnoEffects ?_ hbehind
  · rw [ht, ← hready, ← hpage]
    rfl
  · rw [r.completed_perform, hpage]
  · rw [heffects, hpage, hregistered]
  · rw [hreadies, hpage, hready]

/-- Before the first frame the answer is an identifier. -/
theorem Site.answer_onReady_of_waiting (p : Site (Queues (Task ω)) ω) (s : Script ω)
    (h : p.renderer.page.completed = 0) :
    (p.onReady s).1 = some ⟨p.renderer.supply.issued⟩ := by
  unfold onReady
  rw [if_pos h]
  rfl

/-- After it there is none. -/
theorem Site.answer_onReady_of_drawn (p : Site (Queues (Task ω)) ω) (s : Script ω)
    (h : p.renderer.page.completed ≠ 0) : (p.onReady s).1 = none := by
  unfold onReady
  rw [if_neg h]

/-- Nothing is withdrawn if there was none. -/
theorem Renderer.cancelReady_of_not_found (r : Renderer ω) {id : CallbackId}
    (h : ¬ (r.cancelReady id).1 = true) : (r.cancelReady id).2 = r := by
  have hnone : r.ready.entries.find? (·.1 = id) = none :=
    Option.map_eq_none_iff.mp (Option.not_isSome_iff_eq_none.mp h)
  have hsame : r.ready.unregister id = r.ready := by
    rw [Registry.unregister, List.eraseP_of_forall_not (List.find?_eq_none.mp hnone)]
  show { r with ready := r.ready.unregister id } = r
  rw [hsame]

theorem Call.readies (c : Call ω) (next : Script ω) :
    Readies p.renderer (c.perform p).renderer (c.due p ++ [.rest next]) (c.registered p)
      (c.withdrawn p) := by
  have hnew := isOwed_rest next
  -- Most calls leave the ready callbacks alone, and draw nothing.
  have hkeep : ∀ {r' : Renderer ω}, r'.ready = p.renderer.ready →
      r'.page.completed = p.renderer.page.completed → r'.supply = p.renderer.supply →
      Readies p.renderer r' [.rest next] [] [] := fun hready hcompleted hsupply =>
    .keep hready hcompleted (le_of_eq (congrArg (·.issued) hsupply.symm)) hnew
  cases c with
  | setState u =>
    have hcontent := p.content_setState u
    have hsupply : (p.setState u).renderer.supply = p.renderer.supply := by
      by_cases hu : Store.written u > 0
      · rw [p.setState_of_written hu]
        exact (Site.enrolment_openBatch _).2
      · rw [p.setState_of_not_written hu]
        rfl
    exact hkeep (congrArg (·.2.2.2) hcontent) (congrArg (·.1.completed) hcontent) hsupply
  | write key v =>
    have hcontent := p.content_write key v
    exact hkeep (congrArg (·.2.2.2) hcontent) (congrArg (·.1.completed) hcontent)
      (Site.enrolment_openBatch _).2
  | remove key => exact hkeep rfl rfl rfl
  | replace entries => exact hkeep rfl rfl rfl
  | render => exact Renderer.readies_perform p.supersede.renderer p.renderer rfl hnew
  | onReady callback =>
    by_cases hdone : p.renderer.page.completed = 0
    · rw [Call.perform, p.onReady_of_waiting callback hdone, registered,
        p.answer_onReady_of_waiting callback hdone]
      exact .register callback hdone rfl rfl rfl hnew
    · rw [Call.perform, p.onReady_of_drawn callback hdone, registered,
        p.answer_onReady_of_drawn callback hdone]
      exact hkeep rfl rfl rfl
  | cancelReady id =>
    by_cases hfound : (p.renderer.cancelReady id).1 = true
    · rw [withdrawn, if_pos hfound]
      exact .withdraw id hfound rfl hnew
    · rw [withdrawn, if_neg hfound, Call.perform, Site.onRenderer,
        p.renderer.cancelReady_of_not_found hfound]
      exact hkeep rfl rfl rfl
  | addEffect effect => exact .keep rfl rfl (Nat.le_succ _) hnew
  | removeEffect id => exact hkeep rfl rfl rfl

theorem Task.readies (t : Task ω) :
    Readies p.renderer (t.perform p).renderer (t.due p) [] [] := by
  cases t with
  | run s => exact .keep rfl rfl (Nat.le_refl _) (isOwed_rest s)
  | closeBatch => exact .keep rfl rfl (Nat.le_refl _) (by simp [due])
  | frame g =>
    by_cases hg : g = p.renderer.generation
    · have hdraw := Renderer.readies_perform { p.renderer with frame := none } p.renderer rfl
        (List.forall_mem_nil _)
      rw [Task.perform, Task.due, hg, p.runFrame_generation]
      rwa [List.append_nil] at hdraw
    · rw [Task.perform, Task.due, p.runFrame_of_ne hg]
      exact .keep rfl rfl (Nat.le_refl _) (by simp)

end operations

namespace Session

variable {m : Session ω} {p : Site (Queues (Task ω)) ω} {r : Renderer ω} {a : Activity ω}
  {as : List (Activity ω)}

/-- The call that the next step makes, and where. -/
def upcomingCall? (m : Session ω) : Option (Site (Queues (Task ω)) ω × Call ω) :=
  match m.agenda, m.renderer with
  | .rest s :: _, some r => s.call?.map fun c => (⟨r, m.queues⟩, c)
  | _, _ => none

theorem upcomingCall?_of_call {s : Script ω} {c : Call ω} (hr : m.renderer = some r)
    (hm : m.agenda = .rest s :: as) (hs : s.call? = some c) :
    m.upcomingCall? = some (⟨r, m.queues⟩, c) := by
  rw [upcomingCall?, hm, hr]
  show s.call?.map _ = _
  rw [hs]
  rfl

theorem upcomingCall?_of_no_call (hm : m.agenda = a :: as)
    (ha : ∀ s, a = .rest s → s.call? = none) : m.upcomingCall? = none := by
  rw [upcomingCall?, hm]
  cases m.renderer with
  | none => cases a <;> rfl
  | some r =>
    cases a with
    | rest s =>
      show s.call?.map _ = _
      rw [ha s rfl]
      rfl
    | _ => rfl

/-- What the next step registers as a ready callback. -/
def registered (m : Session ω) : List (CallbackId × Script ω) :=
  match m.upcomingCall? with
  | some (p, c) => c.registered p
  | none => []

/-- Which ready callback the next step withdraws. -/
def withdrawn (m : Session ω) : List CallbackId :=
  match m.upcomingCall? with
  | some (p, c) => c.withdrawn p
  | none => []

/-- **Every step** does to the ready callbacks what `Readies` says. -/
theorem exists_readies (hr : m.renderer = some r) (hm : m.agenda = a :: as) :
    ∃ r' new, m.step.renderer = some r' ∧ m.step.agenda = new ++ as ∧
      Readies r r' new m.registered m.withdrawn := by
  obtain ⟨new, p', hturn, hat⟩ := exists_turn (p := ⟨r, m.queues⟩) ⟨hr, rfl, hm⟩
  refine ⟨p'.renderer, new, hat.renderer_eq, hat.agenda_eq, ?_⟩
  -- Only calls register and withdraw.
  have hother (hnone : ∀ s, a = .rest s → s.call? = none) (h : Readies r p'.renderer new [] []) :
      Readies r p'.renderer new m.registered m.withdrawn := by
    rwa [registered, withdrawn, upcomingCall?_of_no_call hm hnone]
  cases hturn with
  | @call s next c hs =>
    rw [registered, withdrawn, upcomingCall?_of_call hr hm hs]
    exact c.readies (p := ⟨r, m.queues⟩) next
  | changeTree change next =>
    refine hother ?_ (.keep rfl rfl (Nat.le_refl _) (isOwed_rest next))
    rintro s ⟨⟩
    rfl
  | alone h =>
    refine hother ?_ (.keep rfl rfl (Nat.le_refl _) h.isOwed_eq_false)
    rintro s ⟨⟩
    exact h.call?_eq_none
  | @task _ w hw =>
    refine hother ?_ (w.task.readies (p := ⟨r, m.queues⟩))
    rintro s rfl
    cases hw
  | effect id previous current e =>
    exact hother (by simp) (.keep rfl rfl (Nat.le_refl _) (isOwed_rest _))
  | ready id callback =>
    exact hother (by simp) (.keep rfl rfl (Nat.le_refl _) (isOwed_rest _))

theorem registered_of_nil (hm : m.agenda = []) : m.registered = [] := by
  rw [registered, upcomingCall?, hm]

theorem withdrawn_of_nil (hm : m.agenda = []) : m.withdrawn = [] := by
  rw [withdrawn, upcomingCall?, hm]

/-! ## §3. The books of ready callbacks -/

variable {start v : Session ω} {ms before after : List (Session ω)}

/-- What was registered on a trail. -/
def registrations (ms : List (Session ω)) : List (CallbackId × Script ω) :=
  ms.flatMap (·.registered)

/-- What was withdrawn on a trail. -/
def withdrawals (ms : List (Session ω)) : List CallbackId := ms.flatMap (·.withdrawn)

/-- The ready callbacks that started on a trail. -/
def readyRuns (ms : List (Session ω)) : List (CallbackId × Script ω) :=
  started Activity.readyCall? ms

/-- The calls of side effects that started on a trail. -/
def effectRuns (ms : List (Session ω)) : List (EffectCall ω) := started Activity.effectCall? ms

/-- What was registered and not withdrawn, in order. -/
def kept (ms : List (Session ω)) : List (CallbackId × Script ω) :=
  (registrations ms).filter (·.1 ∉ withdrawals ms)

theorem registrations_concat (ms : List (Session ω)) (m : Session ω) :
    registrations (ms ++ [m]) = registrations ms ++ m.registered := flatMap_concat _ ms m

theorem withdrawals_concat (ms : List (Session ω)) (m : Session ω) :
    withdrawals (ms ++ [m]) = withdrawals ms ++ m.withdrawn := flatMap_concat _ ms m

/-- Before the first frame. -/
structure Waiting (ms : List (Session ω)) (m : Session ω) (r : Renderer ω) : Prop where
  /-- The renderer is there. -/
  renderer_eq : m.renderer = some r
  /-- No frame was drawn. -/
  completed_eq : r.page.completed = 0
  /-- No callback of a frame is due. -/
  owed : ∀ a ∈ m.agenda, a.isOwed = false
  /-- No ready callback started. -/
  unstarted : readyRuns ms = []
  /-- Ready callbacks are told apart. -/
  nodup : ((registrations ms).map (·.1)).Nodup
  /-- Their numbers come from the supply. -/
  issued : ∀ e ∈ registrations ms, e.1.serial < r.supply.issued
  /-- What is withdrawn was registered. -/
  withdrawn : ∀ id ∈ withdrawals ms, id ∈ (registrations ms).map (·.1)
  /-- The rest is kept in order. -/
  entries_eq : r.ready.entries = kept ms

/-- From the first frame on. -/
structure Past (m : Session ω) (r : Renderer ω) : Prop where
  /-- The renderer is there. -/
  renderer_eq : m.renderer = some r
  /-- A frame was drawn. -/
  completed_ne : r.page.completed ≠ 0
  /-- No ready callback is registered. -/
  entries_eq : r.ready.entries = []
  /-- Behind a ready callback no side effect is due. -/
  readyLast : ReadyLast m.agenda

/-- The round of calls that a frame owes, if the next step draws one. -/
def round (m : Session ω) : List (EffectCall ω) :=
  match m.renderer with
  | some r => History.round r.page.store.pending r.page.store.entries r.effects.entries
  | none => []

/-- Whether the next step draws the first frame. -/
def DrawsFirst (m : Session ω) : Prop :=
  ∃ r r', m.renderer = some r ∧ m.step.renderer = some r' ∧ r.page.completed = 0 ∧
    r'.page.completed ≠ 0

/-- No ready callback starts yet. -/
theorem Waiting.unstarted_concat (h : Waiting ms m r) : readyRuns (ms ++ [m]) = [] := by
  have hconcat : readyRuns (ms ++ [m]) ++ readyCalls m.agenda.tail =
      readyRuns ms ++ readyCalls m.agenda := started_concat_tail _ ms m
  rw [h.unstarted, readyCalls_eq_nil h.owed] at hconcat
  exact (List.append_eq_nil_iff.mp hconcat).1

/-- They stay. -/
theorem Waiting.stay (h : Waiting ms m r) {r' : Renderer ω} (hregistered : m.registered = [])
    (hwithdrawn : m.withdrawn = []) (hr' : m.step.renderer = some r')
    (hcompleted : r'.page.completed = r.page.completed)
    (hsupply : r.supply.issued ≤ r'.supply.issued) (hready : r'.ready = r.ready)
    (howed : ∀ a ∈ m.step.agenda, a.isOwed = false) : Waiting (ms ++ [m]) m.step r' := by
  have hregistrations : registrations (ms ++ [m]) = registrations ms := by
    rw [registrations_concat, hregistered, List.append_nil]
  have hwithdrawals : withdrawals (ms ++ [m]) = withdrawals ms := by
    rw [withdrawals_concat, hwithdrawn, List.append_nil]
  refine ⟨hr', hcompleted.trans h.completed_eq, howed, h.unstarted_concat, ?_, ?_, ?_, ?_⟩
  · rw [hregistrations]
    exact h.nodup
  · rw [hregistrations]
    exact fun e he => Nat.lt_of_lt_of_le (h.issued e he) hsupply
  · rw [hregistrations, hwithdrawals]
    exact h.withdrawn
  · rw [kept, hregistrations, hwithdrawals, hready]
    exact h.entries_eq

/-- One is registered. -/
theorem Waiting.register (h : Waiting ms m r) {r' : Renderer ω} {callback : Script ω}
    (hregistered : m.registered = [(⟨r.supply.issued⟩, callback)]) (hwithdrawn : m.withdrawn = [])
    (hr' : m.step.renderer = some r') (hcompleted : r'.page.completed = r.page.completed)
    (hready : r'.ready.entries = r.ready.entries ++ [(⟨r.supply.issued⟩, callback)])
    (hsupply : r'.supply.issued = r.supply.issued + 1)
    (howed : ∀ a ∈ m.step.agenda, a.isOwed = false) : Waiting (ms ++ [m]) m.step r' := by
  have hwithdrawals : withdrawals (ms ++ [m]) = withdrawals ms := by
    rw [withdrawals_concat, hwithdrawn, List.append_nil]
  refine ⟨hr', hcompleted.trans h.completed_eq, howed, h.unstarted_concat, ?_, ?_, ?_, ?_⟩
  · rw [registrations_concat, hregistered, List.map_append]
    exact nodup_names_append CallbackId.serial h.nodup h.issued rfl
  · intro e he
    rw [registrations_concat, hregistered] at he
    rw [hsupply]
    rcases List.mem_append.mp he with he | he
    · exact Nat.lt_succ_of_lt (h.issued e he)
    · obtain rfl := List.mem_singleton.mp he
      exact Nat.lt_succ_self _
  · rw [hwithdrawals, registrations_concat, List.map_append]
    exact fun id hid => List.mem_append_left _ (h.withdrawn id hid)
  · -- A number that is handed out now was not withdrawn.
    have hfresh : (⟨r.supply.issued⟩ : CallbackId) ∉ withdrawals ms := by
      intro hmem
      obtain ⟨e, he, hid⟩ := List.mem_map.mp (h.withdrawn _ hmem)
      have hlt := h.issued e he
      rw [hid] at hlt
      exact Nat.lt_irrefl _ hlt
    rw [hready, h.entries_eq, kept, kept, hwithdrawals, registrations_concat, hregistered,
      List.filter_append, List.filter_cons_of_pos (by simpa using hfresh)]
    rfl

/-- One is withdrawn. -/
theorem Waiting.withdraw (h : Waiting ms m r) {id : CallbackId}
    (hregistered : m.registered = []) (hwithdrawn : m.withdrawn = [id])
    (hfound : (r.cancelReady id).1 = true)
    (hr' : m.step.renderer = some (r.cancelReady id).2)
    (howed : ∀ a ∈ m.step.agenda, a.isOwed = false) :
    Waiting (ms ++ [m]) m.step (r.cancelReady id).2 := by
  have hregistrations : registrations (ms ++ [m]) = registrations ms := by
    rw [registrations_concat, hregistered, List.append_nil]
  refine ⟨hr', h.completed_eq, howed, h.unstarted_concat, hregistrations ▸ h.nodup,
    hregistrations ▸ h.issued, ?_, ?_⟩
  · rw [hregistrations, withdrawals_concat, hwithdrawn]
    intro other hother
    rcases List.mem_append.mp hother with hother | hother
    · exact h.withdrawn other hother
    · -- What was found is one of those that are kept.
      obtain rfl := List.mem_singleton.mp hother
      obtain ⟨callback, hfind⟩ := Option.isSome_iff_exists.mp hfound
      obtain ⟨e, he, -⟩ := Option.map_eq_some_iff.mp hfind
      have hid : e.1 = other := by simpa using List.find?_some he
      have hmem : e ∈ kept ms := h.entries_eq ▸ List.mem_of_find?_eq_some he
      exact List.mem_map.mpr ⟨e, List.mem_of_mem_filter hmem, hid⟩
  · have hnodup : (r.ready.entries.map (·.1)).Nodup :=
      h.entries_eq ▸ h.nodup.sublist (List.filter_sublist.map _)
    show (r.ready.unregister id).entries = _
    rw [Registry.entries_unregister hnodup, h.entries_eq, kept, kept, List.filter_filter,
      hregistrations, withdrawals_concat, hwithdrawn]
    refine List.filter_congr fun e he => ?_
    simp [and_comm]

/-- **A step before the first frame**, or the one that draws it. -/
theorem Waiting.step (h : Waiting ms m r) :
    (∃ r', Waiting (ms ++ [m]) m.step r') ∨
      ∃ r', Past m.step r' ∧ m.registered = [] ∧ m.withdrawn = [] ∧
        readyCalls m.step.agenda = kept ms ∧ effectCalls m.step.agenda = m.round := by
  cases hm : m.agenda with
  | nil =>
    have hself : m.step = m := step_eq_self_of_isResting (by rw [isResting, hm]; rfl)
    refine .inl ⟨r, h.stay (registered_of_nil hm) (withdrawn_of_nil hm) ?_ rfl (Nat.le_refl _) rfl
      ?_⟩
    · rw [hself]
      exact h.renderer_eq
    · rw [hself]
      exact h.owed
  | cons a as =>
    obtain ⟨r', new, hr', hnew, hreadies⟩ := exists_readies h.renderer_eq hm
    have howed : ∀ b ∈ as, b.isOwed = false := fun b hb =>
      h.owed b (hm ▸ List.mem_cons_of_mem _ hb)
    have howed' : (∀ b ∈ new, b.isOwed = false) → ∀ b ∈ m.step.agenda, b.isOwed = false := by
      intro hquiet b hb
      rw [hnew] at hb
      rcases List.mem_append.mp hb with hb | hb
      · exact hquiet b hb
      · exact howed b hb
    generalize hregistered : m.registered = registered at hreadies
    generalize hwithdrawn : m.withdrawn = withdrawn at hreadies
    cases hreadies with
    | keep hready hcompleted hsupply hquiet =>
      exact .inl ⟨r', h.stay hregistered hwithdrawn hr' hcompleted hsupply hready
        (howed' hquiet)⟩
    | register callback hnone hready hcompleted hsupply hquiet =>
      exact .inl ⟨r', h.register hregistered hwithdrawn hr' hcompleted hready hsupply
        (howed' hquiet)⟩
    | withdraw id hfound heq hquiet =>
      subst heq
      exact .inl ⟨_, h.withdraw hregistered hwithdrawn hfound hr' (howed' hquiet)⟩
    | @draw effects readies behind hsplit hready hcompleted heffects hnoReadies hnoEffects hreadies
        hbehind =>
      rw [if_pos h.completed_eq] at hready hreadies
      have hagenda : m.step.agenda = effects ++ (readies ++ (behind ++ as)) := by
        rw [hnew, hsplit]
        simp only [List.append_assoc]
      have hlast : effectCalls (readies ++ (behind ++ as)) = [] := by
        rw [effectCalls_append, effectCalls_append, hnoEffects, effectCalls_eq_nil hbehind,
          effectCalls_eq_nil howed]
        rfl
      refine .inr ⟨r', ⟨hr', by omega, by rw [hready]; rfl, ?_⟩, rfl, rfl, ?_, ?_⟩
      · rw [hagenda]
        exact (readyLast_of_no_effects hlast).append hnoReadies
      · rw [hagenda, readyCalls_append, readyCalls_append, readyCalls_append, hnoReadies, hreadies,
          readyCalls_eq_nil hbehind, readyCalls_eq_nil howed, h.entries_eq]
        exact List.append_nil _
      · rw [hagenda, effectCalls_append, hlast, heffects, round, h.renderer_eq]
        exact List.append_nil _

/-- **A step from the first frame on** registers and withdraws nothing, and makes no ready callback
    due. -/
theorem Past.step (h : Past m r) :
    (∃ r', Past m.step r') ∧ m.registered = [] ∧ m.withdrawn = [] ∧
      ∃ new, m.step.agenda = new ++ m.agenda.tail ∧ readyCalls new = [] := by
  cases hm : m.agenda with
  | nil =>
    rw [step_eq_self_of_isResting (by rw [isResting, hm]; rfl)]
    exact ⟨⟨r, h⟩, registered_of_nil hm, withdrawn_of_nil hm, [], hm, rfl⟩
  | cons a as =>
    obtain ⟨r', new, hr', hnew, hreadies⟩ := exists_readies h.renderer_eq hm
    -- Whatever becomes due, no ready callback does.
    have hpast : readyCalls new = [] → r'.page.completed ≠ 0 → r'.ready.entries = [] →
        (∃ r', Past m.step r') ∧
          ∃ new, m.step.agenda = new ++ (a :: as).tail ∧ readyCalls new = [] := by
      intro hnone hcompleted hentries
      have hbehind : ReadyLast as := (hm ▸ h.readyLast).of_cons
      exact ⟨⟨r', hr', hcompleted, hentries, hnew ▸ hbehind.append hnone⟩, new, hnew, hnone⟩
    generalize m.registered = registered at hreadies ⊢
    generalize m.withdrawn = withdrawn at hreadies ⊢
    cases hreadies with
    | keep hready hcompleted hsupply hquiet =>
      obtain ⟨hstep, hdue⟩ := hpast (readyCalls_eq_nil hquiet)
        (hcompleted ▸ h.completed_ne) (hready ▸ h.entries_eq)
      exact ⟨hstep, rfl, rfl, hdue⟩
    | register callback hnone => exact absurd hnone h.completed_ne
    | withdraw id hfound =>
      -- There is nothing left to be found.
      have hnone : (r.cancelReady id).1 = false := by
        rw [Renderer.cancelReady, Registry.find?, h.entries_eq]
        rfl
      exact absurd (hfound.symm.trans hnone) (by simp)
    | draw hsplit hready hcompleted heffects hnoReadies hnoEffects hreadies hbehind =>
      rw [if_neg h.completed_ne] at hready hreadies
      have hnone : readyCalls new = [] := by
        rw [hsplit, readyCalls_append, readyCalls_append, hnoReadies, hreadies,
          readyCalls_eq_nil hbehind]
        rfl
      obtain ⟨hstep, hdue⟩ := hpast hnone (by omega) (hready ▸ h.entries_eq)
      exact ⟨hstep, rfl, rfl, hdue⟩

/-! ## §4. Trails through the first frame -/

/-- A session after a mount is before the first frame. -/
theorem waiting_mount {base : Session ω} (h : base.Fresh) (o : MountOptions ω) (tree : LiveTree) :
    ∃ r, Waiting [] (base.mount o tree) r := by
  have hagenda : base.agenda = [] := List.isEmpty_iff.mp h.isResting
  have hadd : ∀ (es : List (SideEffect ω)) (r : Renderer ω),
      (es.foldl (fun r e => (r.addEffect e).2) r).ready = r.ready := by
    intro es
    induction es with
    | nil => exact fun r => rfl
    | cons e es ih => exact fun r => ih _
  refine ⟨_, rfl, ?_, ?_, rfl, List.nodup_nil, by simp [registrations], by simp [withdrawals], ?_⟩
  · rw [o.result_mount]
    show (o.bare tree).page.completed = 0
    rw [o.page_bare]
  · show ∀ a ∈ base.agenda, a.isOwed = false
    rw [hagenda]
    exact List.forall_mem_nil _
  · rw [o.result_mount]
    show (o.bare tree).ready.entries = []
    rw [MountOptions.bare, hadd]
    rfl

theorem Waiting.run (h : Waiting ms m r) (s : Script ω) : Waiting ms (m.run s) r := by
  refine { h with owed := ?_ }
  intro a ha
  rcases List.mem_cons.mp ha with rfl | ha
  · rfl
  · exact h.owed a ha

theorem Past.run (h : Past m r) (s : Script ω) : Past (m.run s) r :=
  { h with readyLast := h.readyLast.append (readyCalls_eq_nil (isOwed_rest s)) }

/-- **From the first frame on**, what was due by then is all that starts, and it starts in order.
    The side effects that were due by then keep their order among those that start. -/
theorem Trail.past (h : v.Trail ms m) (hv : Past v r) :
    (∃ r', Past m r') ∧ registrations ms = [] ∧ withdrawals ms = [] ∧
      readyRuns ms ++ readyCalls m.agenda = readyCalls v.agenda ∧
      (effectCalls v.agenda).Sublist (effectRuns ms ++ effectCalls m.agenda) := by
  induction h with
  | start => exact ⟨⟨r, hv⟩, rfl, rfl, rfl, List.Sublist.refl _⟩
  | run s hrest h ih =>
    obtain ⟨⟨r', hpast⟩, hrest⟩ := ih
    exact ⟨⟨r', hpast.run s⟩, hrest⟩
  | @step ms m h ih =>
    obtain ⟨⟨r', hpast⟩, hregistrations, hwithdrawals, hruns, heffects⟩ := ih
    obtain ⟨hpast', hregistered, hwithdrawn, new, hnew, hnone⟩ := hpast.step
    refine ⟨hpast', ?_, ?_, ?_, ?_⟩
    · rw [registrations_concat, hregistrations, hregistered]
      rfl
    · rw [withdrawals_concat, hwithdrawals, hwithdrawn]
      rfl
    · have hconcat : readyRuns (ms ++ [m]) ++ readyCalls m.agenda.tail =
          readyRuns ms ++ readyCalls m.agenda := started_concat_tail _ ms m
      rw [hnew, readyCalls_append, hnone, ← hruns, ← hconcat]
      rfl
    · have hconcat : effectRuns (ms ++ [m]) ++ effectCalls m.agenda.tail =
          effectRuns ms ++ effectCalls m.agenda := started_concat_tail _ ms m
      rw [hnew, effectCalls_append]
      refine heffects.trans ?_
      rw [← hconcat]
      exact List.Sublist.append_left (List.sublist_append_right _ _) _

/-- A trail has not come to the first frame, or it goes through it. -/
theorem Trail.waiting_or_past (h : start.Trail ms m) (hstart : ∃ r, Waiting [] start r) :
    (∃ r, Waiting ms m r) ∨
      ∃ before v after r, ms = before ++ v :: after ∧ Waiting before v r ∧ v.DrawsFirst ∧
        ∃ r', Past m r' := by
  induction h with
  | start => exact .inl hstart
  | run s hrest h ih =>
    rcases ih with ⟨r, hwaiting⟩ | ⟨before, v, after, r, hms, hv, hdraws, r', hpast⟩
    · exact .inl ⟨r, hwaiting.run s⟩
    · exact .inr ⟨before, v, after, r, hms, hv, hdraws, r', hpast.run s⟩
  | @step ms m h ih =>
    rcases ih with ⟨r, hwaiting⟩ | ⟨before, v, after, r, rfl, hv, hdraws, r', hpast⟩
    · rcases hwaiting.step with hwaiting' | ⟨r', hpast, -⟩
      · exact .inl hwaiting'
      · have hdraws : m.DrawsFirst :=
          ⟨r, r', hwaiting.renderer_eq, hpast.renderer_eq, hwaiting.completed_eq,
            hpast.completed_ne⟩
        exact .inr ⟨ms, m, [], r, rfl, hwaiting, hdraws, r', hpast⟩
    · exact .inr ⟨before, v, after ++ [m], r, by simp, hv, hdraws, hpast.step.1⟩

/-- The step that draws the first frame. -/
theorem Trail.first_frame (h : start.Trail (before ++ v :: after) m)
    (hstart : ∃ r, Waiting [] start r) (hv : v.DrawsFirst) :
    (∃ r, Waiting before v r) ∧ (∃ r', Past v.step r') ∧ v.registered = [] ∧ v.withdrawn = [] ∧
      readyCalls v.step.agenda = kept before ∧ effectCalls v.step.agenda = v.round := by
  obtain ⟨r, r', hr, hr', hnone, hsome⟩ := hv
  obtain ⟨hbefore, -⟩ := h.split
  -- The first frame is not drawn twice, so before it the trail is still waiting.
  rcases hbefore.waiting_or_past hstart with ⟨r₁, hwaiting⟩ | ⟨-, -, -, -, -, -, -, r₁, hpast⟩
  · rcases hwaiting.step with ⟨r₂, hwaiting'⟩ | ⟨r₂, hpast, hlabels⟩
    · obtain rfl := Option.some.inj (hr'.symm.trans hwaiting'.renderer_eq)
      exact absurd hwaiting'.completed_eq hsome
    · exact ⟨⟨r₁, hwaiting⟩, ⟨r₂, hpast⟩, hlabels⟩
  · obtain rfl := Option.some.inj (hr.symm.trans hpast.renderer_eq)
    exact absurd hnone hpast.completed_ne

/-- **Through the first frame**: what starts, and what is still to start, is what was kept. -/
theorem Trail.runs_eq_kept (h : start.Trail (before ++ v :: after) m)
    (hstart : ∃ r, Waiting [] start r) (hv : v.DrawsFirst) :
    readyRuns (before ++ v :: after) ++ readyCalls m.agenda = kept before ∧
      ((kept before).map (·.1)).Nodup ∧
      withdrawals (before ++ v :: after) = withdrawals before := by
  obtain ⟨⟨r, hwaiting⟩, ⟨r', hpast⟩, -, hwithdrawn, hkept, -⟩ := h.first_frame hstart hv
  obtain ⟨-, -, hwithdrawals, hruns, -⟩ := h.split.2.past hpast
  refine ⟨?_, hwaiting.nodup.sublist (List.filter_sublist.map _), ?_⟩
  · have hsplit : readyRuns (before ++ v :: after) =
        readyRuns (before ++ [v]) ++ readyRuns after := by
      rw [readyRuns, readyRuns, readyRuns, started, started, started, ← List.filterMap_append,
        List.append_assoc]
      rfl
    rw [hsplit, hwaiting.unstarted_concat, List.nil_append, hruns, hkept]
  · show (before ++ v :: after).flatMap _ = _
    rw [List.flatMap_append, List.flatMap_cons]
    show withdrawals before ++ (v.withdrawn ++ withdrawals after) = _
    rw [hwithdrawn, hwithdrawals]
    exact List.append_nil _

/-- A ready callback starts after the side effects of the first frame. -/
theorem Trail.effects_before_ready {middle : List (Session ω)} {x : Session ω}
    (h : start.Trail (before ++ v :: (middle ++ x :: after)) m)
    (hstart : ∃ r, Waiting [] start r) (hv : v.DrawsFirst) {id : CallbackId}
    {callback : Script ω} {as : List (Activity ω)} (hx : x.agenda = .ready id callback :: as) :
    v.round.Sublist (effectRuns middle) ∧ effectCalls x.agenda = [] := by
  obtain ⟨-, ⟨r', hpast⟩, -, -, -, hround⟩ := h.first_frame hstart hv
  obtain ⟨hmiddle, -⟩ := h.split.2.split
  obtain ⟨⟨r₁, hpast'⟩, -, -, -, heffects⟩ := hmiddle.past hpast
  have hnone : effectCalls x.agenda = [] := by
    rw [hx]
    exact hpast'.readyLast [] (.ready id callback) as hx (by simp [Activity.readyCall?])
  refine ⟨?_, hnone⟩
  rwa [hround, hnone, List.append_nil] at heffects

/-! ## §5. Ready callbacks that come too late -/

/-- A script asks for a ready callback. -/
theorem step_onReady {callback : Script ω} {next : Option CallbackId → Script ω}
    (hr : m.renderer = some r) (hm : m.agenda = .rest (.onReady callback next) :: as) :
    m.step.At (Site.onReady ⟨r, m.queues⟩ callback).2
      (.rest (next (Site.onReady ⟨r, m.queues⟩ callback).1) :: as) := by
  have hpop : ({ m with agenda := as } : Session ω).At ⟨r, m.queues⟩ as := ⟨hr, rfl, rfl⟩
  rw [Session.step, hm]
  show (Session.advance _ _).At _ _
  rw [Session.advance]
  exact hpop.use _

/-- After the first frame, what is asked for is deferred. -/
theorem deferred_ledger_onReady {callback : Script ω} {next : Option CallbackId → Script ω}
    (hr : m.renderer = some r) (hm : m.agenda = .rest (.onReady callback next) :: as)
    (hdone : r.page.completed ≠ 0) :
    m.ledger.deferred = [(⟨m.queues.tickets⟩, .run callback)] := by
  rw [ledger, hm]
  show (Script.enter _ _ _).deferred = _
  rw [Script.enter_call rfl, hr]
  show (Site.onReady ⟨r, Ledger.ofQueues m.queues⟩ callback).2.scheduler.deferred = _
  rw [Site.onReady_of_drawn _ callback hdone]
  rfl

/-- What is deferred on a trail is one that has started, was taken out or waits, and only once. -/
theorem Trail.deferred_once (h : start.Trail ms m) (hstart : start.Fresh) {d : Ticket × Task ω}
    (hd : d ∈ deferrals ms) :
    (startedDeferred ms ++ (takenDeferred m.agenda ++ m.queues.deferred)).filter (·.1 = d.1) =
      [d] := by
  have hbalanced := h.balanced hstart
  refine filter_name_eq (hbalanced.deferred_nodup hstart) ?_
  rw [hbalanced.deferred_eq]
  exact List.mem_append_right _ hd

/-- Once no run of tasks is under way and nothing is deferred, it has started once and is over. -/
theorem Trail.deferred_done (h : start.Trail ms m) (hstart : start.Fresh) {d : Ticket × Task ω}
    (hd : d ∈ deferrals ms) (hidle : ¬ Underway ms m) (hempty : m.queues.deferred = []) :
    (startedDeferred ms).filter (·.1 = d.1) = [d] ∧
      ∃ before x after bs, ms = before ++ x :: after ∧ x.agenda = .deferred d.1 d.2 :: bs ∧
        ∃ y ∈ after ++ [m], y.agenda = bs := by
  have honce := h.deferred_once hstart hd
  rw [hempty, takenDeferred_eq_nil (h.waiting?_of_not_underway hstart hidle), List.nil_append,
    List.append_nil] at honce
  refine ⟨honce, ?_⟩
  have hmem : d ∈ startedDeferred ms := by
    refine List.mem_of_mem_filter (p := (·.1 = d.1)) ?_
    rw [honce]
    exact List.mem_singleton_self d
  obtain ⟨x, hx, hstarted⟩ := List.mem_filterMap.mp hmem
  obtain ⟨before, after, rfl⟩ := List.append_of_mem hx
  obtain ⟨a, ha, hdeferred⟩ := Option.bind_eq_some_iff.mp hstarted
  obtain ⟨bs, hagenda⟩ := List.head?_eq_some_iff.mp ha
  cases a with
  | deferred ticket task =>
    obtain rfl : (ticket, task) = d := Option.some.inj hdeferred
    exact ⟨before, x, after, bs, rfl, hagenda,
      h.over_of_not_underway hstart hidle hagenda (by simp [Activity.waiting?])⟩
  | _ => simp [Activity.deferred?] at hdeferred

/-! ## §6. Once -/

/-- What becomes of the callbacks that scripts ask for, on a trail. -/
structure ReadyOnce (ms : List (Session ω)) (m : Session ω) : Prop where
  /-- Before the first frame the answer is an identifier, and the callback is registered. -/
  early : ∀ v ∈ ms, ∀ callback next as r, v.agenda = .rest (.onReady callback next) :: as →
    v.renderer = some r → r.page.completed = 0 →
      ∃ id, v.registered = [(id, callback)] ∧ v.step.agenda = .rest (next (some id)) :: as
  /-- None starts twice. -/
  nodup : ((readyRuns ms).map (·.1)).Nodup
  /-- One that was withdrawn never starts. -/
  withdrawn : ∀ id ∈ withdrawals ms, ∀ e ∈ readyRuns ms, e.1 ≠ id
  /-- None starts before the first frame. -/
  none_before : ∀ r, m.renderer = some r → r.page.completed = 0 → readyRuns ms = []
  /-- Those that were registered before the first frame and not withdrawn by then start in the
      order of their registration. No later frame makes one due. -/
  first_frame : ∀ before v after, ms = before ++ v :: after → v.DrawsFirst →
    readyRuns ms ++ readyCalls m.agenda = kept before
  /-- They start after the side effects of the first frame, of which none is left by then. -/
  after_effects : ∀ before v middle x after id callback as,
    ms = before ++ v :: (middle ++ x :: after) → v.DrawsFirst →
      x.agenda = .ready id callback :: as →
        v.round.Sublist (effectRuns middle) ∧ effectCalls x.agenda = []
  /-- After the first frame there is no identifier, and the callback is deferred. From then on it
      is one that has started, was taken out or waits, and only once. -/
  late : ∀ v ∈ ms, ∀ callback next as r, v.agenda = .rest (.onReady callback next) :: as →
    v.renderer = some r → r.page.completed ≠ 0 →
      v.step.agenda = .rest (next none) :: as ∧
        v.step.queues.deferred = v.queues.deferred ++ [(⟨v.queues.tickets⟩, .run callback)] ∧
        (startedDeferred ms ++ (takenDeferred m.agenda ++ m.queues.deferred)).filter
          (·.1 = ⟨v.queues.tickets⟩) = [(⟨v.queues.tickets⟩, .run callback)]
  /-- Once no run of tasks is under way and nothing is deferred, it has started once and is over. -/
  late_done : ∀ v ∈ ms, ∀ callback next as r, v.agenda = .rest (.onReady callback next) :: as →
    v.renderer = some r → r.page.completed ≠ 0 → ¬ Underway ms m → m.queues.deferred = [] →
      (startedDeferred ms).filter (·.1 = ⟨v.queues.tickets⟩) =
          [(⟨v.queues.tickets⟩, .run callback)] ∧
        ∃ before x after bs, ms = before ++ x :: after ∧
          x.agenda = .deferred ⟨v.queues.tickets⟩ (.run callback) :: bs ∧
          ∃ y ∈ after ++ [m], y.agenda = bs

/-- **Every ready callback runs once or is withdrawn**, however a mounted view is used, whether its
    target is there or not. -/
theorem ready_callbacks_once {base : Session ω} {o : MountOptions ω} {tree : LiveTree}
    (hbase : base.Fresh) (h : (base.mount o tree).Trail ms m) : ReadyOnce ms m := by
  have hstart := waiting_mount hbase o tree
  have hfresh := hbase.mount o tree
  have hdeferred : ∀ v ∈ ms, ∀ callback next as r, v.agenda = .rest (.onReady callback next) :: as →
      v.renderer = some r → r.page.completed ≠ 0 →
        (⟨v.queues.tickets⟩, .run callback) ∈ deferrals ms := by
    intro v hv callback next as r hagenda hr hdone
    refine List.mem_flatMap.mpr ⟨v, hv, ?_⟩
    rw [deferred_ledger_onReady hr hagenda hdone]
    exact List.mem_singleton_self _
  exact {
    early := by
      intro v hv callback next as r hagenda hr hnone
      refine ⟨⟨r.supply.issued⟩, ?_, ?_⟩
      · rw [registered, upcomingCall?_of_call hr hagenda rfl]
        show Call.registered _ _ = _
        rw [Call.registered, Site.answer_onReady_of_waiting _ callback hnone]
        rfl
      · rw [(step_onReady hr hagenda).agenda_eq, Site.answer_onReady_of_waiting _ callback hnone]
    nodup := by
      rcases h.waiting_or_past hstart with ⟨r, hwaiting⟩ | ⟨before, v, after, r, rfl, -, hv, -⟩
      · rw [hwaiting.unstarted]
        exact List.nodup_nil
      · obtain ⟨hruns, hnodup, -⟩ := h.runs_eq_kept hstart hv
        rw [← hruns, List.map_append] at hnodup
        exact hnodup.of_append_left
    withdrawn := by
      intro id hid e he heq
      rcases h.waiting_or_past hstart with ⟨r, hwaiting⟩ | ⟨before, v, after, r, rfl, -, hv, -⟩
      · rw [hwaiting.unstarted] at he
        cases he
      · obtain ⟨hruns, -, hwithdrawals⟩ := h.runs_eq_kept hstart hv
        have hkept : e ∈ kept before := hruns ▸ List.mem_append_left _ he
        have hnot : e.1 ∉ withdrawals before := by simpa using (List.mem_filter.mp hkept).2
        exact hnot (heq ▸ hwithdrawals ▸ hid)
    none_before := by
      intro r hr hnone
      rcases h.waiting_or_past hstart with ⟨r', hwaiting⟩ | ⟨-, -, -, -, -, -, -, r', hpast⟩
      · exact hwaiting.unstarted
      · obtain rfl := Option.some.inj (hr.symm.trans hpast.renderer_eq)
        exact absurd hnone hpast.completed_ne
    first_frame := by
      rintro before v after rfl hv
      exact (h.runs_eq_kept hstart hv).1
    after_effects := by
      rintro before v middle x after id callback as rfl hv hx
      exact h.effects_before_ready hstart hv hx
    late := by
      intro v hv callback next as r hagenda hr hdone
      have hat := step_onReady hr hagenda
      refine ⟨?_, ?_, h.deferred_once hfresh (hdeferred v hv callback next as r hagenda hr hdone)⟩
      · rw [hat.agenda_eq, Site.answer_onReady_of_drawn _ callback hdone]
      · rw [hat.queues_eq, Site.onReady_of_drawn _ callback hdone]
        rfl
    late_done := by
      intro v hv callback next as r hagenda hr hdone hidle hempty
      exact h.deferred_done hfresh (hdeferred v hv callback next as r hagenda hr hdone) hidle
        hempty }

/-- A script that asks for three ready callbacks, withdraws the second, and asks for another one
    after the first frame. -/
def askAndWithdraw : Script Unit :=
  .onReady .done fun _ => .onReady .done fun second => .onReady .done fun _ => match second with
    | some id => .cancelReady id fun _ => .flush 0 fun _ => .onReady .done fun _ =>
        .runDeferred 0 fun _ => .done
    | none => .done

/-- The target is missing, and the ready callbacks are called all the same. -/
theorem ready_callbacks_once_without_target :
    ∃ (o : MountOptions Unit) (tree : LiveTree) (ms : List (Session Unit)) (m : Session Unit),
      (initial ()).Fresh ∧ ((initial ()).mount o tree).Trail ms m ∧ tree.query? o.target = none ∧
      m.isResting = true ∧ (readyRuns ms).map (·.1) = [⟨0⟩, ⟨2⟩] ∧ withdrawals ms = [⟨1⟩] ∧
      (startedDeferred ms).map (·.1) = [⟨0⟩] ∧ ReadyOnce ms m := by
  have hstart : ((initial ()).mount ⟨"#app", fun _ => pure [], ∅, []⟩ LiveTree.initial).Trail []
    _ := .start
  have hm := (hstart.run askAndWithdraw rfl).iterate 22
  exact ⟨_, _, _, _, fresh_initial (), hm, by decide, by decide, by decide, by decide, by decide,
    ready_callbacks_once (fresh_initial ()) hm⟩

end Session

end ReactiveView
