import ReactiveView.Proofs.Session.SideEffects

/-! # Side effects that are withdrawn

  A frame that ends a batch makes a copy of the registered side effects and
  calls them from it, one after the other. In between, the callbacks that it
  calls may change the registry, so a side effect may be withdrawn while a round
  of calls that holds a copy of it is still under way.

  * `Enrols`: what one step can do to the registry, and which calls it makes
    due. Calls are made due for registered side effects only.
  * `Course`: what a session can come to, whatever its scripts do, and the calls
    of side effects that were made on the way.
  * `calls_after_removal`: once a side effect is withdrawn, the calls of it that
    were due by then are all that are ever made.
-/

namespace ReactiveView

variable {ω : Type}

/-! ## §1. The numbers of side effects -/

namespace Renderer

/-- The side effects are told apart by numbers that were handed out. -/
structure Numbered (r : Renderer ω) : Prop where
  /-- No two side effects have one identifier. -/
  nodup : (r.effects.entries.map (·.1)).Nodup
  /-- Their numbers come from the supply. -/
  issued : ∀ e ∈ r.effects.entries, e.1.serial < r.supply.issued

/-- An identifier that was handed out, and that no side effect has. Nothing will have it again. -/
structure Withdrawn (id : CallbackId) (r : Renderer ω) : Prop where
  /-- It was handed out. -/
  issued : id.serial < r.supply.issued
  /-- No side effect has it. -/
  absent : ∀ e ∈ r.effects.entries, e.1 ≠ id

variable {r : Renderer ω} {id : CallbackId}

theorem Numbered.addEffect (h : r.Numbered) (e : SideEffect ω) : (r.addEffect e).2.Numbered where
  nodup := by
    show ((r.effects.entries ++ [((⟨r.supply.issued⟩ : CallbackId), e)]).map (·.1)).Nodup
    rw [List.map_append]
    refine List.Nodup.append h.nodup (List.nodup_singleton _) ?_
    intro i hi hnew
    obtain rfl := List.mem_singleton.mp hnew
    obtain ⟨x, hx, hxi⟩ := List.mem_map.mp hi
    have hlt := h.issued x hx
    rw [hxi] at hlt
    exact Nat.lt_irrefl _ hlt
  issued := by
    intro x hx
    rcases List.mem_append.mp hx with hx | hx
    · exact Nat.lt_succ_of_lt (h.issued x hx)
    · obtain rfl := List.mem_singleton.mp hx
      exact Nat.lt_succ_self _

theorem Numbered.removeEffect (h : r.Numbered) (id : CallbackId) :
    (r.removeEffect id).2.Numbered where
  nodup := h.nodup.sublist (List.eraseP_sublist.map _)
  issued := fun x hx => h.issued x (List.mem_of_mem_eraseP hx)

/-- What was withdrawn is gone: no second side effect had its identifier. -/
theorem Numbered.withdrawn_removeEffect (h : r.Numbered) (hfound : (r.removeEffect id).1 = true) :
    (r.removeEffect id).2.Withdrawn id := by
  obtain ⟨e, hfind⟩ := Option.isSome_iff_exists.mp hfound
  obtain ⟨x, hx, -⟩ := Option.map_eq_some_iff.mp hfind
  have hid : x.1 = id := by simpa using List.find?_some hx
  refine ⟨hid ▸ h.issued x (List.mem_of_find?_eq_some hx), ?_⟩
  have hkeys : ∀ entries : List (CallbackId × SideEffect ω), (entries.map (·.1)).Nodup →
      ∀ y ∈ entries.eraseP (·.1 = id), y.1 ≠ id := by
    intro entries hnodup
    induction entries with
    | nil => simp
    | cons z entries ih =>
      obtain ⟨hz, hnodup⟩ := List.nodup_cons.mp hnodup
      by_cases hzid : z.1 = id
      · -- The rest has other identifiers than the entry that goes.
        rw [List.eraseP_cons_of_pos (by simpa using hzid)]
        intro y hy hyid
        exact hz (List.mem_map.mpr ⟨y, hy, hyid.trans hzid.symm⟩)
      · rw [List.eraseP_cons_of_neg (by simpa using hzid)]
        intro y hy
        rcases List.mem_cons.mp hy with rfl | hy
        · exact hzid
        · exact ih hnodup y hy
  exact hkeys _ h.nodup

theorem Withdrawn.addEffect (h : r.Withdrawn id) (e : SideEffect ω) :
    (r.addEffect e).2.Withdrawn id := by
  refine ⟨Nat.lt_succ_of_lt h.issued, ?_⟩
  intro x hx
  rcases List.mem_append.mp hx with hx | hx
  · exact h.absent x hx
  · obtain rfl := List.mem_singleton.mp hx
    intro hid
    exact Nat.lt_irrefl _ (hid ▸ h.issued)

theorem Withdrawn.removeEffect (h : r.Withdrawn id) (other : CallbackId) :
    (r.removeEffect other).2.Withdrawn id :=
  ⟨h.issued, fun x hx => h.absent x (List.mem_of_mem_eraseP hx)⟩

end Renderer

/-! ## §2. What a step does to the side effects -/

/-- What one step can do to the side effects of a renderer, and which calls of them come with what
    it puts on the agenda. -/
inductive Enrols (r r' : Renderer ω) (new : List (Activity ω)) : Prop where
  /-- They stay, and calls become due for some of them. Ready callbacks may take numbers. -/
  | keep (heffects : r'.effects = r.effects) (hsupply : r.supply.issued ≤ r'.supply.issued)
      (hdue : ∀ c ∈ effectCalls new, (c.id, c.effect) ∈ r.effects.entries)
  /-- One is added. -/
  | add (e : SideEffect ω) (hr : r' = (r.addEffect e).2) (hdue : effectCalls new = [])
  /-- One is withdrawn. -/
  | remove (id : CallbackId) (hr : r' = (r.removeEffect id).2) (hdue : effectCalls new = [])

namespace Enrols

open Renderer

variable {r r' : Renderer ω} {new : List (Activity ω)} {id : CallbackId}

/-- A step that has nothing to do with side effects. -/
theorem of_quiet (heffects : r'.effects = r.effects) (hsupply : r'.supply = r.supply)
    (hdue : effectCalls new = []) : Enrols r r' new := by
  refine .keep heffects (le_of_eq (congrArg (·.issued) hsupply.symm)) ?_
  rw [hdue]
  simp

theorem numbered (h : Enrols r r' new) (hr : r.Numbered) : r'.Numbered := by
  cases h with
  | keep heffects hsupply hdue =>
    refine ⟨heffects ▸ hr.nodup, ?_⟩
    intro e he
    exact Nat.lt_of_lt_of_le (hr.issued e (heffects ▸ he)) hsupply
  | add e heq hdue => exact heq ▸ hr.addEffect e
  | remove id heq hdue => exact heq ▸ hr.removeEffect id

/-- What was withdrawn stays so, and no call of it becomes due. -/
theorem withdrawn (h : Enrols r r' new) (hr : r.Withdrawn id) :
    r'.Withdrawn id ∧ ∀ c ∈ effectCalls new, c.id ≠ id := by
  cases h with
  | keep heffects hsupply hdue =>
    refine ⟨⟨Nat.lt_of_lt_of_le hr.issued hsupply, ?_⟩, fun c hc => hr.absent _ (hdue c hc)⟩
    intro e he
    exact hr.absent e (heffects ▸ he)
  | add e heq hdue => exact ⟨heq ▸ hr.addEffect e, by simp [hdue]⟩
  | remove other heq hdue => exact ⟨heq ▸ hr.removeEffect other, by simp [hdue]⟩

end Enrols

/-! ## §3. Calls and tasks -/

section operations

variable {r : Renderer ω} {p p' : Site (Queues (Task ω)) ω} {a : Activity ω}
  {as new : List (Activity ω)}

/-- A frame keeps the side effects, and makes a call of each of them due or none. -/
theorem Renderer.enrols_perform {r₀ : Renderer ω} (heffects : r.effects = r₀.effects)
    (hsupply : r.supply = r₀.supply) :
    Enrols r₀ r.perform.result.renderer r.perform.result.due := by
  obtain ⟨t, ht⟩ := r.perform_eq_settled
  rw [ht]
  refine .keep heffects (le_of_eq (congrArg (·.issued) hsupply.symm)) ?_
  intro c hc
  rw [effectCalls_due] at hc
  unfold History.round at hc
  split at hc
  · cases hc
  · obtain ⟨e, he, rfl⟩ := List.mem_map.mp hc
    exact heffects ▸ he

theorem Site.enrolment_openBatch (p : Site (Queues (Task ω)) ω) :
    p.openBatch.renderer.effects = p.renderer.effects ∧
      p.openBatch.renderer.supply = p.renderer.supply := by
  unfold openBatch
  split <;> exact ⟨rfl, rfl⟩

theorem Call.enrols (c : Call ω) : Enrols p.renderer (c.perform p).renderer (c.due p) := by
  cases c with
  | setState u =>
    have hsame : (p.setState u).renderer.effects = p.renderer.effects ∧
        (p.setState u).renderer.supply = p.renderer.supply := by
      by_cases hu : Store.written u > 0
      · rw [p.setState_of_written hu]
        exact Site.enrolment_openBatch _
      · rw [p.setState_of_not_written hu]
        exact ⟨rfl, rfl⟩
    exact .of_quiet hsame.1 hsame.2 rfl
  | write key v =>
    have hsame := Site.enrolment_openBatch
      (p.onRenderer fun r => r.withStore (r.page.store.write key v))
    exact .of_quiet hsame.1 hsame.2 rfl
  | remove key => exact .of_quiet rfl rfl rfl
  | replace entries => exact .of_quiet rfl rfl rfl
  | render => exact Renderer.enrols_perform rfl rfl
  | onReady callback =>
    by_cases hdone : p.renderer.page.completed = 0
    · rw [Call.perform, p.onReady_of_waiting callback hdone]
      exact .keep rfl (Nat.le_succ _) (by simp [due, effectCalls])
    · rw [Call.perform, p.onReady_of_drawn callback hdone]
      exact .of_quiet rfl rfl rfl
  | cancelReady id => exact .of_quiet rfl rfl rfl
  | addEffect effect => exact .add effect rfl rfl
  | removeEffect id => exact .remove id rfl rfl

theorem Task.enrols (t : Task ω) : Enrols p.renderer (t.perform p).renderer (t.due p) := by
  cases t with
  | run s => exact .of_quiet rfl rfl rfl
  | closeBatch => exact .of_quiet rfl rfl rfl
  | frame g =>
    by_cases hg : g = p.renderer.generation
    · rw [Task.perform, Task.due, hg, p.runFrame_generation]
      exact Renderer.enrols_perform rfl rfl
    · rw [Task.perform, Task.due, p.runFrame_of_ne hg]
      exact .of_quiet rfl rfl rfl

/-- What follows in a script is no call of a side effect. -/
theorem Enrols.and_rest {r' : Renderer ω} (h : Enrols r r' new) (s : Script ω) :
    Enrols r r' (new ++ [.rest s]) := by
  have hsame : effectCalls (new ++ [.rest s]) = effectCalls new := by
    rw [effectCalls_append]
    exact List.append_nil _
  cases h with
  | keep heffects hsupply hdue => exact .keep heffects hsupply (hsame.symm ▸ hdue)
  | add e hr hdue => exact .add e hr (hsame.trans hdue)
  | remove id hr hdue => exact .remove id hr (hsame.trans hdue)

/-- **Every turn** enrols and withdraws as `Enrols` says. -/
theorem Turn.enrols (h : Turn p a new p') : Enrols p.renderer p'.renderer new := by
  cases h with
  | @call s next c => exact c.enrols.and_rest next
  | alone h => exact .of_quiet rfl rfl (effectCalls_eq_nil h.isOwed_eq_false)
  | @task _ w => exact w.task.enrols
  | _ => exact .of_quiet rfl rfl rfl

end operations

/-! ## §4. Courses -/

namespace Session

/-- The call of a side effect that the next step makes, if it makes one. -/
def nextCall? (m : Session ω) : Option (EffectCall ω) := m.agenda.head?.bind Activity.effectCall?

/-- What a session can come to, and the calls of side effects that are made on the way, first to
    last. Any script may be started at any time. -/
def Course (start : Session ω) (made : List (EffectCall ω)) (m : Session ω) : Prop :=
  ∃ ms, Passage run step (fun _ _ => True) (fun _ => True) start ms m ∧
    made = ms.flatMap (·.nextCall?.toList)

variable {base m m' : Session ω} {made : List (EffectCall ω)} {id : CallbackId} {r : Renderer ω}

theorem Course.start : base.Course [] base := ⟨[], .start, rfl⟩

theorem Course.run (h : base.Course made m) (s : Script ω) : base.Course made (m.run s) := by
  obtain ⟨ms, h, rfl⟩ := h
  exact ⟨ms, h.run s trivial, rfl⟩

theorem Course.iterate (h : base.Course made m) (k : Nat) :
    base.Course (made ++ (List.range k).flatMap fun i => (Session.step^[i] m).nextCall?.toList)
      (Session.step^[k] m) := by
  obtain ⟨ms, h, rfl⟩ := h
  exact ⟨_, h.iterate k fun _ _ => trivial, by rw [List.flatMap_append, List.flatMap_map]⟩

variable {start : Session ω}

/-- One step: what it makes comes off the agenda, and what becomes due goes onto it. -/
theorem step_enrols (hr : m.renderer = some r) :
    ∃ r' new, m.step.renderer = some r' ∧ Enrols r r' new ∧
      ∃ before, effectCalls m.agenda = m.nextCall?.toList ++ before ∧
        effectCalls m.step.agenda = effectCalls new ++ before := by
  rcases step_cases hr with ⟨hm, hself⟩ | ⟨a, as, new, p', hm, hturn, hat⟩
  · refine ⟨r, [], by rw [hself, hr], .of_quiet rfl rfl rfl, [], ?_, ?_⟩
    · rw [nextCall?, hm]
      rfl
    · rw [hself, hm]
      rfl
  · refine ⟨p'.renderer, new, hat.renderer_eq, hturn.enrols, effectCalls as, ?_, ?_⟩
    · rw [nextCall?, hm]
      show List.filterMap _ (a :: as) = (Activity.effectCall? a).toList ++ _
      cases ha : a.effectCall? with
      | none => rw [List.filterMap_cons_none ha]; rfl
      | some c => rw [List.filterMap_cons_some ha]; rfl
    · rw [hat.agenda_eq, effectCalls_append]

theorem Course.numbered (h : start.Course made m)
    (hstart : ∃ r, start.renderer = some r ∧ r.Numbered) :
    ∃ r, m.renderer = some r ∧ r.Numbered := by
  obtain ⟨ms, h, -⟩ := h
  refine h.invariant (P := fun m : Session ω => ∃ r, m.renderer = some r ∧ r.Numbered) hstart
    (fun _ _ _ h => h) ?_
  rintro m - ⟨r, hr, hnumbered⟩
  obtain ⟨r', new, hr', henrols, -⟩ := step_enrols hr
  exact ⟨r', hr', henrols.numbered hnumbered⟩

theorem numbered_mount (m : Session ω) (o : MountOptions ω) (tree : LiveTree) :
    ∃ r, (m.mount o tree).renderer = some r ∧ r.Numbered := by
  have hadd : ∀ (es : List (SideEffect ω)) (r : Renderer ω), r.Numbered →
      (es.foldl (fun r e => (r.addEffect e).2) r).Numbered := by
    intro es
    induction es with
    | nil => exact fun r hr => hr
    | cons e es ih => exact fun r hr => ih _ (hr.addEffect e)
  have hbare : (o.bare tree).Numbered := hadd _ _ ⟨List.nodup_nil, fun e he => by cases he⟩
  refine ⟨_, rfl, ?_⟩
  rw [o.result_mount]
  exact ⟨hbare.nodup, hbare.issued⟩

/-- From when a side effect is withdrawn, calls of it are made but become due no more. -/
theorem Course.calls_of_withdrawn (h : start.Course made m)
    (hstart : ∃ r, start.renderer = some r ∧ r.Withdrawn id) :
    (∃ r, m.renderer = some r ∧ r.Withdrawn id) ∧
      made.filter (·.id = id) ++ (effectCalls m.agenda).filter (·.id = id) =
        (effectCalls start.agenda).filter (·.id = id) := by
  obtain ⟨ms, h, rfl⟩ := h
  induction h with
  | start => exact ⟨hstart, rfl⟩
  | run s _ _ ih => exact ih
  | @step ms m _ _ ih =>
    obtain ⟨⟨r, hr, hwithdrawn⟩, hcalls⟩ := ih
    obtain ⟨r', new, hr', henrols, before, hbefore, hafter⟩ := step_enrols hr
    obtain ⟨hwithdrawn', hdue⟩ := henrols.withdrawn hwithdrawn
    refine ⟨⟨r', hr', hwithdrawn'⟩, ?_⟩
    have hnone : (effectCalls new).filter (·.id = id) = [] := by
      rw [List.filter_eq_nil_iff]
      intro c hc
      simpa using hdue c hc
    rw [List.flatMap_append, List.flatMap_singleton, ← hcalls, hbefore, hafter,
      List.filter_append, List.filter_append, List.filter_append, hnone, List.nil_append,
      List.append_assoc]

/-! ## §5. Calls after a removal -/

/-- **Calls of a side effect that was withdrawn**, however a mounted view is used.

    A script withdraws a side effect that is there. From then on the calls of it, together with
    those that are still to be made, are the calls of it that were on the agenda at the removal,
    in their order: those that the rounds of calls which were under way had not come to. A round
    that begins later has none, and outside of any round it is never called again. -/
theorem calls_after_removal {o : MountOptions ω} {tree : LiveTree} {next : Bool → Script ω}
    {as : List (Activity ω)} {before after : List (EffectCall ω)}
    (hm : (start.mount o tree).Course before m)
    (hnext : m.agenda = .rest (.removeEffect id next) :: as) (hr : m.renderer = some r)
    (hfound : (r.removeEffect id).1 = true) (hafter : m.step.Course after m') :
    after.filter (·.id = id) ++ (effectCalls m'.agenda).filter (·.id = id) =
        (effectCalls as).filter (·.id = id) ∧
      ((∀ c ∈ effectCalls as, c.id ≠ id) → ∀ c ∈ after, c.id ≠ id) := by
  obtain ⟨r', hr', hnumbered⟩ := hm.numbered (numbered_mount start o tree)
  obtain rfl : r = r' := Option.some.inj (hr.symm.trans hr')
  have hstep : m.step.At ⟨(r.removeEffect id).2, m.queues⟩
      ([.rest (next (r.removeEffect id).1)] ++ as) := by
    have hpop : ({ m with agenda := as } : Session ω).At ⟨r, m.queues⟩ as := ⟨hr, rfl, rfl⟩
    rw [Session.step, hnext]
    show (Session.advance { m with agenda := as } _).At _ _
    rw [Session.advance]
    exact hpop.use _
  have hcalls := (hafter.calls_of_withdrawn
    ⟨_, hstep.renderer_eq, hnumbered.withdrawn_removeEffect hfound⟩).2
  rw [hstep.agenda_eq] at hcalls
  refine ⟨hcalls, ?_⟩
  intro hnone c hc hid
  have hnil : (effectCalls as).filter (·.id = id) = [] := by
    rw [List.filter_eq_nil_iff]
    intro c hc
    simpa using hnone c hc
  have hmade : c ∈ after.filter (·.id = id) := List.mem_filter.mpr ⟨hc, by simpa using hid⟩
  rw [(List.append_eq_nil_iff.mp (hcalls.trans hnil)).1] at hmade
  cases hmade

/-- A view that shows nothing. -/
def blankView (world : ω) : Session ω :=
  (Session.initial world).mount ⟨"#app", fun _ => pure [], ∅, []⟩
    (LiveTree.initial.createMountPoint "app").2

theorem removeEffect_of_answer (hr : m.renderer = some r)
    (h : m.renderer.map (fun r => (r.removeEffect id).1) = some true) :
    (r.removeEffect id).1 = true := by
  rw [hr] at h
  exact Option.some.inj h

/-- A side effect that was told one batch is withdrawn, and is told the next one no more. -/
theorem calls_after_removal_between_batches :
    ∃ before m r after m', (blankView ()).Course before m ∧
      m.agenda = .rest (.removeEffect ⟨0⟩ fun _ => .write "key" .null (.flush 0 fun _ => .done)) ::
        [] ∧ m.renderer = some r ∧ (r.removeEffect ⟨0⟩).1 = true ∧ m.step.Course after m' ∧
      before.map (·.id) = [⟨0⟩] ∧ m'.isResting = true ∧ m'.queues.isEmpty = true ∧
      after.filter (·.id = ⟨0⟩) ++ (effectCalls m'.agenda).filter (·.id = ⟨0⟩) = [] ∧
      ∀ c ∈ after, c.id ≠ ⟨0⟩ := by
  have hstart : (blankView ()).Course [] _ := .start
  have hm := (hstart.run (.addEffect (fun _ _ => .done) fun id => .write "key" .null
    (.flush 0 fun _ => .removeEffect id fun _ =>
      .write "key" .null (.flush 0 fun _ => .done)))).iterate 13
  obtain ⟨r, hr, -⟩ := hm.numbered (numbered_mount _ _ _)
  have hfound : (r.removeEffect ⟨0⟩).1 = true := removeEffect_of_answer hr (by decide)
  obtain ⟨hcalls, hnone⟩ := calls_after_removal hm rfl hr hfound (Course.start.iterate 11)
  exact ⟨_, _, r, _, _, hm, rfl, hr, hfound, Course.start.iterate 11, by decide, by decide,
    by decide, hcalls, hnone (by decide)⟩

/-- A side effect withdraws the one that is called after it, whose identifier the embedder kept,
    and is told that it was there. The other one is called all the same, from the copy of the round
    that is under way. -/
theorem called_after_removal :
    ∃ before m as r after m', (blankView (none : Option CallbackId)).Course before m ∧
      m.agenda = .rest (.removeEffect ⟨1⟩ fun _ => .done) :: as ∧ m.renderer = some r ∧
      (r.removeEffect ⟨1⟩).1 = true ∧ m.step.Course after m' ∧ ∃ c ∈ after, c.id = ⟨1⟩ := by
  have hstart : (blankView (none : Option CallbackId)).Course [] _ := .start
  have hm := (hstart.run (.addEffect
      (fun _ _ => .world (fun kept => kept) fun kept => match kept with
        | none => .done
        | some other => .removeEffect other fun _ => .done) fun _ =>
    .addEffect (fun _ _ => .done) fun other => .world (fun _ => some other) fun _ =>
    .write "key" .null (.flush 0 fun _ => .done))).iterate 12
  obtain ⟨r, hr, -⟩ := hm.numbered (numbered_mount _ _ _)
  exact ⟨_, _, _, r, _, _, hm, rfl, hr, removeEffect_of_answer hr (by decide),
    Course.start.iterate 2, by decide⟩

end Session

end ReactiveView
