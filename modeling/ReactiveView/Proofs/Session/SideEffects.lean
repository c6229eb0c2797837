import ReactiveView.Proofs.Session.Runs

/-! # Side effects are told every batch once

  A batch is what is written between two frames. The frame that ends it calls
  every side effect once, with the store before the first write of the batch and
  the store that the frame was drawn from.

  Side effects are called after the frame, and they may themselves write, draw
  and add or withdraw side effects. To say which call belongs to which frame, a
  session is watched while it runs (`Watched`):

  * the history records writes, removals, frames and calls of side effects;
  * every activity on the agenda is stamped with the number of frames drawn when
    it was put there, so a call is known to come from the frame of its stamp.

  `History.due` is the round of calls that a frame owes, as the history has it.
  `every_batch_told_once` says that the calls made on behalf of a frame,
  together with those still on the agenda, are this round.
-/

namespace ReactiveView

variable {ω : Type}

/-! ## §1. Histories -/

/-- A call of a side effect. -/
structure EffectCall (ω : Type) where
  /-- The identifier of the side effect. -/
  id : CallbackId
  /-- The side effect. -/
  effect : SideEffect ω
  /-- The store before the batch, as it is told. -/
  previous : Snapshot
  /-- The store after the batch, as it is told. -/
  current : Snapshot

/-- What happens to a view, as far as its side effects are concerned. -/
inductive Happening (ω : Type) where
  /-- An entry is written, or several are in one update. The store was like this before. -/
  | wrote (before : Snapshot)
  /-- An entry is removed. -/
  | removed
  /-- A frame is drawn from a store, and these side effects are registered. -/
  | drew (rendered : Snapshot) (registered : List (CallbackId × SideEffect ω))
  /-- A side effect is called on behalf of a frame; frames are counted from one. -/
  | called (frame : Nat) (call : EffectCall ω)

/-- What happened, latest first. -/
abbrev History (ω : Type) := List (Happening ω)

namespace History

/-- How many frames were drawn. -/
def frames : History ω → Nat
  | [] => 0
  | .drew _ _ :: h => frames h + 1
  | _ :: h => frames h

/-- The store before the first write since the latest frame, if anything was written since. -/
def batchStart : History ω → Option Snapshot
  | [] => none
  | .drew _ _ :: _ => none
  | .wrote before :: h => (batchStart h).or (some before)
  | _ :: h => batchStart h

/-- The calls that are due to registered side effects after a batch. No batch makes none due. -/
def round (start : Option Snapshot) (rendered : Snapshot)
    (registered : List (CallbackId × SideEffect ω)) : List (EffectCall ω) :=
  match start with
  | none => []
  | some before => registered.map fun e => ⟨e.1, e.2, before, rendered⟩

/-- The calls that the frame of a number owes. -/
def due (n : Nat) : History ω → List (EffectCall ω)
  | [] => []
  | .drew rendered registered :: h =>
    if frames h + 1 = n then round (batchStart h) rendered registered else due n h
  | _ :: h => due n h

/-- The calls made on behalf of the frame of a number, first to last. -/
def calls (n : Nat) : History ω → List (EffectCall ω)
  | [] => []
  | .called k c :: h => calls n h ++ if k = n then [c] else []
  | _ :: h => calls n h

/-- The store that the latest round was told to be the current one, unless an entry was removed
    since. -/
def lastTold : History ω → Option Snapshot
  | [] => none
  | .removed :: _ => none
  | .drew rendered _ :: h => if (batchStart h).isSome then some rendered else lastTold h
  | _ :: h => lastTold h

/-- Each round takes up where the round before it ended, unless an entry was removed in between. -/
def Chained (h : History ω) : Prop :=
  ∀ rendered registered earlier, Happening.drew rendered registered :: earlier <:+ h →
    ∀ before told, batchStart earlier = some before → lastTold earlier = some told → before = told

variable {h : History ω} {n : Nat}

/-- No frame owes anything before it is drawn. -/
theorem due_eq_nil (hn : frames h < n) : due n h = [] := by
  induction h with
  | nil => rfl
  | cons x h ih =>
    cases x with
    | drew rendered registered =>
      have hlt : frames h + 1 < n := hn
      rw [due, if_neg (by omega)]
      exact ih (by omega)
    | wrote before => exact ih hn
    | removed => exact ih hn
    | called k c => exact ih hn

theorem Chained.cons {x : Happening ω} (hc : Chained h)
    (hx : ∀ rendered registered, x = .drew rendered registered →
      ∀ before told, batchStart h = some before → lastTold h = some told → before = told) :
    Chained (x :: h) := by
  intro rendered registered earlier hsuffix
  rcases List.suffix_cons_iff.mp hsuffix with heq | hsuffix
  · obtain ⟨rfl, rfl⟩ := List.cons.inj heq
    exact hx rendered registered rfl
  · exact hc rendered registered earlier hsuffix

end History

/-! ## §2. Watching a session -/

/-- What a call writes or removes, given the store before it. -/
def Call.tells (before : Snapshot) : Call ω → Option (Happening ω)
  | setState u => if Store.written u > 0 then some (.wrote before) else none
  | write _ _ => some (.wrote before)
  | remove _ => some .removed
  | _ => none

/-- The call of a side effect that an activity is. -/
def Activity.effectCall? : Activity ω → Option (EffectCall ω)
  | effect id previous current e => some ⟨id, e, previous, current⟩
  | _ => none

/-- What the start of an activity with a stamp tells, unless it draws a frame. -/
def Activity.tells (stamp : Nat) (before : Snapshot) : Activity ω → Option (Happening ω)
  | rest s => s.call?.bind fun c => c.tells before
  | a => a.effectCall?.map fun c => .called stamp c

/-- What happens when an activity with a stamp makes one renderer of another. -/
def happening (stamp : Nat) (a : Activity ω) (r r' : Renderer ω) : Option (Happening ω) :=
  if r'.page.completed ≠ r.page.completed then
    some (.drew r.page.store.entries r.effects.entries)
  else a.tells stamp r.page.store.entries

/-- A session that is watched. -/
structure Watched (ω : Type) where
  /-- The session. -/
  session : Session ω
  /-- For each activity on the agenda, how many frames had been drawn when it was put there. -/
  stamps : List Nat
  /-- What happened so far. -/
  history : History ω

namespace Watched

/-- The number of frames drawn so far. -/
def drawn (m : Session ω) : Nat := (m.renderer.map (·.page.completed)).getD 0

/-- A session in which nothing happened so far and nothing runs. -/
def watch (m : Session ω) : Watched ω := ⟨m, [], []⟩

/-- Starts a script. -/
def run (w : Watched ω) (s : Script ω) : Watched ω :=
  { w with session := w.session.run s, stamps := drawn w.session :: w.stamps }

/-- What happens in the next step. -/
def upcoming (w : Watched ω) : Option (Happening ω) :=
  match w.session.agenda, w.session.renderer, w.session.step.renderer with
  | a :: _, some r, some r' => happening (w.stamps.headD 0) a r r'
  | _, _, _ => none

/-- Takes the next step. -/
def step (w : Watched ω) : Watched ω where
  session := w.session.step
  stamps :=
    List.replicate (w.session.step.agenda.length - w.session.agenda.tail.length)
      (drawn w.session.step) ++ w.stamps.tail
  history := w.upcoming.toList ++ w.history

/-- The calls on behalf of the frame of a number that are still to be made, first to last. -/
def awaited (n : Nat) (w : Watched ω) : List (EffectCall ω) :=
  (w.stamps.zip w.session.agenda).filterMap fun x => if x.1 = n then x.2.effectCall? else none

variable {base m : Session ω} {w : Watched ω}

/-- What is watched when scripts that leave the live tree alone are started at any time, and steps
    are taken. -/
def Reachable (start : Session ω) (w : Watched ω) : Prop :=
  ∃ ws, Passage Watched.run Watched.step (fun _ s => s.Confined) (fun _ => True) (watch start) ws w

theorem Reachable.start : Reachable base (watch base) := ⟨[], .start⟩

theorem Reachable.run (s : Script ω) (hs : s.Confined) (h : Reachable base w) :
    Reachable base (w.run s) := by
  obtain ⟨ws, h⟩ := h
  exact ⟨ws, h.run s hs⟩

theorem Reachable.iterate (h : Reachable base w) (k : Nat) :
    Reachable base (Watched.step^[k] w) := by
  obtain ⟨ws, h⟩ := h
  exact ⟨_, h.iterate k fun _ _ => trivial⟩

theorem Reachable.session (h : Reachable base w) : base.Reachable w.session := by
  obtain ⟨ws, h⟩ := h
  exact ⟨_, h.map Watched.session (fun _ _ => rfl) (fun _ => rfl) (fun _ _ hs => hs) fun _ hx => hx⟩

/-- Watching a session does not keep it from anything. -/
theorem exists_of_reachable (h : base.Reachable m) : ∃ w, Reachable base w ∧ w.session = m := by
  obtain ⟨ms, h⟩ := h
  obtain ⟨ws, w, hw, heq⟩ : ∃ ws w, Passage Watched.run Watched.step (fun _ s => s.Confined)
      (fun _ => True) (watch base) ws w ∧ w.session = m :=
    h.lift Watched.session rfl (fun _ _ => rfl) (fun _ => rfl) (fun _ _ hs => hs) fun _ hx => hx
  exact ⟨w, ⟨ws, hw⟩, heq⟩

end Watched

/-! ## §3. What each step tells -/

/-- The calls of side effects among activities. -/
def effectCalls (as : List (Activity ω)) : List (EffectCall ω) := as.filterMap Activity.effectCall?

/-- What a step does to the store, which call it makes and which calls it makes due, by what it
    tells. -/
inductive Tells (stamp : Nat) (r r' : Renderer ω) (a : Activity ω) (new : List (Activity ω)) :
    Option (Happening ω) → Prop where
  /-- Nothing that matters. -/
  | quiet (hstore : r'.page.store = r.page.store)
      (hcompleted : r'.page.completed = r.page.completed) (ha : a.effectCall? = none)
      (hnew : effectCalls new = []) : Tells stamp r r' a new none
  /-- A write keeps the store from before, unless the batch has one. -/
  | wrote (hpending : r'.page.store.pending =
        r.page.store.pending.or (some r.page.store.entries))
      (hcompleted : r'.page.completed = r.page.completed) (ha : a.effectCall? = none)
      (hnew : effectCalls new = []) :
      Tells stamp r r' a new (some (.wrote r.page.store.entries))
  /-- A removal leaves the store from before the batch alone. -/
  | removed (hpending : r'.page.store.pending = r.page.store.pending)
      (hcompleted : r'.page.completed = r.page.completed) (ha : a.effectCall? = none)
      (hnew : effectCalls new = []) : Tells stamp r r' a new (some .removed)
  /-- A side effect is called. -/
  | called {c : EffectCall ω} (hstore : r'.page.store = r.page.store)
      (hcompleted : r'.page.completed = r.page.completed) (ha : a.effectCall? = some c)
      (hnew : effectCalls new = []) : Tells stamp r r' a new (some (.called stamp c))
  /-- A frame ends the batch and makes its round due. -/
  | drew (hpending : r'.page.store.pending = none)
      (hentries : r'.page.store.entries = r.page.store.entries)
      (hcompleted : r'.page.completed = r.page.completed + 1) (ha : a.effectCall? = none)
      (hnew : effectCalls new =
        History.round r.page.store.pending r.page.store.entries r.effects.entries) :
      Tells stamp r r' a new (some (.drew r.page.store.entries r.effects.entries))

theorem effectCalls_append (as bs : List (Activity ω)) :
    effectCalls (as ++ bs) = effectCalls as ++ effectCalls bs := List.filterMap_append

/-- Only what a frame owes is a call of a side effect. -/
theorem effectCalls_eq_nil {as : List (Activity ω)} (h : ∀ a ∈ as, a.isOwed = false) :
    effectCalls as = [] := by
  refine List.filterMap_eq_nil_iff.mpr fun a ha => ?_
  have hnot := h a ha
  cases a <;> simp [Activity.isOwed] at hnot <;> rfl

theorem Store.pending_writeAll {s : Store} {es : List (String × Option Value)}
    (h : es.filter (·.2.isSome) ≠ []) :
    (s.writeAll es).pending = s.pending.or (some s.entries) := by
  -- Once there is a snapshot, further writes do not change it.
  have hkeep : ∀ (es : List (String × Option Value)) (s : Store) (before : Snapshot),
      s.pending = some before → (s.writeAll es).pending = some before := by
    intro es
    induction es with
    | nil => exact fun s before hs => hs
    | cons e es ih =>
      intro s before hs
      obtain ⟨key, v⟩ := e
      cases v with
      | none => exact ih s before hs
      | some v => exact ih (s.write key v) before (by rw [pending_write, hs]; rfl)
  induction es with
  | nil => exact absurd rfl h
  | cons e es ih =>
    obtain ⟨key, v⟩ := e
    cases v with
    | none => exact ih (by simpa using h)
    | some v =>
      cases hs : s.pending with
      | none => exact hkeep es (s.write key v) s.entries (by rw [pending_write, hs]; rfl)
      | some before => exact hkeep es (s.write key v) before (by rw [pending_write, hs]; rfl)

theorem Store.pending_setState {s : Store} {u : Update} (h : Store.written u > 0) :
    (s.setState u).pending = s.pending.or (some s.entries) := by
  refine pending_writeAll ?_
  intro hnil
  simp [written, hnil] at h

theorem Renderer.effectCalls_due (r : Renderer ω) :
    effectCalls r.perform.result.due =
      History.round r.page.store.pending r.page.store.entries r.effects.entries := by
  obtain ⟨t, ht⟩ := r.draw_eq_withTree
  have hdue : r.perform.result.due = (r.withTree t).dueEffects ++ (r.withTree t).dueReady := by
    rw [← ht]
    rfl
  have hready : effectCalls (r.withTree t).dueReady = [] := by
    unfold dueReady
    split
    · refine List.filterMap_eq_nil_iff.mpr ?_
      intro a ha
      obtain ⟨e, -, rfl⟩ := List.mem_map.mp ha
      rfl
    · rfl
  have heffects : effectCalls (r.withTree t).dueEffects =
      History.round r.page.store.pending r.page.store.entries r.effects.entries := by
    show effectCalls (match r.page.store.pending with
      | none => []
      | some previous => r.effects.entries.map fun e =>
        Activity.effect e.1 previous r.page.store.entries e.2) = _
    cases r.page.store.pending with
    | none => rfl
    | some before =>
      show (r.effects.entries.map _).filterMap Activity.effectCall? = r.effects.entries.map _
      rw [List.filterMap_map]
      exact congrFun List.filterMap_eq_map' _
  rw [hdue, effectCalls_append, hready, heffects, List.append_nil]

theorem Renderer.pending_perform (r : Renderer ω) :
    r.perform.result.renderer.page.store.pending = none := by
  obtain ⟨t, ht⟩ := r.perform_eq_settled
  rw [ht]
  rfl

/-- A frame tells that it was drawn. -/
theorem Renderer.tells_perform (stamp : Nat) {r r₀ : Renderer ω} {a : Activity ω}
    {after : List (Activity ω)} (hr : r.content = r₀.content) (ha : a.effectCall? = none)
    (hafter : effectCalls after = []) :
    Tells stamp r₀ r.perform.result.renderer a (r.perform.result.due ++ after)
      (happening stamp a r₀ r.perform.result.renderer) := by
  obtain ⟨hpage, -, heffects, -⟩ := content_eq_iff.mp hr
  obtain ⟨t, ht⟩ := r.perform_eq_settled
  have hcompleted : r.perform.result.renderer.page.completed = r₀.page.completed + 1 := by
    rw [completed_perform, hpage]
  rw [happening, if_pos (by omega)]
  refine .drew r.pending_perform ?_ hcompleted ha ?_
  · rw [ht, ← hpage]
    rfl
  · rw [effectCalls_append, hafter, List.append_nil, effectCalls_due, hpage, heffects]

section turns

variable {stamp : Nat} {p p' : Site (Queues (Task ω)) ω} {a : Activity ω}
  {new : List (Activity ω)}

/-- Steps that change neither the store nor the number of frames, and are no call. -/
theorem tells_of_page_eq (hpage : p'.renderer.page = p.renderer.page)
    (ha : a.tells stamp p.renderer.page.store.entries = none) (hcall : a.effectCall? = none)
    (hnew : effectCalls new = []) :
    Tells stamp p.renderer p'.renderer a new (happening stamp a p.renderer p'.renderer) := by
  rw [happening, if_neg (by rw [hpage]; simp), ha]
  exact .quiet (by rw [hpage]) (by rw [hpage]) hcall hnew

/-- A call tells what it writes or removes, or that it draws. -/
theorem Call.tells_perform {s : Script ω} (c : Call ω) (hs : s.call? = some c)
    (next : Script ω) :
    Tells stamp p.renderer (c.perform p).renderer (.rest s) (c.due p ++ [.rest next])
      (happening stamp (.rest s) p.renderer (c.perform p).renderer) := by
  have htells : (Activity.rest s).tells stamp p.renderer.page.store.entries =
      c.tells p.renderer.page.store.entries := by
    show s.call?.bind _ = _
    rw [hs]
    rfl
  cases c with
  | setState u =>
    have hpage := Site.page_of_content_eq (p.content_setState u)
    by_cases hu : Store.written u > 0
    · rw [happening, htells, if_neg (by rw [perform, hpage]; exact not_not.mpr rfl), Call.tells,
        if_pos hu]
      refine .wrote ?_ ?_ rfl rfl
      · rw [perform, hpage]
        exact Store.pending_setState hu
      · rw [perform, hpage]
        rfl
    · have hsame := ((Call.setState u).page_perform (p := p) (by simpa [writes] using hu) rfl).1
      exact tells_of_page_eq hsame (htells.trans (if_neg hu)) rfl rfl
  | write key v =>
    have hpage := Site.page_of_content_eq (p.content_write key v)
    rw [happening, htells, if_neg (by rw [perform, hpage]; exact not_not.mpr rfl)]
    refine .wrote ?_ ?_ rfl rfl
    · rw [perform, hpage]
      rfl
    · rw [perform, hpage]
      rfl
  | remove key =>
    have hpage := Site.page_of_content_eq (p.content_remove key)
    rw [happening, htells, if_neg (by rw [perform, hpage]; exact not_not.mpr rfl)]
    refine .removed ?_ ?_ rfl rfl
    · rw [perform, hpage]
      rfl
    · rw [perform, hpage]
      rfl
  | render => exact Renderer.tells_perform stamp p.content_supersede rfl rfl
  | replace entries => exact tells_of_page_eq rfl htells rfl rfl
  | onReady callback =>
    exact tells_of_page_eq ((Call.onReady callback).page_perform rfl rfl).1 htells rfl rfl
  | cancelReady id => exact tells_of_page_eq rfl htells rfl rfl
  | addEffect effect => exact tells_of_page_eq rfl htells rfl rfl
  | removeEffect id => exact tells_of_page_eq rfl htells rfl rfl

/-- A task tells nothing but that it draws. -/
theorem Task.tells_perform {w : Waiting (Task ω)} (hw : a.waiting? = some w) :
    Tells stamp p.renderer (w.task.perform p).renderer a (w.task.due p)
      (happening stamp a p.renderer (w.task.perform p).renderer) := by
  have hcall : a.effectCall? = none := by
    cases a <;> simp [Activity.waiting?] at hw <;> rfl
  have htells : a.tells stamp p.renderer.page.store.entries = none := by
    cases a <;> simp [Activity.waiting?] at hw <;> rfl
  cases htask : w.task with
  | run s => exact tells_of_page_eq rfl htells hcall rfl
  | closeBatch =>
    exact tells_of_page_eq (Site.page_of_content_eq p.content_closeBatch) htells hcall rfl
  | frame g =>
    by_cases hg : g = p.renderer.generation
    · rw [Task.perform, Task.due, hg, p.runFrame_generation]
      have hsame : ({ p.renderer with frame := none } : Renderer ω).content = p.renderer.content :=
        rfl
      have hdrew := Renderer.tells_perform stamp hsame hcall (rfl : effectCalls [] = [])
      rw [List.append_nil] at hdrew
      exact hdrew
    · rw [Task.perform, Task.due, p.runFrame_of_ne hg]
      exact tells_of_page_eq rfl htells hcall rfl

/-- **Every turn** tells what it does. -/
theorem Turn.tells (hturn : Turn p a new p') (stamp : Nat) :
    Tells stamp p.renderer p'.renderer a new (happening stamp a p.renderer p'.renderer) := by
  cases hturn with
  | call hs => exact Call.tells_perform _ hs _
  | changeTree change next =>
    show Tells _ _ _ _ _ (if p.renderer.page.completed ≠ p.renderer.page.completed then _ else none)
    rw [if_neg (not_not.mpr rfl)]
    exact .quiet rfl rfl rfl rfl
  | @alone s _ q h =>
    refine tells_of_page_eq rfl ?_ rfl (effectCalls_eq_nil h.isOwed_eq_false)
    show s.call?.bind _ = none
    rw [h.call?_eq_none]
    rfl
  | task hw => exact Task.tells_perform hw
  | effect id previous current e =>
    rw [happening, if_neg (not_not.mpr rfl)]
    exact .called rfl rfl rfl rfl
  | ready id callback => exact tells_of_page_eq rfl rfl rfl rfl

end turns

/-! ## §4. Histories give account of the renderer -/

/-- The history agrees with what the renderer keeps. -/
structure Account (h : History ω) (r : Renderer ω) : Prop where
  /-- The frames are counted. -/
  frames_eq : r.page.completed = h.frames
  /-- The snapshot that is kept is the store before the batch. -/
  pending_eq : r.page.store.pending = h.batchStart
  /-- A round that would start now takes up where the latest one ended. -/
  told : ∀ s, h.lastTold = some s → (h.batchStart).getD r.page.store.entries = s
  /-- And so did all rounds. -/
  chained : h.Chained

theorem Account.tells {h : History ω} {r r' : Renderer ω} {stamp : Nat} {a : Activity ω}
    {new : List (Activity ω)} {o : Option (Happening ω)} (hacc : Account h r)
    (ht : Tells stamp r r' a new o) : Account (o.toList ++ h) r' := by
  obtain ⟨hframes, hpending, htold, hchained⟩ := hacc
  cases ht with
  | quiet hstore hcompleted ha hnew =>
    refine ⟨hcompleted.trans hframes, ?_, ?_, hchained⟩
    · rw [hstore]
      exact hpending
    · rw [hstore]
      exact htold
  | wrote hpending' hcompleted ha hnew =>
    refine ⟨hcompleted.trans hframes, ?_, ?_, hchained.cons (by simp)⟩
    · rw [hpending', hpending]
      rfl
    · intro s hs
      -- The first write of a batch keeps the store that it finds.
      have hs' := htold s hs
      show (h.batchStart.or (some r.page.store.entries)).getD r'.page.store.entries = s
      cases hb : h.batchStart with
      | none => simpa [hb] using hs'
      | some before => simpa [hb] using hs'
  | removed hpending' hcompleted ha hnew =>
    refine ⟨hcompleted.trans hframes, hpending'.trans hpending, ?_, hchained.cons (by simp)⟩
    intro s hs
    cases hs
  | called hstore hcompleted ha hnew =>
    refine ⟨hcompleted.trans hframes, ?_, ?_, hchained.cons (by simp)⟩
    · rw [hstore]
      exact hpending
    · rw [hstore]
      exact htold
  | drew hpending' hentries hcompleted ha hnew =>
    refine ⟨?_, hpending', ?_, hchained.cons ?_⟩
    · rw [hcompleted, hframes]
      rfl
    · intro s hs
      have hs' : (if h.batchStart.isSome then some r.page.store.entries else h.lastTold) = some s :=
        hs
      show r'.page.store.entries = s
      rw [hentries]
      split at hs'
      · exact Option.some.inj hs'
      · next hnone =>
        have hstart := htold s hs'
        rw [Option.not_isSome_iff_eq_none.mp hnone] at hstart
        exact hstart
    · intro rendered registered _ before told hbefore hlast
      have hstart := htold told hlast
      rw [hbefore] at hstart
      exact hstart

/-- What is made and what becomes due balance. -/
theorem Tells.rounds {h : History ω} {r r' : Renderer ω} {stamp : Nat} {a : Activity ω}
    {new : List (Activity ω)} {o : Option (Happening ω)} (ht : Tells stamp r r' a new o)
    (hacc : Account h r) {rest : Nat → List (EffectCall ω)}
    (hrounds : ∀ n, h.calls n ++ ((if stamp = n then a.effectCall?.toList else []) ++ rest n) =
      h.due n) (n : Nat) :
    History.calls n (o.toList ++ h) ++
        ((if r'.page.completed = n then effectCalls new else []) ++ rest n) =
      History.due n (o.toList ++ h) := by
  have hn := hrounds n
  cases ht with
  | quiet hstore hcompleted ha hnew =>
    rw [hnew]
    simpa [ha] using hn
  | wrote hpending hcompleted ha hnew =>
    rw [hnew]
    show h.calls n ++ _ = h.due n
    simpa [ha] using hn
  | removed hpending hcompleted ha hnew =>
    rw [hnew]
    show h.calls n ++ _ = h.due n
    simpa [ha] using hn
  | @called c hstore hcompleted ha hnew =>
    -- The call moves from the agenda to the history.
    rw [hnew]
    rw [ha] at hn
    show (h.calls n ++ if stamp = n then [c] else []) ++ _ = h.due n
    rw [← hn]
    simp
  | drew hpending hentries hcompleted ha hnew =>
    show h.calls n ++ _ = if h.frames + 1 = n then
      History.round h.batchStart r.page.store.entries r.effects.entries else h.due n
    rw [hcompleted, hacc.frames_eq, hnew, hacc.pending_eq]
    rw [ha] at hn
    by_cases hnow : h.frames + 1 = n
    · -- So far nothing was made or due on behalf of the frame.
      rw [History.due_eq_nil (by omega)] at hn
      obtain ⟨hcalls, hrest⟩ := List.append_eq_nil_iff.mp hn
      have hrest' : rest n = [] := (List.append_eq_nil_iff.mp hrest).2
      rw [if_pos hnow, if_pos hnow, hcalls, hrest', List.nil_append, List.append_nil]
    · rw [if_neg hnow, if_neg hnow]
      simpa using hn

/-! ## §5. Every batch is told once -/

namespace Watched

/-- What is watched adds up. -/
structure Balanced (w : Watched ω) : Prop where
  /-- The renderer is there, and the history gives account of it. -/
  account : ∃ r, w.session.renderer = some r ∧ Account w.history r
  /-- Every activity has a stamp. -/
  length_eq : w.stamps.length = w.session.agenda.length
  /-- The calls made and those still to be made are those that are due. -/
  rounds : ∀ n, w.history.calls n ++ w.awaited n = w.history.due n

variable {start : Session ω} {w : Watched ω}

/-- The calls that wait among activities with one stamp. -/
theorem filterMap_zip_replicate (n k : Nat) (as : List (Activity ω)) :
    ((List.replicate as.length k).zip as).filterMap
        (fun x => if x.1 = n then x.2.effectCall? else none) =
      if k = n then effectCalls as else [] := by
  induction as with
  | nil => simp [effectCalls]
  | cons a as ih =>
    rw [List.length_cons, List.replicate_succ, List.zip_cons_cons, List.filterMap_cons, ih]
    by_cases hk : k = n
    · simp only [hk, if_true]
      rfl
    · simp [hk]

theorem Balanced.run (h : w.Balanced) {s : Script ω} : (w.run s).Balanced := by
  refine ⟨h.account, congrArg (· + 1) h.length_eq, ?_⟩
  intro n
  have hsame : (w.run s).awaited n = w.awaited n := by
    show List.filterMap _ ((_, Activity.rest s) :: w.stamps.zip w.session.agenda) = _
    refine List.filterMap_cons_none ?_
    show (if _ then none else none) = none
    split <;> rfl
  rw [hsame]
  exact h.rounds n

/-- **One step**. -/
theorem Balanced.step (h : w.Balanced) : w.step.Balanced := by
  obtain ⟨r, hr, hacc⟩ := h.account
  rcases Session.step_cases hr with ⟨hm, hstep⟩ | ⟨a, as, new, p', hm, hturn, hat⟩
  · -- Nothing runs, and nothing is told.
    have hself : w.step = w := by
      have hstamps : w.stamps = [] := by
        have hlength := h.length_eq
        rw [hm] at hlength
        exact List.length_eq_zero_iff.mp hlength
      obtain ⟨m, stamps, history⟩ := w
      simp only at hm hstep hstamps
      simp [Watched.step, upcoming, hstep, hm, hstamps]
    rw [hself]
    exact h
  · obtain ⟨stamp, stamps, hstamps⟩ : ∃ stamp stamps, w.stamps = stamp :: stamps := by
      refine List.exists_cons_of_length_pos ?_
      rw [h.length_eq, hm]
      exact Nat.succ_pos _
    have ht := hturn.tells stamp
    have hupcoming : w.upcoming = happening stamp a r p'.renderer := by
      rw [upcoming, hm, hr, hat.renderer_eq, hstamps]
      rfl
    have hstep : w.step = ⟨w.session.step,
        List.replicate new.length p'.renderer.page.completed ++ stamps,
        (happening stamp a r p'.renderer).toList ++ w.history⟩ := by
      have hnew : (new ++ as).length - as.length = new.length := by simp
      rw [Watched.step, hupcoming, hat.agenda_eq, hm, hstamps, List.tail_cons, List.tail_cons, hnew,
        drawn, hat.renderer_eq]
      rfl
    have hlength : stamps.length = as.length := by
      have hlength := h.length_eq
      rw [hstamps, hm] at hlength
      exact Nat.succ.inj hlength
    rw [hstep]
    refine ⟨⟨p'.renderer, hat.renderer_eq, hacc.tells ht⟩, ?_, ?_⟩
    · show (List.replicate new.length _ ++ stamps).length = w.session.step.agenda.length
      rw [hat.agenda_eq, List.length_append, List.length_append, List.length_replicate, hlength]
    · intro n
      have hbefore : ∀ n, w.history.calls n ++ ((if stamp = n then a.effectCall?.toList else []) ++
          (stamps.zip as).filterMap fun x => if x.1 = n then x.2.effectCall? else none) =
            w.history.due n := by
        intro n
        rw [← h.rounds n, awaited, hstamps, hm, List.zip_cons_cons]
        by_cases hn : stamp = n
        · cases hc : a.effectCall? <;> simp [hn, hc]
        · simp [hn]
      have hafter := ht.rounds hacc hbefore n
      rw [← hafter, awaited]
      show _ ++ List.filterMap _ ((List.replicate new.length _ ++ stamps).zip
        w.session.step.agenda) = _
      rw [hat.agenda_eq, List.zip_append (by simp), List.filterMap_append,
        filterMap_zip_replicate]

/-- Only what writes leaves a snapshot, and drawing takes it away. -/
theorem respected_pending :
    Respected (ω := ω) (fun _ => True) fun r => r.page.store.pending ≠ none where
  call p c _ _ := by
    have hdrawn : c.draws = true → (c.perform p).renderer.page.store.pending = none := by
      intro hdraws
      cases c <;> simp [Call.draws] at hdraws
      exact p.supersede.renderer.pending_perform
    refine ⟨trivial, ?_, fun hd hb => hb (hdrawn hd)⟩
    intro hb
    cases hw : c.writes with
    | true => exact Or.inr rfl
    | false =>
      have hd : c.draws = false := Bool.eq_false_iff.mpr fun hd => hb (hdrawn hd)
      rw [(c.page_perform hw hd).1] at hb
      exact Or.inl hb
  task p t _ := by
    cases t with
    | run s => exact ⟨trivial, id, by simp⟩
    | closeBatch => exact ⟨trivial, id, by simp⟩
    | frame g =>
      by_cases hg : g = p.renderer.generation
      · have hnone := Renderer.pending_perform { p.renderer with frame := none }
        rw [Task.perform, hg, p.runFrame_generation]
        exact ⟨trivial, fun hb => absurd hnone hb, fun _ hb => hb hnone⟩
      · rw [Task.perform, p.runFrame_of_ne hg]
        exact ⟨trivial, id, fun he => absurd (Task.frame.inj he) hg⟩

theorem balanced_mount {m : Session ω} (hm : m.Ready) (o : MountOptions ω) (tree : LiveTree) :
    (watch (m.mount o tree)).Balanced := by
  have hagenda := hm.agenda_mount o tree
  refine ⟨⟨_, rfl, ?_⟩, ?_, fun n => rfl⟩
  · have hpage : (o.mount tree m.queues).result.renderer.page =
        ⟨tree, tree.query? o.target, .ofEntries o.data, 0⟩ := by
      rw [o.result_mount]
      exact o.page_bare tree
    refine ⟨?_, ?_, fun s hs => (by cases hs), ?_⟩
    · rw [hpage]
      rfl
    · rw [hpage]
      rfl
    · intro rendered registered earlier hsuffix
      simp [watch] at hsuffix
  · exact (congrArg List.length hagenda).symm

/-- **Side effects** are told every batch once, however a mounted view is used.

    * The calls made on behalf of a frame, together with those that are still to be made, are one
      call for every side effect registered when the frame was drawn, in the order of their
      registration, with the store before the batch and the store that was drawn; they are none if
      nothing was written since the frame before.
    * Each round takes up where the round before it ended, unless an entry was removed in between.
    * Once nothing runs and nothing waits, no batch is left to be told. -/
theorem every_batch_told_once {o : MountOptions ω} {tree : LiveTree}
    (heffects : ∀ e ∈ o.effects, SideEffect.Confined e) (hstart : start.Ready)
    (hw : Reachable (start.mount o tree) w) :
    (∀ n, w.history.calls n ++ w.awaited n = w.history.due n) ∧ w.history.Chained ∧
      (w.session.isResting = true → w.session.queues.isEmpty = true →
        ∃ r, w.session.renderer = some r ∧ r.page.store.pending = none) := by
  -- All callbacks are confined, and a batch that was begun awaits a frame.
  have hholds : ∀ {m : Session ω}, (start.mount o tree).Reachable m →
      m.Holds (fun _ => True) fun r => r.page.store.pending ≠ none := by
    intro m hm
    refine respected_pending.reachable ⟨⟨_, rfl, trivial, ?_⟩, ?_⟩ hm
    · rw [hstart.taken_mount o tree]
      exact MountOptions.orderly_mount heffects hstart.waiting _
    · intro a ha
      simp [hstart.agenda_mount o tree] at ha
  have hbalanced : w.Balanced := by
    obtain ⟨ws, hw⟩ := hw
    exact hw.invariant (balanced_mount hstart o tree) (fun _ _ _ h => h.run) fun _ _ h => h.step
  obtain ⟨r, hr, hacc⟩ := hbalanced.account
  refine ⟨hbalanced.rounds, hacc.chained, ?_⟩
  intro hrest hempty
  obtain ⟨r, hr, -, horderly⟩ := (hholds hw.session).site
  exact ⟨r, hr, not_not.mp (horderly.not_behind (Session.inFlight_eq_zero hrest hempty r))⟩

/-- A side effect that writes, so that a batch follows the first; it is told both. -/
theorem every_batch_told_once_after_flush :
    let effect : SideEffect Unit := fun _ s =>
      if (s.find? "seen").isSome then .done else .write "seen" .null .done
    let o : MountOptions Unit := ⟨"#app", fun _ => pure [], ∅, [effect]⟩
    let start := (Session.initial ()).mount o (LiveTree.initial.createMountPoint "app").2
    let w := Watched.step^[22] ((watch start).run (.write "key" .null (.flush 0 fun _ => .done)))
    (w.session.isResting = true ∧ w.session.queues.isEmpty = true) ∧
      (∀ n, w.history.calls n ++ w.awaited n = w.history.due n) ∧ w.history.Chained ∧
      (∃ r, w.session.renderer = some r ∧ r.page.store.pending = none) ∧
      (w.history.due 1).map (fun c => (c.previous.entries.keys, c.current.entries.keys)) =
        [([], ["key"])] ∧
      (w.history.due 2).map (fun c => (c.previous.entries.keys, c.current.entries.keys)) =
        [(["key"], ["key", "seen"])] := by
  intro effect o start w
  have heffect : SideEffect.Confined effect := by
    intro s s'
    show Script.Confined (if _ then _ else _)
    split <;> trivial
  have heffects : ∀ e ∈ o.effects, SideEffect.Confined e := by
    intro e he
    obtain rfl := List.mem_singleton.mp he
    exact heffect
  have hrun : Reachable start ((watch start).run (.write "key" .null (.flush 0 fun _ => .done))) :=
    .run _ (fun _ => trivial) .start
  have hw : Reachable start w := hrun.iterate 22
  have hrest : w.session.isResting = true ∧ w.session.queues.isEmpty = true := by decide
  obtain ⟨hrounds, hchained, hpending⟩ :=
    every_batch_told_once (o := o) heffects (Session.ready_initial ()) hw
  exact ⟨hrest, hrounds, hchained, hpending hrest.1 hrest.2, by decide, by decide⟩

end Watched

end ReactiveView
