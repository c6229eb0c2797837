import ReactiveView.Proofs.Scheduling.Calls

/-! # Ledgers of the queues

  A ledger is a pair of queues together with a record of what was handed to them
  and what was dropped from them. It is a scheduler like any other, so a renderer
  that runs on a ledger keeps the books of its own calls.

  * `Alike`: two schedulers that answer alike. A renderer does the same on both
    (`Call.alike`, `Task.alike`), so it does on a ledger what it does on the bare
    queues.
  * `Entered`: the books are right. What is in the queues is what was there
    before and what was handed over since, less what was dropped; and the names
    that were given out are the next ones.
-/

namespace ReactiveView

variable {τ ω : Type}

/-! ## §1. Ledgers -/

/-- Queues and what happened to them since the ledger was opened. -/
structure Ledger (τ : Type) where
  /-- The queues. -/
  queues : Queues τ
  /-- The tasks that were deferred, in order. -/
  deferred : List (Ticket × τ)
  /-- The frames that were requested, in order. -/
  requested : List (FrameId × τ)
  /-- The names that were cancelled, whether a frame of the name was there or not. -/
  cancelled : List FrameId
  /-- The frames that were dropped. -/
  dropped : List (FrameId × τ)

/-- A ledger without entries. -/
def Ledger.ofQueues (q : Queues τ) : Ledger τ := ⟨q, [], [], [], []⟩

instance : FrameScheduler (Ledger τ) τ where
  defer l t :=
    { l with
      queues := l.queues.defer t
      deferred := l.deferred ++ [(⟨l.queues.tickets⟩, t)] }
  requestFrame l t :=
    ((l.queues.requestFrame t).1,
      { l with
        queues := (l.queues.requestFrame t).2
        requested := l.requested ++ [((l.queues.requestFrame t).1, t)] })
  cancelFrame l id :=
    { l with
      queues := l.queues.cancelFrame id
      cancelled := l.cancelled ++ [id]
      dropped := l.dropped ++ l.queues.frames.filter (·.1 = id) }

/-! ## §2. Schedulers that answer alike -/

section alike

variable {S S' : Type}

/-- Two schedulers answer alike: they give out the same names, and what stands for one another goes
    on to do so. -/
structure Alike [FrameScheduler S τ] [FrameScheduler S' τ] (R : S → S' → Prop) : Prop where
  /-- A task is deferred to both. -/
  defer : ∀ {s s'} (t : τ), R s s' → R (FrameScheduler.defer s t) (FrameScheduler.defer s' t)
  /-- A frame is requested of both. -/
  requestFrame : ∀ {s s'} (t : τ), R s s' →
    (FrameScheduler.requestFrame s t).1 = (FrameScheduler.requestFrame s' t).1 ∧
      R (FrameScheduler.requestFrame s t).2 (FrameScheduler.requestFrame s' t).2
  /-- A frame is cancelled in both. -/
  cancelFrame : ∀ {s s'} (id : FrameId), R s s' →
    R (FrameScheduler.cancelFrame s id) (FrameScheduler.cancelFrame s' id)

/-- The same renderer at two schedulers that stand for one another. -/
structure Site.Matched (R : S → S' → Prop) (p : Site S ω) (p' : Site S' ω) : Prop where
  /-- The renderer is the same. -/
  renderer_eq : p.renderer = p'.renderer
  /-- The schedulers stand for one another. -/
  scheduler : R p.scheduler p'.scheduler

variable {R : S → S' → Prop} {p : Site S ω} {p' : Site S' ω}

namespace Site.Matched

theorem onRenderer (h : p.Matched R p') (f : Renderer ω → Renderer ω) :
    (p.onRenderer f).Matched R (p'.onRenderer f) :=
  ⟨congrArg f h.renderer_eq, h.scheduler⟩

variable [FrameScheduler S (Task ω)] [FrameScheduler S' (Task ω)]

theorem supersede (hR : Alike R) (h : p.Matched R p') : p.supersede.Matched R p'.supersede := by
  obtain ⟨r, s⟩ := p
  obtain ⟨r', s'⟩ := p'
  obtain ⟨rfl, hs⟩ := h
  refine ⟨rfl, ?_⟩
  unfold Site.supersede
  cases r.frame with
  | none => exact hs
  | some id => exact hR.cancelFrame id hs

theorem requestFrame (hR : Alike R) (h : p.Matched R p') :
    p.requestFrame.Matched R p'.requestFrame := by
  have hnext := h.supersede hR
  unfold Site.requestFrame
  -- Only the name of the new frame gets from the scheduler into the renderer.
  generalize p.supersede = q at hnext ⊢
  generalize p'.supersede = q' at hnext ⊢
  obtain ⟨r, s⟩ := q
  obtain ⟨r', s'⟩ := q'
  obtain ⟨rfl, hs⟩ := hnext
  obtain ⟨hid, hs⟩ := hR.requestFrame (.frame r.generation) hs
  exact ⟨congrArg (fun id => { r with frame := some id }) hid, hs⟩

theorem openBatch (hR : Alike R) (h : p.Matched R p') : p.openBatch.Matched R p'.openBatch := by
  unfold Site.openBatch
  rw [← h.renderer_eq]
  split
  · exact h
  · exact ⟨rfl, hR.defer .closeBatch h.scheduler⟩

theorem setState (hR : Alike R) (h : p.Matched R p') (u : Update) :
    (p.setState u).Matched R (p'.setState u) := by
  have hwritten := h.onRenderer fun r => r.withStore (r.page.store.setState u)
  by_cases hu : Store.written u > 0
  · rw [p.setState_of_written hu, p'.setState_of_written hu]
    exact hwritten.openBatch hR
  · rw [p.setState_of_not_written hu, p'.setState_of_not_written hu]
    exact hwritten

theorem onReady (hR : Alike R) (h : p.Matched R p') (s : Script ω) :
    (p.onReady s).2.Matched R (p'.onReady s).2 := by
  by_cases hdone : p.renderer.page.completed = 0
  · have hdone' := h.renderer_eq ▸ hdone
    rw [p.onReady_of_waiting s hdone, p'.onReady_of_waiting s hdone', ← h.renderer_eq]
    exact h.onRenderer _
  · have hdone' := h.renderer_eq ▸ hdone
    rw [p.onReady_of_drawn s hdone, p'.onReady_of_drawn s hdone']
    exact ⟨h.renderer_eq, hR.defer (.run s) h.scheduler⟩

end Site.Matched

variable [FrameScheduler S (Task ω)] [FrameScheduler S' (Task ω)]

/-- **A call** does the same at schedulers that answer alike. -/
theorem Call.alike (hR : Alike R) (h : p.Matched R p') (c : Call ω) :
    (c.perform p).Matched R (c.perform p') := by
  cases c with
  | setState u => exact h.setState hR u
  | write key v => exact (h.onRenderer _).openBatch hR
  | remove key => exact (h.onRenderer _).requestFrame hR
  | replace entries => exact h
  | render =>
    have hnext := h.supersede hR
    exact ⟨congrArg (fun r => r.perform.result.renderer) hnext.renderer_eq, hnext.scheduler⟩
  | onReady s => exact h.onReady hR s
  | cancelReady id => exact h.onRenderer fun r => (r.cancelReady id).2
  | addEffect effect => exact h.onRenderer fun r => (r.addEffect effect).2
  | removeEffect id => exact h.onRenderer fun r => (r.removeEffect id).2

/-- **A task** does the same at schedulers that answer alike. -/
theorem Task.alike (hR : Alike R) (h : p.Matched R p') (t : Task ω) :
    (t.perform p).Matched R (t.perform p') := by
  cases t with
  | run s => exact h
  | closeBatch => exact (h.onRenderer _).requestFrame hR
  | frame g =>
    -- The renderers are the same, so the frame is stale for both or for neither.
    by_cases hg : g = p.renderer.generation
    · have hg' : g = p'.renderer.generation := h.renderer_eq ▸ hg
      rw [perform, perform]
      conv => lhs; rw [hg, p.runFrame_generation]
      conv => rhs; rw [hg', p'.runFrame_generation]
      exact ⟨by rw [h.renderer_eq], h.scheduler⟩
    · have hg' : g ≠ p'.renderer.generation := h.renderer_eq ▸ hg
      rw [perform, perform, p.runFrame_of_ne hg, p'.runFrame_of_ne hg']
      exact h

end alike

/-! ## §3. Names -/

/-- What has a name is counted by the name. -/
theorem length_filter_name {α β : Type} [DecidableEq α] (xs : List (α × β)) (name : α) :
    (xs.filter (·.1 = name)).length = (xs.map (·.1)).count name := by
  rw [List.count, List.countP_map, List.countP_eq_length_filter]
  rfl

/-- What is told apart by names is found by its name. -/
theorem filter_name_eq {α β : Type} [DecidableEq α] {xs : List (α × β)} {x : α × β}
    (h : (xs.map (·.1)).Nodup) (hx : x ∈ xs) : xs.filter (·.1 = x.1) = [x] := by
  have hone : (xs.filter (·.1 = x.1)).length = 1 := by
    rw [length_filter_name]
    exact List.count_eq_one_of_mem h (List.mem_map_of_mem hx)
  obtain ⟨y, hy⟩ := List.length_eq_one_iff.mp hone
  have hmem : x ∈ xs.filter (·.1 = x.1) := List.mem_filter.mpr ⟨hx, by simp⟩
  rw [hy] at hmem ⊢
  rw [List.mem_singleton.mp hmem]

/-- Names that count upwards from one that is above all others are told apart from these. -/
theorem nodup_names_append {α β : Type} (serial : α → Nat) {old new : List (α × β)} {k : Nat}
    (hold : (old.map (·.1)).Nodup) (hlt : ∀ x ∈ old, serial x.1 < k)
    (hnew : new.map (fun x => serial x.1) = List.range' k new.length) :
    (old.map (·.1) ++ new.map (·.1)).Nodup := by
  refine hold.append ?_ ?_
  · have hnodup : (new.map fun x => serial x.1).Nodup := hnew ▸ List.nodup_range'
    have hserials : (new.map (·.1)).map serial = new.map fun x => serial x.1 := List.map_map
    exact (hserials ▸ hnodup).of_map _
  · intro name hname hname'
    obtain ⟨x, hx, rfl⟩ := List.mem_map.mp hname
    obtain ⟨y, hy, heq⟩ := List.mem_map.mp hname'
    have hmem : serial y.1 ∈ List.range' k new.length := hnew ▸ List.mem_map_of_mem hy
    rw [heq] at hmem
    exact absurd (hlt x hx) (Nat.not_lt.mpr (List.mem_range'_1.mp hmem).1)

namespace Queues

/-- The names in the queues are told apart, and they were handed out. -/
structure Numbered (q : Queues τ) : Prop where
  /-- No two deferred tasks have one ticket. -/
  deferred_nodup : (q.deferred.map (·.1)).Nodup
  /-- Tickets are counted. -/
  deferred_lt : ∀ d ∈ q.deferred, d.1.serial < q.tickets
  /-- No two frames have one name. -/
  frames_nodup : (q.frames.map (·.1)).Nodup
  /-- Names of frames are counted. -/
  frames_lt : ∀ f ∈ q.frames, f.1.serial < q.requests

theorem numbered_empty : (empty : Queues τ).Numbered where
  deferred_nodup := List.nodup_nil
  deferred_lt := by simp [empty]
  frames_nodup := List.nodup_nil
  frames_lt := by simp [empty]

/-- A name that was handed out, and that no frame in the queues has. Nothing will have it again. -/
structure Gone (id : FrameId) (q : Queues τ) : Prop where
  /-- It was handed out. -/
  issued : id.serial < q.requests
  /-- No frame has it. -/
  absent : ∀ f ∈ q.frames, f.1 ≠ id

variable {q : Queues τ} {id : FrameId}

@[simp] theorem tickets_cancelFrame (q : Queues τ) (id : FrameId) :
    (q.cancelFrame id).tickets = q.tickets := by
  unfold cancelFrame; split <;> rfl

@[simp] theorem requests_cancelFrame (q : Queues τ) (id : FrameId) :
    (q.cancelFrame id).requests = q.requests := by
  unfold cancelFrame; split <;> rfl

/-- Frames of one name are at most one, so dropping them counts as one. -/
theorem cancelled_cancelFrame (h : (q.frames.map (·.1)).Nodup) (id : FrameId) :
    (q.cancelFrame id).cancelled = q.cancelled + (q.frames.filter (·.1 = id)).length := by
  rw [length_filter_name, h.count]
  unfold cancelFrame
  by_cases hmem : id ∈ q.frames.map (·.1)
  · obtain ⟨f, hf, hid⟩ := List.mem_map.mp hmem
    rw [if_pos hmem, if_pos (List.any_eq_true.mpr ⟨f, hf, by simpa using hid⟩)]
  · have hany : ¬ q.frames.any (·.1 = id) = true := by
      intro hany
      obtain ⟨f, hf, hid⟩ := List.any_eq_true.mp hany
      exact hmem (List.mem_map.mpr ⟨f, hf, by simpa using hid⟩)
    rw [if_neg hmem, if_neg hany]
    rfl

/-- A name that is handed out now is none that was before. -/
theorem nodup_requestFrame (h : (q.frames.map (·.1)).Nodup)
    (hlt : ∀ f ∈ q.frames, f.1.serial < q.requests) (t : τ) :
    ((q.requestFrame t).2.frames.map (·.1)).Nodup := by
  rw [frames_requestFrame, List.map_append]
  exact nodup_names_append FrameId.serial h hlt rfl

theorem Gone.requestFrame (h : q.Gone id) (t : τ) : (q.requestFrame t).2.Gone id := by
  refine ⟨Nat.lt_succ_of_lt h.issued, ?_⟩
  intro f hf
  rcases List.mem_append.mp hf with hf | hf
  · exact h.absent f hf
  · obtain rfl := List.mem_singleton.mp hf
    intro hid
    exact Nat.lt_irrefl _ (hid ▸ h.issued)

theorem Gone.cancelFrame (h : q.Gone id) (other : FrameId) : (q.cancelFrame other).Gone id := by
  refine ⟨by rw [requests_cancelFrame]; exact h.issued, ?_⟩
  intro f hf
  rw [frames_cancelFrame] at hf
  exact h.absent f (List.mem_of_mem_filter hf)

/-- A name that is cancelled is gone. -/
theorem gone_cancelFrame (h : id.serial < q.requests) : (q.cancelFrame id).Gone id := by
  refine ⟨by rw [requests_cancelFrame]; exact h, ?_⟩
  intro f hf
  rw [frames_cancelFrame] at hf
  simpa using (List.mem_filter.mp hf).2

end Queues

/-! ## §4. The books are right -/

/-- A ledger gives account of what became of the queues `q`. -/
structure Ledger.Entered (q : Queues τ) (l : Ledger τ) : Prop where
  /-- No two frames have one name. -/
  frames_nodup : (l.queues.frames.map (·.1)).Nodup
  /-- Names of frames are counted. -/
  frames_lt : ∀ f ∈ l.queues.frames, f.1.serial < l.queues.requests
  /-- What is deferred goes behind what was. -/
  deferred_eq : l.queues.deferred = q.deferred ++ l.deferred
  /-- A frame is there or was dropped. -/
  frames_perm : (l.dropped ++ l.queues.frames).Perm (q.frames ++ l.requested)
  /-- Tickets are given out one after the other. -/
  tickets_eq : l.deferred.map (·.1.serial) = List.range' q.tickets l.deferred.length
  /-- They are counted. -/
  tickets_count : l.queues.tickets = q.tickets + l.deferred.length
  /-- Names of frames are given out one after the other. -/
  requests_eq : l.requested.map (·.1.serial) = List.range' q.requests l.requested.length
  /-- They are counted. -/
  requests_count : l.queues.requests = q.requests + l.requested.length
  /-- Frames that are dropped are counted. -/
  cancelled_count : l.queues.cancelled = q.cancelled + l.dropped.length
  /-- A name that was handed out before and is cancelled is gone. -/
  gone : ∀ id ∈ l.cancelled, id.serial < q.requests → l.queues.Gone id

namespace Ledger

variable {q : Queues τ} {l : Ledger τ}

/-- A ledger without entries is right. -/
theorem entered_ofQueues (h : q.Numbered) : (ofQueues q).Entered q where
  frames_nodup := h.frames_nodup
  frames_lt := h.frames_lt
  deferred_eq := (List.append_nil _).symm
  frames_perm := by
    show q.frames.Perm (q.frames ++ [])
    rw [List.append_nil]
  tickets_eq := rfl
  tickets_count := rfl
  requests_eq := rfl
  requests_count := rfl
  cancelled_count := rfl
  gone := by simp [ofQueues]

namespace Entered

theorem defer (h : l.Entered q) (t : τ) : (FrameScheduler.defer l t).Entered q where
  frames_nodup := h.frames_nodup
  frames_lt := h.frames_lt
  deferred_eq := by
    show l.queues.deferred ++ [_] = q.deferred ++ (l.deferred ++ [_])
    rw [h.deferred_eq, List.append_assoc]
  frames_perm := h.frames_perm
  tickets_eq := by
    show (l.deferred ++ [((⟨l.queues.tickets⟩ : Ticket), t)]).map _ =
      List.range' _ (l.deferred ++ [_]).length
    rw [List.map_append, h.tickets_eq, List.length_append, List.length_singleton,
      List.range'_concat, h.tickets_count, Nat.one_mul]
    rfl
  tickets_count := by
    show l.queues.tickets + 1 = q.tickets + (l.deferred ++ [_]).length
    rw [h.tickets_count, List.length_append, List.length_singleton, Nat.add_assoc]
  requests_eq := h.requests_eq
  requests_count := h.requests_count
  cancelled_count := h.cancelled_count
  gone := fun id hid hlt => ⟨(h.gone id hid hlt).issued, (h.gone id hid hlt).absent⟩

theorem requestFrame (h : l.Entered q) (t : τ) : (FrameScheduler.requestFrame l t).2.Entered q where
  frames_nodup := Queues.nodup_requestFrame h.frames_nodup h.frames_lt t
  frames_lt := by
    intro f hf
    rcases List.mem_append.mp hf with hf | hf
    · exact Nat.lt_succ_of_lt (h.frames_lt f hf)
    · obtain rfl := List.mem_singleton.mp hf
      exact Nat.lt_succ_self _
  deferred_eq := h.deferred_eq
  frames_perm := by
    show (l.dropped ++ (l.queues.frames ++ [_])).Perm (q.frames ++ (l.requested ++ [_]))
    rw [← List.append_assoc, ← List.append_assoc]
    exact h.frames_perm.append_right _
  tickets_eq := h.tickets_eq
  tickets_count := h.tickets_count
  requests_eq := by
    show (l.requested ++ [((⟨l.queues.requests⟩ : FrameId), t)]).map _ =
      List.range' _ (l.requested ++ [_]).length
    rw [List.map_append, h.requests_eq, List.length_append, List.length_singleton,
      List.range'_concat, h.requests_count, Nat.one_mul]
    rfl
  requests_count := by
    show l.queues.requests + 1 = q.requests + (l.requested ++ [_]).length
    rw [h.requests_count, List.length_append, List.length_singleton, Nat.add_assoc]
  cancelled_count := h.cancelled_count
  gone := fun id hid hlt => (h.gone id hid hlt).requestFrame t

theorem cancelFrame (h : l.Entered q) (id : FrameId) :
    (FrameScheduler.cancelFrame l id).Entered q where
  frames_nodup := by
    show ((l.queues.cancelFrame id).frames.map _).Nodup
    rw [Queues.frames_cancelFrame]
    exact h.frames_nodup.sublist (List.filter_sublist.map _)
  frames_lt := by
    intro f hf
    show _ < (l.queues.cancelFrame id).requests
    rw [Queues.requests_cancelFrame]
    refine h.frames_lt f (List.mem_of_mem_filter (p := fun f => f.1 ≠ id) ?_)
    exact Queues.frames_cancelFrame l.queues id ▸ hf
  deferred_eq := (Queues.deferred_cancelFrame l.queues id).trans h.deferred_eq
  frames_perm := by
    show (l.dropped ++ l.queues.frames.filter _ ++ (l.queues.cancelFrame id).frames).Perm _
    -- What is dropped and what stays is what was there.
    have hsplit : (l.queues.frames.filter (·.1 = id) ++ l.queues.frames.filter (·.1 ≠ id)).Perm
        l.queues.frames := by
      simpa using List.filter_append_perm (fun f : FrameId × τ => f.1 = id) l.queues.frames
    rw [Queues.frames_cancelFrame, List.append_assoc]
    exact (hsplit.append_left _).trans h.frames_perm
  tickets_eq := h.tickets_eq
  tickets_count := (Queues.tickets_cancelFrame l.queues id).trans h.tickets_count
  requests_eq := h.requests_eq
  requests_count := (Queues.requests_cancelFrame l.queues id).trans h.requests_count
  cancelled_count := by
    show (l.queues.cancelFrame id).cancelled = q.cancelled + (l.dropped ++ _).length
    rw [Queues.cancelled_cancelFrame h.frames_nodup, h.cancelled_count, List.length_append,
      Nat.add_assoc]
  gone := by
    intro other hother hlt
    rcases List.mem_append.mp hother with hother | hother
    · exact (h.gone other hother hlt).cancelFrame id
    · obtain rfl := List.mem_singleton.mp hother
      -- Names are only ever added to those that were handed out.
      refine Queues.gone_cancelFrame ?_
      rw [h.requests_count]
      exact Nat.lt_add_right _ hlt

/-- The names stay apart. -/
theorem numbered (h : l.Entered q) (hq : q.Numbered) : l.queues.Numbered where
  deferred_nodup := by
    rw [h.deferred_eq, List.map_append]
    exact nodup_names_append Ticket.serial hq.deferred_nodup hq.deferred_lt h.tickets_eq
  deferred_lt := by
    intro d hd
    rw [h.deferred_eq] at hd
    rw [h.tickets_count]
    rcases List.mem_append.mp hd with hd | hd
    · exact Nat.lt_add_right _ (hq.deferred_lt d hd)
    · have hmem : d.1.serial ∈ List.range' q.tickets l.deferred.length :=
        h.tickets_eq ▸ List.mem_map_of_mem hd
      exact (List.mem_range'_1.mp hmem).2
  frames_nodup := h.frames_nodup
  frames_lt := h.frames_lt

/-- A name that is gone stays so. -/
theorem gone_of_gone {id : FrameId} (h : l.Entered q) (hid : q.Gone id) : l.queues.Gone id := by
  refine ⟨by rw [h.requests_count]; exact Nat.lt_add_right _ hid.issued, ?_⟩
  intro f hf hname
  rcases List.mem_append.mp (h.frames_perm.mem_iff.mp (List.mem_append_right _ hf)) with hf | hf
  · exact hid.absent f hf hname
  · -- What is requested has a later name.
    have hmem : f.1.serial ∈ List.range' q.requests l.requested.length :=
      h.requests_eq ▸ List.mem_map_of_mem hf
    have hle := (List.mem_range'_1.mp hmem).1
    have hlt := hid.issued
    rw [hname] at hle
    omega

/-- A ledger that is right answers like its queues. -/
theorem alike (q : Queues τ) :
    Alike fun (s : Queues τ) (l : Ledger τ) => l.queues = s ∧ l.Entered q where
  defer := by
    rintro s l t ⟨rfl, h⟩
    exact ⟨rfl, h.defer t⟩
  requestFrame := by
    rintro s l t ⟨rfl, h⟩
    exact ⟨rfl, rfl, h.requestFrame t⟩
  cancelFrame := by
    rintro s l id ⟨rfl, h⟩
    exact ⟨rfl, h.cancelFrame id⟩

end Entered

end Ledger

end ReactiveView
