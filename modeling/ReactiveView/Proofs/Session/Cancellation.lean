import ReactiveView.Proofs.Session.Trail

/-! # Frames that are cancelled

  A frame that is cancelled while it waits in the queues never starts. But a run
  of frames takes all of them out before it starts the first: one that was taken
  out and did not start yet is in no queue, where its cancellation could find
  it. `starts_after_cancel` says that this is the only way for a frame to start
  after its cancellation, and how often it does.
-/

namespace ReactiveView

variable {ω : Type}

namespace Session

variable {start m m' v : Session ω} {before after ms : List (Session ω)} {id : FrameId}

/-! ## §1. Names that are gone -/

/-- A cancellation. Afterwards the name is gone; what was taken out stays on the agenda. -/
theorem gone_of_cancelled (hnumbered : m.queues.Numbered) (hcancel : id ∈ m.ledger.cancelled)
    (hissued : id.serial < m.queues.requests) :
    m.step.queues.Gone id ∧ takenFrames m.step.agenda = takenFrames m.agenda.tail := by
  cases hm : m.agenda with
  | nil =>
    have hledger : m.ledger = .ofQueues m.queues := by rw [ledger, hm]
    exact absurd (hledger ▸ hcancel) List.not_mem_nil
  | cons a as =>
    obtain ⟨new, hdeals, hnew⟩ := exists_deals hnumbered hm
    obtain ⟨hgone, hnone⟩ := hdeals.gone_of_cancelled (entered_ledger hnumbered) hcancel hissued
    refine ⟨hgone, ?_⟩
    rw [hnew, takenFrames_append, hnone]
    rfl

/-- From when a name is gone, a frame of it can start but none is taken out any more. -/
theorem Trail.started_of_gone (h : v.Trail ms m) (hnumbered : v.queues.Numbered)
    (hgone : v.queues.Gone id) :
    m.queues.Gone id ∧
      (startedFrames ms).filter (·.1 = id) ++ (takenFrames m.agenda).filter (·.1 = id) =
        (takenFrames v.agenda).filter (·.1 = id) := by
  -- The sum of what started and what is to start is kept by each step: a step moves a frame from
  -- one to the other, and adds none of this name.
  induction h with
  | start => exact ⟨hgone, rfl⟩
  | run s hrest h ih => exact ih
  | @step ms m h ih =>
    obtain ⟨hgone, hstarted⟩ := ih
    have hnumbered := h.numbered hnumbered
    cases hm : m.agenda with
    | nil =>
      have hself : m.step = m := step_eq_self_of_isResting (by rw [isResting, hm]; rfl)
      rw [startedFrames, started_concat_of_nil _ ms hm, hself]
      exact ⟨hgone, hstarted⟩
    | cons a as =>
      obtain ⟨new, hdeals, hnew⟩ := exists_deals hnumbered hm
      have he := entered_ledger hnumbered
      obtain ⟨hgone', htaken⟩ := hdeals.gone he hgone
      refine ⟨hgone', ?_⟩
      have hnone : (takenFrames new).filter (·.1 = id) = [] := by
        refine List.filter_eq_nil_iff.mpr fun f hf => ?_
        simpa using htaken f hf
      have hconcat : startedFrames (ms ++ [m]) ++ takenFrames as =
          startedFrames ms ++ takenFrames m.agenda := started_concat _ ms hm
      rw [← hstarted, hnew, takenFrames_append, List.filter_append, hnone, List.nil_append,
        ← List.filter_append, ← List.filter_append, hconcat]

/-! ## §2. Starts after a cancellation -/

/-- **Frames that start after their cancellation**, whatever scripts do and with or without a
    renderer.

    A step cancels a frame whose name was handed out. The frames of that name which start from
    then on, together with those that are still to start, are the ones that were on the agenda at
    the cancellation: a run of frames had taken them out and had not come to them. There is at most
    one. A frame that waited in the queues when it was cancelled never starts. -/
theorem starts_after_cancel (hstart : start.Fresh) (hm : start.Trail before m)
    (hcancel : id ∈ m.ledger.cancelled) (hissued : id.serial < m.queues.requests)
    (hafter : m.step.Trail after m') :
    (startedFrames after).filter (·.1 = id) ++ (takenFrames m'.agenda).filter (·.1 = id) =
        (takenFrames m.agenda.tail).filter (·.1 = id) ∧
      ((takenFrames m.agenda.tail).filter (·.1 = id)).length ≤ 1 ∧
      ((∃ f ∈ m.queues.frames, f.1 = id) → ∀ f ∈ startedFrames after, f.1 ≠ id) := by
  have hbalanced := hm.balanced hstart
  have hnumbered := hbalanced.numbered
  have hnodup := hbalanced.frames_nodup hstart
  obtain ⟨hgone, htail⟩ := gone_of_cancelled hnumbered hcancel hissued
  have hstarted := (hafter.started_of_gone (hm.step.balanced hstart).numbered hgone).2
  rw [htail] at hstarted
  refine ⟨hstarted, ?_, ?_⟩
  · -- Names are told apart, also of frames that were taken out.
    rw [List.map_append, List.map_append] at hnodup
    have htaken : ((takenFrames m.agenda.tail).map (·.1)).Nodup :=
      hnodup.of_append_right.of_append_left.sublist
        (((List.tail_sublist _).filterMap _).map _)
    rw [length_filter_name]
    exact List.nodup_iff_count_le_one.mp htaken id
  · -- A frame that waits in the queues is not on the agenda as well.
    rintro ⟨waiting, hwaiting, hname⟩ f hf hid
    have hmem : f ∈ (takenFrames m.agenda.tail).filter (·.1 = id) :=
      hstarted ▸ List.mem_append_left _ (List.mem_filter.mpr ⟨hf, by simpa using hid⟩)
    have htaken : f ∈ takenFrames m.agenda :=
      ((List.tail_sublist _).filterMap _).subset (List.mem_of_mem_filter hmem)
    rw [List.map_append, List.map_append, List.map_append] at hnodup
    have hdisjoint := List.disjoint_of_nodup_append hnodup.of_append_right
    exact hdisjoint (List.mem_map_of_mem htaken)
      (List.mem_append_right _ (List.mem_map.mpr ⟨waiting, hwaiting, hname.trans hid.symm⟩))

/-- A script that requests two frames, keeps the name of the second, and runs them. The first one
    cancels the second. -/
def cancelNext : Script (Option FrameId) :=
  .requestFrame
    (.world (fun kept => kept) fun kept => match kept with
      | none => .done
      | some other => .cancelFrame other .done) fun _ =>
  .requestFrame .done fun other => .world (fun _ => some other) fun _ => .runFrame fun _ => .done

/-- A frame that waits is cancelled, and the next run of frames does not start it. -/
theorem starts_after_cancel_waiting :
    ∃ before m after m', (initial ()).Fresh ∧ (initial ()).Trail before m ∧
      ⟨0⟩ ∈ m.ledger.cancelled ∧ 0 < m.queues.requests ∧ m.step.Trail after m' ∧
      m'.isResting = true ∧ (∃ f ∈ m.queues.frames, f.1 = ⟨0⟩) ∧
      (startedFrames after).map (·.1) = [⟨1⟩] ∧ ∀ f ∈ startedFrames after, f.1 ≠ ⟨0⟩ := by
  have hstart : (initial ()).Trail [] _ := .start
  have hm := (hstart.run (.requestFrame .done fun first => .requestFrame .done fun _ =>
    .cancelFrame first (.runFrame fun _ => .done)) rfl).iterate 2
  obtain ⟨-, -, hnever⟩ := starts_after_cancel (fresh_initial ()) hm
    (by decide : (⟨0⟩ : FrameId) ∈ _) (by decide) (Trail.start.iterate 5)
  exact ⟨_, _, _, _, fresh_initial (), hm, by decide, by decide, Trail.start.iterate 5,
    by decide, by decide, by decide, hnever (by decide)⟩

/-- A frame cancels the one that a run of frames took out together with it. That one starts
    afterwards all the same. -/
theorem started_after_cancel :
    ∃ before m after m', (initial (none : Option FrameId)).Trail before m ∧
      (∃ as, m.agenda = .rest (.cancelFrame ⟨1⟩ .done) :: as) ∧
      ⟨1⟩ ∈ (requests before).map (·.1) ∧ ⟨1⟩ ∉ (startedFrames before).map (·.1) ∧
      m.step.Trail after m' ∧ ⟨1⟩ ∈ (startedFrames after).map (·.1) := by
  have hstart : (initial (none : Option FrameId)).Trail [] _ := .start
  have hm := (hstart.run cancelNext rfl).iterate 6
  exact ⟨_, _, _, _, hm, ⟨_, rfl⟩, by decide, by decide, Trail.start.iterate 2, by decide⟩

end Session

end ReactiveView
