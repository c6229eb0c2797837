import ReactiveView.Proofs.Session.Runs

/-! # A session at rest shows what it should

  Each step of a session is a call of the renderer, a callback that runs, or a
  step of the embedder, so a mounted view stays steady (`respected_housed`,
  `Sound.reachable`). When the agenda and the queues are empty, nothing is in
  flight, and so the live tree shows what the view makes of the store
  (`shows_at_rest`).
-/

namespace ReactiveView

variable {ω : Type} {v : View} {n : NodeId}

/-- A mounted view respects that its page is sound, and it is behind while the live tree does not
    show what it should. -/
theorem respected_housed (hv : ∀ s, VNode.UnreservedAll (v s).result) :
    Respected (ω := ω) (Renderer.Housed v n) fun r => ¬ r.UpToDate n where
  call p c hJ hc := by
    -- Drawing brings the live tree up to date, whatever was there before.
    have hdrawn : c.draws = true → (c.perform p).renderer.UpToDate n := by
      intro hdraws
      cases c <;> simp [Call.draws] at hdraws
      exact (hJ.of_content_eq p.content_supersede).upToDate_perform hv
    refine ⟨hJ.call c hc, ?_, fun hd hb => hb (hdrawn hd)⟩
    intro hb
    cases hw : c.writes with
    | true => exact Or.inr rfl
    | false =>
      have hd : c.draws = false := Bool.eq_false_iff.mpr fun hd => hb (hdrawn hd)
      exact Or.inl fun hup => hb ((c.upToDate_perform hw hd).mpr hup)
  task p t hJ := by
    have hup := hJ.upToDate_task hv t
    exact ⟨hJ.task t, fun hb hn => hb (hup.1 hn), fun hg hb => hb (hup.2 hg)⟩

namespace Session

/-- A view `v` mounted at `n`, in the midst of a session. -/
structure Sound (v : View) (n : NodeId) (m : Session ω) : Prop where
  /-- The renderer is there, and it is steady. -/
  site : ∃ r, m.renderer = some r ∧ Steady v n ⟨r, m.queues⟩ m.taken
  /-- What is about to run is confined. -/
  agenda : ∀ a ∈ m.agenda, a.Confined

variable {m : Session ω}

theorem sound_iff :
    m.Sound v n ↔ m.Holds (Renderer.Housed v n) fun r => ¬ r.UpToDate n := by
  constructor
  · rintro ⟨⟨r, hr, hsite⟩, hagenda⟩
    exact ⟨⟨r, hr, hsite.housed, hsite.orderly⟩, hagenda⟩
  · rintro ⟨⟨r, hr, hhoused, horderly⟩, hagenda⟩
    exact ⟨⟨r, hr, .of_orderly hhoused horderly⟩, hagenda⟩

theorem sound_mount {o : MountOptions ω} {tree : LiveTree} (wf : tree.WellFormed)
    (htarget : tree.query? o.target = some n)
    (heffects : ∀ e ∈ o.effects, SideEffect.Confined e) (hm : m.Ready) :
    (m.mount o tree).Sound o.view n := by
  refine ⟨⟨_, rfl, ?_⟩, ?_⟩
  · rw [hm.taken_mount o tree]
    exact MountOptions.steady_mount wf htarget heffects hm.waiting
  · intro a ha
    simp [hm.agenda_mount o tree] at ha

theorem Sound.reachable {start : Session ω} (h : start.Sound v n)
    (hv : ∀ s, VNode.UnreservedAll (v s).result) (hm : start.Reachable m) : m.Sound v n :=
  sound_iff.mpr ((respected_housed hv).reachable (sound_iff.mp h) hm)

/-- **At rest**: whatever was called since a view was mounted, once nothing runs and nothing waits,
    the live tree shows what the view makes of the store as it is now. -/
theorem shows_at_rest {o : MountOptions ω} {tree : LiveTree} {start : Session ω}
    (hv : ∀ s, VNode.UnreservedAll (o.view s).result) (wf : tree.WellFormed)
    (htarget : tree.query? o.target = some n)
    (heffects : ∀ e ∈ o.effects, SideEffect.Confined e) (hstart : start.Ready)
    (hm : (start.mount o tree).Reachable m) (hrest : m.isResting = true)
    (hempty : m.queues.isEmpty = true) :
    ∃ r, m.renderer = some r ∧ r.page.target = some n ∧
      r.page.tree.Shows n (o.view r.page.store.entries).result := by
  have hsound := (sound_mount wf htarget heffects hstart).reachable hv hm
  obtain ⟨r, hr, hsite⟩ := hsound.site
  have hfl := inFlight_eq_zero hrest hempty r
  refine ⟨r, hr, hsite.housed.target_eq, ?_⟩
  have hup := hsite.upToDate hfl
  rw [Renderer.UpToDate, hsite.housed.view_eq] at hup
  exact hup

/-- A write and a flush, step by step until nothing is left to do. -/
theorem shows_at_rest_after_flush :
    let o : MountOptions Unit := ⟨"#app",
      fun s => pure [.text (if (s.find? "key").isSome then "set" else "unset")], ∅, []⟩
    let start := (initial ()).mount o (LiveTree.initial.createMountPoint "app").2
    let m := step^[12] (start.run (.write "key" .null (.flush 0 fun _ => .done)))
    (m.isResting = true ∧ m.queues.isEmpty = true) ∧
      ∃ r, m.renderer = some r ∧ r.page.target = some 1 ∧
        r.page.tree.Shows 1 (o.view r.page.store.entries).result := by
  intro o start m
  have hrun : start.Reachable (start.run (.write "key" .null (.flush 0 fun _ => .done))) :=
    .run _ (fun _ => trivial) .start
  have hm : start.Reachable m := hrun.iterate 12
  have hrest : m.isResting = true ∧ m.queues.isEmpty = true := by decide
  exact ⟨hrest, shows_at_rest (o := o) (fun s => ⟨trivial, trivial⟩)
    (LiveTree.wellFormed_initial.createMountPoint (by decide) "app") (by decide) (by simp [o])
    (ready_initial ()) hm hrest.1 hrest.2⟩

end Session

end ReactiveView
