import Mathlib.Data.List.Induction
import Mathlib.Data.List.Nodup
import Mathlib.Logic.Function.Basic
import ReactiveView.Registry

/-! # Registries that share one supply

  Callbacks are registered, unregistered, drained and listed in any number of
  registries, in any order, and identifiers are drawn that no registry knows.
  All identifiers come from one supply.

  * `Registries.standing`: what a history leaves in a registry, told by its
    events alone.
  * `Registries.Told`: the history tells what the registries hold. One operation
    keeps it (`Told.perform`), so it holds after any operations
    (`told_performAll`).
  * `Registries.callbacks_kept_apart`: no callback is taken for another.
-/

namespace ReactiveView

variable {ι α : Type}

/-! ## §1. One registry -/

namespace Registry

/-- An identifier belongs to one entry, which goes. -/
theorem entries_unregister {r : Registry α} (h : (r.entries.map (·.1)).Nodup) (id : CallbackId) :
    (r.unregister id).entries = r.entries.filter (·.1 ≠ id) := by
  obtain ⟨entries⟩ := r
  show entries.eraseP (·.1 = id) = entries.filter (·.1 ≠ id)
  replace h : (entries.map (·.1)).Nodup := h
  induction entries with
  | nil => rfl
  | cons e entries ih =>
    obtain ⟨hother, hnodup⟩ := List.nodup_cons.mp h
    by_cases hid : e.1 = id
    · have hkeep : entries.filter (·.1 ≠ id) = entries := by
        refine List.filter_eq_self.mpr fun x hx => ?_
        simpa using fun hxid => hother (List.mem_map.mpr ⟨x, hx, hxid.trans hid.symm⟩)
      rw [List.eraseP_cons_of_pos (by simpa using hid),
        List.filter_cons_of_neg (by simpa using hid), hkeep]
    · rw [List.eraseP_cons_of_neg (by simpa using hid),
        List.filter_cons_of_pos (by simpa using hid), ih hnodup]

/-- The entries in front of an entry have other identifiers. -/
theorem entries_split {r : Registry α} {e : CallbackId × α} (h : (r.entries.map (·.1)).Nodup)
    (he : e ∈ r.entries) :
    ∃ front behind, r.entries = front ++ e :: behind ∧ ∀ x ∈ front, x.1 ≠ e.1 := by
  obtain ⟨front, behind, hentries⟩ := List.append_of_mem he
  refine ⟨front, behind, hentries, fun x hx => ?_⟩
  rw [hentries, List.map_append, List.nodup_append] at h
  exact h.2.2 x.1 (List.mem_map_of_mem hx) e.1 (by simp)

/-- An identifier finds the callback it was given to. -/
theorem find?_eq_some_iff {r : Registry α} (h : (r.entries.map (·.1)).Nodup) {id : CallbackId}
    {callback : α} : r.find? id = some callback ↔ (id, callback) ∈ r.entries := by
  constructor
  · intro hfind
    obtain ⟨e, he, rfl⟩ := Option.map_eq_some_iff.mp hfind
    have hid : e.1 = id := by simpa using List.find?_some he
    rw [← hid]
    exact List.mem_of_find?_eq_some he
  · intro hmem
    obtain ⟨front, behind, hentries, hfront⟩ := entries_split h hmem
    have hnone : front.find? (·.1 = id) = none := by simpa using hfront
    rw [find?, hentries, List.find?_append, hnone]
    simp

/-- What an identifier was given to goes alone. -/
theorem unregister_of_mem {r : Registry α} {id : CallbackId} {callback : α}
    (h : (r.entries.map (·.1)).Nodup) (hmem : (id, callback) ∈ r.entries) :
    ∃ front behind, r.entries = front ++ (id, callback) :: behind ∧
      r.unregister id = ⟨front ++ behind⟩ := by
  obtain ⟨front, behind, hentries, hfront⟩ := entries_split h hmem
  refine ⟨front, behind, hentries, ?_⟩
  rw [unregister, hentries, List.eraseP_append_right _ (by simpa using hfront)]
  simp

/-- An identifier that was given to nothing finds nothing. -/
theorem find?_eq_none {r : Registry α} {id : CallbackId}
    (h : ∀ callback, (id, callback) ∉ r.entries) : r.find? id = none := by
  refine Option.map_eq_none_iff.mpr (List.find?_eq_none.mpr fun e he hid => h e.2 ?_)
  rw [← of_decide_eq_true hid]
  exact he

/-- An identifier that was given to nothing in the registry removes nothing. -/
theorem unregister_eq_self {r : Registry α} {id : CallbackId}
    (h : ∀ callback, (id, callback) ∉ r.entries) : r.unregister id = r := by
  rw [unregister, List.eraseP_of_forall_not fun e he hid => h e.2 ?_]
  rw [← of_decide_eq_true hid]
  exact he

end Registry

/-! ## §2. Operations on registries -/

/-- Registries that draw their identifiers from one supply. -/
structure Registries (ι α : Type) where
  /-- The supply. -/
  supply : CallbackSupply
  /-- The registries by name. -/
  registry : ι → Registry α

namespace Registries

/-- What can be done. -/
inductive Operation (ι α : Type) where
  /-- Register a callback. -/
  | register (r : ι) (callback : α)
  /-- Unregister what has an identifier. -/
  | unregister (r : ι) (id : CallbackId)
  /-- Remove and return all callbacks. -/
  | drain (r : ι)
  /-- Copy all callbacks. -/
  | snapshot (r : ι)
  /-- Draw an identifier that no registry knows. -/
  | draw

/-- An operation with its answer. -/
inductive Event (ι α : Type) where
  /-- A callback was registered under an identifier. -/
  | registered (r : ι) (id : CallbackId) (callback : α)
  /-- An identifier was unregistered, and its callback returned if it was there. -/
  | unregistered (r : ι) (id : CallbackId) (callback : Option α)
  /-- All callbacks were removed and returned. -/
  | drained (r : ι) (callbacks : List α)
  /-- All callbacks were copied. -/
  | listed (r : ι) (callbacks : List α)
  /-- An identifier was drawn. -/
  | drawn (id : CallbackId)

/-- The identifier that an event hands out. -/
def Event.issued? : Event ι α → Option CallbackId
  | registered _ id _ => some id
  | drawn id => some id
  | _ => none

/-- The identifiers that were handed out, in order. -/
def issued (past : List (Event ι α)) : List CallbackId := past.filterMap Event.issued?

theorem issued_append (past later : List (Event ι α)) :
    issued (past ++ later) = issued past ++ issued later := List.filterMap_append

theorem issued_singleton (e : Event ι α) : issued [e] = e.issued?.toList := by
  cases h : e.issued? <;> simp [issued, h]

/-- Registries without callbacks. -/
def empty (supply : CallbackSupply) : Registries ι α := ⟨supply, fun _ => .empty⟩

variable [DecidableEq ι]

/-- Puts a registry in the place of another. -/
def put (w : Registries ι α) (r : ι) (new : Registry α) : Registries ι α :=
  { w with registry := Function.update w.registry r new }

/-- Performs an operation. -/
def perform (w : Registries ι α) : Operation ι α → Event ι α × Registries ι α
  | .register r callback =>
    let (id, new, supply) := (w.registry r).register w.supply callback
    (.registered r id callback, { w.put r new with supply })
  | .unregister r id =>
    (.unregistered r id ((w.registry r).find? id), w.put r ((w.registry r).unregister id))
  | .drain r => (.drained r (w.registry r).snapshot, w.put r .empty)
  | .snapshot r => (.listed r (w.registry r).snapshot, w)
  | .draw => (.drawn w.supply.fresh.1, { w with supply := w.supply.fresh.2 })

/-- The registries after operations. -/
def performAll (w : Registries ι α) (ops : List (Operation ι α)) : Registries ι α :=
  ops.foldl (fun w op => (w.perform op).2) w

/-- The events of operations. -/
def history (w : Registries ι α) : List (Operation ι α) → List (Event ι α)
  | [] => []
  | op :: ops => (w.perform op).1 :: (w.perform op).2.history ops

variable {w : Registries ι α} {past : List (Event ι α)}

@[simp] theorem registry_put (w : Registries ι α) (r : ι) (new : Registry α) (r' : ι) :
    (w.put r new).registry r' = if r' = r then new else w.registry r' := by
  simp [put, Function.update_apply]

theorem put_self (w : Registries ι α) (r : ι) : w.put r (w.registry r) = w := by
  simp [put]

theorem performAll_concat (w : Registries ι α) (ops : List (Operation ι α)) (op : Operation ι α) :
    w.performAll (ops ++ [op]) = ((w.performAll ops).perform op).2 := by
  simp [performAll]

theorem history_concat (w : Registries ι α) (ops : List (Operation ι α)) (op : Operation ι α) :
    w.history (ops ++ [op]) = w.history ops ++ [((w.performAll ops).perform op).1] := by
  induction ops generalizing w with
  | nil => rfl
  | cons op' ops ih => exact congrArg ((w.perform op').1 :: ·) (ih (w.perform op').2)

/-! ## §3. What a history leaves in a registry -/

/-- The callback that an event puts into a registry. -/
def Event.entry? (r : ι) : Event ι α → Option (CallbackId × α)
  | registered r' id callback => if r' = r then some (id, callback) else none
  | _ => none

/-- Whether an event takes what has the identifier out of a registry, should it be there. -/
def Event.withdraws (r : ι) (id : CallbackId) : Event ι α → Bool
  | unregistered r' id' _ => r' = r ∧ id' = id
  | drained r' _ => r' = r
  | _ => false

/-- The callbacks that were registered in a registry, and since then neither unregistered nor
    drained, in the order of their registration. -/
def standing (r : ι) : List (Event ι α) → List (CallbackId × α)
  | [] => []
  | e :: later =>
    ((e.entry? r).filter fun x => later.all (!·.withdraws r x.1)).toList ++ standing r later

/-- One more event withdraws callbacks or brings one in. -/
theorem standing_concat (r : ι) (past : List (Event ι α)) (e : Event ι α) :
    standing r (past ++ [e]) =
      (standing r past).filter (!e.withdraws r ·.1) ++ (e.entry? r).toList := by
  induction past with
  | nil => cases h : e.entry? r <;> simp [standing, h]
  | cons f past ih =>
    have hfirst : ((f.entry? r).filter fun x => (past ++ [e]).all (!·.withdraws r x.1)).toList =
        (((f.entry? r).filter fun x => past.all (!·.withdraws r x.1)).toList).filter
          (!e.withdraws r ·.1) := by
      cases hf : f.entry? r with
      | none => rfl
      | some x =>
        cases hpast : past.all (!·.withdraws r x.1) <;> cases he : e.withdraws r x.1 <;>
          simp [Option.filter, hpast, he]
    rw [List.cons_append, standing, hfirst, ih, standing, List.filter_append, List.append_assoc]

/-- What stands in a registry has identifiers that were handed out, in this order. -/
theorem standing_sublist (r : ι) (past : List (Event ι α)) :
    ((standing r past).map (·.1)).Sublist (issued past) := by
  induction past with
  | nil => exact List.Sublist.refl _
  | cons e later ih =>
    have hfirst : (((e.entry? r).filter fun x =>
        later.all (!·.withdraws r x.1)).toList.map (·.1)).Sublist e.issued?.toList := by
      cases e with
      | registered r' id callback =>
        by_cases hr : r' = r
        · cases h : later.all (!·.withdraws r id) <;>
            simp [Event.entry?, Event.issued?, Option.filter, hr, h]
        · simp [Event.entry?, hr]
      | _ => simp [Event.entry?]
    rw [standing, List.map_append, ← List.singleton_append, issued_append, issued_singleton]
    exact hfirst.append ih

/-! ## §4. The history tells what the registries hold -/

/-- A history that the registries have behind them. -/
structure Told (past : List (Event ι α)) (w : Registries ι α) : Prop where
  /-- A registry holds what stands in it. -/
  entries_eq : ∀ r, (w.registry r).entries = standing r past
  /-- No identifier was handed out twice. -/
  nodup : (issued past).Nodup
  /-- The supply has counted all that were handed out. -/
  issued_lt : ∀ id ∈ issued past, id.serial < w.supply.issued

theorem told_empty (supply : CallbackSupply) : Told [] (empty supply : Registries ι α) where
  entries_eq := fun _ => rfl
  nodup := List.nodup_nil
  issued_lt := by simp [issued]

namespace Told

/-- No two callbacks of a registry have one identifier. -/
theorem nodup_entries (h : Told past w) (r : ι) :
    ((w.registry r).entries.map (·.1)).Nodup := by
  rw [h.entries_eq]
  exact h.nodup.sublist (standing_sublist r past)

/-- A fresh identifier was not handed out before. -/
theorem handOut {supply : CallbackSupply} (h : Told past w) {e : Event ι α}
    (he : e.issued? = some w.supply.fresh.1) (hsupply : supply = w.supply.fresh.2) :
    (issued (past ++ [e])).Nodup ∧ ∀ id ∈ issued (past ++ [e]), id.serial < supply.issued := by
  rw [issued_append, issued_singleton, he, hsupply]
  constructor
  · refine List.nodup_append.mpr ⟨h.nodup, List.nodup_singleton _, ?_⟩
    intro id hid id' hid' heq
    have hlt := h.issued_lt id hid
    rw [heq, List.mem_singleton.mp hid'] at hlt
    exact absurd hlt (Nat.lt_irrefl _)
  · intro id hid
    rcases List.mem_append.mp hid with hid | hid
    · exact Nat.lt_succ_of_lt (h.issued_lt id hid)
    · rw [List.mem_singleton.mp hid]
      exact Nat.lt_succ_self _

/-- An event that hands out nothing. -/
theorem handOut_none (h : Told past w) {e : Event ι α} (he : e.issued? = none) :
    (issued (past ++ [e])).Nodup ∧ ∀ id ∈ issued (past ++ [e]), id.serial < w.supply.issued := by
  rw [issued_append, issued_singleton, he, Option.toList_none, List.append_nil]
  exact ⟨h.nodup, h.issued_lt⟩

/-- **One operation** keeps the books. -/
theorem perform (h : Told past w) (op : Operation ι α) :
    Told (past ++ [(w.perform op).1]) (w.perform op).2 := by
  have hissued : (issued (past ++ [(w.perform op).1])).Nodup ∧
      ∀ id ∈ issued (past ++ [(w.perform op).1]), id.serial < (w.perform op).2.supply.issued := by
    cases op with
    | register r callback => exact h.handOut rfl rfl
    | draw => exact h.handOut rfl rfl
    | _ => exact h.handOut_none rfl
  refine ⟨fun r' => ?_, hissued.1, hissued.2⟩
  rw [standing_concat, ← h.entries_eq]
  cases op with
  | register r callback =>
    by_cases hr : r' = r
    · subst hr
      simp [Registries.perform, Registry.register, Event.withdraws, Event.entry?]
    · simp [Registries.perform, Registry.register, Event.withdraws, Event.entry?, hr, Ne.symm hr]
  | unregister r id =>
    by_cases hr : r' = r
    · subst hr
      simp [Registries.perform, Registry.entries_unregister (h.nodup_entries r'),
        Event.withdraws, Event.entry?, eq_comm]
    · simp [Registries.perform, Event.withdraws, Event.entry?, hr, Ne.symm hr]
  | drain r =>
    by_cases hr : r' = r
    · simp [Registries.perform, Registry.empty, Event.withdraws, Event.entry?, hr]
    · simp [Registries.perform, Event.withdraws, Event.entry?, hr, Ne.symm hr]
  | snapshot r => simp [Registries.perform, Event.withdraws, Event.entry?]
  | draw => simp [Registries.perform, Event.withdraws, Event.entry?]

end Told

/-- **Any operations** keep the books. -/
theorem told_performAll (supply : CallbackSupply) (ops : List (Operation ι α)) :
    Told ((empty supply).history ops) ((empty supply).performAll ops) := by
  induction ops using List.reverseRecOn with
  | nil => exact told_empty supply
  | append_singleton ops op ih =>
    rw [history_concat, performAll_concat]
    exact ih.perform op

/-- **Callbacks are kept apart**, after any operations on any number of registries:

    * no identifier was handed out twice, by whatever registry;
    * a registry lists the callbacks that were registered in it and since then neither unregistered
      nor drained, in the order of their registration;
    * unregistering an identifier returns the callback that stands under it in this registry, and
      removes it alone;
    * an identifier under which none stands removes nothing anywhere;
    * draining returns what is listed, and leaves this registry empty and the others alone. -/
theorem callbacks_kept_apart (supply : CallbackSupply) (ops : List (Operation ι α)) :
    let past := (empty supply).history ops
    let now := (empty supply).performAll ops
    (issued past).Nodup ∧
      (∀ r, now.perform (.snapshot r) = (.listed r ((standing r past).map (·.2)), now)) ∧
      (∀ r id callback, (now.perform (.unregister r id)).1 = .unregistered r id (some callback) ↔
        (id, callback) ∈ standing r past) ∧
      (∀ r id callback, (id, callback) ∈ standing r past → ∃ front behind,
        standing r past = front ++ (id, callback) :: behind ∧
          (now.perform (.unregister r id)).2 = now.put r ⟨front ++ behind⟩) ∧
      (∀ r id, (∀ callback, (id, callback) ∉ standing r past) →
        now.perform (.unregister r id) = (.unregistered r id none, now)) ∧
      ∀ r, now.perform (.drain r) =
        (.drained r ((standing r past).map (·.2)), now.put r .empty) := by
  intro past now
  have htold : Told past now := told_performAll supply ops
  have hlisted : ∀ r, (now.registry r).snapshot = (standing r past).map (·.2) :=
    fun r => congrArg (List.map Prod.snd) (htold.entries_eq r)
  refine ⟨htold.nodup, fun r => ?_, fun r id callback => ?_, fun r id callback hmem => ?_,
    fun r id hnone => ?_, fun r => ?_⟩
  · rw [perform, hlisted]
  · rw [← htold.entries_eq, ← Registry.find?_eq_some_iff (htold.nodup_entries r)]
    simp [perform]
  · rw [← htold.entries_eq] at hmem ⊢
    obtain ⟨front, behind, hentries, hgone⟩ :=
      Registry.unregister_of_mem (htold.nodup_entries r) hmem
    exact ⟨front, behind, hentries, congrArg (now.put r) hgone⟩
  · rw [perform, Registry.unregister_eq_self, Registry.find?_eq_none, put_self]
    all_goals
      intro callback
      rw [htold.entries_eq]
      exact hnone callback
  · rw [perform, hlisted]

/-- Two registries, one of which was drained. An identifier of the other one, one that was
    unregistered, one that was drained and one that was only drawn remove nothing; the one that
    stands between two others is removed. -/
theorem callbacks_kept_apart_two_registries :
    let ops : List (Operation Bool String) := [.register true "a", .register false "b",
      .register true "c", .draw, .register true "d", .unregister true ⟨1⟩, .register false "e",
      .unregister true ⟨0⟩, .drain false, .register false "f", .register true "g"]
    let past := (empty ⟨0⟩).history ops
    let now := (empty ⟨0⟩).performAll ops
    standing true past = [(⟨2⟩, "c"), (⟨4⟩, "d"), (⟨7⟩, "g")] ∧
      (∀ n ∈ [0, 1, 3, 5, 6], now.perform (.unregister true ⟨n⟩) =
        (.unregistered true ⟨n⟩ none, now)) ∧
      (now.perform (.unregister true ⟨4⟩)).1 = .unregistered true ⟨4⟩ (some "d") ∧
      (now.perform (.unregister true ⟨4⟩)).2 = now.put true ⟨[(⟨2⟩, "c"), (⟨7⟩, "g")]⟩ ∧
      now.perform (.drain false) = (.drained false ["f"], now.put false .empty) := by
  intro ops past now
  have hstanding : standing true past = [(⟨2⟩, "c"), (⟨4⟩, "d"), (⟨7⟩, "g")] := by decide
  obtain ⟨-, -, hanswer, hgone, hnone, hdrain⟩ := callbacks_kept_apart ⟨0⟩ ops
  have hmem : ((⟨4⟩, "d") : CallbackId × String) ∈ standing true past := by rw [hstanding]; decide
  refine ⟨hstanding, fun n hn => hnone true ⟨n⟩ fun callback => ?_, (hanswer _ _ _).mpr hmem, ?_,
    hdrain false⟩
  · show (⟨n⟩, callback) ∉ standing true past
    rw [hstanding]
    have hother : n ≠ 2 ∧ n ≠ 4 ∧ n ≠ 7 := by
      revert n
      decide
    simp [hother]
  · obtain ⟨front, behind, hsplit, heq⟩ := hgone _ _ _ hmem
    rw [heq]
    replace hsplit : [((⟨2⟩ : CallbackId), "c"), (⟨4⟩, "d"), (⟨7⟩, "g")] =
        front ++ (⟨4⟩, "d") :: behind := hstanding.symm.trans hsplit
    -- Only in its second place the list has the entry.
    rcases front with _ | ⟨a, _ | ⟨b, _ | ⟨c, front⟩⟩⟩ <;> simp at hsplit
    obtain ⟨rfl, rfl⟩ := hsplit
    rfl

end Registries

end ReactiveView
