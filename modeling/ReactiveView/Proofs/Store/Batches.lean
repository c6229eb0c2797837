import Mathlib.Data.List.Induction
import ReactiveView.Proofs.OrderedMap.Agree
import ReactiveView.Store

/-! # Batches of a store

  Writes, removals and snapshots that are taken follow each other in any order.
  The pending snapshot says where the batch began.

  * `Store.Change`: the changes that operations are made of, entry by entry.
    `Store.performAll_eq` says that a store is what its changes make of it.
  * `Store.marks_pending`: a snapshot is pending while a batch is open, and shows
    the store just before the first write of the batch.
  * `Store.setState_setState`: two updates after each other are one.
-/

namespace ReactiveView

namespace Store

/-! ## §1. Operations -/

/-- What can be done to a store. -/
inductive Operation where
  /-- Write an entry. -/
  | write (key : String) (v : Value)
  /-- Write the defined entries of an update. -/
  | setState (u : Update)
  /-- Remove an entry. -/
  | remove (key : String)
  /-- Try to replace the store. -/
  | replace (entries : Snapshot)
  /-- Take the pending snapshot, which ends the batch. -/
  | takeSnapshot

/-- What an operation answers. -/
inductive Answer where
  /-- Nothing. -/
  | done
  /-- How many entries were written. -/
  | written (count : Nat)
  /-- What was removed. -/
  | removed (old : Option Value)
  /-- Whether the store was replaced. -/
  | replaced (verdict : Except StoreError Unit)
  /-- The snapshot that was pending. -/
  | taken (snapshot : Option Snapshot)

/-- Performs an operation. -/
def perform (s : Store) : Operation → Traced (Answer × Store)
  | .write key v => return (.done, s.write key v)
  | .setState u => return (.written (written u), s.setState u)
  | .remove key => return (.removed (s.read key), s.remove key)
  | .replace entries => do
    let verdict ← replace entries
    return (.replaced verdict, s)
  | .takeSnapshot => return (.taken s.pending, s.closeBatch)

/-- The store after operations. -/
def performAll (s : Store) (ops : List Operation) : Store :=
  ops.foldl (fun s op => (s.perform op).result.2) s

/-! ## §2. Changes, entry by entry -/

/-- A change of a store. -/
inductive Change where
  /-- An entry is written. -/
  | write (key : String) (v : Value)
  /-- An entry is removed. -/
  | remove (key : String)
  /-- The snapshot is taken. -/
  | take

/-- The changes that an operation makes, in order. -/
def Operation.changes : Operation → List Change
  | write key v => [.write key v]
  | setState u => u.entries.filterMap fun e => e.2.map (.write e.1)
  | remove key => [.remove key]
  | replace _ => []
  | takeSnapshot => [.take]

/-- Makes a change. -/
def change (s : Store) : Change → Store
  | .write key v => s.write key v
  | .remove key => s.remove key
  | .take => s.closeBatch

/-- Makes changes in order. -/
def changeAll (s : Store) (cs : List Change) : Store := cs.foldl change s

variable {s : Store} {cs before : List Change} {c : Change}

@[simp] theorem changeAll_append (s : Store) (cs cs' : List Change) :
    s.changeAll (cs ++ cs') = (s.changeAll cs).changeAll cs' := List.foldl_append

theorem writeAll_eq_changeAll (s : Store) (es : List (String × Option Value)) :
    s.writeAll es = s.changeAll (es.filterMap fun e => e.2.map (.write e.1)) := by
  induction es generalizing s with
  | nil => rfl
  | cons e es ih =>
    obtain ⟨key, v⟩ := e
    cases v with
    | none => exact ih s
    | some v => exact ih (s.write key v)

/-- An operation is its changes. -/
theorem perform_eq (s : Store) (op : Operation) :
    (s.perform op).result.2 = s.changeAll op.changes := by
  cases op with
  | setState u => exact s.writeAll_eq_changeAll u.entries
  | _ => rfl

/-- **A store** is what the changes of its operations make of it. -/
theorem performAll_eq (s : Store) (ops : List Operation) :
    s.performAll ops = s.changeAll (ops.flatMap Operation.changes) := by
  induction ops generalizing s with
  | nil => rfl
  | cons op ops ih =>
    rw [List.flatMap_cons, changeAll_append, ← perform_eq]
    exact ih _

/-! ## §3. Where a batch begins -/

/-- No batch is open: the snapshot was taken after each write. -/
def Closed (cs : List Change) : Prop :=
  ∀ before key v after, cs = before ++ .write key v :: after → .take ∈ after

/-- A batch is open, and began after the changes `before`: with the first write of those that no
    snapshot was taken after. -/
def BeginsAfter (cs before : List Change) : Prop :=
  Closed before ∧ ∃ key v after, cs = before ++ .write key v :: after ∧ .take ∉ after

theorem closed_nil : Closed [] := by
  intro before key v after h
  simp at h

theorem Closed.not_beginsAfter (h : Closed cs) : ¬ BeginsAfter cs before := by
  rintro ⟨-, key, v, after, hcs, htake⟩
  exact htake (h before key v after hcs)

/-- A batch has one beginning. -/
theorem BeginsAfter.unique {before' : List Change} (h : BeginsAfter cs before)
    (h' : BeginsAfter cs before') : before = before' := by
  -- Of two writes without a snapshot after them, the later would stand in a history that is closed.
  have hle : ∀ {b b' : List Change}, BeginsAfter cs b → BeginsAfter cs b' →
      b'.length ≤ b.length := by
    rintro b b' ⟨-, key, v, after, hcs, htake⟩ ⟨hb', key', v', after', hcs', -⟩
    by_contra hlt
    obtain ⟨mid, hmid, hafter⟩ | ⟨mid, hmid, -⟩ :=
      List.append_eq_append_iff.mp (hcs.symm.trans hcs')
    · cases mid with
      | nil => simp [hmid] at hlt
      | cons c mid =>
        obtain ⟨rfl, rfl⟩ := List.cons_eq_cons.mp hafter
        exact htake (List.mem_append_left _ (hb' b key v mid hmid))
    · rw [hmid, List.length_append] at hlt
      omega
  obtain ⟨-, key, v, after, hcs, -⟩ := id h
  obtain ⟨-, key', v', after', hcs', -⟩ := id h'
  exact (List.append_inj (hcs.symm.trans hcs') (Nat.le_antisymm (hle h' h) (hle h h'))).1

/-- The last change stands at the end of a history. -/
theorem eq_or_of_concat_eq {d : Change} {after : List Change}
    (h : cs ++ [c] = before ++ d :: after) :
    c = d ∧ after = [] ∨ ∃ after', after = after' ++ [c] ∧ cs = before ++ d :: after' := by
  rcases List.eq_nil_or_concat after with rfl | ⟨after', d', rfl⟩
  · exact .inl ⟨List.singleton_inj.mp (List.append_inj' h rfl).2, rfl⟩
  · rw [List.concat_eq_append, ← List.cons_append, ← List.append_assoc] at h
    obtain ⟨hcs, hc⟩ := List.append_inj' h rfl
    obtain rfl := List.singleton_inj.mp hc
    exact .inr ⟨after', List.concat_eq_append, hcs⟩

/-- Taking the snapshot closes a batch. -/
theorem closed_concat_take (cs : List Change) : Closed (cs ++ [.take]) := by
  intro before key v after hcs
  obtain ⟨hc, -⟩ | ⟨after', rfl, -⟩ := eq_or_of_concat_eq hcs
  · cases hc
  · simp

/-- Only a write opens one. -/
theorem Closed.concat (h : Closed cs) (hc : ∀ key v, c ≠ .write key v) : Closed (cs ++ [c]) := by
  intro before key v after hcs
  obtain ⟨rfl, -⟩ | ⟨after', rfl, rfl⟩ := eq_or_of_concat_eq hcs
  · exact absurd rfl (hc key v)
  · exact List.mem_append_left _ (h before key v after' rfl)

theorem Closed.beginsAfter (h : Closed cs) (key : String) (v : Value) :
    BeginsAfter (cs ++ [.write key v]) cs :=
  ⟨h, key, v, [], rfl, List.not_mem_nil⟩

/-- An open batch goes on until the snapshot is taken. -/
theorem BeginsAfter.concat (h : BeginsAfter cs before) (hc : c ≠ .take) :
    BeginsAfter (cs ++ [c]) before := by
  obtain ⟨hclosed, key, v, after, rfl, htake⟩ := h
  refine ⟨hclosed, key, v, after ++ [c], by simp, ?_⟩
  simp only [List.mem_append, List.mem_singleton, not_or]
  exact ⟨htake, Ne.symm hc⟩

/-! ## §4. The pending snapshot -/

/-- A snapshot marks a history: it is there while a batch is open, and shows the store in which the
    batch began. -/
def Marks (initial : Snapshot) (cs : List Change) : Option Snapshot → Prop
  | none => Closed cs
  | some p => ∃ before, BeginsAfter cs before ∧ p = ((ofEntries initial).changeAll before).entries

/-- **A change** keeps the mark. -/
theorem Marks.concat {initial : Snapshot}
    (h : Marks initial cs ((ofEntries initial).changeAll cs).pending) (c : Change) :
    Marks initial (cs ++ [c]) ((ofEntries initial).changeAll (cs ++ [c])).pending := by
  rw [changeAll_append]
  cases c with
  | write key v =>
    show Marks _ _ (Option.or _ _)
    cases hp : ((ofEntries initial).changeAll cs).pending with
    | none =>
      rw [hp] at h
      exact ⟨cs, Closed.beginsAfter h key v, rfl⟩
    | some p =>
      rw [hp] at h
      obtain ⟨before, hbegins, hbefore⟩ := h
      exact ⟨before, hbegins.concat (by simp), hbefore⟩
  | remove key =>
    show Marks _ _ ((ofEntries initial).changeAll cs).pending
    cases hp : ((ofEntries initial).changeAll cs).pending with
    | none =>
      rw [hp] at h
      exact Closed.concat h (by simp)
    | some p =>
      rw [hp] at h
      obtain ⟨before, hbegins, hbefore⟩ := h
      exact ⟨before, hbegins.concat (by simp), hbefore⟩
  | take => exact closed_concat_take cs

/-- **The pending snapshot** marks the history of a store. -/
theorem marks_pending (initial : Snapshot) (cs : List Change) :
    Marks initial cs ((ofEntries initial).changeAll cs).pending := by
  -- The induction is on the last change.
  induction cs using List.reverseRecOn with
  | nil => exact closed_nil
  | append_singleton cs c ih => exact ih.concat c

theorem pending_eq_none_iff (initial : Snapshot) (cs : List Change) :
    ((ofEntries initial).changeAll cs).pending = none ↔ Closed cs := by
  have hmarks := marks_pending initial cs
  cases hp : ((ofEntries initial).changeAll cs).pending with
  | none =>
    rw [hp] at hmarks
    exact ⟨fun _ => hmarks, fun _ => rfl⟩
  | some p =>
    rw [hp] at hmarks
    obtain ⟨before, hbegins, -⟩ := hmarks
    simpa using fun h : Closed cs => h.not_beginsAfter hbegins

theorem pending_eq_some_iff (initial : Snapshot) (p : Snapshot) :
    ((ofEntries initial).changeAll cs).pending = some p ↔
      ∃ before, BeginsAfter cs before ∧ p = ((ofEntries initial).changeAll before).entries := by
  have hmarks := marks_pending initial cs
  cases hp : ((ofEntries initial).changeAll cs).pending with
  | none =>
    rw [hp] at hmarks
    refine ⟨fun h => (Option.some_ne_none p h.symm).elim, ?_⟩
    rintro ⟨before, hbegins, -⟩
    exact absurd hbegins (Closed.not_beginsAfter hmarks)
  | some p' =>
    rw [hp] at hmarks
    obtain ⟨before', hbegins', rfl⟩ := hmarks
    constructor
    · rintro ⟨⟩
      exact ⟨before', hbegins', rfl⟩
    · rintro ⟨before, hbegins, rfl⟩
      rw [hbegins.unique hbegins']

/-! ## §5. Updates after each other -/

/-- Once there is a snapshot, a write under a key that is present can come first. -/
theorem writeAll_write {es : List (String × Option Value)} {key : String} (s : Store) (v : Value)
    (hpending : s.pending ≠ none) (hkey : key ∈ s.entries.keys) (hes : key ∉ Entries.keys es) :
    (s.writeAll es).write key v = (s.write key v).writeAll es := by
  induction es generalizing s with
  | nil => rfl
  | cons e es ih =>
    obtain ⟨key', v'⟩ := e
    obtain ⟨hne, hrest⟩ := not_or.mp (List.mem_cons.not.mp hes)
    cases v' with
    | none => exact ih s hpending hkey hrest
    | some v' =>
      obtain ⟨p, hp⟩ := Option.ne_none_iff_exists'.mp hpending
      have hcomm : (s.write key' v').write key v = (s.write key v).write key' v' := by
        simp only [write, hp, Option.some_or]
        exact congrArg (Store.mk · _)
          (OrderedMap.ext (Entries.insert_insert_of_mem hkey hne v v'))
      have hkey' : key ∈ (s.write key' v').entries.keys :=
        OrderedMap.mem_keys_insert_iff.mpr (.inr hkey)
      show ((s.write key' v').writeAll es).write key v = ((s.write key v).write key' v').writeAll es
      rw [ih (s.write key' v') (by simp [hp]) hkey' hrest, hcomm]

/-- An update with one more entry. -/
theorem writeAll_insert {es : Entries (Option Value)} (hes : (Entries.keys es).Nodup)
    (hdefined : ∀ e ∈ es, e.2 ≠ none) (s : Store) (key : String) (v : Value) :
    s.writeAll (Entries.insert es key (some v)) = (s.writeAll es).write key v := by
  induction es generalizing s with
  | nil => rfl
  | cons e es ih =>
    obtain ⟨key', v'⟩ := e
    obtain ⟨hkey', hrest⟩ := List.nodup_cons.mp hes
    obtain ⟨v', rfl⟩ := Option.ne_none_iff_exists'.mp (hdefined _ List.mem_cons_self)
    by_cases hk : key' = key
    · subst hk
      -- The entry keeps its place with another value, and the later write finds it there.
      have htwice : (s.write key' v').write key' v = s.write key' v := by
        cases hp : s.pending <;> simp only [write, hp, Option.none_or, Option.some_or] <;>
          exact congrArg (Store.mk · _)
            (OrderedMap.ext (Entries.insert_insert_self s.entries.entries key' v' v))
      have hmem : key' ∈ (s.write key' v').entries.keys :=
        OrderedMap.mem_keys_insert_iff.mpr (.inl rfl)
      have hpending : (s.write key' v').pending ≠ none := by
        cases hp : s.pending <;> simp [hp]
      show _ = ((s.write key' v').writeAll es).write key' v
      rw [writeAll_write _ v hpending hmem hkey', htwice, Entries.insert, if_pos rfl]
      rfl
    · rw [Entries.insert, if_neg hk]
      exact ih hrest (fun e he => hdefined e (List.mem_cons_of_mem _ he)) (s.write key' v')

/-- **Two updates** after each other are one: the first, updated by the second. -/
theorem setState_setState (s : Store) {p q : Update} (hp : ∀ e ∈ p.entries, e.2 ≠ none)
    (hq : ∀ e ∈ q.entries, e.2 ≠ none) :
    (s.setState p).setState q = s.setState (p.insertAll q.entries) := by
  show (s.setState p).writeAll q.entries = s.setState (p.insertAll q.entries)
  generalize q.entries = es at hq
  -- The entries of the second update join the first one after the other.
  induction es generalizing p with
  | nil => rfl
  | cons e es ih =>
    obtain ⟨key, v⟩ := e
    obtain ⟨v, rfl⟩ := Option.ne_none_iff_exists'.mp (hq _ List.mem_cons_self)
    have hinsert : ∀ e ∈ (p.insert key (some v)).entries, e.2 ≠ none := by
      intro e he
      rcases Entries.mem_of_mem_insert he with rfl | he
      · simp
      · exact hp e he
    show ((s.setState p).write key v).writeAll es =
      s.setState ((p.insert key (some v)).insertAll es)
    rw [← ih hinsert fun e he => hq e (List.mem_cons_of_mem _ he)]
    exact congrArg (·.writeAll es) (writeAll_insert p.nodup_keys hp s key v).symm

theorem setState_of_undefined (s : Store) {u : Update} (hu : ∀ e ∈ u.entries, e.2 = none) :
    (s.perform (.setState u)).result = (.written 0, s) := by
  have hchanges : Operation.changes (.setState u) = [] := by
    refine List.filterMap_eq_nil_iff.mpr fun e he => ?_
    rw [hu e he]
    rfl
  have hstore : s.setState u = s := by
    have hperform := s.perform_eq (.setState u)
    rw [hchanges] at hperform
    exact hperform
  have hwritten : written u = 0 := by
    rw [written, List.filter_eq_nil_iff.mpr fun e he => by simp [hu e he]]
    rfl
  show (Answer.written (written u), s.setState u) = _
  rw [hwritten, hstore]

/-- **The pending snapshot marks the start of the batch**, for all initial entries and all
    operations:

    * it is there if and only if an entry was written and no snapshot was taken since;
    * it then shows, in entries and order, the store just before the first of these writes;
    * refused replacements and updates without a defined entry change nothing, in whatever state;
    * two updates with defined entries leave the store and the snapshot that the first one, updated
      by the second, leaves by itself. -/
theorem pending_marks_batch_start (initial : Snapshot) (ops : List Operation) :
    (((ofEntries initial).performAll ops).pending ≠ none ↔
      ∃ before key v after,
        ops.flatMap Operation.changes = before ++ .write key v :: after ∧ .take ∉ after) ∧
      (∀ p, ((ofEntries initial).performAll ops).pending = some p ↔
        ∃ before, BeginsAfter (ops.flatMap Operation.changes) before ∧
          p = ((ofEntries initial).changeAll before).entries) ∧
      (∀ (s : Store) (entries : Snapshot), (s.perform (.replace entries)).result =
        (.replaced (.error .replaceRejected), s)) ∧
      (∀ (s : Store) (u : Update), (∀ e ∈ u.entries, e.2 = none) →
        (s.perform (.setState u)).result = (.written 0, s)) ∧
      ∀ (s : Store) (p q : Update), (∀ e ∈ p.entries, e.2 ≠ none) → (∀ e ∈ q.entries, e.2 ≠ none) →
        s.performAll [.setState p, .setState q] =
          s.performAll [.setState (p.insertAll q.entries)] := by
  rw [performAll_eq]
  refine ⟨?_, ?_, fun s entries => rfl, fun s u => s.setState_of_undefined,
    fun s p q => s.setState_setState⟩
  · rw [Ne, pending_eq_none_iff]
    simp only [Closed, not_forall, exists_prop]
  · exact pending_eq_some_iff initial

/-- A batch that begins with an update, after a batch that was closed. An entry was removed
    between the two, and another one after the update. -/
theorem pending_marks_batch_start_with_update :
    ∃ s : Store, s.pending = some (.ofEntries [("b", .ofInt 2)]) ∧
      s.entries = .ofEntries [("c", .ofInt 4), ("a", .ofInt 5)] ∧
      s = (ofEntries (.ofEntries [("a", .ofInt 1), ("b", .ofInt 2)])).performAll
        [.write "a" (.ofInt 3), .takeSnapshot, .remove "a", .setState (Update.unset ∅ "b"),
          .setState (Update.set (Update.set ∅ "c" (.ofInt 4)) "a" (.ofInt 5)), .remove "b"] ∧
      (s.perform (.setState (Update.unset ∅ "b"))).result = (.written 0, s) ∧
      s.performAll [.setState (Update.set ∅ "a" .null), .setState (Update.set ∅ "a" (.ofInt 6))] =
        s.performAll [.setState (Update.set ∅ "a" (.ofInt 6))] := by
  obtain ⟨-, hpending, -, hundefined, hupdates⟩ :=
    pending_marks_batch_start (.ofEntries [("a", .ofInt 1), ("b", .ofInt 2)])
      [.write "a" (.ofInt 3), .takeSnapshot, .remove "a", .setState (Update.unset ∅ "b"),
        .setState (Update.set (Update.set ∅ "c" (.ofInt 4)) "a" (.ofInt 5)), .remove "b"]
  have hbegins : BeginsAfter [.write "a" (.ofInt 3), .take, .remove "a", .write "c" (.ofInt 4),
      .write "a" (.ofInt 5), .remove "b"] [.write "a" (.ofInt 3), .take, .remove "a"] :=
    ⟨(closed_concat_take [.write "a" (.ofInt 3)]).concat (by simp), _, _, _, rfl, by simp⟩
  have hone : ∀ v : Value, ∀ e ∈ (Update.set ∅ "a" v).entries, e.2 ≠ none := by
    intro v e he
    obtain rfl := List.mem_singleton.mp he
    simp
  refine ⟨_, (hpending _).mpr ⟨_, hbegins, rfl⟩, rfl, rfl, hundefined _ _ ?_,
    hupdates _ _ _ (hone _) (hone _)⟩
  intro e he
  obtain rfl := List.mem_singleton.mp he
  rfl

end Store

end ReactiveView
