import Mathlib.Data.List.Perm.Subperm
import Mathlib.Data.List.Dedup
import ReactiveView.OrderedMap

/-! # Maps that agree

  Two ordered maps agree when every key has the same value in both; the order of
  the entries does not matter.

  * `same_iff_agree`: the test `OrderedMap.same` decides agreement.
  * `find?_foldl_erase`, `find?_foldl_insert`: what a run of erasures or
    insertions leaves under a key.
  * `agree_of_erase_insert`: erasing what is surplus and inserting what is missing
    makes two maps agree.
-/

namespace ReactiveView

variable {α : Type}

/-! ## §1. Entries and look-ups -/

namespace Entries

theorem lookup_eq_none_iff_not_mem (es : Entries α) (k : String) :
    es.lookup k = none ↔ k ∉ keys es := by
  simp only [List.lookup_eq_none_iff, bne_iff_ne, keys, List.mem_map, not_exists, not_and]
  exact ⟨fun h e he hk => h e he hk.symm, fun h e he hk => h e he hk.symm⟩

theorem lookup_eq_some_iff_mem {es : Entries α} (h : (keys es).Nodup) (k : String) (v : α) :
    es.lookup k = some v ↔ (k, v) ∈ es := by
  induction es with
  | nil => simp
  | cons e es ih =>
    obtain ⟨a, b⟩ := e
    obtain ⟨ha, hes⟩ := List.nodup_cons.mp h
    by_cases hk : k = a
    · subst hk
      have hmem : (k, v) ∉ es := fun hm => ha (List.mem_map.mpr ⟨_, hm, rfl⟩)
      simp [hmem, eq_comm]
    · have hk' : (k == a) = false := beq_false_of_ne hk
      simp [List.lookup_cons, hk', hk, ih hes]

theorem nodup_of_nodup_keys {es : Entries α} (h : (keys es).Nodup) : es.Nodup :=
  List.Nodup.of_map _ h

theorem lookup_erase_self (es : Entries α) (k : String) : (erase es k).lookup k = none := by
  rw [lookup_eq_none_iff_not_mem]
  simp [erase, keys]

theorem lookup_erase_ne (es : Entries α) {k k' : String} (hk : k' ≠ k) :
    (erase es k).lookup k' = es.lookup k' := by
  induction es with
  | nil => rfl
  | cons e es ih =>
    obtain ⟨a, b⟩ := e
    by_cases ha : a = k
    · have hk' : (k' == a) = false := beq_false_of_ne (by rw [ha]; exact hk)
      simp only [erase] at ih
      simp [erase, ha, List.lookup_cons, ih, beq_false_of_ne hk]
    · simp only [erase] at ih
      simp [erase, ha, List.lookup_cons, ih]

theorem insert_of_not_mem {es : Entries α} {k : String} (h : k ∉ keys es) (v : α) :
    insert es k v = es ++ [(k, v)] := by
  induction es with
  | nil => rfl
  | cons e es ih =>
    obtain ⟨hne, hes⟩ := not_or.mp (List.mem_cons.not.mp h)
    rw [insert, if_neg (Ne.symm hne), ih hes, List.cons_append]

/-- Of two values under one key the later stays. -/
theorem insert_insert_self (es : Entries α) (k : String) (v v' : α) :
    insert (insert es k v) k v' = insert es k v' := by
  induction es with
  | nil => simp [insert]
  | cons e es ih =>
    by_cases h : e.1 = k
    · simp [insert, h]
    · simp [insert, h, ih]

/-- A key that is present keeps its place, so a later insertion under it can come first. -/
theorem insert_insert_of_mem {es : Entries α} {k k' : String} (hmem : k ∈ keys es) (hk : k ≠ k')
    (v v' : α) : insert (insert es k' v') k v = insert (insert es k v) k' v' := by
  induction es with
  | nil => simp at hmem
  | cons e es ih =>
    by_cases h : e.1 = k
    · simp [insert, h, hk]
    · by_cases h' : e.1 = k'
      · simp [insert, h', Ne.symm hk]
      · have hmem' : k ∈ keys es := (List.mem_cons.mp hmem).resolve_left fun heq => h heq.symm
        simp [insert, h, h', ih hmem']

theorem mem_of_mem_insert {es : Entries α} {e : String × α} {k : String} {v : α}
    (h : e ∈ insert es k v) : e = (k, v) ∨ e ∈ es := by
  induction es with
  | nil => exact .inl (List.mem_singleton.mp h)
  | cons d es ih =>
    rw [insert] at h
    split at h
    · rcases List.mem_cons.mp h with rfl | h
      · exact .inl rfl
      · exact .inr (List.mem_cons_of_mem d h)
    · rcases List.mem_cons.mp h with rfl | h
      · exact .inr List.mem_cons_self
      · exact (ih h).imp_right (List.mem_cons_of_mem d)

theorem mem_of_mem_insertAll {es es' : Entries α} {e : String × α}
    (h : e ∈ insertAll es es') : e ∈ es ∨ e ∈ es' := by
  induction es' generalizing es with
  | nil => exact .inl h
  | cons d es' ih =>
    rcases ih h with h | h
    · rcases mem_of_mem_insert h with rfl | h
      · exact .inr List.mem_cons_self
      · exact .inl h
    · exact .inr (List.mem_cons_of_mem d h)

/-- Entries with new keys are put at the end. -/
theorem insertAll_of_nodup {es es' : Entries α} (h : (keys (es ++ es')).Nodup) :
    insertAll es es' = es ++ es' := by
  induction es' generalizing es with
  | nil => exact (List.append_nil es).symm
  | cons e es' ih =>
    have happend : (es ++ [e]) ++ es' = es ++ e :: es' := List.append_assoc es [e] es'
    have hnew : e.1 ∉ keys es := by
      intro hmem
      have hsplit : keys (es ++ e :: es') = keys es ++ e.1 :: keys es' := List.map_append
      rw [hsplit, List.nodup_append] at h
      exact h.2.2 e.1 hmem e.1 List.mem_cons_self rfl
    show insertAll (insert es e.1 e.2) es' = _
    rw [insert_of_not_mem hnew, ih (happend ▸ h), happend]

theorem insertAll_nil {es : Entries α} (h : (keys es).Nodup) : insertAll [] es = es :=
  @insertAll_of_nodup α [] es h

end Entries

namespace OrderedMap

theorem find?_eq_some_iff (m : OrderedMap α) (k : String) (v : α) :
    m.find? k = some v ↔ (k, v) ∈ m.entries :=
  Entries.lookup_eq_some_iff_mem m.nodup_keys k v

theorem find?_eq_none_iff (m : OrderedMap α) (k : String) : m.find? k = none ↔ k ∉ m.keys :=
  Entries.lookup_eq_none_iff_not_mem m.entries k

@[simp] theorem find?_erase_self (m : OrderedMap α) (k : String) : (m.erase k).find? k = none :=
  Entries.lookup_erase_self m.entries k

theorem find?_erase_ne (m : OrderedMap α) {k k' : String} (h : k' ≠ k) :
    (m.erase k).find? k' = m.find? k' :=
  Entries.lookup_erase_ne m.entries h

theorem find?_insert (m : OrderedMap α) (k x : String) (v : α) :
    (m.insert k v).find? x = if x = k then some v else m.find? x := by
  split
  · next h => rw [h, find?_insert_self]
  · next h => exact find?_insert_ne m v h

theorem keys_insert (m : OrderedMap α) (k : String) (v : α) :
    (m.insert k v).keys = if k ∈ m.keys then m.keys else m.keys ++ [k] :=
  Entries.keys_insert m.entries k v

theorem mem_keys_insert_iff {m : OrderedMap α} {k x : String} {v : α} :
    x ∈ (m.insert k v).keys ↔ x = k ∨ x ∈ m.keys := by
  rw [keys_insert]
  split
  · next hk => exact ⟨.inr, fun h => h.elim (fun heq => heq ▸ hk) id⟩
  · rw [List.mem_append, List.mem_singleton, or_comm]

theorem keys_erase (m : OrderedMap α) (k : String) :
    (m.erase k).keys = m.keys.filter (· != k) := by
  simp only [keys, Entries.keys, entries_erase, Entries.erase, List.filter_map]
  rfl

/-- Which keys have values is a matter of the keys. -/
theorem isSome_find?_congr {m m' : OrderedMap α} (h : m'.keys = m.keys) (k : String) :
    (m'.find? k).isSome = (m.find? k).isSome := by
  rw [Bool.eq_iff_iff, Option.isSome_iff_ne_none, Option.isSome_iff_ne_none, Ne, Ne,
    find?_eq_none_iff, find?_eq_none_iff, h]

/-! ## §2. Runs of updates -/

theorem find?_foldl_erase (ks : List String) (m : OrderedMap α) (k : String) :
    (ks.foldl erase m).find? k = if k ∈ ks then none else m.find? k := by
  induction ks generalizing m with
  | nil => simp
  | cons a ks ih =>
    rw [List.foldl_cons, ih]
    by_cases hk : k = a
    · simp [hk]
    · simp [hk, find?_erase_ne m hk]

theorem find?_foldl_insert {es : Entries α} (hes : (Entries.keys es).Nodup) (m : OrderedMap α)
    (k : String) :
    (es.foldl (fun m e => m.insert e.1 e.2) m).find? k = (es.lookup k).or (m.find? k) := by
  induction es generalizing m with
  | nil => simp
  | cons e es ih =>
    obtain ⟨a, b⟩ := e
    obtain ⟨ha, hes⟩ := List.nodup_cons.mp hes
    rw [List.foldl_cons, ih hes]
    by_cases hk : k = a
    · subst hk
      -- The key does not come up again, so the value stays.
      have hnone : es.lookup k = none := (Entries.lookup_eq_none_iff_not_mem es k).mpr ha
      simp [hnone]
    · have hk' : (k == a) = false := beq_false_of_ne hk
      simp [List.lookup_cons, hk', find?_insert_ne m b hk]

/-- Inserted one after the other, the entries of a map are the map. -/
theorem insertAll_empty (m : OrderedMap α) : (∅ : OrderedMap α).insertAll m.entries = m :=
  OrderedMap.ext (Entries.insertAll_nil m.nodup_keys)

theorem foldl_insert (es : Entries α) (m : OrderedMap α) :
    es.foldl (fun m e => m.insert e.1 e.2) m = m.insertAll es := by
  induction es generalizing m with
  | nil => rfl
  | cons e es ih => exact ih (m.insert e.1 e.2)

/-! ## §3. Agreement -/

/-- Every key has the same value in both maps. -/
def Agree (m m' : OrderedMap α) : Prop := ∀ k, m.find? k = m'.find? k

theorem Agree.refl (m : OrderedMap α) : m.Agree m := fun _ => rfl

theorem Agree.trans {m m' m'' : OrderedMap α} (h : m.Agree m') (h' : m'.Agree m'') : m.Agree m'' :=
  fun k => (h k).trans (h' k)

theorem Agree.insert {m m' : OrderedMap α} (h : m.Agree m') (k : String) (v : α) :
    (m.insert k v).Agree (m'.insert k v) := by
  intro x
  rw [find?_insert, find?_insert, h x]

/-- Insertions under different keys can be exchanged. -/
theorem agree_insert_comm (m : OrderedMap α) {k k' : String} (hk : k ≠ k') (v v' : α) :
    ((m.insert k v).insert k' v').Agree ((m.insert k' v').insert k v) := by
  intro x
  simp only [find?_insert]
  by_cases hx : x = k
  · rw [if_neg (hx ▸ hk), if_pos hx, if_pos hx]
  · rw [if_neg hx, if_neg hx]

/-- Maps that agree have the same entries, in some order. -/
theorem Agree.entries_perm {m m' : OrderedMap α} (h : m.Agree m') :
    m.entries.Perm m'.entries := by
  rw [List.perm_ext_iff_of_nodup (Entries.nodup_of_nodup_keys m.nodup_keys)
    (Entries.nodup_of_nodup_keys m'.nodup_keys)]
  intro hall
  obtain ⟨k, v⟩ := hall
  rw [← find?_eq_some_iff, ← find?_eq_some_iff, h k]

theorem agree_of_entries_subset {m m' : OrderedMap α} (hsize : m.size = m'.size)
    (h : ∀ e ∈ m.entries, m'.find? e.1 = some e.2) : m.Agree m' := by
  have hsub : m.entries ⊆ m'.entries := fun e he => (find?_eq_some_iff m' e.1 e.2).mp (h e he)
  have hperm : m.entries.Perm m'.entries :=
    ((Entries.nodup_of_nodup_keys m.nodup_keys).subperm hsub).perm_of_length_le
      (Nat.le_of_eq hsize.symm)
  intro k
  ext v
  rw [find?_eq_some_iff, find?_eq_some_iff, hperm.mem_iff]

/-- The test for equality without regard to order decides agreement. -/
theorem same_iff_agree [BEq α] [LawfulBEq α] (m m' : OrderedMap α) :
    m.same m' = true ↔ m.Agree m' := by
  simp only [same, sameBy, Bool.and_eq_true, beq_iff_eq, List.all_eq_true]
  -- The test looks up the entries of one side only; the sizes stand for the other side.
  constructor
  · intro hx
    obtain ⟨hsize, hall⟩ := hx
    refine agree_of_entries_subset hsize ?_
    intro e he
    have := hall e he
    split at this
    · next v hv => rw [hv, eq_of_beq this]
    · simp at this
  · intro h
    refine ⟨h.entries_perm.length_eq, ?_⟩
    intro e he
    have : m'.find? e.1 = some e.2 := by
      rw [← h e.1]
      exact (find?_eq_some_iff m e.1 e.2).mpr he
    simp [this]

theorem sameBy_self {same : α → α → Bool} (h : ∀ v, same v v = true) (m : OrderedMap α) :
    m.sameBy same m = true := by
  simp only [sameBy, Bool.and_eq_true, beq_iff_eq, List.all_eq_true]
  refine ⟨trivial, ?_⟩
  intro e he
  rw [(find?_eq_some_iff m e.1 e.2).mpr he]
  exact h e.2

/-- The keys of `m` that `m'` does not have. -/
def surplus (m m' : OrderedMap α) : List String := m.keys.filter (!m'.contains ·)

/-- The entries of `m'` that `m` does not have, or has with another value. -/
def missing [BEq α] (m m' : OrderedMap α) : Entries α :=
  m'.entries.filter fun e => m.find? e.1 != some e.2

/-- A map without its surplus and with what was missing agrees with the other. -/
theorem agree_of_erase_insert [BEq α] [LawfulBEq α] (m m' : OrderedMap α) :
    ((m.missing m').foldl (fun m e => m.insert e.1 e.2)
      ((m.surplus m').foldl erase m)).Agree m' := by
  have hnd : (Entries.keys (m.missing m')).Nodup :=
    m'.nodup_keys.sublist (List.filter_sublist.map _)
  intro k
  rw [find?_foldl_insert hnd, find?_foldl_erase]
  cases hk : m'.find? k with
  | none =>
    have hmiss : (m.missing m').lookup k = none := by
      rw [Entries.lookup_eq_none_iff_not_mem]
      intro hmem
      obtain ⟨e, he, rfl⟩ := List.mem_map.mp hmem
      have := (find?_eq_none_iff m' e.1).mp hk
      exact this (List.mem_map.mpr ⟨e, (List.mem_filter.mp he).1, rfl⟩)
    have hcon : m'.contains k = false := by simp [contains, hk]
    rw [hmiss, Option.none_or]
    -- Either the key was surplus, or it was never there.
    split
    · rfl
    · next hsur =>
      rw [find?_eq_none_iff]
      intro hmem
      exact hsur (List.mem_filter.mpr ⟨hmem, by simp [hcon]⟩)
  | some v =>
    have hcon : m'.contains k = true := by simp [contains, hk]
    have hsur : k ∉ m.surplus m' := by
      intro hmem
      simpa [hcon] using (List.mem_filter.mp hmem).2
    rw [if_neg hsur]
    by_cases hv : m.find? k = some v
    · rw [hv]
      cases hl : (m.missing m').lookup k with
      | none => rfl
      | some u =>
        have hmem := (Entries.lookup_eq_some_iff_mem hnd k u).mp hl
        have hu : m'.find? k = some u := (find?_eq_some_iff m' k u).mpr (List.mem_filter.mp hmem).1
        rw [hk] at hu
        exact hu.symm ▸ rfl
    · have hmem : (k, v) ∈ m.missing m' :=
        List.mem_filter.mpr ⟨(find?_eq_some_iff m' k v).mp hk, by simpa using hv⟩
      rw [(Entries.lookup_eq_some_iff_mem hnd k v).mpr hmem]
      rfl

/-- Maps without surplus and missing entries agree. -/
theorem agree_of_surplus_of_missing [BEq α] [LawfulBEq α] {m m' : OrderedMap α}
    (hs : m.surplus m' = []) (hm : m.missing m' = []) : m.Agree m' := by
  have := agree_of_erase_insert m m'
  simpa [hs, hm] using this

end OrderedMap

end ReactiveView
