/-! # Maps that keep the order of insertion

  An `OrderedMap` is a list of entries with distinct keys. Inserting under a key
  that is present replaces the value in place; a new key goes to the end; erasing
  keeps the order of the other entries.

  The operations are first defined on plain lists of entries (`Entries`), because
  JSON objects hold their entries as a list, and then lifted to `OrderedMap`,
  whose keys are distinct by construction.
-/

namespace ReactiveView

variable {α : Type}

/-! ## §1. Lists of entries -/

/-- A list of entries, looked up by key. -/
abbrev Entries (α : Type) := List (String × α)

namespace Entries

/-- The keys in order. -/
def keys (es : Entries α) : List String := es.map (·.1)

/-- Puts a value under a key: in place if the key is present, else at the end. -/
def insert (es : Entries α) (k : String) (v : α) : Entries α :=
  match es with
  | [] => [(k, v)]
  | e :: rest => if e.1 = k then (k, v) :: rest else e :: insert rest k v

/-- Removes the entry of a key. -/
def erase (es : Entries α) (k : String) : Entries α := es.filter (·.1 != k)

/-- Inserts the entries of `es'` in order. -/
def insertAll (es es' : Entries α) : Entries α :=
  es'.foldl (fun es e => insert es e.1 e.2) es

@[simp] theorem keys_nil : keys ([] : Entries α) = [] := rfl

@[simp] theorem keys_cons (e : String × α) (es : Entries α) : keys (e :: es) = e.1 :: keys es := rfl

theorem keys_insert (es : Entries α) (k : String) (v : α) :
    keys (insert es k v) = if k ∈ keys es then keys es else keys es ++ [k] := by
  induction es with
  | nil => simp [insert]
  | cons e es ih =>
    by_cases h : e.1 = k
    · simp [insert, h]
    · have h' : ¬ k = e.1 := fun hk => h hk.symm
      by_cases hm : k ∈ keys es <;> simp [insert, h, h', ih, hm]

theorem nodup_keys_insert {es : Entries α} (h : (keys es).Nodup) (k : String) (v : α) :
    (keys (insert es k v)).Nodup := by
  rw [keys_insert]
  split
  · exact h
  · next hk =>
    rw [List.nodup_append]
    refine ⟨h, by simp, ?_⟩
    intro a ha b hb hab
    simp at hb
    exact hk (by rw [← hb, ← hab]; exact ha)

theorem nodup_keys_erase {es : Entries α} (h : (keys es).Nodup) (k : String) :
    (keys (erase es k)).Nodup :=
  h.sublist (List.filter_sublist.map _)

theorem nodup_keys_insertAll {es : Entries α} (h : (keys es).Nodup) (es' : Entries α) :
    (keys (insertAll es es')).Nodup := by
  induction es' generalizing es with
  | nil => exact h
  | cons e es' ih => exact ih (nodup_keys_insert h e.1 e.2)

@[simp] theorem lookup_insert_self (es : Entries α) (k : String) (v : α) :
    (insert es k v).lookup k = some v := by
  induction es with
  | nil => simp [insert]
  | cons e es ih =>
    obtain ⟨a, b⟩ := e
    by_cases h : a = k
    · simp [insert, h]
    · have h' : (k == a) = false := beq_false_of_ne (Ne.symm h)
      simp [insert, h, List.lookup_cons, h', ih]

theorem lookup_insert_ne (es : Entries α) {k k' : String} (v : α) (hk : k' ≠ k) :
    (insert es k v).lookup k' = es.lookup k' := by
  have hk' : (k' == k) = false := beq_false_of_ne hk
  induction es with
  | nil => simp [insert, List.lookup_cons, hk']
  | cons e es ih =>
    obtain ⟨a, b⟩ := e
    by_cases h : a = k
    · simp [insert, h, List.lookup_cons, hk']
    · simp only [insert, h, ↓reduceIte, List.lookup_cons, ih]

end Entries

/-! ## §2. Maps -/

/-- Entries with distinct keys, in order of insertion. -/
structure OrderedMap (α : Type) where
  /-- The entries in order. -/
  entries : Entries α
  /-- No key occurs twice. -/
  nodup_keys : (Entries.keys entries).Nodup

namespace OrderedMap

@[ext] theorem ext {m m' : OrderedMap α} (h : m.entries = m'.entries) : m = m' := by
  cases m; cases m'; simp_all

/-- The map without entries. -/
def empty : OrderedMap α := ⟨[], by simp⟩

instance : EmptyCollection (OrderedMap α) := ⟨empty⟩

instance : Inhabited (OrderedMap α) := ⟨empty⟩

/-- The value of a key. -/
def find? (m : OrderedMap α) (k : String) : Option α := m.entries.lookup k

/-- Whether a key has a value. -/
def contains (m : OrderedMap α) (k : String) : Bool := (m.find? k).isSome

/-- Puts a value under a key: in place if the key is present, else at the end. -/
def insert (m : OrderedMap α) (k : String) (v : α) : OrderedMap α :=
  ⟨m.entries.insert k v, Entries.nodup_keys_insert m.nodup_keys k v⟩

/-- Removes a key. -/
def erase (m : OrderedMap α) (k : String) : OrderedMap α :=
  ⟨m.entries.erase k, Entries.nodup_keys_erase m.nodup_keys k⟩

/-- Inserts entries in order. -/
def insertAll (m : OrderedMap α) (es : Entries α) : OrderedMap α :=
  ⟨m.entries.insertAll es, Entries.nodup_keys_insertAll m.nodup_keys es⟩

/-- The map of a list of entries; of two entries with one key the later wins, in the place of the
    earlier. -/
def ofEntries (es : Entries α) : OrderedMap α := empty.insertAll es

/-- The keys in order. -/
def keys (m : OrderedMap α) : List String := m.entries.keys

/-- The number of entries. -/
def size (m : OrderedMap α) : Nat := m.entries.length

/-- Whether the map has no entries. -/
def isEmpty (m : OrderedMap α) : Bool := m.entries.isEmpty

/-- Equality of maps without regard to order, over a test for values. -/
def sameBy (same : α → α → Bool) (m m' : OrderedMap α) : Bool :=
  m.size == m'.size &&
    m.entries.all fun e => match m'.find? e.1 with
      | some v => same e.2 v
      | none => false

/-- Equality of maps without regard to order. -/
def same [BEq α] (m m' : OrderedMap α) : Bool := m.sameBy (· == ·) m'

@[simp] theorem entries_empty : (∅ : OrderedMap α).entries = [] := rfl

@[simp] theorem find?_empty (k : String) : (∅ : OrderedMap α).find? k = none := rfl

@[simp] theorem entries_insert (m : OrderedMap α) (k : String) (v : α) :
    (m.insert k v).entries = m.entries.insert k v := rfl

@[simp] theorem entries_erase (m : OrderedMap α) (k : String) :
    (m.erase k).entries = m.entries.erase k := rfl

@[simp] theorem find?_insert_self (m : OrderedMap α) (k : String) (v : α) :
    (m.insert k v).find? k = some v := Entries.lookup_insert_self m.entries k v

theorem find?_insert_ne (m : OrderedMap α) {k k' : String} (v : α) (h : k' ≠ k) :
    (m.insert k v).find? k' = m.find? k' := Entries.lookup_insert_ne m.entries v h

end OrderedMap

end ReactiveView
