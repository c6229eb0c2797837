import ReactiveView.OrderedMap
import ReactiveView.Trace
import ReactiveView.Value.Basic

/-! # The store

  The state behind a view is a flat ordered map. Writes between two renders form
  a batch, and the first of them keeps a snapshot of the store as it was before.
  The store as a whole is never replaced; it is updated entry by entry.
-/

namespace ReactiveView

/-! ## §1. Snapshots and updates -/

/-- The entries of a store at one moment. -/
abbrev Snapshot := OrderedMap Value

/-- The entries of an object; every other value gives none. -/
def Snapshot.ofValue : Value → Snapshot
  | .obj fields => .ofEntries fields
  | _ => ∅

/-- A snapshot as an object. -/
def Snapshot.toValue (s : Snapshot) : Value := .obj s.entries

/-- Entries to write together. An entry without a value is undefined and is skipped. -/
abbrev Update := OrderedMap (Option Value)

/-- The kinds of values that are no objects. -/
inductive PlainKind where
  /-- Null. -/
  | null
  /-- A truth value. -/
  | bool
  /-- A number. -/
  | number
  /-- A text. -/
  | text
  /-- A list. -/
  | list
deriving DecidableEq

/-- A kind as messages name it. -/
def PlainKind.phrase : PlainKind → String
  | null => "null"
  | bool => "a boolean"
  | number => "a number"
  | text => "a string"
  | list => "an array"

/-- Why a store refuses. -/
inductive StoreError where
  /-- The store as a whole cannot be replaced. -/
  | replaceRejected
  /-- An update must be an object. -/
  | notAnObject (given : PlainKind)
deriving DecidableEq

/-- The message of a refusal. -/
def StoreError.message : StoreError → String
  | replaceRejected => "the state store cannot be replaced; update it with set_state"
  | notAnObject given => "a partial update must be a JSON object, got " ++ given.phrase

/-- The update that writes every entry of an object. -/
def Update.ofValue : Value → Except StoreError Update
  | .obj fields => .ok (.ofEntries (fields.map fun f => (f.1, some f.2)))
  | .null => .error (.notAnObject .null)
  | .bool _ => .error (.notAnObject .bool)
  | .num _ => .error (.notAnObject .number)
  | .str _ => .error (.notAnObject .text)
  | .arr _ => .error (.notAnObject .list)

/-- Adds an entry to write. -/
def Update.set (u : Update) (key : String) (v : Value) : Update := u.insert key (some v)

/-- Adds an undefined entry. -/
def Update.unset (u : Update) (key : String) : Update := u.insert key none

/-! ## §2. The store -/

/-- Entries, and the snapshot from before the current batch. -/
structure Store where
  /-- The entries now. -/
  entries : Snapshot
  /-- The entries before the first write of the batch, if there was one. -/
  pending : Option Snapshot

namespace Store

/-- A store with initial entries and no batch. -/
def ofEntries (entries : Snapshot) : Store := ⟨entries, none⟩

/-- The value of a key. -/
def read (s : Store) (key : String) : Option Value := s.entries.find? key

/-- Writes an entry; the first write of a batch keeps a snapshot. -/
def write (s : Store) (key : String) (v : Value) : Store :=
  { entries := s.entries.insert key v
    pending := s.pending.or (some s.entries) }

/-- Removes an entry. The snapshot is left alone. -/
def remove (s : Store) (key : String) : Store := { s with entries := s.entries.erase key }

/-- Writes the defined entries of a list in order. -/
def writeAll (s : Store) : List (String × Option Value) → Store
  | [] => s
  | (key, some v) :: es => (s.write key v).writeAll es
  | (_, none) :: es => s.writeAll es

/-- Writes the defined entries of an update in order. -/
def setState (s : Store) (u : Update) : Store := s.writeAll u.entries

/-- How many entries an update writes. -/
def written (u : Update) : Nat := (u.entries.filter (·.2.isSome)).length

/-- Refuses to replace the store. -/
def replace (entries : Snapshot) : Traced (Except StoreError Unit) := do
  Traced.notice (.replacementRejected entries.size)
  return .error .replaceRejected

/-- Ends the batch: the store without its snapshot. -/
def closeBatch (s : Store) : Store := { s with pending := none }

/-! ### What each operation leaves behind -/

@[simp] theorem read_write_self (s : Store) (key : String) (v : Value) :
    (s.write key v).read key = some v := by
  simp [read, write]

theorem read_write_ne (s : Store) {key key' : String} (v : Value) (h : key' ≠ key) :
    (s.write key v).read key' = s.read key' := by
  simp [read, write, OrderedMap.find?_insert_ne _ _ h]

@[simp] theorem pending_write (s : Store) (key : String) (v : Value) :
    (s.write key v).pending = s.pending.or (some s.entries) := rfl

@[simp] theorem pending_remove (s : Store) (key : String) :
    (s.remove key).pending = s.pending := rfl

@[simp] theorem pending_closeBatch (s : Store) : s.closeBatch.pending = none := rfl

@[simp] theorem entries_closeBatch (s : Store) : s.closeBatch.entries = s.entries := rfl

end Store

end ReactiveView
