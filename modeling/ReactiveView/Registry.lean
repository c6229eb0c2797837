/-! # Callback registries

  A registry keeps callbacks in the order of their registration, each under an
  identifier. All registries draw identifiers from one supply, so an identifier
  belongs to at most one entry of at most one registry, ever.
-/

namespace ReactiveView

/-- The identifier of a registered callback. -/
structure CallbackId where
  /-- How many identifiers were handed out before it. -/
  serial : Nat
deriving DecidableEq

/-- The supply of identifiers: how many were handed out. -/
structure CallbackSupply where
  /-- How many were handed out. -/
  issued : Nat := 0

/-- A fresh identifier and the supply after it. -/
def CallbackSupply.fresh (s : CallbackSupply) : CallbackId × CallbackSupply :=
  (⟨s.issued⟩, ⟨s.issued + 1⟩)

/-- Callbacks in the order of their registration. -/
structure Registry (α : Type) where
  /-- The callbacks with their identifiers. -/
  entries : List (CallbackId × α)

namespace Registry

variable {α : Type}

/-- The registry without callbacks. -/
def empty : Registry α := ⟨[]⟩

/-- Registers a callback under a fresh identifier. -/
def register (r : Registry α) (supply : CallbackSupply) (callback : α) :
    CallbackId × Registry α × CallbackSupply :=
  let (id, supply) := supply.fresh
  (id, ⟨r.entries ++ [(id, callback)]⟩, supply)

/-- The callback of an identifier. -/
def find? (r : Registry α) (id : CallbackId) : Option α :=
  (r.entries.find? (·.1 = id)).map (·.2)

/-- Removes the entry of an identifier. -/
def unregister (r : Registry α) (id : CallbackId) : Registry α :=
  ⟨r.entries.eraseP (·.1 = id)⟩

/-- The callbacks in the order of their registration. -/
def snapshot (r : Registry α) : List α := r.entries.map (·.2)

/-- The number of callbacks. -/
def size (r : Registry α) : Nat := r.entries.length

@[simp] theorem snapshot_empty : (empty : Registry α).snapshot = [] := rfl

@[simp] theorem snapshot_register (r : Registry α) (supply : CallbackSupply) (callback : α) :
    (r.register supply callback).2.1.snapshot = r.snapshot ++ [callback] := by
  simp [register, snapshot]

end Registry

end ReactiveView
