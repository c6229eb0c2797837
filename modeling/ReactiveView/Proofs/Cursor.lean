/-! # Readers that keep a place

  A reader that keeps its place in what it reads as a number may go on for ever,
  or look where it must not. `Cursor` leaves room for both: a run then comes to
  nothing.

  Such a reader is compared with a function on what lies ahead of its place.
  `Cursor.Follows` says that the two come to the same, and where the reader's
  place is afterwards. What it is for a list to lie ahead of a place is left
  open: places are counted in tokens here and in bytes there.
-/

namespace ReactiveView

/-- A reader that keeps its place. It comes to an error, or to a result and a place, or to nothing
    at all. -/
abbrev Cursor (ε α : Type) := StateT Nat (ExceptT ε Option) α

namespace Cursor

variable {ε α β τ : Type} {pos pos' least mid : Nat}

/-! ## §1. What a run comes to -/

/-- What a reader comes to from a place. -/
def comesTo (run : Cursor ε α) (pos : Nat) : Option (Except ε (α × Nat)) := run pos

@[simp] theorem comesTo_pure (a : α) (pos : Nat) :
    (pure a : Cursor ε α).comesTo pos = some (.ok (a, pos)) := rfl

@[simp] theorem comesTo_bind_get (k : Nat → Cursor ε β) (pos : Nat) :
    (get >>= k).comesTo pos = (k pos).comesTo pos := rfl

theorem comesTo_bind (run : Cursor ε α) (k : α → Cursor ε β) (pos : Nat) :
    (run >>= k).comesTo pos = (run.comesTo pos).bind fun
      | .error e => some (.error e)
      | .ok (a, next) => (k a).comesTo next := by
  show (run.comesTo pos).bind _ = _
  congr 1
  funext r
  cases r <;> rfl

/-! ## §2. Following a function -/

/-- From a place, the reader comes to the given outcome: to its error, or to its result and a place
    that has what the outcome leaves ahead of it. This place is `least` or later. -/
def Follows (ahead : Nat → List τ → Prop) (pos least : Nat) (run : Cursor ε α) :
    Except ε (α × List τ) → Prop
  | .error e => run.comesTo pos = some (.error e)
  | .ok (a, rest) => ∃ next, run.comesTo pos = some (.ok (a, next)) ∧ least ≤ next ∧ ahead next rest

namespace Follows

variable {ahead : Nat → List τ → Prop} {run : Cursor ε α} {o : Except ε (α × List τ)}
  {o' : Except ε (β × List τ)}

theorem mono (h : Follows ahead pos mid run o) (hle : least ≤ mid) :
    Follows ahead pos least run o := by
  match o, h with
  | .error _, h => exact h
  | .ok (_, _), ⟨next, hrun, hmid, hrest⟩ =>
    exact ⟨next, hrun, Nat.le_trans hle hmid, hrest⟩

theorem of_eq {run' : Cursor ε α} (h : run.comesTo pos = run'.comesTo pos')
    (h' : Follows ahead pos' least run' o) : Follows ahead pos least run o := by
  match o, h' with
  | .error _, h' => exact h.trans h'
  | .ok (_, _), ⟨next, hrun, hrest⟩ => exact ⟨next, h.trans hrun, hrest⟩

theorem result {rest : List τ} (a : α) (hle : least ≤ pos) (hrest : ahead pos rest) :
    Follows ahead pos least (pure a : Cursor ε α) (.ok (a, rest)) :=
  ⟨pos, rfl, hle, hrest⟩

theorem failure (e : ε) : Follows ahead pos least (throw e : Cursor ε α) (.error e) :=
  rfl

theorem bind_ok {k : α → Cursor ε β} {a : α} {rest : List τ}
    (h : Follows ahead pos mid run (.ok (a, rest)))
    (hk : ∀ next, mid ≤ next → ahead next rest → Follows ahead next least (k a) o') :
    Follows ahead pos least (run >>= k) o' := by
  obtain ⟨next, hrun, hmid, hrest⟩ := h
  refine of_eq ?_ (hk next hmid hrest)
  rw [comesTo_bind, hrun]
  rfl

theorem bind_error {k : α → Cursor ε β} {e : ε} (h : Follows ahead pos mid run (.error e)) :
    Follows ahead pos least (run >>= k) (.error e) := by
  have hrun : run.comesTo pos = some (.error e) := h
  show (run >>= k).comesTo pos = _
  rw [comesTo_bind, hrun]
  rfl

/-- A reader and what comes behind it, beginning wherever it stops. -/
theorem bind {k : α → Cursor ε β} {f : α × List τ → Except ε (β × List τ)}
    (h : Follows ahead pos mid run o)
    (hk : ∀ a next rest, mid ≤ next → ahead next rest →
      Follows ahead next least (k a) (f (a, rest))) :
    Follows ahead pos least (run >>= k) (o >>= f) := by
  match o, h with
  | .error e, h => exact bind_error h
  | .ok (a, rest), h => exact bind_ok h fun next => hk a next rest

theorem bind_get {k : Nat → Cursor ε β} (h : Follows ahead pos least (k pos) o') :
    Follows ahead pos least (get >>= k) o' :=
  of_eq rfl h

end Follows

end Cursor

end ReactiveView
