/-! # Sets of characters as boundaries

  A set of code points is written as the ascending list of the points where
  membership changes, beginning outside the set. A point is a member exactly if
  an odd number of boundaries lie at or below it. Large Unicode properties are
  short in this form, and a question about an ASCII character is settled by the
  first few boundaries.
-/

namespace ReactiveView.Text

/-- Whether `n` lies in the set with the given boundaries. -/
def inBoundaries (boundaries : List Nat) (n : Nat) : Bool := go false boundaries
where
  /-- The answer for what is left of the boundaries, when `inside` holds just before them. -/
  go (inside : Bool) : List Nat → Bool
    | [] => inside
    | b :: rest => if n < b then inside else go (!inside) rest

@[simp] theorem inBoundaries_nil (n : Nat) : inBoundaries [] n = false := rfl

end ReactiveView.Text
