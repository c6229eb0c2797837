import ReactiveView.OrderedMap
import ReactiveView.Text.Quoted
import ReactiveView.Value.Basic

/-! # Scopes

  A scope is a chain of frames of bindings, innermost first. Entering a loop or
  a function puts a frame in front; nothing is ever changed in place, so a
  handler may keep the scope in which it was made.
-/

namespace ReactiveView

/-- Names bound together; of two bindings of one name in a frame the later counts. -/
abbrev Frame := Entries Value

/-- A chain of frames, innermost first. -/
structure Scope where
  /-- The frames. -/
  frames : List Frame

namespace Scope

/-- The scope without frames. -/
def empty : Scope := ⟨[]⟩

instance : Inhabited Scope := ⟨empty⟩

/-- The scope with a frame in front, whose bindings shadow the others. -/
def child (s : Scope) (bindings : Frame) : Scope := ⟨bindings :: s.frames⟩

/-- The number of frames. -/
def depth (s : Scope) : Nat := s.frames.length

/-- The value that a name is bound to, in the innermost frame that binds it. -/
def lookup (s : Scope) (name : String) : Option Value :=
  s.frames.findSome? fun frame => frame.reverse.lookup name

/-- The names of each frame, innermost frame first, in quotes and brackets. -/
def listing (s : Scope) : String :=
  "[" ++ ", ".intercalate (s.frames.map fun frame => Text.quotedList frame.keys) ++ "]"

@[simp] theorem lookup_empty (name : String) : empty.lookup name = none := rfl

theorem lookup_child (s : Scope) (bindings : Frame) (name : String) :
    (s.child bindings).lookup name =
      ((bindings.reverse.lookup name).or (s.lookup name)) := by
  simp only [lookup, child, List.findSome?_cons]
  cases bindings.reverse.lookup name <;> rfl

@[simp] theorem depth_child (s : Scope) (bindings : Frame) :
    (s.child bindings).depth = s.depth + 1 := rfl

end Scope

end ReactiveView
