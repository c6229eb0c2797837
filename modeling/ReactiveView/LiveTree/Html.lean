import ReactiveView.LiveTree.Basic
import ReactiveView.VNode.Html

/-! # The live tree as text, and finding nodes in it

  Both walk the tree below a node. A walk never goes deeper than there are
  nodes, which is no limit as long as no node is below itself.
-/

namespace ReactiveView.LiveTree

/-! ## §1. HTML -/

/-- The attributes of a node in writing order, `style` last. -/
def writtenAttrs (s : Slot) : List (String × String) :=
  s.attrs.entries ++ (s.style.text?.map fun text => ("style", text)).toList

/-- A node as HTML, with at most `depth` levels. -/
def html (t : LiveTree) : (depth : Nat) → NodeId → List Char
  | 0, _ => []
  | depth + 1, n =>
    match t.slot? n with
    | none => []
    | some s =>
      match s.kind with
      | .text => Html.escape s.text
      | .comment => Html.comment s.text
      | .element tag => Html.tagged tag (writtenAttrs s) (s.children.flatMap (t.html depth))

/-- A node as HTML. -/
def outerHtml (t : LiveTree) (n : NodeId) : String := String.ofList (t.html t.slots.size n)

/-- The children of a node as HTML. -/
def innerHtml (t : LiveTree) (n : NodeId) : String :=
  String.ofList ((t.children n).flatMap (t.html t.slots.size))

/-! ## §2. Queries -/

/-- The first node in document order at or below a node that passes a test. The root itself is
    passed over. -/
def findBelow (t : LiveTree) (accept : Slot → Bool) : (depth : Nat) → NodeId → Option NodeId
  | 0, _ => none
  | depth + 1, n =>
    match t.slot? n with
    | none => none
    | some s =>
      if n ≠ root ∧ accept s = true then some n
      else s.children.findSome? (t.findBelow accept depth)

/-- Whether a node is what a selector means: `#` and an `id`, or a tag in any ASCII case. -/
def matchesSelector (selector : String) (s : Slot) : Bool :=
  match selector.toList with
  | '#' :: id => s.attrs.find? "id" == some (String.ofList id)
  | _ =>
    match s.kind with
    | .element tag => Text.equalIgnoringCase tag selector
    | _ => false

/-- The first attached node in document order that a selector means. -/
def query? (t : LiveTree) (selector : String) : Option NodeId :=
  t.findBelow (matchesSelector selector) (t.slots.size + 1) root

end ReactiveView.LiveTree
