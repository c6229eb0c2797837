import ReactiveView.Style
import ReactiveView.Text.Ascii
import ReactiveView.Trace

/-! # Virtual nodes

  A list of virtual nodes describes what should be shown. A view produces it
  afresh for every render, and the reconciler brings the live tree in line with
  it.

  The attributes `class` and `style` of an element and its event handlers have
  places of their own; all other attributes are kept in order. `Shell` is an
  element without its children.
-/

namespace ReactiveView

/-! ## §1. Kinds -/

/-- The kind of a node, live or virtual. -/
inductive NodeKind where
  /-- An element with its tag. -/
  | element (tag : String)
  /-- A text. -/
  | text
  /-- A comment. -/
  | comment
deriving DecidableEq

/-- Whether two nodes are of one type; tags are compared without regard to ASCII case. -/
def NodeKind.sameType : NodeKind → NodeKind → Bool
  | element a, element b => Text.equalIgnoringCase a b
  | text, text => true
  | comment, comment => true
  | _, _ => false

/-! ## §2. Handlers and elements -/

/-- What answers an event. -/
structure EventHandler where
  /-- The serial number by which handlers attached by hand are told apart. The handlers of a
      template are never compared and all have the number zero. -/
  serial : Nat
  /-- What happens when an event brings a payload. -/
  respond : Value → List Event

/-- An element without its children. -/
structure Shell where
  /-- The tag. -/
  tag : String
  /-- The attributes without a place of their own, in order. -/
  attrs : OrderedMap String := ∅
  /-- The class names. -/
  className : Option String := none
  /-- The style. -/
  style : Style := ∅
  /-- The handlers by event. -/
  handlers : OrderedMap EventHandler := ∅

namespace Shell

/-- Appends a class name; a blank one is ignored. -/
def addClass (e : Shell) (name : String) : Shell :=
  if Text.isBlankText name.toList then e
  else
    let joined := match e.className with
      | some existing => if existing.isEmpty then name else existing ++ " " ++ name
      | none => name
    { e with className := some joined }

/-- Sets a style property. -/
def setStyle (e : Shell) (property value : String) : Shell :=
  { e with style := e.style.insert property value }

/-- Adds the declarations of a style text. -/
def addStyle (e : Shell) (text : String) : Shell :=
  { e with style := e.style.insertAll (Style.parse text).entries }

/-- Sets an attribute as it is named, `class` and `style` included. -/
def setPlain (e : Shell) (name value : String) : Shell :=
  { e with attrs := e.attrs.insert name value }

/-- Sets an attribute; `class` and `style` go to their places. -/
def setAttr (e : Shell) (name value : String) : Shell :=
  if name = "class" then e.addClass value
  else if name = "style" then e.addStyle value
  else e.setPlain name value

/-- Attaches a handler. -/
def on (e : Shell) (event : String) (handler : EventHandler) : Shell :=
  { e with handlers := e.handlers.insert event handler }

/-- Equality of elements without their children. Maps are compared without regard to order,
    handlers by serial number. -/
def same (e e' : Shell) : Bool :=
  e.tag == e'.tag && e.attrs.same e'.attrs && e.className == e'.className &&
    e.style.same e'.style &&
    e.handlers.sameBy (fun h h' => h.serial == h'.serial) e'.handlers

end Shell

/-! ## §3. Nodes -/

/-- A virtual node. -/
inductive VNode where
  /-- A text. -/
  | text (text : String)
  /-- A comment. -/
  | comment (text : String)
  /-- An element. -/
  | element (shell : Shell) (children : List VNode)

namespace VNode

instance : Inhabited VNode := ⟨.text ""⟩

/-- The kind of a node. -/
def kind : VNode → NodeKind
  | text _ => .text
  | comment _ => .comment
  | element shell _ => .element shell.tag

/-- The children of a node; texts and comments have none. -/
def children : VNode → List VNode
  | element _ children => children
  | _ => []

/-- The text of a node that cannot have children. -/
def leafText? : VNode → Option String
  | text s => some s
  | comment s => some s
  | element _ _ => none

/-- The element that a node is, without its children. -/
def shell? : VNode → Option Shell
  | element shell _ => some shell
  | _ => none

mutual

/-- Equality of nodes, maps compared without regard to order. -/
def same : VNode → VNode → Bool
  | text s, text t => s == t
  | comment s, comment t => s == t
  | element e cs, element e' cs' => e.same e' && sameAll cs cs'
  | _, _ => false

/-- Lists of the same length, equal position by position. -/
def sameAll : List VNode → List VNode → Bool
  | [], [] => true
  | n :: ns, m :: ms => same n m && sameAll ns ms
  | _, _ => false

end

/-- The node that a path of child positions leads to from a list of roots. -/
def atPath? (roots : List VNode) : List Nat → Option VNode
  | [] => none
  | [i] => roots[i]?
  | i :: path => (roots[i]?).bind fun n => atPath? n.children path

end VNode

end ReactiveView
