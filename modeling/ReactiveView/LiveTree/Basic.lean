import ReactiveView.VNode.Basic

/-! # The live tree

  The tree that is shown. Its nodes live in an arena and are named by position,
  so a node keeps its name wherever it is moved and also while it is detached.
  Node 0 is the root. Every change goes to a log of edits, and an operation that
  does not apply changes nothing and logs nothing.

  Children are listed by their parent and name it in turn; the structural
  operations (`append`, `insert`, `remove`, `replace`) keep both sides.
-/

namespace ReactiveView

/-! ## §1. Nodes and edits -/

/-- The name of a node: its position in the arena. -/
abbrev NodeId := Nat

/-- A recorded change. -/
inductive Edit where
  /-- A node was made; a leaf is labelled `#text` or `#comment`, an element by its tag. -/
  | create (node : NodeId) (label : String)
  /-- An attribute was set. -/
  | setAttribute (node : NodeId) (name value : String)
  /-- An attribute was removed. -/
  | removeAttribute (node : NodeId) (name : String)
  /-- A style property was set or, without a value, cleared. -/
  | setStyle (node : NodeId) (property : String) (value : Option String)
  /-- The text of a leaf was replaced. -/
  | setText (node : NodeId) (text : String)
  /-- A node became the last child of another. -/
  | append (parent child : NodeId)
  /-- A node became the child of another at a position. -/
  | insert (parent : NodeId) (index : Nat) (child : NodeId)
  /-- A child was detached. -/
  | remove (parent child : NodeId)
  /-- A child gave its place to another node. -/
  | replace (parent old new : NodeId)
  /-- A handler was attached. -/
  | listen (node : NodeId) (event : String)
  /-- A handler was taken away. -/
  | unlisten (node : NodeId) (event : String)
deriving DecidableEq

/-- What the arena holds for a node. -/
structure Slot where
  /-- The kind. -/
  kind : NodeKind
  /-- The text of a leaf. -/
  text : String := ""
  /-- The attributes except `style`. -/
  attrs : OrderedMap String := ∅
  /-- The style. -/
  style : Style := ∅
  /-- The handlers by event. -/
  listeners : OrderedMap EventHandler := ∅
  /-- The children in order. -/
  children : List NodeId := []
  /-- The parent. -/
  parent : Option NodeId := none

/-- A live tree: the nodes and the log of edits. -/
structure LiveTree where
  /-- The nodes by name. -/
  slots : Array Slot
  /-- The edits since the log was last taken. -/
  edits : List Edit

namespace LiveTree

/-! ## §2. Reading -/

/-- The root. -/
def root : NodeId := 0

/-- A tree with nothing but its root. -/
def initial : LiveTree := ⟨#[{ kind := .element "body" }], []⟩

instance : Inhabited LiveTree := ⟨initial⟩

/-- What the arena holds for a name. -/
def slot? (t : LiveTree) (n : NodeId) : Option Slot := t.slots[n]?

/-- Whether there is such a node. -/
def exists? (t : LiveTree) (n : NodeId) : Bool := (t.slot? n).isSome

/-- The kind of a node; a missing one counts as a comment. -/
def kind (t : LiveTree) (n : NodeId) : NodeKind := ((t.slot? n).map (·.kind)).getD .comment

/-- The children of a node. -/
def children (t : LiveTree) (n : NodeId) : List NodeId :=
  ((t.slot? n).map (·.children)).getD []

/-- The parent of a node. -/
def parent? (t : LiveTree) (n : NodeId) : Option NodeId := (t.slot? n).bind (·.parent)

/-- The style of a node. -/
def style (t : LiveTree) (n : NodeId) : Style := ((t.slot? n).map (·.style)).getD ∅

/-- An attribute of a node, `style` included. -/
def attribute? (t : LiveTree) (n : NodeId) (name : String) : Option String :=
  (t.slot? n).bind fun s => if name = "style" then s.style.text? else s.attrs.find? name

/-- The style of a node as its `style` attribute spells it. -/
def spelledStyle (t : LiveTree) (n : NodeId) : Style :=
  ((t.attribute? n "style").map Style.parse).getD ∅

/-- The text of a leaf. -/
def textContent? (t : LiveTree) (n : NodeId) : Option String :=
  (t.slot? n).bind fun s => match s.kind with
    | .element _ => none
    | _ => some s.text

/-- The handler of a node for an event. -/
def listener? (t : LiveTree) (n : NodeId) (event : String) : Option EventHandler :=
  (t.slot? n).bind (·.listeners.find? event)

/-! ## §3. Small updates -/

/-- Changes what the arena holds for a node. -/
def update (t : LiveTree) (n : NodeId) (f : Slot → Slot) : LiveTree :=
  { t with slots := t.slots.modify n f }

/-- Records an edit. -/
def log (t : LiveTree) (e : Edit) : LiveTree := { t with edits := t.edits ++ [e] }

/-- Empties the log. -/
def clearLog (t : LiveTree) : LiveTree := { t with edits := [] }

/-- Adds a node to the arena, attached to nothing. -/
def alloc (t : LiveTree) (s : Slot) : NodeId × LiveTree :=
  (t.slots.size, { t with slots := t.slots.push s })

theorem slot?_update_self (t : LiveTree) (n : NodeId) (f : Slot → Slot) :
    (t.update n f).slot? n = (t.slot? n).map f := by
  simp [slot?, update, Array.getElem?_modify]

theorem slot?_update_ne (t : LiveTree) {n m : NodeId} (f : Slot → Slot) (h : m ≠ n) :
    (t.update n f).slot? m = t.slot? m := by
  simp [slot?, update, Array.getElem?_modify, Ne.symm h]

@[simp] theorem slot?_log (t : LiveTree) (e : Edit) (n : NodeId) :
    (t.log e).slot? n = t.slot? n := rfl

@[simp] theorem edits_update (t : LiveTree) (n : NodeId) (f : Slot → Slot) :
    (t.update n f).edits = t.edits := rfl

@[simp] theorem edits_log (t : LiveTree) (e : Edit) : (t.log e).edits = t.edits ++ [e] := rfl

/-! ## §4. Making nodes -/

/-- The label of a kind in the log. -/
def kindLabel : NodeKind → String
  | .element tag => tag
  | .text => "#text"
  | .comment => "#comment"

/-- Makes a node of a kind. -/
def create (t : LiveTree) (kind : NodeKind) (text : String) : NodeId × LiveTree :=
  let (n, t) := t.alloc { kind := kind, text := text }
  (n, t.log (.create n (kindLabel kind)))

/-- Makes an element; its tag is written in small letters. -/
def createElement (t : LiveTree) (tag : String) : NodeId × LiveTree :=
  t.create (.element (Text.lowerAsciiText tag)) ""

/-- Makes a text. -/
def createText (t : LiveTree) (text : String) : NodeId × LiveTree := t.create .text text

/-- Makes a comment. -/
def createComment (t : LiveTree) (text : String) : NodeId × LiveTree := t.create .comment text

/-- Puts an element with an `id` under the root, as a place to mount at. It is not logged. -/
def createMountPoint (t : LiveTree) (id : String) : NodeId × LiveTree :=
  let (n, t) := t.alloc
    { kind := .element "div", attrs := OrderedMap.empty.insert "id" id, parent := some root }
  (n, t.update root fun s => { s with children := s.children ++ [n] })

/-! ## §5. Attributes, style, text and handlers -/

/-- Changes an existing node and records the edit. -/
def change (t : LiveTree) (n : NodeId) (f : Slot → Slot) (e : Edit) : LiveTree :=
  if t.exists? n then (t.update n f).log e else t

/-- Sets an attribute. The text of `style` becomes the style. -/
def setAttribute (t : LiveTree) (n : NodeId) (name value : String) : LiveTree :=
  t.change n
    (fun s =>
      if name = "style" then { s with style := Style.parse value }
      else { s with attrs := s.attrs.insert name value })
    (.setAttribute n name value)

/-- Removes an attribute. Without `style` the style is empty. -/
def removeAttribute (t : LiveTree) (n : NodeId) (name : String) : LiveTree :=
  t.change n
    (fun s =>
      if name = "style" then { s with style := ∅ } else { s with attrs := s.attrs.erase name })
    (.removeAttribute n name)

/-- Sets a style property or, without a value, clears it. -/
def setStyle (t : LiveTree) (n : NodeId) (property : String) (value : Option String) : LiveTree :=
  t.change n
    (fun s => match value with
      | some v => { s with style := s.style.insert property v }
      | none => { s with style := s.style.erase property })
    (.setStyle n property value)

/-- Replaces the text of a node. -/
def setText (t : LiveTree) (n : NodeId) (text : String) : LiveTree :=
  t.change n (fun s => { s with text := text }) (.setText n text)

/-- Attaches a handler. -/
def listen (t : LiveTree) (n : NodeId) (event : String) (handler : EventHandler) : LiveTree :=
  t.change n (fun s => { s with listeners := s.listeners.insert event handler })
    (.listen n event)

/-- Takes a handler away, if there is one. -/
def unlisten (t : LiveTree) (n : NodeId) (event : String) : LiveTree :=
  if (t.listener? n event).isSome then
    t.change n (fun s => { s with listeners := s.listeners.erase event }) (.unlisten n event)
  else t

/-! ## §6. Structure -/

/-- Takes a node out of the children of its parent. -/
def detach (t : LiveTree) (child : NodeId) : LiveTree :=
  match t.parent? child with
  | some p =>
    (t.update p fun s => { s with children := s.children.filter (· != child) }).update child
      fun s => { s with parent := none }
  | none => t

/-- Lists a node as a child at a position, and names the parent in it. -/
def attach (t : LiveTree) (parent : NodeId) (index : Nat) (child : NodeId) : LiveTree :=
  (t.update parent fun s => { s with children := s.children.insertIdx index child }).update child
    fun s => { s with parent := some parent }

/-- Makes a node the last child of another. -/
def append (t : LiveTree) (parent child : NodeId) : LiveTree :=
  if t.exists? parent && t.exists? child then
    let t := t.detach child
    (t.attach parent (t.children parent).length child).log (.append parent child)
  else t

/-- Makes a node the child of another at a position, or at the end if there are fewer
    children. -/
def insert (t : LiveTree) (parent : NodeId) (index : Nat) (child : NodeId) : LiveTree :=
  if t.exists? parent && t.exists? child then
    let t := t.detach child
    let index := min index (t.children parent).length
    (t.attach parent index child).log (.insert parent index child)
  else t

/-- Detaches a child from its parent. -/
def remove (t : LiveTree) (parent child : NodeId) : LiveTree :=
  if t.parent? child = some parent then (t.detach child).log (.remove parent child) else t

/-- Puts a node in the place of a child. -/
def replace (t : LiveTree) (parent old new : NodeId) : LiveTree :=
  if t.parent? old = some parent ∧ t.exists? new = true then
    let t := t.detach new
    let t := t.update parent fun s => { s with children := s.children.replace old new }
    let t := t.update old fun s => { s with parent := none }
    let t := t.update new fun s => { s with parent := some parent }
    t.log (.replace parent old new)
  else t

/-- Detaches all children, first to last. -/
def clearChildren (t : LiveTree) (n : NodeId) : LiveTree :=
  (t.children n).foldl (fun t child => t.remove n child) t

end LiveTree

end ReactiveView
