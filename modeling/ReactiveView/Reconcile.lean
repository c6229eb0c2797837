import ReactiveView.LiveTree.Basic

/-! # Reconciliation

  Virtual nodes are compared with the live children of a node, position by
  position:

  - surplus live nodes are removed, last to first;
  - where there is no live node, one is built and appended;
  - where the types differ, one is built and takes the place of the live one;
  - otherwise the live node is kept: class, style and, unless it is empty, text
    are adjusted, and its children are settled in the same way.

  Other attributes and handlers are written only when a node is built. Each
  change counts as one edit.
-/

namespace ReactiveView

/-! ## §1. Work in progress -/

/-- A live tree and the number of edits so far. -/
structure Work where
  /-- The tree. -/
  tree : LiveTree
  /-- The number of edits. -/
  edits : Nat

/-- One more edit, made by an operation on the tree. -/
def Work.edit (w : Work) (f : LiveTree → LiveTree) : Work := ⟨f w.tree, w.edits + 1⟩

/-- Where the style of a live node is read from. -/
inductive StyleSource where
  /-- From the style itself. -/
  | stored
  /-- From the text of the `style` attribute. -/
  | spelled
deriving DecidableEq

/-- The style of a live node. -/
def StyleSource.read (source : StyleSource) (t : LiveTree) (n : NodeId) : Style :=
  match source with
  | stored => t.style n
  | spelled => t.spelledStyle n

namespace Work

/-! ## §2. Building -/

mutual

/-- Builds the live node of a virtual one, with everything below it. -/
def build (w : Work) : VNode → NodeId × Work
  | .text s =>
    let (n, t) := w.tree.createText s
    (n, ⟨t, w.edits + 1⟩)
  | .comment s =>
    let (n, t) := w.tree.createComment s
    (n, ⟨t, w.edits + 1⟩)
  | .element e children =>
    let (n, t) := w.tree.createElement e.tag
    let w : Work := ⟨t, w.edits + 1⟩
    let w := e.attrs.entries.foldl (fun w a => w.edit (·.setAttribute n a.1 a.2)) w
    let w := match e.className with
      | some c => w.edit (·.setAttribute n "class" c)
      | none => w
    let w := e.style.entries.foldl (fun w p => w.edit (·.setStyle n p.1 (some p.2))) w
    let w := e.handlers.entries.foldl (fun w h => w.edit (·.listen n h.1 h.2)) w
    (n, appendAll w n children)

/-- Builds virtual nodes and appends them in order. -/
def appendAll (w : Work) (parent : NodeId) : List VNode → Work
  | [] => w
  | v :: vs =>
    let (n, w) := w.build v
    appendAll (w.edit (·.append parent n)) parent vs

end

/-! ## §3. Adjusting a kept node -/

/-- Gives a live node its class names. -/
def patchClass (w : Work) (n : NodeId) (className : Option String) : Work :=
  if w.tree.attribute? n "class" = className then w
  else match className with
    | some c => w.edit (·.setAttribute n "class" c)
    | none => w.edit (·.removeAttribute n "class")

/-- Gives a live node its style: properties too many are cleared, then missing and different ones
    are set. -/
def patchStyle (source : StyleSource) (w : Work) (n : NodeId) (style : Style) : Work :=
  let live := source.read w.tree n
  if live.same style then w
  else
    let surplus := live.keys.filter (!style.contains ·)
    let w := surplus.foldl (fun w p => w.edit (·.setStyle n p none)) w
    let missing := style.entries.filter fun p => live.find? p.1 != some p.2
    missing.foldl (fun w p => w.edit (·.setStyle n p.1 (some p.2))) w

/-- Gives a live leaf its text; an empty text leaves it alone. -/
def patchText (w : Work) (n : NodeId) (text : String) : Work :=
  if !text.isEmpty && w.tree.textContent? n != some text then w.edit (·.setText n text) else w

/-- Removes live children from the last on until `keep` are left. -/
def trim (w : Work) (parent : NodeId) (keep : Nat) : Work :=
  ((w.tree.children parent).drop keep).reverse.foldl (fun w n => w.edit (·.remove parent n)) w

/-- Removes all live children, first to last. -/
def clear (w : Work) (n : NodeId) : Work :=
  ⟨w.tree.clearChildren n, w.edits + (w.tree.children n).length⟩

/-! ## §4. Settling children -/

mutual

/-- Adjusts a live node to a virtual one of the same type. -/
def patch (source : StyleSource) (w : Work) (n : NodeId) : VNode → Work
  | .text s => w.patchText n s
  | .comment s => w.patchText n s
  | .element e children =>
    let w := patchStyle source (w.patchClass n e.className) n e.style
    -- Removing all children goes first to last, removing surplus ones last to first.
    if children.isEmpty then
      if (w.tree.children n).isEmpty then w else w.clear n
    else
      settle source (w.trim n children.length) n ((w.tree.children n).take children.length) children

/-- Adjusts the children of a node to virtual nodes, given the live children that are kept. -/
def settle (source : StyleSource) (w : Work) (parent : NodeId) (live : List NodeId) :
    List VNode → Work
  | [] => w
  | v :: vs =>
    match live with
    -- The live children are used up: the rest is new.
    | [] =>
      let (n, w) := w.build v
      settle source (w.edit (·.append parent n)) parent [] vs
    | n :: live =>
      let w :=
        if (w.tree.kind n).sameType v.kind then patch source w n v
        else
          let (m, w) := w.build v
          w.edit (·.replace parent n m)
      settle source w parent live vs

end

end Work

/-- Brings the children of a live node in line with virtual nodes. Also the number of edits. -/
def LiveTree.reconcile (source : StyleSource) (t : LiveTree) (parent : NodeId)
    (vs : List VNode) : LiveTree × Nat :=
  let w : Work := ⟨t, 0⟩
  let live := (t.children parent).take vs.length
  let w := Work.settle source (w.trim parent vs.length) parent live vs
  (w.tree, w.edits)

end ReactiveView
