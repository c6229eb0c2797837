import ReactiveView.Expr.Eval
import ReactiveView.Store
import ReactiveView.Template.Basic
import ReactiveView.VNode.Basic

/-! # Expansion of templates

  In a scope, a compiled template becomes a list of virtual nodes. A loop
  evaluates its collection once, in the scope around it, and stands for one copy
  of its element per item, each in a scope of its own. A directive without a
  value leaves its source behind as an attribute or as text.
-/

namespace ReactiveView

/-! ## §1. Directives -/

/-- The value of a directive. A failure is noticed, and so there is none. -/
def Directive.value? (ambient : Ambient) (scope : Scope) (d : Directive) :
    Traced (Option Value) :=
  match d.expr with
  | none => return none
  | some e => do
    match ← (e.eval ambient scope).run with
    | .ok v => return some v
    | .error cause =>
      Traced.notice (.unresolvedExpression d.source cause)
      return none

/-- What a handler does with a payload. A function takes it as its argument, and so does a helper
    that is named alone; any other expression is evaluated as it stands. -/
def respondWith (ambient : Ambient) (scope : Scope) (e : Expr) (payload : Value) :
    Eval Value :=
  match e with
  | .lambda params body => Expr.apply ambient scope params body [payload]
  | .ident name =>
    match (if (scope.lookup name).isNone then ambient.helper? name else none) with
    | some helper => ExceptT.lift (callHelper name helper [payload])
    | none => e.eval ambient scope
  | e => e.eval ambient scope

/-- Answers an event; a failure is noticed. -/
def respond (ambient : Ambient) (scope : Scope) (source : String) (e : Expr)
    (payload : Value) : Traced Unit := do
  match ← (respondWith ambient scope e payload).run with
  | .ok _ => return ()
  | .error cause => Traced.notice (.handlerFailed source cause)

/-- The handler of a directive, which remembers the scope. All its free names must be known. -/
def Directive.handler? (ambient : Ambient) (scope : Scope) (d : Directive) :
    Traced (Option EventHandler) :=
  match d.expr with
  | none => return none
  | some e =>
    match e.checkResolved ambient scope with
    | .error cause => do
      Traced.notice (.unresolvedBinding d.source cause)
      return none
    | .ok _ => return some ⟨0, fun payload => (respond ambient scope d.source e payload).events⟩

/-- The property in the spelling of style sheets: a capital becomes a hyphen and a small letter. -/
def kebabCase (property : String) : String :=
  String.ofList (property.toList.flatMap fun c =>
    if c.isUpper then ['-', c.toLower] else [c])

/-! ## §2. Elements -/

/-- Puts the source of a directive in the place of its attribute. -/
def Shell.leaveWritten (e : Shell) (b : Binding) : Shell := e.setPlain b.written b.directive.source

/-- Adds the classes that a value names: the keys of true fields, the true items of a list, or
    the display text. -/
def Shell.addClasses (e : Shell) : Value → Shell
  | .obj fields => fields.foldl (fun e f => if f.2.truthy then e.addClass f.1 else e) e
  | .arr names => names.foldl (fun e n => if n.truthy then e.addClass n.display else e) e
  | v => e.addClass v.display

/-- Adds the style that a value gives: the fields of an object that are not null, or a text. -/
def Shell.addStyles (e : Shell) : Value → Shell
  | .obj fields =>
    fields.foldl
      (fun e f => if f.2.isNull then e else e.setStyle (kebabCase f.1) f.2.display) e
  | .str text => e.addStyle text
  | _ => e

/-- Evaluates a bound attribute, adds its value to the element, or leaves the source. -/
def Shell.bind (ambient : Ambient) (scope : Scope) (set : Shell → Value → Shell) (e : Shell)
    (b : Binding) : Traced Shell := do
  match ← b.directive.value? ambient scope with
  | some v => return set e v
  | none => return e.leaveWritten b

/-- Evaluates bound attributes in order. -/
def Shell.bindAll (ambient : Ambient) (scope : Scope) (e : Shell) :
    List Binding → Traced Shell
  | [] => return e
  | b :: bs => do
    let e ← e.bind ambient scope (fun e v => e.setAttr b.target v.display) b
    bindAll ambient scope e bs

/-- Evaluates a binding if there is one. -/
def Shell.bindOption (ambient : Ambient) (scope : Scope) (set : Shell → Value → Shell)
    (e : Shell) : Option Binding → Traced Shell
  | none => return e
  | some b => e.bind ambient scope set b

/-- Attaches handlers in order, or leaves the sources. -/
def Shell.listenAll (ambient : Ambient) (scope : Scope) (e : Shell) :
    List Binding → Traced Shell
  | [] => return e
  | b :: bs => do
    let e ← match ← b.directive.handler? ambient scope with
      | some handler => pure (e.on b.target handler)
      | none => pure (e.leaveWritten b)
    listenAll ambient scope e bs

/-- The element of a plan: plain attributes, bound attributes, classes, style, handlers. -/
def ElementPlan.expand (ambient : Ambient) (scope : Scope) (p : ElementPlan) : Traced Shell := do
  let e : Shell := { tag := p.tag }
  let e := p.attrs.foldl (fun e a => e.setAttr a.1 a.2) e
  let e ← e.bindAll ambient scope p.bindings
  let e ← e.bindOption ambient scope Shell.addClasses p.classes
  let e ← e.bindOption ambient scope Shell.addStyles p.style
  e.listenAll ambient scope p.events

/-! ## §3. Loops and texts -/

/-- The items that a value offers to a loop, each with its position or key. -/
def loopItems? : Value → Option (List (Value × Value))
  | .arr items => some (items.mapIdx fun i v => (v, .ofNat i))
  | .obj fields => some (fields.map fun f => (f.2, .str f.1))
  | .null => some []
  | _ => none

/-- The bindings of one round of a loop. -/
def Loop.frame (l : Loop) (item : Value × Value) : Frame :=
  (l.item, item.1) :: (l.position.map fun name => (name, item.2)).toList

/-- The bindings of all rounds of a loop. A value without items is noticed. -/
def Loop.frames (ambient : Ambient) (scope : Scope) (l : Loop) : Traced (List Frame) := do
  match ← l.collection.value? ambient scope with
  | none => return []
  | some v =>
    match loopItems? v with
    | some items => return items.map l.frame
    | none =>
      Traced.notice (.notIterable l.collection.source v)
      return []

/-- The text of a segment; an interpolation without a value stands as it is written. -/
def Segment.expand (ambient : Ambient) (scope : Scope) : Segment → Traced String
  | .literal text => return text
  | .interpolation marker d => do
    match ← d.value? ambient scope with
    | some v => return v.display
    | none => return marker

/-! ## §4. Nodes -/

mutual

/-- The virtual nodes of a node: one, or one per round of its loop. -/
def Compiled.expand (ambient : Ambient) (scope : Scope) : Compiled → Traced (List VNode)
  | .text segments => do
    let texts ← Traced.forEach (Segment.expand ambient scope) segments
    return [.text (String.join texts)]
  | .comment body => return [.comment body]
  | .element plan children =>
    match plan.loop with
    | none => do
      let shell ← plan.expand ambient scope
      let children ← expandAll ambient scope children
      return [.element shell children]
    | some loop => do
      let frames ← loop.frames ambient scope
      Traced.forEach (fun frame => do
        let shell ← plan.expand ambient (scope.child frame)
        let children ← expandAll ambient (scope.child frame) children
        return .element shell children) frames

/-- The virtual nodes of a list of nodes. -/
def Compiled.expandAll (ambient : Ambient) (scope : Scope) :
    List Compiled → Traced (List VNode)
  | [] => return []
  | c :: cs => do
    let ns ← c.expand ambient scope
    let ms ← expandAll ambient scope cs
    return ns ++ ms

end

/-- Expands a template in a scope. -/
def Template.expand (t : Template) (scope : Scope) : Traced (List VNode) :=
  Compiled.expandAll t.ambient scope t.nodes

/-- Expands a template over a store: its entries are the bindings of the outermost scope. -/
def Template.render (t : Template) (entries : Snapshot) : Traced (List VNode) :=
  t.expand (Scope.empty.child entries.entries)

end ReactiveView
