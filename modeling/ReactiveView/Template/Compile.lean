import ReactiveView.Expr.Parser
import ReactiveView.Markup.Parser
import ReactiveView.Template.Basic
import ReactiveView.Trace

/-! # Compilation of templates

  The attributes of each element are sorted by what they mean:

  - with the prefix: a loop (`for`), a `key`, which is dropped, classes, a style,
    an event (`on…`), or else the value of an attribute;
  - without it: an event of the browser (`onclick`), or a plain attribute.

  Expressions are parsed once. One that cannot be parsed is noticed and then
  left alone, so only markup that is not well formed and loops that do not name
  their variables make a compilation fail.
-/

namespace ReactiveView

/-- The outcome of a compilation: a result or an error, with the events before it. -/
abbrev Compilation (α : Type) := ExceptT TemplateError Traced α

/-! ## §1. Directives -/

/-- Compiles an expression; its source is trimmed first. -/
def Directive.compile (text : List Char) : Traced Directive :=
  let source := String.ofList (Text.trim text)
  match Expr.parse source with
  | .ok e => return ⟨source, some e⟩
  | .error cause => do
    Traced.notice (.unparsable source cause)
    return ⟨source, none⟩

/-! ### Loops -/

/-- A name that can be given to a variable. -/
def isVariableName : List Char → Bool
  | [] => false
  | c :: s => isNameStart c && s.all isNameChar

/-- Splits a text at the first `in` that follows a blank or a closing parenthesis and is followed
    by a blank. `last` is the character before the text. -/
def splitIn? (last : Option Char) : List Char → Option (List Char × List Char)
  | [] => none
  | c :: s =>
    let begins := match last with
      | some b => Text.isBlank b || b = ')'
      | none => false
    let ends := match s with
      | 'n' :: b :: _ => Text.isBlank b
      | _ => false
    if c = 'i' && begins && ends then some ([], s.drop 1)
    else (splitIn? (some c) s).map fun (before, after) => (c :: before, after)

/-- The text inside a pair of parentheses that encloses it, or the text itself. -/
def withoutParens (s : List Char) : List Char :=
  match s with
  | '(' :: r => if r.getLast? = some ')' then r.dropLast else s
  | _ => s

/-- Splits a text at its commas. -/
def splitCommas : List Char → List (List Char)
  | [] => [[]]
  | c :: s =>
    if c = ',' then [] :: splitCommas s
    else match splitCommas s with
      | [] => [[c]]
      | d :: ds => (c :: d) :: ds

/-- The names of a loop, item first. -/
def loopNames? (vars : List Char) : Option (String × Option String) :=
  match (splitCommas (withoutParens (Text.trim vars))).map Text.trim with
  | [item] => if isVariableName item then some (String.ofList item, none) else none
  | [item, position] =>
    if isVariableName item && isVariableName position then
      some (String.ofList item, some (String.ofList position))
    else none
  | _ => none

/-- Compiles `(item, position) in collection`. Parentheses and position may be missing. -/
def Loop.compile (source : String) : Compilation Loop :=
  match splitIn? none source.toList with
  | none => throw (.invalidLoop source)
  | some (vars, collection) =>
    match loopNames? vars with
    | none => throw (.invalidLoop source)
    | some (item, position) =>
      -- A loop over nothing is refused; one over an unreadable expression is not.
      if Text.isBlankText collection then throw (.invalidLoop source)
      else do
        let collection ← ExceptT.lift (Directive.compile collection)
        return ⟨item, position, collection⟩

/-! ### Events -/

/-- The events that an attribute without the prefix can bind. -/
def browserEvents : List String :=
  [ "abort", "blur", "change", "click", "contextmenu", "dblclick", "drag", "dragend",
    "dragenter", "dragleave", "dragover", "dragstart", "drop", "error", "focus", "focusin",
    "focusout", "input", "keydown", "keypress", "keyup", "load", "mousedown", "mouseenter",
    "mouseleave", "mousemove", "mouseout", "mouseover", "mouseup", "pointerdown",
    "pointermove", "pointerup", "reset", "resize", "scroll", "select", "submit", "touchend",
    "touchmove", "touchstart", "wheel" ]

/-- The event of an attribute `on…`, in small letters. -/
def eventOf? : List Char → Option String
  | o :: n :: c :: s =>
    if o.toLower = 'o' && n.toLower = 'n' then some (String.ofList (Text.lowerAscii (c :: s)))
    else none
  | _ => none

/-! ### Attributes -/

/-- The name of a directive: what follows the prefix. -/
def TemplateSyntax.directive? (s : TemplateSyntax) (name : String) : Option (List Char) :=
  if s.marker.isEmpty then none else Text.dropFront? s.marker.toList name.toList

/-- What an attribute is for. -/
inductive AttrRole where
  /-- The loop over the element. -/
  | loop
  /-- Nothing. -/
  | ignored
  /-- The classes of the element. -/
  | classes
  /-- The style of the element. -/
  | style
  /-- A handler for an event. -/
  | event (name : String)
  /-- The value of another attribute. -/
  | value (target : String)
  /-- A plain attribute. -/
  | plain

/-- What an attribute is for, by its name. -/
def TemplateSyntax.role (s : TemplateSyntax) (name : String) : AttrRole :=
  match s.directive? name with
  | some directive =>
    match String.ofList directive with
    | "for" => .loop
    | "key" => .ignored
    | "class" => .classes
    | "style" => .style
    -- With the prefix every event can be bound, not only those of the browser.
    | target =>
      match eventOf? directive with
      | some event => .event event
      | none => .value target
  | none =>
    match eventOf? name.toList with
    | some event => if event ∈ browserEvents then .event event else .plain
    | none => .plain

/-- Adds an attribute to the plan of an element. -/
def ElementPlan.addAttr (s : TemplateSyntax) (plan : ElementPlan) (attr : String × String) :
    Compilation ElementPlan :=
  let (name, source) := attr
  let bound (target : String) : Compilation Binding := do
    let directive ← ExceptT.lift (Directive.compile source.toList)
    return ⟨target, name, directive⟩
  match s.role name with
  | .loop => return { plan with loop := some (← Loop.compile source) }
  | .ignored => return plan
  | .classes => return { plan with classes := some (← bound "class") }
  | .style => return { plan with style := some (← bound "style") }
  | .event event => return { plan with events := plan.events ++ [← bound event] }
  | .value target => return { plan with bindings := plan.bindings ++ [← bound target] }
  | .plain => return { plan with attrs := plan.attrs ++ [(name, source)] }

/-- Adds attributes in order. -/
def ElementPlan.addAttrs (s : TemplateSyntax) (plan : ElementPlan) :
    List (String × String) → Compilation ElementPlan
  | [] => return plan
  | attr :: attrs => do
    let plan ← plan.addAttr s attr
    addAttrs s plan attrs

/-! ## §2. Texts -/

/-- Splits a text into lines. -/
def splitLines : List Char → List (List Char)
  | [] => [[]]
  | c :: s =>
    if c = '\n' then [] :: splitLines s
    else match splitLines s with
      | [] => [[c]]
      | l :: ls => (c :: l) :: ls

/-- Joins a text that spans several lines into one: the lines are trimmed, empty ones dropped. A
    single line stays as it is. -/
def joinLines (s : List Char) : List Char :=
  if '\n' ∈ s then
    [' '].intercalate (((splitLines s).map Text.trim).filter (· != []))
  else s

/-- A piece of a text whose interpolations are not compiled yet. -/
inductive Piece where
  /-- Text as it stands. -/
  | literal (text : List Char)
  /-- What stands between two delimiters. -/
  | interpolation (body : List Char)

/-- Splits a text at its interpolations. -/
def pieces (d : Markup.Delimiters) (s : List Char) : List Piece :=
  let whole := if s = [] then [] else [Piece.literal s]
  if ho : d.opening = [] then whole
  else
    match h₁ : Text.splitFirst? d.opening s with
    | none => whole
    | some (before, inside) =>
      match h₂ : Text.splitFirst? d.closing inside with
      | none => whole
      | some (body, rest) =>
        have : rest.length < s.length := by
          have := Text.length_of_splitFirst? h₁
          have := Text.length_of_splitFirst? h₂
          have := List.length_pos_iff.2 ho
          omega
        (if before = [] then [] else [Piece.literal before]) ++
          .interpolation body :: pieces d rest
termination_by s.length

/-- Compiles a piece of a text. -/
def Segment.compile (d : Markup.Delimiters) : Piece → Traced Segment
  | .literal text => return .literal (String.ofList text)
  | .interpolation body => do
    let directive ← Directive.compile body
    return .interpolation (String.ofList (d.opening ++ body ++ d.closing)) directive

/-- Compiles a text. -/
def compileText (d : Markup.Delimiters) (text : String) : Traced (List Segment) :=
  Traced.forEach (Segment.compile d) (pieces d (joinLines text.toList))

/-! ## §3. Nodes -/

mutual

/-- Compiles a node: the attributes of an element before its children. -/
def compileNode (s : TemplateSyntax) : MarkupNode → Compilation Compiled
  | .element tag attrs children => do
    let plan ← ElementPlan.addAttrs s { tag := tag } attrs
    let children ← compileNodes s children
    return .element plan children
  | .text text => return .text (← ExceptT.lift (compileText s.delimiters text))
  | .comment text => return .comment text

/-- Compiles nodes in order. -/
def compileNodes (s : TemplateSyntax) : List MarkupNode → Compilation (List Compiled)
  | [] => return []
  | n :: ns => do
    let c ← compileNode s n
    let cs ← compileNodes s ns
    return c :: cs

end

/-- Compiles a template. -/
def Template.compile (source : String) (ambient : Ambient) (spelling : TemplateSyntax) :
    Compilation Template :=
  match Markup.parse spelling.delimiters source with
  | .error e => throw e
  | .ok forest => do
    let nodes ← compileNodes spelling forest
    return ⟨nodes, ambient, spelling⟩

end ReactiveView
