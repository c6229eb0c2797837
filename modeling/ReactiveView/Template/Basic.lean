import ReactiveView.Ambient
import ReactiveView.Expr.Basic
import ReactiveView.Markup.Item

/-! # Compiled templates

  A template is markup whose directives are understood: attributes marked by a
  prefix, event attributes, and interpolations in texts. Each directive keeps
  its source, which takes its place again whenever it has no value.
-/

namespace ReactiveView

/-! ## §1. Spelling -/

/-- How directives and interpolations are spelled. -/
structure TemplateSyntax where
  /-- What the names of directive attributes start with; there are none if it is empty. -/
  marker : String := "dr:"
  /-- What opens an interpolation. -/
  opening : String := "\x7b\x7b"
  /-- What closes an interpolation. -/
  closing : String := "\x7d\x7d"
deriving DecidableEq

/-- The delimiters of interpolations. -/
def TemplateSyntax.delimiters (s : TemplateSyntax) : Markup.Delimiters :=
  ⟨s.opening.toList, s.closing.toList⟩

/-- The texts of a spelling that is given in part. -/
def TemplateSyntax.ofParts (marker opening closing : Option String) : TemplateSyntax :=
  let standard : TemplateSyntax := {}
  { marker := marker.getD standard.marker
    opening := opening.getD standard.opening
    closing := closing.getD standard.closing }

/-- A field of a spelling: absent, or a text. -/
def TemplateSyntax.part? (v : Option Value) : Option (Option String) :=
  match v with
  | none => some none
  | some (.str s) => some (some s)
  | some _ => none

/-- Reads a spelling from an object with the fields `prefix`, `open` and `close`, each of which
    may be missing, or from a list of at most three texts in that order. -/
def TemplateSyntax.ofValue? : Value → Option TemplateSyntax
  | .obj fields => do
    let marker ← part? (fields.lookup "prefix")
    let opening ← part? (fields.lookup "open")
    let closing ← part? (fields.lookup "close")
    some (ofParts marker opening closing)
  | .arr items => do
    let marker ← part? items[0]?
    let opening ← part? items[1]?
    let closing ← part? items[2]?
    if items.length ≤ 3 then some (ofParts marker opening closing) else none
  | _ => none

/-! ## §2. Directives -/

/-- An expression in a template, with its source. -/
structure Directive where
  /-- The source without blanks around it. -/
  source : String
  /-- The expression, if the source is one. -/
  expr : Option Expr

/-- A loop. -/
structure Loop where
  /-- The name of the item. -/
  item : String
  /-- The name of the position or key, if it is wanted. -/
  position : Option String
  /-- What the loop runs over. -/
  collection : Directive

/-- A directive for an attribute of the element. -/
structure Binding where
  /-- The attribute that is set. -/
  target : String
  /-- The attribute as it was written, set to the source if there is no value. -/
  written : String
  /-- The value. -/
  directive : Directive

/-- A piece of a text. -/
inductive Segment where
  /-- Text as it stands. -/
  | literal (text : String)
  /-- An interpolation and its text including the delimiters. -/
  | interpolation (marker : String) (directive : Directive)

/-- An element without its children, its attributes sorted by what they mean. -/
structure ElementPlan where
  /-- The tag. -/
  tag : String
  /-- The attributes that are no directives. -/
  attrs : List (String × String) := []
  /-- The loop over the element. -/
  loop : Option Loop := none
  /-- The classes. -/
  classes : Option Binding := none
  /-- The style. -/
  style : Option Binding := none
  /-- The bound attributes. -/
  bindings : List Binding := []
  /-- The bound events; the target is the event. -/
  events : List Binding := []

/-- A node of a compiled template. -/
inductive Compiled where
  /-- An element. -/
  | element (plan : ElementPlan) (children : List Compiled)
  /-- A text in pieces. -/
  | text (segments : List Segment)
  /-- A comment. -/
  | comment (text : String)

/-- A compiled template. -/
structure Template where
  /-- The nodes at the top. -/
  nodes : List Compiled
  /-- The names that its expressions may use. -/
  ambient : Ambient
  /-- Its spelling. -/
  spelling : TemplateSyntax

end ReactiveView
