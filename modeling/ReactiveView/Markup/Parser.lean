import ReactiveView.Markup.Basic
import ReactiveView.Markup.Item

/-! # From items to a forest

  Start tags open elements and end tags close them, innermost first. Elements
  that close themselves and the void elements of HTML have no children and no
  end tag. Text that holds blanks only is dropped; all other text has its
  entities decoded.
-/

namespace ReactiveView.Markup

/-- The elements that never have children. -/
def voidElements : List String :=
  [ "area", "base", "br", "col", "embed", "hr", "img", "input", "link", "meta", "source",
    "track", "wbr" ]

/-- An element whose end tag has not come yet. -/
structure OpenElement where
  /-- Its tag. -/
  tag : String
  /-- Its attributes. -/
  attrs : List (String × String)
  /-- Its children so far. -/
  children : List MarkupNode

/-- A forest that is being read: the open elements, innermost first, and the finished roots. -/
structure Partway where
  /-- The open elements. -/
  pending : List OpenElement
  /-- The finished roots. -/
  roots : List MarkupNode

namespace Partway

/-- Adds a finished node to the innermost open element or to the roots. -/
def add (p : Partway) (n : MarkupNode) : Partway :=
  match p.pending with
  | [] => { p with roots := p.roots ++ [n] }
  | e :: rest => { p with pending := { e with children := e.children ++ [n] } :: rest }

/-- Takes an item in. -/
def take (p : Partway) : Item → Except TemplateError Partway
  | .start tag attrs selfClosing =>
    -- A void element is over at once, with or without a slash.
    if selfClosing || tag ∈ voidElements then .ok (p.add (.element tag attrs []))
    else .ok { p with pending := ⟨tag, attrs, []⟩ :: p.pending }
  | .stop tag offset =>
    match p.pending with
    | [] => .error (.unexpectedClose tag offset)
    | e :: rest =>
      if e.tag = tag then
        .ok (add { p with pending := rest } (.element e.tag e.attrs e.children))
      else .error (.mismatchedClose e.tag tag offset)
  | .comment text => .ok (p.add (.comment text))
  | .text raw =>
    -- Blanks are judged as written: text that only decodes to blanks is kept.
    if Text.isBlankText raw.toList then .ok p else .ok (p.add (.text (decodeEntities raw)))
  | .malformed offset => .error (.malformedTag offset)

/-- The forest, once no element is open. -/
def finish (p : Partway) : Except TemplateError (List MarkupNode) :=
  match p.pending with
  | [] => .ok p.roots
  | e :: _ => .error (.unclosed e.tag)

end Partway

/-- The forest of a sequence of items; the first violation counts. -/
def nest (items : List Item) : Except TemplateError (List MarkupNode) :=
  match items.foldlM Partway.take ⟨[], []⟩ with
  | .ok p => p.finish
  | .error e => .error e

/-- Parses markup in which interpolations stand between the given delimiters. -/
def parse (d : Delimiters) (source : String) : Except TemplateError (List MarkupNode) :=
  nest (items d 0 source.toList)

end ReactiveView.Markup
