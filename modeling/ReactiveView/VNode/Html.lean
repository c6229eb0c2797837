import ReactiveView.VNode.Basic

/-! # HTML text

  Nodes are written as HTML: every element with a start tag and an end tag, its
  attributes in double quotes. Ampersands and angle brackets are escaped in
  texts, and quotes as well in attribute values. Comments stand as they are, and
  handlers have no written form.
-/

namespace ReactiveView.Html

/-! ## §1. Escapes -/

/-- A character of a text. -/
def escapeChar (c : Char) : List Char :=
  match c with
  | '&' => ['&', 'a', 'm', 'p', ';']
  | '<' => ['&', 'l', 't', ';']
  | '>' => ['&', 'g', 't', ';']
  | c => [c]

/-- A character of an attribute value. -/
def escapeQuotedChar (c : Char) : List Char :=
  match c with
  | '"' => ['&', 'q', 'u', 'o', 't', ';']
  | c => escapeChar c

/-- A text. -/
def escape (s : String) : List Char := s.toList.flatMap escapeChar

/-- An attribute value. -/
def escapeQuoted (s : String) : List Char := s.toList.flatMap escapeQuotedChar

/-! ## §2. Tags -/

/-- An attribute with the blank before it. -/
def writtenAttr (a : String × String) : List Char :=
  ' ' :: a.1.toList ++ '=' :: '"' :: escapeQuoted a.2 ++ ['"']

/-- An element around its written children. -/
def tagged (tag : String) (attrs : List (String × String)) (children : List Char) : List Char :=
  '<' :: tag.toList ++ attrs.flatMap writtenAttr ++ '>' :: children ++
    '<' :: '/' :: tag.toList ++ ['>']

/-- A comment. -/
def comment (s : String) : List Char := ['<', '!', '-', '-'] ++ s.toList ++ ['-', '-', '>']

/-- All attributes of an element in writing order: the plain ones, then `class`, then `style`. -/
def writtenAttrs (e : Shell) : List (String × String) :=
  e.attrs.entries ++ (e.className.map fun c => ("class", c)).toList ++
    (e.style.text?.map fun t => ("style", t)).toList

/-! ## §3. Nodes -/

mutual

/-- A node as HTML. -/
def node : VNode → List Char
  | .text s => escape s
  | .comment s => comment s
  | .element e children => tagged e.tag (writtenAttrs e) (nodes children)

/-- Nodes as HTML, one after the other. -/
def nodes : List VNode → List Char
  | [] => []
  | n :: ns => node n ++ nodes ns

end

/-- The HTML text of a list of nodes. -/
def render (ns : List VNode) : String := String.ofList (nodes ns)

end ReactiveView.Html
