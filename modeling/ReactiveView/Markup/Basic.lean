/-! # Markup

  A template is written as markup: elements with attributes, texts and comments.
  Directives are attributes like all others here; what they mean is a matter of
  the template.
-/

namespace ReactiveView

/-- A node of markup. -/
inductive MarkupNode where
  /-- An element with its attributes in source order. -/
  | element (tag : String) (attrs : List (String × String)) (children : List MarkupNode)
  /-- A text, its entities decoded. -/
  | text (text : String)
  /-- A comment. -/
  | comment (text : String)

instance : Inhabited MarkupNode := ⟨.text ""⟩

/-- Why a text is no template. Offsets count bytes. -/
inductive TemplateError where
  /-- The text ends inside an element. -/
  | unclosed (tag : String)
  /-- An end tag does not fit the innermost open element. -/
  | mismatchedClose (expected found : String) (offset : Nat)
  /-- An end tag stands where no element is open. -/
  | unexpectedClose (found : String) (offset : Nat)
  /-- A tag or comment is not well formed. -/
  | malformedTag (offset : Nat)
  /-- A loop directive does not name variables and a collection. -/
  | invalidLoop (directive : String)
deriving DecidableEq

/-- The message of a template error. -/
def TemplateError.message : TemplateError → String
  | unclosed tag => "unexpected end of template inside <" ++ tag ++ ">"
  | mismatchedClose expected found offset =>
    "closing tag </" ++ found ++ "> at offset " ++ toString offset ++ " does not match <" ++
      expected ++ ">"
  | unexpectedClose found offset =>
    "closing tag </" ++ found ++ "> at offset " ++ toString offset ++ " has no matching open tag"
  | malformedTag offset => "malformed tag at offset " ++ toString offset
  | invalidLoop directive =>
    "invalid loop directive \x60" ++ directive ++
      "\x60: expected \x60(item, index) in collection\x60"

end ReactiveView
