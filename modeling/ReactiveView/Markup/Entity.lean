import ReactiveView.Text.Search

/-! # Entities

  Five characters have names in markup, one of them two. Decoding replaces the
  names one after the other, the ampersand last, so that an ampersand that
  appears by decoding never starts another name.
-/

namespace ReactiveView.Markup

/-- The named characters in the order in which they are decoded. -/
def entities : List (List Char × Char) :=
  [ (['&', 'l', 't', ';'], '<'),
    (['&', 'g', 't', ';'], '>'),
    (['&', 'q', 'u', 'o', 't', ';'], '"'),
    (['&', '#', '3', '9', ';'], '\''),
    (['&', 'a', 'p', 'o', 's', ';'], '\''),
    (['&', 'a', 'm', 'p', ';'], '&') ]

/-- The text with all entities decoded. -/
def decode (s : List Char) : List Char :=
  entities.foldl (fun s e => Text.replaceAll e.1 [e.2] s) s

/-- The text with all entities decoded. -/
def decodeEntities (text : String) : String := String.ofList (decode text.toList)

end ReactiveView.Markup
