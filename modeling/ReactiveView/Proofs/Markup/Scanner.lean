import ReactiveView.Markup.Parser
import ReactiveView.Proofs.Cursor
import ReactiveView.Proofs.Text.Boundary

/-! # Markup scanned by offsets

  The scanner keeps its place in a text as an offset in bytes, looks ahead for
  the next `<` or delimiter, and jumps there. It comes to nothing if it goes on
  for ever, if it takes a slice of the text that does not begin and end at
  boundaries of characters, or if it moves to an offset that is no boundary or
  is past the end.
-/

namespace ReactiveView.Markup

open Text

/-! ## §1. Slices and searches -/

/-- Whether a text starts with a pattern. -/
def startsWith (pattern s : List Char) : Bool := (dropFront? pattern s).isSome

/-- How many bytes stand before the first occurrence of a pattern. -/
def find? (pattern s : List Char) : Option Nat :=
  (splitFirst? pattern s).map fun (before, _) => byteLength before

/-- How many bytes stand before the first opening delimiter. -/
def Delimiters.find? (d : Delimiters) (s : List Char) : Option Nat :=
  if d.opening = [] then none else Markup.find? d.opening s

/-- The text before the first opening delimiter and the text after it. -/
def Delimiters.split? (d : Delimiters) (s : List Char) : Option (List Char × List Char) :=
  if d.opening = [] then none else splitFirst? d.opening s

theorem Delimiters.find?_eq (d : Delimiters) (s : List Char) :
    d.find? s = (d.split? s).map fun (before, _) => byteLength before := by
  unfold Delimiters.find? Delimiters.split? Markup.find?
  split <;> rfl

theorem Delimiters.eq_append_of_split? {d : Delimiters} {s before inside : List Char}
    (h : d.split? s = some (before, inside)) :
    s = before ++ (d.opening ++ inside) ∧ d.opening ≠ [] := by
  unfold Delimiters.split? at h
  split at h
  · cases h
  · next hne => exact ⟨(eq_append_of_splitFirst? h).trans (List.append_assoc ..), hne⟩

/-- A text that is read by offsets. -/
abbrev Source := List Char

/-- A computation on a text that keeps its place as an offset. -/
abbrev Scanner (α : Type) := Cursor TemplateError α

namespace Source

/-- Nothing in place of a result that is not there. -/
def need {α : Type} (o : Option α) : Scanner α := fun pos => o.map fun a => .ok (a, pos)

variable (d : Delimiters) (source : Source)

/-- What is left of the text behind an offset. -/
def behind (i : Nat) : Scanner (List Char) := do
  let (_, s) ← need (splitBytes? i source)
  return s

/-- What is left of the text. -/
def rest : Scanner (List Char) := do
  source.behind (← get)

/-- Moves to an offset. -/
def moveTo (next : Nat) : Scanner Unit := do
  let _ ← need (splitBytes? next source)
  set next

/-! ## §2. Text -/

/-- One turn in the search for the end of a text, and whether another one follows. -/
def jump : Scanner Bool := do
  let pos ← get
  let s ← source.rest
  match find? ['<'] s, d.find? s with
  | some tag, some opening =>
    if opening < tag then
      let inside := pos + opening + byteLength d.opening
      match find? d.closing (← source.behind inside) with
      | some closing =>
        source.moveTo (inside + closing + byteLength d.closing)
        return true
      | none =>
        source.moveTo (byteLength source)
        return false
    else
      source.moveTo (pos + tag)
      return false
  | some tag, none =>
    source.moveTo (pos + tag)
    return false
  | none, _ =>
    source.moveTo (byteLength source)
    return false

/-- Searches for the end of a text. -/
def jumps (d : Delimiters) (source : Source) : Scanner Unit := do
  if ← source.jump d then source |>.jumps d
partial_fixpoint

/-- Takes text up to the next tag. A `<` at its front is part of it. -/
def text : Scanner (List Char) := do
  let start ← get
  if startsWith ['<'] (← source.rest) then source.moveTo (start + 1)
  source.jumps d
  need (slice? start (← get) source)

/-! ## §3. Tags -/

/-- Skips blanks. -/
def blanks : Scanner Unit := do
  let pos ← get
  let s ← source.rest
  source.moveTo (pos + (byteLength s - byteLength (trimStart s)))

/-- Takes a name. -/
def name : Scanner (List Char) := do
  let pos ← get
  let s ← source.rest
  let width := byteLength (s.takeWhile (!endsName ·))
  source.moveTo (pos + width)
  need (slice? 0 width s)

/-- Takes an end tag. -/
def endTag : Scanner (List Char) := do
  let offset ← get
  source.moveTo (offset + 2)
  let tag ← source.name
  source.blanks
  if tag = [] || !startsWith ['>'] (← source.rest) then throw (.malformedTag offset)
  else
    source.moveTo ((← get) + 1)
    return lowerAscii tag

/-- Takes a value in quotes or without; the tag is to blame if there is none. -/
def value (offset : Nat) : Scanner (List Char) := do
  let pos ← get
  let s ← source.rest
  match s with
  | [] => throw (.malformedTag offset)
  | c :: _ =>
    if c = '"' || c = '\'' then
      let (_, quoted) ← need (splitBytes? 1 s)
      match find? [c] quoted with
      | some width =>
        source.moveTo (pos + width + 2)
        return decode (← need (slice? 1 (width + 1) s))
      | none => throw (.malformedTag offset)
    else
      let width := byteLength (s.takeWhile (!endsBareValue ·))
      let raw ← need (slice? 0 width s)
      let (_, after) ← need (splitBytes? width s)
      let raw := if raw.getLast? = some '/' && startsWith ['>'] after then raw.dropLast else raw
      source.moveTo (pos + byteLength raw)
      return decode raw

/-- Takes the value behind the name of an attribute, if there is an equals sign. -/
def valueAfterName (offset : Nat) : Scanner (List Char) := do
  source.blanks
  if startsWith ['='] (← source.rest) then
    source.moveTo ((← get) + 1)
    source.blanks
    source.value offset
  else return []

/-- Takes an attribute. -/
def oneAttribute (offset : Nat) : Scanner (String × String) := do
  let key ← source.name
  if key = [] then throw (.malformedTag (← get))
  else
    let v ← source.valueAfterName offset
    return (String.ofList key, String.ofList v)

/-- Takes the attributes of a start tag and its end. -/
def attributes (source : Source) (offset : Nat) : Scanner (List (String × String) × Bool) := do
  source.blanks
  let pos ← get
  let s ← source.rest
  if startsWith ['/', '>'] s then
    source.moveTo (pos + 2)
    return ([], true)
  else if startsWith ['>'] s then
    source.moveTo (pos + 1)
    return ([], false)
  else if s = [] then throw (.malformedTag offset)
  else
    let attr ← source.oneAttribute offset
    let (attrs, selfClosing) ← source |>.attributes offset
    return (attr :: attrs, selfClosing)
partial_fixpoint

/-- Takes a start tag. -/
def startTag : Scanner Item := do
  let offset ← get
  source.moveTo (offset + 1)
  let tag ← source.name
  let (attrs, selfClosing) ← source.attributes offset
  return .start (String.ofList (lowerAscii tag)) attrs selfClosing

/-! ## §4. Markup -/

/-- Takes a comment. -/
def comment : Scanner Item := do
  let pos ← get
  let body := pos + 4
  match find? ['-', '-', '>'] (← source.behind body) with
  | some width =>
    let text ← need (slice? body (body + width) source)
    source.moveTo (body + width + 3)
    return .comment (String.ofList text)
  | none => throw (.malformedTag pos)

/-- Whether a text starts with a start tag. -/
def opensTag (s : List Char) : Scanner Bool := do
  if startsWith ['<'] s then
    let (_, s) ← need (splitBytes? 1 s)
    return s.head?.any startsTag
  else return false

/-- Takes an item. -/
def item : Scanner Item := do
  let pos ← get
  let s ← source.rest
  if startsWith ['<', '!', '-', '-'] s then source.comment
  else if startsWith ['<', '/'] s then return .stop (String.ofList (← source.endTag)) pos
  else if ← opensTag s then source.startTag
  else return .text (String.ofList (← source.text d))

/-- One turn of the parser: takes an item and puts it in its place. -/
def turn (p : Partway) : Scanner Partway := do
  match p.take (← source.item d) with
  | .ok p => return p
  | .error e => throw e

/-- Turn after turn up to the end of the text. -/
def turns (d : Delimiters) (source : Source) (p : Partway) : Scanner Partway := do
  if (← get) < byteLength source then source |>.turns d (← source.turn d p)
  else return p
partial_fixpoint

/-- Parses the text. -/
def forest : Scanner (List MarkupNode) := do
  match (← source.turns d ⟨[], []⟩).finish with
  | .ok nodes => return nodes
  | .error e => throw e

end Source

end ReactiveView.Markup
