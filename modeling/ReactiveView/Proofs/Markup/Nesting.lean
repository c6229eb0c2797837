import Mathlib.Data.List.Induction
import ReactiveView.Proofs.Markup.Grammar

/-! # Which sources are accepted

  A source made up of well-formed parts is accepted exactly if its tags nest, and
  the first thing that keeps them from nesting is what is reported. What nesting
  means is said here without a stack.

  * `Nests`: parts that nest, and the forest that they are written for.
  * `outline`, `outlineOf`: nodes, or parts, in source order, each with its depth.
  * `Leaves`: parts that nest but for start tags that are still open.
  * `Violation`: the first thing that is wrong with passages.
  * `nest_eq_ok_iff_nests`, `nest_eq_error_iff_violation`: nothing else is accepted,
    and nothing else is reported.
-/

namespace ReactiveView.Markup

open Text

/-! ## §1. Parts that nest -/

/-- Whether a start tag opens an element: it neither closes itself nor is the element void. -/
def Opens (tag : String) (selfClosing : Bool) : Prop := selfClosing = false ∧ tag ∉ voidElements

instance (tag : String) (selfClosing : Bool) : Decidable (Opens tag selfClosing) :=
  inferInstanceAs (Decidable (_ ∧ _))

/-- Parts that nest, and the forest that they are written for. -/
inductive Nests : List Part → List MarkupNode → Prop where
  /-- Nothing. -/
  | nil : Nests [] []
  /-- A comment is kept. -/
  | comment {body : String} {ps : List Part} {ns : List MarkupNode} :
    Nests ps ns → Nests (.comment body :: ps) (.comment body :: ns)
  /-- A text is kept, its entities decoded. -/
  | text {raw : String} {ps : List Part} {ns : List MarkupNode} :
    isBlankText raw.toList = false → Nests ps ns →
      Nests (.text raw :: ps) (.text (decodeEntities raw) :: ns)
  /-- Blanks are dropped. -/
  | blank {raw : String} {ps : List Part} {ns : List MarkupNode} :
    isBlankText raw.toList = true → Nests ps ns → Nests (.text raw :: ps) ns
  /-- A start tag that opens nothing is an element of its own. -/
  | childless {tag : String} {attrs : List (String × String)} {selfClosing : Bool}
    {ps : List Part} {ns : List MarkupNode} :
    ¬ Opens tag selfClosing → Nests ps ns →
      Nests (.start tag attrs selfClosing :: ps) (.element tag attrs [] :: ns)
  /-- A start tag that opens an element is closed by an end tag of the same name. What nests in
      between are the children. -/
  | element {tag : String} {attrs : List (String × String)} {selfClosing : Bool}
    {inner ps : List Part} {children ns : List MarkupNode} :
    Opens tag selfClosing → Nests inner children → Nests ps ns →
      Nests (.start tag attrs selfClosing :: (inner ++ .stop tag :: ps))
        (.element tag attrs children :: ns)

variable {ps qs : List Part} {ns ms : List MarkupNode} {tags : List String}

/-- What nests may be followed by what nests. -/
theorem Nests.append (h : Nests ps ns) (h' : Nests qs ms) : Nests (ps ++ qs) (ns ++ ms) := by
  induction h with
  | nil => exact h'
  | comment _ ih => exact .comment ih
  | text hraw _ ih => exact .text hraw ih
  | blank hraw _ ih => exact .blank hraw ih
  | childless hopen _ ih => exact .childless hopen ih
  | @element tag attrs selfClosing inner ps children ns hopen hinner _ _ ih =>
    rw [List.cons_append, List.append_assoc]
    exact .element hopen hinner ih

/-! ## §2. Source order -/

mutual

/-- The nodes of a tree that stands at a depth, each in front of its children. -/
def outlineNode (depth : Nat) : MarkupNode → List (Nat × MarkupNode)
  | .element tag attrs children =>
    (depth, .element tag attrs []) :: outline (depth + 1) children
  | .text s => [(depth, .text s)]
  | .comment s => [(depth, .comment s)]

/-- The nodes of a forest that stands at a depth, each in front of its children. -/
def outline (depth : Nat) : List MarkupNode → List (Nat × MarkupNode)
  | [] => []
  | n :: ns => outlineNode depth n ++ outline depth ns

end

/-- The node that a part begins. An end tag begins none, and blanks do not. -/
def Part.node? : Part → Option MarkupNode
  | .start tag attrs _ => some (.element tag attrs [])
  | .stop _ => none
  | .comment body => some (.comment body)
  | .text raw => if isBlankText raw.toList then none else some (.text (decodeEntities raw))

/-- The depth behind a part that stands at a depth. -/
def Part.depthAfter (depth : Nat) : Part → Nat
  | .start tag _ selfClosing => if Opens tag selfClosing then depth + 1 else depth
  | .stop _ => depth - 1
  | .comment _ => depth
  | .text _ => depth

/-- The nodes that parts begin, in the order of the parts. The first part stands at a depth. -/
def outlineOf (depth : Nat) : List Part → List (Nat × MarkupNode)
  | [] => []
  | p :: ps => p.node?.toList.map (depth, ·) ++ outlineOf (p.depthAfter depth) ps

/-- **Parts that nest** begin the nodes of their forest, in order and each at its depth. -/
theorem Nests.outlineOf_append (h : Nests ps ns) (depth : Nat) (qs : List Part) :
    outlineOf depth (ps ++ qs) = outline depth ns ++ outlineOf depth qs := by
  induction h generalizing depth qs with
  | nil => rfl
  | comment _ ih => exact congrArg (_ :: ·) (ih depth qs)
  | text hraw _ ih =>
    rw [List.cons_append, outlineOf, Part.node?, hraw]
    exact congrArg (_ :: ·) (ih depth qs)
  | blank hraw _ ih =>
    rw [List.cons_append, outlineOf, Part.node?, if_pos hraw]
    exact ih depth qs
  | childless hopen _ ih =>
    rw [List.cons_append, outlineOf, Part.depthAfter, if_neg hopen]
    exact congrArg (_ :: ·) (ih depth qs)
  | @element tag attrs selfClosing inner ps children ns hopen _ _ ihinner ih =>
    rw [List.cons_append, outlineOf, Part.depthAfter, if_pos hopen, List.append_assoc,
      ihinner (depth + 1), List.cons_append, outlineOf, Part.depthAfter, Nat.add_sub_cancel, ih]
    simp [Part.node?, outline, outlineNode]

/-! ## §3. Tags that are still open -/

/-- Parts that nest but for start tags to which the end tag is missing. These are given innermost
    first. -/
inductive Leaves : List Part → List String → Prop where
  /-- None is missing. -/
  | closed {ps : List Part} {ns : List MarkupNode} : Nests ps ns → Leaves ps []
  /-- One more is missing; behind its start tag the parts nest. -/
  | opened {tag : String} {attrs : List (String × String)} {selfClosing : Bool}
    {ps inner : List Part} {tags : List String} {ns : List MarkupNode} :
    Leaves ps tags → Opens tag selfClosing → Nests inner ns →
      Leaves (ps ++ .start tag attrs selfClosing :: inner) (tag :: tags)

/-- Parts that leave nothing open nest. -/
theorem Leaves.exists_nests (h : Leaves ps []) : ∃ ns, Nests ps ns := by
  cases h with
  | closed hps => exact ⟨_, hps⟩

/-- What nests leaves no more tags open. -/
theorem Leaves.append (h : Leaves ps tags) (h' : Nests qs ns) : Leaves (ps ++ qs) tags := by
  cases h with
  | closed hps => exact .closed (hps.append h')
  | opened hps hopen hinner =>
    rw [List.append_assoc]
    exact .opened hps hopen (hinner.append h')

/-- An end tag closes the innermost open tag if it has the same name. -/
theorem Leaves.stop {tag : String} (h : Leaves ps (tag :: tags)) :
    Leaves (ps ++ [.stop tag]) tags := by
  cases h with
  | @opened _ attrs selfClosing ps inner _ ns hps hopen hinner =>
    rw [List.append_assoc]
    exact hps.append (.element hopen hinner .nil)

/-- **One more part** changes what is left open, unless it is an end tag that does not fit. -/
theorem Leaves.concat (h : Leaves ps tags) (p : Part) :
    (∃ tags', Leaves (ps ++ [p]) tags') ∨
      ∃ found, p = .stop found ∧ ∀ expected ∈ tags.head?, expected ≠ found := by
  cases p with
  | comment body => exact .inl ⟨tags, h.append (.comment .nil)⟩
  | text raw =>
    left
    cases hraw : isBlankText raw.toList with
    | true => exact ⟨tags, h.append (.blank hraw .nil)⟩
    | false => exact ⟨tags, h.append (.text hraw .nil)⟩
  | start tag attrs selfClosing =>
    left
    by_cases hopen : Opens tag selfClosing
    · exact ⟨tag :: tags, .opened h hopen .nil⟩
    · exact ⟨tags, h.append (.childless hopen .nil)⟩
  | stop found =>
    by_cases hfits : tags.head? = some found
    · obtain ⟨tags', rfl⟩ := List.head?_eq_some_iff.mp hfits
      exact .inl ⟨tags', h.stop⟩
    · refine .inr ⟨found, rfl, ?_⟩
      rintro expected hexpected rfl
      exact hfits hexpected

/-! ## §4. Violations -/

variable {d : Delimiters}

/-- Passages with an end tag that does not fit, where all the end tags before it do, and how it is
    reported: with the number of bytes before it. -/
inductive Misplaced : List (Passage d) → TemplateError → Prop where
  /-- No tag is open. -/
  | unexpected {before after : List (Passage d)} {p : Passage d} {found : String} :
    Leaves (parts before) [] → p.part = .stop found →
      Misplaced (before ++ p :: after) (.unexpectedClose found (byteLength (source before)))
  /-- The innermost open tag has another name. -/
  | mismatched {before after : List (Passage d)} {p : Passage d} {expected found : String}
    {tags : List String} :
    Leaves (parts before) (expected :: tags) → p.part = .stop found → expected ≠ found →
      Misplaced (before ++ p :: after)
        (.mismatchedClose expected found (byteLength (source before)))

/-- The first thing that is wrong with passages. -/
inductive Violation (ps : List (Passage d)) : TemplateError → Prop where
  /-- An end tag does not fit. -/
  | misplaced {e : TemplateError} : Misplaced ps e → Violation ps e
  /-- All end tags fit, but some are missing; the innermost open tag is reported. -/
  | unclosed {tag : String} {tags : List String} :
    Leaves (parts ps) (tag :: tags) → Violation ps (.unclosed tag)

theorem Misplaced.append {ps : List (Passage d)} {e : TemplateError} (h : Misplaced ps e)
    (qs : List (Passage d)) : Misplaced (ps ++ qs) e := by
  cases h with
  | unexpected hbefore hp =>
    rw [List.append_assoc]
    exact .unexpected hbefore hp
  | mismatched hbefore hp hne =>
    rw [List.append_assoc]
    exact .mismatched hbefore hp hne

/-- All end tags fit, or there is a first one that does not. -/
theorem leaves_or_misplaced (ps : List (Passage d)) :
    (∃ tags, Leaves (parts ps) tags) ∨ ∃ e, Misplaced ps e := by
  -- By induction from the left: the passages that were looked at come first.
  induction ps using List.reverseRecOn with
  | nil => exact .inl ⟨[], .closed .nil⟩
  | append_singleton ps p ih =>
    rcases ih with ⟨tags, htags⟩ | ⟨e, he⟩
    · rcases htags.concat p.part with hnext | ⟨found, hp, hfound⟩
      · left
        rwa [parts, List.map_append]
      · right
        cases tags with
        | nil => exact ⟨_, .unexpected htags hp⟩
        | cons expected tags => exact ⟨_, .mismatched htags hp (hfound expected rfl)⟩
    · exact .inr ⟨e, he.append [p]⟩

/-- Passages nest, or something is wrong with them. -/
theorem nests_or_violation (ps : List (Passage d)) :
    (∃ ns, Nests (parts ps) ns) ∨ ∃ e, Violation ps e := by
  rcases leaves_or_misplaced ps with ⟨tags, htags⟩ | ⟨e, he⟩
  · cases tags with
    | nil => exact .inl htags.exists_nests
    | cons tag tags => exact .inr ⟨_, .unclosed htags⟩
  · exact .inr ⟨e, .misplaced he⟩

/-! ## §5. Taking parts in -/

namespace Partway

variable {p q : Partway}

/-- Takes parts in, one after the other. Where they fit their offsets make no difference. -/
def takeAll (p : Partway) (ps : List Part) : Except TemplateError Partway :=
  (ps.map (Part.item 0)).foldlM take p

theorem takeAll_cons {part : Part} (h : p.take (part.item 0) = .ok q) (ps : List Part) :
    p.takeAll (part :: ps) = q.takeAll ps := by
  show (p.take (part.item 0) >>= fun p => p.takeAll ps) = _
  rw [h]
  rfl

theorem takeAll_append (h : p.takeAll ps = .ok q) (qs : List Part) :
    p.takeAll (ps ++ qs) = q.takeAll qs := by
  rw [takeAll, List.map_append, List.foldlM_append]
  show (p.takeAll ps >>= fun p => p.takeAll qs) = _
  rw [h]
  rfl

/-- The names of the open elements. -/
def openTags (p : Partway) : List String := p.pending.map OpenElement.tag

@[simp] theorem openTags_addAll (p : Partway) (ns : List MarkupNode) :
    (p.addAll ns).openTags = p.openTags := by
  obtain ⟨pending, roots⟩ := p
  cases pending with
  | nil => rw [addAll_roots]; rfl
  | cons e pending => rw [addAll_open]; rfl

theorem take_start {tag : String} {selfClosing : Bool} (h : Opens tag selfClosing)
    (p : Partway) (attrs : List (String × String)) :
    p.take (.start tag attrs selfClosing) =
      .ok { p with pending := ⟨tag, attrs, []⟩ :: p.pending } := by
  obtain ⟨hclosing, hvoid⟩ := h
  exact if_neg (by simp [hclosing, hvoid])

theorem take_childless {tag : String} {selfClosing : Bool} (h : ¬ Opens tag selfClosing)
    (p : Partway) (attrs : List (String × String)) :
    p.take (.start tag attrs selfClosing) = .ok (p.add (.element tag attrs [])) := by
  refine if_pos ?_
  simpa [Opens, or_iff_not_imp_left] using h

theorem take_text {raw : String} (h : isBlankText raw.toList = false) (p : Partway) :
    p.take (.text raw) = .ok (p.add (.text (decodeEntities raw))) := if_neg (by simp [h])

theorem take_blank {raw : String} (h : isBlankText raw.toList = true) (p : Partway) :
    p.take (.text raw) = .ok p := if_pos h

theorem take_stop (e : OpenElement) (pending : List OpenElement) (roots : List MarkupNode)
    (offset : Nat) : take ⟨e :: pending, roots⟩ (.stop e.tag offset) =
      .ok (add ⟨pending, roots⟩ (.element e.tag e.attrs e.children)) := if_pos rfl

theorem take_refused {e : OpenElement} {found : String} (h : e.tag ≠ found)
    (pending : List OpenElement) (roots : List MarkupNode) (offset : Nat) :
    take ⟨e :: pending, roots⟩ (.stop found offset) =
      .error (.mismatchedClose e.tag found offset) := if_neg h

/-- **Parts that nest** put their forest in. -/
theorem takeAll_of_nests (h : Nests ps ns) (p : Partway) : p.takeAll ps = .ok (p.addAll ns) := by
  induction h generalizing p with
  | nil => rfl
  | comment _ ih => exact (takeAll_cons rfl _).trans (ih _)
  | text hraw _ ih => exact (takeAll_cons (take_text hraw p) _).trans (ih _)
  | blank hraw _ ih => exact (takeAll_cons (take_blank hraw p) _).trans (ih _)
  | childless hopen _ ih => exact (takeAll_cons (take_childless hopen p _) _).trans (ih _)
  | @element tag attrs selfClosing inner ps children ns hopen _ _ ihinner ih =>
    rw [takeAll_cons (take_start hopen p attrs), takeAll_append (ihinner _), addAll_open,
      takeAll_cons (take_stop _ _ _ 0)]
    exact ih _

/-- What was left open is pending. -/
theorem takeAll_of_leaves (h : Leaves ps tags) :
    ∃ q, takeAll ⟨[], []⟩ ps = .ok q ∧ q.openTags = tags := by
  induction h with
  | closed hps => exact ⟨_, takeAll_of_nests hps _, openTags_addAll _ _⟩
  | @opened tag attrs selfClosing ps inner tags ns _ hopen hinner ih =>
    obtain ⟨q, hq, htags⟩ := ih
    let q' : Partway := ⟨⟨tag, attrs, []⟩ :: q.pending, q.roots⟩
    refine ⟨q'.addAll ns, ?_, ?_⟩
    · rw [takeAll_append hq, takeAll_cons (take_start hopen q attrs)]
      exact takeAll_of_nests hinner q'
    · rw [openTags_addAll, ← htags]
      rfl

/-- An end tag that fits is taken in wherever it stands. -/
theorem take_item {part : Part} {offset : Nat} (h : p.take (part.item offset) = .ok q)
    (offset' : Nat) : p.take (part.item offset') = .ok q := by
  cases part with
  | start | comment | text => exact h
  | stop found =>
    obtain ⟨pending, roots⟩ := p
    cases pending with
    | nil => cases h
    | cons e pending =>
      by_cases hfits : e.tag = found
      · subst hfits
        have htaken := (take_stop e pending roots offset).symm.trans h
        exact (take_stop e pending roots offset').trans htaken
      · have hrefused := (take_refused hfits pending roots offset).symm.trans h
        cases hrefused

/-- Passages are taken in as their parts are. -/
theorem foldlM_itemsOf {ps : List (Passage d)} (h : p.takeAll (parts ps) = .ok q) (offset : Nat) :
    (itemsOf offset ps).foldlM take p = .ok q := by
  induction ps generalizing p offset with
  | nil => exact h
  | cons x ps ih =>
    obtain ⟨p', htake, h⟩ := exists_take_of_foldlM h
    rw [itemsOf, List.foldlM_cons, take_item htake offset]
    exact ih h _

end Partway

/-! ## §6. Acceptance -/

theorem itemsOf_append (offset : Nat) (ps qs : List (Passage d)) :
    itemsOf offset (ps ++ qs) =
      itemsOf offset ps ++ itemsOf (offset + byteLength (source ps)) qs := by
  induction ps generalizing offset with
  | nil => rfl
  | cons p ps ih =>
    have hwidth : byteLength (source (p :: ps)) = byteLength p.text + byteLength (source ps) :=
      byteLength_append _ _
    rw [List.cons_append, itemsOf, itemsOf, ih, hwidth, List.cons_append, Nat.add_assoc]

theorem nest_of_nests {ps : List (Passage d)} (h : Nests (parts ps) ns) :
    nest (itemsOf 0 ps) = .ok ns := by
  rw [nest_eq_ok_iff, Partway.foldlM_itemsOf (Partway.takeAll_of_nests h _), Partway.addAll_roots]
  rfl

/-- An end tag is reported if it is refused behind what stands before it. -/
theorem nest_of_refused {before : List (Passage d)} {p : Passage d} {q : Partway}
    {e : TemplateError} (hbefore : Partway.takeAll ⟨[], []⟩ (parts before) = .ok q)
    (h : q.take (p.part.item (byteLength (source before))) = .error e) (after : List (Passage d)) :
    nest (itemsOf 0 (before ++ p :: after)) = .error e := by
  have hfold : (itemsOf 0 (before ++ p :: after)).foldlM Partway.take ⟨[], []⟩ = .error e := by
    rw [itemsOf_append, List.foldlM_append, Partway.foldlM_itemsOf hbefore, Nat.zero_add]
    show (q.take (p.part.item (byteLength (source before))) >>= _) = _
    rw [h]
    rfl
  rw [nest, hfold]

theorem nest_of_violation {ps : List (Passage d)} {e : TemplateError} (h : Violation ps e) :
    nest (itemsOf 0 ps) = .error e := by
  cases h with
  | misplaced he =>
    cases he with
    | unexpected hbefore hp =>
      obtain ⟨⟨pending, roots⟩, hq, htags⟩ := Partway.takeAll_of_leaves hbefore
      obtain rfl : pending = [] := List.map_eq_nil_iff.mp htags
      exact nest_of_refused hq (by rw [hp]; rfl) _
    | mismatched hbefore hp hne =>
      obtain ⟨⟨pending, roots⟩, hq, htags⟩ := Partway.takeAll_of_leaves hbefore
      obtain ⟨e, pending, rfl, rfl, -⟩ := List.map_eq_cons_iff.mp htags
      exact nest_of_refused hq (by rw [hp]; exact Partway.take_refused hne pending roots _) _
  | unclosed htags =>
    obtain ⟨⟨pending, roots⟩, hq, htags⟩ := Partway.takeAll_of_leaves htags
    obtain ⟨e, pending, rfl, rfl, -⟩ := List.map_eq_cons_iff.mp htags
    rw [nest, Partway.foldlM_itemsOf hq]
    rfl

theorem nest_eq_ok_iff_nests {ps : List (Passage d)} :
    nest (itemsOf 0 ps) = .ok ns ↔ Nests (parts ps) ns := by
  refine ⟨fun h => ?_, nest_of_nests⟩
  rcases nests_or_violation ps with ⟨ns', hns'⟩ | ⟨e, he⟩
  · have hns := nest_of_nests hns'
    rw [h] at hns
    exact Except.ok.inj hns ▸ hns'
  · have he := nest_of_violation he
    rw [h] at he
    cases he

theorem nest_eq_error_iff_violation {ps : List (Passage d)} {e : TemplateError} :
    nest (itemsOf 0 ps) = .error e ↔ Violation ps e := by
  refine ⟨fun h => ?_, nest_of_violation⟩
  rcases nests_or_violation ps with ⟨ns, hns⟩ | ⟨e', he'⟩
  · have hns := nest_of_nests hns
    rw [h] at hns
    cases hns
  · have he := nest_of_violation he'
    rw [h] at he
    exact Except.error.inj he ▸ he'

theorem parse_source (hd : '<' ∉ d.opening) {ps : List (Passage d)} (hps : TextsApart ps) :
    parse d (String.ofList (source ps)) = nest (itemsOf 0 ps) := by
  rw [parse, String.toList_ofList, items_source hd hps]

/-- **What is accepted** is what nests. What is read has the nodes that the parts begin, in source
    order and at the depths that the tags give them. Of anything else the first violation is
    reported. -/
theorem parse_source_iff (hd : '<' ∉ d.opening) {ps : List (Passage d)} (hps : TextsApart ps) :
    (∀ forest, parse d (String.ofList (source ps)) = .ok forest ↔ Nests (parts ps) forest) ∧
      (∀ forest, parse d (String.ofList (source ps)) = .ok forest →
        outline 0 forest = outlineOf 0 (parts ps)) ∧
      ∀ e, parse d (String.ofList (source ps)) = .error e ↔ Violation ps e := by
  rw [parse_source hd hps]
  refine ⟨fun forest => nest_eq_ok_iff_nests, fun forest h => ?_,
    fun e => nest_eq_error_iff_violation⟩
  have houtline := (nest_eq_ok_iff_nests.mp h).outlineOf_append 0 []
  rw [List.append_nil] at houtline
  rw [houtline, outlineOf, List.append_nil]

/-- Two braces around an interpolation. -/
def braces : Delimiters := ⟨['\x7b', '\x7b'], ['\x7d', '\x7d']⟩

theorem braces_unopened {raw : String} (h : '\x7b' ∉ raw.toList) :
    braces.opening = [] ∨ ¬ braces.opening <:+: raw.toList :=
  .inr fun hi => h (hi.subset List.mem_cons_self)

/-- The beginning of a list with one entry. In its tags are capitals, blanks and a value in single
    quotes, in its text is an entity, and an element is void. -/
def entryOpen : List (Passage braces) :=
  [ ⟨_, _, @Spelt.start _ "Ul" _ _ _ ⟨'U', rfl, rfl⟩ (List.all_eq_true.mp (by decide))
      (by rintro _ ⟨⟩; rfl)
      (@TagEnd.attr [' '] _ _ _ "id" _ _ rfl ⟨by decide, List.all_eq_true.mp (by decide)⟩
        (@ValueForm.quoted _ [] [] ['t', 'o', 'p'] _ rfl rfl (.inr rfl) (by decide))
        (@TagEnd.opened [' '] rfl))⟩,
    ⟨_, _, @Spelt.text _ "\n" (by decide) (by decide) (braces_unopened (by decide))⟩,
    ⟨_, _, @Spelt.start _ "LI" _ _ _ ⟨'L', rfl, rfl⟩ (List.all_eq_true.mp (by decide))
      (by rintro _ ⟨⟩; rfl) (@TagEnd.opened [] rfl)⟩,
    ⟨_, _, @Spelt.text _ "a &amp; b" (by decide) (by decide) (braces_unopened (by decide))⟩,
    ⟨_, _, @Spelt.start _ "BR" _ _ _ ⟨'B', rfl, rfl⟩ (List.all_eq_true.mp (by decide))
      (by rintro _ ⟨⟩; rfl) (@TagEnd.opened [] rfl)⟩ ]

/-- The end of the entry. -/
def entryStop : Passage braces :=
  ⟨_, _, @Spelt.stop _ "li" [' '] ⟨by decide, List.all_eq_true.mp (by decide)⟩ rfl⟩

/-- A comment behind the entry. -/
def remark : Passage braces := ⟨_, _, @Spelt.comment _ " end " (by decide)⟩

/-- The end of the list. -/
def listStop : Passage braces :=
  ⟨_, _, @Spelt.stop _ "ul" [] ⟨by decide, List.all_eq_true.mp (by decide)⟩ rfl⟩

/-- With both end tags the list is accepted; without the inner one the outer one does not fit. -/
theorem parse_source_listing :
    '<' ∉ braces.opening ∧ TextsApart (entryOpen ++ [entryStop, remark, listStop]) ∧
      TextsApart (entryOpen ++ [remark, listStop]) ∧
      parse braces "<Ul id='top' >\n<LI>a &amp; b<BR></li ><!-- end --></ul>" =
        .ok [.element "ul" [("id", "top")]
          [.element "li" [] [.text "a & b", .element "br" [] []], .comment " end "]] ∧
      parse braces "<Ul id='top' >\n<LI>a &amp; b<BR><!-- end --></ul>" =
        .error (.mismatchedClose "li" "ul" 44) := by
  have hd : '<' ∉ braces.opening := by decide
  have hps : TextsApart (entryOpen ++ [entryStop, remark, listStop]) := by decide
  have hps' : TextsApart (entryOpen ++ [remark, listStop]) := by decide
  have hdecode : decodeEntities "a &amp; b" = "a & b" := by with_unfolding_all rfl
  have hinner : Nests [.text "a &amp; b", .start "br" [] false]
      [.text "a & b", .element "br" [] []] := by
    rw [← hdecode]
    exact .text (by decide) (.childless (by decide) .nil)
  refine ⟨hd, hps, hps', ?_, ?_⟩
  · have hparts : parts (entryOpen ++ [entryStop, remark, listStop]) =
        .start "ul" [("id", "top")] false :: ((.text "\n" :: .start "li" [] false ::
          ([.text "a &amp; b", .start "br" [] false] ++ [.stop "li", .comment " end "])) ++
            [.stop "ul"]) := by with_unfolding_all rfl
    have hsource : String.ofList (source (entryOpen ++ [entryStop, remark, listStop])) =
        "<Ul id='top' >\n<LI>a &amp; b<BR></li ><!-- end --></ul>" := by with_unfolding_all rfl
    rw [← hsource, (parse_source_iff hd hps).1, hparts]
    exact .element (by decide) (.blank (by decide) (.element (by decide) hinner (.comment .nil)))
      .nil
  · have hparts : parts (entryOpen ++ [remark]) =
        ([] ++ .start "ul" [("id", "top")] false :: [.text "\n"]) ++ .start "li" [] false ::
          ([.text "a &amp; b", .start "br" [] false] ++ [.comment " end "]) := by
      with_unfolding_all rfl
    have hsource : String.ofList (source (entryOpen ++ [remark, listStop])) =
        "<Ul id='top' >\n<LI>a &amp; b<BR><!-- end --></ul>" := by with_unfolding_all rfl
    have hleaves : Leaves (parts (entryOpen ++ [remark])) ["li", "ul"] := by
      rw [hparts]
      exact .opened (.opened (.closed .nil) (by decide) (.blank (by decide) .nil)) (by decide)
        (hinner.append (.comment .nil))
    have hwidth : byteLength (source (entryOpen ++ [remark])) = 44 := by with_unfolding_all rfl
    have hstop : listStop.part = .stop "ul" := by with_unfolding_all rfl
    rw [← hsource, (parse_source_iff hd hps').2.2, ← hwidth]
    exact .misplaced (@Misplaced.mismatched _ (entryOpen ++ [remark]) [] _ _ _ _ hleaves hstop
      (by decide))

end ReactiveView.Markup
