import Mathlib.Data.List.Basic
import ReactiveView.Proofs.Expr.Resolution
import ReactiveView.Proofs.Template.Unrolling

/-! # Interpolations in a text

  A text is cut at its interpolations. A marker reaches from what opens it to the
  first thing that closes it, and the search for the next one goes on behind it.
  Nothing else of the text is touched, by the compilation and by the expansion.

  * `Marker.StandsIn`: a marker that could be cut out of a text.
  * `Leftmost`: the markers that are cut out. They do not overlap, and no other one
    starts outside of them; there is one such list only (`Leftmost.unique`).
  * `leftmost_markers`: what `pieces` finds is this list.
  * `interpolated`: what becomes of a text.
-/

namespace ReactiveView

open Text Markup

/-! ## §1. The first occurrence -/

section first

variable {p s before rest : List Char}

theorem splitFirst?_eq_none_iff : splitFirst? p s = none ↔ ¬ p <:+: s := by
  induction s with
  | nil => simp [splitFirst?]
  | cons c s ih =>
    rw [splitFirst?, List.infix_cons_iff, not_or, ← ih, ← dropFront?_eq_none_iff]
    cases dropFront? p (c :: s) <;> simp

/-- Nothing that is found stands further to the left. -/
theorem length_le_of_occurs {b r : List Char} (h : splitFirst? p s = some (before, rest))
    (hs : s = b ++ (p ++ r)) : before.length ≤ b.length := by
  induction s generalizing before b with
  | nil =>
    have hb : before = [] := by
      have hwhole := eq_append_of_splitFirst? h
      simp at hwhole
      exact hwhole.1
    simp [hb]
  | cons c s ih =>
    rw [splitFirst?] at h
    split at h
    · obtain ⟨rfl, -⟩ := Prod.mk.inj (Option.some.inj h)
      exact Nat.zero_le _
    · next hnone =>
      obtain ⟨⟨a, r'⟩, ha, heq⟩ := Option.map_eq_some_iff.mp h
      obtain ⟨rfl, rfl⟩ := Prod.mk.inj heq
      cases b with
      | nil => exact absurd ⟨r, hs.symm⟩ (dropFront?_eq_none_iff.mp hnone)
      | cons b' b => exact Nat.succ_le_succ (ih ha (List.cons.inj hs).2)

/-- Two texts that go on alike behind different beginnings. -/
theorem exists_of_append_eq {s' : List Char} (h : before ++ s = rest ++ s')
    (hle : before.length ≤ rest.length) : ∃ b, rest = before ++ b ∧ s = b ++ s' := by
  rcases List.append_eq_append_iff.mp h with ⟨b, hb, hs⟩ | ⟨b, hb, hs⟩
  · exact ⟨b, hb, hs⟩
  · -- The second beginning is not shorter, so it is the first.
    have hlength := congrArg List.length hb
    rw [List.length_append] at hlength
    obtain rfl : b = [] := List.length_eq_zero_iff.mp (by omega)
    exact ⟨[], by simpa using hb.symm, hs.symm⟩

end first

/-! ## §2. Markers -/

/-- An interpolation in a text. -/
structure Marker where
  /-- How many characters stand before it. -/
  start : Nat
  /-- What stands between the delimiters. -/
  body : List Char
deriving DecidableEq

/-- The interpolation with its delimiters. -/
def Marker.text (d : Delimiters) (m : Marker) : List Char := d.opening ++ (m.body ++ d.closing)

/-- Where the interpolation ends. -/
def Marker.stop (d : Delimiters) (m : Marker) : Nat := m.start + (m.text d).length

/-- An interpolation that stands in a text: there is an occurrence of what opens it, and the first
    occurrence behind of what closes it. -/
def Marker.StandsIn (d : Delimiters) (s : List Char) (m : Marker) : Prop :=
  ∃ before rest, s = before ++ (m.text d ++ rest) ∧ before.length = m.start ∧
    ∀ b r, m.body ++ (d.closing ++ rest) = b ++ (d.closing ++ r) → m.body.length ≤ b.length

/-- From a place on, the interpolations that come first and do not overlap. -/
structure Leftmost (d : Delimiters) (s : List Char) (place : Nat) (ms : List Marker) : Prop where
  /-- Each stands in the text. -/
  stands : ∀ m ∈ ms, m.StandsIn d s
  /-- None starts before the place. -/
  behind : ∀ m ∈ ms, place ≤ m.start
  /-- They stand in order, and none starts before the one before it ends. -/
  apart : ms.Pairwise fun m m' => m.stop d ≤ m'.start
  /-- Whatever stands in the text starts where one of them does, or inside one. -/
  covered : ∀ m : Marker, m.StandsIn d s → place ≤ m.start →
    ∃ m' ∈ ms, m'.start ≤ m.start ∧ m.start < m'.stop d

variable {d : Delimiters} {s before body rest : List Char} {m m' : Marker} {place : Nat}

theorem Marker.length_text (d : Delimiters) (m : Marker) :
    (m.text d).length = d.opening.length + (m.body.length + d.closing.length) := by
  rw [text, List.length_append, List.length_append]

/-- At one place there is one interpolation. -/
theorem Marker.StandsIn.unique (h : m.StandsIn d s) (h' : m'.StandsIn d s)
    (hstart : m.start = m'.start) : m = m' := by
  obtain ⟨before, rest, hs, hbefore, hfirst⟩ := h
  obtain ⟨before', rest', hs', hbefore', hfirst'⟩ := h'
  have hlength : before.length = before'.length := by omega
  obtain ⟨-, hinside⟩ := List.append_inj (hs.symm.trans hs') hlength
  simp only [text, List.append_assoc, List.append_cancel_left_eq] at hinside
  -- Neither body goes beyond the other.
  have hle := hfirst _ _ hinside
  have hle' := hfirst' _ _ hinside.symm
  obtain ⟨hbody, -⟩ := List.append_inj hinside (by omega)
  cases m; cases m'
  simp_all

/-- **One list only** has the interpolations that come first. -/
theorem Leftmost.unique (hd : d.opening ≠ []) {ms ms' : List Marker} (h : Leftmost d s place ms)
    (h' : Leftmost d s place ms') : ms = ms' := by
  have hwidth : ∀ m : Marker, m.start < m.stop d := by
    intro m
    have hpos := List.length_pos_iff.mpr hd
    rw [Marker.stop, Marker.length_text]
    omega
  -- The first of one list starts no later than the first of the other.
  have hfirst : ∀ {place m ms m' ms'}, Leftmost d s place (m :: ms) →
      Leftmost d s place (m' :: ms') → m'.start ≤ m.start := by
    intro place m ms m' ms' h h'
    obtain ⟨k, hk, hle, -⟩ := h'.covered m (h.stands m List.mem_cons_self)
      (h.behind m List.mem_cons_self)
    rcases List.mem_cons.mp hk with rfl | hk
    · exact hle
    · have hapart := (List.pairwise_cons.mp h'.apart).1 k hk
      have hlt := hwidth m'
      omega
  -- Behind the first one the others are the ones that come first.
  have htail : ∀ {place m ms}, Leftmost d s place (m :: ms) → Leftmost d s (m.stop d) ms := by
    intro place m ms h
    obtain ⟨hapart, hothers⟩ := List.pairwise_cons.mp h.apart
    refine ⟨fun k hk => h.stands k (List.mem_cons_of_mem m hk), hapart, hothers, ?_⟩
    intro k hk hplace
    have hbehind := h.behind m List.mem_cons_self
    have hlt := hwidth m
    obtain ⟨k', hk', hle, hstop⟩ := h.covered k hk (by omega)
    rcases List.mem_cons.mp hk' with rfl | hk'
    · omega
    · exact ⟨k', hk', hle, hstop⟩
  induction ms generalizing place ms' with
  | nil =>
    cases ms' with
    | nil => rfl
    | cons m' ms' =>
      obtain ⟨k, hk, -⟩ := h.covered m' (h'.stands m' List.mem_cons_self)
        (h'.behind m' List.mem_cons_self)
      cases hk
  | cons m ms ih =>
    cases ms' with
    | nil =>
      obtain ⟨k, hk, -⟩ := h'.covered m (h.stands m List.mem_cons_self)
        (h.behind m List.mem_cons_self)
      cases hk
    | cons m' ms' =>
      have hle := hfirst h h'
      have hle' := hfirst h' h
      obtain rfl := (h.stands m List.mem_cons_self).unique (h'.stands m' List.mem_cons_self)
        (by omega)
      rw [ih (htail h) (htail h')]

/-! ## §3. The pieces of a text -/

/-- The text of a piece. -/
def Piece.text (d : Delimiters) : Piece → List Char
  | .literal t => t
  | .interpolation body => d.opening ++ (body ++ d.closing)

/-- The interpolations among pieces that begin at a place. -/
def markersFrom (d : Delimiters) (place : Nat) : List Piece → List Marker
  | [] => []
  | .literal t :: ps => markersFrom d (place + t.length) ps
  | .interpolation body :: ps =>
    let m : Marker := ⟨place, body⟩
    m :: markersFrom d (m.stop d) ps

section literal

/-- A text that is one piece, or none if it is empty. -/
theorem flatMap_text_literal (d : Delimiters) (s : List Char) :
    (if s = [] then [] else [Piece.literal s]).flatMap (Piece.text d) = s := by
  split
  · next h => exact h.symm
  · exact List.append_nil s

theorem markersFrom_literal_append (d : Delimiters) (place : Nat) (s : List Char)
    (ps : List Piece) :
    markersFrom d place ((if s = [] then [] else [Piece.literal s]) ++ ps) =
      markersFrom d (place + s.length) ps := by
  split
  · next h => rw [h]; rfl
  · rfl

theorem markersFrom_literal (d : Delimiters) (place : Nat) (s : List Char) :
    markersFrom d place (if s = [] then [] else [Piece.literal s]) = [] := by
  have happend := markersFrom_literal_append d place s []
  rwa [List.append_nil] at happend

end literal

/-- **Nothing is lost**: the pieces make up the text. -/
theorem flatMap_text_pieces (d : Delimiters) (s : List Char) :
    (pieces d s).flatMap (Piece.text d) = s := by
  fun_induction pieces d s with
  | case1 s => exact flatMap_text_literal d s
  | case2 s => exact flatMap_text_literal d s
  | case3 s => exact flatMap_text_literal d s
  | case4 s _ before inside hopening body rest hclosing _ ih =>
    rw [List.flatMap_append, flatMap_text_literal, List.flatMap_cons, ih,
      eq_append_of_splitFirst? hopening, eq_append_of_splitFirst? hclosing]
    simp [Piece.text]

/-- What stands in a text behind its beginning stands in the rest of it. -/
theorem Marker.StandsIn.of_append {done : List Char} (h : m.StandsIn d (done ++ s))
    (hle : done.length ≤ m.start) :
    ∃ before rest, s = before ++ (d.opening ++ (m.body ++ (d.closing ++ rest))) ∧
      done.length + before.length = m.start := by
  obtain ⟨before, rest, hs, hbefore, -⟩ := h
  obtain ⟨b, rfl, hb⟩ := exists_of_append_eq hs (by omega)
  rw [List.length_append] at hbefore
  refine ⟨b, rest, ?_, hbefore⟩
  rw [hb, text, List.append_assoc, List.append_assoc]

/-- **What is found** are the interpolations that come first, whatever stands before the text. -/
theorem leftmost_markers (hd : d.opening ≠ []) (done s : List Char) :
    Leftmost d (done ++ s) done.length (markersFrom d done.length (pieces d s)) := by
  fun_induction pieces d s generalizing done with
  | case1 _ _ hnil => exact absurd hnil hd
  | case2 s whole _ hopening =>
    have hnone : markersFrom d done.length whole = [] := markersFrom_literal d _ s
    rw [hnone]
    refine ⟨by simp, by simp, .nil, ?_⟩
    intro m hm hle
    obtain ⟨before, rest, rfl, -⟩ := hm.of_append hle
    exact absurd ⟨before, _, List.append_assoc _ _ _⟩ (splitFirst?_eq_none_iff.mp hopening)
  | case3 s whole _ before inside hopening hclosing =>
    have hnone : markersFrom d done.length whole = [] := markersFrom_literal d _ s
    rw [hnone]
    refine ⟨by simp, by simp, .nil, ?_⟩
    intro m hm hle
    obtain ⟨b, rest, hs, -⟩ := hm.of_append hle
    -- Whatever opens later would be closed behind the first thing that opens.
    have hfirst := length_le_of_occurs hopening hs
    have hsplit := eq_append_of_splitFirst? hopening
    rw [List.append_assoc] at hsplit
    have hsuffix : m.body ++ (d.closing ++ rest) <:+ inside := by
      have hlate : m.body ++ (d.closing ++ rest) <:+ s :=
        ⟨b ++ d.opening, by rw [hs, List.append_assoc]⟩
      have hearly : inside <:+ s := ⟨before ++ d.opening, by rw [hsplit, List.append_assoc]⟩
      refine List.suffix_of_suffix_length_le hlate hearly ?_
      have hlength := congrArg List.length (hsplit.symm.trans hs)
      simp only [List.length_append] at hlength ⊢
      omega
    have hoccurs : d.closing <:+: m.body ++ (d.closing ++ rest) := ⟨m.body, rest, by simp⟩
    exact absurd (hoccurs.trans hsuffix.isInfix) (splitFirst?_eq_none_iff.mp hclosing)
  | case4 s _ before inside hopening body rest hclosing _ ih =>
    have hinside := eq_append_of_splitFirst? hclosing
    have hsplit := eq_append_of_splitFirst? hopening
    rw [List.append_assoc] at hinside hsplit
    -- The first interpolation, and the text up to its end.
    let m : Marker := ⟨done.length + before.length, body⟩
    have hwhole : done ++ s = (done ++ before) ++ (m.text d ++ rest) := by
      rw [hsplit, hinside]
      simp [m, Marker.text]
    have hstop : ((done ++ before) ++ m.text d).length = m.stop d := by
      rw [List.length_append, List.length_append]
      rfl
    have hrest := ih ((done ++ before) ++ m.text d)
    rw [List.append_assoc, ← hwhole, hstop] at hrest
    rw [markersFrom_literal_append]
    show Leftmost d (done ++ s) done.length (m :: markersFrom d (m.stop d) (pieces d rest))
    have hstart : m.start ≤ m.stop d := Nat.le_add_right _ _
    refine ⟨?_, ?_, List.pairwise_cons.mpr ⟨hrest.behind, hrest.apart⟩, ?_⟩
    · rintro k (_ | ⟨_, hk⟩)
      · refine ⟨done ++ before, rest, hwhole, List.length_append, ?_⟩
        intro b r hb
        exact length_le_of_occurs hclosing (hinside.trans hb)
      · exact hrest.stands k hk
    · rintro k (_ | ⟨_, hk⟩)
      · exact Nat.le_add_right _ _
      · have hbehind := hrest.behind k hk
        have hdone : done.length ≤ m.start := Nat.le_add_right _ _
        omega
    · intro k hk hle
      by_cases hlate : m.stop d ≤ k.start
      · obtain ⟨k', hk', hcovers⟩ := hrest.covered k hk hlate
        exact ⟨k', List.mem_cons_of_mem m hk', hcovers⟩
      · -- What starts before the end of the first interpolation does not start before it.
        obtain ⟨b, r, hs, hb⟩ := hk.of_append hle
        have hfirst := length_le_of_occurs hopening hs
        have hdone : m.start = done.length + before.length := rfl
        exact ⟨m, List.mem_cons_self, by omega, by omega⟩

/-! ## §4. The segments of a text -/

/-- What a text is compiled to. -/
def segments (d : Delimiters) (s : List Char) : List Segment :=
  (Traced.forEach (Segment.compile d) (pieces d s)).result

/-- The text of a segment. -/
def Segment.written : Segment → String
  | .literal text => text
  | .interpolation marker _ => marker

/-- The interpolations among segments that begin at a place: where each starts, its text, and what
    it was compiled to. -/
def interpolations (place : Nat) : List Segment → List (Nat × String × Directive)
  | [] => []
  | .literal text :: gs => interpolations (place + text.toList.length) gs
  | .interpolation marker directive :: gs =>
    (place, marker, directive) :: interpolations (place + marker.toList.length) gs

/-- The directive of a source: it is trimmed, and parsed if it can be. -/
def Directive.ofSource (source : List Char) : Directive :=
  ⟨String.ofList (trim source), (Expr.parse (String.ofList (trim source))).toOption⟩

/-- What an interpolation is compiled to. -/
def Marker.compiled (d : Delimiters) (m : Marker) : Nat × String × Directive :=
  (m.start, String.ofList (m.text d), .ofSource m.body)

theorem Directive.result_compile (source : List Char) :
    (Directive.compile source).result = .ofSource source := by
  unfold compile ofSource
  simp only
  split
  · next e h => rw [h]; rfl
  · next cause h => rw [h]; rfl

/-- What a piece is compiled to. -/
theorem Segment.result_compile (d : Delimiters) (p : Piece) :
    (compile d p).result = match p with
      | .literal text => .literal (String.ofList text)
      | .interpolation body =>
        .interpolation (String.ofList (p.text d)) (Directive.ofSource body) := by
  cases p with
  | literal text => rfl
  | interpolation body =>
    rw [compile, Traced.result_bind, Directive.result_compile]
    simp [Piece.text]

theorem segments_eq (d : Delimiters) (s : List Char) :
    segments d s = (pieces d s).map fun p => (Segment.compile d p).result :=
  Traced.result_forEach _ _

theorem written_compile (d : Delimiters) (p : Piece) :
    (Segment.compile d p).result.written = String.ofList (p.text d) := by
  rw [Segment.result_compile]
  cases p <;> rfl

theorem join_written_segments (d : Delimiters) (s : List Char) :
    String.join ((segments d s).map Segment.written) = String.ofList s := by
  have hjoin : ∀ ps : List Piece, String.join (ps.map fun p => String.ofList (p.text d)) =
      String.ofList (ps.flatMap (Piece.text d)) := by
    intro ps
    induction ps with
    | nil => rfl
    | cons p ps ih =>
      rw [List.map_cons, String.join_cons, ih, List.flatMap_cons, String.ofList_append]
  have hmap : (segments d s).map Segment.written =
      (pieces d s).map fun p => String.ofList (p.text d) := by
    rw [segments_eq, List.map_map]
    exact List.map_congr_left fun p _ => written_compile d p
  rw [hmap, hjoin, flatMap_text_pieces]

/-- The interpolations of the segments are those of the pieces. -/
theorem interpolations_map_compile (d : Delimiters) (place : Nat) (ps : List Piece) :
    interpolations place (ps.map fun p => (Segment.compile d p).result) =
      (markersFrom d place ps).map (Marker.compiled d) := by
  induction ps generalizing place with
  | nil => rfl
  | cons p ps ih =>
    rw [List.map_cons, Segment.result_compile]
    cases p with
    | literal t =>
      show interpolations (place + (String.ofList t).toList.length) _ = _
      rw [String.toList_ofList, ih]
      rfl
    | interpolation body =>
      show (_, _, _) :: interpolations (place + (String.ofList _).toList.length) _ = _
      rw [String.toList_ofList, ih]
      rfl

theorem Marker.compiled_injective (d : Delimiters) : Function.Injective (Marker.compiled d) := by
  intro m m' h
  obtain ⟨hstart, htext⟩ := Prod.mk.inj h
  have hbody := String.ofList_injective (Prod.mk.inj htext).1
  simp only [text, List.append_cancel_left_eq, List.append_cancel_right_eq] at hbody
  cases m; cases m'
  simp_all

/-! ## §5. What becomes of a text -/

/-- What is shown of a segment: the value of an interpolation if it has one, and else its text. -/
def Segment.shown (ambient : Ambient) (scope : Scope) : Segment → String
  | .literal text => text
  | .interpolation marker directive =>
    match directive.expr with
    | none => marker
    | some e =>
      match Eval.outcome (e.eval ambient scope) with
      | .ok v => v.display
      | .error _ => marker

/-- A directive has a value if it is an expression that comes to one. -/
theorem Directive.result_value? (ambient : Ambient) (scope : Scope) (d : Directive) :
    (d.value? ambient scope).result =
      d.expr.bind fun e => (Eval.outcome (e.eval ambient scope)).toOption := by
  obtain ⟨source, expr⟩ := d
  cases expr with
  | none => rfl
  | some e =>
    unfold value? Eval.outcome
    rw [Traced.result_bind]
    show _ = (e.eval ambient scope).run.result.toOption
    cases (e.eval ambient scope).run.result with
    | ok v => rfl
    | error cause => rfl

theorem Segment.result_expand (ambient : Ambient) (scope : Scope) (g : Segment) :
    (g.expand ambient scope).result = g.shown ambient scope := by
  cases g with
  | literal text => rfl
  | interpolation marker directive =>
    rw [expand, Traced.result_bind, Directive.result_value?]
    obtain ⟨source, expr⟩ := directive
    cases expr with
    | none => rfl
    | some e =>
      show _ = match Eval.outcome (e.eval ambient scope) with
        | .ok v => v.display
        | .error _ => marker
      rw [Option.bind_some]
      cases Eval.outcome (e.eval ambient scope) with
      | ok v => rfl
      | error cause => rfl

theorem Compiled.result_expand_text (ambient : Ambient) (scope : Scope) (gs : List Segment) :
    ((Compiled.text gs).expand ambient scope).result =
      [.text (String.join (gs.map (Segment.shown ambient scope)))] := by
  rw [expand, Traced.result_bind, Traced.result_forEach]
  have hmap : gs.map (fun g => (g.expand ambient scope).result) =
      gs.map (Segment.shown ambient scope) :=
    List.map_congr_left fun g _ => g.result_expand ambient scope
  rw [hmap]
  rfl

/-- **Only interpolations change.** The segments that a text is compiled to make up the text. If
    something opens interpolations, those among the segments are the ones that come first and do not
    overlap, each with the expression between its delimiters; else there is none. The expansion
    shows the segments in their order, an interpolation by its value if it is an expression that has
    one, and everything else as it is written. -/
theorem interpolated (s : TemplateSyntax) (text : List Char) :
    String.join ((segments s.delimiters text).map Segment.written) = String.ofList text ∧
      (s.opening ≠ "" → ∀ ms,
        interpolations 0 (segments s.delimiters text) = ms.map (Marker.compiled s.delimiters) ↔
          Leftmost s.delimiters text 0 ms) ∧
      (s.opening = "" → interpolations 0 (segments s.delimiters text) = []) ∧
      (∀ ambient scope, ((Compiled.text (segments s.delimiters text)).expand ambient scope).result =
        [.text (String.join ((segments s.delimiters text).map (Segment.shown ambient scope)))]) ∧
      ∀ source : String, joinLines source.toList = text →
        (compileNode s (.text source)).run.result = .ok (.text (segments s.delimiters text)) := by
  have hmarkers : interpolations 0 (segments s.delimiters text) =
      (markersFrom s.delimiters 0 (pieces s.delimiters text)).map
        (Marker.compiled s.delimiters) := by
    rw [segments_eq]
    exact interpolations_map_compile s.delimiters 0 _
  refine ⟨join_written_segments s.delimiters text, ?_, ?_, ?_, ?_⟩
  · intro hopening ms
    have hne : s.delimiters.opening ≠ [] := by
      intro hnil
      exact hopening (String.toList_eq_nil_iff.mp hnil)
    have hleftmost : Leftmost s.delimiters text 0
        (markersFrom s.delimiters 0 (pieces s.delimiters text)) := leftmost_markers hne [] text
    rw [hmarkers]
    constructor
    · intro hsame
      obtain rfl := List.map_injective_iff.mpr (Marker.compiled_injective s.delimiters) hsame
      exact hleftmost
    · intro h
      rw [hleftmost.unique hne h]
  · intro hopening
    have hnil : s.delimiters.opening = [] := String.toList_eq_nil_iff.mpr hopening
    rw [hmarkers, pieces, dif_pos hnil]
    exact congrArg (List.map _) (markersFrom_literal s.delimiters 0 text)
  · exact fun ambient scope => Compiled.result_expand_text ambient scope _
  · rintro source rfl
    rfl

/-- A spelling in which the same bars open and close. -/
def barSyntax : TemplateSyntax := { opening := "||", closing := "||" }

/-- Two interpolations, one without a value, and bars that nothing closes. -/
theorem interpolated_bars :
    barSyntax.opening ≠ "" ∧
      Leftmost barSyntax.delimiters "a||'x'||b||+||||d".toList 0
        [⟨1, "'x'".toList⟩, ⟨9, "+".toList⟩] ∧
      ∃ compiled, (compileNode barSyntax (.text "a||'x'||b||+||||d")).run.result = .ok compiled ∧
        (compiled.expand .empty .empty).result = [.text "axb||+||||d"] := by
  obtain ⟨-, hleftmost, -, hshown, hcompile⟩ :=
    interpolated barSyntax "a||'x'||b||+||||d".toList
  have hopening : barSyntax.opening ≠ "" := by decide
  have hsegments : interpolations 0 (segments barSyntax.delimiters "a||'x'||b||+||||d".toList) =
      List.map (Marker.compiled barSyntax.delimiters)
        [⟨1, "'x'".toList⟩, ⟨9, "+".toList⟩] := by
    rw [segments_eq, interpolations_map_compile]
    exact congrArg (List.map _) (by decide +kernel)
  have hjoin : String.join ((segments barSyntax.delimiters "a||'x'||b||+||||d".toList).map
      (Segment.shown .empty .empty)) = "axb||+||||d" := by decide +kernel
  refine ⟨hopening, (hleftmost hopening _).mp hsegments, _,
    hcompile "a||'x'||b||+||||d" (if_neg (by decide)), ?_⟩
  rw [hshown, hjoin]

end ReactiveView
