import ReactiveView.Proofs.Markup.Grammar
import ReactiveView.Proofs.Markup.Lenient
import ReactiveView.Proofs.Markup.Scanner

/-! # The scanner always advances

  A scanner that keeps its place as an offset in bytes may stop moving, or get
  between the bytes of a character, or past the end of the text. None of this
  happens: what a scanner takes begins and ends at boundaries, and what it takes
  is what the functions on what is left of the text take.

  * `Ahead`: the text behind an offset, which is a boundary.
  * `jumpFrom`, `afterText_eq_jump`: the search that jumps to the next `<` or
    behind the next interpolation ends where the one by characters does.
  * `Source.follows_item`: every item takes a character at least. The lemmas
    before it say the same of the pieces of an item.
  * `Source.follows_turns`: the turns take in all items, by induction on what
    is left, which each turn makes shorter.
  * `scanner_always_advances`: both loops advance, and the scanner comes
    to what `parse` does.
-/

namespace ReactiveView.Markup

open Text

variable {α β : Type} {d : Delimiters} {source s t : List Char} {c : Char}
  {pos next least offset : Nat}

/-! ## §1. What lies ahead -/

/-- The text behind an offset, which is a boundary. -/
def Ahead (source : List Char) (pos : Nat) (s : List Char) : Prop :=
  ∃ before, source = before ++ s ∧ byteLength before = pos

namespace Ahead

theorem move (h : Ahead source pos (t ++ s)) : Ahead source (pos + byteLength t) s := by
  obtain ⟨before, rfl, rfl⟩ := h
  exact ⟨before ++ t, (List.append_assoc ..).symm, byteLength_append ..⟩

theorem move_eq (h : Ahead source pos (t ++ s)) (hnext : next = pos + byteLength t) :
    Ahead source next s :=
  hnext ▸ h.move

theorem add_byteLength (h : Ahead source pos s) : pos + byteLength s = byteLength source := by
  obtain ⟨before, rfl, rfl⟩ := h
  exact (byteLength_append ..).symm

/-- Behind some text an offset is greater than in front of it. -/
theorem lt_of_append (h : Ahead source pos (t ++ s)) (h' : Ahead source next s) (ht : t ≠ []) :
    pos < next := by
  have hwidth := h.add_byteLength
  have hwidth' := h'.add_byteLength
  have hpos := byteLength_pos ht
  rw [byteLength_append] at hwidth
  omega

/-- What lies between two boundaries. -/
theorem exists_append (h : Ahead source pos s) (h' : Ahead source next t) (hle : pos ≤ next) :
    ∃ taken, s = taken ++ t ∧ next = pos + byteLength taken := by
  obtain ⟨before, hsource, rfl⟩ := h
  obtain ⟨before', rfl, rfl⟩ := h'
  rcases List.append_eq_append_iff.mp hsource with ⟨a, rfl, rfl⟩ | ⟨a, rfl, rfl⟩
  · rw [byteLength_append] at hle
    have hnil : a = [] := by
      by_contra hne
      have hpos := byteLength_pos hne
      omega
    subst hnil
    exact ⟨[], rfl, by simp⟩
  · exact ⟨a, rfl, byteLength_append ..⟩

theorem lt_of_length_lt (h : Ahead source pos s) (h' : Ahead source next t) (hle : pos ≤ next)
    (hlen : t.length < s.length) : pos < next := by
  obtain ⟨taken, rfl, rfl⟩ := h.exists_append h' hle
  have htaken : taken ≠ [] := by
    rintro rfl
    exact Nat.lt_irrefl _ hlen
  have hpos := byteLength_pos htaken
  omega

theorem splitBytes? (h : Ahead source pos s) :
    ∃ before, Text.splitBytes? pos source = some (before, s) := by
  obtain ⟨before, rfl, rfl⟩ := h
  exact ⟨before, splitBytes?_append before s⟩

theorem slice? (h : Ahead source pos (t ++ s)) :
    Text.slice? pos (pos + byteLength t) source = some t := by
  obtain ⟨before, hsplit⟩ := h.splitBytes?
  rw [Text.slice?, if_pos (Nat.le_add_right _ _), hsplit, Nat.add_sub_cancel_left]
  show (Text.splitBytes? (byteLength t) (t ++ s)).map _ = _
  rw [splitBytes?_append]
  rfl

end Ahead

theorem ahead_end (source : List Char) : Ahead source (byteLength source) [] :=
  ⟨source, (List.append_nil source).symm, rfl⟩

/-- The boundaries of a text are the valid positions of the string. -/
theorem isValid_iff_ahead {source : String} :
    String.Pos.Raw.IsValid source ⟨pos⟩ ↔ ∃ s, Ahead source.toList pos s := by
  simp only [isValid_iff, splitBytes?_eq_some_iff]
  exact exists_comm

theorem slice?_zero (t s : List Char) : slice? 0 (byteLength t) (t ++ s) = some t := by
  have h : Ahead (t ++ s) 0 (t ++ s) := ⟨[], rfl, rfl⟩
  have hslice := h.slice?
  rwa [Nat.zero_add] at hslice

/-! ## §2. Tags by their beginnings and ends -/

theorem startsWith_iff {p : List Char} : startsWith p s = true ↔ ∃ r, s = p ++ r := by
  rw [startsWith, Option.isSome_iff_exists]
  exact exists_congr fun r => dropFront?_eq_some_iff

theorem startsWith_eq_false {p : List Char} (h : ∀ r, s ≠ p ++ r) : startsWith p s = false := by
  rw [← Bool.not_eq_true, startsWith_iff]
  rintro ⟨r, hr⟩
  exact h r hr

theorem bareValue_fst (s : List Char) : (bareValue s).1 =
    if (s.takeWhile (!endsBareValue ·)).getLast? = some '/' &&
        startsWith ['>'] (s.dropWhile (!endsBareValue ·)) then
      (s.takeWhile (!endsBareValue ·)).dropLast
    else s.takeWhile (!endsBareValue ·) := by
  simp only [bareValue]
  split
  · next r hr =>
    have hgreater : startsWith ['>'] (s.dropWhile (!endsBareValue ·)) = true :=
      startsWith_iff.mpr ⟨r, hr⟩
    rw [hgreater, Bool.and_true]
    split <;> simp_all
  · next hother =>
    have hgreater : ¬ startsWith ['>'] (s.dropWhile (!endsBareValue ·)) = true := by
      intro hstarts
      obtain ⟨r, hr⟩ := startsWith_iff.mp hstarts
      exact hother r hr
    simp [hgreater]

theorem endTag?_eq (s : List Char) : endTag? s =
    if nameOf s = [] || !startsWith ['>'] (trimStart (afterName s)) then none
    else some (lowerAscii (nameOf s), (trimStart (afterName s)).tail) := by
  unfold endTag?
  split
  · next r hr =>
    have hstarts : startsWith ['>'] (trimStart (afterName s)) = true := startsWith_iff.mpr ⟨r, hr⟩
    rw [hstarts, hr]
    simp
  · next hother =>
    rw [startsWith_eq_false hother]
    simp

/-- The message for a tag that is not well formed. -/
def TagFault.blame (source : List Char) (offset : Nat) : TagFault → TemplateError
  | .endless => .malformedTag offset
  | .badName rest => .malformedTag (byteLength source - byteLength rest)

theorem attrValue_error {e : TagFault} (h : attrValue s = .error e) : e = .endless := by
  unfold attrValue at h
  split at h
  · exact (Except.error.inj h).symm
  · split at h
    · split at h
      · cases h
      · exact (Except.error.inj h).symm
    · cases h

theorem valueAfterName_error {e : TagFault} (h : Markup.valueAfterName s = .error e) :
    e = .endless := by
  unfold Markup.valueAfterName at h
  split at h
  · exact attrValue_error h
  · cases h

/-- What is no attribute is found in the tag. -/
theorem suffix_of_badName (h : Markup.attributes s = .error (.badName t)) : t <:+ s := by
  fun_induction Markup.attributes s with
  | case1 | case2 | case3 | case7 => cases h
  | case4 s c r _ _ hs =>
    cases h
    exact hs ▸ List.dropWhile_suffix isBlank
  | case5 s c r _ _ hs hn e hv =>
    cases h
    cases valueAfterName_error hv
  | case6 s c r _ _ hs hn value rest hv hlt e hmore ih =>
    cases h
    have htrim : c :: r <:+ s := hs ▸ List.dropWhile_suffix isBlank
    have hname : afterName (c :: r) <:+ c :: r := List.dropWhile_suffix _
    exact (ih hmore).trans ((valueOf_valueAfterName hv).1.trans (hname.trans htrim))

/-! ## §3. The search for the end of a text -/

/-- Whether the search for the end of a text goes on, and with what is left. -/
def jumpFrom (d : Delimiters) (s : List Char) : Bool × List Char :=
  match splitFirst? ['<'] s, d.split? s with
  | some (before, r), some (before', inside) =>
    if byteLength before' < byteLength before then
      match splitFirst? d.closing inside with
      | some (_, rest) => (true, rest)
      | none => (false, [])
    else (false, '<' :: r)
  | some (_, r), none => (false, '<' :: r)
  | none, _ => (false, [])

theorem Delimiters.eq_append_of_open? {inside : List Char} (h : d.open? s = some inside) :
    s = d.opening ++ inside := by
  unfold Delimiters.open? at h
  split at h
  · cases h
  · exact eq_append_of_dropFront? h

theorem jumpFrom_length (h : (jumpFrom d s).1 = true) : (jumpFrom d s).2.length < s.length := by
  revert h
  unfold jumpFrom
  split
  · next before r before' inside _ hopening =>
    obtain ⟨rfl, hne⟩ := Delimiters.eq_append_of_split? hopening
    have hpos := List.length_pos_iff.mpr hne
    split
    · split
      · next skipped rest hclosing =>
        intro _
        have hlen := length_le_of_splitFirst? hclosing
        simp only [List.length_append]
        omega
      · rintro ⟨⟩
    · rintro ⟨⟩
  · rintro ⟨⟩
  · rintro ⟨⟩

theorem afterText_eq_nil (h : '<' ∉ s) : afterText d s = [] := by
  fun_induction afterText d s with
  | case1 => rfl
  | case2 r => simp at h
  | case3 c r hc inside ho skipped rest hclose hlt ih =>
    refine ih fun hmem => h ?_
    rw [Delimiters.eq_append_of_open? ho, eq_append_of_splitFirst? hclose]
    simp [hmem]
  | case4 => rfl
  | case5 c r hc ho hlt ih => exact ih fun hmem => h (List.mem_cons_of_mem c hmem)

theorem splitFirst?_singleton_eq_none : splitFirst? [c] s = none ↔ c ∉ s := by
  induction s with
  | nil => simp [splitFirst?]
  | cons b s ih =>
    by_cases hb : c = b
    · simp [splitFirst?, dropFront?, hb]
    · simp [splitFirst?, dropFront?, hb, ih]

theorem Delimiters.split?_of_open? {inside : List Char}
    (h : d.open? (c :: s) = some inside) : d.split? (c :: s) = some ([], inside) := by
  unfold Delimiters.open? at h
  split at h
  · cases h
  · next hne => rw [Delimiters.split?, if_neg hne, splitFirst?, h]

theorem Delimiters.split?_cons (h : d.open? (c :: s) = Option.none) :
    d.split? (c :: s) = (d.split? s).map fun (before, inside) => (c :: before, inside) := by
  unfold Delimiters.open? at h
  unfold Delimiters.split?
  split
  · rfl
  · next hne =>
    rw [if_neg hne] at h
    rw [splitFirst?, h]

theorem jumpFrom_cons (hc : c ≠ '<') (ho : d.open? (c :: s) = none) :
    jumpFrom d (c :: s) = jumpFrom d s := by
  have hangle : splitFirst? ['<'] (c :: s) =
      (splitFirst? ['<'] s).map fun (before, r) => (c :: before, r) := by
    simp [splitFirst?, dropFront?, Ne.symm hc]
  rw [jumpFrom, jumpFrom, hangle, Delimiters.split?_cons ho]
  cases splitFirst? ['<'] s <;> cases d.split? s <;>
    simp only [Option.map_some, Option.map_none, byteLength_cons, Nat.add_lt_add_iff_left]

/-- The search that jumps finds the same end as the one that takes every step. By induction on the
    characters: both stop at a `<`, or have an interpolation in front of them, or go on behind the
    character. -/
theorem afterText_eq_jump (d : Delimiters) (s : List Char) : afterText d s =
    if (jumpFrom d s).1 then afterText d (jumpFrom d s).2 else (jumpFrom d s).2 := by
  induction s with
  | nil => simp [jumpFrom, splitFirst?, afterText]
  | cons c s ih =>
    rw [afterText]
    split
    · next hc =>
      have hangle : splitFirst? ['<'] (c :: s) = some ([], s) := by
        simp [splitFirst?, dropFront?, hc]
      rw [jumpFrom, hangle]
      cases d.split? (c :: s) <;> simp [hc]
    · next hc =>
      split
      · next inside ho =>
        rw [jumpFrom, Delimiters.split?_of_open? ho]
        cases hangle : splitFirst? ['<'] (c :: s) with
        | none =>
          -- The jump goes to the end at once; the steps pass interpolations on their way there.
          have hmem := splitFirst?_singleton_eq_none.mp hangle
          split
          · next skipped rest hclose =>
            rw [Delimiters.eq_append_of_open? ho, eq_append_of_splitFirst? hclose] at hmem
            exact afterText_eq_nil fun h => hmem (by simp [h])
          · rfl
        | some p =>
          obtain ⟨before, r⟩ := p
          have hbefore : before ≠ [] := by
            rintro rfl
            exact hc (List.cons.inj (eq_append_of_splitFirst? hangle)).1
          have hpos := byteLength_pos hbefore
          split
          · next hclose => simp [hclose, hpos]
          · next hclose => simp [hclose, hpos]
      · next ho =>
        rw [jumpFrom_cons hc ho]
        exact ih

/-! ## §4. Steps of the scanner -/

namespace Source

/-- From an offset, the scanner comes to the given outcome, and to a boundary that is `least` or
    later and has the text that the outcome leaves behind it. -/
abbrev Follows (source : List Char) (pos least : Nat) (run : Scanner α)
    (outcome : Except TemplateError (α × List Char)) : Prop :=
  Cursor.Follows (Ahead source) pos least run outcome

open Cursor.Follows (result failure bind_get bind_ok bind_error of_eq)

section Steps

variable {k : α → Scanner β} {o' : Except TemplateError (β × List Char)}

theorem bind_need {o : Option α} {a : α} (ho : o = some a)
    (hk : Follows source pos least (k a) o') : Follows source pos least (need o >>= k) o' := by
  subst ho
  exact of_eq rfl hk

theorem bind_behind {k : List Char → Scanner β} (h : Ahead source offset s)
    (hk : Follows source pos least (k s) o') :
    Follows source pos least (behind source offset >>= k) o' := by
  obtain ⟨before, hsplit⟩ := h.splitBytes?
  refine of_eq ?_ hk
  rw [behind, hsplit]
  rfl

theorem bind_rest {k : List Char → Scanner β} (h : Ahead source pos s)
    (hk : Follows source pos least (k s) o') :
    Follows source pos least (rest source >>= k) o' := by
  rw [rest, bind_assoc]
  exact bind_get (bind_behind h hk)

theorem bind_moveTo {k : Unit → Scanner β} (h : Ahead source next s)
    (hk : Follows source next least (k ()) o') :
    Follows source pos least (moveTo source next >>= k) o' := by
  obtain ⟨before, hsplit⟩ := h.splitBytes?
  refine of_eq ?_ hk
  rw [moveTo, hsplit]
  rfl

theorem follows_moveTo (h : Ahead source next s) (hle : least ≤ next) :
    Follows source pos least (moveTo source next) (.ok ((), s)) := by
  obtain ⟨before, hsplit⟩ := h.splitBytes?
  refine ⟨next, ?_, hle, h⟩
  rw [moveTo, hsplit]
  rfl

theorem follows_need {o : Option α} {a : α} (ho : o = some a) (hle : least ≤ pos)
    (h : Ahead source pos s) : Follows source pos least (need o) (.ok (a, s)) := by
  subst ho
  exact ⟨pos, rfl, hle, h⟩

end Steps

/-! ## §5. Texts and tags -/

theorem follows_jump (h : Ahead source pos s) :
    Follows source pos pos (jump d source) (.ok ((jumpFrom d s).1, (jumpFrom d s).2)) := by
  have hend := ahead_end source
  have hlast : pos ≤ byteLength source := by
    have := h.add_byteLength
    omega
  refine bind_get (bind_rest h ?_)
  rw [find?, Delimiters.find?_eq, jumpFrom]
  cases htag : splitFirst? ['<'] s with
  | none => exact bind_moveTo hend (result _ hlast hend)
  | some p =>
    obtain ⟨before, r⟩ := p
    have hs : s = before ++ ('<' :: r) := by simpa using eq_append_of_splitFirst? htag
    have hmove : Ahead source (pos + byteLength before) ('<' :: r) := Ahead.move (hs ▸ h)
    cases hopening : d.split? s with
    | none => exact bind_moveTo hmove (result _ (by omega) hmove)
    | some q =>
      obtain ⟨before', inside⟩ := q
      simp only [Option.map_some]
      split
      · have hinside := (Delimiters.eq_append_of_split? hopening).1
        rw [hinside] at h
        refine bind_behind h.move.move ?_
        rw [find?]
        cases hclosing : splitFirst? d.closing inside with
        | none => exact bind_moveTo hend (result _ hlast hend)
        | some q =>
          obtain ⟨skipped, rest⟩ := q
          have hrest := eq_append_of_splitFirst? hclosing
          rw [hrest, List.append_assoc] at h
          have hmove' := h.move.move.move.move
          exact bind_moveTo hmove' (result _ (by omega) hmove')
      · exact bind_moveTo hmove (result _ (by omega) hmove)

theorem follows_jumps {s : List Char} {pos : Nat} (h : Ahead source pos s) :
    Follows source pos pos (jumps d source) (.ok ((), afterText d s)) := by
  rw [jumps, afterText_eq_jump]
  refine bind_ok (follows_jump h) fun p hp hat => ?_
  split
  · next hagain =>
    have hlt := jumpFrom_length hagain
    exact (follows_jumps hat).mono hp
  · exact result () hp hat
termination_by s.length

theorem follows_text (h : Ahead source pos (c :: s)) :
    Follows source pos (pos + 1) (text d source)
      (.ok ((c :: s).take ((c :: s).length - (afterLeadingText d c s).length),
        afterLeadingText d c s)) := by
  have hlen := afterLeadingText_length d c s
  -- The text ends where the search does, wherever the search begins.
  have hsearch (p : Nat) (t : List Char) (hp : pos ≤ p) (hat : Ahead source p t)
      (ht : afterText d t = afterLeadingText d c s) :
      Follows source p (pos + 1) (do
        jumps d source
        need (slice? pos (← get) source))
      (.ok ((c :: s).take ((c :: s).length - (afterLeadingText d c s).length),
        afterLeadingText d c s)) := by
    refine bind_ok (follows_jumps hat) fun next hnext hat' => bind_get ?_
    rw [ht] at hat'
    obtain ⟨taken, hs, rfl⟩ := h.exists_append hat' (hp.trans hnext)
    rw [hs] at h hlen ⊢
    have htaken : taken ≠ [] := by
      rintro rfl
      exact Nat.lt_irrefl _ hlen
    have hpos := byteLength_pos htaken
    refine follows_need ?_ (by omega) hat'
    rw [h.slice?, List.length_append, Nat.add_sub_cancel, List.take_left]
  refine bind_get (bind_rest h ?_)
  by_cases hc : c = '<'
  · subst hc
    have hmove : Ahead source (pos + 1) s := Ahead.move (t := ['<']) h
    exact bind_moveTo hmove (hsearch (pos + 1) s (by omega) hmove rfl)
  · have hstarts : startsWith ['<'] (c :: s) = false :=
      startsWith_eq_false fun r hr => hc (List.cons.inj hr).1
    rw [hstarts]
    refine hsearch pos (c :: s) (Nat.le_refl _) h ?_
    rw [afterLeadingText, if_neg hc]

theorem follows_blanks (h : Ahead source pos s) :
    Follows source pos pos (blanks source) (.ok ((), trimStart s)) := by
  have hs := takeWhile_append_trimStart s
  have hwidth : byteLength s - byteLength (trimStart s) = byteLength (s.takeWhile isBlank) := by
    have hsum := congrArg byteLength hs
    rw [byteLength_append] at hsum
    omega
  refine bind_get (bind_rest h ?_)
  rw [hwidth]
  exact follows_moveTo (hs.symm ▸ h).move (Nat.le_add_right _ _)

theorem follows_name (h : Ahead source pos s) :
    Follows source pos pos (name source) (.ok (nameOf s, afterName s)) := by
  have hs := nameOf_append_afterName s
  have hmove : Ahead source (pos + byteLength (nameOf s)) (afterName s) := (hs.symm ▸ h).move
  have hslice := slice?_zero (nameOf s) (afterName s)
  rw [hs] at hslice
  exact bind_get (bind_rest h (bind_moveTo hmove
    (follows_need hslice (Nat.le_add_right _ _) hmove)))

theorem follows_endTag (h : Ahead source pos ('<' :: '/' :: s)) :
    Follows source pos (pos + 1) (endTag source)
      (match endTag? s with
      | some p => .ok p
      | none => .error (.malformedTag pos)) := by
  have hmove : Ahead source (pos + 2) s := Ahead.move (t := ['<', '/']) h
  refine bind_get (bind_moveTo hmove ?_)
  refine bind_ok (follows_name hmove) fun p hp hat => ?_
  refine bind_ok (follows_blanks hat) fun q hq hat' => bind_rest hat' ?_
  rw [endTag?_eq]
  split
  · exact failure _
  · next hend =>
    simp only [Bool.or_eq_true, Bool.not_eq_true', not_or, Bool.not_eq_false] at hend
    obtain ⟨r, hr⟩ := startsWith_iff.mp hend.2
    rw [hr] at hat' ⊢
    have hmove' : Ahead source (q + 1) r := Ahead.move (t := ['>']) hat'
    exact bind_get (bind_moveTo hmove' (result _ (by omega) hmove'))

theorem follows_value (h : Ahead source pos s) (offset : Nat) :
    Follows source pos pos (value source offset)
      ((attrValue s).mapError (TagFault.blame source offset)) := by
  refine bind_get (bind_rest h ?_)
  cases s with
  | nil => exact failure _
  | cons c r =>
    rw [attrValue]
    simp only
    by_cases hc : c = '"' ∨ c = '\''
    · have hsize : byteLength [c] = 1 := by
        rcases hc with rfl | rfl <;> rfl
      have hquoted : splitBytes? 1 (c :: r) = some ([c], r) := hsize ▸ splitBytes?_append [c] r
      simp only [Bool.or_eq_true, decide_eq_true_eq, if_pos hc]
      refine bind_need hquoted ?_
      cases hsplit : splitFirst? [c] r with
      | none =>
        simp only [find?, hsplit]
        exact failure _
      | some p =>
        obtain ⟨raw, rest⟩ := p
        have hr := eq_append_of_splitFirst? hsplit
        simp only [find?, hsplit]
        have hmove : Ahead source (pos + byteLength raw + 2) rest := by
          rw [hr, List.append_assoc] at h
          refine Ahead.move_eq (t := c :: (raw ++ [c])) (by simpa using h) ?_
          simp at hsize ⊢
          omega
        have hslice : slice? 1 (byteLength raw + 1) (c :: r) = some raw := by
          have hahead : Ahead (c :: r) 1 (raw ++ ([c] ++ rest)) :=
            ⟨[c], by rw [hr, List.append_assoc]; rfl, hsize⟩
          rw [Nat.add_comm]
          exact hahead.slice?
        refine bind_moveTo hmove (bind_need hslice ?_)
        exact result _ (by omega) hmove
    · simp only [Bool.or_eq_true, decide_eq_true_eq, if_neg hc]
      have hs : (c :: r).takeWhile (!endsBareValue ·) ++ (c :: r).dropWhile (!endsBareValue ·) =
          c :: r := List.takeWhile_append_dropWhile
      have hslice := slice?_zero ((c :: r).takeWhile (!endsBareValue ·))
        ((c :: r).dropWhile (!endsBareValue ·))
      have hsplit := splitBytes?_append ((c :: r).takeWhile (!endsBareValue ·))
        ((c :: r).dropWhile (!endsBareValue ·))
      rw [hs] at hslice hsplit
      refine bind_need hslice (bind_need hsplit ?_)
      simp only [← bareValue_fst]
      have hmove : Ahead source (pos + byteLength (bareValue (c :: r)).1) (bareValue (c :: r)).2 :=
        Ahead.move ((bareValue_spec rfl).1 ▸ h)
      exact bind_moveTo hmove (result _ (Nat.le_add_right _ _) hmove)

theorem follows_valueAfterName (h : Ahead source pos s) (offset : Nat) :
    Follows source pos pos (valueAfterName source offset)
      ((Markup.valueAfterName s).mapError (TagFault.blame source offset)) := by
  unfold Markup.valueAfterName
  split
  · next r hr =>
    refine bind_ok (follows_blanks h) fun p hp hat => bind_rest hat ?_
    rw [if_pos (startsWith_iff.mpr ⟨r, hr⟩)]
    rw [hr] at hat
    have hmove : Ahead source (p + 1) r := Ahead.move (t := ['=']) hat
    refine bind_get (bind_moveTo hmove ?_)
    refine bind_ok (follows_blanks hmove) fun q hq hat' => ?_
    exact (follows_value hat' offset).mono (by omega)
  · next hother =>
    refine bind_ok (follows_blanks h) fun p hp hat => bind_rest hat ?_
    rw [startsWith_eq_false hother]
    exact result [] hp hat

theorem follows_oneAttribute (h : Ahead source pos s) (offset : Nat) :
    Follows source pos (pos + 1) (oneAttribute source offset)
      (if nameOf s = [] then .error (.malformedTag pos)
      else ((Markup.valueAfterName (afterName s)).map fun (v, rest) =>
        ((String.ofList (nameOf s), String.ofList v), rest)).mapError
          (TagFault.blame source offset)) := by
  have hs := nameOf_append_afterName s
  split
  · next hname =>
    refine bind_ok (follows_name h) fun p hp hat => ?_
    rw [hname, List.nil_append] at hs
    have hpos : p = pos := by
      have hwidth := h.add_byteLength
      have hwidth' := hat.add_byteLength
      rw [hs] at hwidth'
      omega
    rw [if_pos hname]
    exact bind_get (hpos ▸ failure _)
  · next hname =>
    refine bind_ok (follows_name h) fun p hp hat => ?_
    have hp' := Ahead.lt_of_append (hs ▸ h) hat hname
    have hvalue := follows_valueAfterName hat offset
    rw [if_neg hname]
    cases hv : Markup.valueAfterName (afterName s) with
    | error e =>
      rw [hv] at hvalue
      exact bind_error hvalue
    | ok v =>
      rw [hv] at hvalue
      exact bind_ok hvalue fun q hq hat' => result _ (by omega) hat'

theorem follows_attributes_of_one {c : Char} {r : List Char}
    {o' : Except TemplateError ((List (String × String) × Bool) × List Char)}
    (h : Ahead source pos s) (offset : Nat)
    (hs : trimStart s = c :: r) (hgreater : c ≠ '>')
    (hslash : ∀ rest, c = '/' → r = '>' :: rest → False)
    (hk : ∀ p, pos ≤ p → Ahead source p (c :: r) →
      Follows source p least (do
        let attr ← oneAttribute source offset
        let (attrs, selfClosing) ← attributes source offset
        return (attr :: attrs, selfClosing)) o') :
    Follows source pos least (attributes source offset) o' := by
  rw [attributes]
  refine bind_ok (follows_blanks h) fun p hp hat => bind_get (bind_rest hat ?_)
  rw [hs] at hat ⊢
  have hclose : startsWith ['/', '>'] (c :: r) = false := startsWith_eq_false fun rest heq => by
    obtain ⟨hc, hr⟩ := List.cons.inj heq
    exact hslash rest hc hr
  have hend : startsWith ['>'] (c :: r) = false := startsWith_eq_false fun rest heq =>
    hgreater (List.cons.inj heq).1
  simp only [hclose, hend, Bool.false_eq_true, if_false, List.cons_ne_nil]
  exact hk p hp hat

theorem follows_attributes (h : Ahead source pos s) (offset : Nat) :
    Follows source pos (pos + 1) (attributes source offset)
      (((Markup.attributes s).map fun (attrs, selfClosing, rest) =>
        ((attrs, selfClosing), rest)).mapError (TagFault.blame source offset)) := by
  fun_induction Markup.attributes s generalizing pos with
  | case1 s hs =>
    rw [attributes]
    refine bind_ok (follows_blanks h) fun p hp hat => bind_get (bind_rest hat ?_)
    rw [hs]
    exact failure _
  | case2 s rest hs =>
    rw [attributes]
    refine bind_ok (follows_blanks h) fun p hp hat => bind_get (bind_rest hat ?_)
    rw [hs] at hat ⊢
    have hmove : Ahead source (p + 1) rest := Ahead.move (t := ['>']) hat
    exact bind_moveTo hmove (result _ (by omega) hmove)
  | case3 s rest hs =>
    rw [attributes]
    refine bind_ok (follows_blanks h) fun p hp hat => bind_get (bind_rest hat ?_)
    rw [hs] at hat ⊢
    have hmove : Ahead source (p + 2) rest := Ahead.move (t := ['/', '>']) hat
    exact bind_moveTo hmove (result _ (by omega) hmove)
  | case4 s c r hgreater hslash hs hn =>
    refine follows_attributes_of_one h offset hs hgreater hslash fun p hp hat => ?_
    have hattr := follows_oneAttribute hat offset
    rw [if_pos hn] at hattr
    have hpos : byteLength source - byteLength (c :: r) = p := by
      have := hat.add_byteLength
      omega
    show Follows _ _ _ _ (.error (.malformedTag (byteLength source - byteLength (c :: r))))
    rw [hpos]
    exact bind_error hattr
  | case5 s c r hgreater hslash hs hn e hv =>
    refine follows_attributes_of_one h offset hs hgreater hslash fun p hp hat => ?_
    have hattr := follows_oneAttribute hat offset
    rw [if_neg hn, hv] at hattr
    exact bind_error hattr
  | case6 s c r hgreater hslash hs hn value rest₁ hv hlt e hmore ih =>
    refine follows_attributes_of_one h offset hs hgreater hslash fun p hp hat => ?_
    have hattr := follows_oneAttribute hat offset
    rw [if_neg hn, hv] at hattr
    refine bind_ok hattr fun q hq hat' => ?_
    have hmore' := ih hat'
    rw [hmore] at hmore'
    exact bind_error hmore'
  | case7 s c r hgreater hslash hs hn value rest₁ hv hlt attrs selfClosing rest₂ hmore ih =>
    refine follows_attributes_of_one h offset hs hgreater hslash fun p hp hat => ?_
    have hattr := follows_oneAttribute hat offset
    rw [if_neg hn, hv] at hattr
    refine bind_ok hattr fun q hq hat' => ?_
    have hmore' := ih hat'
    rw [hmore] at hmore'
    refine bind_ok hmore' fun q' hq' hat'' => ?_
    exact result _ (by omega) hat''

theorem follows_startTag (h : Ahead source pos ('<' :: s)) :
    Follows source pos (pos + 1) (startTag source)
      (((Markup.attributes (afterName s)).map fun (attrs, selfClosing, rest) =>
        (Item.start (String.ofList (lowerAscii (nameOf s))) attrs selfClosing, rest)).mapError
          (TagFault.blame source pos)) := by
  have hmove : Ahead source (pos + 1) s := Ahead.move (t := ['<']) h
  refine bind_get (bind_moveTo hmove ?_)
  refine bind_ok (follows_name hmove) fun p hp hat => ?_
  have hattrs := follows_attributes hat pos
  cases hs : Markup.attributes (afterName s) with
  | error e =>
    rw [hs] at hattrs
    exact bind_error hattrs
  | ok attrs =>
    rw [hs] at hattrs
    exact bind_ok hattrs fun q hq hat' => result _ (by omega) hat'

theorem follows_comment (h : Ahead source pos ('<' :: '!' :: '-' :: '-' :: s)) :
    Follows source pos (pos + 1) (comment source)
      (match splitFirst? ['-', '-', '>'] s with
      | some (text, rest) => .ok (.comment (String.ofList text), rest)
      | none => .error (.malformedTag pos)) := by
  have hmove : Ahead source (pos + 4) s := Ahead.move (t := ['<', '!', '-', '-']) h
  refine bind_get (bind_behind hmove ?_)
  rw [find?]
  cases hsplit : splitFirst? ['-', '-', '>'] s with
  | none => exact failure _
  | some p =>
    obtain ⟨text, rest⟩ := p
    have hs := eq_append_of_splitFirst? hsplit
    rw [hs, List.append_assoc] at hmove
    refine bind_need hmove.slice? (bind_moveTo hmove.move.move ?_)
    exact result _ (by omega) hmove.move.move

/-! ## §6. Items and turns -/

theorem bind_opensTag {k : Bool → Scanner β} {o' : Except TemplateError (β × List Char)} {c : Char}
    (hk : Follows source pos least (k (c = '<' && s.head?.any startsTag)) o') :
    Follows source pos least (opensTag (c :: s) >>= k) o' := by
  by_cases hc : c = '<'
  · subst hc
    have hstarts : startsWith ['<'] ('<' :: s) = true := startsWith_iff.mpr ⟨s, rfl⟩
    have hsplit : splitBytes? 1 ('<' :: s) = some (['<'], s) := splitBytes?_append ['<'] s
    refine of_eq ?_ hk
    rw [opensTag, if_pos hstarts, hsplit]
    rfl
  · have hstarts : startsWith ['<'] (c :: s) = false :=
      startsWith_eq_false fun r hr => hc (List.cons.inj hr).1
    refine of_eq ?_ hk
    rw [opensTag, hstarts]
    simp [hc]

/-- What a scanner comes to when the item in front is the given one. -/
def outcomeOf : Item × List Char → Except TemplateError (Item × List Char)
  | (.malformed offset, _) => .error (.malformedTag offset)
  | (i, rest) => .ok (i, rest)

theorem follows_item_of_other {c : Char} {o : Except TemplateError (Item × List Char)}
    (h : Ahead source pos (c :: s)) (hcomment : ∀ r, c :: s ≠ ['<', '!', '-', '-'] ++ r)
    (hstop : ∀ r, c :: s ≠ ['<', '/'] ++ r)
    (hk : Follows source pos least
      (if c = '<' && s.head?.any startsTag then startTag source
      else do return .text (String.ofList (← text d source))) o) :
    Follows source pos least (item d source) o := by
  refine bind_get (bind_rest h ?_)
  rw [startsWith_eq_false hcomment, startsWith_eq_false hstop, if_neg Bool.false_ne_true,
    if_neg Bool.false_ne_true]
  exact bind_opensTag hk

theorem follows_item (h : Ahead source pos (c :: s)) :
    Follows source pos (pos + 1) (item d source) (outcomeOf (firstItem d pos c s)) := by
  have htext : Follows source pos (pos + 1) (do return .text (String.ofList (← text d source)))
      (.ok (textItem d c s)) :=
    bind_ok (follows_text h) fun next hnext hat => result _ hnext hat
  unfold firstItem
  split
  · next hc =>
    subst hc
    split
    · next body =>
      refine bind_get (bind_rest h ?_)
      have hstarts : startsWith ['<', '!', '-', '-'] ('<' :: '!' :: '-' :: '-' :: body) = true :=
        startsWith_iff.mpr ⟨body, rfl⟩
      rw [if_pos hstarts]
      have hcomment := follows_comment h
      revert hcomment
      cases splitFirst? ['-', '-', '>'] body <;> exact id
    · next r =>
      refine bind_get (bind_rest h ?_)
      have hnot : startsWith ['<', '!', '-', '-'] ('<' :: '/' :: r) = false :=
        startsWith_eq_false fun _ => by simp
      have hstarts : startsWith ['<', '/'] ('<' :: '/' :: r) = true := startsWith_iff.mpr ⟨r, rfl⟩
      rw [hnot, if_neg Bool.false_ne_true, if_pos hstarts]
      have hend := follows_endTag h
      cases htag : endTag? r with
      | none =>
        rw [htag] at hend
        exact bind_error hend
      | some p =>
        rw [htag] at hend
        exact bind_ok hend fun next hnext hat => result _ hnext hat
    · next t r hcomment hslash =>
      refine follows_item_of_other h ?_ ?_ ?_
      · rintro body hbody
        obtain ⟨rfl, hr⟩ := List.cons.inj (List.cons.inj hbody).2
        exact hcomment body rfl hr
      · rintro body hbody
        exact hslash (List.cons.inj (List.cons.inj hbody).2).1
      by_cases ht : startsTag t = true
      · have hstart := follows_startTag h
        rw [if_pos (by simp [ht]), if_pos ht]
        cases hattrs : Markup.attributes (afterName (t :: r)) with
        | ok attrs =>
          rw [hattrs] at hstart
          exact hstart
        | error e =>
          rw [hattrs] at hstart
          cases e with
          | endless => exact hstart
          | badName rest =>
            -- The item counts from the beginning of the tag to where no attribute is, and the
            -- scanner from the beginning of the source.
            have hname : afterName (t :: r) <:+ t :: r := List.dropWhile_suffix _
            obtain ⟨before, hbefore⟩ := (suffix_of_badName hattrs).trans hname
            have hwidth := h.add_byteLength
            have hblame : pos + (byteLength ('<' :: t :: r) - byteLength rest) =
                byteLength source - byteLength rest := by
              rw [← hbefore, byteLength_cons, byteLength_append] at hwidth ⊢
              omega
            show Follows source pos (pos + 1) (startTag source) (.error (.malformedTag _))
            rw [hblame]
            exact hstart
      · rw [if_neg (by simp [ht]), if_neg ht]
        exact htext
    · exact follows_item_of_other h (by simp) (by simp) htext
  · next hc =>
    have hnot (p r : List Char) : c :: s ≠ '<' :: p ++ r := fun hr => hc (List.cons.inj hr).1
    refine follows_item_of_other h (hnot _) (hnot _) ?_
    rw [if_neg (by simp [hc])]
    exact htext

/-- One turn, whatever has been read before. -/
theorem follows_turn (h : Ahead source pos (c :: s)) (p : Partway) :
    Follows source pos (pos + 1) (turn d source p)
      ((p.take (firstItem d pos c s).1).map fun q => (q, (firstItem d pos c s).2)) := by
  have hitem := follows_item (d := d) h
  unfold outcomeOf at hitem
  split at hitem
  · next offset rest heq =>
    rw [heq]
    exact bind_error hitem
  · next i rest hi heq =>
    rw [heq]
    refine bind_ok hitem fun next hnext hat => ?_
    cases htake : p.take i with
    | error e => exact failure e
    | ok q => exact result q hnext hat

/-- Turns up to the end take all items in. -/
theorem follows_turns {s : List Char} {pos : Nat} (h : Ahead source pos s) (p : Partway) :
    Follows source pos pos (turns d source p)
      (((items d pos s).foldlM Partway.take p).map fun q => (q, [])) := by
  have hwidth := h.add_byteLength
  rw [turns]
  refine bind_get ?_
  cases s with
  | nil =>
    rw [if_neg (by simp at hwidth; omega), items]
    exact result p (Nat.le_refl _) h
  | cons c s =>
    have hpos := byteLength_pos (List.cons_ne_nil c s)
    rw [if_pos (by omega), items, List.foldlM_cons]
    have hturn := follows_turn (d := d) h p
    have hlen := firstItem_length d pos c s
    cases htake : p.take (firstItem d pos c s).1 with
    | error e =>
      rw [htake] at hturn
      exact bind_error hturn
    | ok q =>
      rw [htake] at hturn
      refine bind_ok hturn fun next hnext hat => ?_
      have hoffset : pos + (byteLength (c :: s) - byteLength (firstItem d pos c s).2) = next := by
        have hwidth' := hat.add_byteLength
        omega
      rw [hoffset]
      exact (follows_turns hat q).mono (Nat.le_of_succ_le hnext)
termination_by s.length

theorem comesTo_forest (d : Delimiters) (source : String) :
    (forest d source.toList).comesTo 0 =
      some ((parse d source).map fun nodes => (nodes, source.utf8ByteSize)) := by
  have h : Ahead source.toList 0 source.toList := ⟨[], rfl, rfl⟩
  have hturns := follows_turns (d := d) h ⟨[], []⟩
  rw [parse, nest, forest, Cursor.comesTo_bind]
  cases hitems : (items d 0 source.toList).foldlM Partway.take ⟨[], []⟩ with
  | error e =>
    rw [hitems] at hturns
    have hrun : (turns d source.toList ⟨[], []⟩).comesTo 0 = some (.error e) := hturns
    rw [hrun]
    rfl
  | ok p =>
    rw [hitems] at hturns
    obtain ⟨next, hrun, -, hend⟩ := hturns
    have hwidth := hend.add_byteLength
    rw [byteLength_nil, Nat.add_zero, byteLength_toList] at hwidth
    rw [hrun, hwidth]
    simp only [Option.bind_some]
    cases p.finish <;> rfl

end Source

open Source

/-- From every boundary before the end of a text, a turn of the parser comes to an error or to a
    boundary further on; from every boundary, a turn in the search for the end of a text leaves the
    search or comes to a boundary further on. Valid positions are not past the end. The parser, and
    so everything that it calls, comes to the forest or error that it should. -/
theorem scanner_always_advances (d : Delimiters) (source : String) :
    (∀ p pos, String.Pos.Raw.IsValid source ⟨pos⟩ → pos < source.utf8ByteSize →
      (∃ e, (turn d source.toList p).comesTo pos = some (.error e)) ∨
      ∃ q next, (turn d source.toList p).comesTo pos = some (.ok (q, next)) ∧
        pos < next ∧ String.Pos.Raw.IsValid source ⟨next⟩) ∧
    (∀ pos, String.Pos.Raw.IsValid source ⟨pos⟩ →
      ∃ again next, (jump d source.toList).comesTo pos = some (.ok (again, next)) ∧
        pos ≤ next ∧ (again = true → pos < next) ∧ String.Pos.Raw.IsValid source ⟨next⟩) ∧
    (forest d source.toList).comesTo 0 =
      some ((parse d source).map fun nodes => (nodes, source.utf8ByteSize)) := by
  refine ⟨?_, ?_, comesTo_forest d source⟩
  · intro p pos hvalid hlt
    obtain ⟨s, h⟩ := isValid_iff_ahead.mp hvalid
    have hwidth := h.add_byteLength
    rw [byteLength_toList] at hwidth
    cases s with
    | nil => simp at hwidth; omega
    | cons c s =>
      have hturn := follows_turn (d := d) h p
      cases htake : p.take (firstItem d pos c s).1 with
      | error e =>
        rw [htake] at hturn
        exact .inl ⟨e, hturn⟩
      | ok q =>
        rw [htake] at hturn
        obtain ⟨next, hrun, hnext, hat⟩ := hturn
        exact .inr ⟨q, next, hrun, hnext, isValid_iff_ahead.mpr ⟨_, hat⟩⟩
  · intro pos hvalid
    obtain ⟨s, h⟩ := isValid_iff_ahead.mp hvalid
    obtain ⟨next, hrun, hnext, hat⟩ := follows_jump (d := d) h
    refine ⟨_, next, hrun, hnext, fun hagain => ?_, isValid_iff_ahead.mpr ⟨_, hat⟩⟩
    exact h.lt_of_length_lt hat hnext (jumpFrom_length hagain)

end ReactiveView.Markup
