import Mathlib.Data.List.TakeWhile
import ReactiveView.LiveTree.Basic
import ReactiveView.Proofs.OrderedMap.Agree
import ReactiveView.Proofs.Text.Trim

/-! # Styles that are read back

  A style that was read from a text is written as text and read again. Between
  two declarations the scan is outside of all parentheses and quotes, and so only
  the last declaration of a text can leave one open. But a property that is
  declared again keeps its first place: the open value may move in front of other
  declarations, and there it takes in what follows.

  * `Splits`: the declarations of a text as a relation, with what the scan knows
    of each.
  * `Declared`: an entry that a declaration can yield.
  * `readEntries_writtenAll_iff`: entries are read one by one as they were
    written exactly if none but the last is open.
  * `colons_readEntries_le`: there are no more colons in what is read than in the
    text, and so a style is read back in no other way.
  * `read_back_iff`: both together, for styles that were read.
  * `text_read_iff`: the styles of any origin that their text gives back.
-/

namespace ReactiveView.Style

open Text

/-! ## §1. Scans -/

namespace ScanState

variable {st : ScanState} {c : Char} {s t : List Char}

/-- The state after a text. -/
def after (st : ScanState) (s : List Char) : ScanState := s.foldl next st

@[simp] theorem after_nil : st.after [] = st := rfl

@[simp] theorem after_cons : st.after (c :: s) = (st.next c).after s := rfl

@[simp] theorem after_append : st.after (s ++ t) = (st.after s).after t := List.foldl_append

/-- The characters that a scan looks at. -/
def isMark (c : Char) : Bool := ['"', '\'', '(', ')', ';'].contains c

theorem isMark_of_isBlank (h : isBlank c = true) : isMark c = false := by
  rw [Bool.eq_false_iff]
  intro hmark
  have hnone : ['"', '\'', '(', ')', ';'].all fun d => !isBlank d := by decide
  have hc := List.all_eq_true.mp hnone c (List.contains_iff_mem.mp hmark)
  rw [h] at hc
  cases hc

/-- The quote that is open is one of the marks, as it is in every scan that began outside. -/
def Proper (st : ScanState) : Prop := ∀ q ∈ st.quote, isMark q = true

theorem proper_outside : Proper outside := nofun

theorem Proper.next (h : st.Proper) (c : Char) : (st.next c).Proper := by
  unfold ScanState.next
  split
  · split
    · exact nofun
    · exact h
  · next hnone =>
    split
    · next hquote =>
      intro q hq
      obtain rfl := Option.some.inj hq
      rcases (Bool.or_eq_true _ _).mp hquote with hc | hc
      · rw [of_decide_eq_true hc]
        decide
      · rw [of_decide_eq_true hc]
        decide
    · split
      · exact h
      · split <;> exact h

/-- A character that is no mark leaves the state as it is. -/
theorem Proper.next_of_not_mark (h : st.Proper) (hc : isMark c = false) : st.next c = st := by
  have hne : ∀ d, isMark d = true → c ≠ d := by
    rintro d hd rfl
    rw [hd] at hc
    cases hc
  unfold ScanState.next
  split
  · next q hq => rw [if_neg (hne q (h q hq))]
  · simp [hne '"' (by decide), hne '\'' (by decide), hne '(' (by decide), hne ')' (by decide)]

theorem Proper.after_filter (h : st.Proper) (s : List Char) :
    st.after (s.filter isMark) = st.after s := by
  induction s generalizing st with
  | nil => rfl
  | cons c s ih =>
    cases hc : isMark c with
    | true =>
      rw [List.filter_cons_of_pos hc]
      exact ih (h.next c)
    | false =>
      rw [List.filter_cons_of_neg (by simp [hc]), after_cons, h.next_of_not_mark hc]
      exact ih h

end ScanState

/-! ## §2. The declarations of a text -/

open ScanState

variable {st : ScanState} {c : Char} {s t d : List Char} {ds : List (List Char)}

/-- No semicolon of the text separates: where one stands, a parenthesis or a quote is open. -/
def Unbroken (st : ScanState) (s : List Char) : Prop :=
  ∀ p r, s = p ++ ';' :: r → st.after p ≠ .outside

theorem unbroken_nil : Unbroken st [] := by
  intro p r h
  simp at h

theorem unbroken_cons_iff :
    Unbroken st (c :: s) ↔ (c = ';' → st ≠ .outside) ∧ Unbroken (st.next c) s := by
  constructor
  · intro h
    refine ⟨?_, ?_⟩
    · rintro rfl
      exact h [] s rfl
    · rintro p r rfl
      exact h (c :: p) r rfl
  · rintro ⟨hc, hs⟩ p r h
    cases p with
    | nil =>
      obtain ⟨rfl, rfl⟩ := List.cons.inj h
      exact hc rfl
    | cons b p =>
      obtain ⟨rfl, rfl⟩ := List.cons.inj h
      exact hs p r rfl

theorem unbroken_filter_iff (h : st.Proper) : Unbroken st (s.filter isMark) ↔ Unbroken st s := by
  induction s generalizing st with
  | nil => rfl
  | cons c s ih =>
    cases hc : isMark c with
    | true => rw [List.filter_cons_of_pos hc, unbroken_cons_iff, unbroken_cons_iff, ih (h.next c)]
    | false =>
      have hsemicolon : c = ';' → st ≠ .outside := by
        rintro rfl
        exact absurd hc (by decide)
      rw [List.filter_cons_of_neg (by simp [hc]), unbroken_cons_iff, h.next_of_not_mark hc, ih h]
      exact (and_iff_right hsemicolon).symm

/-- The declarations of a text. -/
inductive Splits : ScanState → List Char → List (List Char) → Prop where
  /-- The last one goes up to the end. -/
  | last {st : ScanState} {d : List Char} : Unbroken st d → Splits st d [d]
  /-- Any other one ends outside, and a semicolon follows. -/
  | separated {st : ScanState} {d s : List Char} {ds : List (List Char)} :
    Unbroken st d → st.after d = .outside → Splits .outside s ds →
      Splits st (d ++ ';' :: s) (d :: ds)

theorem splits_splitDeclarations (st : ScanState) (s : List Char) :
    Splits st s (splitDeclarations st s) := by
  induction s generalizing st with
  | nil => exact .last unbroken_nil
  | cons c s ih =>
    rw [splitDeclarations]
    split
    · next h =>
      obtain ⟨rfl, rfl⟩ : c = ';' ∧ st = .outside := by simpa using h
      exact .separated (d := []) unbroken_nil rfl (ih .outside)
    · next h =>
      have hc : c = ';' → st ≠ .outside := by simpa using h
      have hs := ih (st.next c)
      generalize splitDeclarations (st.next c) s = parts at hs ⊢
      cases hs with
      | last hd => exact .last (unbroken_cons_iff.mpr ⟨hc, hd⟩)
      | separated hd hafter hs =>
        exact .separated (d := c :: _) (unbroken_cons_iff.mpr ⟨hc, hd⟩) hafter hs

/-- The declarations are parts of the text. -/
theorem Splits.isInfix (hs : Splits st s ds) : ∀ d ∈ ds, d <:+: s := by
  induction hs with
  | last _ =>
    intro d hd
    obtain rfl := List.mem_singleton.mp hd
    exact List.infix_rfl
  | @separated _ d s ds _ _ _ ih =>
    intro d' hd'
    rcases List.mem_cons.mp hd' with rfl | hd'
    · exact (List.prefix_append d' _).isInfix
    · have hrest : s <:+: d ++ ';' :: s :=
        ((List.suffix_cons ';' s).trans (List.suffix_append d _)).isInfix
      exact (ih d' hd').trans hrest

/-- What stands in front and does not separate becomes part of the first declaration. -/
theorem splitDeclarations_append (hd : Unbroken st d)
    (hs : splitDeclarations (st.after d) s = t :: ds) :
    splitDeclarations st (d ++ s) = (d ++ t) :: ds := by
  induction d generalizing st with
  | nil => exact hs
  | cons c d ih =>
    obtain ⟨hc, hd⟩ := unbroken_cons_iff.mp hd
    rw [List.cons_append, splitDeclarations, if_neg (by simpa using hc), ih hd hs]
    rfl

theorem splitDeclarations_eq_singleton (hd : Unbroken st d) : splitDeclarations st d = [d] := by
  have happend := splitDeclarations_append (s := []) hd rfl
  rwa [List.append_nil] at happend

/-- A declaration that ends outside is cut off at the semicolon. -/
theorem splitDeclarations_closed (hd : Unbroken st d) (hafter : st.after d = .outside)
    (s : List Char) :
    splitDeclarations st (d ++ ';' :: s) = d :: splitDeclarations .outside s := by
  have hs : splitDeclarations (st.after d) (';' :: s) = [] :: splitDeclarations .outside s := by
    rw [hafter]
    rfl
  rw [splitDeclarations_append hd hs, List.append_nil]

/-- A declaration that leaves something open takes in the semicolon. -/
theorem splitDeclarations_open (hd : Unbroken st d) (hafter : st.after d ≠ .outside)
    (s : List Char) :
    ∃ t ds, splitDeclarations st (d ++ ';' :: s) = (d ++ ';' :: t) :: ds := by
  have hcons : ∃ t ds, splitDeclarations (st.after d) (';' :: s) = (';' :: t) :: ds := by
    rw [splitDeclarations, if_neg (by simpa using hafter)]
    split
    · exact ⟨[], [], rfl⟩
    · next t ds _ => exact ⟨t, ds, rfl⟩
  obtain ⟨t, ds, hs⟩ := hcons
  exact ⟨t, ds, splitDeclarations_append hd hs⟩

/-! ## §3. Entries that are read and written -/

variable {e : String × String} {es : Entries String}

/-- The entries that a text declares, in order and with repetitions. -/
def readEntries (s : List Char) : Entries String :=
  (splitDeclarations .outside s).filterMap declaration?

/-- The text of a declaration. -/
def written (e : String × String) : List Char := e.1.toList ++ ':' :: ' ' :: e.2.toList

/-- The text of declarations one after the other. -/
def writtenAll (es : Entries String) : List Char := [';', ' '].intercalate (es.map written)

/-- An entry whose text leaves no parenthesis and no quote open. -/
def Closed (e : String × String) : Prop := ScanState.outside.after (written e) = .outside

instance (e : String × String) : Decidable (Closed e) := inferInstanceAs (Decidable (_ = _))

/-- An entry that a declaration can yield. -/
structure Declared (e : String × String) : Prop where
  /-- There is a property. -/
  property_ne : e.1.toList ≠ []
  /-- The first colon ends the property. -/
  no_colon : ':' ∉ e.1.toList
  /-- There is nothing to trim at the property. -/
  property_trimmed : trim e.1.toList = e.1.toList
  /-- There is nothing to trim at the value. -/
  value_trimmed : trim e.2.toList = e.2.toList
  /-- No semicolon separates. -/
  unbroken : Unbroken .outside (written e)

theorem toList_text (style : Style) : (style.text?.getD "").toList = writtenAll style.entries := by
  have hwritten : ∀ e : String × String, (e.1 ++ ": " ++ e.2).toList = written e := by
    intro e
    simp [written]
  unfold text?
  split
  · next h =>
    rw [List.isEmpty_iff.mp h]
    rfl
  · show ("; ".intercalate style.declarations).toList = _
    rw [String.toList_intercalate, declarations, List.map_map]
    exact congrArg _ (List.map_congr_left fun e _ => hwritten e)

/-- A declaration is cut at its first colon. -/
theorem declaration?_append {p v : List Char} (hp : ':' ∉ p) :
    declaration? (p ++ ':' :: v) =
      if trim p = [] then none else some (String.ofList (trim p), String.ofList (trim v)) := by
  have hkeep : ∀ c ∈ p, (c != ':') = true := by
    intro c hc
    simpa using ne_of_mem_of_not_mem hc hp
  have hdrop : (p ++ ':' :: v).dropWhile (· != ':') = ':' :: v := by
    rw [List.dropWhile_append_of_pos hkeep]
    rfl
  have htake : (p ++ ':' :: v).takeWhile (· != ':') = p := by
    rw [List.takeWhile_append_of_pos hkeep]
    exact List.append_nil p
  rw [declaration?, hdrop, htake]

theorem declaration?_eq_some_iff :
    declaration? d = some e ↔ ∃ p v, d = p ++ ':' :: v ∧ ':' ∉ p ∧ trim p ≠ [] ∧
      e = (String.ofList (trim p), String.ofList (trim v)) := by
  constructor
  · intro h
    by_cases hmem : ':' ∈ d
    · obtain ⟨p, v, rfl, hp⟩ := List.eq_append_cons_of_mem hmem
      rw [declaration?_append hp] at h
      split at h
      · cases h
      · next hne => exact ⟨p, v, rfl, hp, hne, (Option.some.inj h).symm⟩
    · have hall : ∀ c ∈ d, (c != ':') = true := by
        intro c hc
        simpa using ne_of_mem_of_not_mem hc hmem
      rw [declaration?, List.dropWhile_eq_nil_iff.mpr hall] at h
      cases h
  · rintro ⟨p, v, rfl, hp, hne, rfl⟩
    rw [declaration?_append hp, if_neg hne]

/-- A declaration and the entry that it yields are scanned alike. -/
theorem filter_written (p v : List Char) :
    (written (String.ofList (trim p), String.ofList (trim v))).filter isMark =
      (p ++ ':' :: v).filter isMark := by
  have hblank := fun c => isMark_of_isBlank (c := c)
  show ((String.ofList (trim p)).toList ++
    ':' :: ' ' :: (String.ofList (trim v)).toList).filter _ = _
  rw [String.toList_ofList, String.toList_ofList, List.filter_append, List.filter_append,
    filter_trim hblank, List.filter_cons_of_neg (by decide), List.filter_cons_of_neg (by decide),
    List.filter_cons_of_neg (by decide), filter_trim hblank]

/-- An entry is written with the trimmed parts of its declaration, and ends where this ended. -/
theorem declared_of_declaration? (hd : Unbroken .outside d) (h : declaration? d = some e) :
    Declared e ∧ ScanState.outside.after (written e) = ScanState.outside.after d := by
  obtain ⟨p, v, rfl, hp, hne, rfl⟩ := declaration?_eq_some_iff.mp h
  have hmarks := filter_written p v
  refine ⟨⟨?_, ?_, ?_, ?_, ?_⟩, ?_⟩
  · rwa [String.toList_ofList]
  · rw [String.toList_ofList]
    exact fun hmem => hp ((isInfix_trim p).subset hmem)
  · rw [String.toList_ofList, trim_trim]
  · rw [String.toList_ofList, trim_trim]
  · rwa [← unbroken_filter_iff proper_outside, hmarks, unbroken_filter_iff proper_outside]
  · rw [← proper_outside.after_filter, hmarks, proper_outside.after_filter]

/-- Every declaration of a text yields what an entry can be, and if the text ends outside, the
    declaration does. -/
theorem Splits.declared (hs : Splits st s ds) (hst : st = .outside)
    (he : e ∈ ds.filterMap declaration?) :
    Declared e ∧ (st.after s = .outside → Closed e) := by
  induction hs with
  | last hd =>
    subst hst
    obtain ⟨d, hmem, h⟩ := List.mem_filterMap.mp he
    obtain rfl := List.mem_singleton.mp hmem
    obtain ⟨hdeclared, hafter⟩ := declared_of_declaration? hd h
    exact ⟨hdeclared, fun hend => hafter.trans hend⟩
  | separated hd hend hs ih =>
    subst hst
    obtain ⟨d, hmem, h⟩ := List.mem_filterMap.mp he
    rcases List.mem_cons.mp hmem with rfl | hmem
    · obtain ⟨hdeclared, hafter⟩ := declared_of_declaration? hd h
      exact ⟨hdeclared, fun _ => hafter.trans hend⟩
    · obtain ⟨hdeclared, hclosed⟩ := ih rfl (List.mem_filterMap.mpr ⟨d, hmem, h⟩)
      refine ⟨hdeclared, fun htext => hclosed ?_⟩
      rwa [after_append, hend] at htext

theorem declared_of_mem_readEntries (he : e ∈ readEntries s) : Declared e :=
  ((splits_splitDeclarations .outside s).declared rfl he).1

theorem closed_of_mem_readEntries (hs : ScanState.outside.after s = .outside)
    (he : e ∈ readEntries s) : Closed e :=
  ((splits_splitDeclarations .outside s).declared rfl he).2 hs

theorem mem_dropLast_cons {e' : String × String} (h : e ∈ (e' :: es).dropLast) :
    e = e' ∨ e ∈ es.dropLast := by
  cases es with
  | nil => cases h
  | cons e'' es => exact List.mem_cons.mp h

/-- Only the last declaration of a text can leave something open. -/
theorem Splits.closed_of_mem_dropLast (hs : Splits st s ds) (hst : st = .outside)
    (he : e ∈ (ds.filterMap declaration?).dropLast) : Closed e := by
  induction hs with
  | @last _ d =>
    rw [List.filterMap_cons] at he
    split at he
    · cases he
    · cases he
  | @separated _ d _ ds hd hend _ ih =>
    subst hst
    rw [List.filterMap_cons] at he
    cases h : declaration? d with
    | none =>
      rw [h] at he
      exact ih rfl he
    | some e' =>
      rw [h] at he
      rcases mem_dropLast_cons he with rfl | he
      · exact (declared_of_declaration? hd h).2.trans hend
      · exact ih rfl he

/-- An entry is read as it was written. -/
theorem Declared.declaration?_written (h : Declared e) : declaration? (written e) = some e := by
  rw [written, declaration?_append h.no_colon, h.property_trimmed, if_neg h.property_ne,
    trim_blank, h.value_trimmed, String.ofList_toList, String.ofList_toList]

/-- The blank after a semicolon makes no difference. -/
theorem declaration?_blank (d : List Char) : declaration? (' ' :: d) = declaration? d := by
  have htake : (' ' :: d).takeWhile (· != ':') = ' ' :: d.takeWhile (· != ':') := rfl
  have hdrop : (' ' :: d).dropWhile (· != ':') = d.dropWhile (· != ':') := rfl
  rw [declaration?, htake, hdrop, trim_blank]
  rfl

theorem readEntries_blank (s : List Char) : readEntries (' ' :: s) = readEntries s := by
  have hnext : ScanState.outside.next ' ' = .outside := rfl
  rw [readEntries, readEntries, splitDeclarations, if_neg (by decide), hnext]
  split
  · next h =>
    rw [h]
    rfl
  · next d ds h => rw [h, List.filterMap_cons, List.filterMap_cons, declaration?_blank]

/-! ## §4. What was written is read entry by entry -/

theorem writtenAll_singleton (e : String × String) : writtenAll [e] = written e :=
  List.intercalate_singleton

theorem writtenAll_cons_cons (e e' : String × String) (es : Entries String) :
    writtenAll (e :: e' :: es) = written e ++ ';' :: ' ' :: writtenAll (e' :: es) := by
  show [';', ' '].intercalate (written e :: written e' :: es.map written) = _
  rw [List.intercalate_cons_cons, List.append_assoc]
  rfl

/-- A closed entry is read by itself. -/
theorem Declared.readEntries_closed (h : Declared e) (hclosed : Closed e) (s : List Char) :
    readEntries (written e ++ ';' :: ' ' :: s) = e :: readEntries s := by
  rw [← readEntries_blank s, readEntries, splitDeclarations_closed h.unbroken hclosed,
    List.filterMap_cons, h.declaration?_written]
  rfl

/-- An open entry is read with at least one semicolon more. -/
theorem Declared.readEntries_open (h : Declared e) (hopen : ¬ Closed e) (s : List Char) :
    ∃ v es, readEntries (written e ++ ';' :: s) = (e.1, v) :: es ∧ v ≠ e.2 := by
  obtain ⟨t, ds, hsplit⟩ := splitDeclarations_open h.unbroken hopen s
  have hdeclaration : declaration? (written e ++ ';' :: t) =
      some (e.1, String.ofList (trim (' ' :: e.2.toList ++ ';' :: t))) := by
    have happend : written e ++ ';' :: t =
        e.1.toList ++ ':' :: (' ' :: e.2.toList ++ ';' :: t) := by
      simp [written]
    rw [happend, declaration?_append h.no_colon, h.property_trimmed, if_neg h.property_ne,
      String.ofList_toList]
  refine ⟨String.ofList (trim (' ' :: e.2.toList ++ ';' :: t)), ds.filterMap declaration?, ?_, ?_⟩
  · rw [readEntries, hsplit, List.filterMap_cons, hdeclaration]
  · intro hsame
    have hcount := congrArg (·.toList.count ';') hsame
    simp only [String.toList_ofList] at hcount
    rw [count_trim (by decide)] at hcount
    simp at hcount

/-- **Read as it was written.** Entries are read one by one exactly if none but the last leaves
    something open. -/
theorem readEntries_writtenAll_iff (h : ∀ e ∈ es, Declared e) :
    readEntries (writtenAll es) = es ↔ ∀ e ∈ es.dropLast, Closed e := by
  induction es with
  | nil => exact ⟨nofun, fun _ => rfl⟩
  | cons e es ih =>
    have he := h e List.mem_cons_self
    cases es with
    | nil =>
      have hread : readEntries (writtenAll [e]) = [e] := by
        rw [writtenAll_singleton, readEntries, splitDeclarations_eq_singleton he.unbroken,
          List.filterMap_cons, he.declaration?_written]
        rfl
      exact ⟨nofun, fun _ => hread⟩
    | cons e' es =>
      rw [writtenAll_cons_cons, List.dropLast_cons_cons, List.forall_mem_cons]
      by_cases hclosed : Closed e
      · rw [he.readEntries_closed hclosed, List.cons_inj_right,
          ih fun e'' he'' => h e'' (List.mem_cons_of_mem e he'')]
        exact (and_iff_right hclosed).symm
      · obtain ⟨v, es', hread, hv⟩ := he.readEntries_open hclosed (' ' :: writtenAll (e' :: es))
        rw [hread]
        refine ⟨fun hsame => absurd ?_ hv, fun hall => absurd hall.1 hclosed⟩
        exact congrArg Prod.snd (List.cons.inj hsame).1

/-! ## §5. There is no other way to read a style back -/

/-- The colons of declarations: one behind each property, and those in the values. -/
def colons : Entries String → Nat
  | [] => 0
  | e :: es => 1 + e.2.toList.count ':' + colons es

theorem colons_cons (e : String × String) (es : Entries String) :
    colons (e :: es) = 1 + e.2.toList.count ':' + colons es := rfl

section Insertion

variable {k v : String} {es' : Entries String}

/-- The colons of a value that is replaced are lost. -/
theorem colons_insert_lt (h : k ∈ es.keys) :
    colons (es.insert k v) < colons es + (1 + v.toList.count ':') := by
  induction es with
  | nil => cases h
  | cons e es ih =>
    rw [Entries.insert]
    split
    · rw [colons_cons, colons_cons]
      show 1 + v.toList.count ':' + colons es < _
      omega
    · next hne =>
      have hmem : k ∈ Entries.keys es := (List.mem_cons.mp h).resolve_left (Ne.symm hne)
      have hlt := ih hmem
      rw [colons_cons, colons_cons]
      omega

theorem colons_append (es es' : Entries String) : colons (es ++ es') = colons es + colons es' := by
  induction es with
  | nil => exact (Nat.zero_add _).symm
  | cons e es ih => rw [List.cons_append, colons_cons, colons_cons, ih, Nat.add_assoc _ (colons es)]

theorem colons_insert_le (es : Entries String) (k v : String) :
    colons (es.insert k v) ≤ colons es + (1 + v.toList.count ':') := by
  by_cases h : k ∈ es.keys
  · exact Nat.le_of_lt (colons_insert_lt h)
  · rw [Entries.insert_of_not_mem h, colons_append]
    exact Nat.le_refl _

theorem colons_insertAll_le (es es' : Entries String) :
    colons (es.insertAll es') ≤ colons es + colons es' := by
  induction es' generalizing es with
  | nil => exact Nat.le_refl _
  | cons e es' ih =>
    have hrest := ih (es.insert e.1 e.2)
    have hinsert := colons_insert_le es e.1 e.2
    rw [colons_cons]
    show colons ((es.insert e.1 e.2).insertAll es') ≤ _
    omega

/-- Where no colon is lost, no value was replaced. -/
theorem nodup_of_colons_le (hes : es.keys.Nodup)
    (h : colons es + colons es' ≤ colons (es.insertAll es')) : (es ++ es').keys.Nodup := by
  induction es' generalizing es with
  | nil => rwa [List.append_nil]
  | cons e es' ih =>
    have hrest := colons_insertAll_le (es.insert e.1 e.2) es'
    have hstep : colons es + (1 + e.2.toList.count ':') + colons es' ≤
        colons ((es.insert e.1 e.2).insertAll es') := by
      rw [colons_cons] at h
      have hsame : es.insertAll (e :: es') = (es.insert e.1 e.2).insertAll es' := rfl
      rw [hsame] at h
      omega
    by_cases hmem : e.1 ∈ es.keys
    · have hlt := colons_insert_lt (v := e.2) hmem
      omega
    · have hnew := Entries.nodup_keys_insert hes e.1 e.2
      rw [Entries.insert_of_not_mem hmem] at hnew hstep
      have hnodup := ih hnew (by rw [colons_append]; exact hstep)
      rwa [List.append_assoc] at hnodup

end Insertion

theorem colons_of_declaration? (h : declaration? d = some e) :
    1 + e.2.toList.count ':' ≤ d.count ':' := by
  obtain ⟨p, v, rfl, -, -, rfl⟩ := declaration?_eq_some_iff.mp h
  rw [String.toList_ofList, count_trim (by decide), List.count_append, List.count_cons_self]
  omega

/-- A text has at least the colons of its declarations. -/
theorem Splits.colons_le (hs : Splits st s ds) :
    colons (ds.filterMap declaration?) ≤ s.count ':' := by
  have hfront : ∀ (d : List Char) ds, colons ((d :: ds).filterMap declaration?) ≤
      d.count ':' + colons (ds.filterMap declaration?) := by
    intro d ds
    rw [List.filterMap_cons]
    cases h : declaration? d with
    | none => exact Nat.le_add_left _ _
    | some e =>
      show colons (e :: _) ≤ _
      rw [colons_cons]
      exact Nat.add_le_add_right (colons_of_declaration? h) _
  induction hs with
  | last => exact hfront _ []
  | @separated _ d s ds _ _ _ ih =>
    have hd := hfront d ds
    have hcount : (d ++ ';' :: s).count ':' = d.count ':' + s.count ':' := by
      rw [List.count_append, List.count_cons_of_ne (by decide)]
    omega

theorem colons_readEntries_le (s : List Char) : colons (readEntries s) ≤ s.count ':' :=
  (splits_splitDeclarations .outside s).colons_le

theorem count_writtenAll (h : ∀ e ∈ es, ':' ∉ e.1.toList) :
    (writtenAll es).count ':' = colons es := by
  have hwritten : ∀ e ∈ es, (written e).count ':' = 1 + e.2.toList.count ':' := by
    intro e he
    rw [written, List.count_append, List.count_eq_zero_of_not_mem (h e he), List.count_cons_self,
      List.count_cons_of_ne (by decide)]
    omega
  induction es with
  | nil => rfl
  | cons e es ih =>
    have he := hwritten e List.mem_cons_self
    cases es with
    | nil => rw [writtenAll_singleton, he, colons_cons]; rfl
    | cons e' es =>
      have hes := ih (fun e'' he'' => h e'' (List.mem_cons_of_mem e he''))
        fun e'' he'' => hwritten e'' (List.mem_cons_of_mem e he'')
      rw [writtenAll_cons_cons, List.count_append, List.count_cons_of_ne (by decide),
        List.count_cons_of_ne (by decide), he, hes, colons_cons e]

/-- A style is read back if and only if its entries are read one by one: no colon can be spared for
    a declaration that is replaced. -/
theorem parse_text_eq_self_iff {style : Style} (h : ∀ e ∈ style.entries, Declared e) :
    parse (style.text?.getD "") = style ↔ ∀ e ∈ style.entries.dropLast, Closed e := by
  have hparse : (parse (style.text?.getD "")).entries =
      Entries.insertAll [] (readEntries (writtenAll style.entries)) := by
    rw [← toList_text]
    rfl
  rw [← readEntries_writtenAll_iff h]
  constructor
  · intro hsame
    have hle := colons_readEntries_le (writtenAll style.entries)
    rw [count_writtenAll fun e he => (h e he).no_colon] at hle
    rw [hsame] at hparse
    have hnodup : (readEntries (writtenAll style.entries)).keys.Nodup :=
      @nodup_of_colons_le [] (readEntries (writtenAll style.entries)) List.nodup_nil
        (hparse ▸ Nat.le_trans (Nat.le_of_eq (Nat.zero_add _)) hle)
    exact (hparse.trans (Entries.insertAll_nil hnodup)).symm
  · intro hread
    refine OrderedMap.ext ?_
    rw [hparse, hread, Entries.insertAll_nil style.nodup_keys]

/-! ## §6. Styles that were read -/

theorem declared_of_mem_parse {text : String} (he : e ∈ (parse text).entries) : Declared e := by
  rcases Entries.mem_of_mem_insertAll he with he | he
  · cases he
  · exact declared_of_mem_readEntries he

/-- What a node spells as its style is what can be read of it. -/
theorem spelledStyle_eq (t : LiveTree) (n : NodeId) :
    t.spelledStyle n = parse ((t.style n).text?.getD "") := by
  unfold LiveTree.spelledStyle LiveTree.attribute? LiveTree.style
  cases t.slot? n with
  | none => rfl
  | some slot =>
    show (slot.style.text?.map parse).getD ∅ = parse (slot.style.text?.getD "")
    cases slot.style.text? <;> rfl

/-- **A style that was read from a text** is read again from its own text, and is what a node that
    has it spells, if and only if none of its entries but the last leaves a parenthesis or a quote
    open. This is so for every text that leaves nothing open itself, and for every text that
    declares no property twice. -/
theorem read_back_iff (text : String) :
    (parse ((parse text).text?.getD "") = parse text ↔
      ∀ e ∈ (parse text).entries.dropLast, Closed e) ∧
    (ScanState.outside.after text.toList = .outside ∨ (readEntries text.toList).keys.Nodup →
      ∀ e ∈ (parse text).entries.dropLast, Closed e) ∧
    ∀ (t : LiveTree) (n : NodeId), t.style n = parse text →
      (t.spelledStyle n = t.style n ↔ ∀ e ∈ (parse text).entries.dropLast, Closed e) := by
  have hself : parse ((parse text).text?.getD "") = parse text ↔
      ∀ e ∈ (parse text).entries.dropLast, Closed e :=
    parse_text_eq_self_iff fun e he => declared_of_mem_parse he
  refine ⟨hself, ?_, ?_⟩
  · rintro (houtside | hnodup) e he
    · rcases Entries.mem_of_mem_insertAll (List.dropLast_subset _ he) with he | he
      · cases he
      · exact closed_of_mem_readEntries houtside he
    · have hentries : (parse text).entries = readEntries text.toList :=
        Entries.insertAll_nil hnodup
      rw [hentries] at he
      exact (splits_splitDeclarations .outside text.toList).closed_of_mem_dropLast rfl he
  · intro t n hstyle
    rw [spelledStyle_eq, hstyle]
    exact hself

/-- A paragraph with a style. -/
def styledParagraph (text : String) : LiveTree :=
  (LiveTree.initial.createElement "p").2.setAttribute 1 "style" text

/-- The quote in the end is not closed, but nothing follows it. A closed text may declare a property
    twice. -/
theorem read_back_iff_unclosed :
    (readEntries "a:(1;2);b:'x".toList).keys.Nodup ∧
      parse ((parse "a:(1;2);b:'x").text?.getD "") = parse "a:(1;2);b:'x" ∧
      (styledParagraph "a:(1;2);b:'x").style 1 = parse "a:(1;2);b:'x" ∧
      (styledParagraph "a:(1;2);b:'x").spelledStyle 1 =
        (styledParagraph "a:(1;2);b:'x").style 1 ∧
      ScanState.outside.after "b:1;a:2;b:'x'".toList = .outside ∧
      parse ((parse "b:1;a:2;b:'x'").text?.getD "") = parse "b:1;a:2;b:'x'" := by
  have hnodup : (readEntries "a:(1;2);b:'x".toList).keys.Nodup := by decide
  have hstyle : (styledParagraph "a:(1;2);b:'x").style 1 = parse "a:(1;2);b:'x" := rfl
  have houtside : ScanState.outside.after "b:1;a:2;b:'x'".toList = .outside := by decide
  obtain ⟨hself, hclosed, hspelled⟩ := read_back_iff "a:(1;2);b:'x"
  have hlast := hclosed (.inr hnodup)
  obtain ⟨hself', hclosed', -⟩ := read_back_iff "b:1;a:2;b:'x'"
  exact ⟨hnodup, hself.mpr hlast, hstyle, (hspelled _ 1 hstyle).mpr hlast, houtside,
    hself'.mpr (hclosed' (.inl houtside))⟩

/-- Declared again, `b` keeps its first place, and its open quote takes in the declaration of
    `a`. -/
theorem not_read_back_quote :
    (parse "b:1;a:2;b:'").entries = [("b", "'"), ("a", "2")] ∧
      (parse ((parse "b:1;a:2;b:'").text?.getD "")).entries = [("b", "'; a: 2")] ∧
      parse ((parse "b:1;a:2;b:'").text?.getD "") ≠ parse "b:1;a:2;b:'" := by
  have hfirst : (parse "b:1;a:2;b:'").entries = [("b", "'"), ("a", "2")] := by decide
  have hagain : (parse ((parse "b:1;a:2;b:'").text?.getD "")).entries = [("b", "'; a: 2")] := by
    decide
  refine ⟨hfirst, hagain, ?_⟩
  intro hsame
  rw [hsame, hfirst] at hagain
  exact absurd hagain (by decide)

/-! ## §7. Styles of any origin -/

instance decidableUnbroken (st : ScanState) : (s : List Char) → Decidable (Unbroken st s)
  | [] => .isTrue unbroken_nil
  | c :: s =>
    have := decidableUnbroken (st.next c) s
    decidable_of_iff _ unbroken_cons_iff.symm

theorem declared_iff : Declared e ↔ e.1.toList ≠ [] ∧ ':' ∉ e.1.toList ∧
    trim e.1.toList = e.1.toList ∧ trim e.2.toList = e.2.toList ∧ Unbroken .outside (written e) :=
  ⟨fun ⟨hne, hcolon, hproperty, hvalue, hunbroken⟩ => ⟨hne, hcolon, hproperty, hvalue, hunbroken⟩,
    fun ⟨hne, hcolon, hproperty, hvalue, hunbroken⟩ => ⟨hne, hcolon, hproperty, hvalue, hunbroken⟩⟩

instance (e : String × String) : Decidable (Declared e) := decidable_of_iff _ declared_iff.symm

theorem text?_of_ne_nil {style : Style} (h : style.entries ≠ []) :
    style.text? = some ("; ".intercalate style.declarations) := by
  rw [text?, if_neg]
  intro hempty
  exact h (List.isEmpty_iff.mp hempty)

/-- **Styles survive their text**: a style that is not empty has a text, and this text is read as
    the style, in the same order, if and only if every entry is one that a declaration can yield
    and none but the last leaves a parenthesis or a quote open. A node that has the style spells it
    under the same condition. -/
theorem text_read_iff {style : Style} (hne : style.entries ≠ []) :
    ∃ text, style.text? = some text ∧
      (parse text = style ↔
        (∀ e ∈ style.entries, Declared e) ∧ ∀ e ∈ style.entries.dropLast, Closed e) ∧
      ∀ (t : LiveTree) (n : NodeId), t.style n = style →
        (t.spelledStyle n = style ↔
          (∀ e ∈ style.entries, Declared e) ∧ ∀ e ∈ style.entries.dropLast, Closed e) := by
  have htext := text?_of_ne_nil hne
  have hread : parse ("; ".intercalate style.declarations) = style ↔
      (∀ e ∈ style.entries, Declared e) ∧ ∀ e ∈ style.entries.dropLast, Closed e := by
    constructor
    · intro hsame
      -- What was read has entries that declarations yield.
      have hdeclared : ∀ e ∈ style.entries, Declared e := by
        intro e he
        rw [← hsame] at he
        exact declared_of_mem_parse he
      refine ⟨hdeclared, (parse_text_eq_self_iff hdeclared).mp ?_⟩
      rw [htext]
      exact hsame
    · rintro ⟨hdeclared, hclosed⟩
      have hself := (parse_text_eq_self_iff hdeclared).mpr hclosed
      rwa [htext] at hself
  refine ⟨_, htext, hread, ?_⟩
  intro t n hstyle
  rw [spelledStyle_eq, hstyle, htext]
  exact hread

/-- Semicolons in parentheses and quotes, a colon in a value, an empty value, and a parenthesis that
    is never closed. -/
def intricateStyle : Style :=
  ⟨[("background", "url(data:png;(A;'))'))"), ("content", "\"a;(b\""), ("color", ""),
    ("width", ") calc(1; 2")], by decide⟩

theorem text_read_iff_intricate :
    intricateStyle.entries ≠ [] ∧
      intricateStyle.text? =
        some "background: url(data:png;(A;'))')); content: \"a;(b\"; color: ; width: ) calc(1; 2" ∧
      parse "background: url(data:png;(A;'))')); content: \"a;(b\"; color: ; width: ) calc(1; 2" =
        intricateStyle := by
  have hne : intricateStyle.entries ≠ [] := by decide
  obtain ⟨text, htext, hread, -⟩ := text_read_iff hne
  have hsame : intricateStyle.text? = some
      "background: url(data:png;(A;'))')); content: \"a;(b\"; color: ; width: ) calc(1; 2" := by
    decide
  obtain rfl := Option.some.inj (htext.symm.trans hsame)
  exact ⟨hne, htext, hread.mpr ⟨by decide, by decide⟩⟩

end ReactiveView.Style
