import ReactiveView.Text.Ascii

/-! # Character boundaries

  Offsets into a text count the bytes of its UTF-8 form, and not every offset is
  the beginning of a character. `splitBytes?` splits a text at an offset if it
  is one, and so do the slices of a text that are taken by offsets.
-/

namespace ReactiveView.Text

variable {n : Nat} {s t rest : List Char}

/-! ## §1. Splitting by bytes -/

theorem byteLength_pos (hs : s ≠ []) : 0 < byteLength s := by
  obtain ⟨c, t, rfl⟩ := List.exists_cons_of_ne_nil hs
  exact Nat.lt_of_lt_of_le (Char.utf8Size_pos c) (Nat.le_add_right _ _)

/-- The text before an offset and the text behind it, if the offset is a character boundary. -/
def splitBytes? : Nat → List Char → Option (List Char × List Char)
  | 0, s => some ([], s)
  | _ + 1, [] => none
  | n + 1, c :: s =>
    if c.utf8Size ≤ n + 1 then
      (splitBytes? (n + 1 - c.utf8Size) s).map fun (before, rest) => (c :: before, rest)
    else none

theorem splitBytes?_append (t rest : List Char) :
    splitBytes? (byteLength t) (t ++ rest) = some (t, rest) := by
  induction t with
  | nil => rw [byteLength_nil, List.nil_append, splitBytes?]
  | cons c t ih =>
    have hpos := c.utf8Size_pos
    obtain ⟨n, hn⟩ : ∃ n, byteLength (c :: t) = n + 1 :=
      ⟨byteLength (c :: t) - 1, by rw [byteLength_cons]; omega⟩
    rw [hn, List.cons_append, splitBytes?, ← hn, byteLength_cons, if_pos (by omega),
      Nat.add_sub_cancel_left, ih]
    rfl

theorem eq_append_of_splitBytes? (h : splitBytes? n s = some (t, rest)) :
    s = t ++ rest ∧ byteLength t = n := by
  fun_induction splitBytes? n s generalizing t with
  | case1 s =>
    obtain ⟨rfl, rfl⟩ := Prod.mk.inj (Option.some.inj h)
    exact ⟨rfl, rfl⟩
  | case2 => simp at h
  | case3 n c s hc ih =>
    obtain ⟨⟨before, rest'⟩, hsplit, heq⟩ := Option.map_eq_some_iff.mp h
    obtain ⟨rfl, rfl⟩ := Prod.mk.inj heq
    obtain ⟨rfl, hlen⟩ := ih hsplit
    refine ⟨rfl, ?_⟩
    rw [byteLength_cons, hlen]
    omega
  | case4 => simp at h

/-- A text splits at an offset if so many bytes come before a character. -/
theorem splitBytes?_eq_some_iff :
    splitBytes? n s = some (t, rest) ↔ s = t ++ rest ∧ byteLength t = n := by
  refine ⟨eq_append_of_splitBytes?, ?_⟩
  rintro ⟨rfl, rfl⟩
  exact splitBytes?_append t rest

/-- The characters between two offsets, if both are boundaries and in order. -/
def slice? (i j : Nat) (s : List Char) : Option (List Char) :=
  if i ≤ j then
    (splitBytes? i s).bind fun (_, behind) => (splitBytes? (j - i) behind).map (·.1)
  else none

/-! ## §2. Positions of a string -/

theorem utf8ByteSize_ofList (s : List Char) : (String.ofList s).utf8ByteSize = byteLength s := by
  induction s with
  | nil => rfl
  | cons c s ih =>
    rw [String.ofList_cons, String.utf8ByteSize_append, String.utf8ByteSize_singleton, ih,
      byteLength_cons]

theorem byteLength_toList (s : String) : byteLength s.toList = s.utf8ByteSize := by
  rw [← utf8ByteSize_ofList, String.ofList_toList]

/-- The valid positions of a string are the offsets at which its text splits. -/
theorem isValid_iff (s : String) (pos : Nat) :
    String.Pos.Raw.IsValid s ⟨pos⟩ ↔ ∃ t rest, splitBytes? pos s.toList = some (t, rest) := by
  simp only [String.Pos.Raw.isValid_iff_exists_append, splitBytes?_eq_some_iff]
  constructor
  · rintro ⟨t, rest, rfl, hpos⟩
    refine ⟨t.toList, rest.toList, String.toList_append, ?_⟩
    rw [byteLength_toList, ← String.byteIdx_rawEndPos, ← hpos]
  · rintro ⟨t, rest, hs, rfl⟩
    refine ⟨String.ofList t, String.ofList rest, ?_, ?_⟩
    · rw [← String.ofList_append, ← hs, String.ofList_toList]
    · rw [String.Pos.Raw.ext_iff, String.byteIdx_rawEndPos, utf8ByteSize_ofList]

end ReactiveView.Text
