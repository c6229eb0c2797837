/-! # ASCII case and UTF-8 width

  Tags, event names and selectors ignore the case of ASCII letters and of no
  others. Offsets in messages count the bytes of the UTF-8 form.
-/

namespace ReactiveView.Text

/-! ## §1. Case of ASCII letters -/

/-- The text with its ASCII capitals made small. -/
def lowerAscii (s : List Char) : List Char := s.map Char.toLower

/-- The text with its ASCII capitals made small. -/
def lowerAsciiText (s : String) : String := String.ofList (lowerAscii s.toList)

/-- Equality of texts up to the case of ASCII letters. -/
def equalIgnoringCase (s t : String) : Bool := lowerAsciiText s == lowerAsciiText t

/-- A text without capitals is in small letters. -/
theorem lowerAscii_eq_self {s : List Char} (h : ∀ c ∈ s, c.isUpper = false) :
    lowerAscii s = s := by
  unfold lowerAscii
  have hself : ∀ c ∈ s, c.toLower = id c := by
    intro c hc
    have hupper := h c hc
    unfold Char.toLower
    rw [dif_neg]
    · rfl
    · unfold Char.isUpper at hupper
      simpa using hupper
  rw [List.map_congr_left hself, List.map_id]

/-- A capital becomes a small letter, and every other character stays as it is. -/
theorem toLower_cases (c : Char) :
    c.isUpper = false ∧ c.toLower = c ∨ c.isUpper = true ∧ c.toLower.isLower = true := by
  unfold Char.isUpper Char.isLower Char.toLower
  by_cases h : c.val ≥ 'A'.val ∧ c.val ≤ 'Z'.val
  · rw [dif_pos h]
    have hge : 65 ≤ c.val.toNat := h.1
    have hle : c.val.toNat ≤ 90 := h.2
    have hval : (c.val + ('a'.val - 'A'.val)).toNat = c.val.toNat + 32 := by
      have hdiff : ('a'.val - 'A'.val).toNat = 32 := rfl
      rw [UInt32.toNat_add, hdiff]
      omega
    refine .inr ⟨by simpa using h, ?_⟩
    simp only [Bool.and_eq_true, decide_eq_true_eq]
    constructor
    · show 97 ≤ (c.val + ('a'.val - 'A'.val)).toNat
      omega
    · show (c.val + ('a'.val - 'A'.val)).toNat ≤ 122
      omega
  · rw [dif_neg h]
    exact .inl ⟨by simpa using h, rfl⟩

theorem isUpper_eq_false_of_isLower {c : Char} (h : c.isLower = true) : c.isUpper = false := by
  unfold Char.isLower at h
  unfold Char.isUpper
  simp only [Bool.and_eq_true, decide_eq_true_eq] at h
  simp only [decide_eq_false_iff_not]
  rintro ⟨-, hle⟩
  have hge : 97 ≤ c.val.toNat := h.1
  have hle' : c.val.toNat ≤ 90 := hle
  omega

theorem isUpper_toLower (c : Char) : c.toLower.isUpper = false := by
  rcases toLower_cases c with ⟨hupper, hself⟩ | ⟨-, hlower⟩
  · rw [hself]
    exact hupper
  · exact isUpper_eq_false_of_isLower hlower

/-- In small letters there is nothing left to make small. -/
@[simp] theorem lowerAscii_lowerAscii (s : List Char) :
    lowerAscii (lowerAscii s) = lowerAscii s := by
  refine lowerAscii_eq_self fun c hc => ?_
  obtain ⟨d, -, rfl⟩ := List.mem_map.mp hc
  exact isUpper_toLower d

/-! ## §2. Width in bytes -/

/-- The number of bytes of the UTF-8 form. -/
def byteLength : List Char → Nat
  | [] => 0
  | c :: s => c.utf8Size + byteLength s

@[simp] theorem byteLength_nil : byteLength [] = 0 := rfl

@[simp] theorem byteLength_cons (c : Char) (s : List Char) :
    byteLength (c :: s) = c.utf8Size + byteLength s := rfl

@[simp] theorem byteLength_append (s t : List Char) :
    byteLength (s ++ t) = byteLength s + byteLength t := by
  induction s with
  | nil => simp
  | cons c s ih => simp [ih, Nat.add_assoc]

end ReactiveView.Text
