import ReactiveView.Text.Blank

/-! # What trimming leaves

  Trimming takes blanks from both ends and nothing else, so that whatever is no
  blank is counted in the trimmed text as before, and trimming again changes
  nothing.
-/

namespace ReactiveView.Text

variable {c : Char} {s : List Char}

/-! ## §1. The ends -/

theorem trimStart_cons (hc : isBlank c = false) (s : List Char) : trimStart (c :: s) = c :: s :=
  List.dropWhile_cons_of_neg (by simp [hc])

theorem trimStart_blank (s : List Char) : trimStart (' ' :: s) = trimStart s :=
  List.dropWhile_cons_of_pos rfl

theorem trim_blank (s : List Char) : trim (' ' :: s) = trim s := by
  rw [trim, trimStart_blank]
  rfl

theorem trimStart_eq_self (h : ∀ c ∈ s.head?, isBlank c = false) : trimStart s = s := by
  cases s with
  | nil => rfl
  | cons c s => exact trimStart_cons (h c rfl) s

theorem trimEnd_eq_self (h : ∀ c ∈ s.getLast?, isBlank c = false) : trimEnd s = s := by
  have hreverse : trimStart s.reverse = s.reverse :=
    trimStart_eq_self fun c hc => h c (List.head?_reverse ▸ hc)
  show (trimStart s.reverse).reverse = s
  rw [hreverse, List.reverse_reverse]

/-- A text that neither begins nor ends with a blank has nothing to trim. -/
theorem trim_eq_self (hhead : ∀ c ∈ s.head?, isBlank c = false)
    (hlast : ∀ c ∈ s.getLast?, isBlank c = false) : trim s = s := by
  rw [trim, trimStart_eq_self hhead, trimEnd_eq_self hlast]

theorem isPrefix_trimEnd (s : List Char) : trimEnd s <+: s := by
  have hfront := List.reverse_prefix.mpr (List.dropWhile_suffix isBlank (l := s.reverse))
  rwa [List.reverse_reverse] at hfront

theorem isInfix_trim (s : List Char) : trim s <:+: s :=
  (isPrefix_trimEnd (trimStart s)).isInfix.trans (List.dropWhile_suffix isBlank).isInfix

theorem not_isBlank_of_mem_head?_trimStart (h : c ∈ (trimStart s).head?) : isBlank c = false := by
  have hdrop := List.head?_dropWhile_not isBlank s
  rw [trimStart, Option.mem_def] at h
  rwa [h] at hdrop

/-- Blanks in front make no difference. -/
theorem trimStart_append {b : List Char} (hb : isBlankText b = true) (s : List Char) :
    trimStart (b ++ s) = trimStart s :=
  List.dropWhile_append_of_pos (List.all_eq_true.mp hb)

/-- Nothing is left of blanks. -/
theorem trimStart_of_isBlankText (h : isBlankText s = true) : trimStart s = [] := by
  have happend := trimStart_append h []
  rwa [List.append_nil] at happend

theorem trimStart_trimStart (s : List Char) : trimStart (trimStart s) = trimStart s :=
  trimStart_eq_self fun _ hc => not_isBlank_of_mem_head?_trimStart hc

/-- What is taken from the front are blanks. -/
theorem takeWhile_append_trimStart (s : List Char) : s.takeWhile isBlank ++ trimStart s = s :=
  List.takeWhile_append_dropWhile

theorem isBlankText_takeWhile (s : List Char) : isBlankText (s.takeWhile isBlank) = true :=
  List.all_takeWhile

/-- Blanks behind make no difference. -/
theorem trimEnd_append {b : List Char} (hb : isBlankText b = true) (s : List Char) :
    trimEnd (s ++ b) = trimEnd s := by
  have hreverse : isBlankText b.reverse = true := by rwa [isBlankText, List.all_reverse]
  show (trimStart (s ++ b).reverse).reverse = _
  rw [List.reverse_append, trimStart_append hreverse]
  rfl

/-- Blanks around a text make no difference. -/
theorem trim_append {b b' : List Char} (hb : isBlankText b = true) (hb' : isBlankText b' = true)
    (s : List Char) : trim (b ++ s ++ b') = trim s := by
  rw [List.append_assoc, trim, trimStart_append hb, trimStart, List.dropWhile_append]
  split
  · next hs =>
    have hblank : b'.dropWhile isBlank = [] := trimStart_of_isBlankText hb'
    rw [hblank, trim, trimStart, List.isEmpty_iff.mp hs]
  · exact trimEnd_append hb' _

/-- What is taken from both ends are blanks. -/
theorem exists_append_trim (s : List Char) :
    ∃ b b', isBlankText b = true ∧ isBlankText b' = true ∧ s = b ++ trim s ++ b' := by
  refine ⟨s.takeWhile isBlank, ((trimStart s).reverse.takeWhile isBlank).reverse,
    isBlankText_takeWhile s, ?_, ?_⟩
  · rw [isBlankText, List.all_reverse]
    exact isBlankText_takeWhile _
  · rw [List.append_assoc, trim, trimEnd, ← List.reverse_append, List.takeWhile_append_dropWhile,
      List.reverse_reverse, takeWhile_append_trimStart]

/-- What is trimmed has no blank at either end. -/
theorem trim_trim (s : List Char) : trim (trim s) = trim s := by
  refine trim_eq_self ?_ ?_
  · intro c hc
    refine not_isBlank_of_mem_head?_trimStart (s := s) ?_
    obtain ⟨t, ht⟩ := List.head?_eq_some_iff.mp hc
    obtain ⟨r, hr⟩ := isPrefix_trimEnd (trimStart s)
    rw [trim] at ht
    rw [← hr, ht]
    rfl
  · intro c hc
    refine not_isBlank_of_mem_head?_trimStart (s := (trimStart s).reverse) ?_
    rw [trim, trimEnd, List.getLast?_reverse] at hc
    exact hc

/-! ## §2. What is no blank -/

section Filter

variable {p : Char → Bool}

theorem filter_trimStart (hp : ∀ c, isBlank c = true → p c = false) (s : List Char) :
    (trimStart s).filter p = s.filter p := by
  induction s with
  | nil => rfl
  | cons c s ih =>
    rw [trimStart, List.dropWhile_cons]
    split
    · next hc =>
      rw [List.filter_cons_of_neg (by simp [hp c hc])]
      exact ih
    · rfl

/-- Trimming takes blanks alone. -/
theorem filter_trim (hp : ∀ c, isBlank c = true → p c = false) (s : List Char) :
    (trim s).filter p = s.filter p := by
  have hreverse := filter_trimStart hp (trimStart s).reverse
  rw [trimStart] at hreverse
  rw [trim, trimEnd, List.filter_reverse, hreverse, List.filter_reverse, List.reverse_reverse]
  exact filter_trimStart hp s

end Filter

theorem count_trim (hc : isBlank c = false) (s : List Char) : (trim s).count c = s.count c := by
  rw [List.count_eq_length_filter, List.count_eq_length_filter, filter_trim]
  intro d hd
  refine beq_false_of_ne ?_
  rintro rfl
  rw [hc] at hd
  cases hd

theorem mem_trim (hc : c ∈ s) (hblank : isBlank c = false) : c ∈ trim s := by
  rw [← List.count_pos_iff, count_trim hblank]
  exact List.count_pos_iff.mpr hc

theorem head?_trim (hblank : isBlank c = false) (s : List Char) :
    (trim (c :: s)).head? = some c := by
  have hmem : c ∈ trim (c :: s) := mem_trim List.mem_cons_self hblank
  have hfront : trim (c :: s) <+: c :: s := by
    rw [trim, trimStart_cons hblank]
    exact isPrefix_trimEnd _
  obtain ⟨d, r, hd⟩ := List.exists_cons_of_ne_nil (List.ne_nil_of_mem hmem)
  rw [hd] at hfront ⊢
  rw [(List.cons_prefix_cons.mp hfront).1]
  rfl

end ReactiveView.Text
