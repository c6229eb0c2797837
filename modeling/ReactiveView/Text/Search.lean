/-! # Searching a text

  Texts are searched from the left. A pattern is found at the first position
  where it is a prefix of what follows; the empty pattern is found at once.
-/

namespace ReactiveView.Text

/-! ## §1. The pattern at the front -/

/-- What follows the pattern, if the text starts with it. -/
def dropFront? : (pattern text : List Char) → Option (List Char)
  | [], s => some s
  | _ :: _, [] => none
  | p :: ps, c :: s => if p = c then dropFront? ps s else none

theorem eq_append_of_dropFront? {p s r : List Char} (h : dropFront? p s = some r) :
    s = p ++ r := by
  fun_induction dropFront? p s with
  | case1 s => simpa using h
  | case2 => simp at h
  | case3 ps c s ih => simpa using ih h
  | case4 => simp at h

@[simp] theorem dropFront?_append (p r : List Char) : dropFront? p (p ++ r) = some r := by
  induction p with
  | nil => rfl
  | cons c p ih => simp [dropFront?, ih]

theorem dropFront?_eq_some_iff {p s r : List Char} : dropFront? p s = some r ↔ s = p ++ r := by
  refine ⟨eq_append_of_dropFront?, ?_⟩
  rintro rfl
  exact dropFront?_append p r

theorem dropFront?_eq_none_iff {p s : List Char} : dropFront? p s = none ↔ ¬ p <+: s := by
  constructor
  · rintro h ⟨r, rfl⟩
    simp at h
  · intro h
    cases hr : dropFront? p s with
    | none => rfl
    | some r => exact absurd ⟨r, (eq_append_of_dropFront? hr).symm⟩ h

/-! ## §2. The first occurrence -/

/-- The text before the first occurrence of the pattern and the text after it. -/
def splitFirst? (pattern : List Char) : List Char → Option (List Char × List Char)
  | [] => if pattern = [] then some ([], []) else none
  | c :: s =>
    match dropFront? pattern (c :: s) with
    | some rest => some ([], rest)
    | none => (splitFirst? pattern s).map fun (before, rest) => (c :: before, rest)

theorem eq_append_of_splitFirst? {p s before rest : List Char}
    (h : splitFirst? p s = some (before, rest)) : s = before ++ p ++ rest := by
  induction s generalizing before with
  | nil =>
    simp only [splitFirst?] at h
    split at h
    · simp_all
    · simp at h
  | cons c s ih =>
    simp only [splitFirst?] at h
    split at h
    · next r hr => simp at h; simp [← h.1, ← h.2, eq_append_of_dropFront? hr]
    · obtain ⟨⟨b, r⟩, hb, heq⟩ := Option.map_eq_some_iff.1 h
      simp only [Prod.mk.injEq] at heq
      obtain ⟨rfl, rfl⟩ := heq
      simp [ih hb]

/-- The text splits into what stands before the pattern, the pattern and the rest. -/
theorem length_of_splitFirst? {p s before rest : List Char}
    (h : splitFirst? p s = some (before, rest)) :
    s.length = before.length + p.length + rest.length := by
  simp [eq_append_of_splitFirst? h, Nat.add_assoc]

theorem length_le_of_splitFirst? {p s before rest : List Char}
    (h : splitFirst? p s = some (before, rest)) : rest.length ≤ s.length := by
  have := length_of_splitFirst? h
  omega

/-! ## §3. Replacement -/

/-- The text with each occurrence of the nonempty pattern replaced, from left to right and
    without looking at what was put in. -/
def replaceAll (pattern replacement : List Char) : List Char → List Char
  | [] => []
  | c :: s =>
    match _h : dropFront? pattern (c :: s) with
    | some rest =>
      if pattern = [] then c :: replaceAll pattern replacement s
      else replacement ++ replaceAll pattern replacement rest
    | none => c :: replaceAll pattern replacement s
termination_by s => s.length
decreasing_by
  · simp
  · have := congrArg List.length (eq_append_of_dropFront? _h)
    have : 0 < pattern.length := List.length_pos_iff.2 ‹_›
    simp at *; omega
  · simp

@[simp] theorem replaceAll_nil (p r : List Char) : replaceAll p r [] = [] := by
  rw [replaceAll]

theorem replaceAll_append_of_ne_nil {p : List Char} (hp : p ≠ []) (r s : List Char) :
    replaceAll p r (p ++ s) = r ++ replaceAll p r s := by
  obtain ⟨c, p, rfl⟩ := List.exists_cons_of_ne_nil hp
  rw [List.cons_append, replaceAll]
  split
  · next rest h =>
    rw [if_neg hp]
    have hrest : (c :: p) ++ s = (c :: p) ++ rest := dropFront?_eq_some_iff.1 h
    rw [List.append_cancel_left hrest]
  · next h => exact absurd ⟨s, rfl⟩ (dropFront?_eq_none_iff.1 h)

theorem replaceAll_cons_of_not_prefix {p : List Char} {c : Char} {s : List Char}
    (h : ¬ p <+: c :: s) (r : List Char) :
    replaceAll p r (c :: s) = c :: replaceAll p r s := by
  rw [replaceAll]
  split
  · next rest hrest => exact absurd ⟨rest, (eq_append_of_dropFront? hrest).symm⟩ h
  · rfl

end ReactiveView.Text
