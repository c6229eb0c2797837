import Mathlib.Data.List.Perm.Subperm
import ReactiveView.Proofs.Decimal.Whole
import ReactiveView.Proofs.OrderedMap.Agree
import ReactiveView.Value.Coercion

/-! # One number, two forms

  A whole number is written as an integer or as a float. Expressions take the two
  for equal, but they do not do so everywhere:

  * `index_eq_of_equals`: as positions in a list, equal numbers are one; in a text
    only integers are positions.
  * `equals_containers_iff`: inside lists and objects, numbers are equal only in
    one form.
-/

namespace ReactiveView.Value

open Decimal Float.Model

/-! ## §1. Positions -/

/-- Zero of either sign is the first position. -/
theorem listPosition?_zero {n : Number} {s : UnpackedFloat.Sign}
    (h : n.toFloat.toModel.unpack = .zero s) : listPosition? n = some 0 := by
  have hform : Binary64.ofFloat n.toFloat = .finite (Binary64.isMinus s) 0 0 := by
    rw [Binary64.ofFloat, h]
  have hle : 0.0 ≤ n.toFloat := by
    rw [zero_le_iff, h]
    cases s <;> rfl
  have hwhole : isWhole n.toFloat = true := by
    rw [isWhole, hform]
    rfl
  rw [listPosition?]
  refine (if_pos ⟨hle, hwhole⟩).trans ?_
  rw [hform]
  rfl

/-- Equal numbers are one position in a list. -/
theorem listPosition?_eq_of_equals {i j : Number} (h : equals (num i) (num j) = true) :
    listPosition? i = listPosition? j := by
  rcases beq_eq_true_iff.mp h with ⟨heq, -⟩ | ⟨s, t, hs, ht⟩
  · have hle : 0.0 ≤ i.toFloat ↔ 0.0 ≤ j.toFloat := by rw [zero_le_iff, zero_le_iff, heq]
    simp only [listPosition?, isWhole, ofFloat_congr heq]
    exact if_congr (and_congr_left' hle) rfl rfl
  · rw [listPosition?_zero hs, listPosition?_zero ht]

/-- Whether the number is a position in the text: an integer that it is long enough for. -/
def IsTextPosition (s : String) : Number → Prop
  | .int n => 0 ≤ n ∧ n < s.length
  | .float _ => False

theorem index_str_eq_null_iff (s : String) (i : Number) :
    index (str s) (num i) = null ↔ ¬IsTextPosition s i := by
  cases i with
  | float f => exact iff_of_true rfl id
  | int n =>
    by_cases hn : 0 ≤ n
    · obtain ⟨k, rfl⟩ := Int.eq_ofNat_of_zero_le hn
      have hposition : IsTextPosition s (.int k) ↔ k < s.toList.length := by
        rw [IsTextPosition, and_iff_right hn, Int.ofNat_lt, String.length_toList]
      have hindex : index (str s) (num (.int k)) =
          (s.toList[k]?.map fun c => str (String.singleton c)).getD null := by
        rw [index, if_pos hn]
        rfl
      rw [hindex, hposition]
      by_cases hk : k < s.toList.length
      · rw [List.getElem?_eq_getElem hk]
        exact iff_of_false Value.noConfusion (not_not_intro hk)
      · rw [List.getElem?_eq_none (Nat.le_of_not_lt hk)]
        exact iff_of_true rfl hk
    · exact iff_of_true (if_neg hn) fun h => hn h.1

/-- **Equal numbers as positions.** In a list they are one position. In a text they are so unless
    the one is a position, as an integer, and the other is a float. -/
theorem index_eq_of_equals {i j : Number} (h : equals (num i) (num j) = true) :
    (∀ xs, index (arr xs) (num i) = index (arr xs) (num j)) ∧
      ∀ s : String, s.length ≤ 2 ^ 53 →
        (index (str s) (num i) = index (str s) (num j) ↔
          (IsTextPosition s i ↔ IsTextPosition s j)) := by
  refine ⟨fun xs => ?_, fun s hs => ⟨fun heq => ?_, fun hiff => ?_⟩⟩
  · rw [index, index, listPosition?_eq_of_equals h]
  · rw [← not_iff_not, ← index_str_eq_null_iff, ← index_str_eq_null_iff, heq]
  · by_cases hi : IsTextPosition s i
    · have hj := hiff.mp hi
      cases i with
      | float f => exact hi.elim
      | int m =>
        cases j with
        | float g => exact hj.elim
        | int n =>
          -- Integers that only round to one float lie behind the end of the text.
          rcases eq_or_large_of_ofInt_beq h with rfl | ⟨hm, -⟩
          · rfl
          · obtain ⟨hnonneg, hlt⟩ := hi
            omega
    · rw [(index_str_eq_null_iff s i).mpr hi, (index_str_eq_null_iff s j).mpr (hiff.not.mp hi)]

theorem index_eq_of_equals_one :
    equals (num (.int 1)) (num (.float 1.0)) = true ∧
      index (arr [null, bool true]) (num (.int 1)) =
        index (arr [null, bool true]) (num (.float 1.0)) ∧
      (index (str "abc") (num (.int 1)) = index (str "abc") (num (.float 1.0)) ↔
        (IsTextPosition "abc" (.int 1) ↔ IsTextPosition "abc" (.float 1.0))) := by
  have h : equals (num (.int 1)) (num (.float 1.0)) = true := by decide
  obtain ⟨hlists, htexts⟩ := index_eq_of_equals h
  exact ⟨h, hlists _, htexts "abc" (by decide)⟩

/-- A float is no position in a text, whatever its value. -/
theorem index_depends_on_form :
    equals (num (.int 1)) (num (.float 1.0)) = true ∧
      index (str "abc") (num (.int 1)) = str "b" ∧ index (str "abc") (num (.float 1.0)) = null ∧
      index (str "abc") (num (.int 1)) ≠ index (str "abc") (num (.float 1.0)) :=
  ⟨by decide, rfl, rfl, Value.noConfusion⟩

/-! ## §2. Equality in lists and objects -/

/-- Whether two values, if they are numbers, are the same number in one form. -/
def SameForm : Value → Value → Prop
  | num m, num n => m.same n = true
  | _, _ => True

theorem equals_of_same {m n : Number} (h : m.same n = true) :
    equals (num m) (num n) = true := by
  cases m with
  | int m =>
    cases n with
    | int n =>
      obtain rfl : m = n := by simpa [Number.same] using h
      exact ofInt_beq_self m
    | float g => simp [Number.same] at h
  | float f =>
    cases n with
    | int n => simp [Number.same] at h
    | float g => exact h

/-- What is the same is what is equal, but for the form of numbers. -/
theorem same_iff (v w : Value) : same v w = true ↔ equals v w = true ∧ SameForm v w := by
  have hother : equals v w = same v w → SameForm v w → (same v w = true ↔ _) := fun heq hform =>
    (iff_of_eq (congrArg (· = true) heq.symm)).trans (and_iff_left hform).symm
  cases v with
  | num m =>
    cases w with
    | num n =>
      show m.same n = true ↔ _
      exact ⟨fun h => ⟨equals_of_same h, h⟩, And.right⟩
    | _ => exact hother rfl trivial
  | _ => cases w <;> exact hother rfl trivial

theorem sameItems_iff (xs ys : List Value) :
    sameItems xs ys = true ↔ List.Forall₂ (fun x y => equals x y = true ∧ SameForm x y) xs ys := by
  induction xs generalizing ys with
  | nil => cases ys <;> simp [sameItems]
  | cons x xs ih =>
    cases ys with
    | nil => simp [sameItems]
    | cons y ys => simp [sameItems, same_iff, ih]

theorem sameFields_iff (fs gs : List (String × Value)) :
    sameFields fs gs = true ↔ ∀ f ∈ fs, ∃ w, gs.lookup f.1 = some w ∧ same f.2 w = true := by
  induction fs with
  | nil => simp [sameFields]
  | cons f fs ih =>
    obtain ⟨k, v⟩ := f
    rw [sameFields, Bool.and_eq_true, ih, List.forall_mem_cons]
    refine and_congr_left' ?_
    cases hlookup : gs.lookup k <;> simp

/-- With keys that are told apart, fields are the same if the keys are and what is under them. -/
theorem same_obj_iff {fs gs : List (String × Value)} (hfs : (Entries.keys fs).Nodup)
    (hgs : (Entries.keys gs).Nodup) :
    same (obj fs) (obj gs) = true ↔ (∀ k, k ∈ Entries.keys fs ↔ k ∈ Entries.keys gs) ∧
      ∀ k v w, (k, v) ∈ fs → (k, w) ∈ gs → same v w = true := by
  rw [same, Bool.and_eq_true, beq_iff_eq, sameFields_iff]
  constructor
  · rintro ⟨hlength, hfields⟩
    have hsub : Entries.keys fs ⊆ Entries.keys gs := by
      intro k hk
      obtain ⟨f, hf, rfl⟩ := List.mem_map.mp hk
      obtain ⟨w, hlookup, -⟩ := hfields f hf
      exact List.mem_map.mpr ⟨_, (Entries.lookup_eq_some_iff_mem hgs f.1 w).mp hlookup, rfl⟩
    have hperm : (Entries.keys fs).Perm (Entries.keys gs) :=
      (hfs.subperm hsub).perm_of_length_le (by simp [Entries.keys, hlength])
    refine ⟨fun _ => hperm.mem_iff, fun k v w hv hw => ?_⟩
    obtain ⟨w', hlookup, hsame⟩ := hfields (k, v) hv
    rw [(Entries.lookup_eq_some_iff_mem hgs k w).mpr hw] at hlookup
    obtain rfl := Option.some.inj hlookup
    exact hsame
  · rintro ⟨hkeys, hvalues⟩
    have hperm : (Entries.keys fs).Perm (Entries.keys gs) :=
      (List.perm_ext_iff_of_nodup hfs hgs).mpr hkeys
    refine ⟨by simpa [Entries.keys] using hperm.length_eq, fun f hf => ?_⟩
    obtain ⟨g, hg, hkey⟩ := List.mem_map.mp ((hkeys f.1).mp (List.mem_map.mpr ⟨f, hf, rfl⟩))
    refine ⟨g.2, ?_, hvalues f.1 f.2 g.2 hf (hkey ▸ hg)⟩
    exact (Entries.lookup_eq_some_iff_mem hgs f.1 g.2).mpr (hkey ▸ hg)

/-- **Equality in containers.** Lists are equal if they have equal items, place by place, and
    objects if they have the same keys and equal values under them. But numbers in them must also
    have one form. -/
theorem equals_containers_iff :
    (∀ xs ys, equals (arr xs) (arr ys) = true ↔
      List.Forall₂ (fun x y => equals x y = true ∧ SameForm x y) xs ys) ∧
    ∀ fs gs, (Entries.keys fs).Nodup → (Entries.keys gs).Nodup →
      (equals (obj fs) (obj gs) = true ↔ (∀ k, k ∈ Entries.keys fs ↔ k ∈ Entries.keys gs) ∧
        ∀ k v w, (k, v) ∈ fs → (k, w) ∈ gs → equals v w = true ∧ SameForm v w) := by
  refine ⟨fun xs ys => ?_, fun fs gs hfs hgs => ?_⟩
  · show same (arr xs) (arr ys) = true ↔ _
    rw [same, sameItems_iff]
  · show same (obj fs) (obj gs) = true ↔ _
    simp only [same_obj_iff hfs hgs, same_iff]

/-- Fields in another order, and a list in each. -/
theorem equals_containers_iff_reordered :
    let fs := [("a", num (.int 1)), ("b", arr [num (.float 1.0), null])]
    let gs := [("b", arr [num (.float 1.0), null]), ("a", num (.int 1))]
    (Entries.keys fs).Nodup ∧ (Entries.keys gs).Nodup ∧
      (equals (obj fs) (obj gs) = true ↔ (∀ k, k ∈ Entries.keys fs ↔ k ∈ Entries.keys gs) ∧
        ∀ k v w, (k, v) ∈ fs → (k, w) ∈ gs → equals v w = true ∧ SameForm v w) := by
  intro fs gs
  have hfs : (Entries.keys fs).Nodup := by decide
  have hgs : (Entries.keys gs).Nodup := by decide
  exact ⟨hfs, hgs, equals_containers_iff.2 fs gs hfs hgs⟩

/-- Numbers that are equal make lists and objects that are not. -/
theorem equals_not_in_containers :
    equals (num (.int 1)) (num (.float 1.0)) = true ∧
      equals (arr [num (.int 1)]) (arr [num (.float 1.0)]) = false ∧
      equals (obj [("a", num (.int 1))]) (obj [("a", num (.float 1.0))]) = false := by
  decide

end ReactiveView.Value
