import Mathlib.Algebra.Group.Nat.Defs
import ReactiveView.Decimal.Binary64

/-! # Whole numbers as floats

  The float of a whole number is exact up to `2 ^ 53`. From there on the number
  may be rounded, and at last it is infinity.

  * `unpack_pack_normal`, `unpack_pack_overflow`: what packing a normal float
    leaves of it.
  * `roundWithAccuracy_exact`, `roundWithAccuracy_normal`: a mantissa of 53 bits
    is not rounded, and a longer one comes down to 53 bits.
  * `shows_ofInt`: what the float of an integer looks like.
  * `eq_or_large_of_ofInt_beq`: integers of equal floats are equal, or both are
    large.
-/

namespace ReactiveView.Decimal

open Float.Model Float.Model.UnpackedFloat

/-! ## §1. Packed and back -/

theorem log2_normal {m : Nat} (hlo : 2 ^ 52 ≤ m) (hhi : m < 2 ^ 53) : m.log2 = 52 := by
  have hle : 52 ≤ m.log2 := (Nat.le_log2 (by omega)).mpr hlo
  have hlt : m.log2 < 53 := (Nat.log2_lt (by omega)).mpr hhi
  omega

theorem ofBitVec_unpackSign (s : Sign) (e : BitVec 11) (m : BitVec 52) :
    Sign.ofBitVec (unpackSign (packComponents .binary64 s e m)) = s := by
  delta unpackSign
  simp only [packComponents, BitVec.extractLsb]
  rw [BitVec.extractLsb'_append_eq_of_le (by omega), BitVec.extractLsb'_append_eq_of_le (by omega)]
  cases s <;> rfl

theorem toNat_one_append {w : Nat} (v : BitVec w) : (1#1 ++ v).toNat = 2 ^ w + v.toNat := by
  rw [BitVec.toNat_append, ← Nat.shiftLeft_add_eq_or_of_lt v.isLt]
  simp [Nat.shiftLeft_eq]

theorem unpack_pack_infinity (s : Sign) : (pack (.infinity s)).unpack = .infinity s := by
  cases s <;> rfl

/-- Packing keeps a normal float. -/
theorem unpack_pack_normal (s : Sign) {m : Nat} {e : Int} (h : 0 < m) (hlo : 2 ^ 52 ≤ m)
    (hhi : m < 2 ^ 53) (helo : -1074 ≤ e) (hehi : e ≤ 971) :
    (pack (.finite s m e h)).unpack = .finite s m e h := by
  have hbiased : (e + Format.binary64.exponentBias +
      Format.binary64.mantissaBitsWithoutImplicit).toNat = (e + 1075).toNat := by
    show (e + (2 ^ (11 - 1) - 1 : Nat) + (52 : Nat)).toNat = (e + 1075).toNat
    omega
  have hexponent : (BitVec.ofNat 11 (e + 1075).toNat).toNat = (e + 1075).toNat :=
    Nat.mod_eq_of_lt (by omega)
  -- The exponents of all ones and all zeros are those of other floats.
  have hones : BitVec.ofNat 11 (e + 1075).toNat ≠ -1#11 := fun heq => by
    have htoNat : _ = 2047 := congrArg BitVec.toNat heq
    omega
  have hzeros : BitVec.ofNat 11 (e + 1075).toNat ≠ 0#11 := fun heq => by
    have htoNat : _ = 0 := congrArg BitVec.toNat heq
    omega
  have hmantissa : (1#1 ++ BitVec.ofNat 52 m).toNat = m := by
    rw [toNat_one_append, BitVec.toNat_ofNat]
    omega
  have hbias : ((Format.binary64.exponentBias : Nat) : Int) = 1023 := rfl
  have hpack : UnpackedFloat.pack .binary64 (.finite s m e h) =
      packComponents .binary64 s (BitVec.ofNat 11 (e + 1075).toNat) (BitVec.ofNat 52 m) := by
    rw [← hbiased]
    refine (if_neg ?_).trans (if_pos ?_)
    · rw [hbiased]
      show ¬ 2 ^ 11 ≤ (e + 1075).toNat + 1
      omega
    · rw [log2_normal hlo hhi]
      rfl
  show UnpackedFloat.unpack .binary64 (UnpackedFloat.pack .binary64 (.finite s m e h)) = _
  rw [hpack]
  refine (if_neg ?_).trans ((if_neg ?_).trans ?_)
  · rw [unpackExponent_packComponents]
    exact hones
  · rw [unpackExponent_packComponents]
    exact hzeros
  · rw [UnpackedFloat.finite.injEq]
    refine ⟨ofBitVec_unpackSign s _ _, ?_, ?_⟩
    · rw [unpackMantissa_packComponents]
      exact hmantissa
    · rw [unpackExponent_packComponents, hbias]
      show ((BitVec.ofNat 11 (e + 1075).toNat).toNat : Int) - (1023 + 52) = e
      omega

/-- Beyond the range of the exponent lies infinity. -/
theorem unpack_pack_overflow (s : Sign) {m : Nat} {e : Int} (h : 0 < m) (he : 971 < e) :
    (pack (.finite s m e h)).unpack = .infinity s := by
  have hpack : UnpackedFloat.pack .binary64 (.finite s m e h) = packedInfinity .binary64 s := by
    refine if_pos ?_
    show 2 ^ 11 ≤ (e + (1023 : Nat) + (52 : Nat)).toNat + 1
    omega
  show UnpackedFloat.unpack .binary64 (UnpackedFloat.pack .binary64 (.finite s m e h)) = _
  rw [hpack]
  exact unpack_pack_infinity s

/-! ## §2. Rounding -/

theorem targetExponent_eq (t : Int) : Format.binary64.targetExponent t = max (t - 53) (-1074) := rfl

/-- Zeros are shifted out without a trace. -/
theorem shiftRight_exact (m k : Nat) :
    (⟨m * 2 ^ k, false, false⟩ : ExtendedMantissa) >>> k = ⟨m, false, false⟩ := by
  show Nat.repeat ExtendedMantissa.shiftRightOne k _ = _
  induction k generalizing m with
  | zero => simp [Nat.repeat]
  | succ k ih =>
    rw [Nat.repeat, Nat.pow_succ', ← Nat.mul_assoc, ih, ExtendedMantissa.shiftRightOne]
    simp

theorem mantissa_shiftRight (em : ExtendedMantissa) (k : Nat) :
    (em >>> k).mantissa = em.mantissa / 2 ^ k := by
  show (Nat.repeat ExtendedMantissa.shiftRightOne k em).mantissa = _
  induction k with
  | zero => simp [Nat.repeat]
  | succ k ih =>
    rw [Nat.repeat, ExtendedMantissa.shiftRightOne, ih, Nat.div_div_eq_div_mul, Nat.pow_succ]

theorem log2_mul_two_pow {m : Nat} (hm : m ≠ 0) (k : Nat) : (m * 2 ^ k).log2 = m.log2 + k := by
  induction k with
  | zero => rw [Nat.pow_zero, Nat.mul_one, Nat.add_zero]
  | succ k ih =>
    rw [Nat.pow_succ', Nat.mul_left_comm, Nat.log2_two_mul, ih, Nat.add_assoc]
    exact Nat.mul_ne_zero hm (Nat.ne_of_gt (Nat.two_pow_pos k))

theorem shiftToTargetExponent_exact {m k : Nat} {e : Int} (hlo : 2 ^ 52 ≤ m) (hhi : m < 2 ^ 53)
    (he : -1074 ≤ e + k) :
    shiftToTargetExponent .binary64 (m * 2 ^ k) e .exact = (⟨m, false, false⟩, e + k) := by
  have hshift : (Format.binary64.targetExponent (totalExponent (m * 2 ^ k) e) - e).toNat = k := by
    rw [targetExponent_eq, totalExponent, log2_mul_two_pow (by omega), log2_normal hlo hhi]
    omega
  rw [shiftToTargetExponent, shiftToExponent, hshift]
  exact congrArg (·, e + k) (shiftRight_exact m k)

/-- Rounding in two steps: the bulk of the shift, and one more if the mantissa got too long. -/
theorem roundWithAccuracy_eq {s : Sign} {M m k : Nat} {e e' : Int} {em : ExtendedMantissa}
    (hfirst : shiftToTargetExponent .binary64 M e .exact = (em, e'))
    (hrounded : em.roundedMantissa = m * 2 ^ k) (hlo : 2 ^ 52 ≤ m) (hhi : m < 2 ^ 53)
    (he : -1074 ≤ e' + k) :
    roundWithAccuracy .binary64 s M e .exact = .finite s m (e' + k) (by omega) := by
  have hagain : shiftToTargetExponent .binary64 em.roundedMantissa e' .exact =
      (⟨m, false, false⟩, e' + k) := by
    rw [hrounded]
    exact shiftToTargetExponent_exact hlo hhi he
  rw [roundWithAccuracy, hfirst]
  dsimp only
  rw [hagain]
  exact dif_neg (show m ≠ 0 by omega)

/-- What fits is not rounded. -/
theorem roundWithAccuracy_exact (s : Sign) {m k : Nat} {e : Int} (hlo : 2 ^ 52 ≤ m)
    (hhi : m < 2 ^ 53) (he : -1074 ≤ e + k) :
    roundWithAccuracy .binary64 s (m * 2 ^ k) e .exact = .finite s m (e + k) (by omega) := by
  have hround := roundWithAccuracy_eq (s := s) (k := 0) (shiftToTargetExponent_exact hlo hhi he)
    (Nat.mul_one m).symm hlo hhi (by simpa using he)
  rw [hround, UnpackedFloat.finite.injEq]
  exact ⟨rfl, rfl, Int.add_zero _⟩

/-- Rounding goes up by one at most. -/
theorem roundedMantissa_bounds (em : ExtendedMantissa) :
    em.mantissa ≤ em.roundedMantissa ∧ em.roundedMantissa ≤ em.mantissa + 1 := by
  rw [ExtendedMantissa.roundedMantissa]
  fun_cases Accuracy.roundToNearestEven em.mantissa em.accuracy <;> omega

/-- What does not fit comes down to 53 bits. -/
theorem roundWithAccuracy_normal (s : Sign) {M : Nat} {e : Int} (hM : 2 ^ 52 ≤ M)
    (he : -1074 ≤ e) :
    ∃ m e' h, roundWithAccuracy .binary64 s M e .exact = .finite s m e' h ∧ 2 ^ 52 ≤ m ∧
      m < 2 ^ 53 ∧ e + (M.log2 - 52 : Nat) ≤ e' := by
  have hne : M ≠ 0 := by omega
  have hlog : 52 ≤ M.log2 := (Nat.le_log2 hne).mpr hM
  have hshift :
      (Format.binary64.targetExponent (totalExponent M e) - e).toNat = M.log2 - 52 := by
    rw [targetExponent_eq, totalExponent]
    omega
  obtain ⟨em, hfirst, hmantissa⟩ : ∃ em, shiftToTargetExponent .binary64 M e .exact =
      (em, e + (M.log2 - 52 : Nat)) ∧ em.mantissa = M / 2 ^ (M.log2 - 52) := by
    rw [shiftToTargetExponent, shiftToExponent, hshift]
    exact ⟨_, rfl, mantissa_shiftRight _ _⟩
  have hlo : 2 ^ 52 ≤ em.mantissa := by
    rw [hmantissa, Nat.le_div_iff_mul_le (Nat.two_pow_pos _), ← Nat.pow_add]
    exact (Nat.add_sub_of_le hlog).symm ▸ Nat.log2_self_le hne
  have hhi : em.mantissa < 2 ^ 53 := by
    rw [hmantissa, Nat.div_lt_iff_lt_mul (Nat.two_pow_pos _), ← Nat.pow_add]
    exact (by omega : 53 + (M.log2 - 52) = M.log2 + 1) ▸ Nat.lt_log2_self
  obtain ⟨hle, hge⟩ := roundedMantissa_bounds em
  by_cases hover : em.roundedMantissa = 2 ^ 53
  · exact ⟨_, _, _, roundWithAccuracy_eq (m := 2 ^ 52) (k := 1) hfirst hover (by omega) (by omega)
      (by omega), by omega, by omega, by omega⟩
  · exact ⟨_, _, _, roundWithAccuracy_eq (k := 0) hfirst (Nat.mul_one _).symm (by omega) (by omega)
      (by omega), by omega, by omega, by omega⟩

/-! ## §3. The float of a whole number -/

/-- The number `n` as a normal float, if it fits. -/
def exactForm (s : Sign) (n : Nat) (hn : n ≠ 0) : UnpackedFloat :=
  .finite s (n * 2 ^ (52 - n.log2)) (n.log2 - 52)
    (Nat.mul_pos (Nat.pos_of_ne_zero hn) (Nat.two_pow_pos _))

section fits

variable {n : Nat} (hn : n ≠ 0) (hlt : n < 2 ^ 53)

include hn hlt

theorem mantissa_bounds :
    2 ^ 52 ≤ n * 2 ^ (52 - n.log2) ∧ n * 2 ^ (52 - n.log2) < 2 ^ 53 := by
  have hlog : n.log2 < 53 := (Nat.log2_lt hn).mpr hlt
  have hlo := Nat.mul_le_mul_right (2 ^ (52 - n.log2)) (Nat.log2_self_le hn)
  have hhi := Nat.mul_lt_mul_of_pos_right (Nat.lt_log2_self (n := n))
    (Nat.two_pow_pos (52 - n.log2))
  rw [← Nat.pow_add, show n.log2 + (52 - n.log2) = 52 by omega] at hlo
  rw [← Nat.pow_add, show n.log2 + 1 + (52 - n.log2) = 53 by omega] at hhi
  exact ⟨hlo, hhi⟩

theorem unpack_pack_exactForm (s : Sign) :
    (pack (exactForm s n hn)).unpack = exactForm s n hn := by
  obtain ⟨hlo, hhi⟩ := mantissa_bounds hn hlt
  have hlog : n.log2 < 53 := (Nat.log2_lt hn).mpr hlt
  exact unpack_pack_normal s _ hlo hhi (by omega) (by omega)

/-- Rounding leaves it as it is, with `k` more zeros at the end of the mantissa. -/
theorem roundWithAccuracy_exactForm (s : Sign) (k : Nat) :
    roundWithAccuracy .binary64 s (n * 2 ^ (52 - n.log2) * 2 ^ k) (n.log2 - 52 - k) .exact =
      exactForm s n hn := by
  obtain ⟨hlo, hhi⟩ := mantissa_bounds hn hlt
  rw [roundWithAccuracy_exact s hlo hhi (by omega), exactForm, UnpackedFloat.finite.injEq]
  exact ⟨rfl, rfl, Int.sub_add_cancel _ _⟩

theorem ofNat_eq : UnpackedFloat.ofNat .binary64 n = exactForm .positive n hn := by
  have hlog : n.log2 < 53 := (Nat.log2_lt hn).mpr hlt
  have htarget : Format.binary64.targetExponent (totalExponent n 0) = n.log2 - 52 := by
    rw [targetExponent_eq, totalExponent]
    omega
  have hshift : ((0 : Int) - (n.log2 - 52)).toNat = 52 - n.log2 := by omega
  have hexponent : (0 : Int) - (52 - n.log2 : Nat) = n.log2 - 52 := by omega
  have hgt : compare (n : Int) 0 = .gt := Int.compare_eq_gt.mpr (by omega)
  rw [UnpackedFloat.ofNat, UnpackedFloat.ofInt, UnpackedFloat.normalize, hgt]
  simp only [UnpackedFloat.round, Int.toNat_natCast, htarget, decreaseExponent, hshift,
    Nat.shiftLeft_eq, hexponent]
  simpa using roundWithAccuracy_exactForm hn hlt .positive 0

/-- The float of a number that fits is exact. -/
theorem unpack_ofNat_of_lt : (Float.ofNat n).toModel.unpack = exactForm .positive n hn := by
  have hfast : Float.ofNat n = n.toUInt64.toFloat * Float.ofBits 0x3FF0000000000000 :=
    dif_pos ⟨hlt, by omega⟩
  have hone : (Float.ofBits 0x3FF0000000000000).toModel.unpack =
      .finite .positive (2 ^ 52) (-52) (by omega) := by rfl
  have htoNat : n.toUInt64.toNat = n := by
    rw [Nat.toUInt64_eq, UInt64.toNat_ofNat']
    omega
  have hfloat : n.toUInt64.toFloat.toModel.unpack = exactForm .positive n hn := by
    show (pack (UnpackedFloat.ofNat .binary64 n.toUInt64.toNat)).unpack = _
    rw [htoNat, ofNat_eq hn hlt, unpack_pack_exactForm hn hlt]
  rw [hfast]
  show (pack (UnpackedFloat.mul .binary64 n.toUInt64.toFloat.toModel.unpack
    (Float.ofBits 0x3FF0000000000000).toModel.unpack)).unpack = _
  rw [hfloat, hone]
  show (pack (roundWithAccuracy .binary64 .positive (n * 2 ^ (52 - n.log2) * 2 ^ 52)
    (n.log2 - 52 - (52 : Nat)) .exact)).unpack = _
  rw [roundWithAccuracy_exactForm hn hlt, unpack_pack_exactForm hn hlt]

end fits

/-- What the float of a whole number looks like: exact, or at a scale where not every whole
    number has a float of its own. -/
inductive Shows : Int → UnpackedFloat → Prop where
  /-- Zero. -/
  | zero : Shows 0 (.zero .positive)
  /-- A number that fits. -/
  | exact (s : Sign) {n : Nat} (hn : n ≠ 0) (hlt : n < 2 ^ 53) :
      Shows (s.apply n) (exactForm s n hn)
  /-- A number that may have been rounded. -/
  | rounded (s : Sign) {n m : Nat} {e : Int} (h : 0 < m) (hle : 2 ^ 53 ≤ n) (hlo : 2 ^ 52 ≤ m)
      (hhi : m < 2 ^ 53) (helo : 1 ≤ e) (hehi : e ≤ 971) : Shows (s.apply n) (.finite s m e h)
  /-- A number beyond all floats. -/
  | infinite (s : Sign) {n : Nat} (hle : 2 ^ 53 ≤ n) : Shows (s.apply n) (.infinity s)

theorem shows_ofNat_of_le {n : Nat} (hle : 2 ^ 53 ≤ n) :
    Shows n (Float.ofNat n).toModel.unpack := by
  have hn : n ≠ 0 := by omega
  have hlog : 53 ≤ n.log2 := (Nat.le_log2 hn).mpr hle
  have hslow : Float.ofNat n = .ofModel (Float.Model.ofScientific n 0) := dif_neg (by omega)
  have hscientific : UnpackedFloat.ofScientific .binary64 n 0 =
      roundWithAccuracy .binary64 .positive (n * 2 ^ 53) (-53) .exact := by
    rw [UnpackedFloat.ofScientific, dif_neg hn, if_neg (by decide),
      if_neg (show ¬(0 : Int) < -(2 ^ 11 + n.log2) by omega), if_pos (Int.le_refl 0)]
    show roundWithAccuracy .binary64 .positive (n <<< 53 * 1) (-53) .exact = _
    rw [Nat.mul_one, Nat.shiftLeft_eq]
  obtain ⟨m, e, h, hround, hlo, hhi, he⟩ :=
    roundWithAccuracy_normal .positive (M := n * 2 ^ 53) (e := -53) (by omega) (by omega)
  rw [log2_mul_two_pow hn] at he
  rw [hslow]
  show Shows n (pack (UnpackedFloat.ofScientific .binary64 n 0)).unpack
  rw [hscientific, hround]
  by_cases hehi : e ≤ 971
  · rw [unpack_pack_normal _ _ hlo hhi (by omega) hehi]
    exact .rounded .positive h hle hlo hhi (by omega) hehi
  · rw [unpack_pack_overflow _ _ (by omega)]
    exact .infinite .positive hle

theorem shows_ofNat (n : Nat) : Shows n (Float.ofNat n).toModel.unpack := by
  by_cases hn : n = 0
  · subst hn
    have hzero : (Float.ofNat 0).toModel.unpack = .zero .positive := by rfl
    rw [hzero]
    exact .zero
  by_cases hlt : n < 2 ^ 53
  · rw [unpack_ofNat_of_lt hn hlt]
    exact .exact .positive hn hlt
  · exact shows_ofNat_of_le (Nat.le_of_not_lt hlt)

/-- A number that is not zero and its negation look alike. -/
theorem Shows.neg {n : Int} {u : UnpackedFloat} (h : Shows n u) (hn : n ≠ 0) :
    Shows (-n) (pack u.neg).unpack := by
  have happly : ∀ (s : Sign) (n : Nat), -s.apply n = (-s).apply n := by
    intro s n
    cases s
    · exact Int.neg_neg _
    · rfl
  cases h with
  | zero => exact absurd rfl hn
  | exact s hpos hlt =>
    show Shows _ (pack (exactForm (-s) _ hpos)).unpack
    rw [unpack_pack_exactForm hpos hlt, happly]
    exact .exact (-s) hpos hlt
  | rounded s h hle hlo hhi helo hehi =>
    show Shows _ (pack (.finite (-s) _ _ h)).unpack
    rw [unpack_pack_normal _ h hlo hhi (by omega) hehi, happly]
    exact .rounded (-s) h hle hlo hhi helo hehi
  | infinite s hle =>
    show Shows _ (pack (.infinity (-s))).unpack
    rw [unpack_pack_infinity, happly]
    exact .infinite (-s) hle

/-- **The float of an integer** is zero, exact, rounded at a large scale, or infinite. -/
theorem shows_ofInt (n : Int) : Shows n (Float.ofInt n).toModel.unpack := by
  cases n with
  | ofNat n => exact shows_ofNat n
  | negSucc n => exact (shows_ofNat (n + 1)).neg (by omega)

/-! ## §4. Equal floats -/

theorem beq_def (f g : Float) : (f == g) = f.toModel.unpack.beq g.toModel.unpack := rfl

/-- Floats that are neither zero nor infinite are compared part by part. -/
theorem compare_finite_eq_iff {s t : Sign} {m m' : Nat} {e e' : Int} {h : 0 < m} {h' : 0 < m'} :
    UnpackedFloat.compare (.finite s m e h) (.finite t m' e' h') = some .eq ↔
      s = t ∧ m = m' ∧ e = e' := by
  cases s with
  | positive =>
    cases t with
    | positive =>
      show some ((compare e e').then (compare m m')) = some .eq ↔ _
      simp [Ordering.then_eq_eq, and_comm]
    | negative => exact ⟨nofun, nofun⟩
  | negative =>
    cases t with
    | positive => exact ⟨nofun, nofun⟩
    | negative =>
      show some ((compare e e').then (compare m m')).swap = some .eq ↔ _
      simp [Ordering.then_eq_eq, and_comm]

theorem compare_self_of_ne {u : UnpackedFloat} (h : u ≠ .notANumber) :
    u.compare u = some .eq := by
  cases u with
  | notANumber => exact absurd rfl h
  | infinity s => cases s <;> rfl
  | zero s => rfl
  | finite s m e hm => exact compare_finite_eq_iff.mpr ⟨rfl, rfl, rfl⟩

/-- Floats are equal if they are the same number, or if both are zero. -/
theorem beq_eq_true_iff {u v : UnpackedFloat} :
    u.beq v = true ↔ u = v ∧ u ≠ .notANumber ∨ ∃ s t, u = .zero s ∧ v = .zero t := by
  show (u.compare v == some .eq) = true ↔ _
  rw [beq_iff_eq]
  constructor
  · intro h
    cases u with
    | notANumber => cases v <;> nomatch h
    | infinity s =>
      cases v with
      | infinity t => cases s <;> cases t <;> first | exact .inl ⟨rfl, nofun⟩ | nomatch h
      | _ => cases s <;> nomatch h
    | zero s =>
      cases v with
      | zero t => exact .inr ⟨s, t, rfl, rfl⟩
      | notANumber => nomatch h
      | infinity t | finite t => cases t <;> nomatch h
    | finite s m e hm =>
      cases v with
      | finite t m' e' hm' =>
        obtain ⟨rfl, rfl, rfl⟩ := compare_finite_eq_iff.mp h
        exact .inl ⟨rfl, nofun⟩
      | notANumber => nomatch h
      | infinity t => cases t <;> nomatch h
      | zero t => cases s <;> nomatch h
  · rintro (⟨rfl, hne⟩ | ⟨s, t, rfl, rfl⟩)
    · exact compare_self_of_ne hne
    · rfl

theorem zero_le_iff (f : Float) :
    0.0 ≤ f ↔ (UnpackedFloat.zero .positive).le f.toModel.unpack = true := by
  have hzero : (0.0 : Float).toModel.unpack = .zero .positive := by rfl
  rw [← hzero]
  exact decide_eq_true_iff

theorem ofFloat_congr {x y : Float} (h : x.toModel.unpack = y.toModel.unpack) :
    Binary64.ofFloat x = Binary64.ofFloat y := by rw [Binary64.ofFloat, h, ← Binary64.ofFloat]

theorem natAbs_apply (s : Sign) (n : Nat) : (s.apply n).natAbs = n := by
  cases s
  · exact Int.natAbs_neg n
  · rfl

/-- Only from `2 ^ 53` on do two whole numbers look alike. -/
theorem Shows.eq_or_large {m n : Int} {u v : UnpackedFloat} (hm : Shows m u) (hn : Shows n v)
    (h : u = v) : m = n ∨ 2 ^ 53 ≤ m.natAbs ∧ 2 ^ 53 ≤ n.natAbs := by
  cases hm with
  | zero =>
    cases hn with
    | zero => exact .inl rfl
    | _ => exact UnpackedFloat.noConfusion h
  | exact s hpos hlt =>
    have hlog := (Nat.log2_lt hpos).mpr hlt
    cases hn with
    | exact t hpos' hlt' =>
      obtain ⟨rfl, hmantissa, hexponent⟩ := UnpackedFloat.finite.inj h
      -- The exponents tell the lengths of the numbers, so the mantissas tell the numbers.
      rw [Int.ofNat_inj.mp (Int.sub_left_inj 52 |>.mp hexponent)] at hmantissa
      rw [Nat.eq_of_mul_eq_mul_right (Nat.two_pow_pos _) hmantissa]
      exact .inl rfl
    | rounded t hpos' hle hlo hhi helo hehi =>
      obtain ⟨-, -, hexponent⟩ := UnpackedFloat.finite.inj h
      omega
    | _ => exact UnpackedFloat.noConfusion h
  | rounded s hpos hle hlo hhi helo hehi =>
    cases hn with
    | exact t hpos' hlt' =>
      have hlog := (Nat.log2_lt hpos').mpr hlt'
      obtain ⟨-, -, hexponent⟩ := UnpackedFloat.finite.inj h
      omega
    | rounded t hpos' hle' => exact .inr ⟨by rwa [natAbs_apply], by rwa [natAbs_apply]⟩
    | _ => exact UnpackedFloat.noConfusion h
  | infinite s hle =>
    cases hn with
    | infinite t hle' => exact .inr ⟨by rwa [natAbs_apply], by rwa [natAbs_apply]⟩
    | _ => exact UnpackedFloat.noConfusion h

/-- The float of an integer is a number. -/
theorem ofInt_beq_self (n : Int) : (Float.ofInt n == Float.ofInt n) = true := by
  rw [beq_def, beq_eq_true_iff]
  refine .inl ⟨rfl, fun hnan => ?_⟩
  have hshows := shows_ofInt n
  rw [hnan] at hshows
  cases hshows

/-- **Integers of equal floats** are equal, or both are large. -/
theorem eq_or_large_of_ofInt_beq {m n : Int} (h : (Float.ofInt m == Float.ofInt n) = true) :
    m = n ∨ 2 ^ 53 ≤ m.natAbs ∧ 2 ^ 53 ≤ n.natAbs := by
  have hm := shows_ofInt m
  have hn := shows_ofInt n
  rcases beq_eq_true_iff.mp h with ⟨heq, -⟩ | ⟨s, t, hs, ht⟩
  · exact hm.eq_or_large hn heq
  · rw [hs] at hm
    rw [ht] at hn
    cases hm
    cases hn
    exact .inl rfl

end ReactiveView.Decimal
