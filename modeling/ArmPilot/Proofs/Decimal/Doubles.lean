import Mathlib
import ArmPilot.Proofs.Decimal.Shortest

/-!
# Doubles as numbers

A finite double stands for a fraction, its value, which can be told from its word: from the sign, the field of the
exponent and the bits of the mantissa.  The language compares doubles, turns their signs around and makes them of
words by way of `UnpackedFloat`; on finite doubles all of that is what it is on their values.  The double nearest to
an integer is finite, too, and its value is the integer as it is rounded to 53 bits.
-/

namespace ArmPilot
namespace Decimal

open Float.Model Float.Model.UnpackedFloat

/-! ## The fields of a word -/

/-- The field of the exponent in a word; all of its bits are set in the infinities, and in no number. -/
def exponentField (w : UInt64) : Nat := w.toNat / Binary.hidden % 2048

namespace Binary

/-- The parts of the double that has the bits of a word. -/
def ofWord (w : UInt64) : Binary :=
  if exponentField w = 0 then ⟨w.toNat / 2 ^ 63 = 1, w.toNat % hidden, -1074⟩
  else ⟨w.toNat / 2 ^ 63 = 1, hidden + w.toNat % hidden, (exponentField w : Int) - 1075⟩

theorem ofFloat_eq (x : Float) : ofFloat x = ofWord x.toBits := rfl

theorem negative_ofWord (w : UInt64) : (ofWord w).negative = decide (w.toNat / 2 ^ 63 = 1) := by
  unfold ofWord
  split <;> rfl

/-- The sign of a binary. -/
def sign (b : Binary) : Sign := if b.negative then .negative else .positive

end Binary

/-! ## How the language takes a word apart -/

theorem toNat_unpackExponent (w : UInt64) :
    (@unpackExponent Format.binary64 w.toBitVec).toNat = exponentField w := by
  simp [unpackExponent, BitVec.extractLsb, BitVec.extractLsb', Nat.shiftRight_eq_div_pow, exponentField, Binary.hidden]

theorem toNat_unpackMantissa (w : UInt64) :
    (@unpackMantissa Format.binary64 w.toBitVec).toNat = w.toNat % Binary.hidden := by
  simp [unpackMantissa, BitVec.extractLsb, BitVec.extractLsb', Binary.hidden]

theorem unpackExponent_eq_iff {w : UInt64} {n : Nat} (hn : n < 2048) :
    @unpackExponent Format.binary64 w.toBitVec = BitVec.ofNat 11 n ↔ exponentField w = n := by
  have hn : (BitVec.ofNat 11 n).toNat = n := Nat.mod_eq_of_lt hn
  rw [← BitVec.toNat_inj, toNat_unpackExponent, hn]

theorem ofBitVec_unpackSign (w : UInt64) :
    Sign.ofBitVec (@unpackSign Format.binary64 w.toBitVec) = (Binary.ofWord w).sign := by
  have hlt : w.toNat < 2 ^ 64 := w.toBitVec.isLt
  have hsign : (@unpackSign Format.binary64 w.toBitVec).toNat = w.toNat / 2 ^ 63 := by
    simp [unpackSign, BitVec.extractLsb, BitVec.extractLsb', Nat.shiftRight_eq_div_pow]
    omega
  have hzero : @unpackSign Format.binary64 w.toBitVec = 0#1 ↔ w.toNat / 2 ^ 63 = 0 := by
    rw [← BitVec.toNat_inj, hsign]
    rfl
  simp only [Binary.sign, Binary.negative_ofWord, Sign.ofBitVec, hzero, decide_eq_true_eq]
  split <;> split <;> first | rfl | omega

theorem finite_congr {s : Sign} {m m' : Nat} {e e' : Int} (hm : m = m') (he : e = e') (h : 0 < m) :
    UnpackedFloat.finite s m e h = .finite s m' e' (hm ▸ h) := by
  subst hm he
  rfl

/-- The word of a number. -/
theorem unpack_of_ne {w : UInt64} (h : exponentField w ≠ 2047) :
    UnpackedFloat.unpack Format.binary64 w.toBitVec =
      if h : (Binary.ofWord w).mantissa = 0 then .zero (Binary.ofWord w).sign
      else .finite (Binary.ofWord w).sign (Binary.ofWord w).mantissa (Binary.ofWord w).exponent
        (Nat.pos_of_ne_zero h) := by
  have hlast : @unpackExponent Format.binary64 w.toBitVec ≠ -1#11 :=
    mt (unpackExponent_eq_iff (by decide)).1 h
  have hfirst := unpackExponent_eq_iff (w := w) (n := 0) (by decide)
  have hzero : @unpackMantissa Format.binary64 w.toBitVec = 0#52 ↔ w.toNat % Binary.hidden = 0 := by
    rw [← BitVec.toNat_inj, toNat_unpackMantissa]
    rfl
  have hbias : (Format.binary64.exponentBias : Int) = 1023 := rfl
  unfold UnpackedFloat.unpack
  simp only [ofBitVec_unpackSign]
  rw [if_neg hlast]
  by_cases hsubnormal : exponentField w = 0
  · have hparts : Binary.ofWord w = ⟨w.toNat / 2 ^ 63 = 1, w.toNat % Binary.hidden, -1074⟩ := if_pos hsubnormal
    rw [if_pos (hfirst.2 hsubnormal), hparts]
    by_cases hm : w.toNat % Binary.hidden = 0
    · rw [dif_pos (hzero.2 hm), dif_pos hm]
    · rw [dif_neg (mt hzero.1 hm), dif_neg hm]
      refine finite_congr (toNat_unpackMantissa w) ?_ _
      rw [toNat_unpackExponent, hsubnormal, hbias]
      rfl
  · have hparts : Binary.ofWord w = ⟨w.toNat / 2 ^ 63 = 1, Binary.hidden + w.toNat % Binary.hidden,
        (exponentField w : Int) - 1075⟩ := if_neg hsubnormal
    rw [if_neg (mt hfirst.1 hsubnormal), hparts, dif_neg (Nat.add_pos_left (by decide) _).ne']
    refine finite_congr ?_ ?_ _
    · rw [BitVec.toNat_append, ← Nat.shiftLeft_add_eq_or_of_lt (BitVec.isLt _), toNat_unpackMantissa]
      rfl
    · rw [toNat_unpackExponent, hbias]
      rfl

/-- The word of no number. -/
theorem unpack_of_eq {w : UInt64} (h : exponentField w = 2047) :
    UnpackedFloat.unpack Format.binary64 w.toBitVec = .infinity (Binary.ofWord w).sign ∨
      UnpackedFloat.unpack Format.binary64 w.toBitVec = .notANumber := by
  have hlast : @unpackExponent Format.binary64 w.toBitVec = -1#11 := (unpackExponent_eq_iff (by decide)).2 h
  unfold UnpackedFloat.unpack
  simp only [ofBitVec_unpackSign]
  rw [if_pos hlast]
  split
  · exact .inl rfl
  · exact .inr rfl

/-- Whether a double is a number. -/
def IsFinite (x : Float) : Prop := exponentField x.toBits ≠ 2047

instance (x : Float) : Decidable (IsFinite x) := inferInstanceAs (Decidable (_ ≠ _))

theorem isFinite_iff {x : Float} : IsFinite x ↔ (x.isNaN || x.isInf) = false := by
  have hunpack : (x.isNaN || x.isInf) = ((UnpackedFloat.unpack Format.binary64 x.toBits.toBitVec).isNaN ||
      (UnpackedFloat.unpack Format.binary64 x.toBits.toBitVec).isInf) := rfl
  rw [hunpack, IsFinite]
  by_cases h : exponentField x.toBits = 2047
  · obtain hx | hx := unpack_of_eq h
    · simp [hx, h, UnpackedFloat.isInf]
    · simp [hx, h, UnpackedFloat.isNaN]
  · rw [unpack_of_ne h]
    split
    · simp [h, UnpackedFloat.isNaN, UnpackedFloat.isInf]
    · simp [h, UnpackedFloat.isNaN, UnpackedFloat.isInf]

/-! ## Values -/

/-- A number with a sign in front. -/
def signed (s : Sign) (q : ℚ) : ℚ :=
  match s with
  | .positive => q
  | .negative => -q

/-- The exact value of a binary. -/
def Binary.value (b : Binary) : ℚ := signed b.sign (b.mantissa * 2 ^ b.exponent)

/-- The fraction of a binary is its absolute value. -/
theorem Binary.fraction_eq (b : Binary) : (b.numerator / b.denominator : ℚ) = b.mantissa * 2 ^ b.exponent := by
  have hpow := base_zpow 2 b.exponent
  push_cast at hpow
  rw [hpow]
  unfold numerator denominator
  split
  · rw [mul_one_div]
  · push_cast
    rw [div_one]

/-- The fraction of a binary is the amount of its value. -/
theorem Binary.fraction_eq_abs (b : Binary) : (b.numerator / b.denominator : ℚ) = |b.value| := by
  have hnonneg : (0 : ℚ) ≤ b.mantissa * 2 ^ b.exponent := by positivity
  rw [Binary.fraction_eq, Binary.value]
  cases b.sign
  · exact (abs_of_nonneg hnonneg).symm.trans (abs_neg _).symm
  · exact (abs_of_nonneg hnonneg).symm

theorem signed_zero (s : Sign) : signed s 0 = 0 := by
  cases s
  · exact neg_zero
  · rfl

/-- The exact value of a finite double. -/
def value (x : Float) : ℚ := (Binary.ofFloat x).value

/-- What the mantissa and the exponent of a finite double are like. -/
structure Canonical (m : Nat) (e : Int) : Prop where
  mantissa : m < 2 ^ 53
  least : -1074 ≤ e
  greatest : e ≤ 971
  /-- The first bit of the mantissa is set unless the exponent cannot be less. -/
  normal : 2 ^ 52 ≤ m ∨ e = -1074

theorem canonical_ofWord {w : UInt64} (h : exponentField w ≠ 2047) :
    Canonical (Binary.ofWord w).mantissa (Binary.ofWord w).exponent := by
  have hfraction : w.toNat % Binary.hidden < Binary.hidden := Nat.mod_lt _ (by decide)
  have hfield : exponentField w < 2048 := Nat.mod_lt _ (by decide)
  have hhidden : Binary.hidden = 2 ^ 52 := rfl
  unfold Binary.ofWord
  split
  · exact ⟨by dsimp only; omega, le_rfl, (by decide : (-1074 : Int) ≤ 971), .inr rfl⟩
  · exact ⟨by dsimp only; omega, by dsimp only; omega, by dsimp only; omega, .inl (by dsimp only; omega)⟩

namespace Canonical

variable {m m' : Nat} {e e' : Int}

/-- The greatest number below a power of two has a mantissa of ones. -/
theorem le_of_lt (h : Canonical m e) {k : Int} (hk : -1074 ≤ k) (hlt : (m * 2 ^ e : ℚ) < 2 ^ 53 * 2 ^ k) :
    (m * 2 ^ e : ℚ) ≤ (2 ^ 53 - 1) * 2 ^ k := by
  have he : e ≤ k := by
    by_contra hgt
    have hm : (2 : ℚ) ^ 52 ≤ m := by exact_mod_cast h.normal.resolve_right (by omega)
    have hpow : (2 : ℚ) ^ (k + 1) ≤ 2 ^ e := zpow_le_zpow_right₀ (by norm_num) (by omega)
    refine hlt.not_ge ?_
    calc (2 ^ 53 * 2 ^ k : ℚ) = 2 ^ 52 * 2 ^ (k + 1) := by rw [zpow_add_one₀ (by norm_num)]; ring
      _ ≤ m * 2 ^ e := by gcongr
  have hm : (m : ℚ) ≤ 2 ^ 53 - 1 := by
    rw [le_sub_iff_add_le]
    exact_mod_cast h.mantissa
  have hpow : (2 : ℚ) ^ e ≤ 2 ^ k := zpow_le_zpow_right₀ (by norm_num) he
  gcongr

/-- Of two numbers the one with the greater exponent is the greater. -/
theorem lt_of_exponent_lt (h : Canonical m e) (h' : Canonical m' e') (he : e < e') :
    (m * 2 ^ e : ℚ) < m' * 2 ^ e' := by
  have hm : (m : ℚ) < 2 ^ 53 := by exact_mod_cast h.mantissa
  have hm' : (2 : ℚ) ^ 52 ≤ m' := by exact_mod_cast h'.normal.resolve_right (by have := h.least; omega)
  have hpow : (2 : ℚ) ^ (e + 1) ≤ 2 ^ e' := zpow_le_zpow_right₀ (by norm_num) (by omega)
  calc (m * 2 ^ e : ℚ) < 2 ^ 53 * 2 ^ e := by gcongr
    _ = 2 ^ 52 * 2 ^ (e + 1) := by rw [zpow_add_one₀ (by norm_num)]; ring
    _ ≤ m' * 2 ^ e' := by gcongr

/-- Numbers compare by their exponents first, then by their mantissas. -/
theorem compare_eq (h : Canonical m e) (h' : Canonical m' e') :
    (compare e e').then (compare m m') = compare (m * 2 ^ e : ℚ) (m' * 2 ^ e') := by
  obtain he | rfl | he := lt_trichotomy e e'
  · rw [compare_lt_iff_lt.2 he, compare_lt_iff_lt.2 (h.lt_of_exponent_lt h' he)]
    rfl
  · rw [compare_eq_iff_eq.2 rfl]
    have hpow : (0 : ℚ) < 2 ^ e := zpow_pos (by norm_num) _
    obtain hm | rfl | hm := lt_trichotomy m m'
    · have hvalue : (m * 2 ^ e : ℚ) < m' * 2 ^ e := by gcongr
      rw [compare_lt_iff_lt.2 hm, compare_lt_iff_lt.2 hvalue]
      rfl
    · rw [compare_eq_iff_eq.2 rfl, compare_eq_iff_eq.2 rfl]
      rfl
    · have hvalue : (m' * 2 ^ e : ℚ) < m * 2 ^ e := by gcongr
      rw [compare_gt_iff_gt.2 hm, compare_gt_iff_gt.2 hvalue]
      rfl
  · rw [compare_gt_iff_gt.2 he, compare_gt_iff_gt.2 (h'.lt_of_exponent_lt h he)]
    rfl

end Canonical

/-- Below a power of two there is a gap. -/
theorem value_le_of_lt {x : Float} (hx : IsFinite x) {k : Int} (hk : -1074 ≤ k) (hlt : value x < 2 ^ 53 * 2 ^ k) :
    value x ≤ (2 ^ 53 - 1) * 2 ^ k := by
  rw [value, Binary.value] at hlt ⊢
  cases hsign : (Binary.ofFloat x).sign with
  | positive =>
    rw [hsign] at hlt
    exact (canonical_ofWord hx).le_of_lt hk hlt
  | negative =>
    have hnonneg : (0 : ℚ) ≤ (2 ^ 53 - 1) * 2 ^ k := mul_nonneg (by norm_num) (by positivity)
    exact (neg_nonpos.2 (by positivity)).trans hnonneg

/-- The exact value of a number as the language takes it apart. -/
def unpackedValue : UnpackedFloat → ℚ
  | .finite s m e _ => signed s (m * 2 ^ e)
  | _ => 0

/-- A number that the language can take a double apart into. -/
inductive Sound : UnpackedFloat → Prop
  | zero (s : Sign) : Sound (.zero s)
  | finite (s : Sign) {m : Nat} {e : Int} (h : Canonical m e) (hm : 0 < m) : Sound (.finite s m e hm)

/-- A word of a number is taken apart into a number of the same value. -/
theorem sound_unpack {w : UInt64} (h : exponentField w ≠ 2047) :
    Sound (UnpackedFloat.unpack Format.binary64 w.toBitVec) ∧
      unpackedValue (UnpackedFloat.unpack Format.binary64 w.toBitVec) = (Binary.ofWord w).value := by
  rw [unpack_of_ne h]
  split
  · rename_i hm
    rw [Binary.value, hm, Nat.cast_zero, zero_mul, signed_zero]
    exact ⟨.zero _, rfl⟩
  · exact ⟨.finite _ (canonical_ofWord h) _, rfl⟩

/-- Numbers are compared as what they stand for. -/
theorem Sound.compare_eq {u v : UnpackedFloat} (hu : Sound u) (hv : Sound v) :
    u.compare v = some (compare (unpackedValue u) (unpackedValue v)) := by
  have hpos {m : Nat} (hm : 0 < m) (e : Int) : (0 : ℚ) < m * 2 ^ e :=
    mul_pos (by exact_mod_cast hm) (zpow_pos (by norm_num) e)
  have hlt {a b : ℚ} (h : a < b) : some Ordering.lt = some (compare a b) := congrArg some (compare_lt_iff_lt.2 h).symm
  have hgt {a b : ℚ} (h : b < a) : some Ordering.gt = some (compare a b) := congrArg some (compare_gt_iff_gt.2 h).symm
  cases hu with
  | zero s => cases hv with
    | zero t => exact congrArg some (compare_eq_iff_eq.2 rfl).symm
    | finite t h' hm' => cases t with
      | positive => exact hlt (hpos hm' _)
      | negative => exact hgt (neg_neg_of_pos (hpos hm' _))
  | finite s h hm => cases hv with
    | zero t => cases s with
      | positive => exact hgt (hpos hm _)
      | negative => exact hlt (neg_neg_of_pos (hpos hm _))
    | finite t h' hm' => cases s with
      | positive => cases t with
        | positive => exact congrArg some (h.compare_eq h')
        | negative => exact hgt ((neg_neg_of_pos (hpos hm' _)).trans (hpos hm _))
      | negative => cases t with
        | positive => exact hlt ((neg_neg_of_pos (hpos hm _)).trans (hpos hm' _))
        | negative =>
          refine congrArg some ((congrArg Ordering.swap (h.compare_eq h')).trans ?_)
          rw [← cmp_eq_compare, ← cmp_eq_compare, cmp_swap]
          exact (StrictAnti.cmp_map_eq (f := fun q : ℚ => -q) (fun _ _ h => neg_lt_neg h) _ _).symm

theorem compare_unpack {x y : Float} (hx : IsFinite x) (hy : IsFinite y) :
    x.toModel.unpack.compare y.toModel.unpack = some (compare (value x) (value y)) := by
  obtain ⟨hx, hxvalue⟩ := sound_unpack hx
  obtain ⟨hy, hyvalue⟩ := sound_unpack hy
  exact (hx.compare_eq hy).trans (by rw [hxvalue, hyvalue]; rfl)

/-- **Finite doubles compare as their exact values do.** -/
theorem lt_iff {x y : Float} (hx : IsFinite x) (hy : IsFinite y) : x < y ↔ value x < value y := by
  have hlt : x < y ↔ (x.toModel.unpack.compare y.toModel.unpack == some .lt) = true := decide_eq_true_iff
  rw [hlt, compare_unpack hx hy, beq_iff_eq, Option.some_inj, compare_lt_iff_lt]

theorem le_iff {x y : Float} (hx : IsFinite x) (hy : IsFinite y) : x ≤ y ↔ value x ≤ value y := by
  have hle : x ≤ y ↔ (x.toModel.unpack.compare y.toModel.unpack).any (·.isLE) = true := decide_eq_true_iff
  rw [hle, compare_unpack hx hy, Option.any_some, ← compare_le_iff_le]
  cases compare (value x) (value y) <;> simp

/-! ## How the language puts a number together -/

theorem toNat_packComponents (s : Sign) (field : BitVec 11) (fraction : BitVec 52) :
    (packComponents Format.binary64 s field fraction).toNat =
      s.toBitVec.toNat * 2 ^ 63 + field.toNat * 2 ^ 52 + fraction.toNat := by
  have hfield := field.isLt
  have hfraction := fraction.isLt
  unfold packComponents
  rw [BitVec.toNat_append, ← Nat.shiftLeft_add_eq_or_of_lt fraction.isLt, BitVec.toNat_append,
    ← Nat.shiftLeft_add_eq_or_of_lt field.isLt, Nat.shiftLeft_eq, Nat.shiftLeft_eq]
  omega

/-- The parts of a word that is put together. -/
theorem ofWord_packComponents (s : Sign) (field : BitVec 11) (fraction : BitVec 52) :
    let w : UInt64 := .ofBitVec (packComponents Format.binary64 s field fraction)
    exponentField w = field.toNat ∧ (Binary.ofWord w).sign = s ∧
      (Binary.ofWord w).mantissa =
        (if field.toNat = 0 then fraction.toNat else Binary.hidden + fraction.toNat) ∧
      (Binary.ofWord w).exponent = if field.toNat = 0 then -1074 else (field.toNat : Int) - 1075 := by
  intro w
  have hw : w.toNat = s.toBitVec.toNat * 2 ^ 63 + field.toNat * 2 ^ 52 + fraction.toNat := toNat_packComponents _ _ _
  have hs := s.toBitVec.isLt
  have hfield := field.isLt
  have hfraction := fraction.isLt
  have hexponent : exponentField w = field.toNat := by
    rw [exponentField, hw, Binary.hidden]
    omega
  have hmantissa : w.toNat % Binary.hidden = fraction.toNat := by
    rw [hw, Binary.hidden]
    omega
  have hbit : w.toNat / 2 ^ 63 = s.toBitVec.toNat := by
    rw [hw]
    omega
  refine ⟨hexponent, ?_, ?_⟩
  · rw [Binary.sign, Binary.negative_ofWord, hbit]
    cases s <;> rfl
  · rw [Binary.ofWord, hexponent, hmantissa]
    split
    · exact ⟨rfl, rfl⟩
    · exact ⟨rfl, rfl⟩

/-- The word of a number in its parts. -/
theorem pack_finite (s : Sign) {m : Nat} {e : Int} (h : Canonical m e) (hm : 0 < m) :
    UnpackedFloat.pack Format.binary64 (.finite s m e hm) =
      packComponents Format.binary64 s (if 2 ^ 52 ≤ m then .ofNat 11 (e + 1075).toNat else 0#11) (.ofNat 52 m) := by
  obtain ⟨hlt, hleast, hgreatest, -⟩ := h
  have hbias : (Format.binary64.exponentBias : Int) = 1023 := rfl
  have hfield : (e + (Format.binary64.exponentBias : Int) + (52 : Nat)).toNat = (e + 1075).toNat := by
    rw [hbias]
    omega
  have hlog : m.log2 + 1 = Format.binary64.mantissaBits ↔ 2 ^ 52 ≤ m := by
    have hupper := (Nat.log2_lt hm.ne').2 hlt
    have hlower := Nat.le_log2 (k := 52) hm.ne'
    have hbits : Format.binary64.mantissaBits = 53 := rfl
    omega
  unfold UnpackedFloat.pack
  dsimp only
  rw [hfield, if_neg (by show ¬ 2 ^ 11 ≤ _; omega)]
  simp only [hlog]
  split <;> rfl

/-- A number that is put together is a finite double of the same value. -/
theorem Sound.value_pack {u : UnpackedFloat} (hu : Sound u) :
    IsFinite (.ofModel (.pack u)) ∧ value (.ofModel (.pack u)) = unpackedValue u := by
  cases hu with
  | zero s =>
    have hmantissa : (Binary.ofFloat (.ofModel (.pack (.zero s)))).mantissa = 0 := by cases s <;> rfl
    refine ⟨by cases s <;> decide, ?_⟩
    rw [value, Binary.value, hmantissa, Nat.cast_zero, zero_mul, signed_zero]
    rfl
  | @finite s m e h hm =>
    obtain ⟨hfield, hsign, hmantissa, hexponent⟩ :=
      ofWord_packComponents s (if 2 ^ 52 ≤ m then .ofNat 11 (e + 1075).toNat else 0#11) (.ofNat 52 m)
    rw [← pack_finite s h hm] at hfield hsign hmantissa hexponent
    obtain ⟨hlt, hleast, hgreatest, hnormal⟩ := h
    have hbits : (Float.ofModel (.pack (.finite s m e hm))).toBits =
      .ofBitVec (UnpackedFloat.pack Format.binary64 (.finite s m e hm)) := rfl
    rw [IsFinite, value, Binary.ofFloat_eq, hbits, Binary.value, hsign, hmantissa, hexponent, hfield]
    have hfraction : (BitVec.ofNat 52 m).toNat = m % 2 ^ 52 := BitVec.toNat_ofNat ..
    have hhidden : Binary.hidden = 2 ^ 52 := rfl
    rw [hfraction, hhidden]
    by_cases hfirst : 2 ^ 52 ≤ m
    · have hnormal : (BitVec.ofNat 11 (e + 1075).toNat).toNat = (e + 1075).toNat :=
        (BitVec.toNat_ofNat ..).trans (Nat.mod_eq_of_lt (by omega))
      have hwhole : 2 ^ 52 + m % 2 ^ 52 = m := by omega
      have hback : ((e + 1075).toNat : Int) - 1075 = e := by omega
      rw [if_pos hfirst, hnormal, if_neg (by omega), if_neg (by omega), hwhole, hback]
      exact ⟨by omega, rfl⟩
    · obtain rfl := hnormal.resolve_left hfirst
      rw [if_neg hfirst, BitVec.toNat_zero, if_pos rfl, if_pos rfl, Nat.mod_eq_of_lt (by omega)]
      exact ⟨by omega, rfl⟩

/-! ## Operations on doubles -/

theorem Sound.neg {u : UnpackedFloat} (hu : Sound u) : Sound u.neg ∧ unpackedValue u.neg = -unpackedValue u := by
  cases hu with
  | zero s => exact ⟨.zero _, neg_zero.symm⟩
  | finite s h hm =>
    refine ⟨.finite _ h hm, ?_⟩
    cases s
    · exact (neg_neg _).symm
    · rfl

/-- A double with the sign turned around is the number with the sign turned around. -/
theorem value_neg {x : Float} (h : IsFinite x) : IsFinite (-x) ∧ value (-x) = -value x := by
  obtain ⟨hsound, hvalue⟩ := sound_unpack h
  obtain ⟨hneg, hnegvalue⟩ := hsound.neg
  exact ⟨hneg.value_pack.1, hneg.value_pack.2.trans (by rw [hnegvalue, hvalue]; rfl)⟩

/-- The double of a word is a number with the parts of the word. -/
theorem value_ofBits {w : UInt64} (h : exponentField w ≠ 2047) :
    IsFinite (.ofBits w) ∧ value (.ofBits w) = (Binary.ofWord w).value := by
  obtain ⟨hsound, hvalue⟩ := sound_unpack h
  exact ⟨hsound.value_pack.1, hsound.value_pack.2.trans hvalue⟩

/-! ## Integers -/

namespace Binary

theorem roundEven_one (n : Nat) : roundEven n 1 = n := by
  simp [roundEven, Nat.mod_one]

/-- A quotient is rounded to the nearest integer, a tie going to the even neighbour. -/
theorem roundEven_le_iff {num den k : Nat} (hden : 0 < den) :
    roundEven num den ≤ k ↔ 2 * num < (2 * k + 1) * den ∨ 2 * num = (2 * k + 1) * den ∧ k % 2 = 0 := by
  have hdiv := Nat.div_add_mod num den
  have hmod := Nat.mod_lt num hden
  have hhalf : (2 * k + 1) * den = 2 * (den * k) + den := by ring
  have hbounds : num / den ≤ roundEven num den ∧ roundEven num den ≤ num / den + 1 := by
    unfold roundEven
    dsimp only
    split_ifs <;> omega
  rw [hhalf]
  obtain hq | hq | hq := lt_trichotomy (num / den) k
  · have hle : den * (num / den + 1) ≤ den * k := Nat.mul_le_mul_left den hq
    rw [Nat.mul_add_one] at hle
    omega
  · unfold roundEven
    dsimp only
    rw [hq] at hdiv ⊢
    split_ifs <;> omega
  · have hle : den * (k + 1) ≤ den * (num / den) := Nat.mul_le_mul_left den hq
    rw [Nat.mul_add_one] at hle
    omega

/-- Rounding moves a quotient by a half at most. -/
theorem abs_roundEven_sub_le (num : Nat) {den : Nat} (hden : 0 < den) : |(roundEven num den : ℚ) - num / den| ≤ 1 / 2 := by
  have hdenQ : (0 : ℚ) < den := by exact_mod_cast hden
  have hsplit : (num / den : ℚ) = (num / den : Nat) + (num % den : Nat) / den := by
    rw [eq_comm, ← mul_div_cancel_right₀ ((num / den : Nat) : ℚ) hdenQ.ne', ← add_div]
    congr 1
    exact_mod_cast Nat.div_add_mod' num den
  have hrest : (0 : ℚ) ≤ (num % den : Nat) / den ∧ ((num % den : Nat) / den : ℚ) < 1 := by
    rw [div_lt_one hdenQ]
    exact ⟨by positivity, by exact_mod_cast Nat.mod_lt num hden⟩
  have hless : 2 * (num % den) < den → ((num % den : Nat) / den : ℚ) < 1 / 2 := by
    intro h
    rw [div_lt_div_iff₀ hdenQ two_pos]
    exact_mod_cast (by omega : num % den * 2 < 1 * den)
  have hmore : ¬ 2 * (num % den) < den → (1 / 2 : ℚ) ≤ (num % den : Nat) / den := by
    intro h
    rw [div_le_div_iff₀ two_pos hdenQ]
    exact_mod_cast (by omega : 1 * den ≤ num % den * 2)
  have htie : ¬ den < 2 * (num % den) → ((num % den : Nat) / den : ℚ) ≤ 1 / 2 := by
    intro h
    rw [div_le_div_iff₀ hdenQ two_pos]
    exact_mod_cast (by omega : num % den * 2 ≤ 1 * den)
  rw [hsplit, abs_le]
  unfold roundEven
  dsimp only
  split_ifs <;> push_cast <;> constructor <;> grind

theorem le_roundEven {num den k : Nat} (hden : 0 < den) (h : k * den ≤ num) : k ≤ roundEven num den := by
  have hle : k ≤ num / den := (Nat.le_div_iff_mul_le hden).2 h
  unfold roundEven
  dsimp only
  split_ifs <;> omega

/-- A natural number is scaled so that its first bit is the first of the mantissa. -/
theorem scaleOf_one {n : Nat} (h : 0 < n) : scaleOf n 1 = (Nat.log2 n : Int) - 52 := by
  have hlog : Nat.log2 1 = 0 := by decide
  have hle : 2 ^ Nat.log2 n ≤ n := Nat.log2_self_le h.ne'
  unfold scaleOf
  simp only [hlog]
  have hexponent : ((Nat.log2 n : Int) - (0 : Nat) - 52 + 52).toNat = Nat.log2 n := by omega
  rw [if_neg (by omega : ¬ (Nat.log2 n : Int) - (0 : Nat) - 52 + 52 < 0), hexponent, Nat.one_mul]
  rw [decide_eq_false (by simpa using hle), if_neg Bool.false_ne_true]
  omega

/-- The mantissa and the exponent of the double nearest to a natural number; the mantissa may be one too many. -/
def rounded (n : Nat) : Nat × Int :=
  let e : Int := (Nat.log2 n : Int) - 52
  (if e < 0 then n * 2 ^ (-e).toNat else roundEven n (2 ^ e.toNat), e)

section

variable {n : Nat} (h : 0 < n)

include h

theorem rounded_bounds : 2 ^ 52 ≤ (rounded n).1 ∧ (rounded n).1 ≤ 2 ^ 53 := by
  have hle : 2 ^ Nat.log2 n ≤ n := Nat.log2_self_le h.ne'
  have hlt : n < 2 ^ Nat.log2 n * 2 := Nat.lt_log2_self
  unfold rounded
  dsimp only
  split
  · have hpow : 2 ^ Nat.log2 n * 2 ^ (-((Nat.log2 n : Int) - 52)).toNat = 2 ^ 52 := by
      rw [← Nat.pow_add]
      congr 1
      omega
    generalize 2 ^ (-((Nat.log2 n : Int) - 52)).toNat = scale at hpow ⊢
    have hlow := Nat.mul_le_mul_right scale hle
    have hhigh := Nat.mul_le_mul_right scale hlt.le
    rw [Nat.mul_right_comm] at hhigh
    omega
  · have hpow : 2 ^ 52 * 2 ^ ((Nat.log2 n : Int) - 52).toNat = 2 ^ Nat.log2 n := by
      rw [← Nat.pow_add]
      congr 1
      omega
    have hpos : 0 < 2 ^ ((Nat.log2 n : Int) - 52).toNat := Nat.pow_pos (by decide)
    generalize 2 ^ ((Nat.log2 n : Int) - 52).toNat = unit at hpow hpos ⊢
    exact ⟨le_roundEven hpos (by omega), (roundEven_le_iff hpos).2 (.inl (by omega))⟩

/-- Rounding does not pass a power of two. -/
theorem rounded_le {k : Nat} (hn : n < 2 ^ k) : ((rounded n).1 * 2 ^ (rounded n).2 : ℚ) ≤ 2 ^ k := by
  have hlog : Nat.log2 n < k := (Nat.log2_lt h.ne').2 hn
  have hexponent : (rounded n).2 = (Nat.log2 n : Int) - 52 := rfl
  have hmantissa : ((rounded n).1 : ℚ) ≤ 2 ^ 53 := by exact_mod_cast (rounded_bounds h).2
  have hpow : (2 : ℚ) ^ (rounded n).2 ≤ 2 ^ ((k : Int) - 53) := zpow_le_zpow_right₀ (by norm_num) (by omega)
  calc ((rounded n).1 * 2 ^ (rounded n).2 : ℚ) ≤ 2 ^ 53 * 2 ^ ((k : Int) - 53) := by gcongr
    _ = 2 ^ k := by
      rw [← zpow_natCast, ← zpow_natCast, ← zpow_add₀ (by norm_num)]
      congr 1
      push_cast
      ring

/-- Below 2⁶³ the doubles are 1024 apart, and the last 512 numbers are rounded up to it. -/
theorem two_pow_63_le_rounded_iff (hn : n < 2 ^ 63) :
    (2 ^ 63 : ℚ) ≤ (rounded n).1 * 2 ^ (rounded n).2 ↔ 2 ^ 63 - 512 ≤ n := by
  obtain hlow | hhigh := Nat.lt_or_ge n (2 ^ 62)
  · have hless : ((rounded n).1 * 2 ^ (rounded n).2 : ℚ) < 2 ^ 63 := (rounded_le h hlow).trans_lt (by norm_num)
    exact iff_of_false hless.not_ge (by omega)
  · have hlog : Nat.log2 n = 62 := by
      have hupper := (Nat.log2_lt h.ne').2 hn
      have hlower := (Nat.le_log2 h.ne').2 hhigh
      omega
    have hrounded : rounded n = (roundEven n 1024, 10) := by
      unfold rounded
      simp [hlog]
    have htie := @roundEven_le_iff n 1024 9007199254740991 (by decide)
    have hscale : (2 ^ 63 : ℚ) ≤ roundEven n 1024 * 2 ^ (10 : Int) ↔ 9223372036854775808 ≤ roundEven n 1024 * 1024 := by
      rw [← Nat.cast_le (α := ℚ)]
      norm_num
    rw [hrounded, hscale]
    omega

end

theorem ofWord_of_eq {w : UInt64} {field fraction : Nat} (hw : w.toNat = field * hidden + fraction)
    (hpos : 0 < field) (hfield : field < 2048) (hfraction : fraction < hidden) :
    exponentField w = field ∧ ofWord w = ⟨false, hidden + fraction, (field : Int) - 1075⟩ := by
  have hhidden : hidden = 4503599627370496 := rfl
  rw [hhidden] at hw hfraction
  have hexponent : exponentField w = field := by
    rw [exponentField, hw, hhidden]
    omega
  have hmantissa : w.toNat % hidden = fraction := by
    rw [hw, hhidden]
    omega
  have hsign : ¬ w.toNat / 2 ^ 63 = 1 := by
    rw [hw]
    omega
  refine ⟨hexponent, ?_⟩
  rw [ofWord, hexponent, hmantissa, if_neg hpos.ne', decide_eq_false hsign]

/-- The word of a mantissa and an exponent; a mantissa that is one too many carries into the exponent. -/
theorem value_ofWord {m : Nat} {e : Int} (hlow : 2 ^ 52 ≤ m) (hhigh : m ≤ 2 ^ 53) (hleast : -1074 ≤ e)
    (hgreatest : e < 971) :
    let w := ((e + 1075).toNat * hidden + (m - hidden)).toUInt64
    exponentField w ≠ 2047 ∧ (ofWord w).value = m * 2 ^ e := by
  intro w
  have hhidden : hidden = 4503599627370496 := rfl
  have hw : w.toNat = (e + 1075).toNat * hidden + (m - hidden) := by
    have hmod : w.toNat = ((e + 1075).toNat * hidden + (m - hidden)) % 2 ^ 64 := UInt64.toNat_ofNat'
    rw [hmod, hhidden]
    omega
  obtain rfl | hlt := hhigh.eq_or_lt
  · obtain ⟨hfield, hparts⟩ := @ofWord_of_eq w (e + 1076).toNat 0
      (by rw [hw, hhidden]; omega) (by omega) (by omega) (by decide)
    have hexponent : ((e + 1076).toNat : Int) - 1075 = e + 1 := by omega
    rw [hexponent] at hparts
    refine ⟨by omega, ?_⟩
    rw [hparts, Binary.value, hhidden]
    show ((4503599627370496 + 0 : Nat) : ℚ) * 2 ^ (e + 1) = _
    rw [zpow_add_one₀ (by norm_num)]
    push_cast
    ring
  · obtain ⟨hfield, hparts⟩ := ofWord_of_eq hw (by omega) (by omega) (by omega)
    have hexponent : ((e + 1075).toNat : Int) - 1075 = e := by omega
    have hmantissa : hidden + (m - hidden) = m := by omega
    rw [hexponent, hmantissa] at hparts
    refine ⟨by omega, ?_⟩
    rw [hparts]
    rfl

/-- The double nearest to a natural number. -/
theorem value_quotient {n : Nat} (h : 0 < n) (hn : n < 2 ^ 64) :
    IsFinite (quotient false n 1) ∧ Decimal.value (quotient false n 1) = (rounded n).1 * 2 ^ (rounded n).2 := by
  have hlog : Nat.log2 n < 64 := (Nat.log2_lt h.ne').2 hn
  obtain ⟨hlow, hhigh⟩ := rounded_bounds h
  have hexponent : (rounded n).2 = (Nat.log2 n : Int) - 52 := rfl
  have hhidden : hidden = 4503599627370496 := rfl
  have hword := value_ofWord (e := (rounded n).2) hlow hhigh (by omega) (by omega)
  have hquotient : quotient false n 1 =
      .ofBits (((rounded n).2 + 1075).toNat * hidden + ((rounded n).1 - hidden)).toUInt64 := by
    have hone (k : Nat) : 1 * Nat.pow 2 k = 2 ^ k := Nat.one_mul _
    have hmantissa : (if (rounded n).2 < 0 then roundEven (n * Nat.pow 2 (-(rounded n).2).toNat) 1
        else roundEven n (1 * Nat.pow 2 (rounded n).2.toNat)) = (rounded n).1 := by
      rw [roundEven_one, hone]
      rfl
    unfold quotient
    simp only [scaleOf_one h, ← hexponent, h.ne', hmantissa, if_false, Bool.false_eq_true]
    rw [if_neg (by omega : ¬ (rounded n).1 < hidden), if_neg (by rw [hhidden]; omega)]
  rw [hquotient]
  obtain ⟨hfinite, hvalue⟩ := value_ofBits hword.1
  exact ⟨hfinite, hvalue.trans hword.2⟩

end Binary

theorem value_zero : IsFinite 0.0 ∧ value 0.0 = 0 := by
  have hmantissa : (Binary.ofFloat 0.0).mantissa = 0 := rfl
  refine ⟨by decide, ?_⟩
  rw [value, Binary.value, hmantissa, Nat.cast_zero, zero_mul, signed_zero]

/-- The double nearest to a natural number that is not zero. -/
theorem value_ofInt_of_pos {n : Nat} (h : 0 < n) (hn : n < 2 ^ 64) :
    IsFinite (ofInt n) ∧ value (ofInt n) = (Binary.rounded n).1 * 2 ^ (Binary.rounded n).2 := by
  have hsign : decide ((n : Int) < 0) = false := decide_eq_false (by omega)
  rw [ofInt, hsign]
  exact Binary.value_quotient h hn

theorem value_ofInt_of_neg {n : Int} (h : n < 0) (hn : n.natAbs < 2 ^ 64) :
    IsFinite (ofInt n) ∧ value (ofInt n) = -((Binary.rounded n.natAbs).1 * 2 ^ (Binary.rounded n.natAbs).2) := by
  obtain ⟨hfinite, hvalue⟩ := Binary.value_quotient (n := n.natAbs) (by omega) hn
  have hofInt : ofInt n = -Binary.quotient false n.natAbs 1 := by
    rw [ofInt, decide_eq_true h]
    rfl
  rw [hofInt, ← hvalue]
  exact value_neg hfinite

/-- The double nearest to an integer that is not positive is not positive. -/
theorem value_ofInt_of_nonpos {n : Int} (h : n ≤ 0) (hn : -2 ^ 64 < n) : IsFinite (ofInt n) ∧ value (ofInt n) ≤ 0 := by
  obtain hneg | rfl := h.lt_or_eq
  · obtain ⟨hfinite, hvalue⟩ := value_ofInt_of_neg hneg (by omega)
    rw [hvalue]
    exact ⟨hfinite, neg_nonpos.2 (by positivity)⟩
  · exact ⟨value_zero.1, value_zero.2.le⟩

/-- A signed word is at most 2⁶³ as a double. -/
theorem value_ofInt_of_holds {n : Int} (hn : Word.holds n = true) :
    IsFinite (ofInt n) ∧ value (ofInt n) ≤ 2 ^ 63 ∧ (2 ^ 63 ≤ value (ofInt n) ↔ 2 ^ 63 - 512 ≤ n) := by
  have hword : -9223372036854775808 ≤ n ∧ n ≤ 9223372036854775807 := Word.holds_iff.1 hn
  obtain hnonpos | hpos := le_or_gt n 0
  · obtain ⟨hfinite, hvalue⟩ := value_ofInt_of_nonpos hnonpos (by omega)
    refine ⟨hfinite, hvalue.trans (by norm_num), fun h => ?_, fun h => by omega⟩
    exact absurd (h.trans hvalue) (by norm_num)
  · lift n to Nat using hpos.le
    have hpos : 0 < n := by omega
    have hlt : n < 2 ^ 63 := by omega
    obtain ⟨hfinite, hvalue⟩ := value_ofInt_of_pos hpos (by omega)
    rw [hvalue, Binary.two_pow_63_le_rounded_iff hpos hlt]
    exact ⟨hfinite, Binary.rounded_le hpos hlt, by omega⟩

/-! ## Whole doubles -/

namespace Binary

variable {b : Binary} {k : ℤ}

theorem value_eq (b : Binary) :
    b.value = if b.negative then -(b.numerator / b.denominator : ℚ) else (b.numerator / b.denominator : ℚ) := by
  rw [fraction_eq, value, sign]
  split
  · rfl
  · rfl

/-- The fraction of a binary whose value is an integer. -/
theorem numerator_of_value (h : b.value = k) : b.numerator = k.natAbs * b.denominator := by
  have hden : (b.denominator : ℚ) ≠ 0 := Nat.cast_ne_zero.2 (Nat.ne_of_gt b.denominator_pos)
  have habs : (b.numerator / b.denominator : ℚ) = (k.natAbs : ℚ) := by
    rw [fraction_eq_abs, h, Nat.cast_natAbs, Int.cast_abs]
  exact_mod_cast (div_eq_iff hden).1 habs

/-- A binary has no fractional part exactly if its value is an integer. -/
theorem whole_iff : b.numerator % b.denominator = 0 ↔ ∃ k : ℤ, b.value = k := by
  refine ⟨fun h => ?_, fun ⟨k, hk⟩ => ?_⟩
  · have hden : (b.denominator : ℚ) ≠ 0 := Nat.cast_ne_zero.2 (Nat.ne_of_gt b.denominator_pos)
    obtain ⟨q, hq⟩ := Nat.dvd_of_mod_eq_zero h
    have hfraction : (b.numerator / b.denominator : ℚ) = q := by
      rw [div_eq_iff hden, hq, Nat.cast_mul, mul_comm]
    refine ⟨if b.negative then -q else q, ?_⟩
    rw [value_eq, hfraction]
    split
    · push_cast
      rfl
    · rfl
  · rw [numerator_of_value hk, Nat.mul_mod_left]

/-- The integer part of an integer is the integer. -/
theorem truncate_of_value (h : b.value = k) : b.truncate = k := by
  have hquotient : b.numerator / b.denominator = k.natAbs := by
    rw [numerator_of_value h, Nat.mul_div_cancel _ b.denominator_pos]
  have hvalue := value_eq b
  rw [h] at hvalue
  rw [truncate, hquotient]
  have hnonneg : (0 : ℚ) ≤ b.numerator / b.denominator := by positivity
  split
  · rename_i hneg
    rw [if_pos hneg] at hvalue
    have : k ≤ 0 := by exact_mod_cast hvalue.trans_le (neg_nonpos.2 hnonneg)
    omega
  · rename_i hneg
    rw [if_neg hneg] at hvalue
    have : 0 ≤ k := by exact_mod_cast hnonneg.trans_eq hvalue.symm
    omega

end Binary

/-- A double is whole exactly if it is a number and that is an integer. -/
theorem isWhole_iff {x : Float} : isWhole x = true ↔ IsFinite x ∧ ∃ k : ℤ, value x = k := by
  rw [isFinite_iff, isWhole]
  split
  · rename_i h
    rw [h]
    simp
  · rename_i h
    rw [eq_false_of_ne_true h]
    dsimp only
    rw [decide_eq_true_iff, Binary.whole_iff]
    exact (and_iff_right rfl).symm

/-- A double is whole and not negative exactly if it is a natural number. -/
theorem isWhole_and_nonneg_iff {x : Float} :
    (x < 0.0 || !isWhole x) = false ↔ IsFinite x ∧ ∃ n : ℕ, value x = n := by
  have hlt (hx : IsFinite x) : x < 0.0 ↔ value x < 0 := by rw [lt_iff hx value_zero.1, value_zero.2]
  rw [Bool.or_eq_false_iff, decide_eq_false_iff_not, Bool.not_eq_false', isWhole_iff]
  constructor
  · rintro ⟨hneg, hx, k, hk⟩
    rw [hlt hx, hk] at hneg
    have hk0 : 0 ≤ k := by exact_mod_cast not_lt.1 hneg
    exact ⟨hx, k.toNat, by rw [hk]; exact_mod_cast (Int.toNat_of_nonneg hk0).symm⟩
  · rintro ⟨hx, n, hn⟩
    rw [hlt hx, hn]
    exact ⟨not_lt.2 (Nat.cast_nonneg n), hx, n, rfl⟩

end Decimal
end ArmPilot
