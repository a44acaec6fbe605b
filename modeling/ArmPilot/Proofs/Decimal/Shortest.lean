import Mathlib
import ArmPilot.Decimal.Shortest

/-!
# The first of the shortest digits

The search for the shortest digits of a double comes to its end with seventeen digits at the latest.  The digits that it
finds are as many as it says, and the first is not zero.
-/

namespace ArmPilot
namespace Decimal

/-! ## Fractions -/

theorem fractionLe_iff {a b c d : Nat} (hb : 0 < b) (hd : 0 < d) :
    Digits.fractionLe a b c d = true ↔ (a / b : ℚ) ≤ c / d := by
  have hb : (0 : ℚ) < b := by exact_mod_cast hb
  have hd : (0 : ℚ) < d := by exact_mod_cast hd
  rw [div_le_div_iff₀ hb hd, Digits.fractionLe, decide_eq_true_iff]
  exact_mod_cast Iff.rfl

/-- A power, on whichever side of a fraction it stands. -/
theorem base_zpow (base : Nat) (q : Int) :
    (base : ℚ) ^ q =
      if q < 0 then 1 / ((Nat.pow base (-q).toNat : Nat) : ℚ) else ((Nat.pow base q.toNat : Nat) : ℚ) := by
  split
  · have hq : q = -((-q).toNat : Int) := by omega
    conv_lhs => rw [hq, zpow_neg, zpow_natCast]
    rw [one_div]
    norm_cast
  · have hq : q = (q.toNat : Int) := by omega
    conv_lhs => rw [hq, zpow_natCast]
    norm_cast

theorem ten_zpow (q : Int) :
    (10 : ℚ) ^ q = if q < 0 then 1 / ((Nat.pow 10 (-q).toNat : Nat) : ℚ) else ((Nat.pow 10 q.toNat : Nat) : ℚ) := by
  exact_mod_cast base_zpow 10 q

namespace Digits

/-- The question by which the magnitude of a fraction is found. -/
theorem reaches_iff {num den : Nat} (hden : 0 < den) (q : Int) :
    (if q < 0 then decide (den ≤ num * Nat.pow 10 (-q).toNat) else decide (den * Nat.pow 10 q.toNat ≤ num)) = true ↔
      (10 : ℚ) ^ q ≤ num / den := by
  have hden : (0 : ℚ) < den := by exact_mod_cast hden
  rw [le_div_iff₀ hden, ten_zpow]
  split
  · have hpow : (0 : ℚ) < (Nat.pow 10 (-q).toNat : Nat) := by exact_mod_cast Nat.pow_pos (by decide)
    rw [decide_eq_true_iff, one_div, inv_mul_le_iff₀ hpow]
    exact_mod_cast (by rw [Nat.mul_comm])
  · rw [decide_eq_true_iff]
    exact_mod_cast (by rw [Nat.mul_comm])

/-- The magnitude is found if the guess is not too far away. -/
theorem magnitude_eq {num den : Nat} (hden : 0 < den) {point : Int} (hlow : (10 : ℚ) ^ (point - 1) ≤ num / den)
    (hhigh : (num / den : ℚ) < 10 ^ point) (fuel : Nat) (p : Int) (hfuel : (point - p).natAbs < fuel) :
    magnitude num den fuel p = point := by
  have hpow {q r : Int} : (10 : ℚ) ^ q < 10 ^ r ↔ q < r := zpow_lt_zpow_iff_right₀ (by norm_num)
  induction fuel generalizing p with
  | zero => omega
  | succ fuel ih =>
    unfold magnitude
    dsimp only
    by_cases hp : (10 : ℚ) ^ p ≤ num / den
    · rw [if_pos ((reaches_iff hden p).2 hp)]
      have hlt : p < point := hpow.1 (hp.trans_lt hhigh)
      exact ih _ (by omega)
    · rw [if_neg fun h => hp ((reaches_iff hden p).1 h)]
      have hle : point - 1 < p := hpow.1 (hlow.trans_lt (not_le.1 hp))
      by_cases hp' : (10 : ℚ) ^ (p - 1) ≤ num / den
      · rw [if_pos ((reaches_iff hden (p - 1)).2 hp')]
        have hlt : p - 1 < point := hpow.1 (hp'.trans_lt hhigh)
        omega
      · rw [if_neg fun h => hp' ((reaches_iff hden (p - 1)).1 h)]
        have hle' : point - 1 < p - 1 := hpow.1 (hlow.trans_lt (not_le.1 hp'))
        exact ih _ (by omega)

/-! ## Grids -/

theorem contains_of_lt {i : Interval} (hden : 0 < i.den) {a b : Nat} (hb : 0 < b)
    (hlow : (i.lower / i.den : ℚ) < a / b) (hhigh : (a / b : ℚ) < i.upper / i.den) : i.contains a b = true := by
  unfold Interval.contains
  split
  · rw [Bool.and_eq_true, fractionLe_iff hden hb, fractionLe_iff hb hden]
    exact ⟨hlow.le, hhigh.le⟩
  · rw [Bool.and_eq_true, Bool.not_eq_true', Bool.not_eq_true', Bool.eq_false_iff, Bool.eq_false_iff, ne_eq, ne_eq,
      fractionLe_iff hb hden, fractionLe_iff hden hb]
    exact ⟨not_le.2 hlow, not_le.2 hhigh⟩

/-- The multiple of a power of ten below a value. -/
def floorOn (i : Interval) (step : Int) : Nat :=
  (if step < 0 then i.value * Nat.pow 10 (-step).toNat else i.value) /
    (if step < 0 then i.den else i.den * Nat.pow 10 step.toNat)

/-- Whether a multiple of a power of ten reads back. -/
def readsBack (i : Interval) (step : Int) (d : Nat) : Bool :=
  if step < 0 then i.contains d (Nat.pow 10 (-step).toNat) else i.contains (d * Nat.pow 10 step.toNat) 1

section

variable {i : Interval} (hden : 0 < i.den) (step : Int)

include hden

theorem floorOn_bounds :
    (floorOn i step * 10 ^ step : ℚ) ≤ i.value / i.den ∧ (i.value / i.den : ℚ) < (floorOn i step + 1) * 10 ^ step := by
  have hdenQ : (0 : ℚ) < i.den := by exact_mod_cast hden
  have hfloor {n d : Nat} (hd : 0 < d) : ((n / d : Nat) * d : ℚ) ≤ n ∧ (n : ℚ) < ((n / d : Nat) + 1) * d := by
    have hle := Nat.div_mul_le_self n d
    have hlt := Nat.lt_div_mul_add (a := n) hd
    rw [← Nat.succ_mul] at hlt
    exact ⟨by exact_mod_cast hle, by exact_mod_cast hlt⟩
  rw [le_div_iff₀ hdenQ, div_lt_iff₀ hdenQ, ten_zpow]
  unfold floorOn
  split
  · have hpow : (0 : ℚ) < (Nat.pow 10 (-step).toNat : Nat) := by exact_mod_cast Nat.pow_pos (by decide)
    obtain ⟨hle, hlt⟩ := hfloor (n := i.value * Nat.pow 10 (-step).toNat) hden
    generalize i.value * Nat.pow 10 (-step).toNat / i.den = below at *
    push_cast at hle hlt
    refine ⟨?_, ?_⟩
    · rw [mul_one_div, div_mul_eq_mul_div, div_le_iff₀ hpow]
      exact_mod_cast hle
    · rw [mul_one_div, div_mul_eq_mul_div, lt_div_iff₀ hpow]
      exact_mod_cast hlt
  · have hpow : 0 < Nat.pow 10 step.toNat := Nat.pow_pos (by decide)
    obtain ⟨hle, hlt⟩ := hfloor (n := i.value) (Nat.mul_pos hden hpow)
    generalize i.value / (i.den * Nat.pow 10 step.toNat) = below at *
    push_cast at hle hlt
    refine ⟨?_, ?_⟩
    · rw [mul_assoc, mul_comm ((Nat.pow 10 step.toNat : Nat) : ℚ)]
      exact_mod_cast hle
    · rw [mul_assoc, mul_comm ((Nat.pow 10 step.toNat : Nat) : ℚ)]
      exact_mod_cast hlt

theorem readsBack_of_lt {d : Nat} (hlow : (i.lower / i.den : ℚ) < d * 10 ^ step)
    (hhigh : (d * 10 ^ step : ℚ) < i.upper / i.den) : readsBack i step d = true := by
  rw [ten_zpow] at hlow hhigh
  unfold readsBack
  split
  · rename_i hstep
    rw [if_pos hstep, mul_one_div] at hlow hhigh
    exact contains_of_lt hden (Nat.pow_pos (by decide)) hlow hhigh
  · rename_i hstep
    rw [if_neg hstep] at hlow hhigh
    refine contains_of_lt hden Nat.one_pos ?_ ?_
    · rw [Nat.cast_one, div_one]
      exact_mod_cast hlow
    · rw [Nat.cast_one, div_one]
      exact_mod_cast hhigh

end

/-- The choice between two neighbours, each of which may read back. -/
def choose (nearUp down up : Bool) (below : Nat) : Option Nat :=
  match down, up with
  | true, true => some (if nearUp then below + 1 else below)
  | true, false => some below
  | false, true => some (below + 1)
  | false, false => none

/-- What is found on a grid is next to the value. -/
theorem onGrid_cases (i : Interval) (point : Int) (count : Nat) :
    (∃ d, onGrid i point count = some d ∧ (d = floorOn i (point - count) ∨ d = floorOn i (point - count) + 1)) ∨
      onGrid i point count = none ∧ readsBack i (point - count) (floorOn i (point - count)) = false ∧
        readsBack i (point - count) (floorOn i (point - count) + 1) = false := by
  obtain ⟨nearUp, hgrid⟩ : ∃ nearUp : Bool, onGrid i point count =
      choose nearUp (readsBack i (point - count) (floorOn i (point - count)))
        (readsBack i (point - count) (floorOn i (point - count) + 1)) (floorOn i (point - count)) := ⟨_, rfl⟩
  rw [hgrid]
  cases readsBack i (point - count) (floorOn i (point - count)) <;>
    cases readsBack i (point - count) (floorOn i (point - count) + 1)
  · exact .inr ⟨rfl, rfl, rfl⟩
  · exact .inl ⟨_, rfl, .inr rfl⟩
  · exact .inl ⟨_, rfl, .inl rfl⟩
  · refine .inl ⟨_, rfl, ?_⟩
    cases nearUp
    · exact .inl rfl
    · exact .inr rfl

/-! ## The search -/

/-- Whether digits are as many as they are said to be, so that the first is not zero. -/
structure Exact (d : Digits) : Prop where
  positive : 0 < d.count
  lower : 10 ^ (d.count - 1) ≤ d.digits
  upper : d.digits < 10 ^ d.count

/-- Digits are spelled without zeros in front if the first is not zero. -/
theorem Exact.chars_eq {d : Digits} (hd : d.Exact) :
    d.chars = Nat.toDigits 10 d.digits ∧ d.chars.length = d.count := by
  have hlength : (Nat.toDigits 10 d.digits).length = d.count := by
    have hle : (Nat.toDigits 10 d.digits).length ≤ d.count :=
      (Nat.length_toDigits_le_iff (by decide) hd.positive).2 hd.upper
    rcases Nat.eq_zero_or_pos (d.count - 1) with hone | hmore
    · have hne : 0 < (Nat.toDigits 10 d.digits).length := List.length_pos_of_ne_nil Nat.toDigits_ne_nil
      omega
    · have hlt : ¬(Nat.toDigits 10 d.digits).length ≤ d.count - 1 := fun h =>
        absurd ((Nat.length_toDigits_le_iff (by decide) hmore).1 h) (Nat.not_lt.2 hd.lower)
      omega
  have hchars : d.chars = Nat.toDigits 10 d.digits := by
    rw [chars, hlength, Nat.sub_self, List.replicate_zero, List.nil_append]
  exact ⟨hchars, hchars ▸ hlength⟩

/-- The search ends on the first grid with a hit. -/
theorem search_spec {i : Interval} {point : Int} {last : Nat} (hlast : onGrid i point last ≠ none) (fuel : Nat)
    (count : Nat) (hcount : count ≤ last) (hfuel : last < count + fuel) :
    ∃ c d, count ≤ c ∧ onGrid i point c = some d ∧ search i point fuel count = ⟨d, c, point⟩ := by
  induction fuel generalizing count with
  | zero => omega
  | succ fuel ih =>
    unfold search
    cases hgrid : onGrid i point count with
    | some d => exact ⟨count, d, Nat.le_refl _, hgrid, rfl⟩
    | none =>
      have hne : count ≠ last := fun heq => hlast (heq ▸ hgrid)
      obtain ⟨c, d, hc, hd, hsearch⟩ := ih (count + 1) (by omega) (by omega)
      exact ⟨c, d, by omega, hd, hsearch⟩

/-- What is found has as many digits as its grid, or carries over into one more. -/
theorem bounds_of_onGrid {i : Interval} (hden : 0 < i.den) {point : Int}
    (hlow : (10 : ℚ) ^ (point - 1) ≤ i.value / i.den) (hhigh : (i.value / i.den : ℚ) < 10 ^ point) {count d : Nat}
    (hcount : 0 < count) (hd : onGrid i point count = some d) : 10 ^ (count - 1) ≤ d ∧ d ≤ 10 ^ count := by
  obtain ⟨hle, hlt⟩ := floorOn_bounds hden (point - count)
  have hstep : (0 : ℚ) < 10 ^ (point - count) := by positivity
  have hsplit (n : Nat) : (10 : ℚ) ^ n * 10 ^ (point - count) = 10 ^ (point - count + n) := by
    rw [← zpow_natCast, ← zpow_add₀ (by norm_num), add_comm]
  have hbelow : floorOn i (point - count) < 10 ^ count := by
    have h : (floorOn i (point - count) * 10 ^ (point - count) : ℚ) < 10 ^ count * 10 ^ (point - count) := by
      rw [hsplit, sub_add_cancel]
      exact hle.trans_lt hhigh
    exact_mod_cast lt_of_mul_lt_mul_right h hstep.le
  have habove : 10 ^ (count - 1) ≤ floorOn i (point - count) := by
    have h : (10 ^ (count - 1) * 10 ^ (point - count) : ℚ) < (floorOn i (point - count) + 1) * 10 ^ (point - count) := by
      rw [hsplit, Nat.cast_sub hcount, Nat.cast_one, show point - count + (count - 1 : Int) = point - 1 by ring]
      exact hlow.trans_lt hlt
    exact Nat.lt_succ_iff.1 (by exact_mod_cast lt_of_mul_lt_mul_right h hstep.le)
  rcases onGrid_cases i point count with ⟨d', hd', hcases⟩ | ⟨hnone, -⟩
  · obtain rfl : d' = d := Option.some.inj (hd'.symm.trans hd)
    omega
  · cases hnone.symm.trans hd

/-- Digits that are as many as they are said to be, or carry over into one more, are set right. -/
theorem exact_normalize (fuel : Nat) {d : Digits} (hcount : 0 < d.count) (hlow : 10 ^ (d.count - 1) ≤ d.digits)
    (hhigh : d.digits ≤ 10 ^ d.count) (hfuel : d.digits = 10 ^ d.count → 0 < fuel) : (normalize fuel d).Exact := by
  induction fuel generalizing d with
  | zero => exact ⟨hcount, hlow, lt_of_le_of_ne hhigh fun h => absurd (hfuel h) (Nat.lt_irrefl 0)⟩
  | succ fuel ih =>
    unfold normalize
    split
    · rename_i hcarry
      have heq : d.digits = 10 ^ d.count := le_antisymm hhigh hcarry
      have hlt : d.digits < 10 ^ (d.count + 1) := heq ▸ Nat.pow_lt_pow_right (by decide) (Nat.lt_succ_self _)
      exact ih (Nat.succ_pos _) hcarry hlt.le fun h => absurd h hlt.ne
    · rename_i hcarry
      have hlt : d.digits < 10 ^ d.count := Nat.not_le.1 hcarry
      split
      · rename_i hdrop
        obtain ⟨hmany, hzero⟩ := hdrop
        obtain ⟨n, hn⟩ : ∃ n, d.count = n + 2 := ⟨d.count - 2, by omega⟩
        rw [hn, Nat.pow_succ] at hlt
        rw [hn, show n + 2 - 1 = n + 1 from rfl, Nat.pow_succ] at hlow
        have hlow' : 10 ^ n ≤ d.digits / 10 := by omega
        have hlt' : d.digits / 10 < 10 ^ (n + 1) := by omega
        rw [show d.count - 1 = n + 1 by omega]
        exact ih (Nat.succ_pos n) hlow' hlt'.le fun h => absurd h hlt'.ne
      · exact ⟨hcount, hlow, hlt⟩

/-! ## The digits of a double -/

/-- What the parts of a double are like that is not zero. -/
structure Proper (b : Binary) : Prop where
  positive : 0 < b.mantissa
  mantissa : b.mantissa < 2 ^ 53
  least : -1074 ≤ b.exponent
  greatest : b.exponent ≤ 972

theorem proper_ofFloat {x : Float} (h : (Binary.ofFloat x).mantissa ≠ 0) : Proper (Binary.ofFloat x) := by
  have hhidden : Binary.hidden = 2 ^ 52 := rfl
  have hfraction : x.toBits.toNat % Binary.hidden < 2 ^ 52 := Nat.mod_lt _ (by decide)
  have hbiased : x.toBits.toNat / Binary.hidden % 2048 < 2048 := Nat.mod_lt _ (by decide)
  refine ⟨Nat.pos_of_ne_zero h, ?_, ?_, ?_⟩
  all_goals
    unfold Binary.ofFloat
    dsimp only
    generalize x.toBits.toNat % Binary.hidden = fraction at *
    generalize x.toBits.toNat / Binary.hidden % 2048 = biased at *
    split
  all_goals
    dsimp only
    omega

section

variable {b : Binary} (hb : Proper b)

include hb

/-- The ends of the interval of a double and its value, in steps of half a unit of its last place. -/
theorem intervalOf_spec :
    0 < (intervalOf b).den ∧ ((intervalOf b).value / (intervalOf b).den : ℚ) = b.mantissa * 2 ^ b.exponent ∧
      ((intervalOf b).upper / (intervalOf b).den : ℚ) = (b.mantissa + 1 / 2) * 2 ^ b.exponent ∧
      (((intervalOf b).lower / (intervalOf b).den : ℚ) = (b.mantissa - 1 / 2) * 2 ^ b.exponent ∨
        b.mantissa = 2 ^ 52 ∧ ((intervalOf b).lower / (intervalOf b).den : ℚ) = (b.mantissa - 1 / 4) * 2 ^ b.exponent) := by
  have hm := hb.positive
  obtain ⟨scale, hscale, hinterval⟩ : ∃ scale : Nat, (scale / b.denominator : ℚ) = 2 ^ b.exponent ∧
      intervalOf b = ⟨(if b.mantissa = Binary.hidden ∧ b.exponent > -1074 then 4 * b.mantissa - 1
        else 4 * b.mantissa - 2) * scale, 4 * b.mantissa * scale, (4 * b.mantissa + 2) * scale, 4 * b.denominator,
        b.mantissa % 2 = 0⟩ := by
    refine ⟨_, ?_, rfl⟩
    have htwo := base_zpow 2 b.exponent
    rw [Nat.cast_ofNat] at htwo
    rw [htwo, Binary.denominator]
    split
    · rw [Nat.cast_one]
    · rw [Nat.cast_one, div_one]
  have hden : (0 : ℚ) < b.denominator := by exact_mod_cast b.denominator_pos
  rw [hinterval, ← hscale]
  dsimp only
  refine ⟨Nat.mul_pos (by decide) b.denominator_pos, ?_, ?_, ?_⟩
  · push_cast
    field_simp
  · push_cast
    field_simp
    ring
  · split
    · rename_i h
      refine .inr ⟨h.1, ?_⟩
      rw [Nat.cast_mul, Nat.cast_sub (by omega)]
      push_cast
      field_simp
    · refine .inl ?_
      rw [Nat.cast_mul, Nat.cast_sub (by omega)]
      push_cast
      field_simp
      ring

/-- The magnitude of a double is within reach of the guess from which it is looked for. -/
theorem guess_near {point : Int} (hlow : (10 : ℚ) ^ (point - 1) ≤ b.mantissa * 2 ^ b.exponent)
    (hhigh : (b.mantissa * 2 ^ b.exponent : ℚ) < 10 ^ point) :
    (point - ((Nat.log2 b.mantissa : Int) + b.exponent) * 1233 / 4096).natAbs < 400 := by
  have hpow {q r : Int} : (10 : ℚ) ^ q < 10 ^ r ↔ q < r := zpow_lt_zpow_iff_right₀ (by norm_num)
  obtain ⟨hm, hm53, hleast, hgreatest⟩ := hb
  have hlog : Nat.log2 b.mantissa < 53 := (Nat.log2_lt hm.ne').2 hm53
  have hlogLow : (2 : ℚ) ^ (Nat.log2 b.mantissa) ≤ b.mantissa := by exact_mod_cast Nat.log2_self_le hm.ne'
  have hlogHigh : (b.mantissa : ℚ) < 2 ^ (Nat.log2 b.mantissa + 1) := by exact_mod_cast Nat.lt_log2_self
  have hunit : (0 : ℚ) < 2 ^ b.exponent := by positivity
  have hL : (2 : ℚ) ^ ((Nat.log2 b.mantissa : Int) + b.exponent) ≤ b.mantissa * 2 ^ b.exponent := by
    rw [zpow_add₀ (by norm_num), zpow_natCast]
    exact mul_le_mul_of_nonneg_right hlogLow hunit.le
  have hH : (b.mantissa * 2 ^ b.exponent : ℚ) < 2 ^ ((Nat.log2 b.mantissa : Int) + b.exponent + 1) := by
    rw [add_right_comm, zpow_add₀ (by norm_num)]
    exact mul_lt_mul_of_pos_right (by exact_mod_cast hlogHigh) hunit
  have hlogInt : (0 : Int) ≤ Nat.log2 b.mantissa ∧ (Nat.log2 b.mantissa : Int) ≤ 52 := by omega
  generalize (Nat.log2 b.mantissa : Int) = log at *
  have hmono {q r : Int} (h : q ≤ r) : (2 : ℚ) ^ q ≤ 2 ^ r := zpow_le_zpow_right₀ (by norm_num) h
  -- a double that is at least one, and a smaller one
  rcases le_or_gt 0 (log + b.exponent) with hL0 | hL0
  · have hpos : 0 < point := by
      refine hpow.1 (lt_of_le_of_lt ?_ (hL.trans_lt hhigh))
      simpa using hmono hL0
    have hmax : point - 1 < 309 := by
      have hends : (2 : ℚ) ^ (1025 : Int) ≤ 10 ^ (309 : Int) := by
        have hnat : 2 ^ 1025 ≤ 10 ^ 309 := by decide +kernel
        exact_mod_cast hnat
      exact hpow.1 (hlow.trans_lt (hH.trans_le ((hmono (by omega)).trans hends)))
    omega
  · have hneg : point - 1 < 0 := by
      refine hpow.1 (hlow.trans_lt (hH.trans_le ?_))
      have h := hmono (q := log + b.exponent + 1) (r := 0) (by omega)
      rwa [zpow_zero] at h ⊢
    have hmin : -324 < point := by
      have hends : (10 : ℚ) ^ (-324 : Int) ≤ 2 ^ (-1074 : Int) := by
        have hnat : 2 ^ 1074 ≤ 10 ^ 324 := by decide +kernel
        rw [zpow_neg, zpow_neg]
        exact inv_anti₀ (by positivity) (by exact_mod_cast hnat)
      exact hpow.1 ((hends.trans ((hmono (by omega)).trans hL)).trans_lt hhigh)
    omega

/-- Seventeen digits are enough. -/
theorem onGrid_last {point : Int} (hlow : (10 : ℚ) ^ (point - 1) ≤ b.mantissa * 2 ^ b.exponent) :
    onGrid (intervalOf b) point 17 ≠ none := by
  obtain ⟨hden, hvalue, hupper, hlower⟩ := intervalOf_spec hb
  obtain ⟨hle, hlt⟩ := floorOn_bounds hden (point - 17)
  have hback {d : Nat} := readsBack_of_lt (d := d) hden (point - 17)
  intro hnone
  rcases onGrid_cases (intervalOf b) point 17 with ⟨d, hd, -⟩ | ⟨-, hdown, hup⟩
  · cases hd.symm.trans hnone
  rw [Nat.cast_ofNat] at hdown hup
  rw [hvalue] at hle hlt
  rw [hupper] at hback
  generalize floorOn (intervalOf b) (point - 17) = below at *
  have hstep : (10 : ℚ) ^ (point - 17) * 10 ^ 16 ≤ b.mantissa * 2 ^ b.exponent := by
    rw [← zpow_natCast, ← zpow_add₀ (by norm_num)]
    convert hlow using 2
    ring
  have hunit : (0 : ℚ) < 2 ^ b.exponent := by positivity
  have hmantissa : (b.mantissa : ℚ) < 2 ^ 53 := by exact_mod_cast hb.mantissa
  generalize (10 : ℚ) ^ (point - 17) = step at *
  generalize (2 : ℚ) ^ b.exponent = unit at *
  have hnear : step < unit := by nlinarith
  -- neither neighbour reads back, so that the step is longer than the interval
  have hbelow : (below * step : ℚ) ≤ (intervalOf b).lower / (intervalOf b).den := by
    by_contra h
    rw [hback (not_le.1 h) (by linarith)] at hdown
    cases hdown
  have habove : ((b.mantissa + 1 / 2) * unit : ℚ) ≤ (below + 1) * step := by
    by_contra h
    have hlow : ((intervalOf b).lower / (intervalOf b).den : ℚ) < (below + 1) * step := by
      rcases hlower with hlower | ⟨-, hlower⟩
      · linarith
      · linarith
    rw [hback (d := below + 1) (by exact_mod_cast hlow) (by exact_mod_cast not_le.1 h)] at hup
    cases hup
  rcases hlower with hlower | ⟨hpower, hlower⟩
  · linarith
  · rw [hpower] at hstep habove hlower
    push_cast at hstep habove hlower
    linarith

/-- **The first of the shortest digits of a double is not zero.** -/
theorem exact_ofBinary : (ofBinary b).Exact := by
  obtain ⟨hden, hvalue, -, -⟩ := intervalOf_spec hb
  have hpositive : (0 : ℚ) < b.mantissa * 2 ^ b.exponent := by
    have hm : (0 : ℚ) < b.mantissa := by exact_mod_cast hb.positive
    positivity
  obtain ⟨point, hlow, hhigh⟩ : ∃ point : Int, (10 : ℚ) ^ (point - 1) ≤ b.mantissa * 2 ^ b.exponent ∧
      (b.mantissa * 2 ^ b.exponent : ℚ) < 10 ^ point := by
    refine ⟨Int.log 10 (b.mantissa * 2 ^ b.exponent : ℚ) + 1, ?_, ?_⟩
    · rw [add_sub_cancel_right]
      exact_mod_cast Int.zpow_log_le_self (b := 10) (by decide) hpositive
    · exact_mod_cast Int.lt_zpow_succ_log_self (b := 10) (by decide) (b.mantissa * 2 ^ b.exponent : ℚ)
  have hmagnitude : magnitude (intervalOf b).value (intervalOf b).den 400
      (((Nat.log2 b.mantissa : Int) + b.exponent) * 1233 / 4096) = point :=
    magnitude_eq hden (hvalue ▸ hlow) (hvalue ▸ hhigh) 400 _ (guess_near hb hlow hhigh)
  obtain ⟨c, d, hc, hd, hsearch⟩ := search_spec (onGrid_last hb hlow) 17 1 (by decide) (by decide)
  obtain ⟨hdlow, hdhigh⟩ := bounds_of_onGrid hden (hvalue ▸ hlow) (hvalue ▸ hhigh) hc hd
  have hdigits : ofBinary b = normalize 40 ⟨d, c, point⟩ := by
    rw [← hsearch, ← hmagnitude]
    rfl
  rw [hdigits]
  exact exact_normalize 40 hc hdlow hdhigh fun _ => by decide

end

end Digits
end Decimal
end ArmPilot
