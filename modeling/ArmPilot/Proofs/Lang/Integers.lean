import Mathlib
import ArmPilot.Sandbox.Devices
import ArmPilot.Lang.Eval.Call
import ArmPilot.Proofs.Decimal.Doubles

/-!
# Numbers as integers

Scripts make integers of numbers by way of doubles.  A double is cut off toward zero and held to the range of integers.
An integer is rounded to 53 bits on that way, so that it comes back as it was only if it has no more (`int_eq_iff`).
-/

namespace ArmPilot
namespace Decimal

/-! ## The double nearest to an integer -/

namespace Binary

/-- How far apart the doubles around a natural number are, but at least one. -/
def unit (n : Nat) : Nat := 2 ^ (Nat.log2 n - 52)

/-- The multiple of the unit nearest to a natural number, in the middle the even one. -/
def nearest (n : Nat) : Nat := roundEven n (unit n) * unit n

theorem unit_pos (n : Nat) : 0 < unit n := Nat.pow_pos (by decide)

variable {n : Nat}

theorem value_rounded (n : Nat) : ((rounded n).1 * 2 ^ (rounded n).2 : ℚ) = nearest n := by
  unfold rounded nearest unit
  dsimp only
  split
  · rename_i hsmall
    have hlog : Nat.log2 n - 52 = 0 := by omega
    have hexponent : (Nat.log2 n : Int) - 52 = -((-((Nat.log2 n : Int) - 52)).toNat : Int) := by omega
    rw [hlog, Nat.pow_zero, roundEven_one, Nat.mul_one]
    conv_lhs => rw [hexponent, zpow_neg, zpow_natCast]
    simp
  · rename_i hlarge
    have hexponent : (Nat.log2 n : Int) - 52 = (Nat.log2 n - 52 : Nat) := by omega
    rw [hexponent, Int.toNat_natCast, zpow_natCast]
    push_cast
    rfl

theorem nearest_eq_iff : nearest n = n ↔ unit n ∣ n := by
  refine ⟨fun h => ⟨_, h.symm.trans (Nat.mul_comm _ _)⟩, fun ⟨q, hq⟩ => ?_⟩
  have hmod : n % unit n = 0 := Nat.mod_eq_zero_of_dvd ⟨q, hq⟩
  have hround : roundEven n (unit n) = n / unit n := by
    unfold roundEven
    dsimp only
    rw [hmod, if_pos (by simpa using unit_pos n)]
  rw [nearest, hround, Nat.div_mul_cancel ⟨q, hq⟩]

theorem nearest_two_pow (k : Nat) : nearest (2 ^ k) = 2 ^ k := by
  rw [nearest_eq_iff, unit, Nat.log2_two_pow]
  exact Nat.pow_dvd_pow 2 (Nat.sub_le k 52)

/-- Rounding does not pass a power of two. -/
theorem nearest_le {k : Nat} (hn : n ≤ 2 ^ k) : nearest n ≤ 2 ^ k := by
  obtain hlt | rfl := hn.lt_or_eq
  · obtain rfl | hpos := n.eq_zero_or_pos
    · simp [nearest, roundEven]
    · have hle := rounded_le hpos hlt
      rw [value_rounded] at hle
      exact_mod_cast hle
  · exact (nearest_two_pow k).le

theorem abs_nearest_sub_le (n : Nat) : |(nearest n : ℚ) - n| ≤ unit n / 2 := by
  have hunit : (0 : ℚ) < unit n := by exact_mod_cast unit_pos n
  have herror := abs_roundEven_sub_le n (unit_pos n)
  have hsplit : (nearest n : ℚ) - n = (roundEven n (unit n) - n / unit n) * unit n := by
    rw [nearest]
    push_cast
    field_simp
  rw [hsplit, abs_mul, abs_of_pos hunit]
  nlinarith

/-- No multiple of the unit is nearer than the nearest. -/
theorem abs_nearest_sub_le_mul (n : Nat) (j : ℤ) : |(nearest n : ℚ) - n| ≤ |(j * unit n : ℚ) - n| := by
  have hunit : (0 : ℚ) < unit n := by exact_mod_cast unit_pos n
  have herror := abs_nearest_sub_le n
  obtain hj | hj := eq_or_ne j (roundEven n (unit n))
  · rw [hj, nearest]
    push_cast
    exact le_rfl
  · have hone : (1 : ℚ) ≤ |(j : ℚ) - roundEven n (unit n)| := by
      exact_mod_cast Int.one_le_abs (sub_ne_zero.2 hj)
    have hgap : (unit n : ℚ) ≤ |(j * unit n : ℚ) - nearest n| := by
      rw [nearest]
      push_cast
      rw [← sub_mul, abs_mul, abs_of_pos hunit]
      nlinarith
    have htriangle := abs_sub_le (j * unit n : ℚ) n (nearest n)
    rw [abs_sub_comm (n : ℚ)] at htriangle
    linarith

/-- **No double is nearer to a natural number than the one that it is rounded to.** -/
theorem abs_nearest_sub_le_of_canonical {m : Nat} {e : Int} (h : Canonical m e) {q : ℚ} (hn : 0 < n)
    (hq : |q| = m * 2 ^ e) : |(nearest n : ℚ) - n| ≤ |q - n| := by
  obtain hfine | hcoarse := le_or_gt ((Nat.log2 n - 52 : Nat) : Int) e
  · -- A double with so great an exponent is a multiple of the unit.
    obtain ⟨k, rfl⟩ := Int.eq_ofNat_of_zero_le (le_trans (Int.natCast_nonneg _) hfine)
    have hpow : (2 : ℚ) ^ (k : Int) = 2 ^ (k - (Nat.log2 n - 52)) * unit n := by
      rw [unit, zpow_natCast, Nat.cast_pow, Nat.cast_ofNat, ← pow_add]
      congr 1
      omega
    rw [hpow, ← mul_assoc] at hq
    obtain ⟨j, hj⟩ : ∃ j : ℤ, q = j * unit n := by
      obtain hsign | hsign := abs_choice q
      · exact ⟨m * 2 ^ (k - (Nat.log2 n - 52)), by rw [← hsign, hq]; push_cast; rfl⟩
      · exact ⟨-(m * 2 ^ (k - (Nat.log2 n - 52))), by rw [← neg_neg q, ← hsign, hq]; push_cast; ring⟩
    rw [hj]
    exact abs_nearest_sub_le_mul n j
  · obtain hsmall | hlarge := le_or_gt (Nat.log2 n) 52
    · have hunit : unit n = 1 := by
        rw [unit, Nat.sub_eq_zero_of_le hsmall, Nat.pow_zero]
      rw [nearest_eq_iff.2 (hunit ▸ Nat.one_dvd n), sub_self, abs_zero]
      exact abs_nonneg _
    · -- Any other is below the power of two under the number, which is a multiple of the unit.
      have hbelow : (2 ^ Nat.log2 n : ℚ) ≤ n := by exact_mod_cast Nat.log2_self_le hn.ne'
      have hpower : (2 ^ Nat.log2 n : ℚ) = (2 ^ 52 : ℤ) * unit n := by
        rw [unit, Int.cast_pow, Int.cast_ofNat, Nat.cast_pow, Nat.cast_ofNat, ← pow_add]
        congr 1
        omega
      have hlt : q < 2 ^ Nat.log2 n := by
        have hmantissa : (m : ℚ) < 2 ^ 53 := by exact_mod_cast h.mantissa
        have hexponent : (2 : ℚ) ^ e ≤ 2 ^ ((Nat.log2 n : Int) - 53) := zpow_le_zpow_right₀ (by norm_num) (by omega)
        calc q ≤ |q| := le_abs_self q
          _ = m * 2 ^ e := hq
          _ < 2 ^ 53 * 2 ^ e := by gcongr
          _ ≤ 2 ^ 53 * 2 ^ ((Nat.log2 n : Int) - 53) := by gcongr
          _ = 2 ^ Nat.log2 n := by
            rw [← zpow_natCast, ← zpow_natCast, ← zpow_add₀ (by norm_num)]
            congr 1
            push_cast
            ring
      calc |(nearest n : ℚ) - n| ≤ |((2 ^ 52 : ℤ) * unit n : ℚ) - n| := abs_nearest_sub_le_mul n _
        _ = n - 2 ^ Nat.log2 n := by rw [← hpower, abs_of_nonpos (sub_nonpos.2 hbelow), neg_sub]
        _ ≤ n - q := by linarith
        _ = |q - n| := by rw [abs_of_nonpos (sub_nonpos.2 (hlt.le.trans hbelow)), neg_sub]

end Binary

/-- The integer that the double nearest to an integer stands for. -/
def nearestInt (n : Int) : Int := n.sign * Binary.nearest n.natAbs

theorem value_ofInt {n : Int} (hn : n.natAbs < 2 ^ 64) : IsFinite (ofInt n) ∧ value (ofInt n) = nearestInt n := by
  obtain hneg | rfl | hpos := lt_trichotomy n 0
  · obtain ⟨hfinite, hvalue⟩ := value_ofInt_of_neg hneg hn
    rw [hvalue, Binary.value_rounded, nearestInt, Int.sign_eq_neg_one_of_neg hneg]
    exact ⟨hfinite, by push_cast; ring⟩
  · exact ⟨value_zero.1, value_zero.2.trans (by simp [nearestInt])⟩
  · lift n to Nat using hpos.le
    obtain ⟨hfinite, hvalue⟩ := value_ofInt_of_pos (n := n) (by omega) hn
    rw [hvalue, Binary.value_rounded, nearestInt, Int.sign_eq_one_of_pos hpos, Int.natAbs_natCast]
    exact ⟨hfinite, by push_cast; ring⟩

theorem nearestInt_neg (n : Int) : nearestInt (-n) = -nearestInt n := by
  rw [nearestInt, nearestInt, Int.sign_neg, Int.natAbs_neg, neg_mul]

/-- **No double is nearer to an integer than the one that it is rounded to.** -/
theorem abs_nearestInt_sub_le (n : Int) {x : Float} (hx : IsFinite x) :
    |(nearestInt n : ℚ) - n| ≤ |value x - n| := by
  have hcanonical := canonical_ofWord hx
  have habs : |value x| = (Binary.ofFloat x).mantissa * 2 ^ (Binary.ofFloat x).exponent := by
    rw [value, ← Binary.fraction_eq_abs, Binary.fraction_eq]
  have hpos {k : Nat} (hk : 0 < k) {q : ℚ} (hq : |q| = |value x|) : |(nearestInt k : ℚ) - k| ≤ |q - k| := by
    rw [nearestInt, Int.sign_natCast_of_ne_zero hk.ne', one_mul, Int.natAbs_natCast]
    exact Binary.abs_nearest_sub_le_of_canonical hcanonical hk (hq.trans habs)
  obtain ⟨k, rfl | rfl⟩ := n.eq_nat_or_neg
  · obtain rfl | hk := k.eq_zero_or_pos
    · simp [nearestInt]
    · exact_mod_cast hpos hk rfl
  · obtain rfl | hk := k.eq_zero_or_pos
    · simp [nearestInt]
    · have hle := hpos hk (abs_neg (value x))
      rw [nearestInt_neg]
      rw [← abs_neg, ← abs_neg (value x - _)]
      push_cast
      simpa [sub_eq_add_neg, add_comm] using hle

/-! ## Cutting off -/

/-- A fraction without what is behind the point. -/
def towardZero (q : ℚ) : ℤ := if 0 ≤ q then ⌊q⌋ else ⌈q⌉

theorem towardZero_intCast (k : ℤ) : towardZero k = k := by
  unfold towardZero
  split
  · exact Int.floor_intCast k
  · exact Int.ceil_intCast k

theorem Binary.truncate_eq (b : Binary) : b.truncate = towardZero b.value := by
  have hfloor : ⌊(b.numerator / b.denominator : ℚ)⌋ = ((b.numerator / b.denominator : Nat) : ℤ) := by
    rw [Rat.floor_natCast_div_natCast]
    rfl
  have hnonneg : (0 : ℚ) ≤ b.numerator / b.denominator := by positivity
  rw [truncate, value_eq, towardZero]
  split
  · obtain hzero | hpos := hnonneg.eq_or_lt
    · rw [← hzero] at hfloor ⊢
      simp [← hfloor]
    · rw [if_neg (not_le.2 (neg_neg_of_pos hpos)), Int.ceil_neg, hfloor]
  · exact hfloor.symm

/-- An integer held to the range of integers. -/
def held (k : ℤ) : ℤ := max Word.least (min Word.greatest k)

theorem held_of_holds {k : ℤ} (h : Word.holds k = true) : held k = k := by
  obtain ⟨hleast, hgreatest⟩ := Word.holds_iff.1 h
  rw [held, min_eq_right hgreatest, max_eq_right hleast]

theorem saturate_of_isFinite {x : Float} (hx : IsFinite x) : saturate x = held (towardZero (value x)) := by
  obtain ⟨hnan, hinf⟩ := Bool.or_eq_false_iff.1 (isFinite_iff.1 hx)
  rw [saturate, hnan, hinf, Binary.truncate_eq]
  rfl

/-! ## There and back -/

variable {n : Int}

theorem nearestInt_eq_iff : nearestInt n = n ↔ Binary.unit n.natAbs ∣ n.natAbs := by
  obtain rfl | hn := eq_or_ne n 0
  · simp [nearestInt]
  · have hsign : n.sign ≠ 0 := mt Int.sign_eq_zero_iff_zero.1 hn
    have hcancel := mul_right_inj' (b := (Binary.nearest n.natAbs : Int)) (c := n.natAbs) hsign
    rw [Int.sign_mul_natAbs] at hcancel
    rw [← Binary.nearest_eq_iff, nearestInt, hcancel, Int.natCast_inj]

theorem least_le_nearestInt (h : Word.least ≤ n) : Word.least ≤ nearestInt n := by
  have hleast : Word.least = -2 ^ 63 := rfl
  obtain hnonneg | hneg := le_or_gt 0 n
  · have hsign : 0 ≤ n.sign := Int.sign_nonneg_iff.2 hnonneg
    exact le_trans (by decide) (mul_nonneg hsign (Int.natCast_nonneg _))
  · have hle : Binary.nearest n.natAbs ≤ 2 ^ 63 := Binary.nearest_le (by omega)
    rw [nearestInt, Int.sign_eq_neg_one_of_neg hneg]
    omega

theorem saturate_ofInt (h : Word.holds n = true) : saturate (ofInt n) = min Word.greatest (nearestInt n) := by
  obtain ⟨hleast, hgreatest⟩ := Word.holds_iff.1 h
  have hbounds : Word.least = -9223372036854775808 ∧ Word.greatest = 9223372036854775807 := ⟨rfl, rfl⟩
  obtain ⟨hfinite, hvalue⟩ := value_ofInt (n := n) (by omega)
  rw [saturate_of_isFinite hfinite, hvalue, towardZero_intCast, held, max_eq_right]
  exact le_min (by omega) (least_le_nearestInt hleast)

/-- An integer comes back as it was if it has no more than 53 bits, and the greatest one by chance. -/
theorem saturate_ofInt_eq_iff (h : Word.holds n = true) :
    saturate (ofInt n) = n ↔ n = Word.greatest ∨ Binary.unit n.natAbs ∣ n.natAbs := by
  rw [saturate_ofInt h, ← nearestInt_eq_iff]
  constructor
  · intro hmin
    obtain hle | hle := le_total Word.greatest (nearestInt n)
    · exact .inl (hmin.symm.trans (min_eq_left hle))
    · exact .inr ((min_eq_right hle).symm.trans hmin)
  · rintro (rfl | heq)
    · have hup : Word.greatest ≤ nearestInt Word.greatest := by decide +kernel
      exact min_eq_left hup
    · rw [heq]
      exact min_eq_right (Word.holds_iff.1 h).2

/-- An integer of 53 bits, or the power of two behind these, comes back as it was. -/
theorem unit_dvd_of_le (h : n.natAbs ≤ 2 ^ 53) : Binary.unit n.natAbs ∣ n.natAbs := by
  obtain heq | hlt := h.eq_or_lt
  · exact Binary.nearest_eq_iff.1 (heq ▸ Binary.nearest_two_pow 53)
  · obtain hzero | hpos := n.natAbs.eq_zero_or_pos
    · exact hzero ▸ Nat.dvd_zero _
    · have hlog : Nat.log2 n.natAbs < 53 := (Nat.log2_lt hpos.ne').2 hlt
      have hunit : Binary.unit n.natAbs = 1 := by
        rw [Binary.unit, Nat.sub_eq_zero_of_le (by omega), Nat.pow_zero]
      exact hunit ▸ Nat.one_dvd _

theorem saturate_of_not_isFinite {x : Float} (hx : ¬IsFinite x) :
    saturate x = if x.isNaN then 0 else if x < 0.0 then Word.least else Word.greatest := by
  rw [isFinite_iff, Bool.not_eq_false] at hx
  unfold saturate
  cases hnan : x.isNaN with
  | true => rfl
  | false =>
    rw [hnan, Bool.false_or] at hx
    rw [hx]
    rfl

end Decimal

namespace Lang

/-- The built-in function takes a number as a double, whatever it is. -/
theorem Library.call?_int (limits : Limits) {v : Value} {x : Float} (h : number v = .ok x) :
    call? limits "int" [v] = Answer.int (Decimal.saturate x) := by
  unfold call? numbers
  simp only [realFunction?, h]
  rfl

namespace Eval

open Decimal (IsFinite value nearestInt towardZero held saturate)

variable {σ : Type}

/-- Whether scripts are given a value by a built-in function on arguments: each call gives it, once it counts as a step. -/
def Gives (o : Outside σ) (poll : Nat) (name : String) (args : List Value) (v : Value) : Prop :=
  ∀ m env p, env.host = Devices.host o poll →
    native? m env name args p = some (counted env p ⟨false, return (.ok v, none)⟩)

theorem gives_int (o : Outside σ) (poll : Nat) {v : Value} {x : Float} (h : Library.number v = .ok x) :
    Gives o poll "int" [v] (.int (saturate x)) := by
  intro m env p hhost
  have hcall : env.host.call "int" [v] = none := by
    rw [hhost]
    rfl
  have hcallback : callbackFunction? m env "int" [v] p = none := by cases v <;> rfl
  have hbeyond : native? m env "int" [v] p = (native?.beyond m env p "int" [v]).map (counted env p) := rfl
  rw [hbeyond, native?.beyond.eq_def, hcall]
  dsimp only
  rw [hcallback, Library.call?_int env.limits h]
  rfl

/-- **What scripts are given for a number by the function that makes integers.**  An integer is rounded to the nearest
double, so that it is given back exactly if it has no more than 53 bits, or is the greatest one.  A double is cut off
toward zero and held to the range of integers; one that is no number gives zero. -/
theorem int_eq_iff (o : Outside σ) (poll : Nat) :
    (∀ n, Word.holds n = true → ∃ k, Gives o poll "int" [.int n] (.int k) ∧
      k = min Word.greatest (nearestInt n) ∧
      (∀ x, IsFinite x → |(nearestInt n : ℚ) - n| ≤ |value x - n|) ∧
      (k = n ↔ n = Word.greatest ∨ Decimal.Binary.unit n.natAbs ∣ n.natAbs)) ∧
    (∀ n : Int, n.natAbs ≤ 2 ^ 53 → Gives o poll "int" [.int n] (.int n)) ∧
    (∀ x, IsFinite x → Gives o poll "int" [.float x] (.int (held (towardZero (value x))))) ∧
    (∀ x, IsFinite x → Word.holds (towardZero (value x)) = true →
      Gives o poll "int" [.float x] (.int (towardZero (value x)))) ∧
    ∀ x, ¬IsFinite x →
      Gives o poll "int" [.float x] (.int (if x.isNaN then 0 else if x < 0.0 then Word.least else Word.greatest)) := by
  have hfloat {x : Float} (hx : IsFinite x) : Gives o poll "int" [.float x] (.int (held (towardZero (value x)))) :=
    Decimal.saturate_of_isFinite hx ▸ gives_int o poll rfl
  refine ⟨fun n hn => ⟨saturate (Decimal.ofInt n), gives_int o poll rfl, Decimal.saturate_ofInt hn,
    fun x hx => Decimal.abs_nearestInt_sub_le n hx, Decimal.saturate_ofInt_eq_iff hn⟩, fun n hn => ?_,
    fun x hx => hfloat hx, fun x hx hholds => ?_, fun x hx => ?_⟩
  · have hholds : Word.holds n = true := by
      have hbounds : Word.least = -9223372036854775808 ∧ Word.greatest = 9223372036854775807 := ⟨rfl, rfl⟩
      exact Word.holds_iff.2 (by omega)
    have hback := (Decimal.saturate_ofInt_eq_iff hholds).2 (.inr (Decimal.unit_dvd_of_le hn))
    have hgives := gives_int o poll (v := .int n) rfl
    rwa [hback] at hgives
  · have hgives := hfloat hx
    rwa [Decimal.held_of_holds hholds] at hgives
  · have hgives := gives_int o poll (v := .float x) rfl
    rwa [Decimal.saturate_of_not_isFinite hx] at hgives

/-- The first integer of 54 bits that is odd is given as its even neighbour, and the greatest integer as it is. -/
theorem int_eq_iff_odd :
    (∃ k, Gives (.nobody Unit) 0 "int" [.int 9007199254740993] (.int k) ∧ k = 9007199254740992) ∧
      Gives (.nobody Unit) 0 "int" [.int Word.greatest] (.int Word.greatest) ∧
      Gives (.nobody Unit) 0 "int" [.float (-2.9)] (.int (-2)) := by
  obtain ⟨hint, -, hfloat, -⟩ := int_eq_iff (.nobody Unit) 0
  obtain ⟨k, hk, hrounded, -⟩ := hint 9007199254740993 (by decide)
  obtain ⟨g, hg, -, -, hgreatest⟩ := hint Word.greatest (by decide)
  have hcut : held (towardZero (value (-2.9))) = -2 := by
    rw [← Decimal.saturate_of_isFinite (by decide)]
    decide +kernel
  refine ⟨⟨k, hk, hrounded.trans (by decide +kernel)⟩, ?_, hcut ▸ hfloat _ (by decide)⟩
  rwa [hgreatest.2 (.inl rfl)] at hg

end Eval
end Lang
end ArmPilot
