import Mathlib
import ArmPilot.Json.Reader
import ArmPilot.Proofs.Decimal.Shortest

/-!
# Numbers as they are written

Every number of a document is written as a numeral: an integer by its digits, a double by its shortest digits, set out
around a point or with an exponent.  The reader takes such a text apart into the same numeral again.
-/

namespace ArmPilot
namespace Json

/-- Decimal digits, at least one of them. -/
structure AreDigits (ds : List Char) : Prop where
  nonempty : ds ≠ []
  digits : ∀ c ∈ ds, Text.isDigit c = true

namespace Numeral

/-- How an exponent is written. -/
def exponentChars : Option (Bool × List Char) → List Char
  | none => []
  | some (down, ds) => 'e' :: (if down then '-' else '+') :: ds

/-- How a fraction is written. -/
def fractionChars : Option (List Char) → List Char
  | none => []
  | some ds => '.' :: ds

/-- The characters of a numeral behind its sign. -/
def unsigned (n : Numeral) : List Char := n.whole ++ (fractionChars n.fraction ++ exponentChars n.exponent)

/-- The characters of a numeral. -/
def chars (n : Numeral) : List Char := if n.negative then '-' :: n.unsigned else n.unsigned

/-- What a numeral is like that the reader takes. -/
structure WellFormed (n : Numeral) : Prop where
  whole : AreDigits n.whole
  leading : n.whole = ['0'] ∨ n.whole.head? ≠ some '0'
  fraction : ∀ ds ∈ n.fraction, AreDigits ds
  exponent : ∀ e ∈ n.exponent, AreDigits e.2

end Numeral

/-! ## Reading a numeral -/

/-- No character stands ahead that would go on with a number. -/
def EndsNumber (rest : List Char) : Prop :=
  ∀ c ∈ rest.head?, Text.isDigit c = false ∧ c ≠ '.' ∧ c ≠ 'e' ∧ c ≠ 'E'

theorem readDigits_append {ds rest : List Char} (hds : ∀ c ∈ ds, Text.isDigit c = true)
    (hrest : ∀ c ∈ rest.head?, Text.isDigit c = false) {c : Cursor} (hc : c.rest = ds ++ rest) :
    ∃ c', readDigits c = (ds, c') ∧ c'.rest = rest := by
  have htaken : c.rest.takeWhile Text.isDigit = ds := by
    rw [hc, List.takeWhile_append_of_pos hds]
    cases rest with
    | nil => simp
    | cons x xs => simp [hrest x rfl]
  refine ⟨_, by rw [readDigits, htaken], ?_⟩
  show c.rest.drop ds.length = rest
  rw [hc, List.drop_left]

theorem Cursor.drop_rest {c : Cursor} {x : Char} {rest : List Char} (hc : c.rest = x :: rest) : c.drop.rest = rest := by
  rw [Cursor.drop, hc]

theorem readExponent_append {e : Option (Bool × List Char)} (he : ∀ p ∈ e, AreDigits p.2) {rest : List Char}
    (hrest : EndsNumber rest) {c : Cursor} (hc : c.rest = Numeral.exponentChars e ++ rest) :
    ∃ c', readExponent c = .ok (e, c') ∧ c'.rest = rest := by
  unfold readExponent
  cases e with
  | none =>
    refine ⟨c, ?_, hc⟩
    cases rest with
    | nil => rw [hc]; rfl
    | cons x xs =>
      obtain ⟨-, -, hlower, hupper⟩ := hrest x rfl
      rw [hc]
      exact if_neg fun h => h.elim hlower hupper
  | some e =>
    obtain ⟨down, ds⟩ := e
    obtain ⟨hne, hds⟩ := he _ rfl
    rw [Numeral.exponentChars, List.cons_append, List.cons_append] at hc
    have hsign := Cursor.drop_rest hc
    have hbehind := Cursor.drop_rest hsign
    obtain ⟨c', hread, hc'⟩ := readDigits_append hds (fun x hx => (hrest x hx).1) hbehind
    obtain ⟨d, ds', rfl⟩ := List.exists_cons_of_ne_nil hne
    have hd : Text.isDigit d = true := hds d List.mem_cons_self
    refine ⟨c', ?_, hc'⟩
    rw [hc]
    dsimp only
    rw [if_pos (.inl rfl), hsign]
    cases down
    · simp only [Bool.false_eq_true, if_false, hbehind, List.cons_append, hd, if_true, hread]
    · simp only [if_true, hbehind, List.cons_append, hd, hread]

theorem head_exponent {rest : List Char} (hrest : EndsNumber rest) (e : Option (Bool × List Char)) :
    ∀ x ∈ (Numeral.exponentChars e ++ rest).head?, Text.isDigit x = false ∧ x ≠ '.' := by
  intro x hx
  cases e with
  | some e =>
    obtain rfl := Option.some.inj hx
    exact ⟨rfl, by decide⟩
  | none => exact ⟨(hrest x hx).1, (hrest x hx).2.1⟩

/-- The whole part of a numeral, which starts with a zero only if it is zero. -/
theorem readWhole_append {whole behind : List Char} (hwhole : AreDigits whole)
    (hleading : whole = ['0'] ∨ whole.head? ≠ some '0') (hbehind : ∀ x ∈ behind.head?, Text.isDigit x = false) {c : Cursor}
    (hc : c.rest = whole ++ behind) :
    ∃ d ds, whole = d :: ds ∧ Text.isDigit d = true ∧
      ¬(d = '0' ∧ ((ds ++ behind).head?.map Text.isDigit).getD false = true) ∧
      ∃ c', (if d = '0' then (['0'], c.drop) else readDigits c) = (whole, c') ∧ c'.rest = behind := by
  obtain ⟨d, ds, rfl⟩ := List.exists_cons_of_ne_nil hwhole.nonempty
  refine ⟨d, ds, rfl, hwhole.digits d List.mem_cons_self, ?_⟩
  by_cases hzero : d = '0'
  · subst hzero
    obtain rfl : ds = [] := by simpa using hleading
    refine ⟨?_, c.drop, rfl, Cursor.drop_rest hc⟩
    rintro ⟨-, hdigit⟩
    rw [List.nil_append] at hdigit
    cases hx : behind.head? with
    | none => simp [hx] at hdigit
    | some x => simp [hx, hbehind x hx] at hdigit
  · rw [if_neg hzero]
    exact ⟨fun h => hzero h.1, readDigits_append hwhole.digits hbehind hc⟩

/-- **A numeral is read as it is spelled.** -/
theorem readNumber_append {n : Numeral} (hn : n.WellFormed) {rest : List Char} (hrest : EndsNumber rest) {c : Cursor}
    (hc : c.rest = n.unsigned ++ rest) : ∃ c', readNumber n.negative c = .ok (n, c') ∧ c'.rest = rest := by
  obtain ⟨negative, whole, fraction, exponent⟩ := n
  obtain ⟨hwhole, hleading, hfraction, hexponent⟩ := hn
  dsimp only at hwhole hleading hfraction hexponent
  rw [Numeral.unsigned, List.append_assoc, List.append_assoc] at hc
  dsimp only at hc
  have hhead := head_exponent hrest exponent
  cases fraction with
  | none =>
    obtain ⟨d, ds, rfl, hd, hguard, c₁, hread, hc₁⟩ := readWhole_append hwhole hleading (fun x hx => (hhead x hx).1) hc
    obtain ⟨c₂, hexp, hc₂⟩ := readExponent_append hexponent hrest hc₁
    refine ⟨c₂, ?_, hc₂⟩
    unfold readNumber
    rw [hc]
    dsimp only [List.cons_append, Numeral.fractionChars, List.nil_append] at hguard ⊢
    rw [hd, if_neg (by decide), if_neg hguard, hread]
    dsimp only
    rw [hexp, hc₁]
    split
    · rename_i hdot
      exact absurd rfl (hhead '.' (by rw [hdot]; rfl)).2
    · rfl
  | some fs =>
    have hfs := hfraction fs rfl
    obtain ⟨d, ds, rfl, hd, hguard, c₁, hread, hc₁⟩ :=
      readWhole_append hwhole hleading (by rintro x ⟨⟩; rfl) hc
    obtain ⟨c₂, hfrac, hc₂⟩ := readDigits_append hfs.digits (fun x hx => (hhead x hx).1) (Cursor.drop_rest hc₁)
    obtain ⟨c₃, hexp, hc₃⟩ := readExponent_append hexponent hrest hc₂
    refine ⟨c₃, ?_, hc₃⟩
    unfold readNumber
    rw [hc]
    dsimp only [List.cons_append, Numeral.fractionChars] at hguard hc₁ ⊢
    rw [hd, if_neg (by decide), if_neg hguard, hread]
    dsimp only
    rw [hc₁]
    rw [hfrac]
    dsimp only
    rw [if_neg (by simpa using hfs.nonempty), hexp]
    rfl

/-! ## Digits of numbers -/

theorem areDigits_toDigits (n : Nat) : AreDigits (Nat.toDigits 10 n) := by
  refine ⟨Nat.toDigits_ne_nil, fun c hc => ?_⟩
  have h := Nat.isDigit_of_mem_toDigits (by decide) (by decide) hc
  rw [Char.isDigit, Bool.and_eq_true, decide_eq_true_iff, decide_eq_true_iff] at h
  rw [Text.isDigit, Bool.and_eq_true, decide_eq_true_iff, decide_eq_true_iff]
  exact h

theorem AreDigits.append {ds es : List Char} (hds : AreDigits ds) (hes : ∀ c ∈ es, Text.isDigit c = true) :
    AreDigits (ds ++ es) :=
  ⟨fun h => hds.nonempty (List.append_eq_nil_iff.1 h).1, fun c hc => (List.mem_append.1 hc).elim (hds.digits c) (hes c)⟩

theorem digits_replicate (n : Nat) : ∀ c ∈ List.replicate n '0', Text.isDigit c = true := by
  intro c hc
  rw [List.eq_of_mem_replicate hc]
  rfl

/-- A number that is not zero does not start with a zero. -/
theorem head_toDigits {n : Nat} (hn : 0 < n) : (Nat.toDigits 10 n).head? ≠ some '0' := by
  induction n using Nat.strong_induction_on with
  | h n ih =>
    by_cases hsmall : n < 10
    · rw [Nat.toDigits_of_lt_base hsmall]
      interval_cases n <;> decide
    · rw [Nat.toDigits_of_base_le (by decide) (Nat.not_lt.1 hsmall)]
      rw [List.head?_append_of_ne_nil _ Nat.toDigits_ne_nil]
      exact ih (n / 10) (by omega) (by omega)

namespace Numeral

/-! ## The numerals of numbers -/

/-- The numeral of an integer. -/
def ofInt (n : Int) : Numeral := ⟨decide (n < 0), Nat.toDigits 10 n.natAbs, none, none⟩

/-- The numeral of the digits of a double. -/
def ofDigits (negative : Bool) (d : Decimal.Digits) : Numeral :=
  if Decimal.Layout.stored.isPositional (d.point - 1) then
    if d.point ≤ 0 then ⟨negative, ['0'], some (List.replicate (-d.point).toNat '0' ++ d.chars), none⟩
    else if d.chars.length ≤ d.point.toNat then
      ⟨negative, d.chars ++ List.replicate (d.point.toNat - d.chars.length) '0', some ['0'], none⟩
    else ⟨negative, d.chars.take d.point.toNat, some (d.chars.drop d.point.toNat), none⟩
  else
    ⟨negative, d.chars.take 1, if d.chars.length ≤ 1 then none else some (d.chars.drop 1),
      some (decide (d.point - 1 < 0), Nat.toDigits 10 (d.point - 1).natAbs)⟩

/-- The numeral of a double. -/
def ofFloat (x : Float) : Numeral :=
  let b := Decimal.Binary.ofFloat x
  if b.mantissa = 0 then ⟨b.negative, ['0'], some ['0'], none⟩ else ofDigits b.negative (.ofBinary b)

theorem wellFormed_ofInt (n : Int) : (ofInt n).WellFormed := by
  refine ⟨areDigits_toDigits _, ?_, fun _ h => absurd h (Option.not_mem_none _),
    fun _ h => absurd h (Option.not_mem_none _)⟩
  rcases Nat.eq_zero_or_pos n.natAbs with hzero | hpos
  · exact .inl (by rw [ofInt, hzero]; rfl)
  · exact .inr (head_toDigits hpos)

theorem wellFormed_ofDigits (negative : Bool) {d : Decimal.Digits} (hd : d.Exact) :
    (ofDigits negative d).WellFormed := by
  obtain ⟨hchars, hlength⟩ := hd.chars_eq
  have hdigits : AreDigits d.chars := hchars ▸ areDigits_toDigits d.digits
  have hhead : d.chars.head? ≠ some '0' :=
    hchars ▸ head_toDigits ((Nat.pow_pos (by decide)).trans_le hd.lower)
  have hpositive := hd.positive
  have htake {n : Nat} (hn : 0 < n) : AreDigits (d.chars.take n) ∧ (d.chars.take n).head? ≠ some '0' := by
    refine ⟨⟨?_, fun c hc => hdigits.digits c (List.mem_of_mem_take hc)⟩, ?_⟩
    · rw [ne_eq, List.take_eq_nil_iff]
      exact fun h => h.elim hn.ne' hdigits.nonempty
    · rwa [List.head?_take, if_neg hn.ne']
  have hdrop {n : Nat} (hn : n < d.chars.length) : AreDigits (d.chars.drop n) := by
    refine ⟨?_, fun c hc => hdigits.digits c (List.mem_of_mem_drop hc)⟩
    rw [ne_eq, List.drop_eq_nil_iff]
    exact Nat.not_le.2 hn
  have hzero : AreDigits ['0'] := areDigits_toDigits 0
  unfold ofDigits
  split
  · split
    · refine ⟨hzero, .inl rfl, ?_, fun _ h => absurd h (Option.not_mem_none _)⟩
      rintro ds ⟨⟩
      exact ⟨fun h => hdigits.nonempty (List.append_eq_nil_iff.1 h).2,
        fun c hc => (List.mem_append.1 hc).elim (digits_replicate _ c) (hdigits.digits c)⟩
    · split
      · refine ⟨hdigits.append (digits_replicate _), .inr ?_, ?_, fun _ h => absurd h (Option.not_mem_none _)⟩
        · rwa [List.head?_append_of_ne_nil _ hdigits.nonempty]
        · rintro ds ⟨⟩
          exact hzero
      · obtain ⟨hwhole, hleading⟩ := htake (n := d.point.toNat) (by omega)
        refine ⟨hwhole, .inr hleading, ?_, fun _ h => absurd h (Option.not_mem_none _)⟩
        rintro ds ⟨⟩
        exact hdrop (by omega)
  · obtain ⟨hwhole, hleading⟩ := htake Nat.one_pos
    refine ⟨hwhole, .inr hleading, ?_, ?_⟩
    · intro ds hds
      dsimp only at hds
      split at hds
      · cases hds
      · obtain rfl := Option.some.inj hds
        exact hdrop (by omega)
    · rintro e ⟨⟩
      exact areDigits_toDigits _

theorem wellFormed_ofFloat (x : Float) : (ofFloat x).WellFormed := by
  unfold ofFloat
  dsimp only
  split
  · refine ⟨areDigits_toDigits 0, .inl rfl, ?_, fun _ h => absurd h (Option.not_mem_none _)⟩
    rintro ds ⟨⟩
    exact areDigits_toDigits 0
  · rename_i h
    exact wellFormed_ofDigits _ (Decimal.Digits.exact_ofBinary (Decimal.Digits.proper_ofFloat h))

end Numeral

namespace Number

/-- A number that a document can hold: an integer of 64 bits, with or without sign, or a finite double. -/
def Valid : Number → Prop
  | .int n => Word.least ≤ n ∧ n < Word.count
  | .real x => x.isNaN = false ∧ x.isInf = false

/-- The numeral of a number. -/
def numeral : Number → Numeral
  | .int n => .ofInt n
  | .real x => .ofFloat x

theorem wellFormed_numeral (n : Number) : n.numeral.WellFormed := by
  cases n with
  | int n => exact Numeral.wellFormed_ofInt n
  | real x => exact Numeral.wellFormed_ofFloat x

/-- Integers are written by their digits. -/
theorem text_int (n : Int) : (Number.int n).text.toList = (Numeral.ofInt n).chars := by
  show (Int.repr n).toList = _
  cases n with
  | ofNat n =>
    rw [Int.repr, Nat.repr_eq_ofList_toDigits, String.toList_ofList, Numeral.chars, Numeral.ofInt]
    simp [Numeral.unsigned, Numeral.fractionChars, Numeral.exponentChars]
  | negSucc n =>
    rw [Int.repr, Numeral.chars, Numeral.ofInt]
    simp [Nat.repr_eq_ofList_toDigits, Int.negSucc_lt_zero, Numeral.unsigned, Numeral.fractionChars,
      Numeral.exponentChars]

/-- The layout of stored numbers sets digits out as a numeral. -/
theorem unsigned_ofDigits (negative : Bool) (d : Decimal.Digits) (hd : d.chars ≠ []) :
    (Numeral.ofDigits negative d).unsigned =
      if Decimal.Layout.stored.isPositional (d.point - 1) then Decimal.Layout.stored.positional d
      else Decimal.Layout.stored.withExponent d := by
  unfold Numeral.ofDigits
  split
  · unfold Decimal.Layout.positional
    dsimp only
    split
    · simp [Numeral.unsigned, Numeral.fractionChars, Numeral.exponentChars]
    · split
      · simp [Numeral.unsigned, Numeral.fractionChars, Numeral.exponentChars, Decimal.Layout.stored]
      · simp [Numeral.unsigned, Numeral.fractionChars, Numeral.exponentChars]
  · unfold Decimal.Layout.withExponent
    obtain ⟨c, cs, hchars⟩ := List.exists_cons_of_ne_nil hd
    rw [hchars]
    cases cs <;> by_cases hdown : d.point - 1 < 0 <;>
      simp [Numeral.unsigned, Numeral.fractionChars, Numeral.exponentChars, Decimal.Layout.stored, hdown]

/-- Finite doubles are written by their shortest digits. -/
theorem text_real {x : Float} (h : (Number.real x).Valid) : (Number.real x).text.toList = (Numeral.ofFloat x).chars := by
  obtain ⟨hnan, hinf⟩ := h
  have hsign (negative : Bool) (cs : List Char) :
      (if negative = true then ['-'] else []) ++ cs = if negative = true then '-' :: cs else cs := by
    cases negative <;> rfl
  have hnegative (negative : Bool) (d : Decimal.Digits) : (Numeral.ofDigits negative d).negative = negative := by
    unfold Numeral.ofDigits
    split
    · split
      · rfl
      · split <;> rfl
    · rfl
  rw [text, hnan, hinf, Bool.or_false, if_neg Bool.false_ne_true, Decimal.Layout.text, String.toList_ofList,
    Decimal.Layout.chars, hnan, if_neg Bool.false_ne_true, hinf]
  dsimp only
  rw [if_neg Bool.false_ne_true, Numeral.ofFloat, Numeral.chars]
  by_cases hzero : (Decimal.Binary.ofFloat x).mantissa = 0
  · rw [if_pos hzero, if_pos hzero, hsign]
    rfl
  · rw [if_neg hzero, if_neg hzero, hsign, hnegative]
    have hexact := Decimal.Digits.exact_ofBinary (Decimal.Digits.proper_ofFloat hzero)
    rw [unsigned_ofDigits _ _ (hexact.chars_eq.1 ▸ Nat.toDigits_ne_nil)]

/-- **Every number is written as its numeral.** -/
theorem text_numeral {n : Number} (h : n.Valid) : n.text.toList = n.numeral.chars := by
  cases n with
  | int n => exact text_int n
  | real x => exact text_real h

end Number

/-! ## The value of an integer -/

theorem le_ofDigitChars (ds : List Char) (acc : Nat) : acc ≤ Nat.ofDigitChars 10 ds acc := by
  induction ds generalizing acc with
  | nil => exact Nat.le_refl _
  | cons c ds ih =>
    rw [Nat.ofDigitChars_cons]
    have hle := ih (10 * acc + (c.toNat - '0'.toNat))
    omega

/-- Digits are taken into a word as a whole if their value fits. -/
theorem takeDigits_eq {ds : List Char} {acc : Nat} (h : Nat.ofDigitChars 10 ds acc ≤ wordMax) :
    takeDigits acc ds = (Nat.ofDigitChars 10 ds acc, []) := by
  induction ds generalizing acc with
  | nil => rfl
  | cons c ds ih =>
    rw [Nat.ofDigitChars_cons] at h ⊢
    have hnext : acc * 10 + digitValue c = 10 * acc + (c.toNat - '0'.toNat) := by
      rw [Nat.mul_comm, digitValue]
      rfl
    rw [takeDigits, hnext, if_neg (Nat.not_lt.2 ((le_ofDigitChars ds _).trans h)), ih h]

/-- **An integer is read as itself.** -/
theorem Numeral.value_ofInt {n : Int} (h : (Number.int n).Valid) : (Numeral.ofInt n).value = .ok (.int n) := by
  obtain ⟨hleast, hcount⟩ := h
  unfold Word.least at hleast
  unfold Word.count at hcount
  have hword : takeDigits 0 (Nat.toDigits 10 n.natAbs) = (n.natAbs, []) := by
    have hvalue : Nat.ofDigitChars 10 (Nat.toDigits 10 n.natAbs) 0 = n.natAbs :=
      Nat.ofDigitChars_toDigits (by decide) (by decide)
    rw [takeDigits_eq (by rw [hvalue, wordMax, Word.count]; omega), hvalue]
  unfold Numeral.value Numeral.ofInt
  dsimp only
  rw [hword]
  dsimp only
  by_cases hneg : n < 0
  · rw [decide_eq_true hneg, if_neg (by decide), if_neg (by unfold Word.count; omega)]
    congr 2
    omega
  · rw [decide_eq_false hneg, if_pos (by decide)]
    congr 2
    omega

end Json
end ArmPilot
