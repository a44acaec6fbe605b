import Mathlib
import ArmPilot.Json.Printer
import ArmPilot.Proofs.Json.Numerals

/-!
# Reading what was written

A value is written compactly or set out on lines, and each of the texts is read into a tree that spells the value: the
same words, numerals and strings under the same brackets, whatever the spots.  `Reads` says so of one text; it holds of
scalars, and of lists and objects whose parts it holds of.
-/

namespace ArmPilot
namespace Json

/-! ## Strings -/

/-- An escape of one letter stands for its character. -/
theorem readString_simple {x y : Char} (hy : y ≠ 'u') (hx : simpleEscape? y = some x) (fuel : Nat) (acc : List Char)
    {c : Cursor} {rest : List Char} (hc : c.rest = '\\' :: y :: rest) :
    ∃ c', readString (fuel + 1) c ⟨acc, none⟩ = readString fuel c' ⟨x :: acc, none⟩ ∧ c'.rest = rest := by
  obtain ⟨text, spot⟩ := c
  obtain rfl : text = '\\' :: y :: rest := hc
  refine ⟨⟨rest, (spot.after '\\').after y⟩, ?_, rfl⟩
  conv_lhs => unfold readString
  dsimp only
  rw [if_neg (by decide), if_neg (by decide), if_neg (by decide), if_neg hy, hx]
  rfl

theorem hexDigit_spec {n : Nat} (hn : n < 16) : Text.hexValue? (hexDigit n) = some n ∧ (hexDigit n).utf8Size = 1 := by
  interval_cases n <;> decide

/-- Four digits are read as their number. -/
theorem readHex_hexDigit {n : Nat} (hn : n < 256) {c : Cursor} {rest : List Char}
    (hc : c.rest = '0' :: '0' :: hexDigit (n / 16) :: hexDigit (n % 16) :: rest) :
    ∃ c', readHex c = .ok (n, c') ∧ c'.rest = rest := by
  obtain ⟨text, spot⟩ := c
  obtain rfl : text = _ := hc
  obtain ⟨hhigh, hhighSize⟩ := hexDigit_spec (show n / 16 < 16 by omega)
  obtain ⟨hlow, hlowSize⟩ := hexDigit_spec (show n % 16 < 16 by omega)
  have hzero : Text.hexValue? '0' = some 0 ∧ Char.utf8Size '0' = 1 := by decide
  obtain ⟨behind, hbytes⟩ : ∃ behind, bytesOn 4 ('0' :: '0' :: hexDigit (n / 16) :: hexDigit (n % 16) :: rest) spot =
      some behind := by
    simp [bytesOn, hhighSize, hlowSize, hzero.2]
  have hdigits : ['0', '0', hexDigit (n / 16), hexDigit (n % 16)].mapM Text.hexValue? = some [0, 0, n / 16, n % 16] := by
    simp [hzero.1, hhigh, hlow]
  refine ⟨⟨rest, behind⟩, ?_, rfl⟩
  unfold readHex
  rw [hbytes]
  simp only [List.take_succ_cons, List.take_zero, hdigits, List.foldl_cons, List.foldl_nil, List.drop_succ_cons,
    List.drop_zero]
  congr 2
  omega

/-- An escape of four digits stands for the character of that number. -/
theorem readString_unicode {n : Nat} (hn : n < 256) (fuel : Nat) (acc : List Char) {c : Cursor} {rest : List Char}
    (hc : c.rest = '\\' :: 'u' :: '0' :: '0' :: hexDigit (n / 16) :: hexDigit (n % 16) :: rest) :
    ∃ c', readString (fuel + 1) c ⟨acc, none⟩ = readString fuel c' ⟨Char.ofNat n :: acc, none⟩ ∧ c'.rest = rest := by
  obtain ⟨c', hhex, hc'⟩ := readHex_hexDigit hn (c := c.drop.drop) (Cursor.drop_rest (Cursor.drop_rest hc))
  have hunicode : readUnicode c.drop.drop = .ok (.ok (Char.ofNat n), c') := by
    unfold readUnicode
    rw [hhex]
    show (if 0xDC00 ≤ n ∧ n ≤ 0xDFFF then _ else _) = _
    rw [if_neg (by omega), if_pos (by omega)]
    rfl
  obtain ⟨text, spot⟩ := c
  obtain rfl : text = _ := hc
  refine ⟨c', ?_, hc'⟩
  conv_lhs => unfold readString
  dsimp only
  rw [if_neg (by decide), if_neg (by decide), if_neg (by decide), if_pos rfl]
  dsimp only [Cursor.drop] at hunicode ⊢
  rw [hunicode]

/-- One character of a string is read as it is escaped. -/
theorem readString_escapeChar (x : Char) (fuel : Nat) (acc : List Char) {c : Cursor} {rest : List Char}
    (hc : c.rest = escapeChar x ++ rest) :
    ∃ c', readString (fuel + 1) c ⟨acc, none⟩ = readString fuel c' ⟨x :: acc, none⟩ ∧ c'.rest = rest := by
  have hnamed {n : Nat} (hn : x.toNat = n) : x = Char.ofNat n := hn ▸ (Char.ofNat_toNat x).symm
  unfold escapeChar at hc
  split at hc
  · rename_i hx
    exact hx ▸ readString_simple (by decide) (by decide) fuel acc hc
  · rename_i hquote
    split at hc
    · rename_i hx
      exact hx ▸ readString_simple (by decide) (by decide) fuel acc hc
    · rename_i hslash
      iterate 5
        split at hc
        · rename_i hx
          exact hnamed hx ▸ readString_simple (by decide) (by decide) fuel acc hc
      split at hc
      · rename_i hcontrol
        have hread := readString_unicode (n := x.toNat) (by omega) fuel acc hc
        rwa [Char.ofNat_toNat] at hread
      · rename_i hcontrol
        obtain ⟨text, spot⟩ := c
        obtain rfl : text = x :: rest := hc
        refine ⟨⟨rest, spot.after x⟩, ?_, rfl⟩
        conv_lhs => unfold readString
        dsimp only
        rw [if_neg hquote, if_neg hcontrol, if_pos hslash]

/-- **A string is read as it was before its characters were escaped.** -/
theorem readString_escaped (cs : List Char) (fuel : Nat) (hfuel : cs.length < fuel) (acc : List Char) {c : Cursor}
    {rest : List Char} (hc : c.rest = cs.flatMap escapeChar ++ '"' :: rest) :
    ∃ c', readString fuel c ⟨acc, none⟩ = .ok (.ok (String.ofList (acc.reverse ++ cs)), c') ∧ c'.rest = rest := by
  induction cs generalizing fuel acc c with
  | nil =>
    obtain ⟨fuel, rfl⟩ : ∃ n, fuel = n + 1 := ⟨fuel - 1, by omega⟩
    obtain ⟨text, spot⟩ := c
    obtain rfl : text = '"' :: rest := hc
    refine ⟨⟨rest, spot.after '"'⟩, ?_, rfl⟩
    rw [List.append_nil]
    rfl
  | cons x cs ih =>
    obtain ⟨fuel, rfl⟩ : ∃ n, fuel = n + 1 := ⟨fuel - 1, by omega⟩
    rw [List.flatMap_cons, List.append_assoc] at hc
    obtain ⟨c₁, hstep, hc₁⟩ := readString_escapeChar x fuel acc hc
    obtain ⟨c₂, hread, hc₂⟩ := ih fuel (Nat.succ_lt_succ_iff.1 hfuel) (x :: acc) hc₁
    refine ⟨c₂, ?_, hc₂⟩
    rw [hstep, hread, List.reverse_cons, List.append_assoc]
    rfl

theorem length_le_escaped (cs : List Char) : cs.length ≤ (cs.flatMap escapeChar).length := by
  induction cs with
  | nil => exact Nat.le_refl _
  | cons x cs ih =>
    have hne : 0 < (escapeChar x).length := by
      unfold escapeChar
      repeat' split
      all_goals exact Nat.succ_pos _
    rw [List.flatMap_cons, List.length_append, List.length_cons]
    omega

/-- A quoted string is read as the string. -/
theorem readString_quoted (s : String) {c : Cursor} {rest : List Char} (hc : c.rest = quoted s ++ rest) :
    ∃ c', readString c.rest.length c.drop ⟨[], none⟩ = .ok (.ok s, c') ∧ c'.rest = rest := by
  have hquote : c.rest = '"' :: (s.toList.flatMap escapeChar ++ '"' :: rest) := by
    rw [hc, quoted, List.cons_append, List.cons_append, List.append_assoc]
    rfl
  have hfuel : s.toList.length < c.rest.length := by
    rw [hquote, List.length_cons, List.length_append]
    have hle := length_le_escaped s.toList
    omega
  obtain ⟨c', hread, hc'⟩ := readString_escaped s.toList c.rest.length hfuel [] (Cursor.drop_rest hquote)
  refine ⟨c', ?_, hc'⟩
  rw [hread, List.reverse_nil, List.nil_append, String.ofList_toList]

/-! ## Trees that spell a value -/

mutual

/-- Whether a tree spells a value, wherever its parts stand. -/
inductive Tree.Spells : Tree → Json → Prop
  | null (stop : Spot) : Tree.Spells (.null stop) .null
  | bool (b : Bool) (stop : Spot) : Tree.Spells (.bool b stop) (.bool b)
  | number (n : Number) (stop : Spot) : Tree.Spells (.number n.numeral stop) (.num n)
  | text (s : String) (stop : Spot) : Tree.Spells (.text (.ok s) stop) (.str s)
  | list (start : Spot) {items : Items} {vs : List Json} (h : items.Spells vs) : Tree.Spells (.list start items) (.arr vs)
  | record (start : Spot) {members : Members} {ms : List (String × Json)} (h : members.Spells ms) :
    Tree.Spells (.record start members) (.obj ms)

/-- Whether the items of a list spell values. -/
inductive Items.Spells : Items → List Json → Prop
  | close (stop : Spot) : Items.Spells (.close stop) []
  | item (start : Spot) {t : Tree} {rest : Items} {v : Json} {vs : List Json} (head : t.Spells v) (tail : rest.Spells vs) :
    Items.Spells (.item start t rest) (v :: vs)

/-- Whether the members of an object spell members. -/
inductive Members.Spells : Members → List (String × Json) → Prop
  | close (stop : Spot) : Members.Spells (.close stop) []
  | member (key : String) (settled : Spot) {t : Tree} {rest : Members} {v : Json} {ms : List (String × Json)}
    (head : t.Spells v) (tail : rest.Spells ms) : Members.Spells (.member (.ok key) settled t rest) ((key, v) :: ms)

end

/-! ## Blanks -/

/-- Characters that may stand between tokens. -/
def AreBlanks (gap : List Char) : Prop := ∀ c ∈ gap, Cursor.isBlank c = true

theorem Cursor.skipBlanksFrom_rest {gap rest : List Char} (hgap : AreBlanks gap)
    (hrest : ∀ x ∈ rest.head?, Cursor.isBlank x = false) (s : Spot) :
    (Cursor.skipBlanksFrom (gap ++ rest) s).rest = rest := by
  induction gap generalizing s with
  | nil =>
    cases rest with
    | nil => rfl
    | cons x xs =>
      rw [List.nil_append, Cursor.skipBlanksFrom, hrest x rfl]
      rfl
  | cons x gap ih =>
    rw [List.cons_append, Cursor.skipBlanksFrom, if_pos (hgap x List.mem_cons_self)]
    exact ih (fun c hc => hgap c (List.mem_cons_of_mem x hc)) _

/-- Blanks are passed over up to what is none. -/
theorem Cursor.skipBlanks_rest {gap rest : List Char} (hgap : AreBlanks gap) {x : Char} {xs : List Char}
    (hrest : rest = x :: xs) (hx : Cursor.isBlank x = false) {c : Cursor} (hc : c.rest = gap ++ rest) :
    c.skipBlanks.rest = rest := by
  rw [Cursor.skipBlanks, hc]
  refine Cursor.skipBlanksFrom_rest hgap ?_ _
  rw [hrest]
  rintro _ ⟨⟩
  exact hx

/-- Where blanks were passed over, there are none. -/
theorem Cursor.skipBlanks_of_rest {c : Cursor} {x : Char} {xs : List Char} (hc : c.rest = x :: xs)
    (hx : Cursor.isBlank x = false) : c.skipBlanks = c := by
  obtain ⟨rest, spot⟩ := c
  obtain rfl : rest = x :: xs := hc
  rw [Cursor.skipBlanks, Cursor.skipBlanksFrom, hx]
  rfl

/-! ## Texts that are read -/

/-- A text is read as a value: into a tree that spells it, and up to the end of the text. -/
structure Reads (v : Json) (text : List Char) : Prop where
  /-- The text starts with neither a blank nor a closing bracket. -/
  opens : ∃ x xs, text = x :: xs ∧ Cursor.isBlank x = false ∧ x ≠ ']'
  reads : ∀ (fuel : Nat) (c : Cursor) (rest : List Char), 2 * text.length < fuel → EndsNumber rest → c.rest = text ++ rest →
    ∃ t c', readTree fuel c = (t, some c') ∧ c'.rest = rest ∧ t.Spells v

/-- The reader is led by the first character of a text. -/
theorem Reads.of_cons {v : Json} {x : Char} {xs : List Char} (hx : Cursor.isBlank x = false) (hclose : x ≠ ']')
    (h : ∀ (fuel : Nat) (c : Cursor) (rest : List Char), 2 * xs.length < fuel → EndsNumber rest →
      c.rest = x :: (xs ++ rest) → ∃ t c', readTree (fuel + 1) c = (t, some c') ∧ c'.rest = rest ∧ t.Spells v) :
    Reads v (x :: xs) := by
  refine ⟨⟨x, xs, rfl, hx, hclose⟩, fun fuel c rest hfuel hrest hc => ?_⟩
  rw [List.length_cons] at hfuel
  obtain ⟨fuel, rfl⟩ : ∃ n, fuel = n + 1 := ⟨fuel - 1, by omega⟩
  exact h fuel c rest (by omega) hrest hc

theorem readWord_append (ws : List Char) {c : Cursor} {rest : List Char} (hc : c.rest = ws ++ rest) :
    ∃ c', readWord ws c = .ok c' ∧ c'.rest = rest := by
  induction ws generalizing c with
  | nil => exact ⟨c, rfl, hc⟩
  | cons w ws ih =>
    obtain ⟨c', hread, hc'⟩ := ih (Cursor.drop_rest hc)
    refine ⟨c', ?_, hc'⟩
    rw [readWord, hc]
    exact (if_pos rfl).trans hread

/-- A word is read that its first letter leads to. -/
theorem reads_word {v : Json} (leaf : Spot → Tree) (hleaf : ∀ stop, (leaf stop).Spells v) (x : Char) (xs : List Char)
    (hx : Cursor.isBlank x = false) (hclose : x ≠ ']')
    (hread : ∀ (fuel : Nat) (c : Cursor) (rest : List Char), c.rest = x :: rest →
      readTree (fuel + 1) c = word (readWord xs c.drop) leaf) : Reads v (x :: xs) := by
  refine Reads.of_cons hx hclose fun fuel c rest _ _ hc => ?_
  obtain ⟨c', hword, hc'⟩ := readWord_append xs (Cursor.drop_rest hc)
  exact ⟨leaf c'.spot, c', by rw [hread fuel c _ hc, hword, word], hc', hleaf _⟩

/-- A string as a tree. -/
def textTree (r : Except (Fault × Fault) (Except Fault String × Cursor)) : Tree × Option Cursor :=
  match r with
  | .ok (content, c) => (.text content c.spot, some c)
  | .error (f, passed) => (.broken f passed, none)

/-- What is read is told by the first character. -/
theorem readTree_of_rest {c : Cursor} {x : Char} {rest : List Char} (hc : c.rest = x :: rest)
    (hx : Cursor.isBlank x = false) (fuel : Nat) :
    readTree (fuel + 1) c =
      if x = 'n' then word (readWord "ull".toList c.drop) .null
      else if x = 't' then word (readWord "rue".toList c.drop) (.bool true)
      else if x = 'f' then word (readWord "alse".toList c.drop) (.bool false)
      else if x = '-' then numeral (readNumber true c.drop)
      else if Text.isDigit x then numeral (readNumber false c)
      else if x = '"' then textTree (readString (x :: rest).length c.drop ⟨[], none⟩)
      else if x = '[' then (.list c.spot (readItems fuel true c.drop).1, (readItems fuel true c.drop).2)
      else if x = '\x7b' then (.record c.spot (readMembers fuel true c.drop).1, (readMembers fuel true c.drop).2)
      else (broken ⟨.expectedValue, c.ahead⟩, none) := by
  rw [readTree, Cursor.skipBlanks_of_rest hc hx]
  dsimp only
  rw [hc]
  rfl

theorem reads_null : Reads .null (scalarChars .null) :=
  reads_word .null .null 'n' "ull".toList (by decide) (by decide) fun fuel c rest hc => by
    rw [readTree_of_rest hc (by decide), if_pos rfl]

theorem reads_bool (b : Bool) : Reads (.bool b) (scalarChars (.bool b)) := by
  cases b
  · refine reads_word (.bool false) (.bool false) 'f' "alse".toList (by decide) (by decide)
      fun fuel c rest hc => ?_
    rw [readTree_of_rest hc (by decide), if_neg (by decide), if_neg (by decide), if_pos rfl]
  · refine reads_word (.bool true) (.bool true) 't' "rue".toList (by decide) (by decide)
      fun fuel c rest hc => ?_
    rw [readTree_of_rest hc (by decide), if_neg (by decide), if_pos rfl]

theorem reads_str (s : String) : Reads (.str s) (scalarChars (.str s)) := by
  refine Reads.of_cons (x := '"') (by decide) (by decide) fun fuel c rest _ _ hc => ?_
  obtain ⟨c', hread, hc'⟩ := readString_quoted s (c := c) hc
  refine ⟨.text (.ok s) c'.spot, c', ?_, hc', .text _ _⟩
  rw [readTree_of_rest hc (by decide), if_neg (by decide), if_neg (by decide), if_neg (by decide), if_neg (by decide),
    if_neg (by decide), if_pos rfl, ← hc, hread, textTree]

theorem ne_of_isDigit {c : Char} (hc : Text.isDigit c = true) :
    Cursor.isBlank c = false ∧ c ≠ ']' ∧ c ≠ 'n' ∧ c ≠ 't' ∧ c ≠ 'f' ∧ c ≠ '-' := by
  refine ⟨?_, ?_, ?_, ?_, ?_, ?_⟩
  · rw [Bool.eq_false_iff]
    intro h
    simp only [Cursor.isBlank, Bool.or_eq_true, decide_eq_true_iff] at h
    rcases h with ((rfl | rfl) | rfl) | rfl
    all_goals exact absurd hc (by decide)
  all_goals
    rintro rfl
    exact absurd hc (by decide)

/-- **A number is read as its numeral.** -/
theorem reads_num {n : Number} (hn : n.Valid) : Reads (.num n) (scalarChars (.num n)) := by
  have hwell := n.wellFormed_numeral
  rw [scalarChars, Number.text_numeral hn, Numeral.chars]
  split
  · rename_i hnegative
    refine Reads.of_cons (by decide) (by decide) fun fuel c rest _ hrest hc => ?_
    obtain ⟨c', hread, hc'⟩ := readNumber_append hwell hrest (Cursor.drop_rest hc)
    refine ⟨.number n.numeral c'.spot, c', ?_, hc', .number _ _⟩
    rw [readTree_of_rest hc (by decide), if_neg (by decide), if_neg (by decide), if_neg (by decide), if_pos rfl,
      ← hnegative, hread, numeral]
  · rename_i hnegative
    obtain ⟨d, ds, hds⟩ := List.exists_cons_of_ne_nil hwell.whole.nonempty
    have hd : Text.isDigit d = true := hwell.whole.digits d (hds ▸ List.mem_cons_self)
    obtain ⟨hblank, hclose, hn, ht, hf, hminus⟩ := ne_of_isDigit hd
    have hunsigned : n.numeral.unsigned = d :: (ds ++ (Numeral.fractionChars n.numeral.fraction ++
        Numeral.exponentChars n.numeral.exponent)) := by
      rw [Numeral.unsigned, hds, List.cons_append]
    rw [hunsigned]
    refine Reads.of_cons hblank hclose fun fuel c rest _ hrest hc => ?_
    obtain ⟨c', hread, hc'⟩ := readNumber_append hwell hrest (c := c) (by rw [hc, hunsigned]; rfl)
    refine ⟨.number n.numeral c'.spot, c', ?_, hc', .number _ _⟩
    rw [Bool.eq_false_iff.2 hnegative] at hread
    rw [readTree_of_rest hc hblank, if_neg hn, if_neg ht, if_neg hf, if_neg hminus, if_pos hd, hread, numeral]

/-! ## Lists and objects -/

/-- The text of the items of a list behind its bracket or behind an item: a gap in front of each item, and another one in
front of the bracket. -/
def itemsChars (gap close : List Char) (chars : Json → List Char) : Bool → List Json → List Char
  | _, [] => close ++ [']']
  | first, v :: rest => (if first then [] else [',']) ++ (gap ++ (chars v ++ itemsChars gap close chars false rest))

/-- The text of the members of an object behind its bracket or behind a member. -/
def membersChars (gap close blank : List Char) (chars : Json → List Char) : Bool → List (String × Json) → List Char
  | _, [] => close ++ ['\x7d']
  | first, (k, v) :: rest =>
    (if first then [] else [',']) ++
      (gap ++ (quoted k ++ ':' :: (blank ++ (chars v ++ membersChars gap close blank chars false rest))))

theorem endsNumber_of_blank {x : Char} (hx : Cursor.isBlank x = true) (xs : List Char) : EndsNumber (x :: xs) := by
  rintro _ ⟨⟩
  simp only [Cursor.isBlank, Bool.or_eq_true, decide_eq_true_iff] at hx
  rcases hx with ((rfl | rfl) | rfl) | rfl
  all_goals decide

theorem endsNumber_of_blanks {gap rest : List Char} (hgap : AreBlanks gap) (hrest : EndsNumber rest) :
    EndsNumber (gap ++ rest) := by
  cases gap with
  | nil => exact hrest
  | cons x gap => exact endsNumber_of_blank (hgap x List.mem_cons_self) _

/-- A value is read behind blanks, too. -/
theorem Reads.behind {v : Json} {text : List Char} (h : Reads v text) {gap : List Char} (hgap : AreBlanks gap) (fuel : Nat)
    (hfuel : 2 * text.length < fuel) {c : Cursor} {rest : List Char} (hrest : EndsNumber rest)
    (hc : c.rest = gap ++ (text ++ rest)) : ∃ t c', readTree fuel c = (t, some c') ∧ c'.rest = rest ∧ t.Spells v := by
  obtain ⟨x, xs, htext, hx, -⟩ := h.opens
  have hskip : c.skipBlanks.rest = text ++ rest :=
    Cursor.skipBlanks_rest hgap (show text ++ rest = x :: (xs ++ rest) by rw [htext]; rfl) hx hc
  obtain ⟨fuel, rfl⟩ : ∃ n, fuel = n + 1 := ⟨fuel - 1, by omega⟩
  have hhead : c.skipBlanks.rest = x :: (xs ++ rest) := by
    rw [hskip, htext]
    rfl
  have hsame : readTree (fuel + 1) c = readTree (fuel + 1) c.skipBlanks := by
    rw [readTree, readTree, Cursor.skipBlanks_of_rest hhead hx]
  rw [hsame]
  exact h.reads (fuel + 1) c.skipBlanks rest hfuel hrest hskip

section

variable {gap close : List Char} {chars : Json → List Char}

/-- The reader is led to an item, be it the first or behind a comma. -/
theorem readItems_item (hgap : AreBlanks gap) {text : List Char} {x : Char} {xs : List Char} (htext : text = x :: xs)
    (hx : Cursor.isBlank x = false) (hclosing : x ≠ ']') (first : Bool) (fuel : Nat) {c : Cursor}
    (hc : c.rest = (if first then [] else [',']) ++ (gap ++ text)) :
    ∃ c', readItems (fuel + 1) first c = item fuel c' ∧ c'.rest = text := by
  cases first
  · have hcomma : c.skipBlanks = c := Cursor.skipBlanks_of_rest (x := ',') hc (by decide)
    have hskip : c.drop.skipBlanks.rest = text := Cursor.skipBlanks_rest hgap htext hx (Cursor.drop_rest hc)
    refine ⟨c.drop.skipBlanks, ?_, hskip⟩
    rw [readItems, hcomma]
    dsimp only
    rw [hc]
    show (if ',' = ']' then _ else _) = _
    rw [if_neg (by decide), if_neg (by decide), if_pos rfl, hskip, htext]
    split
    · rename_i h
      cases h
    · rename_i h
      exact absurd (List.cons.inj h).1 hclosing
    · rfl
  · have hskip : c.skipBlanks.rest = text := Cursor.skipBlanks_rest hgap htext hx hc
    refine ⟨c.skipBlanks, ?_, hskip⟩
    rw [readItems]
    dsimp only
    rw [hskip, htext]
    dsimp only
    rw [if_neg hclosing, if_pos rfl]

/-- **The items of a list are read if each of them is.** -/
theorem readItems_itemsChars (hgap : AreBlanks gap) (hclose : AreBlanks close) {vs : List Json}
    (hvs : ∀ v ∈ vs, Reads v (chars v)) (first : Bool) (fuel : Nat)
    (hfuel : 2 * (itemsChars gap close chars first vs).length < fuel) {c : Cursor} {rest : List Char}
    (hc : c.rest = itemsChars gap close chars first vs ++ rest) :
    ∃ is c', readItems fuel first c = (is, some c') ∧ c'.rest = rest ∧ is.Spells vs := by
  induction vs generalizing first fuel c with
  | nil =>
    rw [itemsChars, List.length_append, List.length_singleton] at hfuel
    obtain ⟨fuel, rfl⟩ : ∃ n, fuel = n + 1 := ⟨fuel - 1, by omega⟩
    have hskip : c.skipBlanks.rest = ']' :: rest :=
      Cursor.skipBlanks_rest hclose rfl (by decide) (by rw [hc, itemsChars, List.append_assoc]; rfl)
    refine ⟨.close c.skipBlanks.drop.spot, c.skipBlanks.drop, ?_, Cursor.drop_rest hskip, .close _⟩
    rw [readItems]
    dsimp only
    rw [hskip]
    exact if_pos rfl
  | cons v vs ih =>
    have hv := hvs v List.mem_cons_self
    obtain ⟨x, xs, htext, hx, hclosing⟩ := hv.opens
    have htail : 0 < (itemsChars gap close chars false vs).length ∧
        EndsNumber (itemsChars gap close chars false vs ++ rest) := by
      cases vs with
      | nil =>
        rw [itemsChars, List.append_assoc, List.length_append]
        exact ⟨Nat.succ_pos _, endsNumber_of_blanks hclose (by rintro _ ⟨⟩; decide)⟩
      | cons w ws => exact ⟨Nat.succ_pos _, by rintro _ ⟨⟩; decide⟩
    have hlength : 0 < (chars v).length := by
      rw [htext]
      exact Nat.succ_pos _
    simp only [itemsChars, List.length_append] at hfuel
    obtain ⟨fuel, rfl⟩ : ∃ n, fuel = n + 2 := ⟨fuel - 2, by omega⟩
    rw [itemsChars, List.append_assoc, List.append_assoc, List.append_assoc] at hc
    obtain ⟨c₁, hitem, hc₁⟩ := readItems_item hgap (by rw [htext]; rfl) hx hclosing first (fuel + 1) hc
    obtain ⟨t, c₂, hread, hc₂, ht⟩ := hv.reads fuel c₁ _ (by omega) htail.2 hc₁
    obtain ⟨is, c₃, hrest, hc₃, his⟩ :=
      ih (fun w hw => hvs w (List.mem_cons_of_mem v hw)) false fuel (by omega) hc₂
    refine ⟨.item c₁.ahead t is, c₃, ?_, hc₃, .item _ ht his⟩
    rw [hitem, item, hread]
    dsimp only
    rw [hrest]

/-- The reader is led to a member, be it the first or behind a comma. -/
theorem readMembers_member (hgap : AreBlanks gap) {text xs : List Char} (htext : text = '"' :: xs) (first : Bool)
    (fuel : Nat) {c : Cursor} (hc : c.rest = (if first then [] else [',']) ++ (gap ++ text)) :
    ∃ c', readMembers (fuel + 1) first c = member fuel c' ∧ c'.rest = text := by
  cases first
  · have hcomma : c.skipBlanks = c := Cursor.skipBlanks_of_rest (x := ',') hc (by decide)
    have hskip : c.drop.skipBlanks.rest = text := Cursor.skipBlanks_rest hgap htext (by decide) (Cursor.drop_rest hc)
    refine ⟨c.drop.skipBlanks, ?_, hskip⟩
    rw [readMembers, hcomma]
    dsimp only
    rw [hc]
    show (if ',' = '\x7d' then _ else _) = _
    rw [if_neg (by decide), if_neg (by decide), if_pos rfl, hskip, htext]
    rfl
  · have hskip : c.skipBlanks.rest = text := Cursor.skipBlanks_rest hgap htext (by decide) hc
    refine ⟨c.skipBlanks, ?_, hskip⟩
    rw [readMembers]
    dsimp only
    rw [hskip, htext]
    dsimp only
    rw [if_neg (by decide), if_pos rfl, if_pos rfl]

/-- **The members of an object are read if the value of each of them is.** -/
theorem readMembers_membersChars {blank : List Char} (hgap : AreBlanks gap) (hclose : AreBlanks close)
    (hblank : AreBlanks blank) {ms : List (String × Json)} (hms : ∀ m ∈ ms, Reads m.2 (chars m.2)) (first : Bool)
    (fuel : Nat) (hfuel : 2 * (membersChars gap close blank chars first ms).length < fuel) {c : Cursor} {rest : List Char}
    (hc : c.rest = membersChars gap close blank chars first ms ++ rest) :
    ∃ is c', readMembers fuel first c = (is, some c') ∧ c'.rest = rest ∧ is.Spells ms := by
  induction ms generalizing first fuel c with
  | nil =>
    obtain ⟨fuel, rfl⟩ : ∃ n, fuel = n + 1 := ⟨fuel - 1, by omega⟩
    have hskip : c.skipBlanks.rest = '\x7d' :: rest :=
      Cursor.skipBlanks_rest hclose rfl (by decide) (by rw [hc, membersChars, List.append_assoc]; rfl)
    refine ⟨.close c.skipBlanks.drop.spot, c.skipBlanks.drop, ?_, Cursor.drop_rest hskip, .close _⟩
    rw [readMembers]
    dsimp only
    rw [hskip]
    exact if_pos rfl
  | cons m ms ih =>
    obtain ⟨k, v⟩ := m
    have hv : Reads v (chars v) := hms (k, v) List.mem_cons_self
    have htail : 0 < (membersChars gap close blank chars false ms).length ∧
        EndsNumber (membersChars gap close blank chars false ms ++ rest) := by
      cases ms with
      | nil =>
        rw [membersChars, List.append_assoc, List.length_append]
        exact ⟨Nat.succ_pos _, endsNumber_of_blanks hclose (by rintro _ ⟨⟩; decide)⟩
      | cons w ws => exact ⟨Nat.succ_pos _, by rintro _ ⟨⟩; decide⟩
    simp only [membersChars, List.length_append, List.length_cons] at hfuel
    obtain ⟨fuel, rfl⟩ : ∃ n, fuel = n + 2 := ⟨fuel - 2, by omega⟩
    simp only [membersChars, List.append_assoc, List.cons_append] at hc
    obtain ⟨c₁, hmember, hc₁⟩ := readMembers_member hgap rfl first (fuel + 1) hc
    obtain ⟨c₂, hkey, hc₂⟩ := readString_quoted k hc₁
    have hcolon : c₂.skipBlanks = c₂ := Cursor.skipBlanks_of_rest hc₂ (by decide)
    obtain ⟨t, c₃, hread, hc₃, ht⟩ := hv.behind hblank fuel (by omega) htail.2 (Cursor.drop_rest hc₂)
    obtain ⟨is, c₄, hrest, hc₄, his⟩ :=
      ih (fun w hw => hms w (List.mem_cons_of_mem _ hw)) false fuel (by omega) hc₃
    refine ⟨.member (.ok k) c₂.spot t is, c₄, ?_, hc₄, .member k _ ht his⟩
    rw [hmember, member, hkey]
    dsimp only
    rw [hcolon, hc₂, hread]
    dsimp only
    rw [hrest]
    rfl

/-- A list is read if its items are. -/
theorem Reads.arr (hgap : AreBlanks gap) (hclose : AreBlanks close) {vs : List Json}
    (hvs : ∀ v ∈ vs, Reads v (chars v)) : Reads (.arr vs) ('[' :: itemsChars gap close chars true vs) := by
  refine Reads.of_cons (by decide) (by decide) fun fuel c rest hfuel _ hc => ?_
  obtain ⟨is, c', hread, hc', his⟩ := readItems_itemsChars hgap hclose hvs true fuel hfuel (Cursor.drop_rest hc)
  refine ⟨.list c.spot is, c', ?_, hc', .list _ his⟩
  rw [readTree_of_rest hc (by decide), if_neg (by decide), if_neg (by decide), if_neg (by decide), if_neg (by decide),
    if_neg (by decide), if_neg (by decide), if_pos rfl, hread]

/-- An object is read if the values of its members are. -/
theorem Reads.obj {blank : List Char} (hgap : AreBlanks gap) (hclose : AreBlanks close) (hblank : AreBlanks blank)
    {ms : List (String × Json)} (hms : ∀ m ∈ ms, Reads m.2 (chars m.2)) :
    Reads (.obj ms) ('\x7b' :: membersChars gap close blank chars true ms) := by
  refine Reads.of_cons (by decide) (by decide) fun fuel c rest hfuel _ hc => ?_
  obtain ⟨is, c', hread, hc', his⟩ :=
    readMembers_membersChars hgap hclose hblank hms true fuel hfuel (Cursor.drop_rest hc)
  refine ⟨.record c.spot is, c', ?_, hc', .record _ his⟩
  rw [readTree_of_rest hc (by decide), if_neg (by decide), if_neg (by decide), if_neg (by decide), if_neg (by decide),
    if_neg (by decide), if_neg (by decide), if_neg (by decide), if_pos rfl, hread]

end

/-! ## The texts of a value -/

/-- A value whose numbers a document can hold. -/
inductive Writable : Json → Prop
  | null : Writable .null
  | bool (b : Bool) : Writable (.bool b)
  | num {n : Number} (h : n.Valid) : Writable (.num n)
  | str (s : String) : Writable (.str s)
  | arr {vs : List Json} (h : ∀ v ∈ vs, Writable v) : Writable (.arr vs)
  | obj {ms : List (String × Json)} (h : ∀ m ∈ ms, Writable m.2) : Writable (.obj ms)

theorem areBlanks_nil : AreBlanks [] := fun _ h => absurd h List.not_mem_nil

theorem areBlanks_newline (level : Nat) : AreBlanks (newline level) := by
  intro c hc
  rcases List.mem_cons.1 hc with rfl | hc
  · decide
  · rw [List.eq_of_mem_replicate hc]
    decide

theorem compactItems_append (vs : List Json) (first : Bool) :
    (if first || vs.isEmpty then [] else [',']) ++ (compactItems vs ++ [']']) = itemsChars [] [] compactChars first vs := by
  induction vs generalizing first with
  | nil => simp [compactItems, itemsChars]
  | cons v vs ih =>
    rw [itemsChars, ← ih false]
    cases vs with
    | nil => simp [compactItems]
    | cons w ws => simp [compactItems]

theorem compactMembers_append (ms : List (String × Json)) (first : Bool) :
    (if first || ms.isEmpty then [] else [',']) ++ (compactMembers ms ++ ['\x7d']) =
      membersChars [] [] [] compactChars first ms := by
  induction ms generalizing first with
  | nil => simp [compactMembers, membersChars]
  | cons m ms ih =>
    rw [membersChars, ← ih false]
    cases ms with
    | nil => simp [compactMembers]
    | cons w ws => simp [compactMembers]

theorem prettyItems_append (level : Nat) (close : List Char) (vs : List Json) (first : Bool) :
    (if first || vs.isEmpty then [] else [',']) ++ (prettyItems level vs ++ (close ++ [']'])) =
      itemsChars (newline level) close (prettyChars level) first vs := by
  induction vs generalizing first with
  | nil => simp [prettyItems, itemsChars]
  | cons v vs ih =>
    rw [itemsChars, ← ih false]
    cases vs with
    | nil => simp [prettyItems]
    | cons w ws => simp [prettyItems]

theorem prettyMembers_append (level : Nat) (close : List Char) (ms : List (String × Json)) (first : Bool) :
    (if first || ms.isEmpty then [] else [',']) ++ (prettyMembers level ms ++ (close ++ ['\x7d'])) =
      membersChars (newline level) close [' '] (prettyChars level) first ms := by
  induction ms generalizing first with
  | nil => simp [prettyMembers, membersChars]
  | cons m ms ih =>
    rw [membersChars, ← ih false]
    cases ms with
    | nil => simp [prettyMembers]
    | cons w ws => simp [prettyMembers]

/-- **The compact text of a value is read as the value.** -/
theorem reads_compact {v : Json} (h : Writable v) : Reads v (compactChars v) := by
  induction h with
  | null => exact reads_null
  | bool b => exact reads_bool b
  | num h => exact reads_num h
  | str s => exact reads_str s
  | @arr vs _ ih =>
    have htext : compactChars (.arr vs) = '[' :: itemsChars [] [] compactChars true vs := by
      rw [compactChars, ← compactItems_append vs true]
      rfl
    exact htext ▸ Reads.arr areBlanks_nil areBlanks_nil ih
  | @obj ms _ ih =>
    have htext : compactChars (.obj ms) = '\x7b' :: membersChars [] [] [] compactChars true ms := by
      rw [compactChars, ← compactMembers_append ms true]
      rfl
    exact htext ▸ Reads.obj areBlanks_nil areBlanks_nil areBlanks_nil ih

/-- **The text of a value that is set out on lines is read as the value.** -/
theorem reads_pretty {v : Json} (h : Writable v) (level : Nat) : Reads v (prettyChars level v) := by
  induction h generalizing level with
  | null => exact reads_null
  | bool b => exact reads_bool b
  | num h => exact reads_num h
  | str s => exact reads_str s
  | @arr vs _ ih =>
    cases vs with
    | nil => exact Reads.arr areBlanks_nil areBlanks_nil fun w hw => ih w hw level
    | cons v vs =>
      have htext : prettyChars level (.arr (v :: vs)) =
          '[' :: itemsChars (newline (level + 1)) (newline level) (prettyChars (level + 1)) true (v :: vs) := by
        rw [prettyChars, ← prettyItems_append]
        simp
      exact htext ▸ Reads.arr (areBlanks_newline _) (areBlanks_newline _) fun w hw => ih w hw (level + 1)
  | @obj ms _ ih =>
    cases ms with
    | nil => exact Reads.obj areBlanks_nil areBlanks_nil areBlanks_nil fun w hw => ih w hw level
    | cons m ms =>
      have htext : prettyChars level (.obj (m :: ms)) = '\x7b' ::
          membersChars (newline (level + 1)) (newline level) [' '] (prettyChars (level + 1)) true (m :: ms) := by
        rw [prettyChars, ← prettyMembers_append]
        simp
      have hblank : AreBlanks [' '] := by
        intro c hc
        rw [List.mem_singleton.1 hc]
        decide
      exact htext ▸ Reads.obj (areBlanks_newline _) (areBlanks_newline _) hblank fun w hw => ih w hw (level + 1)

/-- A text that is read as a value is a document of that value. -/
theorem Reads.ofText {v : Json} {text : List Char} (h : Reads v text) :
    ∃ t, Tree.ofText (String.ofList text) = (t, none) ∧ t.Spells v := by
  have hrest : (Cursor.ofText (String.ofList text)).rest = text ++ [] := by
    rw [List.append_nil, Cursor.ofText, String.toList_ofList]
  have hlength : (Cursor.ofText (String.ofList text)).rest.length = text.length := by
    rw [hrest, List.append_nil]
  obtain ⟨t, c', hread, hc', ht⟩ :=
    h.reads (3 * text.length + 3) _ [] (by omega) (fun _ h => absurd h (Option.not_mem_none _)) hrest
  have hend : c'.skipBlanks.rest = [] := by
    rw [Cursor.skipBlanks, hc']
    rfl
  refine ⟨t, ?_, ht⟩
  unfold Tree.ofText
  dsimp only
  rw [hlength, hread]
  dsimp only
  rw [hend]
  rfl

end Json
end ArmPilot
