import ArmPilot.Run.Pass
import Mathlib.Order.Bounds.Basic
import Mathlib.Tactic.Common

/-!
# Blocks among the parts of a list

How far a block reaches depends on the parts behind its start alone.  A stretch of parts that closes what it opens
(`Balanced`) is passed over by every block around it.  Counted over any parts, a block is open as long as more starts
than ends were met (`height`, `open_of_lt_skipBlock`, `skipBlock_ends`).  So blocks are nested also where a list is
malformed: one that begins inside another does not reach beyond it (`skipBlock_nested`), unless it begins right behind
its end.
-/

namespace ArmPilot
namespace Run

theorem insideBlock_startBlock (depth : Nat) (rest : List Part) :
    insideBlock depth (.startBlock :: rest) = insideBlock (depth + 1) rest + 1 := rfl

theorem insideBlock_endBlock_succ (depth : Nat) (rest : List Part) :
    insideBlock (depth + 1) (.endBlock :: rest) = insideBlock depth rest + 1 := rfl

/-- A part that is neither start nor end lies in the block. -/
theorem insideBlock_cons {p : Part} (hs : p ≠ .startBlock) (he : p ≠ .endBlock) (depth : Nat) (rest : List Part) :
    insideBlock depth (p :: rest) = insideBlock depth rest + 1 := by
  cases p with
  | plain => rfl
  | elseMark => rfl
  | startBlock => exact absurd rfl hs
  | endBlock => exact absurd rfl he

/-! ## Balanced parts -/

/-- Whether parts close every block that they open, and no other: a block around them goes on behind them. -/
def Balanced (parts : List Part) : Prop :=
  ∀ depth rest, insideBlock depth (parts ++ rest) = parts.length + insideBlock depth rest

namespace Balanced

theorem nil : Balanced [] := fun _ _ => (Nat.zero_add _).symm

theorem append {ps qs : List Part} (hp : Balanced ps) (hq : Balanced qs) : Balanced (ps ++ qs) := by
  intro depth rest
  rw [List.append_assoc, hp, hq, List.length_append, Nat.add_assoc]

theorem cons {p : Part} {ps : List Part} (hs : p ≠ .startBlock) (he : p ≠ .endBlock) (hp : Balanced ps) :
    Balanced (p :: ps) := by
  intro depth rest
  rw [List.cons_append, insideBlock_cons hs he, hp, List.length_cons]
  omega

theorem block {ps : List Part} (hp : Balanced ps) : Balanced (.startBlock :: (ps ++ [.endBlock])) := by
  intro depth rest
  rw [List.cons_append, List.append_assoc, List.singleton_append, insideBlock_startBlock, hp,
    insideBlock_endBlock_succ]
  simp only [List.length_cons, List.length_append, List.length_nil]
  omega

end Balanced

/-- A block whose parts are balanced ends with its own end. -/
theorem blockLength_block {ps : List Part} (hp : Balanced ps) (rest : List Part) :
    blockLength (.startBlock :: (ps ++ .endBlock :: rest)) = ps.length + 2 := by
  have h : insideBlock 0 (ps ++ .endBlock :: rest) = ps.length + 1 := hp 0 _
  show insideBlock 0 (ps ++ .endBlock :: rest) + 1 = ps.length + 2
  rw [h]

/-- Without a start there is no block. -/
theorem blockLength_of_head? {parts : List Part} (h : parts.head? ≠ some .startBlock) : blockLength parts = 0 := by
  match parts with
  | [] => rfl
  | .startBlock :: _ => exact absurd rfl h
  | .plain :: _ | .endBlock :: _ | .elseMark :: _ => rfl

/-- Nothing is skipped from a place that no block follows. -/
theorem skipBlock_of_ne {parts : List Part} {i : Nat} (h : parts[i + 1]? ≠ some .startBlock) : skipBlock parts i = i := by
  rw [skipBlock, blockLength_of_head? (by rwa [List.head?_drop]), Nat.add_zero]

theorem blockLength_startBlock (rest : List Part) :
    blockLength (.startBlock :: rest) = insideBlock 0 rest + 1 := rfl

/-! ## Open blocks -/

/-- How many more blocks are opened among parts than are closed. -/
def height (parts : List Part) : ℤ := (parts.count .startBlock : ℤ) - parts.count .endBlock

@[simp] theorem height_nil : height [] = 0 := rfl

theorem height_append (ps qs : List Part) : height (ps ++ qs) = height ps + height qs := by
  simp only [height, List.count_append]
  omega

theorem height_cons (p : Part) (ps : List Part) : height (p :: ps) = height [p] + height ps :=
  height_append [p] ps

theorem height_eq_zero_iff {parts : List Part} :
    height parts = 0 ↔ parts.count .endBlock = parts.count .startBlock := by
  unfold height
  omega

theorem eq_endBlock {p : Part} (h : height [p] < 0) : p = .endBlock := by
  cases p with
  | endBlock => rfl
  | plain => exact absurd h (by decide)
  | startBlock => exact absurd h (by decide)
  | elseMark => exact absurd h (by decide)

/-- A part ends the outermost block that is open, or the parts behind it belong to what is open then. -/
theorem insideBlock_step (depth : ℕ) (p : Part) (rest : List Part) :
    depth + 1 + height [p] = 0 ∧ insideBlock depth (p :: rest) = 1 ∨
      ∃ depth' : ℕ, (depth' : ℤ) = depth + height [p] ∧
        insideBlock depth (p :: rest) = insideBlock depth' rest + 1 := by
  cases p with
  | plain => exact .inr ⟨depth, (Int.add_zero _).symm, rfl⟩
  | elseMark => exact .inr ⟨depth, (Int.add_zero _).symm, rfl⟩
  | startBlock => exact .inr ⟨depth + 1, rfl, rfl⟩
  | endBlock =>
    have hend : height [.endBlock] = -1 := rfl
    cases depth with
    | zero => exact .inl ⟨rfl, rfl⟩
    | succ depth => exact .inr ⟨depth, by omega, rfl⟩

/-- A block is open behind the parts that belong to it, but for its last. -/
theorem open_of_lt_insideBlock {depth n : ℕ} {parts : List Part} (h : n < insideBlock depth parts) :
    0 < depth + 1 + height (parts.take n) := by
  induction parts generalizing depth n with
  | nil => exact absurd h (Nat.not_lt_zero n)
  | cons p rest ih =>
    cases n with
    | zero =>
      rw [List.take_zero, height_nil]
      omega
    | succ n =>
      rcases insideBlock_step depth p rest with ⟨-, hlength⟩ | ⟨depth', hdepth, hlength⟩
      · omega
      · have := ih (show n < insideBlock depth' rest by omega)
        rw [List.take_succ_cons, height_cons]
        omega

/-- The last of these parts closes the block, or the block is never closed. -/
theorem insideBlock_ends (depth : ℕ) (parts : List Part) :
    depth + 1 + height (parts.take (insideBlock depth parts)) = 0 ∨
      insideBlock depth parts = parts.length ∧ 0 < depth + 1 + height parts := by
  induction parts generalizing depth with
  | nil =>
    refine .inr ⟨rfl, ?_⟩
    rw [height_nil]
    omega
  | cons p rest ih =>
    rcases insideBlock_step depth p rest with ⟨hends, hlength⟩ | ⟨depth', hdepth, hlength⟩
    · rw [hlength]
      exact .inl hends
    · rw [hlength, List.take_succ_cons, height_cons, height_cons p rest, List.length_cons]
      rcases ih depth' with hclosed | ⟨hlength, hopen⟩
      · left
        omega
      · right
        omega

/-! ## What is skipped -/

/-- The parts behind a place up to another. -/
def stretch (parts : List Part) (i r : ℕ) : List Part := (parts.drop (i + 1)).take (r - i)

section

variable {parts : List Part} {i j r : ℕ}

theorem stretch_append (hij : i ≤ j) (hjr : j ≤ r) : stretch parts i r = stretch parts i j ++ stretch parts j r := by
  unfold stretch
  rw [show r - i = (j - i) + (r - j) by omega, List.take_add, List.drop_drop, show i + 1 + (j - i) = j + 1 by omega]

theorem drop_of_startBlock (h : parts[i]? = some .startBlock) :
    parts.drop i = .startBlock :: parts.drop (i + 1) := by
  obtain ⟨hlt, hget⟩ := List.getElem?_eq_some_iff.1 h
  rw [List.drop_eq_getElem_cons hlt, hget]

/-- Where a block follows, what is skipped are its start and the parts that belong to it. -/
theorem skipBlock_of_startBlock (h : parts[i + 1]? = some .startBlock) :
    skipBlock parts i = i + 1 + insideBlock 0 (parts.drop (i + 1 + 1)) := by
  rw [skipBlock, drop_of_startBlock h, blockLength_startBlock]
  omega

theorem height_stretch (h : parts[i + 1]? = some .startBlock) (hr : i < r) :
    height (stretch parts i r) = 1 + height ((parts.drop (i + 1 + 1)).take (r - (i + 1))) := by
  rw [stretch, drop_of_startBlock h, show r - i = r - (i + 1) + 1 by omega, List.take_succ_cons, height_cons]
  rfl

/-- A block is not closed by its start. -/
theorem succ_lt_of_closed (h : parts[i + 1]? = some .startBlock) (hr : i < r) (hends : height (stretch parts i r) = 0) :
    i + 1 < r := by
  rcases Nat.eq_or_lt_of_le (show i + 1 ≤ r from hr) with rfl | hlt
  · rw [height_stretch h hr, Nat.sub_self, List.take_zero, height_nil] at hends
    omega
  · exact hlt

/-- The block is open at the places that are skipped, but for the last. -/
theorem open_of_lt_skipBlock (h : parts[i + 1]? = some .startBlock) (hi : i < r) (hr : r < skipBlock parts i) :
    0 < height (stretch parts i r) := by
  rw [skipBlock_of_startBlock h] at hr
  have := open_of_lt_insideBlock (show r - (i + 1) < insideBlock 0 (parts.drop (i + 1 + 1)) by omega)
  rw [height_stretch h hi]
  omega

/-- The block is closed at the last place that is skipped, or it is never closed and the list ends there. -/
theorem skipBlock_ends (h : parts[i + 1]? = some .startBlock) :
    height (stretch parts i (skipBlock parts i)) = 0 ∨
      skipBlock parts i + 1 = parts.length ∧ 0 < height (stretch parts i (skipBlock parts i)) := by
  have hlt := (List.getElem?_eq_some_iff.1 h).1
  have hskip := skipBlock_of_startBlock h
  rw [height_stretch h (by omega), show skipBlock parts i - (i + 1) = insideBlock 0 (parts.drop (i + 1 + 1)) by omega]
  rcases insideBlock_ends 0 (parts.drop (i + 1 + 1)) with hends | ⟨hlength, hopen⟩
  · left
    omega
  · right
    rw [List.take_of_length_le hlength.ge]
    rw [List.length_drop] at hlength
    omega

/-- What is skipped from a place of a list lies within the list. -/
theorem skipBlock_lt_length (h : i < parts.length) : skipBlock parts i < parts.length := by
  have := blockLength_le (parts.drop (i + 1))
  rw [List.length_drop] at this
  unfold skipBlock
  omega

/-- A block is closed by an end. -/
theorem getElem?_skipBlock (h : parts[i + 1]? = some .startBlock)
    (hends : height (stretch parts i (skipBlock parts i)) = 0) : parts[skipBlock parts i]? = some .endBlock := by
  have hlength := (List.getElem?_eq_some_iff.1 h).1
  have hlt := skipBlock_lt_length (show i < parts.length by omega)
  have hskip := skipBlock_of_startBlock h
  have hi := succ_lt_of_closed h (by omega) hends
  have hopen := open_of_lt_skipBlock (r := skipBlock parts i - 1) h (by omega) (by omega)
  generalize skipBlock parts i = r at *
  have hlast : stretch parts (r - 1) r = [parts[r]] := by
    rw [stretch, show r - 1 + 1 = r by omega, show r - (r - 1) = 1 by omega, List.drop_eq_getElem_cons hlt]
    rfl
  rw [stretch_append (show i ≤ r - 1 by omega) (Nat.sub_le r 1), height_append, hlast] at hends
  rw [List.getElem?_eq_getElem hlt, eq_endBlock (p := parts[r]) (by omega)]

/-- **Skipped stretches are laminar.**  What is skipped from a place within a skipped stretch does not go beyond it. -/
theorem skipBlock_laminar (hij : i ≤ j) (hj : j < skipBlock parts i) (hstart : parts[j + 1]? = some .startBlock) :
    skipBlock parts j ≤ skipBlock parts i := by
  by_cases hi : parts[i + 1]? = some .startBlock
  · by_contra! hlt
    rcases skipBlock_ends hi with hends | ⟨hlast, -⟩
    · -- The block behind `j` would be open where the one around it is closed.
      rw [stretch_append hij hj.le, height_append] at hends
      have hinner := open_of_lt_skipBlock hstart hj hlt
      rcases Nat.eq_or_lt_of_le hij with rfl | hij
      · exact hlt.ne rfl
      · have := open_of_lt_skipBlock hi hij hj
        omega
    · have := skipBlock_lt_length (show j < parts.length by omega)
      omega
  · rw [skipBlock_of_ne hi] at hj
    omega

/-- **Skipped stretches are nested.**  What is skipped from a place inside a skipped stretch does not go beyond it,
unless the place is where a block ends. -/
theorem skipBlock_nested (hij : i < j) (hj : j ≤ skipBlock parts i) (hend : parts[j]? ≠ some .endBlock)
    (hstart : parts[j + 1]? = some .startBlock) : skipBlock parts j ≤ skipBlock parts i := by
  rcases Nat.lt_or_eq_of_le hj with hj | rfl
  · exact skipBlock_laminar hij.le hj hstart
  · have hi : parts[i + 1]? = some .startBlock := by
      by_contra hi
      exact hij.ne' (skipBlock_of_ne hi)
    have hlt := (List.getElem?_eq_some_iff.1 hstart).1
    rcases skipBlock_ends hi with hends | ⟨hlast, -⟩
    · exact absurd (getElem?_skipBlock hi hends) hend
    · omega

end

end Run
end ArmPilot
