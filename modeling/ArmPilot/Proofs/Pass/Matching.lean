import ArmPilot.Proofs.Pass.Guards

/-!
# The end of what is skipped

The end of the block that follows a place is searched for by reading the parts behind the place one by one, with a
count of the blocks that are open (`search`).  The search ends where the count comes down to none, which is at the first
place up to which there are as many ends as starts (`ClosedAt`), or with the list.
-/

namespace ArmPilot
namespace Run

/-! ## The search -/

/-- A search for the end of a block: where it ends, and how many blocks were open behind each part that it has read. -/
structure Search where
  place : ℕ
  depths : List ℤ
deriving Repr, DecidableEq

/-- A search that has read another part before, behind which so many blocks were open. -/
def Search.behind (s : Search) (depth : ℤ) : Search := { s with depths := depth :: s.depths }

/-- The search for the end of the block behind a place `i`, at parts of which the first stands at a place `k`.  Nothing
but its own questions keeps the number of open blocks from falling below zero. -/
def searchFrom (i : ℕ) : ℕ → ℤ → List Part → Search
  | k, depth, [] => ⟨if 0 < depth then k - 1 else i, []⟩
  | k, depth, p :: rest =>
    if p = .startBlock then (searchFrom i (k + 1) (depth + 1) rest).behind (depth + 1)
    else if p = .endBlock ∧ 0 < depth then
      if depth - 1 = 0 then ⟨k, [depth - 1]⟩ else (searchFrom i (k + 1) (depth - 1) rest).behind (depth - 1)
    else if depth = 0 then ⟨i, []⟩
    else (searchFrom i (k + 1) depth rest).behind depth

/-- The search for the end of the block that follows a place. -/
def search (parts : List Part) (i : ℕ) : Search := searchFrom i (i + 1) 0 (parts.drop (i + 1))

/-- While blocks are open, a part closes the last of them and ends the search, or the search goes on. -/
theorem searchFrom_step (i k depth : ℕ) (p : Part) (rest : List Part) :
    depth + 1 + height [p] = 0 ∧ searchFrom i k (depth + 1) (p :: rest) = ⟨k, [0]⟩ ∨
      ∃ depth' : ℕ, (depth' : ℤ) = depth + height [p] ∧
        searchFrom i k (depth + 1) (p :: rest) = (searchFrom i (k + 1) (depth' + 1) rest).behind (depth' + 1) := by
  have hopen : (0 : ℤ) < depth + 1 := by omega
  cases p with
  | plain =>
    refine .inr ⟨depth, (Int.add_zero _).symm, ?_⟩
    simp [searchFrom, hopen.ne']
  | elseMark =>
    refine .inr ⟨depth, (Int.add_zero _).symm, ?_⟩
    simp [searchFrom, hopen.ne']
  | startBlock => exact .inr ⟨depth + 1, rfl, rfl⟩
  | endBlock =>
    have hend : height [.endBlock] = -1 := rfl
    rw [searchFrom, if_neg nofun, if_pos ⟨rfl, hopen⟩, Int.add_sub_cancel]
    cases depth with
    | zero => exact .inl ⟨rfl, rfl⟩
    | succ depth => exact .inr ⟨depth, by omega, if_neg (by omega)⟩

/-- While blocks are open, the search reads the parts that belong to them, and counts what these open and close. -/
theorem searchFrom_open (i : ℕ) {k : ℕ} (hk : 0 < k) (depth : ℕ) (parts : List Part) :
    searchFrom i k (depth + 1) parts = ⟨k + insideBlock depth parts - 1,
      (List.range (insideBlock depth parts)).map fun n => depth + 1 + height (parts.take (n + 1))⟩ := by
  induction parts generalizing k depth with
  | nil =>
    rw [searchFrom, if_pos (by omega)]
    rfl
  | cons p rest ih =>
    rcases insideBlock_step depth p rest with ⟨hends, hlength⟩ | ⟨depth', hdepth, hlength⟩
    · rcases searchFrom_step i k depth p rest with ⟨-, hsearch⟩ | ⟨depth', hdepth, -⟩
      · rw [hsearch, hlength]
        simp [hends]
      · omega
    · rcases searchFrom_step i k depth p rest with ⟨hends, -⟩ | ⟨depth'', hdepth', hsearch⟩
      · omega
      · obtain rfl : depth' = depth'' := by omega
        have hcounts (n : ℕ) : (depth : ℤ) + 1 + height ((p :: rest).take (n + 1)) =
            depth' + 1 + height (rest.take n) := by
          rw [List.take_succ_cons, height_cons]
          omega
        rw [hsearch, hlength, ih (Nat.succ_pos k), Search.behind]
        simp only [hcounts, List.range_succ_eq_map, List.map_cons, List.map_map, List.take_zero, height_nil]
        refine congrArg₂ Search.mk (by omega) ?_
        simp [Function.comp_def]

/-- **The search ends where what is skipped ends**, and counts what the parts that it has read open and close. -/
theorem search_eq (parts : List Part) (i : ℕ) :
    search parts i =
      ⟨skipBlock parts i, (List.range (skipBlock parts i - i)).map fun n => height (stretch parts i (i + 1 + n))⟩ := by
  by_cases h : parts[i + 1]? = some .startBlock
  · have hskip := skipBlock_of_startBlock h
    have hcounts (n : ℕ) : height (stretch parts i (i + 1 + n)) = 1 + height ((parts.drop (i + 1 + 1)).take n) := by
      rw [height_stretch h (by omega), Nat.add_sub_cancel_left]
    have hopen := searchFrom_open i (Nat.succ_pos (i + 1)) 0 (parts.drop (i + 1 + 1))
    rw [search, drop_of_startBlock h, searchFrom, if_pos rfl, Int.zero_add]
    rw [Int.natCast_zero, Int.zero_add] at hopen
    rw [hopen, hskip, Search.behind]
    rw [show i + 1 + insideBlock 0 (parts.drop (i + 1 + 1)) - i = insideBlock 0 (parts.drop (i + 1 + 1)) + 1 by omega]
    simp only [hcounts, List.range_succ_eq_map, List.map_cons, List.map_map, List.take_zero, height_nil]
    refine congrArg₂ Search.mk (by omega) rfl
  · rw [skipBlock_of_ne h, Nat.sub_self]
    show searchFrom i (i + 1) 0 (parts.drop (i + 1)) = ⟨i, []⟩
    match hd : parts.drop (i + 1) with
    | [] => rfl
    | .startBlock :: rest =>
      rw [← List.head?_drop, hd] at h
      exact absurd rfl h
    | .plain :: _ | .endBlock :: _ | .elseMark :: _ => rfl

/-- The number of open blocks never falls below zero. -/
theorem search_depths_nonneg {parts : List Part} {i : ℕ} {depth : ℤ} (h : depth ∈ (search parts i).depths) :
    0 ≤ depth := by
  rw [search_eq] at h
  obtain ⟨n, hn, rfl⟩ := List.mem_map.1 h
  have hn := List.mem_range.1 hn
  have hstart : parts[i + 1]? = some .startBlock := by
    by_contra hne
    rw [skipBlock_of_ne hne] at hn
    omega
  rcases Nat.lt_or_ge (i + 1 + n) (skipBlock parts i) with hlt | hge
  · exact (open_of_lt_skipBlock hstart (by omega) hlt).le
  · rw [show i + 1 + n = skipBlock parts i by omega]
    rcases skipBlock_ends hstart with hends | ⟨-, hopen⟩
    · exact hends.ge
    · exact hopen.le

/-! ## Where blocks are closed -/

/-- Whether the blocks that are opened behind a place are closed at another, which lies behind the next place: up to it
there are as many ends as starts. -/
structure ClosedAt (parts : List Part) (i r : ℕ) : Prop where
  behind : i + 1 < r
  within : r < parts.length
  even : (stretch parts i r).count .endBlock = (stretch parts i r).count .startBlock

section

variable {parts parts' : List Part} {i q r : ℕ}

/-- Nothing is skipped behind the first place where the blocks are closed. -/
theorem skipBlock_le_of_closedAt (hstart : parts[i + 1]? = some .startBlock) (h : ClosedAt parts i r) :
    skipBlock parts i ≤ r := by
  by_contra! hlt
  have hopen := open_of_lt_skipBlock hstart (Nat.lt_of_succ_lt h.behind) hlt
  rw [height_eq_zero_iff.2 h.even] at hopen
  exact lt_irrefl 0 hopen

/-- What is skipped ends where the blocks are closed, or they are never closed and it ends with the list. -/
theorem closedAt_skipBlock (hstart : parts[i + 1]? = some .startBlock) :
    ClosedAt parts i (skipBlock parts i) ∨ skipBlock parts i + 1 = parts.length ∧ ∀ r, ¬ClosedAt parts i r := by
  have hlength := (List.getElem?_eq_some_iff.1 hstart).1
  have hskip := skipBlock_of_startBlock hstart
  rcases skipBlock_ends hstart with hends | ⟨hlast, hopen⟩
  · left
    exact ⟨succ_lt_of_closed hstart (by omega) hends, skipBlock_lt_length (by omega), height_eq_zero_iff.1 hends⟩
  · refine .inr ⟨hlast, fun r h => ?_⟩
    have hle := skipBlock_le_of_closedAt hstart h
    have hlt := h.within
    obtain rfl : r = skipBlock parts i := by omega
    rw [height_eq_zero_iff.2 h.even] at hopen
    exact lt_irrefl 0 hopen

/-- Where the blocks are closed depends on no part behind. -/
theorem ClosedAt.of_take (h : ClosedAt parts i q) (hq : q ≤ r) (htake : parts'.take (r + 1) = parts.take (r + 1)) :
    ClosedAt parts' i q := by
  have hstretch (ps : List Part) : stretch (ps.take (r + 1)) i q = stretch ps i q := by
    rw [stretch, stretch, List.drop_take, List.take_take, Nat.min_eq_left (by omega)]
  refine ⟨h.behind, ?_, ?_⟩
  · have hlength := congrArg List.length htake
    have hlt := h.within
    rw [List.length_take, List.length_take] at hlength
    omega
  · rw [← hstretch, htake, hstretch]
    exact h.even

/-- If the blocks are closed anywhere, what is skipped ends at the first such place. -/
theorem isLeast_skipBlock (hstart : parts[i + 1]? = some .startBlock) (h : ∃ r, ClosedAt parts i r) :
    IsLeast {r | ClosedAt parts i r} (skipBlock parts i) := by
  obtain ⟨r, hr⟩ := h
  refine ⟨?_, fun r hr => skipBlock_le_of_closedAt hstart hr⟩
  rcases closedAt_skipBlock hstart with hcloses | ⟨-, hnone⟩
  · exact hcloses
  · exact absurd hr (hnone r)

/-- Nothing behind a place where the blocks are closed changes what is skipped. -/
theorem skipBlock_of_take (h : ClosedAt parts i r) (htake : parts'.take (r + 1) = parts.take (r + 1)) :
    skipBlock parts' i = skipBlock parts i := by
  have hnext : parts'[i + 1]? = parts[i + 1]? := by
    have hlt : i + 1 < r + 1 := Nat.lt_succ_of_lt h.behind
    rw [← List.getElem?_take_of_lt hlt, htake, List.getElem?_take_of_lt hlt]
  by_cases hstart : parts[i + 1]? = some .startBlock
  · have hstart' := hnext.trans hstart
    -- Each of the two ends is one where the other list closes the blocks, too.
    have hle := skipBlock_le_of_closedAt hstart h
    have hle' := skipBlock_le_of_closedAt hstart' (h.of_take le_rfl htake)
    have hcloses := (isLeast_skipBlock hstart ⟨r, h⟩).1
    have hcloses' := (isLeast_skipBlock hstart' ⟨r, h.of_take le_rfl htake⟩).1
    exact le_antisymm (skipBlock_le_of_closedAt hstart' (hcloses.of_take hle htake))
      (skipBlock_le_of_closedAt hstart (hcloses'.of_take hle' htake.symm))
  · rw [skipBlock_of_ne hstart, skipBlock_of_ne (hnext ▸ hstart)]

end

/-! ## The end -/

/-- **What is skipped from a place is the block that follows it.**  Nothing is skipped unless a block starts right
behind the place.  Such a block is skipped up to the first place where as many ends as starts were met, or up to the last
place of the list if there is none.  The search for this place counts the open blocks and never falls below zero.  What
is skipped from a place of the list lies within the list, does not go beyond a stretch that is skipped around it, and
depends on no command behind a place where the blocks are closed; a pass over the commands skips as many. -/
theorem skipBlock_matches {σ : Type} (cs : List (Command σ)) (i : ℕ) :
    ((partsOf cs)[i + 1]? ≠ some .startBlock → skipBlock (partsOf cs) i = i) ∧
      ((partsOf cs)[i + 1]? = some .startBlock →
        ((∃ r, ClosedAt (partsOf cs) i r) → IsLeast {r | ClosedAt (partsOf cs) i r} (skipBlock (partsOf cs) i)) ∧
          ((∀ r, ¬ClosedAt (partsOf cs) i r) → skipBlock (partsOf cs) i = cs.length - 1)) ∧
      ((search (partsOf cs) i).place = skipBlock (partsOf cs) i ∧
        ∀ n depth, (search (partsOf cs) i).depths[n]? = some depth →
          0 ≤ depth ∧ depth = height (stretch (partsOf cs) i (i + 1 + n))) ∧
      (i < cs.length → skipBlock (partsOf cs) i < cs.length) ∧
      (∀ j, i ≤ j → j < skipBlock (partsOf cs) i → (partsOf cs)[j + 1]? = some .startBlock →
        skipBlock (partsOf cs) j ≤ skipBlock (partsOf cs) i) ∧
      (∀ r, ClosedAt (partsOf cs) i r → ∀ cs' : List (Command σ),
        (partsOf cs').take (r + 1) = (partsOf cs).take (r + 1) →
          skipBlock (partsOf cs') i = skipBlock (partsOf cs) i) ∧
      skipBlock (partsOf cs) i = i + guarded (cs.drop (i + 1)) := by
  have hlength : (partsOf cs).length = cs.length := List.length_map _
  refine ⟨skipBlock_of_ne, fun hstart => ⟨isLeast_skipBlock hstart, fun hnone => ?_⟩, ⟨?_, fun n depth h => ?_⟩,
    fun hi => ?_, fun j => skipBlock_laminar, fun r h cs' => skipBlock_of_take h, skipBlock_partsOf cs i⟩
  · rcases closedAt_skipBlock hstart with hcloses | ⟨hlast, -⟩
    · exact absurd hcloses (hnone _)
    · omega
  · rw [search_eq]
  · refine ⟨search_depths_nonneg (List.mem_of_getElem? h), ?_⟩
    obtain ⟨hn, rfl⟩ := List.getElem?_eq_some_iff.1 h
    simp only [search_eq, List.getElem_map, List.getElem_range]
  · rw [← hlength] at hi ⊢
    exact skipBlock_lt_length hi

/-- Commands that give no signal but to go on, by their parts. -/
def ofParts (parts : List Part) : List (Command Unit) := parts.map fun p => ⟨p.name, [], .signal p .proceed⟩

theorem partsOf_ofParts (parts : List Part) : partsOf (ofParts parts) = parts := by
  rw [partsOf, ofParts, List.map_map]
  exact List.map_id _

/-- The parts of a list with a block inside another, an end that closes nothing, and a block that is never closed. -/
def unevenParts : List Part :=
  [.plain, .startBlock, .elseMark, .startBlock, .plain, .endBlock, .endBlock, .endBlock, .startBlock, .elseMark, .plain]

theorem skipBlock_matches_unevenParts :
    IsLeast {r | ClosedAt unevenParts 0 r} 6 ∧ (search unevenParts 0).depths = [1, 1, 2, 2, 1, 0] ∧
      skipBlock unevenParts 2 ≤ 6 ∧ skipBlock unevenParts 7 = 10 ∧ skipBlock unevenParts 6 = 6 ∧
      skipBlock (unevenParts.take 7 ++ [.startBlock]) 0 = 6 := by
  have hcloses : ClosedAt unevenParts 0 6 := ⟨by decide, by decide, by decide⟩
  have hskip : skipBlock unevenParts 0 = 6 := by decide
  have hnone (r : ℕ) : ¬ClosedAt unevenParts 7 r := by
    rintro ⟨hbehind, hwithin, heven⟩
    obtain rfl | rfl : r = 9 ∨ r = 10 := by
      have hlt : r < 11 := hwithin
      omega
    · exact absurd heven (by decide)
    · exact absurd heven (by decide)
  obtain ⟨-, hends, -, -, hnested, hlater, -⟩ := skipBlock_matches (ofParts unevenParts) 0
  obtain ⟨-, hopen, -⟩ := skipBlock_matches (ofParts unevenParts) 7
  obtain ⟨hnext, -⟩ := skipBlock_matches (ofParts unevenParts) 6
  rw [partsOf_ofParts] at hends hnested hlater hopen hnext
  refine ⟨hskip ▸ (hends rfl).1 ⟨6, hcloses⟩, by decide, hskip ▸ hnested 2 (by decide) (by decide) rfl,
    (hopen rfl).2 hnone, hnext (by decide), ?_⟩
  have := hlater 6 hcloses (ofParts (unevenParts.take 7 ++ [.startBlock]))
  rw [partsOf_ofParts] at this
  exact (this rfl).trans hskip

end Run
end ArmPilot
