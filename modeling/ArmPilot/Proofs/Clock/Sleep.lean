import ArmPilot.Config
import ArmPilot.Proofs.Clock.Instants

/-!
# What a sleep does

A sleep goes by rounds.  In each it looks whether the run is asked to stop, reads the clock, and lets some time pass:
never none, so that it does not spin, and never more than there is between two looks or until its end.  The clock and
those who ask the run to stop are free, so that all of this is said at any instants; only a request that is not
withdrawn binds the sleep, and it is seen at the next look (`sleep_contract`).
-/

namespace ArmPilot
namespace Clock

section

variable {deadline bound duration poll : Nat} {slept : World.Slept} {i : Instant} {is : List Instant} {p : Sleep}
  {acts front back : List Act}

/-- A sleep whose end is within the range of the clock reads the clock, and then goes by rounds until its time has
passed. -/
theorem sleep_eq_some (hrange : i.clock + duration < World.clockEnd) (h : sleep duration poll (i :: is) = some p) :
    ∃ q, sleepUntil (i.clock + duration) (max poll World.leastPoll) is = some q ∧ q.behind [.read i.clock] = p := by
  rw [sleep, if_neg (Nat.not_le.2 hrange)] at h
  exact Option.map_eq_some_iff.1 h

/-! ## A request that is not withdrawn -/

/-- Rounds that only see that the run is asked to stop are a single look. -/
theorem Rounds.eq_of_looks (h : Rounds deadline bound slept acts) (hlooks : ∀ c ∈ looks acts, c = true) :
    slept = .cut ∧ acts = [.look true] := by
  cases h with
  | cut => exact ⟨rfl, rfl⟩
  | full => cases hlooks false (List.mem_cons_self ..)
  | again => cases hlooks false (List.mem_cons_self ..)

/-- Rounds that from some point on only see that the run is asked to stop end at the first look behind that point, and
let no more than one time pass until then. -/
theorem Rounds.back_of_looks (h : Rounds deadline bound slept (front ++ back)) (hlooks : ∀ c ∈ looks back, c = true) :
    looks back = [] ∧ naps back = [] ∨ slept = .cut ∧ looks back = [true] ∧ (naps back).length ≤ 1 := by
  generalize hacts : front ++ back = acts at h
  induction h generalizing front with
  | cut =>
    rcases front with _ | ⟨_, front⟩
    · obtain rfl : back = _ := hacts
      exact .inr ⟨rfl, rfl, Nat.zero_le _⟩
    · obtain ⟨-, rfl⟩ := List.append_eq_nil_iff.1 (List.cons.inj hacts).2
      exact .inl ⟨rfl, rfl⟩
  | full =>
    rcases front with _ | ⟨_, _ | ⟨_, front⟩⟩
    · obtain rfl : back = _ := hacts
      cases hlooks false (List.mem_cons_self ..)
    · obtain rfl : back = _ := (List.cons.inj hacts).2
      exact .inl ⟨rfl, rfl⟩
    · obtain ⟨-, rfl⟩ := List.append_eq_nil_iff.1 (List.cons.inj (List.cons.inj hacts).2).2
      exact .inl ⟨rfl, rfl⟩
  | again _ _ _ rest ih =>
    -- The point is before the look of this round, behind it, behind the reading, or in a later round.
    rcases front with _ | ⟨_, _ | ⟨_, _ | ⟨_, front⟩⟩⟩
    · obtain rfl : back = _ := hacts
      cases hlooks false (List.mem_cons_self ..)
    · obtain rfl : back = _ := (List.cons.inj hacts).2
      obtain ⟨rfl, rfl⟩ := rest.eq_of_looks hlooks
      exact .inr ⟨rfl, rfl, Nat.le_refl _⟩
    · obtain rfl : back = _ := (List.cons.inj (List.cons.inj hacts).2).2
      obtain ⟨rfl, rfl⟩ := rest.eq_of_looks hlooks
      exact .inr ⟨rfl, rfl, Nat.le_refl _⟩
    · exact ih (List.cons.inj (List.cons.inj (List.cons.inj hacts).2).2).2

/-- The same with the first reading of the clock before the rounds. -/
theorem Rounds.back_of_looks_cons {t : Nat} (h : Rounds deadline bound slept acts)
    (hacts : .read t :: acts = front ++ back) (hlooks : ∀ c ∈ looks back, c = true) :
    looks back = [] ∧ naps back = [] ∨ slept = .cut ∧ looks back = [true] ∧ (naps back).length ≤ 1 := by
  rcases front with _ | ⟨_, front⟩
  · obtain rfl : _ = back := hacts
    obtain ⟨rfl, rfl⟩ := h.eq_of_looks hlooks
    exact .inr ⟨rfl, rfl, Nat.zero_le _⟩
  · obtain rfl : acts = front ++ back := (List.cons.inj hacts).2
    exact h.back_of_looks hlooks

/-- Readings at instants at which the run is asked to stop see that it is. -/
theorem looks_eq_true {after : List Instant} (hshown : List.Forall₂ ShownAt (readings acts) after)
    (hafter : ∀ j ∈ after, j.cancelled = true) : ∀ c ∈ looks acts, c = true := by
  induction acts generalizing after with
  | nil => nofun
  | cons a acts ih =>
    cases a with
    | nap => exact ih hshown hafter
    | read =>
      obtain _ | ⟨-, hrest⟩ := hshown
      exact ih hrest fun j hj => hafter j (List.mem_cons_of_mem _ hj)
    | look =>
      obtain _ | ⟨hshow, hrest⟩ := hshown
      refine List.forall_mem_cons.2 ⟨hshow.symm.trans (hafter _ (List.mem_cons_self ..)), ?_⟩
      exact ih hrest fun j hj => hafter j (List.mem_cons_of_mem _ hj)

/-- Readings behind the instant from which on the run is asked to stop see that it is. -/
theorem looks_back_eq_true {taken rest before after : List Instant}
    (hshown : List.Forall₂ ShownAt (readings (front ++ back)) taken) (htaken : taken ++ rest = before ++ after)
    (hafter : ∀ j ∈ after, j.cancelled = true) (hfront : before.length ≤ (readings front).length) :
    ∀ c ∈ looks back, c = true := by
  have hback : List.Forall₂ ShownAt (readings back) (taken.drop (readings front).length) := by
    have := List.forall₂_drop (readings front).length hshown
    rwa [readings_append, List.drop_left] at this
  refine looks_eq_true hback fun j hj => hafter j ?_
  have hmem : j ∈ (taken ++ rest).drop (readings front).length := by
    rw [List.drop_append]
    exact List.mem_append_left _ hj
  rw [htaken, List.drop_append, List.drop_eq_nil_of_le hfront, List.nil_append] at hmem
  exact List.mem_of_mem_drop hmem

/-- A round that does not end the sleep is followed by the other rounds. -/
theorem exists_sleepUntil_round {j : Instant} (hi : i.cancelled = false)
    (h : ∃ p, sleepUntil deadline poll is = some p) : ∃ p, sleepUntil deadline poll (i :: j :: is) = some p := by
  rcases Nat.lt_or_ge j.clock deadline with hlt | hle
  · obtain ⟨p, hp⟩ := h
    exact ⟨_, (sleepUntil_of_lt hi hlt).trans (congrArg (Option.map _) hp)⟩
  · exact ⟨_, sleepUntil_of_le hi hle⟩

/-- Rounds end by the second instant from which on the run is asked to stop. -/
theorem exists_sleepUntil_of_cancelled {a b : Instant} {after : List Instant} (ha : a.cancelled = true)
    (hb : b.cancelled = true) : ∀ before : List Instant,
      ∃ p, sleepUntil deadline poll (before ++ a :: b :: after) = some p
  | [] => ⟨_, sleepUntil_of_cancelled ha⟩
  | i :: before => by
    cases hi : i.cancelled with
    | true => exact ⟨_, sleepUntil_of_cancelled hi⟩
    | false =>
      -- A round that does not end takes two instants.
      match before with
      | [] => exact exists_sleepUntil_round hi ⟨_, sleepUntil_of_cancelled hb⟩
      | j :: before => exact exists_sleepUntil_round hi (exists_sleepUntil_of_cancelled ha hb before)

/-- A sleep ends by the second instant from which on the run is asked to stop. -/
theorem exists_sleep_of_cancelled {a b : Instant} {after : List Instant} (ha : a.cancelled = true)
    (hb : b.cancelled = true) (before : List Instant) : ∃ p, sleep duration poll (before ++ a :: b :: after) = some p := by
  have hrounds (i : Instant) {is : List Instant} (h : ∀ deadline poll, ∃ p, sleepUntil deadline poll is = some p) :
      ∃ p, sleep duration poll (i :: is) = some p := by
    rw [sleep]
    split
    · exact ⟨_, rfl⟩
    · obtain ⟨p, hp⟩ := h (i.clock + duration) (max poll World.leastPoll)
      exact ⟨_, congrArg (Option.map _) hp⟩
  cases before with
  | nil => exact hrounds a fun _ _ => ⟨_, sleepUntil_of_cancelled hb⟩
  | cons i before => exact hrounds i fun _ _ => exists_sleepUntil_of_cancelled ha hb before

/-! ## The contract -/

/-- **A sleep keeps its contract**, at any instants, for any time and any time between two looks, if its end is within the
range of the clock.  It reads the clock and goes by rounds, each of which ends it or lets some time pass, no more than
there is between two looks and never past its end; it lasts until the clock has shown its end, at a reading right behind
a look that saw no request to stop, or until a look saw one.  From an instant on from which the run is asked to stop
throughout, the sleep lets no more than one time pass and ends with its first look, if there is one; and it does end.
The sleeps of a run are such sleeps, and they look at least every hundred milliseconds. -/
theorem sleep_contract (hrange : i.clock + duration < World.clockEnd)
    (h : sleep duration poll (i :: is) = some p) :
    (∃ acts, p.acts = .read i.clock :: acts ∧
      Rounds (i.clock + duration) (max poll World.leastPoll) p.slept acts) ∧
      (∃ taken, i :: is = taken ++ p.rest ∧ List.Forall₂ ShownAt (readings p.acts) taken) ∧
      (∀ before after, i :: is = before ++ after → (∀ j ∈ after, j.cancelled = true) →
        ∀ front back, p.acts = front ++ back → before.length ≤ (readings front).length →
          looks back = [] ∧ naps back = [] ∨
            p.slept = .cut ∧ looks back = [true] ∧ (naps back).length ≤ 1) ∧
      (∀ before after, (∀ j ∈ after, j.cancelled = true) → 2 ≤ after.length →
        ∃ q, sleep duration poll (before ++ after) = some q) ∧
      (∀ {σ : Type} (o : Outside σ) (w : World σ), Onward o →
        ∃ is acts, Forward (instant w :: (is ++ [instant (w.sleep o duration poll).2])) ∧
          sleep duration poll (instant w :: is) = some ⟨(w.sleep o duration poll).1, acts, []⟩) ∧
      ∀ c : Config, World.leastPoll ≤ c.sleepPoll ∧ c.sleepPoll ≤ 100 * World.leastPoll := by
  obtain ⟨q, hq, rfl⟩ := sleep_eq_some hrange h
  have hpoll : 0 < max poll World.leastPoll := Nat.lt_of_lt_of_le (by decide) (Nat.le_max_right ..)
  have hrounds := rounds_of_sleepUntil hpoll hq
  have hshown : ∃ taken, i :: is = taken ++ q.rest ∧ List.Forall₂ ShownAt (readings (.read i.clock :: q.acts)) taken := by
    obtain ⟨taken, rfl, hshown⟩ := shownAt_of_sleepUntil hq
    exact ⟨i :: taken, rfl, .cons rfl hshown⟩
  refine ⟨⟨q.acts, rfl, hrounds⟩, hshown, ?_, ?_, ?_, ?_⟩
  · intro before after his hafter front back hacts hfront
    obtain ⟨taken, htaken, hshow⟩ := hshown
    have hacts : .read i.clock :: q.acts = front ++ back := hacts
    rw [hacts] at hshow
    exact hrounds.back_of_looks_cons hacts
      (looks_back_eq_true hshow (htaken.symm.trans his) hafter hfront)
  · intro before after hafter hlength
    match after, hlength with
    | a :: b :: after, _ =>
      exact exists_sleep_of_cancelled (hafter a (by simp)) (hafter b (by simp)) before
  · intro σ o w ho
    obtain ⟨is, acts, hforward, hsleep⟩ := exists_sleep_from ho duration poll w []
    rw [List.append_nil] at hsleep
    exact ⟨is, acts, hforward, hsleep⟩
  · intro c
    show 1000000 ≤ min (max c.sleepPollMs 1) 100 * 1000000 ∧ min (max c.sleepPollMs 1) 100 * 1000000 ≤ 100 * 1000000
    omega

/-- Instants at which a run sleeps that has read the clock at 5 ns: it is asked to stop and not any more between the first
two looks, and asked again for good behind the second. -/
def withdrawnInstants : List Instant :=
  [⟨5, false⟩, ⟨6, true⟩, ⟨1000006, false⟩, ⟨1000007, true⟩, ⟨2000007, true⟩]

/-- The sleep for 2.5 ms at these instants. -/
def withdrawnSleep : Sleep :=
  ⟨.cut, [.read 5, .look false, .read 6, .nap 1000000, .look false, .read 1000007, .nap 1000000, .look true], []⟩

theorem sleep_contract_withdrawnInstants :
    5 + 2500000 < World.clockEnd ∧ sleep 2500000 0 (⟨5, false⟩ :: withdrawnInstants) = some withdrawnSleep ∧
      (∃ acts, withdrawnSleep.acts = .read 5 :: acts ∧ Rounds 2500005 1000000 .cut acts) ∧
      (looks (withdrawnSleep.acts.drop 5) = [] ∧ naps (withdrawnSleep.acts.drop 5) = [] ∨
        withdrawnSleep.slept = .cut ∧ looks (withdrawnSleep.acts.drop 5) = [true] ∧
          (naps (withdrawnSleep.acts.drop 5)).length ≤ 1) ∧
      (∃ q, sleep 2500000 0 [⟨7, false⟩, ⟨7, true⟩, ⟨8, true⟩] = some q) ∧ Onward (Outside.nobody Unit) ∧
      ∃ is acts, sleep 2500000 0 (⟨0, false⟩ :: is) = some ⟨.full, acts, []⟩ := by
  have hrange : 5 + 2500000 < World.clockEnd := by decide
  have hsleep : sleep 2500000 0 (⟨5, false⟩ :: withdrawnInstants) = some withdrawnSleep := by decide
  have honward : Onward (Outside.nobody Unit) := fun _ => Nat.le_refl _
  obtain ⟨hrounds, -, hback, hends, hworld, -⟩ := sleep_contract hrange hsleep
  obtain ⟨is, acts, -, hfull⟩ := hworld (Outside.nobody Unit) (World.initial ()) honward
  exact ⟨hrange, hsleep, hrounds,
    hback (⟨5, false⟩ :: withdrawnInstants.take 3) (withdrawnInstants.drop 3) rfl (by decide)
      (withdrawnSleep.acts.take 5) (withdrawnSleep.acts.drop 5) rfl (by decide),
    hends [⟨7, false⟩] [⟨7, true⟩, ⟨8, true⟩] (by decide) (by decide), honward, is, acts, hfull⟩

end

end Clock
end ArmPilot
