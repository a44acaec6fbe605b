import ArmPilot.Run.Schedule
import ArmPilot.Proofs.Clock.Instants
import ArmPilot.Proofs.Journal
import ArmPilot.Proofs.Sandbox.Oversleeping

/-!
# The pace of the ticks

A schedule of ticks mixes times that are fixed with sleeps that are relative: a wait sleeps for what is left until the
next tick, from whenever it comes to sleep.  No tick is lost or put off by that: waits one after the other are due
period by period, however late each of them returns (`paces`).
-/

namespace ArmPilot
namespace Clock

/-- A wait for the next tick: the schedule before and behind it, whether its sleep was cut short, whether the tick is to
be made, and what was done. -/
structure Wait where
  before : Schedule
  interrupted : Bool
  goes : Bool
  after : Schedule
  acts : List Act
deriving Repr, DecidableEq

/-- The end of a wait for a tick that is due; `none` if the tick behind it is beyond the range of the clock. -/
def arrive (s : Schedule) (acts : List Act) : List Instant → Option (Wait × List Instant)
  | [] => none
  | i :: is =>
    if World.clockEnd ≤ s.next + s.period then none
    else some (⟨s, false, !i.cancelled, s.advance, acts ++ [.look i.cancelled]⟩, is)

/-- A wait for the next tick, as `Schedule.wait` has it, and the instants that are left; `none` if it does not return. -/
def wait (poll : Nat) (s : Schedule) : List Instant → Option (Wait × List Instant)
  | [] => none
  | i :: is =>
    if i.clock < s.next then
      (sleep (s.next - i.clock) poll is).bind fun p =>
        match p.slept with
        | .cut => some (⟨s, true, false, s, .read i.clock :: p.acts⟩, p.rest)
        | .full => arrive s (.read i.clock :: p.acts) p.rest
        | .overflow => none
    else arrive s [.read i.clock] is

/-- Waits one after the other, each with its own time between two looks. -/
def waits : List Nat → Schedule → List Instant → Option (List Wait)
  | [], _, _ => some []
  | poll :: polls, s, is => (wait poll s is).bind fun (v, is) => (waits polls v.after is).map (v :: ·)

/-! ## One wait -/

variable {poll : Nat} {s : Schedule} {i j : Instant} {is rest : List Instant} {v : Wait}

/-- What holds of a wait that has returned. -/
structure Wait.Paced (s : Schedule) (v : Wait) : Prop where
  before : v.before = s
  /-- The next tick is due a period later, unless the sleep was cut short. -/
  after : v.after = if v.interrupted then s else s.advance
  /-- The clock was read when the tick was due, unless the sleep was cut short. -/
  due : v.interrupted = false → ∃ t, (reads v.acts).getLast? = some t ∧ s.next ≤ t
  /-- The tick is to be made exactly if the last look saw no request to stop. -/
  goes : ∃ cancelled, (looks v.acts).getLast? = some cancelled ∧ v.goes = !cancelled
  /-- The tick is not to be made if the sleep was cut short. -/
  halts : v.interrupted = true → v.goes = false
  /-- There is no sleep if the tick was due at the first reading of the clock. -/
  prompt : ∀ t, (reads v.acts).head? = some t → s.next ≤ t → v.interrupted = false ∧ naps v.acts = []

theorem paced_of_arrive {acts : List Act} (hdue : ∃ t, (reads acts).getLast? = some t ∧ s.next ≤ t)
    (hprompt : ∀ t, (reads acts).head? = some t → s.next ≤ t → naps acts = [])
    (h : arrive s acts is = some (v, rest)) : v.Paced s ∧ rest <:+ is := by
  unfold arrive at h
  split at h
  · cases h
  · rename_i i is
    split at h
    · cases h
    · obtain ⟨rfl, rfl⟩ := Prod.mk.inj (Option.some.inj h)
      have hreads : reads (acts ++ [.look i.cancelled]) = reads acts := (reads_append ..).trans (List.append_nil _)
      have hnaps : naps (acts ++ [.look i.cancelled]) = naps acts := (naps_append ..).trans (List.append_nil _)
      refine ⟨⟨rfl, rfl, fun _ => hreads ▸ hdue, ⟨i.cancelled, ?_, rfl⟩, ?_, ?_⟩, List.suffix_cons i is⟩
      · show (looks (acts ++ [.look i.cancelled])).getLast? = some i.cancelled
        rw [looks_append]
        exact List.getLast?_concat
      · intro hcut
        cases hcut
      · intro t ht hle
        exact ⟨rfl, hnaps.trans (hprompt t (hreads ▸ ht) hle)⟩

/-- A wait that returns is paced by its schedule. -/
theorem paced_of_wait (hforward : Forward is) (h : wait poll s is = some (v, rest)) : v.Paced s ∧ rest <:+ is := by
  cases is with
  | nil => cases h
  | cons i is =>
    rw [wait] at h
    split at h
    · -- The sleep is for what was left at the first reading, and its end is counted from the second.
      rename_i hlt
      obtain ⟨p, hp, hv⟩ := Option.bind_eq_some_iff.1 h
      cases is with
      | nil => cases hp
      | cons j is =>
        have hij : i.clock ≤ j.clock := (List.pairwise_cons.1 hforward).1 _ (List.mem_cons_self ..)
        have hearly {acts : List Act} : ∀ t, (reads (.read i.clock :: acts)).head? = some t → ¬s.next ≤ t := by
          intro t ht
          obtain rfl : i.clock = t := Option.some.inj ht
          exact Nat.not_le.2 hlt
        obtain ⟨hleft, hlook, hread⟩ := sleep_spec hp
        have hsuffix : p.rest <:+ i :: j :: is := hleft.trans ((List.suffix_cons j is).trans (List.suffix_cons i _))
        split at hv
        · rename_i hcut
          obtain ⟨rfl, rfl⟩ := Prod.mk.inj (Option.some.inj hv)
          exact ⟨⟨rfl, rfl, fun hnot => absurd hnot.symm Bool.false_ne_true, ⟨true, hlook hcut, rfl⟩, fun _ => rfl,
            fun t ht hle => absurd hle (hearly t ht)⟩, hsuffix⟩
        · rename_i hfull
          obtain ⟨t, ht, hle⟩ := hread hfull
          have hlast : (reads (.read i.clock :: p.acts)).getLast? = some t := by
            show (i.clock :: reads p.acts).getLast? = some t
            rw [List.getLast?_cons, ht, Option.getD_some]
          obtain ⟨hpaced, hrest⟩ :=
            paced_of_arrive ⟨t, hlast, by omega⟩ (fun t ht hle => absurd hle (hearly t ht)) hv
          exact ⟨hpaced, hrest.trans hsuffix⟩
        · cases hv
    · obtain ⟨hpaced, hrest⟩ := paced_of_arrive ⟨i.clock, rfl, by omega⟩ (fun _ _ _ => rfl) h
      exact ⟨hpaced, hrest.trans (List.suffix_cons i is)⟩

theorem wait_of_cut {acts : List Act} (hlt : i.clock < s.next)
    (h : sleep (s.next - i.clock) poll is = some ⟨.cut, acts, rest⟩) :
    wait poll s (i :: is) = some (⟨s, true, false, s, .read i.clock :: acts⟩, rest) := by
  rw [wait, if_pos hlt, h]
  rfl

theorem wait_of_full {acts : List Act} (hlt : i.clock < s.next) (hrange : s.next + s.period < World.clockEnd)
    (h : sleep (s.next - i.clock) poll is = some ⟨.full, acts, j :: rest⟩) :
    wait poll s (i :: is) =
      some (⟨s, false, !j.cancelled, s.advance, .read i.clock :: acts ++ [.look j.cancelled]⟩, rest) := by
  rw [wait, if_pos hlt, h]
  exact if_neg (Nat.not_le.2 hrange)

/-- A wait for a tick that is due returns at once. -/
theorem wait_of_due (hdue : s.next ≤ i.clock) (hrange : s.next + s.period < World.clockEnd) :
    wait poll s (i :: j :: is) =
      some (⟨s, false, !j.cancelled, s.advance, [.read i.clock, .look j.cancelled]⟩, is) := by
  rw [wait, if_neg (Nat.not_lt.2 hdue), arrive, if_neg (Nat.not_le.2 hrange)]
  rfl

/-! ## Waits one after the other -/

/-- The waits one after the other are linked by their schedules, and each is paced by its own. -/
theorem paced_of_waits {polls : List Nat} {vs : List Wait} (hforward : Forward is) (h : waits polls s is = some vs) :
    Linked Wait.before Wait.after s vs ∧ ∀ v ∈ vs, v.Paced v.before := by
  induction polls generalizing s is vs with
  | nil =>
    cases h
    exact ⟨trivial, fun v hv => absurd hv List.not_mem_nil⟩
  | cons poll polls ih =>
    obtain ⟨⟨v, rest⟩, hwait, hrest⟩ := Option.bind_eq_some_iff.1 h
    obtain ⟨vs, hvs, rfl⟩ := Option.map_eq_some_iff.1 hrest
    obtain ⟨hpaced, hsuffix⟩ := paced_of_wait hforward hwait
    obtain ⟨hlinked, hall⟩ := ih (hforward.sublist (hsuffix.sublist.map _)) hvs
    refine ⟨⟨hpaced.before, hlinked⟩, fun v' hv' => ?_⟩
    rcases List.mem_cons.1 hv' with rfl | hv'
    · rw [hpaced.before]
      exact hpaced
    · exact hall v' hv'

/-- Behind waits one after the other, as many periods have passed as there were waits whose sleep was not cut short. -/
theorem endOf_after {vs : List Wait} (hlinked : Linked Wait.before Wait.after s vs) (hpaced : ∀ v ∈ vs, v.Paced v.before) :
    endOf Wait.after s vs = ⟨s.period, s.next + s.period * vs.countP (!·.interrupted)⟩ := by
  induction vs generalizing s with
  | nil => rfl
  | cons v vs ih =>
    obtain ⟨rfl, hvs⟩ := hlinked
    have hafter := (hpaced v (List.mem_cons_self ..)).after
    rw [endOf_cons, ih hvs fun v' hv' => hpaced v' (List.mem_cons_of_mem _ hv'), hafter, List.countP_cons]
    cases v.interrupted with
    | true => rfl
    | false =>
      show Schedule.mk v.before.period (v.before.next + v.before.period + v.before.period * _) =
        ⟨v.before.period, v.before.next + v.before.period * (_ + 1)⟩
      rw [Nat.mul_succ, Nat.add_assoc, Nat.add_comm v.before.period]

/-- A wait behind others that let their ticks be made is for a tick that is due as many periods later. -/
theorem le_next_of_goes {vs : List Wait} (hlinked : Linked Wait.before Wait.after s vs)
    (hpaced : ∀ v ∈ vs, v.Paced v.before) {k : Nat} {v : Wait} (h : (vs.filter Wait.goes)[k]? = some v) :
    s.next + s.period * k ≤ v.before.next := by
  induction vs generalizing s k with
  | nil => cases h
  | cons u vs ih =>
    obtain ⟨rfl, hvs⟩ := hlinked
    have hu := hpaced u (List.mem_cons_self ..)
    have hrest {k : Nat} (h : (vs.filter Wait.goes)[k]? = some v) :
        u.after.next + u.after.period * k ≤ v.before.next :=
      ih hvs (fun v' hv' => hpaced v' (List.mem_cons_of_mem _ hv')) h
    rw [hu.after] at hrest
    cases hgoes : u.goes with
    | false =>
      rw [List.filter_cons_of_neg (ne_true_of_eq_false hgoes)] at h
      have := hrest h
      split at this
      · exact this
      · exact Nat.le_trans (Nat.add_le_add_right (Nat.le_add_right ..) _) this
    | true =>
      have hslept : u.interrupted = false := Bool.eq_false_iff.2 fun hi => by
        rw [hu.halts hi] at hgoes
        cases hgoes
      rw [List.filter_cons_of_pos hgoes] at h
      cases k with
      | zero =>
        obtain rfl := Option.some.inj h
        exact Nat.le_refl _
      | succ k =>
        have := hrest h
        rw [hslept] at this
        rw [Nat.mul_succ, Nat.add_comm (_ * k), ← Nat.add_assoc]
        exact this

/-! ## The waits of a run -/

/-- **The wait of a run is the one at the instants that its world comes to**, while its ticks are within the range of
the clock. -/
theorem exists_wait {σ : Type} {o : Outside σ} (ho : Onward o) (poll : Nat) (s : Schedule) (w : World σ)
    (hrange : s.next + s.period < World.clockEnd) :
    ∃ is v, Forward (instant w :: (is ++ [instant (s.wait o poll w).2.2])) ∧ wait poll s is = some (v, []) ∧
      (v.goes, v.after) = ((s.wait o poll w).1, (s.wait o poll w).2.1) := by
  unfold Schedule.wait
  split
  · rename_i hlt
    match hs : w.sleep o (s.next - w.clock) poll with
    | (.overflow, w') =>
      obtain ⟨hend, -⟩ := World.sleep_overflow_iff.1 hs
      omega
    | (.cut, w') =>
      obtain ⟨is, acts, hforward, hsleep⟩ := exists_sleep ho (s.next - w.clock) poll w []
      rw [hs] at hforward hsleep
      rw [List.append_nil] at hsleep
      exact ⟨instant w :: is, _, forward_cons (Nat.le_refl _) hforward, wait_of_cut hlt hsleep, rfl⟩
    | (.full, w') =>
      obtain ⟨is, acts, hforward, hsleep⟩ := exists_sleep ho (s.next - w.clock) poll w [instant w']
      rw [hs] at hforward hsleep
      refine ⟨instant w :: (is ++ [instant w']), _, ?_, wait_of_full hlt hrange hsleep, rfl⟩
      exact forward_cons (Nat.le_refl _) (forward_concat (show Forward ((instant w :: is) ++ [instant w']) from hforward))
  · rename_i hge
    refine ⟨[instant w, instant w], _, ?_, wait_of_due (Nat.le_of_not_lt hge) hrange, rfl⟩
    exact forward_cons (Nat.le_refl _) (forward_cons (Nat.le_refl _) (forward_cons (Nat.le_refl _)
      (List.pairwise_singleton ..)))

/-! ## The pace -/

/-- **Ticks are due period by period.**  However late the clock is read and whatever is asked of the run meanwhile: a wait
puts off the next tick by one period, or not at all if its sleep was cut short, and so do all waits together; the
`k`-th wait that lets its tick be made has read the clock at its due time or later; a wait that comes after its due time
lets no time pass; and the tick is to be made exactly if the last look saw no request to stop.  A wait that finds its
tick due does return, and the waits of a run are such waits. -/
theorem keeps_pace (period start : Nat) {polls : List Nat} {is : List Instant} {vs : List Wait} (hforward : Forward is)
    (h : waits polls (.start period start) is = some vs) :
    (∀ v ∈ vs, v.after = if v.interrupted then v.before else v.before.advance) ∧
      endOf Wait.after (.start period start) vs = ⟨period, start + period * vs.countP (!·.interrupted)⟩ ∧
      (∀ k v, (vs.filter Wait.goes)[k]? = some v →
        ∃ t, (reads v.acts).getLast? = some t ∧ start + period * k ≤ t) ∧
      (∀ v ∈ vs, ∀ t, (reads v.acts).head? = some t → v.before.next ≤ t → v.interrupted = false ∧ naps v.acts = []) ∧
      (∀ v ∈ vs, ∃ cancelled, (looks v.acts).getLast? = some cancelled ∧ v.goes = !cancelled) ∧
      (∀ (poll : Nat) (s : Schedule) (i j : Instant) (rest : List Instant), s.next ≤ i.clock →
        s.next + s.period < World.clockEnd →
        wait poll s (i :: j :: rest) =
          some (⟨s, false, !j.cancelled, s.advance, [.read i.clock, .look j.cancelled]⟩, rest)) ∧
      ∀ {σ : Type} (o : Outside σ) (poll : Nat) (s : Schedule) (w : World σ), Onward o →
        s.next + s.period < World.clockEnd →
        ∃ is v, Forward (instant w :: (is ++ [instant (s.wait o poll w).2.2])) ∧ wait poll s is = some (v, []) ∧
          (v.goes, v.after) = ((s.wait o poll w).1, (s.wait o poll w).2.1) := by
  obtain ⟨hlinked, hpaced⟩ := paced_of_waits hforward h
  refine ⟨fun v hv => (hpaced v hv).after, endOf_after hlinked hpaced, fun k v hk => ?_,
    fun v hv t ht hle => ((hpaced v hv).prompt t ht hle), fun v hv => (hpaced v hv).goes,
    fun _ _ _ _ _ hdue hrange => wait_of_due hdue hrange, fun o poll s w ho hrange => exists_wait ho poll s w hrange⟩
  have hv : v ∈ vs.filter Wait.goes := List.mem_of_getElem? hk
  obtain ⟨hmem, hgoes⟩ := List.mem_filter.1 hv
  have hslept : v.interrupted = false := Bool.eq_false_iff.2 fun hi => by
    rw [(hpaced v hmem).halts hi] at hgoes
    cases hgoes
  obtain ⟨t, ht, hle⟩ := (hpaced v hmem).due hslept
  exact ⟨t, ht, Nat.le_trans (le_next_of_goes hlinked hpaced hk) hle⟩

/-- Instants at which a run waits that makes a tick every 20 ms: the second wait sleeps, the third comes late, so that the
fourth returns at once, and during the fifth the run is asked to stop. -/
def lateInstants : List Instant :=
  [⟨0, false⟩, ⟨0, false⟩,
    ⟨1000000, false⟩, ⟨1000500, false⟩, ⟨1000600, false⟩, ⟨12000000, false⟩, ⟨18000000, false⟩, ⟨22000000, false⟩,
    ⟨22000100, false⟩,
    ⟨70000000, false⟩, ⟨70000000, false⟩,
    ⟨71000000, false⟩, ⟨71000000, false⟩,
    ⟨72000000, false⟩, ⟨72000000, false⟩, ⟨72000000, false⟩, ⟨72000100, false⟩, ⟨77000100, true⟩]

/-- What becomes of the waits at these instants. -/
def lateWaits : List Wait := (waits (List.replicate 5 5000000) (.start 20000000 0) lateInstants).getD []

theorem keeps_pace_lateInstants :
    Forward lateInstants ∧ waits (List.replicate 5 5000000) (.start 20000000 0) lateInstants = some lateWaits ∧
      lateWaits.map Wait.goes = [true, true, true, true, false] ∧
      endOf Wait.after (.start 20000000 0) lateWaits = ⟨20000000, 80000000⟩ ∧
      wait 5000000 ⟨20000000, 60000000⟩ [⟨71000000, false⟩, ⟨71000000, false⟩] =
        some (⟨⟨20000000, 60000000⟩, false, true, ⟨20000000, 80000000⟩, [.read 71000000, .look false]⟩, []) ∧
      Onward (Outside.nobody Unit) ∧
      ∃ is v, wait 5000000 ⟨20000000, 20000000⟩ is = some (v, []) ∧ v.goes = true ∧ v.after = ⟨20000000, 40000000⟩ := by
  have hforward : Forward lateInstants := by decide
  have hwaits : waits (List.replicate 5 5000000) (.start 20000000 0) lateInstants = some lateWaits := by decide
  have honward : Onward (Outside.nobody Unit) := fun _ => Nat.le_refl _
  obtain ⟨-, hend, -, -, -, hdue, hworld⟩ := keeps_pace 20000000 0 hforward hwaits
  obtain ⟨is, v, -, hwait, hv⟩ :=
    hworld (Outside.nobody Unit) 5000000 ⟨20000000, 20000000⟩ (World.initial ()) honward (by decide)
  obtain ⟨hgoes, hafter⟩ := Prod.mk.inj hv
  exact ⟨hforward, hwaits, by decide, hend.trans (by decide), hdue _ _ _ _ _ (by decide) (by decide), honward,
    is, v, hwait, hgoes.trans rfl, hafter.trans rfl⟩

end Clock
end ArmPilot
