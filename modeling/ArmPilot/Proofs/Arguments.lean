import Mathlib
import ArmPilot.Cli
import ArmPilot.Proofs.Sandbox.Sleeping

/-!
# The arguments of a run

The arguments of a run fall into groups: an option with its value, which may look like anything, or a word by itself.  A
run is asked for exactly by the arguments whose groups are in order and among which there is one word (`runOptions_groups`).
Of several options of one name the last counts, so that the groups may come in any order that keeps these apart.
-/

namespace ArmPilot
namespace Cli

/-- A group of arguments. -/
inductive Group where
  | config (path : String)
  | duration (text : String)
  | word (text : String)
deriving Repr, DecidableEq

/-- Whether a text is a number of seconds that can be measured. -/
def Lasts (text : String) : Prop := ∃ seconds, Decimal.parse? text = some seconds ∧ Devices.Admitted seconds

namespace Group

/-- The arguments of a group. -/
def args : Group → List String
  | .config path => ["--config", path]
  | .duration text => ["--duration", text]
  | .word text => [text]

/-- Whether a group is in order: its duration can be measured, and its word is no option. -/
def InOrder : Group → Prop
  | .config _ => True
  | .duration text => Lasts text
  | .word text => text ≠ "--config" ∧ text ≠ "--duration"

/-- The path of a configuration. -/
def config? : Group → Option String
  | .config path => some path
  | _ => none

/-- The time of a duration. -/
def duration? : Group → Option Nat
  | .duration text => Cli.duration? text
  | _ => none

/-- The word by itself. -/
def word? : Group → Option String
  | .word text => some text
  | _ => none

end Group

/-- Whether a list of arguments falls into groups, all of them in order. -/
structure Splits (args : List String) (gs : List Group) : Prop where
  inOrder : ∀ g ∈ gs, g.InOrder
  args : gs.flatMap Group.args = args

/-- Whether groups ask for a run with some options: the script is the only word, and of the configurations and of the
durations the last one counts. -/
structure Asks (gs : List Group) (o : RunOptions) : Prop where
  script : gs.filterMap Group.word? = [o.script]
  config : o.config = (gs.filterMap Group.config?).getLast?
  duration : o.duration = (gs.filterMap Group.duration?).getLast?

/-! ## Durations -/

theorem measures_of_duration? {text : String} {d : Nat} (h : duration? text = some d) :
    ∃ seconds, Decimal.parse? text = some seconds ∧ Devices.Measures seconds d := by
  obtain ⟨seconds, hparse, hd⟩ := Option.bind_eq_some_iff.1 h
  exact ⟨seconds, hparse, Command.measures_of_duration? hd⟩

theorem lasts_iff {text : String} : Lasts text ↔ ∃ d, duration? text = some d := by
  constructor
  · rintro ⟨seconds, hparse, hadmitted⟩
    obtain ⟨d, hd⟩ := Command.exists_duration? hadmitted
    exact ⟨d, Option.bind_eq_some_iff.2 ⟨seconds, hparse, hd⟩⟩
  · rintro ⟨d, hd⟩
    obtain ⟨seconds, hparse, hmeasures⟩ := measures_of_duration? hd
    exact ⟨seconds, hparse, hmeasures.admitted⟩

/-! ## Group by group -/

/-- Whether groups ask for a run with some options behind others, which have given some of them. -/
structure Adds (script config : Option String) (duration : Option Nat) (gs : List Group) (o : RunOptions) : Prop where
  script : script.toList ++ gs.filterMap Group.word? = [o.script]
  config : o.config = (gs.filterMap Group.config?).getLast?.or config
  duration : o.duration = (gs.filterMap Group.duration?).getLast?.or duration

section

variable {script config : Option String} {duration : Option Nat} {args rest : List String} {g : Group}
  {gs gs' : List Group} {o : RunOptions}

theorem adds_none : Adds none none none gs o ↔ Asks gs o := by
  refine ⟨fun h => ⟨h.script, ?_, ?_⟩, fun h => ⟨h.script, ?_, ?_⟩⟩
  · rw [h.config, Option.or_none]
  · rw [h.duration, Option.or_none]
  · rw [h.config, Option.or_none]
  · rw [h.duration, Option.or_none]

/-- A value that is given later takes the place of one that was given before. -/
theorem getLast?_cons_or {α : Type} (x : α) (xs : List α) (before : Option α) :
    (x :: xs).getLast?.or before = xs.getLast?.or (some x) := by
  rw [List.getLast?_cons]
  cases xs.getLast? <;> rfl

theorem adds_config (path : String) :
    Adds script config duration (.config path :: gs) o ↔ Adds script (some path) duration gs o := by
  have hconfig := getLast?_cons_or path (gs.filterMap Group.config?) config
  exact ⟨fun h => ⟨h.script, h.config.trans hconfig, h.duration⟩,
    fun h => ⟨h.script, h.config.trans hconfig.symm, h.duration⟩⟩

theorem adds_duration {text : String} {d : Nat} (hd : duration? text = some d) :
    Adds script config duration (.duration text :: gs) o ↔ Adds script config (some d) gs o := by
  have hgroup : (Group.duration text :: gs).filterMap Group.duration? = d :: gs.filterMap Group.duration? :=
    List.filterMap_cons_some hd
  have hduration := getLast?_cons_or d (gs.filterMap Group.duration?) duration
  rw [← hgroup] at hduration
  exact ⟨fun h => ⟨h.script, h.config, h.duration.trans hduration⟩,
    fun h => ⟨h.script, h.config, h.duration.trans hduration.symm⟩⟩

theorem adds_word (text : String) :
    Adds none config duration (.word text :: gs) o ↔ Adds (some text) config duration gs o :=
  ⟨fun h => ⟨h.script, h.config, h.duration⟩, fun h => ⟨h.script, h.config, h.duration⟩⟩

theorem runOptions_config (path : String) :
    runOptions script config duration ("--config" :: path :: rest) = runOptions script (some path) duration rest := by
  rw [runOptions.eq_def]
  exact if_pos rfl

theorem runOptions_duration {text : String} {d : Nat} (h : duration? text = some d) :
    runOptions script config duration ("--duration" :: text :: rest) = runOptions script config (some d) rest := by
  rw [runOptions.eq_def]
  dsimp only
  rw [if_neg (by decide), if_pos rfl, h]

theorem runOptions_word {text : String} (hconfig : text ≠ "--config") (hduration : text ≠ "--duration") :
    runOptions none config duration (text :: rest) = runOptions (some text) config duration rest := by
  rw [runOptions.eq_def]
  dsimp only
  rw [if_neg hconfig, if_neg hduration]

/-- Groups that are in order give the options that they ask for. -/
theorem runOptions_of_adds (hgs : ∀ g ∈ gs, g.InOrder) (h : Adds script config duration gs o) :
    runOptions script config duration (gs.flatMap Group.args) = .ok o := by
  induction gs generalizing script config duration with
  | nil =>
    obtain ⟨hscript, hconfig, hduration⟩ := h
    rw [List.filterMap_nil, List.append_nil, Option.toList_eq_singleton_iff] at hscript
    subst hscript
    rw [List.flatMap_nil, runOptions.eq_def]
    obtain ⟨s, c, d⟩ := o
    obtain rfl : c = config := hconfig
    obtain rfl : d = duration := hduration
    rfl
  | cons g gs ih =>
    obtain ⟨hg, hrest⟩ := List.forall_mem_cons.1 hgs
    rw [List.flatMap_cons]
    cases g with
    | config path =>
      exact (runOptions_config path).trans (ih hrest ((adds_config path).1 h))
    | duration text =>
      obtain ⟨d, hd⟩ := lasts_iff.1 hg
      exact (runOptions_duration hd).trans (ih hrest ((adds_duration hd).1 h))
    | word text =>
      cases script with
      | none => exact (runOptions_word hg.1 hg.2).trans (ih hrest ((adds_word text).1 h))
      | some s =>
        -- A second word leaves no script that the groups could ask for.
        have hlength := congrArg List.length h.script
        simp [Group.word?] at hlength

theorem splits_nil : Splits [] [] := ⟨nofun, rfl⟩

theorem Splits.cons (hg : g.InOrder) (h : Splits rest gs) : Splits (g.args ++ rest) (g :: gs) :=
  ⟨List.forall_mem_cons.2 ⟨hg, h.inOrder⟩, by rw [List.flatMap_cons, h.args]⟩

/-- Arguments that give options fall into groups that ask for these. -/
theorem exists_splits (h : runOptions script config duration args = .ok o) :
    ∃ gs, Splits args gs ∧ Adds script config duration gs o := by
  fun_induction runOptions script config duration args with
  | case1 config duration s =>
    cases h
    exact ⟨[], splits_nil, rfl, rfl, rfl⟩
  | case2 => cases h
  | case3 script config duration path rest ih =>
    obtain ⟨gs, hsplits, hadds⟩ := ih h
    exact ⟨.config path :: gs, hsplits.cons (g := .config path) trivial, (adds_config path).2 hadds⟩
  | case4 => cases h
  | case5 script config duration text rest d hd _ ih =>
    obtain ⟨gs, hsplits, hadds⟩ := ih h
    exact ⟨.duration text :: gs, hsplits.cons (g := .duration text) (lasts_iff.2 ⟨d, hd⟩), (adds_duration hd).2 hadds⟩
  | case6 => cases h
  | case7 => cases h
  | case8 config duration text rest hconfig hduration ih =>
    obtain ⟨gs, hsplits, hadds⟩ := ih h
    exact ⟨.word text :: gs, hsplits.cons (g := .word text) ⟨hconfig, hduration⟩, (adds_word text).2 hadds⟩
  | case9 => cases h

theorem runOptions_eq_ok_iff :
    runOptions none none none args = .ok o ↔ ∃ gs, Splits args gs ∧ Asks gs o := by
  constructor
  · intro h
    obtain ⟨gs, hsplits, hadds⟩ := exists_splits h
    exact ⟨gs, hsplits, adds_none.1 hadds⟩
  · rintro ⟨gs, hsplits, hasks⟩
    rw [← hsplits.args]
    exact runOptions_of_adds hsplits.inOrder (adds_none.2 hasks)

/-- The first arguments tell the first group. -/
theorem args_append_inj {rest' : List String} {g' : Group} (hg : g.InOrder) (hg' : g'.InOrder)
    (h : g.args ++ rest = g'.args ++ rest') : g = g' ∧ rest = rest' := by
  cases g <;> cases g' <;> simp_all [Group.args, Group.InOrder]

theorem Splits.ne_nil (h : Splits args (g :: gs)) : args ≠ [] := by
  rw [← h.args, List.flatMap_cons]
  cases g <;> exact List.cons_ne_nil _ _

/-- Arguments fall into groups in one way only. -/
theorem Splits.eq (h : Splits args gs) (h' : Splits args gs') : gs = gs' := by
  induction gs generalizing args gs' with
  | nil =>
    cases gs' with
    | nil => rfl
    | cons g' gs' => exact absurd h.args.symm h'.ne_nil
  | cons g gs ih =>
    cases gs' with
    | nil => exact absurd h'.args.symm h.ne_nil
    | cons g' gs' =>
      obtain ⟨hg, hrest⟩ := List.forall_mem_cons.1 h.inOrder
      obtain ⟨hg', hrest'⟩ := List.forall_mem_cons.1 h'.inOrder
      have hargs : g.args ++ gs.flatMap Group.args = g'.args ++ gs'.flatMap Group.args := h.args.trans h'.args.symm
      obtain ⟨rfl, heq⟩ := args_append_inj hg hg' hargs
      rw [ih ⟨hrest, rfl⟩ ⟨hrest', heq.symm⟩]

/-- The order of groups matters only among options of one name. -/
theorem Asks.of_perm (h : Asks gs o) (hperm : gs.Perm gs')
    (hconfig : gs.filterMap Group.config? = gs'.filterMap Group.config?)
    (hduration : gs.filterMap Group.duration? = gs'.filterMap Group.duration?) : Asks gs' o :=
  ⟨List.perm_singleton.1 ((hperm.filterMap Group.word?).symm.trans (.of_eq h.script)),
    h.config.trans (congrArg _ hconfig), h.duration.trans (congrArg _ hduration)⟩

theorem Request.ofArgs_run_iff : Request.ofArgs ("run" :: args) = .run o ↔ runOptions none none none args = .ok o := by
  rw [Request.ofArgs]
  cases runOptions none none none args with
  | ok o' => simp
  | error message => simp

end

/-- **A run is asked for exactly by arguments that fall into groups with one word among them.**  They fall into groups in
one way only; a duration is a number of seconds that can be measured, and it is measured to the nearest nanosecond; any
other arguments are refused; and the groups may come in any order in which the options of one name do. -/
theorem runOptions_groups :
    (∀ args o, Request.ofArgs ("run" :: args) = .run o ↔ runOptions none none none args = .ok o) ∧
    (∀ args o, runOptions none none none args = .ok o ↔ ∃ gs, Splits args gs ∧ Asks gs o) ∧
    (∀ args, (∃ message, runOptions none none none args = .error message) ↔ ¬∃ gs o, Splits args gs ∧ Asks gs o) ∧
    (∀ args gs gs', Splits args gs → Splits args gs' → gs = gs') ∧
    (∀ text, Lasts text ↔ ∃ d, duration? text = some d) ∧
    (∀ text d, duration? text = some d → ∃ seconds, Decimal.parse? text = some seconds ∧ Devices.Measures seconds d) ∧
    ∀ (gs gs' : List Group) (o : RunOptions), (∀ g ∈ gs, g.InOrder) → gs.Perm gs' →
      gs.filterMap Group.config? = gs'.filterMap Group.config? →
      gs.filterMap Group.duration? = gs'.filterMap Group.duration? →
      (runOptions none none none (gs.flatMap Group.args) = .ok o ↔
        runOptions none none none (gs'.flatMap Group.args) = .ok o) := by
  refine ⟨fun _ _ => Request.ofArgs_run_iff, fun _ _ => runOptions_eq_ok_iff, fun args => ?_, fun _ _ _ => Splits.eq,
    fun _ => lasts_iff, fun _ _ => measures_of_duration?, fun gs gs' o hgs hperm hconfig hduration => ?_⟩
  · simp only [exists_comm (α := List Group), ← runOptions_eq_ok_iff]
    cases runOptions none none none args with
    | ok o => simp
    | error message => simp
  · have hgs' : ∀ g ∈ gs', Group.InOrder g := fun g hg => hgs g (hperm.mem_iff.2 hg)
    have hiff {gs : List Group} (hgs : ∀ g ∈ gs, g.InOrder) :
        runOptions none none none (gs.flatMap Group.args) = .ok o ↔ Asks gs o := by
      rw [runOptions_eq_ok_iff]
      refine ⟨fun ⟨gs', hsplits, hasks⟩ => ?_, fun h => ⟨gs, ⟨hgs, rfl⟩, h⟩⟩
      exact hsplits.eq ⟨hgs, rfl⟩ ▸ hasks
    rw [hiff hgs, hiff hgs']
    exact ⟨fun h => h.of_perm hperm hconfig hduration, fun h => h.of_perm hperm.symm hconfig.symm hduration.symm⟩

/-- Groups of a run with two configurations, the first of which looks like an option. -/
def turnedGroups : List Group := [.config "--duration", .word "pick.json", .duration "1.5", .config "arm.json"]

theorem runOptions_groups_turned :
    (∀ g ∈ turnedGroups, g.InOrder) ∧
      turnedGroups.Perm [.duration "1.5", .config "--duration", .config "arm.json", .word "pick.json"] ∧
      runOptions none none none ["--duration", "1.5", "--config", "--duration", "--config", "arm.json", "pick.json"] =
        .ok ⟨"pick.json", some "arm.json", some 1500000000⟩ := by
  obtain ⟨-, hiff, -, -, hlasts, -, hperm⟩ := runOptions_groups
  have hduration : duration? "1.5" = some 1500000000 := by decide +kernel
  have hinOrder : ∀ g ∈ turnedGroups, g.InOrder := by
    rintro g (_ | ⟨_, _ | ⟨_, _ | ⟨_, _ | ⟨_, ⟨⟩⟩⟩⟩⟩)
    · trivial
    · exact ⟨by decide, by decide⟩
    · exact (hlasts _).2 ⟨_, hduration⟩
    · trivial
  have hreordered : turnedGroups.Perm [.duration "1.5", .config "--duration", .config "arm.json", .word "pick.json"] := by
    decide
  refine ⟨hinOrder, hreordered, (hperm _ _ _ hinOrder hreordered rfl rfl).1 ((hiff _ _).2 ?_)⟩
  exact ⟨turnedGroups, ⟨hinOrder, rfl⟩, rfl, rfl, hduration.symm⟩

end Cli
end ArmPilot
