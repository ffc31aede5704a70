import ArmRover.Clock.Pool
import ArmRover.Proofs.Clock.Journal

/-!
# The journal of tasks

Whatever tasks do on a clock, and whatever is done to them, is a sequence of happenings, so that the
journal of the clock tells the whole story of their waits.

* `Pool.Act`, `Pool.after` — what can be done with tasks, and what comes of it.
* `Pool.happenings` — the happenings behind it.
* `Pool.Tracks` — a pool whose sleepers are the open waits of a journal, `Pool.tracks_after` — every
  pool has one.
* `Pool.wakeups_punctual` — no wake-up is lost, comes twice, or comes at the wrong time.
-/

namespace ArmRover.Pool

variable {α : Type} [Scalar α]

/-- What can be done with the tasks of a pool. -/
inductive Act (α : Type) where
  | spawn (name : String) (pauses : List (Pause α))
  | advance (dt : α)
  | release
  | cancel (name : String)
  | cancelSleepers

/-- The sleepers whose waits are due, and the others. -/
def split (p : Pool α) : List (Sleeper α) × List (Sleeper α) :=
  p.sleepers.partition fun s => (p.clock.due.map Wait.ticket).contains s.ticket

/-- The pool after something is done. -/
def perform (p : Pool α) : Act α → Pool α
  | .spawn name pauses => (p.spawn name pauses).2
  | .advance dt => p.advance dt
  | .release => p.release.2.2
  | .cancel name => (p.cancel name).2
  | .cancelSleepers => p.cancelSleepers.2

/-- The pool after one thing after the other. -/
def after (p : Pool α) (acts : List (Act α)) : Pool α := acts.foldl perform p

/-! ### Happenings -/

/-- The pauses that a task makes until it has to wait. -/
def pausesMade (c : Clock α) : List (Pause α) → List (Happening α)
  | [] => []
  | pause :: rest =>
    match c.dueAfter pause with
    | none => .pause pause :: pausesMade c rest
    | some _ => [.pause pause]

/-- The pauses that tasks make one after the other. -/
def pausesOfAll : List (Sleeper α) → Pool α → List (Happening α)
  | [], _ => []
  | s :: others, p =>
    pausesMade p.clock s.rest ++ pausesOfAll others (run s.number s.name s.rest p).2

/-- The happenings behind an act. -/
def happeningsOf (p : Pool α) : Act α → List (Happening α)
  | .spawn _ pauses => pausesMade p.clock pauses
  | .advance dt => [.advance dt]
  | .release =>
    .release :: pausesOfAll p.split.1 { p with clock := p.clock.release, sleepers := p.split.2 }
  | .cancel name =>
    match p.sleepers.find? fun s => p.numbers.get? name == some s.number with
    | none => []
    | some s => [.drop s.ticket]
  | .cancelSleepers => [.dropAll]

/-- The happenings behind one act after the other. -/
def happenings (p : Pool α) : List (Act α) → List (Happening α)
  | [] => []
  | act :: rest => p.happeningsOf act ++ (p.perform act).happenings rest

/-! ### Sleepers and open waits -/

/-- The sleepers are those that the open waits of the journal are for, in the same order. Each task
sleeps at most once, and those that are `awake`, by their numbers, do not. -/
structure Tracks (awake : List Nat) (p : Pool α) (j : Journal α) : Prop where
  clock : j.clock = p.clock
  sound : j.Sound
  sleepers : p.sleepers.map Sleeper.ticket = p.clock.waits.map Wait.ticket
  once : (awake ++ p.sleepers.map Sleeper.number).Nodup
  spawned : ∀ number ∈ awake ++ p.sleepers.map Sleeper.number, number < p.spawned

namespace Tracks

variable {p : Pool α} {j : Journal α} {awake : List Nat}

/-- A task that is awake runs until it waits or ends. -/
theorem run {number : Nat} (h : Tracks (number :: awake) p j) (name : String)
    (pauses : List (Pause α)) :
    Tracks awake (Pool.run number name pauses p).2
      ((pausesMade p.clock pauses).foldl Journal.happen j) := by
  induction pauses generalizing j with
  | nil =>
    refine ⟨h.clock, h.sound, h.sleepers, h.once.of_cons, fun other hother => ?_⟩
    exact h.spawned other (List.mem_cons_of_mem number hother)
  | cons pause rest ih =>
    cases hdue : p.clock.dueAfter pause with
    | none =>
      have hstay : j.happen (.pause pause) = j := by
        simp only [Journal.happen, h.clock, hdue]
      simp only [Pool.run, pausesMade, hdue, List.foldl_cons, hstay]
      exact ih h
    | some due =>
      have hnext : (j.happen (.pause pause)).clock = p.clock.register due := by
        simp only [Journal.happen, h.clock, hdue]
      -- the task goes from the front of those that are awake to the end of the sleepers
      have hmove : ∀ others : List Nat, (number :: (awake ++ others)).Perm
          (awake ++ (others ++ [number])) := by
        intro others
        rw [← List.append_assoc]
        exact (List.perm_append_singleton number (awake ++ others)).symm
      simp only [Pool.run, pausesMade, hdue, List.foldl_cons, List.foldl_nil]
      refine ⟨hnext, h.sound.happen _, ?_, ?_, ?_⟩
      · rw [List.map_append, h.sleepers, Clock.waits_register, List.map_append]
        rfl
      · rw [List.map_append]
        exact (hmove _).nodup_iff.mp h.once
      · intro other hother
        rw [List.map_append] at hother
        exact h.spawned other ((hmove _).mem_iff.mpr hother)

/-- Tasks that are awake run one after the other. -/
theorem wakeSleepers {others : List (Sleeper α)} (h : Tracks (others.map Sleeper.number) p j) :
    Tracks [] (Pool.wakeSleepers others p).2 ((pausesOfAll others p).foldl Journal.happen j) := by
  induction others generalizing p j with
  | nil => exact h
  | cons s others ih =>
    simp only [Pool.wakeSleepers, pausesOfAll, List.foldl_append]
    exact ih (h.run s.name s.rest)

/-- A new task is awake. -/
theorem spawned_succ (h : Tracks [] p j) (numbers : Fields Nat) :
    Tracks [p.spawned] { p with numbers, spawned := p.spawned + 1 } j := by
  refine ⟨h.clock, h.sound, h.sleepers, List.nodup_cons.mpr ⟨fun hmem => ?_, h.once⟩, ?_⟩
  · exact Nat.lt_irrefl _ (h.spawned p.spawned hmem)
  · intro number hnumber
    rcases List.mem_cons.mp hnumber with rfl | hnumber
    · exact Nat.lt_succ_self _
    · exact Nat.lt_succ_of_lt (h.spawned number hnumber)

/-- The waits whose tickets meet a condition, and the sleepers with such tickets. -/
theorem filter_sleepers (h : Tracks awake p j) (q : Nat → Bool) :
    (p.sleepers.filter fun s => q s.ticket).map Sleeper.ticket =
      (p.clock.waits.filter fun w => q w.ticket).map Wait.ticket := by
  have hsleepers : (p.sleepers.filter fun s => q s.ticket).map Sleeper.ticket =
      (p.sleepers.map Sleeper.ticket).filter q := List.filter_map.symm
  have hwaits : (p.clock.waits.filter fun w => q w.ticket).map Wait.ticket =
      (p.clock.waits.map Wait.ticket).filter q := List.filter_map.symm
  rw [hsleepers, hwaits, h.sleepers]

/-- The tickets of the waits that are due belong to no other waits. -/
theorem contains_due (h : Tracks awake p j) {w : Wait α} (hw : w ∈ p.clock.waits) :
    (p.clock.due.map Wait.ticket).contains w.ticket = p.clock.isDue w := by
  have hnodup := h.sound.nodup_waits
  rw [h.clock] at hnodup
  rw [Bool.eq_iff_iff, List.contains_iff_mem]
  constructor
  · intro hmem
    obtain ⟨w', hw', heq⟩ := List.mem_map.mp hmem
    obtain ⟨hw', hdue⟩ := List.mem_filter.mp hw'
    rw [← List.inj_on_of_nodup_map hnodup hw' hw heq]
    exact hdue
  · intro hdue
    exact List.mem_map_of_mem (List.mem_filter.mpr ⟨hw, hdue⟩)

theorem split_eq (p : Pool α) :
    p.split = (p.sleepers.filter fun s => (p.clock.due.map Wait.ticket).contains s.ticket,
      p.sleepers.filter fun s => !(p.clock.due.map Wait.ticket).contains s.ticket) :=
  List.partition_eq_filter_filter

/-- The sleepers that a release wakes are those of the waits that are due, in order. -/
theorem map_ticket_split (h : Tracks awake p j) :
    p.split.1.map Sleeper.ticket = p.clock.due.map Wait.ticket ∧
      p.split.2.map Sleeper.ticket = p.clock.release.waits.map Wait.ticket := by
  rw [split_eq]
  constructor
  · rw [h.filter_sleepers fun ticket => (p.clock.due.map Wait.ticket).contains ticket]
    exact congrArg _ (List.filter_congr fun w hw => h.contains_due hw)
  · rw [h.filter_sleepers fun ticket => !(p.clock.due.map Wait.ticket).contains ticket]
    exact congrArg _ (List.filter_congr fun w hw => congrArg (!·) (h.contains_due hw))

theorem release (h : Tracks [] p j) :
    Tracks (p.split.1.map Sleeper.number)
      { p with clock := p.clock.release, sleepers := p.split.2 } (j.happen .release) := by
  have hperm : (p.split.1.map Sleeper.number ++ p.split.2.map Sleeper.number).Perm
      (p.sleepers.map Sleeper.number) := by
    rw [← List.map_append, split_eq]
    exact (List.filter_append_perm _ p.sleepers).map Sleeper.number
  refine ⟨congrArg Clock.release h.clock, h.sound.happen _, h.map_ticket_split.2, ?_, ?_⟩
  · exact hperm.nodup_iff.mpr h.once
  · intro number hnumber
    exact h.spawned number (hperm.mem_iff.mp hnumber)

theorem cancel (h : Tracks [] p j) (name : String) :
    Tracks [] (p.cancel name).2 ((p.happeningsOf (.cancel name)).foldl Journal.happen j) := by
  cases hfind : p.sleepers.find? fun s => p.numbers.get? name == some s.number with
  | none =>
    simp only [Pool.cancel, happeningsOf, hfind]
    exact h
  | some s =>
    simp only [Pool.cancel, happeningsOf, hfind]
    have hs : s ∈ p.sleepers := List.mem_of_find?_eq_some hfind
    have hnodup := h.sound.nodup_waits
    rw [h.clock, ← h.sleepers] at hnodup
    -- The sleeper is told by its number as well as by its ticket.
    have hsame : ∀ x ∈ p.sleepers, (x.number != s.number) = (x.ticket != s.ticket) := by
      intro x hx
      rw [Bool.eq_iff_iff, bne_iff_ne, bne_iff_ne]
      refine not_congr ⟨fun heq => ?_, fun heq => ?_⟩
      · rw [List.inj_on_of_nodup_map h.once hx hs heq]
      · rw [List.inj_on_of_nodup_map hnodup hx hs heq]
    refine ⟨congrArg (Clock.drop · s.ticket) h.clock, h.sound.happen (.drop s.ticket), ?_, ?_, ?_⟩
    · show (p.sleepers.filter fun x => x.number != s.number).map Sleeper.ticket = _
      rw [List.filter_congr hsame]
      exact h.filter_sleepers fun ticket => ticket != s.ticket
    · exact h.once.sublist (List.filter_sublist.map Sleeper.number)
    · intro number hnumber
      exact h.spawned number ((List.filter_sublist.map Sleeper.number).subset hnumber)

/-- Whatever is done, the sleepers are those of the open waits. -/
theorem perform (h : Tracks [] p j) (act : Act α) :
    Tracks [] (p.perform act) ((p.happeningsOf act).foldl Journal.happen j) := by
  cases act with
  | spawn name pauses => exact (h.spawned_succ _).run name pauses
  | advance dt =>
    exact ⟨congrArg (Clock.advance · dt) h.clock, h.sound.happen (.advance dt), h.sleepers, h.once,
      h.spawned⟩
  | release => exact h.release.wakeSleepers
  | cancel name => exact h.cancel name
  | cancelSleepers =>
    exact ⟨congrArg Clock.dropAll h.clock, h.sound.happen .dropAll, rfl, .nil, nofun⟩

end Tracks

/-- Every pool has a journal. -/
theorem tracks_after (start : α) (acts : List (Act α)) :
    Tracks [] ((Pool.start start).after acts)
      (Journal.record start ((Pool.start start).happenings acts)) := by
  suffices h : ∀ (p : Pool α) (j : Journal α), Tracks [] p j →
      Tracks [] (p.after acts) ((p.happenings acts).foldl Journal.happen j) from
    h _ _ ⟨rfl, Journal.Sound.start start, rfl, .nil, nofun⟩
  induction acts with
  | nil =>
    intro p j h
    exact h
  | cons act rest ih =>
    intro p j h
    simp only [happenings, List.foldl_append]
    exact ih _ _ (h.perform act)

/-- Whatever happens to a clock, no wake-up is lost, comes twice, or comes at the wrong time. What
any number of tasks do, and what is done to them, are such happenings: the tasks that sleep are
those whose waits are unresolved, and a release answers with the number of waits that are due and
lets their tasks go on, in order. -/
theorem wakeups_punctual (start : α) :
    (∀ happened : List (Happening α), (Journal.record start happened).Punctual) ∧
    ∀ acts : List (Act α),
      let p := (Pool.start start).after acts
      let j := Journal.record start ((Pool.start start).happenings acts)
      j.clock = p.clock ∧ p.sleepers.map Sleeper.ticket = j.unresolved.map Registration.ticket ∧
      p.release.1 = j.due.length ∧
      ∃ woken asleep,
        p.release.2 = wakeSleepers woken { p with clock := p.clock.release, sleepers := asleep } ∧
        woken.map Sleeper.ticket = j.due.map Registration.ticket ∧
        asleep.map Sleeper.ticket = (j.happen .release).unresolved.map Registration.ticket := by
  refine ⟨fun happened => (Journal.sound_record start happened).punctual, fun acts => ?_⟩
  intro p j
  have h : Tracks [] p j := tracks_after start acts
  have hpunctual := h.sound.punctual
  have hnext := (h.sound.happen .release).punctual
  have hclock := h.clock
  refine ⟨hclock, ?_, ?_, p.split.1, p.split.2, rfl, ?_, ?_⟩
  · rw [← hpunctual.waiting, h.sleepers, hclock]
  · rw [← hpunctual.answer, hclock]
    exact List.length_map ..
  · rw [h.map_ticket_split.1, ← hclock, h.sound.due_eq, List.map_map]
    rfl
  · rw [h.map_ticket_split.2, ← hnext.waiting, ← hclock]
    rfl

end ArmRover.Pool
